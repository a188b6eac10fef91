import RoutineWatch.Proofs.Registry.Stored

/-!
# Reading the stored form entry by entry

A text is refused exactly if it is no JSON object. Of an object every entry stands for
itself: it gives a routine if its value has the shape of one, and a warning if it does not,
and what is beside it makes no difference.

- `Routine.ofJson_eq_ok_iff`: a routine is read exactly from a value of its shape
  (`Routine.Describes`).
- `Registry.parse_error_iff`: which texts are refused.
- `Registry.parse_exact`: what all others are read as.
-/
namespace RoutineWatch

namespace FloatType

theorem ofName?_eq_some_iff {text : String} {type : FloatType} :
    ofName? text = some type ↔ text = type.name := by
  constructor
  · intro found
    have named := List.find?_some found
    exact (of_decide_eq_true named).symm
  · rintro rfl
    exact ofName?_name type

/-- A type is read from its name and from nothing else. -/
theorem ofJson_eq_ok_iff {value : Json} {type : FloatType} :
    ofJson value = .ok type ↔ value = .string type.name := by
  cases value with
  | string text =>
    rw [ofJson, Json.string.injEq, ← ofName?_eq_some_iff]
    cases ofName? text <;> simp
  | null | bool _ | number _ | array _ | object _ => simp [ofJson]

end FloatType

namespace Routine

/-! The shape of a routine -/

/-- A value has the shape of a routine: an object with a list of texts as its sources and the
name of a type, or a list of just these two. -/
inductive Describes : Json → Routine → Prop where
  | byName {members : List (String × Json)} {texts : List String} {type : FloatType}
      (sources : (Json.object members).get? "sources" = some (.array (texts.map .string)))
      (named : (Json.object members).get? "type" = some (.string type.name)) :
      Describes (.object members) ⟨TextSet.ofList texts, type⟩
  | byPlace (texts : List String) (type : FloatType) :
      Describes (.array [.array (texts.map .string), .string type.name])
        ⟨TextSet.ofList texts, type⟩

theorem foldlM_addSource_eq_ok_iff {items : List Json} {set out : TextSet} :
    items.foldlM addSource set = .ok out ↔
      ∃ texts : List String, items = texts.map .string ∧ out = texts.foldl TextSet.insert set := by
  constructor
  · intro read
    induction items generalizing set with
    | nil => exact ⟨[], rfl, (Except.ok.inj read).symm⟩
    | cons item items ih =>
      rw [List.foldlM_cons] at read
      cases item with
      | string text =>
        obtain ⟨texts, rfl, rfl⟩ := ih read
        exact ⟨text :: texts, rfl, rfl⟩
      | null | bool _ | number _ | array _ | object _ => cases read
  · rintro ⟨texts, rfl, rfl⟩
    exact foldlM_addSource texts set

/-- Sources are read from a list of texts and from nothing else. -/
theorem sourcesOfJson_eq_ok_iff {value : Json} {sources : TextSet} :
    sourcesOfJson value = .ok sources ↔
      ∃ texts : List String, value = .array (texts.map .string) ∧ sources = TextSet.ofList texts := by
  cases value with
  | array items =>
    rw [sourcesOfJson, foldlM_addSource_eq_ok_iff]
    simp [TextSet.ofList]
  | null | bool _ | number _ | string _ | object _ => simp [sourcesOfJson]

/-- A field after a value was read for it, if there was one. -/
def Filled {α : Type} (read : Json → Except Mismatch α) (value : Option Json)
    (before after : Option α) : Prop :=
  match value with
  | none => after = before
  | some value => ∃ a, read value = .ok a ∧ after = some a

theorem filled_iff {α : Type} {read : Json → Except Mismatch α} {value : Option Json} {a : α} :
    Filled read value none (some a) ↔ ∃ json, value = some json ∧ read json = .ok a := by
  cases value <;> simp [Filled, eq_comm]

/-- Members fill the two fields, whatever other members there are. -/
theorem foldlM_addField_eq_ok_iff {members : List (String × Json)}
    (once : (members.map (·.1)).Nodup) {before after : Option TextSet × Option FloatType} :
    members.foldlM addField before = .ok after ↔
      Filled sourcesOfJson ((Json.object members).get? "sources") before.1 after.1 ∧
        Filled FloatType.ofJson ((Json.object members).get? "type") before.2 after.2 := by
  induction members generalizing before with
  | nil =>
    simp only [List.foldlM_nil, Json.get?, List.find?_nil, Option.map_none, Filled, pure,
      Except.pure, Except.ok.injEq, Prod.ext_iff]
    exact and_congr eq_comm eq_comm
  | cons member members ih =>
    obtain ⟨key, value⟩ := member
    obtain ⟨absent, distinct⟩ := List.nodup_cons.1 once
    rw [List.foldlM_cons, Json.get?_cons, Json.get?_cons]
    dsimp only at absent ⊢
    by_cases sources : key = "sources"
    · subst sources
      -- No later member can fill this field again.
      have later := Json.get?_eq_none_of_not_mem absent
      cases read : sourcesOfJson value with
      | error mismatch => simp [addField, read, bind, Except.bind, Filled]
      | ok sources => simp [addField, read, bind, Except.bind, ih distinct, later, Filled]
    · by_cases type : key = "type"
      · subst type
        have later := Json.get?_eq_none_of_not_mem absent
        cases read : FloatType.ofJson value with
        | error mismatch => simp [addField, read, bind, Except.bind, Filled]
        | ok type => simp [addField, read, bind, Except.bind, ih distinct, later, Filled]
      · simp [addField, sources, type, bind, Except.bind, ih distinct]

/-- Both fields have to be filled. -/
theorem ofMembers_eq_ok_iff {members : List (String × Json)} {routine : Routine} :
    ofMembers members = .ok routine ↔
      members.foldlM addField (none, none) = .ok (some routine.sources, some routine.type) := by
  unfold ofMembers
  cases members.foldlM addField (none, none) with
  | error mismatch => simp [bind, Except.bind]
  | ok after =>
    obtain ⟨sources, type⟩ := after
    obtain ⟨own, ownType⟩ := routine
    cases sources <;> cases type <;> simp [bind, Except.bind]

theorem ofItems_eq_ok_iff {items : List Json} {routine : Routine} :
    ofItems items = .ok routine ↔
      ∃ sources type, items = [sources, type] ∧ sourcesOfJson sources = .ok routine.sources ∧
        FloatType.ofJson type = .ok routine.type := by
  obtain ⟨own, ownType⟩ := routine
  match items with
  | [] => simp [ofItems]
  | [sources] => cases read : sourcesOfJson sources <;> simp [ofItems, read, bind, Except.bind]
  | sources :: type :: rest =>
    cases readSources : sourcesOfJson sources <;> cases readType : FloatType.ofJson type <;>
      cases rest <;> simp [ofItems, readSources, readType, bind, Except.bind]

/-- A routine is read exactly from a value of its shape. -/
theorem ofJson_eq_ok_iff {value : Json} (once : value.KeysOnce) {routine : Routine} :
    ofJson value = .ok routine ↔ Describes value routine := by
  cases value with
  | object members =>
    rw [ofJson, ofMembers_eq_ok_iff, foldlM_addField_eq_ok_iff (once members rfl), filled_iff,
      filled_iff]
    simp only [sourcesOfJson_eq_ok_iff, FloatType.ofJson_eq_ok_iff]
    constructor
    · obtain ⟨own, ownType⟩ := routine
      rintro ⟨⟨_, sources, texts, rfl, rfl⟩, _, named, rfl⟩
      exact .byName sources named
    · intro shape
      cases shape with
      | byName sources named => exact ⟨⟨_, sources, _, rfl, rfl⟩, _, named, rfl⟩
  | array items =>
    rw [ofJson, ofItems_eq_ok_iff]
    simp only [sourcesOfJson_eq_ok_iff, FloatType.ofJson_eq_ok_iff]
    constructor
    · obtain ⟨own, ownType⟩ := routine
      rintro ⟨_, _, rfl, ⟨texts, rfl, rfl⟩, rfl⟩
      exact .byPlace texts ownType
    · intro shape
      cases shape with
      | byPlace texts type => exact ⟨_, _, rfl, ⟨texts, rfl, rfl⟩, rfl⟩
  | null | bool _ | number _ | string _ =>
    constructor
    · intro read
      cases read
    · intro shape
      cases shape

end Routine

namespace Registry

/-! Entry by entry -/

/-- The last value of a name in a text has the shape of a routine. -/
def Decodes (text name : String) (routine : Routine) : Prop :=
  ∃ value, Json.lastValue? text name = some value ∧ Routine.Describes value routine

/-- Two texts say the same of a name: its last value is the same in both, or in neither it has
the shape of a routine. -/
def SayTheSame (text other name : String) : Prop :=
  Json.lastValue? text name = Json.lastValue? other name ∨
    ∀ routine, ¬ Decodes text name routine ∧ ¬ Decodes other name routine

/-- What a text is read as. -/
structure ReadsAs (text : String) (registry : Registry) (events : List Event) : Prop where
  routines : ∀ name routine, registry.get? name = some routine ↔
    name ≠ commentKey ∧ Decodes text name routine
  /-- There is one warning for each other name, by name. -/
  warnings : ∃ reasons : TextMap Mismatch,
    events = (reasons.toList.map fun e => skipped e.1 e.2) ∧
    (∀ name, name ∈ reasons.keys ↔ name ≠ commentKey ∧
      (∃ value, Json.lastValue? text name = some value) ∧ ∀ routine, ¬ Decodes text name routine) ∧
    ∀ name mismatch, reasons.get? name = some mismatch →
      ∃ value, Json.lastValue? text name = some value ∧ Routine.ofJson value = .error mismatch

theorem decodes_iff {text name : String} {routine : Routine} :
    Decodes text name routine ↔
      ∃ value, Json.lastValue? text name = some value ∧ Routine.ofJson value = .ok routine := by
  unfold Decodes
  constructor
  · rintro ⟨value, last, shape⟩
    exact ⟨value, last, (Routine.ofJson_eq_ok_iff (Json.keysOnce_of_lastValue? last)).2 shape⟩
  · rintro ⟨value, last, read⟩
    exact ⟨value, last, (Routine.ofJson_eq_ok_iff (Json.keysOnce_of_lastValue? last)).1 read⟩

/-- Why a value is no routine. -/
def mismatch? (value : Json) : Option Mismatch :=
  match Routine.ofJson value with
  | .ok _ => none
  | .error mismatch => some mismatch

theorem mismatch?_eq_some_iff {value : Json} {mismatch : Mismatch} :
    mismatch? value = some mismatch ↔ Routine.ofJson value = .error mismatch := by
  unfold mismatch?
  cases Routine.ofJson value <;> simp

theorem complaint?_eq (member : String × Json) :
    complaint? member = (underName? mismatch? member).map fun e => skipped e.1 e.2 := by
  unfold complaint? underName? mismatch?
  split
  · rfl
  · cases Routine.ofJson member.2 <;> rfl

/-- Of a value that is present, either a routine or a reason is read. -/
theorem exists_reason_iff {text name : String} :
    (∃ mismatch value, Json.lastValue? text name = some value ∧
        Routine.ofJson value = .error mismatch) ↔
      (∃ value, Json.lastValue? text name = some value) ∧ ∀ routine, ¬ Decodes text name routine := by
  simp only [decodes_iff]
  constructor
  · rintro ⟨mismatch, value, last, fails⟩
    refine ⟨⟨value, last⟩, ?_⟩
    rintro routine ⟨other, same, read⟩
    rw [last] at same
    rw [← Option.some.inj same, fails] at read
    cases read
  · rintro ⟨⟨value, last⟩, none⟩
    cases read : Routine.ofJson value with
    | ok routine => exact absurd ⟨value, last, read⟩ (none routine)
    | error mismatch => exact ⟨mismatch, value, last, read⟩

theorem readsAs_of_parse {text : String} {registry : Registry} {events : List Event}
    (parsed : parse text = .ok (registry, events)) : ReadsAs text registry events := by
  obtain ⟨byName, values, result⟩ := members_of_parse parsed
  constructor
  · intro name routine
    rw [decodes_iff, get?_parse parsed]
  · refine ⟨entries mismatch? byName, ?_, ?_, ?_⟩
    · rw [foldl_addMember] at result
      have said := congrArg Prod.snd result
      simp only [List.nil_append] at said
      rw [← said, entries, List.map_filterMap]
      exact congrArg (List.filterMap · byName.toList) (funext complaint?_eq)
    · intro name
      rw [TextMap.mem_keys_iff, ← exists_reason_iff]
      simp only [get?_entries, mismatch?_eq_some_iff, values, exists_and_left]
    · intro name mismatch found
      obtain ⟨_, value, last, fails⟩ := get?_entries.1 found
      exact ⟨value, values name ▸ last, mismatch?_eq_some_iff.1 fails⟩

/-- A text is refused exactly if it is not one JSON object. -/
theorem parse_error_iff {text : String} :
    (∃ message, parse text = .error (.parse formatName message)) ↔
      ¬ ∃ members, Json.parse text = .ok (.object members) := by
  simp only [← Json.parseMembers_eq_ok_iff]
  unfold parse
  cases Json.parseMembers text <;> simp

/-- A routine depends on what is said of its own name only. -/
theorem get?_eq_of_sayTheSame {text other : String} {a b : Registry} {events others : List Event}
    (readText : ReadsAs text a events) (readOther : ReadsAs other b others) {name : String}
    (same : SayTheSame text other name) : a.get? name = b.get? name := by
  apply Option.ext
  intro routine
  rw [readText.routines, readOther.routines]
  rcases same with value | none
  · unfold Decodes
    rw [value]
  · simp [none routine]

/-- Loading is tolerant entry by entry and only there. A text that is not one JSON object is
refused; any other gives the routines whose values have the shape of one and a warning for
each other name. What is said of one name changes no other routine. -/
theorem parse_exact (text : String) :
    ((∃ message, parse text = .error (.parse formatName message)) ↔
      ¬ ∃ members, Json.parse text = .ok (.object members)) ∧
    ((∃ members, Json.parse text = .ok (.object members)) →
      ∃ registry events, parse text = .ok (registry, events) ∧ ReadsAs text registry events) ∧
    ∀ other registry changed events others, parse text = .ok (registry, events) →
      parse other = .ok (changed, others) →
      ∀ name, SayTheSame text other name → registry.get? name = changed.get? name := by
  refine ⟨parse_error_iff, ?_, ?_⟩
  · rintro ⟨members, object⟩
    have read := Json.parseMembers_eq_ok_iff.2 object
    have parsed : parse text = .ok (members.foldl addMember (TextMap.empty, [])) := by
      rw [parse, read]
    exact ⟨_, _, parsed, readsAs_of_parse parsed⟩
  · intro other registry changed events others parsed parsedOther name same
    exact get?_eq_of_sayTheSame (readsAs_of_parse parsed) (readsAs_of_parse parsedOther) same

/-- A routine by place, one with a member that is not known, and one of an unknown type. -/
def looseMembers : List (String × Json) :=
  [("cosf", .array [.array [.string "a"], .string "f32"]),
    ("sin", .object [("note", .null), ("sources", .array []), ("type", .string "f64")]),
    ("tan", .object [("sources", .array []), ("type", .string "f63")])]

/-- The same with another value that is no routine in place of the last one, and one more. -/
def looserMembers : List (String × Json) :=
  [("exp", .bool true), ("cosf", .array [.array [.string "a"], .string "f32"]),
    ("sin", .object [("note", .null), ("sources", .array []), ("type", .string "f64")]),
    ("tan", .null)]

theorem looseMembers_hasNaturals : (Json.object looseMembers).HasNaturals := by
  simp [looseMembers, Json.HasNaturals, Json.MembersHaveNaturals, Json.ItemsHaveNaturals]

theorem looseMembers_sayTheSame :
    SayTheSame (Json.object looseMembers).compact (Json.object looserMembers).compact "cosf" := by
  have looser : (Json.object looserMembers).HasNaturals := by
    simp [looserMembers, Json.HasNaturals, Json.MembersHaveNaturals, Json.ItemsHaveNaturals]
  left
  rw [Json.lastValue?_compact looseMembers_hasNaturals, Json.lastValue?_compact looser]
  rfl

theorem looseMembers_parse :
    ∃ registry events changed others,
      parse (Json.object looseMembers).compact = .ok (registry, events) ∧
      ReadsAs (Json.object looseMembers).compact registry events ∧
      registry.keys = ["cosf", "sin"] ∧ events.length = 1 ∧
      parse (Json.object looserMembers).compact = .ok (changed, others) ∧ others.length = 2 ∧
      SayTheSame (Json.object looseMembers).compact (Json.object looserMembers).compact "cosf" ∧
      registry.get? "cosf" = changed.get? "cosf" := by
  have object := Json.parse_compact looseMembers_hasNaturals (by decide +kernel)
  obtain ⟨_, loads, apart⟩ := parse_exact (Json.object looseMembers).compact
  obtain ⟨registry, events, read, reads⟩ := loads ⟨_, object⟩
  have parsed : parse (Json.object looseMembers).compact =
      .ok ((TextMap.empty.insert "cosf" ⟨TextSet.ofList ["a"], .f32⟩).insert "sin"
        ⟨TextSet.empty, .f64⟩,
        [skipped "tan" (.refused (FloatType.unknownMessage "f63"))]) := by
    decide +kernel
  have parsedOther : parse (Json.object looserMembers).compact =
      .ok ((TextMap.empty.insert "cosf" ⟨TextSet.ofList ["a"], .f32⟩).insert "sin"
        ⟨TextSet.empty, .f64⟩,
        [skipped "exp" (.wrongType (.boolean true) Routine.expected),
          skipped "tan" (.wrongType .null Routine.expected)]) := by
    decide +kernel
  obtain ⟨rfl, rfl⟩ := Prod.mk.inj (Except.ok.inj (parsed.symm.trans read))
  exact ⟨_, _, _, _, parsed, reads, by decide +kernel, rfl, parsedOther, rfl, looseMembers_sayTheSame,
    apart _ _ _ _ _ parsed parsedOther "cosf" looseMembers_sayTheSame⟩

end Registry

end RoutineWatch
