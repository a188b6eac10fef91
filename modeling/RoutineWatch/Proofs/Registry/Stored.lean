import RoutineWatch.Proofs.Json.Members
import RoutineWatch.Registry

/-!
# The stored form of the registry

Reading goes member by member, so what is read has a look-up equation: a name has the routine
its value decodes to, and the comment's key has none. Writing and then reading leaves every
routine as it is and complains of none.

- `Registry.get?_parse`: the look-up equation.
- `Registry.stored_form_decodes`: every registry comes back without the entry that is called
  like the comment, and one that was read comes back exactly.
-/
namespace RoutineWatch

namespace Routine

theorem foldlM_addSource (texts : List String) (set : TextSet) :
    (texts.map Json.string).foldlM addSource set = .ok (texts.foldl TextSet.insert set) := by
  induction texts generalizing set with
  | nil => rfl
  | cons text texts ih =>
    rw [List.map_cons, List.foldlM_cons]
    exact ih (set.insert text)

theorem sourcesOfJson_strings (set : TextSet) :
    sourcesOfJson (.array (set.toList.map .string)) = .ok set := by
  have same : TextSet.ofList set.toList = set := by
    apply TextSet.ext
    intro x
    exact TextSet.mem_ofList
  rw [sourcesOfJson, foldlM_addSource]
  exact congrArg Except.ok same

/-- A routine decodes to itself. -/
theorem ofJson_toJson (routine : Routine) : ofJson routine.toJson = .ok routine := by
  have sources := sourcesOfJson_strings routine.sources
  have type : FloatType.ofJson (.string routine.type.name) = .ok routine.type := by
    rw [FloatType.ofJson, FloatType.ofName?_name]
  simp [toJson, ofJson, ofMembers, addField, sources, type, bind, Except.bind, pure, Except.pure]

theorem sortedItems_strings (texts : List String) :
    Json.sortedItems (texts.map .string) = texts.map .string := by
  induction texts with
  | nil => rfl
  | cons text texts ih =>
    rw [List.map_cons, Json.sortedItems, ih]
    rfl

/-- The fields are written in ascending order. -/
theorem sorted_toJson (routine : Routine) : routine.toJson.sorted = routine.toJson := by
  have ascending : "sources" < "type" := by decide
  unfold toJson
  rw [Json.sorted, Json.ofMembers_eq, Json.sortedMembers_eq_map, TextMap.toList_ofList]
  · simp [Json.sorted, sortedItems_strings]
  · exact List.pairwise_pair.2 ascending

theorem height_toJson (routine : Routine) : routine.toJson.height ≤ 2 := by
  have flat : Json.itemsHeight (routine.sources.toList.map .string) ≤ 0 := by
    apply Json.itemsHeight_le
    intro v member
    obtain ⟨text, _, rfl⟩ := List.mem_map.1 member
    exact Nat.le_refl 0
  simp only [toJson, Json.height, Json.membersHeight]
  omega

theorem hasNaturals_toJson (routine : Routine) : routine.toJson.HasNaturals := by
  have plain : Json.ItemsHaveNaturals (routine.sources.toList.map .string) := by
    rw [Json.itemsHaveNaturals_iff]
    intro v member
    obtain ⟨text, _, rfl⟩ := List.mem_map.1 member
    exact True.intro
  simp [toJson, Json.HasNaturals, Json.MembersHaveNaturals, plain]

end Routine

namespace Registry

/-- The routine a member stands for. -/
def kept? (member : String × Json) : Option (String × Routine) :=
  if member.1 = commentKey then none
  else (Routine.ofJson member.2).toOption.map fun routine => (member.1, routine)

/-- What is said of a member that stands for no routine. -/
def complaint? (member : String × Json) : Option Event :=
  if member.1 = commentKey then none
  else
    match Routine.ofJson member.2 with
    | .ok _ => none
    | .error mismatch => some (skipped member.1 mismatch)

/-- What a member stands for if its value is read in some way. The comment stands for
nothing. -/
def underName? {α : Type} (read? : Json → Option α) (member : String × Json) : Option (String × α) :=
  if member.1 = commentKey then none else (read? member.2).map fun a => (member.1, a)

theorem underName?_eq_some_iff {α : Type} {read? : Json → Option α} {member : String × Json}
    {e : String × α} :
    underName? read? member = some e ↔
      member.1 = e.1 ∧ e.1 ≠ commentKey ∧ read? member.2 = some e.2 := by
  obtain ⟨name, a⟩ := e
  unfold underName?
  by_cases comment : member.1 = commentKey
  · rw [if_pos comment]
    constructor
    · intro none
      cases none
    · rintro ⟨same, other, _⟩
      exact absurd (same ▸ comment) other
  · rw [if_neg comment, Option.map_eq_some_iff]
    constructor
    · rintro ⟨_, value, same⟩
      cases same
      exact ⟨rfl, comment, value⟩
    · rintro ⟨rfl, _, value⟩
      exact ⟨a, value, rfl⟩

/-- What all members stand for if their values are read in some way. -/
def entries {α : Type} (read? : Json → Option α) (byName : TextMap Json) : TextMap α :=
  ⟨byName.toList.filterMap (underName? read?),
    byName.ascending.filterMap _ fun a b less e ofA f ofB => by
      rw [← (underName?_eq_some_iff.1 ofA).1, ← (underName?_eq_some_iff.1 ofB).1]
      exact less⟩

theorem get?_entries {α : Type} {read? : Json → Option α} {byName : TextMap Json} {name : String}
    {a : α} :
    (entries read? byName).get? name = some a ↔
      name ≠ commentKey ∧ ∃ value, byName.get? name = some value ∧ read? value = some a := by
  have listed : (entries read? byName).toList = byName.toList.filterMap (underName? read?) := rfl
  rw [TextMap.get?_eq_some_iff, listed, List.mem_filterMap]
  constructor
  · rintro ⟨⟨key, value⟩, member, entry⟩
    obtain ⟨same, other, reads⟩ := underName?_eq_some_iff.1 entry
    cases same
    exact ⟨other, value, TextMap.get?_eq_some_iff.2 member, reads⟩
  · rintro ⟨other, value, found, reads⟩
    exact ⟨(name, value), TextMap.get?_eq_some_iff.1 found,
      underName?_eq_some_iff.2 ⟨rfl, other, reads⟩⟩

/-- One member adds what it stands for and what is said of it. -/
theorem addMember_eq (read : Registry × List Event) (member : String × Json) :
    addMember read member =
      ((kept? member).toList.foldl (fun m e => m.insert e.1 e.2) read.1,
        read.2 ++ (complaint? member).toList) := by
  unfold addMember kept? complaint?
  by_cases comment : member.1 = commentKey
  · simp [comment]
  · cases value : Routine.ofJson member.2 <;> simp [comment, Except.toOption]

theorem foldl_addMember (members : List (String × Json)) (read : Registry × List Event) :
    members.foldl addMember read =
      ((members.filterMap kept?).foldl (fun m e => m.insert e.1 e.2) read.1,
        read.2 ++ members.filterMap complaint?) := by
  induction members generalizing read with
  | nil => simp
  | cons member members ih =>
    rw [List.foldl_cons, ih, addMember_eq, List.filterMap_cons, List.filterMap_cons]
    cases kept? member <;> cases complaint? member <;> simp

/-- The routines that members stand for are collected by name. -/
theorem foldl_addMember_routines (byName : TextMap Json) :
    (byName.toList.foldl addMember (TextMap.empty, [])).1 =
      entries (fun value => (Routine.ofJson value).toOption) byName := by
  have kept : kept? = underName? fun value => (Routine.ofJson value).toOption := rfl
  rw [foldl_addMember, kept]
  exact TextMap.ofList_toList (entries (fun value => (Routine.ofJson value).toOption) byName)

theorem get?_foldl_addMember (byName : TextMap Json) (name : String) (routine : Routine) :
    (byName.toList.foldl addMember (TextMap.empty, [])).1.get? name = some routine ↔
      name ≠ commentKey ∧
        ∃ value, byName.get? name = some value ∧ Routine.ofJson value = .ok routine := by
  have reads : ∀ value, (Routine.ofJson value).toOption = some routine ↔
      Routine.ofJson value = .ok routine := by
    intro value
    cases Routine.ofJson value <;> simp [Except.toOption]
  rw [foldl_addMember_routines, get?_entries]
  simp only [reads]

/-- What is read from a text comes from the last values of its keys, in the order of the
keys. -/
theorem members_of_parse {text : String} {read : Registry × List Event}
    (parsed : parse text = .ok read) :
    ∃ byName : TextMap Json, (∀ key, byName.get? key = Json.lastValue? text key) ∧
      byName.toList.foldl addMember (TextMap.empty, []) = read := by
  unfold parse at parsed
  cases members : Json.parseMembers text with
  | error mismatch => simp [members] at parsed
  | ok members' =>
    obtain ⟨byName, rfl, values⟩ := Json.members_lastValue? members
    rw [members] at parsed
    exact ⟨byName, values, Except.ok.inj parsed⟩

/-- A name has the routine that its last value in the text decodes to. -/
theorem get?_parse {text : String} {read : Registry} {events : List Event}
    (parsed : parse text = .ok (read, events)) (name : String) (routine : Routine) :
    read.get? name = some routine ↔
      name ≠ commentKey ∧
        ∃ value, Json.lastValue? text name = some value ∧ Routine.ofJson value = .ok routine := by
  obtain ⟨byName, values, result⟩ := members_of_parse parsed
  rw [← values, ← get?_foldl_addMember, result]

/-- The comment's key names no routine that was read. -/
theorem get?_parse_commentKey {text : String} {read : Registry} {events : List Event}
    (parsed : parse text = .ok (read, events)) : read.get? commentKey = none := by
  cases found : read.get? commentKey with
  | none => rfl
  | some routine => exact absurd rfl ((get?_parse parsed commentKey routine).1 found).1

/-! Writing and reading -/

theorem hasNaturals_members (registry : Registry) :
    (Json.object registry.members).HasNaturals := by
  rw [Json.HasNaturals, Json.membersHaveNaturals_iff]
  intro m member
  cases member with
  | head => exact True.intro
  | tail _ entry =>
    obtain ⟨e, _, rfl⟩ := List.mem_map.1 entry
    exact Routine.hasNaturals_toJson e.2

theorem height_members (registry : Registry) :
    (Json.object registry.members).height < Json.depthLimit := by
  have low : Json.membersHeight registry.members ≤ 2 := by
    apply Json.membersHeight_le
    intro m member
    cases member with
    | head => exact Nat.zero_le 2
    | tail _ entry =>
      obtain ⟨e, _, rfl⟩ := List.mem_map.1 entry
      exact Routine.height_toJson e.2
  rw [Json.height, Json.depthLimit]
  omega

/-- The members of the stored form by key, as a reader meets them. -/
def stored (registry : Registry) : TextMap Json := TextMap.ofList registry.members

theorem parseMembers_render (registry : Registry) :
    Json.parseMembers registry.render = .ok registry.stored.toList := by
  have sorted : Json.sortedMembers registry.members = registry.members := by
    rw [Json.sortedMembers_eq_map, members, List.map_cons, List.map_map]
    congr 1
    apply List.map_congr_left
    intro e _
    exact congrArg (e.1, ·) (Routine.sorted_toJson e.2)
  rw [render, Json.parseMembers_pretty 4 (hasNaturals_members registry) (height_members registry),
    sorted, stored]

/-- A routine called like the comment takes the comment's place. -/
theorem get?_stored (registry : Registry) (name : String) :
    registry.stored.get? name =
      ((registry.get? name).map Routine.toJson).or
        (if commentKey = name then some (.string comment) else none) := by
  have routines : TextMap.ofList (registry.toList.map fun e => (e.1, e.2.toJson)) =
      registry.mapValues fun _ routine => routine.toJson :=
    TextMap.ofList_toList (registry.mapValues fun _ routine => routine.toJson)
  rw [stored, members, TextMap.get?_ofList_cons, routines, TextMap.get?_mapValues]

theorem get?_stored_eq_some_iff {registry : Registry} {name : String}
    (other : name ≠ commentKey) {value : Json} :
    registry.stored.get? name = some value ↔
      ∃ routine, registry.get? name = some routine ∧ routine.toJson = value := by
  rw [get?_stored, if_neg (Ne.symm other), Option.or_none, Option.map_eq_some_iff]

theorem complaints_stored (registry : Registry) :
    registry.stored.toList.filterMap complaint? = [] := by
  rw [List.filterMap_eq_nil_iff]
  intro member entry
  unfold complaint?
  by_cases comment : member.1 = commentKey
  · rw [if_pos comment]
  · have found := TextMap.get?_eq_some_iff.2 entry
    obtain ⟨routine, _, value⟩ := (get?_stored_eq_some_iff comment).1 found
    rw [if_neg comment, ← value, Routine.ofJson_toJson]

/-- Every routine is read as it was written, without a complaint; only one called like
the comment is lost. -/
theorem parse_render (registry : Registry) :
    parse registry.render = .ok (registry.erase commentKey, []) := by
  have routines : (registry.stored.toList.foldl addMember (TextMap.empty, [])).1 =
      registry.erase commentKey := by
    apply TextMap.ext_get?
    intro name
    apply Option.ext
    intro routine
    rw [get?_foldl_addMember, TextMap.get?_erase]
    by_cases comment : name = commentKey
    · simp [comment]
    · simp [comment, get?_stored_eq_some_iff comment, Routine.ofJson_toJson]
  have complaints : (registry.stored.toList.foldl addMember (TextMap.empty, [])).2 = [] := by
    rw [foldl_addMember, complaints_stored]
    rfl
  rw [parse, parseMembers_render]
  exact congrArg Except.ok (Prod.ext routines complaints)

/-- The stored form tells routines apart. -/
theorem get?_eq_of_render_eq {a b : Registry} (same : a.render = b.render) {name : String}
    (other : name ≠ commentKey) : a.get? name = b.get? name := by
  have read := parse_render a
  rw [same, parse_render b] at read
  have routines := congrArg (fun r => r.1.get? name) (Except.ok.inj read)
  simpa [TextMap.get?_erase, other] using routines.symm

/-- The stored form decodes to what was encoded: every registry comes back without the
entry that is called like the comment, and one that was read comes back exactly. -/
theorem stored_form_decodes :
    (∀ registry : Registry, parse registry.render = .ok (registry.erase commentKey, [])) ∧
      ∀ (text : String) (read : Registry) (events : List Event),
        parse text = .ok (read, events) → parse read.render = .ok (read, []) := by
  refine ⟨parse_render, fun text read events parsed => ?_⟩
  have kept : read.erase commentKey = read := by
    apply TextMap.ext_get?
    intro name
    rw [TextMap.get?_erase]
    by_cases comment : name = commentKey
    · rw [if_pos comment, comment, get?_parse_commentKey parsed]
    · rw [if_neg comment]
  have read_back := parse_render read
  rwa [kept] at read_back

/-- A comment, a routine with a backslash in its one source, and an entry that is skipped. -/
def sampleText : String :=
  "\x7b\"__comment\": 1, \"sin\": \x7b\"sources\": [\"a\\\\b\"], \"type\": \"f64\"\x7d, \"z\": []\x7d"

theorem sampleText_decodes :
    ∃ read events, parse sampleText = .ok (read, events) ∧ read.keys = ["sin"] ∧
      parse read.render = .ok (read, []) := by
  have parsed : parse sampleText =
      .ok (TextMap.empty.insert "sin" ⟨TextSet.ofList ["a\\b"], .f64⟩,
        [skipped "z" (Routine.wrongLength 0)]) := by
    decide +kernel
  exact ⟨_, _, parsed, by decide +kernel, stored_form_decodes.2 sampleText _ _ parsed⟩

end Registry

end RoutineWatch
