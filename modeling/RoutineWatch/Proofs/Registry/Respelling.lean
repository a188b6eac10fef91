import RoutineWatch.Proofs.Git.Changes
import RoutineWatch.Proofs.Matrix.Resolve
import RoutineWatch.Proofs.Path.Normal
import RoutineWatch.Proofs.Registry.Tolerance

/-!
# Definitions in other spellings

Stored definitions whose sources are spelled in another way are read alike, source by source,
and with the same warnings. But sources are kept as they are spelled, and a changed file is
known by its normal form only; so a source counts only where it is spelled in that form, and
two spellings ask for the same tests exactly if they have the same sources in normal form.

- `Registry.parse_respelled`: a copy in other spellings is read alike.
- `Registry.resolve_respelled`: when it asks for the same tests.
- `Registry.spelling_matters`: it need not.
-/
namespace RoutineWatch

/-! Results that go together -/

/-- Two readings end alike: with results that belong together, or with the same fault. -/
inductive Alike {α β ε : Type} (R : α → β → Prop) : Except ε α → Except ε β → Prop where
  | ok {a : α} {b : β} (related : R a b) : Alike R (.ok a) (.ok b)
  | error (e : ε) : Alike R (.error e) (.error e)

section
variable {α β γ δ ε : Type} {R : α → β → Prop} {S : γ → δ → Prop}

theorem Alike.refl {R : α → α → Prop} (every : ∀ a, R a a) (x : Except ε α) : Alike R x x := by
  cases x with
  | ok a => exact .ok (every a)
  | error e => exact .error e

theorem Alike.bind {x : Except ε α} {y : Except ε β} {f : α → Except ε γ} {g : β → Except ε δ}
    (first : Alike R x y) (next : ∀ a b, R a b → Alike S (f a) (g b)) :
    Alike S (x >>= f) (y >>= g) := by
  cases first with
  | ok related => exact next _ _ related
  | error e => exact .error e

/-- A loop ends alike if each of its steps does. -/
theorem Alike.foldlM {Q : γ → δ → Prop} {xs : List γ} {ys : List δ} (each : List.Forall₂ Q xs ys)
    {f : α → γ → Except ε α} {g : β → δ → Except ε β}
    (step : ∀ a b x y, R a b → Q x y → Alike R (f a x) (g b y)) {a : α} {b : β}
    (start : R a b) : Alike R (xs.foldlM f a) (ys.foldlM g b) := by
  induction each generalizing a b with
  | nil => exact .ok start
  | cons first _ ih =>
    rw [List.foldlM_cons, List.foldlM_cons]
    apply Alike.bind (step _ _ _ _ start first)
    intro a b related
    exact ih related

end

/-! Other spellings -/

/-- Two texts spell one path: they have the same normal form. -/
def SamePath (a b : String) : Prop := (Path.ofString a).posix = (Path.ofString b).posix

instance (a b : String) : Decidable (SamePath a b) := String.decEq _ _

/-- Two sets of sources have the same paths, in whatever spellings. -/
structure SpelledAlike (sources others : TextSet) : Prop where
  forth : ∀ a ∈ sources, ∃ b ∈ others, SamePath a b
  back : ∀ b ∈ others, ∃ a ∈ sources, SamePath a b

theorem SpelledAlike.refl (sources : TextSet) : SpelledAlike sources sources :=
  ⟨fun a member => ⟨a, member, rfl⟩, fun b member => ⟨b, member, rfl⟩⟩

theorem SpelledAlike.insert {sources others : TextSet} (alike : SpelledAlike sources others)
    {a b : String} (same : SamePath a b) : SpelledAlike (sources.insert a) (others.insert b) := by
  constructor
  · intro x member
    rcases TextSet.mem_insert.1 member with new | old
    · exact ⟨b, TextSet.mem_insert.2 (Or.inl rfl), new ▸ same⟩
    · obtain ⟨y, found, path⟩ := alike.forth x old
      exact ⟨y, TextSet.mem_insert.2 (Or.inr found), path⟩
  · intro y member
    rcases TextSet.mem_insert.1 member with new | old
    · exact ⟨a, TextSet.mem_insert.2 (Or.inl rfl), new ▸ same⟩
    · obtain ⟨x, found, path⟩ := alike.back y old
      exact ⟨x, TextSet.mem_insert.2 (Or.inr found), path⟩

theorem SpelledAlike.symm {sources others : TextSet} (alike : SpelledAlike sources others) :
    SpelledAlike others sources := by
  constructor
  · intro b member
    obtain ⟨a, found, path⟩ := alike.back b member
    exact ⟨a, found, path.symm⟩
  · intro a member
    obtain ⟨b, found, path⟩ := alike.forth a member
    exact ⟨b, found, path.symm⟩

namespace Routine

/-- Two routines of one type with the same paths as their sources. -/
structure SpelledAlike (routine other : Routine) : Prop where
  sources : RoutineWatch.SpelledAlike routine.sources other.sources
  type : routine.type = other.type

theorem SpelledAlike.refl (routine : Routine) : routine.SpelledAlike routine :=
  ⟨.refl routine.sources, rfl⟩

/-- An item of a list of sources, and the same or another spelling of it. -/
inductive ItemRespelled : Json → Json → Prop where
  | same (value : Json) : ItemRespelled value value
  | text {a b : String} (path : SamePath a b) : ItemRespelled (.string a) (.string b)

/-- A list of sources, and one with other spellings of its items. -/
inductive SourcesRespelled : Json → Json → Prop where
  | same (value : Json) : SourcesRespelled value value
  | items {items others : List Json} (each : List.Forall₂ ItemRespelled items others) :
      SourcesRespelled (.array items) (.array others)

/-- A member of a routine, and the same or, of its sources, another spelling. -/
def MemberRespelled (member other : String × Json) : Prop :=
  member.1 = other.1 ∧
    (member.2 = other.2 ∨ member.1 = "sources" ∧ SourcesRespelled member.2 other.2)

/-- The value of a routine, and one with other spellings of its sources. -/
inductive Respelled : Json → Json → Prop where
  | same (value : Json) : Respelled value value
  | byName {members others : List (String × Json)}
      (each : List.Forall₂ MemberRespelled members others) :
      Respelled (.object members) (.object others)
  | byPlace {sources others : Json} (rest : List Json) (first : SourcesRespelled sources others) :
      Respelled (.array (sources :: rest)) (.array (others :: rest))

theorem addSource_alike {set other : TextSet} {x y : Json}
    (alike : RoutineWatch.SpelledAlike set other) (item : ItemRespelled x y) :
    Alike RoutineWatch.SpelledAlike (addSource set x) (addSource other y) := by
  cases item with
  | text path => exact .ok (alike.insert path)
  | same =>
    cases x with
    | string text => exact .ok (alike.insert rfl)
    | null | bool _ | number _ | array _ | object _ => exact .error _

theorem sourcesOfJson_alike {x y : Json} (sources : SourcesRespelled x y) :
    Alike RoutineWatch.SpelledAlike (sourcesOfJson x) (sourcesOfJson y) := by
  cases sources with
  | same => exact .refl RoutineWatch.SpelledAlike.refl _
  | items each =>
    apply Alike.foldlM each
    · intro set other x y alike item
      exact addSource_alike alike item
    · exact .refl TextSet.empty

/-- What is known of a routine while its members are read. -/
structure FieldsAlike (known other : Option TextSet × Option FloatType) : Prop where
  sources : Option.Rel RoutineWatch.SpelledAlike known.1 other.1
  type : known.2 = other.2

theorem addField_alike {known other : Option TextSet × Option FloatType}
    {m n : String × Json} (alike : FieldsAlike known other) (member : MemberRespelled m n) :
    Alike FieldsAlike (addField known m) (addField other n) := by
  obtain ⟨key, value⟩ := m
  obtain ⟨_, value'⟩ := n
  obtain ⟨rfl, kept⟩ := member
  dsimp only at kept
  unfold addField
  dsimp only
  by_cases sources : key = "sources"
  · have list : SourcesRespelled value value' := by
      rcases kept with same | ⟨_, list⟩
      · exact same ▸ .same value
      · exact list
    rw [if_pos sources, if_pos sources]
    apply Alike.bind (sourcesOfJson_alike list)
    intro set set' alike'
    exact .ok ⟨.some alike', alike.type⟩
  · have same : value = value' := kept.resolve_right fun list => sources list.1
    rw [if_neg sources, if_neg sources, same]
    by_cases type : key = "type"
    · rw [if_pos type, if_pos type]
      apply Alike.bind (Alike.refl (R := Eq) (fun _ => rfl) (FloatType.ofJson value'))
      intro a b one
      exact .ok ⟨alike.sources, congrArg some one⟩
    · rw [if_neg type, if_neg type]
      exact .ok alike

theorem ofMembers_alike {members others : List (String × Json)}
    (each : List.Forall₂ MemberRespelled members others) :
    Alike SpelledAlike (ofMembers members) (ofMembers others) := by
  unfold ofMembers
  have start : FieldsAlike (none, none) (none, none) := ⟨.none, rfl⟩
  apply Alike.bind (Alike.foldlM each (fun _ _ _ _ => addField_alike) start)
  intro known other alike
  obtain ⟨sources, type⟩ := known
  obtain ⟨sources', type'⟩ := other
  obtain ⟨sources, rfl⟩ := alike
  dsimp only at sources
  cases sources with
  | none => exact .error _
  | some alike =>
    cases type with
    | none => exact .error _
    | some type => exact .ok ⟨alike, rfl⟩

theorem ofItems_alike {sources others : Json} (rest : List Json)
    (first : SourcesRespelled sources others) :
    Alike SpelledAlike (ofItems (sources :: rest)) (ofItems (others :: rest)) := by
  cases rest with
  | nil =>
    apply Alike.bind (sourcesOfJson_alike first)
    intro _ _ _
    exact .error _
  | cons type rest =>
    apply Alike.bind (sourcesOfJson_alike first)
    intro set other alike
    apply Alike.bind (Alike.refl (R := Eq) (fun _ => rfl) (FloatType.ofJson type))
    intro type type' same
    cases rest with
    | nil => exact .ok ⟨alike, same⟩
    | cons => exact .error _

/-- A routine is read alike in other spellings. -/
theorem ofJson_alike {value other : Json} (respelled : Respelled value other) :
    Alike SpelledAlike (ofJson value) (ofJson other) := by
  cases respelled with
  | same => exact .refl SpelledAlike.refl _
  | byName each => exact ofMembers_alike each
  | byPlace rest first => exact ofItems_alike rest first

end Routine

namespace Registry

/-- Registries of the same names, each with the same type and paths. -/
def SpelledAlike (registry other : Registry) : Prop :=
  ∀ name, Option.Rel Routine.SpelledAlike (registry.get? name) (other.get? name)

/-- Definitions, and a copy with other spellings of sources. -/
def Respelled (text copy : String) : Prop :=
  ∃ members others, Json.parse text = .ok (.object members) ∧
    Json.parse copy = .ok (.object others) ∧
    List.Forall₂ (fun member other => member.1 = other.1 ∧ Routine.Respelled member.2 other.2)
      members others

theorem SpelledAlike.insert {registry other : Registry} (alike : registry.SpelledAlike other)
    (name : String) {routine routine' : Routine} (same : routine.SpelledAlike routine') :
    SpelledAlike (registry.insert name routine) (other.insert name routine') := by
  intro key
  rw [TextMap.get?_insert, TextMap.get?_insert]
  split
  · exact .some same
  · exact alike key

/-- What was read so far, of definitions and of a copy. -/
structure ReadAlike (read other : Registry × List Event) : Prop where
  routines : SpelledAlike read.1 other.1
  warnings : read.2 = other.2

theorem addMember_alike {read other : Registry × List Event} (alike : ReadAlike read other)
    (name : String) {value value' : Json} (respelled : Routine.Respelled value value') :
    ReadAlike (addMember read (name, value)) (addMember other (name, value')) := by
  obtain ⟨routines, warnings⟩ := alike
  unfold addMember
  dsimp only
  by_cases comment : name = commentKey
  · rw [if_pos comment, if_pos comment]
    exact ⟨routines, warnings⟩
  · rw [if_neg comment, if_neg comment, warnings]
    have one := Routine.ofJson_alike respelled
    generalize Routine.ofJson value = result at one
    generalize Routine.ofJson value' = result' at one
    cases one with
    | ok same => exact ⟨routines.insert name same, rfl⟩
    | error mismatch => exact ⟨routines, rfl⟩

theorem foldl_addMember_alike {members others : List (String × Json)}
    (each : List.Forall₂ (fun member other => member.1 = other.1 ∧
      Routine.Respelled member.2 other.2) members others)
    {read other : Registry × List Event} (alike : ReadAlike read other) :
    ReadAlike (members.foldl addMember read) (others.foldl addMember other) := by
  induction each generalizing read other with
  | nil => exact alike
  | @cons member other' _ _ first _ ih =>
    obtain ⟨name, value⟩ := member
    obtain ⟨_, value'⟩ := other'
    obtain ⟨rfl, respelled⟩ := first
    exact ih (addMember_alike alike name respelled)

/-- A copy in other spellings is read alike, with the same warnings. -/
theorem parse_respelled {text copy : String} {registry : Registry} {events : List Event}
    (parsed : parse text = .ok (registry, events)) (respelled : Respelled text copy) :
    ∃ other, parse copy = .ok (other, events) ∧ registry.SpelledAlike other := by
  obtain ⟨members, others, object, objectCopy, each⟩ := respelled
  have start : ReadAlike (TextMap.empty, []) (TextMap.empty, []) := ⟨fun _ => .none, rfl⟩
  have alike := foldl_addMember_alike each start
  rw [parse, Json.parseMembers_eq_ok_iff.2 object, Except.ok.injEq] at parsed
  rw [parsed] at alike
  obtain ⟨routines, warnings⟩ := alike
  dsimp only at warnings
  refine ⟨_, ?_, routines⟩
  rw [parse, Json.parseMembers_eq_ok_iff.2 objectCopy, warnings]

end Registry

/-! What counts -/

/-- Registries whose routines have the same sources in normal form. -/
def Registry.CountAlike (registry other : Registry) : Prop :=
  ∀ name routine routine', registry.get? name = some routine → other.get? name = some routine' →
    ∀ source, Path.IsNormal source → (source ∈ routine.sources ↔ source ∈ routine'.sources)

namespace TestMatrix
variable {registry other : Registry} {ignore : IgnoreList} {paths : List Path}

/-- A source counts if it is the normal form of a changed path; in another spelling it never
does. -/
theorem mem_changed_ofPaths {name : String} {type : FloatType} :
    name ∈ (resolve registry ignore (ChangeSet.ofPaths paths)).changed type ↔
      ∃ routine, registry.get? name = some routine ∧ routine.type = type ∧
        ∃ source ∈ routine.sources, Path.IsNormal source ∧ ignore.ignores source = false ∧
          ∃ p ∈ paths, p.posix = source := by
  rw [mem_changed]
  constructor
  · intro changed
    obtain ⟨routine, found, same, source, own, counts, member⟩ := changed
    obtain ⟨p, listed, rfl⟩ := ChangeSet.mem_ofPaths.1 member
    exact ⟨routine, found, same, _, own, Path.isNormal_posix p, counts, p, listed, rfl⟩
  · intro changed
    obtain ⟨routine, found, same, source, own, _, counts, path⟩ := changed
    exact ⟨routine, found, same, source, own, counts, ChangeSet.mem_ofPaths.2 path⟩

theorem resolve_eq_iff {changes : ChangeSet} :
    resolve registry ignore changes = resolve other ignore changes ↔
      ∀ type name, name ∈ (resolve registry ignore changes).changed type ↔
        name ∈ (resolve other ignore changes).changed type := by
  constructor
  · intro same type name
    rw [same]
  · intro members
    have lists : (resolve registry ignore changes).changed =
        (resolve other ignore changes).changed := by
      funext type
      exact (changed_ascending type).eq_of_mem_iff (changed_ascending type) (members type)
    exact congrArg TestMatrix.mk lists

end TestMatrix

namespace Registry
open TestMatrix (resolve mem_changed_ofPaths resolve_eq_iff)
variable {registry other : Registry}

theorem SpelledAlike.symm (alike : registry.SpelledAlike other) : other.SpelledAlike registry := by
  intro name
  have both := alike name
  generalize registry.get? name = result at both
  generalize other.get? name = result' at both
  cases both with
  | none => exact .none
  | some same => exact .some ⟨same.sources.symm, same.type.symm⟩

theorem SpelledAlike.found (alike : registry.SpelledAlike other) {name : String}
    {routine : Routine} (found : registry.get? name = some routine) :
    ∃ routine', other.get? name = some routine' ∧ routine.SpelledAlike routine' := by
  have both := alike name
  rw [found] at both
  generalize other.get? name = result at both
  cases both with
  | some same => exact ⟨_, rfl, same⟩

theorem CountAlike.symm (count : registry.CountAlike other) : other.CountAlike registry := by
  intro name routine routine' found found' source normal
  exact (count name routine' routine found' found source normal).symm

/-- A test that is asked for is so by another registry in which the same sources count. -/
theorem CountAlike.mem_changed (count : registry.CountAlike other)
    (alike : registry.SpelledAlike other) {ignore : IgnoreList} {paths : List Path}
    {type : FloatType} {name : String}
    (listed : name ∈ (resolve registry ignore (ChangeSet.ofPaths paths)).changed type) :
    name ∈ (resolve other ignore (ChangeSet.ofPaths paths)).changed type := by
  obtain ⟨routine, found, kind, source, own, normal, counts, path⟩ := mem_changed_ofPaths.1 listed
  obtain ⟨routine', found', same⟩ := alike.found found
  have kept := (count name routine routine' found found' source normal).1 own
  apply mem_changed_ofPaths.2
  exact ⟨routine', found', same.type.symm.trans kind, source, kept, normal, counts, path⟩

/-- What asks for the same tests whenever only the file of one source changed has this source. -/
theorem mem_sources_of_resolve_eq {name : String} {routine routine' : Routine}
    (found : registry.get? name = some routine) (found' : other.get? name = some routine')
    {source : String} (normal : Path.IsNormal source)
    (same : resolve registry ⟨[]⟩ (ChangeSet.ofPaths [Path.ofString source]) =
      resolve other ⟨[]⟩ (ChangeSet.ofPaths [Path.ofString source]))
    (own : source ∈ routine.sources) : source ∈ routine'.sources := by
  have written := Path.isNormal_iff.1 normal
  have listed : name ∈ (resolve registry ⟨[]⟩
      (ChangeSet.ofPaths [Path.ofString source])).changed routine.type :=
    mem_changed_ofPaths.2 ⟨routine, found, rfl, source, own, normal, rfl, _,
      List.mem_cons_self, written⟩
  rw [same] at listed
  obtain ⟨routine'', again, _, source', own', _, _, p, only, rfl⟩ := mem_changed_ofPaths.1 listed
  rw [found'] at again
  cases again
  rwa [List.mem_singleton.1 only, written] at own'

/-- Definitions and a copy of them in other spellings. The copy is read alike, with the same
warnings. The two ask for the same tests, whatever is ignored and whatever changed, exactly if
their routines have the same sources in normal form. -/
theorem resolve_respelled {text copy : String} {events : List Event}
    (parsed : parse text = .ok (registry, events)) (respelled : Respelled text copy) :
    ∃ other, parse copy = .ok (other, events) ∧ registry.SpelledAlike other ∧
      ((∀ ignore paths, resolve registry ignore (ChangeSet.ofPaths paths) =
          resolve other ignore (ChangeSet.ofPaths paths)) ↔
        registry.CountAlike other) := by
  obtain ⟨other, parsedCopy, alike⟩ := parse_respelled parsed respelled
  refine ⟨other, parsedCopy, alike, ?_⟩
  constructor
  · intro same name routine routine' found found' source normal
    constructor
    · exact mem_sources_of_resolve_eq found found' normal (same _ _)
    · exact mem_sources_of_resolve_eq found' found normal (same _ _).symm
  · intro count ignore paths
    apply resolve_eq_iff.2
    intro type name
    exact ⟨count.mem_changed alike, count.symm.mem_changed alike.symm⟩

/-- A routine with one source. -/
def sourceRoutine (source : String) : Routine := ⟨TextSet.ofList [source], .f64⟩

/-- The definition of this routine and of no other. -/
def oneDefinition (source : String) : Json := .object [("sin", (sourceRoutine source).toJson)]

theorem parse_oneDefinition (source : String) :
    Json.parse (oneDefinition source).compact = .ok (oneDefinition source) := by
  have naturals : (oneDefinition source).HasNaturals := by
    simp [oneDefinition, Json.HasNaturals, Json.MembersHaveNaturals, Routine.hasNaturals_toJson]
  have low : (oneDefinition source).height < Json.depthLimit := by
    have flat := Routine.height_toJson (sourceRoutine source)
    simp only [oneDefinition, Json.height, Json.membersHeight, Json.depthLimit]
    omega
  have sorted : (oneDefinition source).sorted = oneDefinition source := by
    simp only [oneDefinition, Json.sorted, Json.sortedMembers, Routine.sorted_toJson]
    rfl
  rw [Json.parse_compact naturals low, sorted]

theorem parse_oneDefinition_compact (source : String) :
    parse (oneDefinition source).compact =
      .ok (TextMap.empty.insert "sin" (sourceRoutine source), []) := by
  have members := Json.parseMembers_eq_ok_iff.2 (parse_oneDefinition source)
  have other : "sin" ≠ commentKey := by decide
  rw [parse, members]
  simp [addMember, other, Routine.ofJson_toJson]

theorem oneDefinition_respelled {a b : String} (same : SamePath a b) :
    Respelled (oneDefinition a).compact (oneDefinition b).compact := by
  refine ⟨_, _, parse_oneDefinition a, parse_oneDefinition b, .cons ⟨rfl, ?_⟩ .nil⟩
  have sources : Routine.SourcesRespelled (.array [.string a]) (.array [.string b]) :=
    .items (.cons (.text same) .nil)
  exact .byName (.cons ⟨rfl, Or.inr ⟨rfl, sources⟩⟩ (.cons ⟨rfl, Or.inl rfl⟩ .nil))

/-- With a dot ahead of it a changed source is not recognized. -/
theorem resolve_dotted_ne :
    resolve (TextMap.empty.insert "sin" (sourceRoutine "src/sin.rs")) ⟨[]⟩
        (ChangeSet.ofPaths [Path.ofString "src/sin.rs"]) ≠
      resolve (TextMap.empty.insert "sin" (sourceRoutine "./src/sin.rs")) ⟨[]⟩
        (ChangeSet.ofPaths [Path.ofString "src/sin.rs"]) := by
  intro same
  have lists := congrArg (fun matrix => matrix.changed .f64) same
  revert lists
  decide +kernel

theorem dottedDefinition_respelled :
    ∃ registry other, parse (oneDefinition "src/sin.rs").compact = .ok (registry, []) ∧
      Respelled (oneDefinition "src/sin.rs").compact (oneDefinition "./src/sin.rs").compact ∧
      parse (oneDefinition "./src/sin.rs").compact = .ok (other, []) ∧
      registry.SpelledAlike other ∧ ¬ registry.CountAlike other := by
  have parsed := parse_oneDefinition_compact "src/sin.rs"
  have parsedCopy := parse_oneDefinition_compact "./src/sin.rs"
  have respelled := oneDefinition_respelled (a := "src/sin.rs") (b := "./src/sin.rs")
    (by decide +kernel)
  obtain ⟨other, read, alike, same⟩ := resolve_respelled parsed respelled
  rw [parsedCopy] at read
  cases read
  refine ⟨_, _, parsed, respelled, parsedCopy, alike, ?_⟩
  intro count
  exact resolve_dotted_ne (same.2 count _ _)

/-- So what is tested depends on the spelling. -/
theorem spelling_matters :
    ¬ ∀ text copy registry events other, parse text = .ok (registry, events) →
      Respelled text copy → parse copy = .ok (other, events) →
      ∀ ignore paths, resolve registry ignore (ChangeSet.ofPaths paths) =
        resolve other ignore (ChangeSet.ofPaths paths) := by
  intro same
  have respelled := oneDefinition_respelled (a := "src/sin.rs") (b := "./src/sin.rs")
    (by decide +kernel)
  exact resolve_dotted_ne (same _ _ _ _ _ (parse_oneDefinition_compact "src/sin.rs") respelled
    (parse_oneDefinition_compact "./src/sin.rs") _ _)

end Registry

end RoutineWatch
