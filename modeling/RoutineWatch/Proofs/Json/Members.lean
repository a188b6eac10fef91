import RoutineWatch.Proofs.Ordered.Map
import RoutineWatch.Proofs.Json.Printed

/-!
# The members of a text that is one object

A key stands for the last of its values, in the order of the text. The reader's list of
members has exactly these values, each key once, and it is the list of the one object that
the text stands for.

- `Json.members_lastValue?`: the members that were read are the last values of the text.
- `Json.parseMembers_eq_ok_iff`: members are read exactly if the text is read as an object.
-/
namespace RoutineWatch.Json

/-- The last value of a key in a text that is one object. -/
def lastValue? (text key : String) : Option Json :=
  match readFirst text.toList with
  | (.object members _, _) =>
    (members.reverse.find? fun m => m.1 = some key).bind fun m => m.2.value? (depthLimit - 1)
  | _ => none

/-- The last values in the text of an object are those of the members that were written. -/
theorem lastValue?_compact {members : List (String × Json)} (small : (object members).HasNaturals)
    (key : String) :
    lastValue? (object members).compact key =
      ((memberDocuments members).reverse.find? fun m => m.1 = some key).bind fun m =>
        m.2.value? (depthLimit - 1) := by
  rw [lastValue?, readFirst_compact small, document]

/-- Members have values only together. -/
theorem membersValue?_cons {depth : Nat} {member : Option String × Document}
    {members : List (Option String × Document)} {values : List (String × Json)}
    (read : Document.membersValue? depth (member :: members) = some values) :
    ∃ key value others, member.1 = some key ∧ member.2.value? depth = some value ∧
      Document.membersValue? depth members = some others ∧ values = (key, value) :: others := by
  obtain ⟨key, document⟩ := member
  cases key with
  | none => simp [Document.membersValue?] at read
  | some key =>
    cases first : document.value? depth with
    | none => simp [Document.membersValue?, first] at read
    | some value =>
      simp only [Document.membersValue?, first] at read
      obtain ⟨others, rest, rfl⟩ := Option.map_eq_some_iff.1 read
      exact ⟨key, value, others, rfl, rfl, rest, rfl⟩

theorem value?_of_mem {depth : Nat} {members : List (Option String × Document)}
    {values : List (String × Json)} (read : Document.membersValue? depth members = some values)
    {member : Option String × Document} (place : member ∈ members) :
    ∃ value, member.2.value? depth = some value := by
  induction members generalizing values with
  | nil => cases place
  | cons first members ih =>
    obtain ⟨_, value, others, _, document, rest, _⟩ := membersValue?_cons read
    cases place with
    | head => exact ⟨value, document⟩
    | tail _ later => exact ih rest later

/-- The values of members are those of their documents, in the same order. -/
theorem find?_membersValue? {depth : Nat} {members : List (Option String × Document)}
    {values : List (String × Json)} (read : Document.membersValue? depth members = some values)
    (key : String) :
    (values.reverse.find? fun e => e.1 = key).map (·.2) =
      (members.reverse.find? fun m => m.1 = some key).bind fun m => m.2.value? depth := by
  induction members generalizing values with
  | nil =>
    cases read
    rfl
  | cons member members ih =>
    obtain ⟨name, value, others, named, document, rest, rfl⟩ := membersValue?_cons read
    have later := ih rest
    rw [List.reverse_cons, List.reverse_cons, List.find?_append, List.find?_append,
      Option.map_or, later]
    cases found : members.reverse.find? fun m => m.1 = some key with
    | some m =>
      -- A later member decides on both sides, since it has a value.
      have place : m ∈ members := List.mem_reverse.1 (List.mem_of_find?_eq_some found)
      obtain ⟨last, decides⟩ := value?_of_mem rest place
      simp [decides]
    | none => by_cases same : name = key <;> simp [named, document, same]

/-- The members that were read are the last values of the text, one for each key. -/
theorem members_lastValue? {text : String} {members : List (String × Json)}
    (read : parseMembers text = .ok members) :
    ∃ byName : TextMap Json, byName.toList = members ∧
      ∀ key, byName.get? key = lastValue? text key := by
  unfold parseMembers at read
  unfold lastValue?
  split at read
  · next documents closed rest first =>
    rw [first]
    cases values : Document.membersValue? (depthLimit - 1) documents with
    | none => simp [Document.value?, values] at read
    | some pairs =>
      refine ⟨TextMap.ofList pairs, ?_, fun key => ?_⟩
      · cases closed with
        | false => simp [Document.value?] at read
        | true =>
          have value : (Document.object documents true).value? depthLimit =
              some (.object (TextMap.ofList pairs).toList) := by
            rw [Document.value?, values, Option.map_some, ofMembers_eq]
            rfl
          rw [value] at read
          dsimp only at read
          split at read
          · exact Except.ok.inj read
          · cases read
      · rw [TextMap.get?_ofList]
        exact find?_membersValue? values key
  · cases read

/-- An object with each of its keys once. -/
def KeysOnce (value : Json) : Prop := ∀ members, value = .object members → (members.map (·.1)).Nodup

/-- Only the document of an object stands for an object. -/
theorem object_of_value? {d : Document} {depth : Nat} {members : List (String × Json)}
    (value : d.value? depth = some (.object members)) :
    ∃ documents closed, d = .object documents closed := by
  cases d with
  | object documents closed => exact ⟨documents, closed, rfl⟩
  | array items closed =>
    rw [Document.value?] at value
    split at value
    · cases value
    · obtain ⟨_, _, same⟩ := Option.map_eq_some_iff.1 value
      cases same
  | number found => cases found <;> simp [Document.value?] at value
  | string found => cases found <;> simp [Document.value?] at value
  | null | bool _ | fault => simp [Document.value?] at value

/-- The value of a document lists each key once. -/
theorem keysOnce_of_value? {d : Document} {depth : Nat} {value : Json}
    (read : d.value? depth = some value) : value.KeysOnce := by
  rintro members rfl
  obtain ⟨documents, closed, rfl⟩ := object_of_value? read
  rw [Document.value?] at read
  split at read
  · cases read
  · obtain ⟨pairs, _, same⟩ := Option.map_eq_some_iff.1 read
    rw [ofMembers_eq] at same
    cases same
    exact (TextMap.keys_ascending (TextMap.ofList pairs)).imp String.ne_of_lt

theorem get?_cons (key : String) (member : String × Json) (members : List (String × Json)) :
    (Json.object (member :: members)).get? key =
      if member.1 = key then some member.2 else (Json.object members).get? key := by
  unfold get?
  by_cases same : member.1 = key <;> simp [same]

theorem get?_eq_none_of_not_mem {key : String} {members : List (String × Json)}
    (absent : key ∉ members.map (·.1)) : (Json.object members).get? key = none := by
  simp only [get?, Option.map_eq_none_iff, List.find?_eq_none, decide_eq_true_eq]
  rintro member entry rfl
  exact absent (List.mem_map_of_mem entry)

theorem keysOnce_of_lastValue? {text key : String} {value : Json}
    (last : lastValue? text key = some value) : value.KeysOnce := by
  unfold lastValue? at last
  split at last
  · obtain ⟨member, _, read⟩ := Option.bind_eq_some_iff.1 last
    exact keysOnce_of_value? read
  · cases last

/-- The members are read exactly if the text is read as an object, and they are its
members. -/
theorem parseMembers_eq_ok_iff {text : String} {members : List (String × Json)} :
    parseMembers text = .ok members ↔ parse text = .ok (.object members) := by
  unfold parseMembers parse
  rcases readFirst text.toList with ⟨document, rest⟩
  by_cases shape : ∃ documents closed, document = .object documents closed
  · obtain ⟨documents, closed, rfl⟩ := shape
    dsimp only
    cases (Document.object documents closed).value? depthLimit with
    | none => simp
    | some value => cases value <;> dsimp only <;> split <;> simp
  · constructor
    · intro read
      split at read
      · next same => exact absurd ⟨_, _, (Prod.mk.inj same).1⟩ shape
      · cases read
    · intro read
      dsimp only at read
      split at read
      · next value found =>
        split at read
        · cases read
          exact absurd (object_of_value? found) shape
        · cases read
      · cases read

end RoutineWatch.Json
