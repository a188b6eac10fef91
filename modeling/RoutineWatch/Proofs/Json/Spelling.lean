import RoutineWatch.Proofs.Json.Natural
import RoutineWatch.Proofs.Json.Quote

/-!
# A grammar of JSON texts

What the grammar spells is read as the document it spells, up to its last character and
whatever follows. Blanks may stand between any two tokens, so one-line and indented texts are
spelled alike.

- `Json.Spells`: the grammar.
- `Json.readFirst_spelled`: a spelled text is read as what it spells.

Strings and numbers have one written form here; other escapes and fractions are left out.
-/
namespace RoutineWatch.Json

/-- A row of blanks. -/
def AllBlank (gap : List Char) : Prop := ∀ c ∈ gap, isBlank c = true

instance (gap : List Char) : Decidable (AllBlank gap) :=
  List.decidableBAll _ gap

theorem skipBlanks_append {gap : List Char} (blank : AllBlank gap) (text : List Char) :
    skipBlanks (gap ++ text) = skipBlanks text := by
  induction gap with
  | nil => rfl
  | cons c gap ih =>
    have first : isBlank c = true := blank c List.mem_cons_self
    rw [List.cons_append, skipBlanks, if_pos first]
    exact ih fun d member => blank d (List.mem_cons_of_mem c member)

theorem skipBlanks_cons {c : Char} (token : isBlank c = false) (text : List Char) :
    skipBlanks (c :: text) = c :: text := by
  rw [skipBlanks, if_neg (by rw [token]; decide)]

/-- No blank and no delimiter continues a number. -/
theorem endsNumber_cons {c : Char} (other : isBlank c = true ∨ c = ',' ∨ c = ']' ∨ c = '\x7d')
    (rest : List Char) : EndsNumber (c :: rest) := by
  intro d tail same
  obtain ⟨rfl, -⟩ := List.cons.inj same
  have kinds : c = ' ' ∨ c = '\n' ∨ c = '\t' ∨ c = '\r' ∨ c = ',' ∨ c = ']' ∨ c = '\x7d' := by
    simpa [isBlank, or_assoc] using other
  rcases kinds with rfl | rfl | rfl | rfl | rfl | rfl | rfl <;> decide

theorem endsNumber_delimited {gap : List Char} (blank : AllBlank gap) {c : Char}
    (delimiter : c = ',' ∨ c = ']' ∨ c = '\x7d') (rest : List Char) :
    EndsNumber (gap ++ c :: rest) := by
  cases gap with
  | nil => exact endsNumber_cons (Or.inr delimiter) rest
  | cons b gap => exact endsNumber_cons (Or.inl (blank b List.mem_cons_self)) _

theorem endsNumber_blank {gap : List Char} (blank : AllBlank gap) : EndsNumber gap := by
  cases gap with
  | nil => exact endsNumber_nil
  | cons b gap => exact endsNumber_cons (Or.inl (blank b List.mem_cons_self)) gap

/-! The grammar -/

mutual

/-- A text that spells a document. -/
inductive Spells : Document → List Char → Prop where
  | null : Spells .null ['n', 'u', 'l', 'l']
  | yes : Spells (.bool true) ['t', 'r', 'u', 'e']
  | no : Spells (.bool false) ['f', 'a', 'l', 's', 'e']
  | natural {n : Nat} (small : n ≤ maxSignificand) :
      Spells (.number (some (.integer n))) (Nat.toDigits 10 n)
  | string (s : String) : Spells (.string (some s)) (quote s)
  | emptyArray {gap : List Char} (blank : AllBlank gap) :
      Spells (.array [] true) ('[' :: gap ++ [']'])
  | array {items : List Document} {text : List Char} (inside : SpellsItems items text) :
      Spells (.array items true) ('[' :: text ++ [']'])
  | emptyObject {gap : List Char} (blank : AllBlank gap) :
      Spells (.object [] true) ('\x7b' :: gap ++ ['\x7d'])
  | object {members : List (Option String × Document)} {text : List Char}
      (inside : SpellsMembers members text) :
      Spells (.object members true) ('\x7b' :: text ++ ['\x7d'])

/-- A text that spells one item or more, with commas between them. -/
inductive SpellsItems : List Document → List Char → Prop where
  | last {before text after : List Char} {item : Document} (leading : AllBlank before)
      (value : Spells item text) (trailing : AllBlank after) :
      SpellsItems [item] (before ++ (text ++ after))
  | more {before text after others : List Char} {item : Document} {items : List Document}
      (leading : AllBlank before) (value : Spells item text) (trailing : AllBlank after)
      (rest : SpellsItems items others) :
      SpellsItems (item :: items) (before ++ (text ++ (after ++ ',' :: others)))

/-- A text that spells one member or more, with commas between them. -/
inductive SpellsMembers : List (Option String × Document) → List Char → Prop where
  | last {before middle gap text after : List Char} {value : Document} (key : String)
      (leading : AllBlank before) (colon : AllBlank middle) (space : AllBlank gap)
      (spelled : Spells value text) (trailing : AllBlank after) :
      SpellsMembers [(some key, value)]
        (before ++ (quote key ++ (middle ++ ':' :: (gap ++ (text ++ after)))))
  | more {before middle gap text after others : List Char} {value : Document}
      {members : List (Option String × Document)} (key : String)
      (leading : AllBlank before) (colon : AllBlank middle) (space : AllBlank gap)
      (spelled : Spells value text) (trailing : AllBlank after)
      (rest : SpellsMembers members others) :
      SpellsMembers ((some key, value) :: members)
        (before ++ (quote key ++ (middle ++ ':' :: (gap ++ (text ++ (after ++ ',' :: others))))))

end

/-- A spelled text starts with a token, and not with a closing one. -/
theorem Spells.starts {d : Document} {text : List Char} (spelled : Spells d text) :
    ∃ c tail, text = c :: tail ∧ isBlank c = false ∧ c ≠ ']' := by
  cases spelled with
  | null => exact ⟨_, _, rfl, by decide⟩
  | yes => exact ⟨_, _, rfl, by decide⟩
  | no => exact ⟨_, _, rfl, by decide⟩
  | string s => exact ⟨_, _, rfl, by decide⟩
  | emptyArray blank => exact ⟨_, _, rfl, by decide⟩
  | array inside => exact ⟨_, _, rfl, by decide⟩
  | emptyObject blank => exact ⟨_, _, rfl, by decide⟩
  | object inside => exact ⟨_, _, rfl, by decide⟩
  | @natural n small =>
    cases written : Nat.toDigits 10 n with
    | nil => exact absurd written Nat.toDigits_ne_nil
    | cons c tail =>
      have digit : isDigit c = true :=
        isDigit_of_mem_toDigits (n := n) (by rw [written]; exact List.mem_cons_self)
      refine ⟨c, tail, rfl, ?_, ?_⟩
      · cases blank : isBlank c with
        | false => rfl
        | true =>
          have kinds : c = ' ' ∨ c = '\n' ∨ c = '\t' ∨ c = '\r' := by
            simpa [isBlank, or_assoc] using blank
          rcases kinds with rfl | rfl | rfl | rfl <;> exact absurd digit (by decide)
      · rintro rfl
        exact absurd digit (by decide)

theorem Spells.skipBlanks {d : Document} {text : List Char} (spelled : Spells d text)
    (rest : List Char) : skipBlanks (text ++ rest) = text ++ rest := by
  obtain ⟨c, tail, rfl, token, -⟩ := spelled.starts
  exact skipBlanks_cons token _

/-! Reading -/

theorem readValue_string (fuel : Nat) (s : String) (rest : List Char) :
    readValue (fuel + 1) (quote s ++ rest) = (.string (some s), some rest) := by
  obtain ⟨pieces, written, read, joined⟩ := readPieces_quote s rest
  rw [written, readValue]
  simp only [read, joined]

theorem readValue_natural (fuel : Nat) {n : Nat} (small : n ≤ maxSignificand) {rest : List Char}
    (ends : EndsNumber rest) :
    readValue (fuel + 1) (Nat.toDigits 10 n ++ rest) =
      (.number (some (.integer n)), some rest) := by
  have read := readNumeral_natural n ends
  cases written : Nat.toDigits 10 n with
  | nil => exact absurd written Nat.toDigits_ne_nil
  | cons d ds =>
    have digit : isDigit d = true :=
      isDigit_of_mem_toDigits (n := n) (by rw [written]; exact List.mem_cons_self)
    have token : ∀ c, isDigit c = false → d ≠ c := by
      rintro c other rfl
      rw [digit] at other
      exact absurd other (by decide)
    rw [written, List.cons_append] at read
    rw [List.cons_append, readValue]
    · rw [read, numberDocument, value?_naturalNumeral small]
    all_goals
      intro tail same
      exact token _ (by decide) (List.cons.inj same).1

/-- After an item the reader looks for a comma or the bracket. -/
theorem readItems_item {fuel : Nat} {item : Document} {text tail : List Char}
    (read : readValue fuel (text ++ tail) = (item, some tail)) :
    readItems (fuel + 1) (text ++ tail) =
      match skipBlanks tail with
      | ']' :: rest => ([item], some rest)
      | ',' :: rest =>
        let (items, rest) := readItems fuel (skipBlanks rest)
        (item :: items, rest)
      | _ => ([item], none) := by
  rw [readItems]
  generalize readValue fuel (text ++ tail) = result at read ⊢
  subst read
  rfl

/-- After a member the reader looks for a comma or the brace. -/
theorem readMembers_member {fuel : Nat} (key : String) {value : Document}
    {middle gap text tail : List Char} (colon : AllBlank middle) (space : AllBlank gap)
    (spelled : Spells value text)
    (read : readValue fuel (text ++ tail) = (value, some tail)) :
    readMembers (fuel + 1) (quote key ++ (middle ++ ':' :: (gap ++ (text ++ tail)))) =
      match skipBlanks tail with
      | '\x7d' :: rest => ([(some key, value)], some rest)
      | ',' :: rest =>
        let (members, rest) := readMembers fuel (skipBlanks rest)
        ((some key, value) :: members, rest)
      | _ => ([(some key, value)], none) := by
  obtain ⟨pieces, written, named, joined⟩ :=
    readPieces_quote key (middle ++ ':' :: (gap ++ (text ++ tail)))
  have toColon : skipBlanks (middle ++ ':' :: (gap ++ (text ++ tail))) =
      ':' :: (gap ++ (text ++ tail)) := by
    rw [skipBlanks_append colon, skipBlanks_cons (by decide)]
  have toValue : skipBlanks (gap ++ (text ++ tail)) = text ++ tail := by
    rw [skipBlanks_append space, spelled.skipBlanks]
  rw [written, readMembers]
  simp only [named, joined, toColon, toValue]
  generalize readValue fuel (text ++ tail) = result at read ⊢
  subst read
  rfl

/-- What the grammar spells is read as such with this much fuel. -/
structure ReadsSpelled (fuel : Nat) : Prop where
  value : ∀ {d : Document} {text rest : List Char}, Spells d text → text.length ≤ fuel →
    EndsNumber rest → readValue fuel (text ++ rest) = (d, some rest)
  items : ∀ {items : List Document} {text : List Char}, SpellsItems items text →
    text.length < fuel → ∀ rest : List Char,
    readItems fuel (skipBlanks (text ++ ']' :: rest)) = (items, some rest)
  members : ∀ {members : List (Option String × Document)} {text : List Char},
    SpellsMembers members text → text.length < fuel → ∀ rest : List Char,
    readMembers fuel (skipBlanks (text ++ '\x7d' :: rest)) = (members, some rest)

theorem readsSpelled_zero : ReadsSpelled 0 where
  value := by
    intro d text rest spelled enough ends
    obtain ⟨c, tail, rfl, -⟩ := spelled.starts
    exact absurd enough (by simp)
  items := fun _ enough _ => absurd enough (Nat.not_lt_zero _)
  members := fun _ enough _ => absurd enough (Nat.not_lt_zero _)

theorem SpellsItems.skipBlanks {items : List Document} {text : List Char}
    (spelled : SpellsItems items text) (rest : List Char) :
    ∃ c tail, Json.skipBlanks (text ++ rest) = c :: tail ∧ c ≠ ']' := by
  cases spelled with
  | last leading value trailing =>
    obtain ⟨c, tail, rfl, token, other⟩ := value.starts
    rw [List.append_assoc, skipBlanks_append leading]
    exact ⟨c, _, skipBlanks_cons token _, other⟩
  | more leading value trailing others =>
    obtain ⟨c, tail, rfl, token, other⟩ := value.starts
    rw [List.append_assoc, skipBlanks_append leading]
    exact ⟨c, _, skipBlanks_cons token _, other⟩

theorem skipBlanks_quote (key : String) (rest : List Char) :
    skipBlanks (quote key ++ rest) = quote key ++ rest :=
  (Spells.string key).skipBlanks rest

theorem SpellsMembers.skipBlanks {members : List (Option String × Document)} {text : List Char}
    (spelled : SpellsMembers members text) (rest : List Char) :
    ∃ tail, Json.skipBlanks (text ++ rest) = '"' :: tail := by
  cases spelled with
  | last key leading colon space value trailing =>
    rw [List.append_assoc, skipBlanks_append leading]
    exact ⟨_, skipBlanks_cons (by decide) _⟩
  | more key leading colon space value trailing others =>
    rw [List.append_assoc, skipBlanks_append leading]
    exact ⟨_, skipBlanks_cons (by decide) _⟩

theorem ReadsSpelled.value_succ {fuel : Nat} (reads : ReadsSpelled fuel) {d : Document}
    {text rest : List Char} (spelled : Spells d text) (enough : text.length ≤ fuel + 1)
    (ends : EndsNumber rest) : readValue (fuel + 1) (text ++ rest) = (d, some rest) := by
  cases spelled with
  | null => simp only [List.cons_append, List.nil_append, readValue]
  | yes => simp only [List.cons_append, List.nil_append, readValue]
  | no => simp only [List.cons_append, List.nil_append, readValue]
  | string s => exact readValue_string fuel s rest
  | natural small => exact readValue_natural fuel small ends
  | @emptyArray gap blank =>
    have bracket : skipBlanks (gap ++ ']' :: rest) = ']' :: rest := by
      rw [skipBlanks_append blank, skipBlanks_cons (by decide)]
    simp only [List.cons_append, List.append_assoc, List.nil_append, readValue, bracket]
  | @array items text inside =>
    have short : text.length < fuel := by
      simp only [List.length_append, List.length_cons, List.length_nil] at enough
      omega
    have read := reads.items inside short rest
    obtain ⟨c, tail, start, other⟩ := inside.skipBlanks (']' :: rest)
    rw [start] at read
    simp only [List.cons_append, List.append_assoc, List.nil_append, readValue, start]
    split
    · next same => exact absurd (List.cons.inj same).1 other
    · simp only [read, Option.isSome_some]
  | @emptyObject gap blank =>
    have brace : skipBlanks (gap ++ '\x7d' :: rest) = '\x7d' :: rest := by
      rw [skipBlanks_append blank, skipBlanks_cons (by decide)]
    simp only [List.cons_append, List.append_assoc, List.nil_append, readValue, brace]
  | @object members text inside =>
    have short : text.length < fuel := by
      simp only [List.length_append, List.length_cons, List.length_nil] at enough
      omega
    have read := reads.members inside short rest
    obtain ⟨tail, start⟩ := inside.skipBlanks ('\x7d' :: rest)
    rw [start] at read
    simp only [List.cons_append, List.append_assoc, List.nil_append, readValue, start]
    split
    · next same => exact absurd (List.cons.inj same).1 (by decide)
    · simp only [read, Option.isSome_some]

theorem ReadsSpelled.items_succ {fuel : Nat} (reads : ReadsSpelled fuel) {items : List Document}
    {text : List Char} (spelled : SpellsItems items text) (enough : text.length < fuel + 1)
    (rest : List Char) :
    readItems (fuel + 1) (skipBlanks (text ++ ']' :: rest)) = (items, some rest) := by
  cases spelled with
  | @last before text after item leading value trailing =>
    simp only [List.length_append] at enough
    have read := reads.value value (by omega)
      (endsNumber_delimited trailing (Or.inr (Or.inl rfl)) rest)
    rw [List.append_assoc, List.append_assoc, skipBlanks_append leading, value.skipBlanks,
      readItems_item read, skipBlanks_append trailing, skipBlanks_cons (by decide)]
    rfl
  | @more before text after others item items leading value trailing inside =>
    simp only [List.length_append, List.length_cons] at enough
    have read := reads.value value (by omega)
      (endsNumber_delimited trailing (Or.inl rfl) (others ++ ']' :: rest))
    have next := reads.items inside (by omega) rest
    rw [List.append_assoc, List.append_assoc, List.append_assoc, List.cons_append,
      skipBlanks_append leading, value.skipBlanks, readItems_item read,
      skipBlanks_append trailing, skipBlanks_cons (by decide)]
    simp only [next]

theorem ReadsSpelled.members_succ {fuel : Nat} (reads : ReadsSpelled fuel)
    {members : List (Option String × Document)} {text : List Char}
    (spelled : SpellsMembers members text) (enough : text.length < fuel + 1) (rest : List Char) :
    readMembers (fuel + 1) (skipBlanks (text ++ '\x7d' :: rest)) = (members, some rest) := by
  cases spelled with
  | @last before middle gap text after value key leading colon space spelled trailing =>
    simp only [List.length_append, List.length_cons] at enough
    have read := reads.value spelled (by omega)
      (endsNumber_delimited trailing (Or.inr (Or.inr rfl)) rest)
    simp only [List.append_assoc, List.cons_append]
    rw [skipBlanks_append leading, skipBlanks_quote, readMembers_member key colon space spelled read,
      skipBlanks_append trailing, skipBlanks_cons (by decide)]
    rfl
  | @more before middle gap text after others value members key leading colon space spelled trailing
      inside =>
    simp only [List.length_append, List.length_cons] at enough
    have read := reads.value spelled (by omega)
      (endsNumber_delimited trailing (Or.inl rfl) (others ++ '\x7d' :: rest))
    have next := reads.members inside (by omega) rest
    simp only [List.append_assoc, List.cons_append]
    rw [skipBlanks_append leading, skipBlanks_quote, readMembers_member key colon space spelled read,
      skipBlanks_append trailing, skipBlanks_cons (by decide)]
    simp only [next]

/-- The induction is on the fuel, which is what the three readers share. -/
theorem readsSpelled (fuel : Nat) : ReadsSpelled fuel := by
  induction fuel with
  | zero => exact readsSpelled_zero
  | succ fuel reads => exact ⟨reads.value_succ, reads.items_succ, reads.members_succ⟩

/-- A spelled text is read as what it spells, whatever follows it. -/
theorem readFirst_spelled {d : Document} {text rest : List Char} (spelled : Spells d text)
    (ends : EndsNumber rest) : readFirst (text ++ rest) = (d, some rest) := by
  unfold readFirst
  rw [spelled.skipBlanks]
  refine (readsSpelled _).value spelled ?_ ends
  rw [List.length_append]
  omega

end RoutineWatch.Json
