import RoutineWatch.Proofs.Json.Locality

/-!
# How far a reader goes

Where a value was read to its end, all brackets that were opened in it are closed in it, and
where the items or members of a value were, the bracket around them is closed too. So every
array that can be read ends with the bracket that closes it.

- `Json.closed`: by induction on the fuel, for values, items and members together.
- `Json.exists_bracketed_of_readFirst`: an array that was read to its end is bracketed.
-/
namespace RoutineWatch.Json

/-- What was taken from a text closes the brackets that it opens. -/
def Balanced (text rest : List Char) : Prop :=
  ∃ part, text = part ++ rest ∧
    ∀ depth after, Closes (depth + 1) after → Closes (depth + 1) (part ++ after)

/-- What was taken from a text closes one bracket more. -/
def Ended (text rest : List Char) : Prop :=
  ∃ part, text = part ++ rest ∧
    ∀ depth after, Closes depth after → Closes (depth + 1) (part ++ after)

section
variable {text middle rest : List Char} {c : Char}

theorem Balanced.refl (text : List Char) : Balanced text text :=
  ⟨[], rfl, fun _ _ closes => closes⟩

theorem Balanced.trans (first : Balanced text middle) (second : Balanced middle rest) :
    Balanced text rest := by
  obtain ⟨part, rfl, kept⟩ := first
  obtain ⟨part', rfl, kept'⟩ := second
  refine ⟨part ++ part', (List.append_assoc part part' rest).symm, ?_⟩
  intro depth after closes
  rw [List.append_assoc]
  exact kept depth _ (kept' depth after closes)

theorem Balanced.ended (first : Balanced text middle) (second : Ended middle rest) :
    Ended text rest := by
  obtain ⟨part, rfl, kept⟩ := first
  obtain ⟨part', rfl, ends⟩ := second
  refine ⟨part ++ part', (List.append_assoc part part' rest).symm, ?_⟩
  intro depth after closes
  rw [List.append_assoc]
  exact kept depth _ (ends depth after closes)

theorem ended_bracket (bracket : c = ']' ∨ c = '\x7d') (rest : List Char) :
    Ended (c :: rest) rest :=
  ⟨[c], rfl, fun _ _ closes => .closing bracket closes⟩

theorem Ended.opened (bracket : c = '[' ∨ c = '\x7b') (ended : Ended text rest) :
    Balanced (c :: text) rest := by
  obtain ⟨part, rfl, ends⟩ := ended
  refine ⟨c :: part, rfl, ?_⟩
  intro depth after closes
  exact .opening bracket (ends (depth + 1) after closes)

theorem balanced_plain (other : c ∉ marks) (rest : List Char) : Balanced (c :: rest) rest :=
  ⟨[c], rfl, fun _ _ closes => .plain other closes⟩

theorem balanced_row {row : List Char} (unmarked : Unmarked row) (rest : List Char) :
    Balanced (row ++ rest) rest :=
  ⟨row, rfl, fun _ _ closes => closes.row unmarked⟩

theorem balanced_dropWhile {p : Char → Bool} (kind : ∀ b ∈ marks, p b = false)
    (text : List Char) : Balanced text (text.dropWhile p) := by
  induction text with
  | nil => exact .refl []
  | cons c text ih =>
    rw [List.dropWhile_cons]
    split
    · next own => exact (balanced_plain (not_mem_marks kind own) text).trans ih
    · exact .refl _

theorem balanced_skipBlanks (text : List Char) : Balanced text (skipBlanks text) := by
  rw [skipBlanks_eq_dropWhile]
  exact balanced_dropWhile isBlank_marks text

end

/-! Strings -/

theorem not_mark_of_hexDigit {c : Char} {k : Nat} (digit : hexDigit? c = some k) :
    c ≠ '"' ∧ c ≠ '\\' := by
  constructor <;> intro same <;> subst same <;> cases digit

/-- What was read as a string is one. -/
theorem quoted_of_readPieces {text rest : List Char} {pieces : List Unit16}
    (read : readPieces text = some (pieces, rest)) :
    ∃ inside, text = inside ++ rest ∧ Quoted inside := by
  fun_induction readPieces text generalizing pieces rest with
  | case1 => cases read
  | case2 left =>
    cases read
    exact ⟨['"'], rfl, .mark⟩
  | case3 a b c d left ih =>
    obtain ⟨n, unit, read⟩ := Option.bind_eq_some_iff.1 read
    obtain ⟨⟨others, after⟩, read, same⟩ := Option.bind_eq_some_iff.1 read
    cases same
    obtain ⟨inside, rfl, quoted⟩ := ih read
    obtain ⟨⟨_, first⟩, ⟨_, second⟩, ⟨_, third⟩, ⟨_, fourth⟩⟩ := hex4?_eq_some unit
    refine ⟨'\\' :: 'u' :: a :: b :: c :: d :: inside, rfl, .escaped 'u' ?_⟩
    exact .plain (not_mark_of_hexDigit first) (.plain (not_mark_of_hexDigit second)
      (.plain (not_mark_of_hexDigit third) (.plain (not_mark_of_hexDigit fourth) quoted)))
  | case4 e left noUnit ih =>
    obtain ⟨c, short, read⟩ := Option.bind_eq_some_iff.1 read
    obtain ⟨⟨others, after⟩, read, same⟩ := Option.bind_eq_some_iff.1 read
    cases same
    obtain ⟨inside, rfl, quoted⟩ := ih read
    exact ⟨'\\' :: e :: inside, rfl, .escaped e quoted⟩
  | case5 c left mark noUnit noEscape control => cases read
  | case6 c left mark noUnit noEscape control ih =>
    obtain ⟨⟨others, after⟩, read, same⟩ := Option.bind_eq_some_iff.1 read
    cases same
    -- a lone backslash is taken for itself only at the end of the text, where no mark follows
    have slash : c ≠ '\\' := by
      intro slash
      cases left with
      | nil => cases read
      | cons e left => exact noEscape e left slash rfl
    obtain ⟨inside, rfl, quoted⟩ := ih read
    exact ⟨c :: inside, rfl, .plain ⟨mark, slash⟩ quoted⟩

theorem balanced_of_readPieces {text rest : List Char} {pieces : List Unit16}
    (read : readPieces text = some (pieces, rest)) : Balanced ('"' :: text) rest := by
  obtain ⟨inside, rfl, quoted⟩ := quoted_of_readPieces read
  refine ⟨'"' :: inside, rfl, ?_⟩
  intro depth after closes
  exact .string quoted closes

/-! Numbers -/

section
variable {text rest : List Char}

theorem balanced_of_readDigits {ds : List Char} (read : readDigits text = some (ds, rest)) :
    Balanced text rest := by
  unfold readDigits at read
  split at read
  · cases read
  · cases read
    exact balanced_dropWhile isDigit_marks text

theorem balanced_of_readSigned {exponent : Option (Bool × List Char)}
    (read : readSigned text = some (exponent, rest)) : Balanced text rest := by
  unfold readSigned at read
  split at read
  all_goals
    obtain ⟨⟨ds, after⟩, digits, same⟩ := Option.map_eq_some_iff.1 read
    cases same
  · exact (balanced_plain (by decide) _).trans (balanced_of_readDigits digits)
  · exact (balanced_plain (by decide) _).trans (balanced_of_readDigits digits)
  · exact balanced_of_readDigits digits

theorem balanced_of_readExponent {exponent : Option (Bool × List Char)}
    (read : readExponent text = some (exponent, rest)) : Balanced text rest := by
  cases text with
  | nil =>
    cases read
    exact .refl []
  | cons c text =>
    by_cases marked : c = 'e' ∨ c = 'E'
    · rw [readExponent_marked marked] at read
      have letter : c ∉ marks := by rcases marked with rfl | rfl <;> decide
      exact (balanced_plain letter text).trans (balanced_of_readSigned read)
    · rw [readExponent_other marked] at read
      cases read
      exact .refl _

theorem balanced_of_readFraction {negative : Bool} {whole : List Char} {n : Numeral}
    (read : readFraction negative whole text = some (n, rest)) : Balanced text rest := by
  cases text with
  | nil =>
    cases read
    exact .refl []
  | cons c text =>
    by_cases point : c = '.'
    · subst point
      rw [readFraction_point] at read
      obtain ⟨⟨ds, left⟩, digits, read⟩ := Option.bind_eq_some_iff.1 read
      obtain ⟨⟨exponent, after⟩, power, same⟩ := Option.map_eq_some_iff.1 read
      cases same
      have fraction := (balanced_of_readDigits digits).trans (balanced_of_readExponent power)
      exact (balanced_plain (by decide) text).trans fraction
    · rw [readFraction_other point] at read
      obtain ⟨⟨exponent, after⟩, power, same⟩ := Option.map_eq_some_iff.1 read
      cases same
      exact balanced_of_readExponent power

theorem balanced_of_readNumeral {negative : Bool} {n : Numeral}
    (read : readNumeral negative text = some (n, rest)) : Balanced text rest := by
  cases text with
  | nil => cases read
  | cons c text =>
    by_cases zero : c = '0'
    · subst zero
      have fraction : readFraction negative ['0'] text = some (n, rest) := by
        cases text with
        | nil => exact read
        | cons d text =>
          by_cases digit : isDigit d = true
          · rw [readNumeral, if_pos digit] at read
            cases read
          · rwa [readNumeral, if_neg digit] at read
      exact (balanced_plain (by decide) text).trans (balanced_of_readFraction fraction)
    · rw [readNumeral_digit zero] at read
      by_cases digit : isDigit c = true
      · rw [if_pos digit] at read
        have digits := balanced_dropWhile isDigit_marks text
        have fraction := digits.trans (balanced_of_readFraction read)
        exact (balanced_plain (not_mem_marks isDigit_marks digit) text).trans fraction
      · rw [if_neg digit] at read
        cases read

end

/-! Values -/

theorem readValue_nil (fuel : Nat) : readValue (fuel + 1) [] = (.fault, none) := by
  simp [readValue, readNumeral, numberDocument]

theorem exists_of_tokenDocument {α : Type} {make : α → Document} {read : Option (α × List Char)}
    {d : Document} {rest : List Char} (same : tokenDocument make read = (d, some rest)) :
    ∃ a, read = some (a, rest) := by
  cases read with
  | none => cases same
  | some r =>
    cases same
    exact ⟨r.1, rfl⟩

section
variable {text rest : List Char} {fuel : Nat}

/-- A value that starts with no opening mark. -/
theorem balanced_of_token {c : Char} {d : Document} (other : c ≠ '"' ∧ c ≠ '[' ∧ c ≠ '\x7b')
    (read : readValue (fuel + 1) (c :: text) = (d, some rest)) : Balanced (c :: text) rest := by
  by_cases word : ∃ w ∈ words, w <+: c :: text
  · obtain ⟨w, member, left, same⟩ := word
    rw [← same] at read ⊢
    simp only [words, List.mem_cons, List.not_mem_nil, or_false] at member
    rcases member with rfl | rfl | rfl
    all_goals
      simp only [List.cons_append, List.nil_append, readValue] at read
      cases read
      exact balanced_row (by decide) rest
  · have noWord : ∀ w ∈ words, ¬ w <+: c :: text := fun w member starts => word ⟨w, member, starts⟩
    rw [readValue_number other noWord] at read
    by_cases minus : c = '-'
    · subst minus
      rw [if_pos rfl] at read
      obtain ⟨n, numeral⟩ := exists_of_tokenDocument read
      exact (balanced_plain (by decide) text).trans (balanced_of_readNumeral numeral)
    · rw [if_neg minus] at read
      obtain ⟨n, numeral⟩ := exists_of_tokenDocument read
      exact balanced_of_readNumeral numeral

section
variable {α : Type} {close : Char} (closing : close = ']' ∨ close = '\x7d')
  {inner : Nat → List Char → List α × Option (List Char)}
  (ends : ∀ {text rest : List Char} {items : List α}, inner fuel text = (items, some rest) →
    Ended text rest)
include closing ends

theorem ended_of_goOn {item : α} {items : List α}
    (read : goOn close inner item fuel text = (items, some rest)) : Ended text rest := by
  refine (balanced_skipBlanks text).ended ?_
  unfold goOn at read
  cases start : skipBlanks text with
  | nil =>
    rw [start] at read
    cases read
  | cons c left =>
    rw [start] at read
    dsimp only at read
    by_cases last : c = close
    · subst last
      rw [if_pos rfl] at read
      cases read
      exact ended_bracket closing rest
    · rw [if_neg last] at read
      by_cases comma : c = ','
      · subst comma
        rw [if_pos rfl] at read
        have others := ends (Prod.ext rfl (Prod.mk.inj read).2)
        exact (balanced_plain (by decide) left).ended ((balanced_skipBlanks left).ended others)
      · rw [if_neg comma] at read
        cases read

theorem ended_of_bracketed {make : List α → Bool → Document} {d : Document}
    (read : bracketed close inner make fuel text = (d, some rest)) : Ended text rest := by
  refine (balanced_skipBlanks text).ended ?_
  unfold bracketed at read
  by_cases last : (skipBlanks text).head? = some close
  · rw [if_pos last] at read
    obtain ⟨left, start⟩ := List.head?_eq_some_iff.1 last
    rw [start] at read ⊢
    cases read
    exact ended_bracket closing left
  · rw [if_neg last] at read
    exact ends (Prod.ext rfl (Prod.mk.inj read).2)

end

end

/-- With this much fuel, values that were read to their end are balanced, and the items and
members of one go up to its closing bracket. -/
structure Closed (fuel : Nat) : Prop where
  value : ∀ {text rest : List Char} {d : Document}, readValue fuel text = (d, some rest) →
    Balanced text rest
  items : ∀ {text rest : List Char} {items : List Document},
    readItems fuel text = (items, some rest) → Ended text rest
  members : ∀ {text rest : List Char} {members : List (Option String × Document)},
    readMembers fuel text = (members, some rest) → Ended text rest

section
variable {fuel : Nat} (closed : Closed fuel) {text rest : List Char}
include closed

/-- An item was read to its end if something was read after it. -/
theorem Closed.andThen {α : Type} {stop : Document → α}
    {next : Document → Nat → List Char → α × Option (List Char)} {a : α}
    (read : andThen readValue stop next fuel text = (a, some rest)) :
    ∃ d left, Balanced text left ∧ next d fuel left = (a, some rest) := by
  unfold Json.andThen at read
  rcases value : readValue fuel text with ⟨d, _ | left⟩
  · rw [value] at read
    cases read
  · rw [value] at read
    exact ⟨d, left, closed.value value, read⟩

theorem Closed.value_succ {d : Document} (read : readValue (fuel + 1) text = (d, some rest)) :
    Balanced text rest := by
  cases text with
  | nil =>
    rw [readValue_nil] at read
    cases read
  | cons c text =>
    by_cases array : c = '['
    · subst array
      rw [readValue_array] at read
      exact (ended_of_bracketed (Or.inl rfl) closed.items read).opened (Or.inl rfl)
    by_cases object : c = '\x7b'
    · subst object
      rw [readValue_object] at read
      exact (ended_of_bracketed (Or.inr rfl) closed.members read).opened (Or.inr rfl)
    by_cases string : c = '"'
    · subst string
      rw [readValue] at read
      cases pieces : readPieces text with
      | none =>
        rw [pieces] at read
        cases read
      | some r =>
        rw [pieces] at read
        cases read
        exact balanced_of_readPieces pieces
    exact balanced_of_token ⟨string, array, object⟩ read

theorem Closed.items_succ {items : List Document}
    (read : readItems (fuel + 1) text = (items, some rest)) : Ended text rest := by
  rw [readItems_eq] at read
  obtain ⟨d, left, value, others⟩ := closed.andThen read
  exact value.ended (ended_of_goOn (Or.inl rfl) closed.items others)

theorem Closed.members_succ {members : List (Option String × Document)}
    (read : readMembers (fuel + 1) text = (members, some rest)) : Ended text rest := by
  cases text with
  | nil =>
    rw [readMembers] at read
    · cases read
    · simp
  | cons c text =>
    by_cases string : c = '"'
    · subst string
      rw [readMembers_key] at read
      cases key : readPieces text with
      | none =>
        rw [key] at read
        cases read
      | some r =>
        rw [key] at read
        refine (balanced_of_readPieces key).ended ((balanced_skipBlanks r.2).ended ?_)
        dsimp only [afterKey] at read
        by_cases colon : (skipBlanks r.2).head? = some ':'
        · rw [if_pos colon] at read
          obtain ⟨left, start⟩ := List.head?_eq_some_iff.1 colon
          rw [start] at read ⊢
          obtain ⟨d, left', value, others⟩ := closed.andThen read
          have member := (balanced_skipBlanks left).trans value
          have ended := member.ended (ended_of_goOn (Or.inr rfl) closed.members others)
          exact (balanced_plain (by decide) left).ended ended
        · rw [if_neg colon] at read
          cases read
    · rw [readMembers] at read
      · cases read
      · intro _ same
        exact string (List.cons.inj same).1

end

/-- The induction is on the fuel, which is what the three readers share. -/
theorem closed (fuel : Nat) : Closed fuel := by
  induction fuel with
  | zero =>
    constructor <;>
      intro text rest _ read <;> cases read
  | succ fuel closed => exact ⟨closed.value_succ, closed.items_succ, closed.members_succ⟩

/-- What is read as an array starts with a bracket. -/
theorem starts_of_array {fuel : Nat} {text rest : List Char} {items : List Document} {whole : Bool}
    (read : readValue (fuel + 1) text = (.array items whole, some rest)) :
    ∃ inside, text = '[' :: inside := by
  unfold readValue at read
  dsimp only at read
  split at read
  case h_6 inside => exact ⟨inside, rfl⟩
  case h_5 | h_8 =>
    rw [numberDocument_eq] at read
    obtain ⟨n, numeral⟩ := exists_of_tokenDocument read
    rw [numeral] at read
    cases read
  case h_4 | h_7 => split at read <;> cases read
  all_goals cases read

/-- An array that was read to its end is bracketed, and it is all that was taken but blanks. -/
theorem exists_bracketed_of_readFirst {text rest : List Char} {items : List Document} {whole : Bool}
    (read : readFirst text = (.array items whole, some rest)) :
    ∃ gap array, AllBlank gap ∧ Bracketed array ∧ text = gap ++ (array ++ rest) := by
  unfold readFirst at read
  obtain ⟨inside, start⟩ := starts_of_array read
  rw [start, readValue_array] at read
  obtain ⟨part, rfl, ends⟩ := ended_of_bracketed (Or.inl rfl) (closed _).items read
  refine ⟨text.takeWhile isBlank, '[' :: part, ?_, ⟨part, rfl, ?_⟩, ?_⟩
  · exact List.all_eq_true.1 List.all_takeWhile
  · have closes := ends 0 [] .done
    rwa [List.append_nil] at closes
  · rw [List.cons_append, ← start, skipBlanks_eq_dropWhile]
    exact List.takeWhile_append_dropWhile.symm

end RoutineWatch.Json
