import RoutineWatch.Proofs.Json.Quote

/-!
# Brackets in a text

Those inside strings do not count, and a string goes to its first quotation mark that no
backslash is ahead of. A text that closes the brackets it stands in decides what is read at
its beginning: words, numbers and strings that start in it end in it, or are refused whatever
comes after it.

- `Json.Closes`: a text that closes the brackets it stands in.
- `Json.Settled`: a reader that is settled by a text.
- `Json.Closes.pieces`, `Json.Closes.numeral`, `Json.Closes.word`: strings, numbers and words.
-/
namespace RoutineWatch.Json

/-- What does not pass for itself among brackets. -/
def marks : List Char := ['[', ']', '\x7b', '\x7d', '"']

/-- A row of characters that pass for themselves. -/
def Unmarked (row : List Char) : Prop := ∀ c ∈ row, c ∉ marks

instance (row : List Char) : Decidable (Unmarked row) :=
  List.decidableBAll _ row

/-- What is left of a string, with the mark that ends it. -/
inductive Quoted : List Char → Prop where
  | mark : Quoted ['"']
  | escaped (c : Char) {text : List Char} (rest : Quoted text) : Quoted ('\\' :: c :: text)
  | plain {c : Char} {text : List Char} (other : c ≠ '"' ∧ c ≠ '\\') (rest : Quoted text) :
      Quoted (c :: text)

/-- A text inside some brackets that ends with the one that closes the outermost. -/
inductive Closes : Nat → List Char → Prop where
  | done : Closes 0 []
  | opening {depth : Nat} {c : Char} {text : List Char} (bracket : c = '[' ∨ c = '\x7b')
      (rest : Closes (depth + 2) text) : Closes (depth + 1) (c :: text)
  | closing {depth : Nat} {c : Char} {text : List Char} (bracket : c = ']' ∨ c = '\x7d')
      (rest : Closes depth text) : Closes (depth + 1) (c :: text)
  | string {depth : Nat} {inside text : List Char} (quoted : Quoted inside)
      (rest : Closes (depth + 1) text) : Closes (depth + 1) ('"' :: (inside ++ text))
  | plain {depth : Nat} {c : Char} {text : List Char} (other : c ∉ marks)
      (rest : Closes (depth + 1) text) : Closes (depth + 1) (c :: text)

section
variable {depth : Nat} {c : Char} {text : List Char}

theorem Closes.ne_nil (closes : Closes (depth + 1) text) : text ≠ [] := by
  intro empty
  rw [empty] at closes
  cases closes

theorem Closes.of_plain (closes : Closes (depth + 1) (c :: text)) (other : c ∉ marks) :
    Closes (depth + 1) text := by
  cases closes with
  | opening bracket => rcases bracket with rfl | rfl <;> exact absurd (by decide) other
  | closing bracket => rcases bracket with rfl | rfl <;> exact absurd (by decide) other
  | string => exact absurd (by decide) other
  | plain _ rest => exact rest

theorem Closes.of_opening (closes : Closes (depth + 1) (c :: text))
    (bracket : c = '[' ∨ c = '\x7b') : Closes (depth + 2) text := by
  cases closes with
  | opening _ rest => exact rest
  | closing other => rcases bracket with rfl | rfl <;> rcases other with same | same <;> cases same
  | string => rcases bracket with same | same <;> cases same
  | plain other => rcases bracket with rfl | rfl <;> exact absurd (by decide) other

theorem Closes.of_closing (closes : Closes (depth + 1) (c :: text))
    (bracket : c = ']' ∨ c = '\x7d') : Closes depth text := by
  cases closes with
  | opening other => rcases bracket with rfl | rfl <;> rcases other with same | same <;> cases same
  | closing _ rest => exact rest
  | string => rcases bracket with same | same <;> cases same
  | plain other => rcases bracket with rfl | rfl <;> exact absurd (by decide) other

theorem Closes.row (closes : Closes (depth + 1) text) {row : List Char} (unmarked : Unmarked row) :
    Closes (depth + 1) (row ++ text) := by
  induction row with
  | nil => exact closes
  | cons c row ih =>
    obtain ⟨first, others⟩ := List.forall_mem_cons.1 unmarked
    exact .plain first (ih others)

/-- A kind of characters without marks. -/
theorem not_mem_marks {p : Char → Bool} (kind : ∀ b ∈ marks, p b = false) (own : p c = true) :
    c ∉ marks := by
  intro member
  rw [kind c member] at own
  cases own

/-! Rows of characters of a kind -/

variable {p : Char → Bool} (kind : ∀ b ∈ marks, p b = false)
include kind

theorem Closes.dropWhile (closes : Closes (depth + 1) text) :
    Closes (depth + 1) (text.dropWhile p) := by
  induction text with
  | nil => exact absurd rfl closes.ne_nil
  | cons c text ih =>
    rw [List.dropWhile_cons]
    split
    · next own => exact ih (closes.of_plain (not_mem_marks kind own))
    · exact closes

theorem Closes.dropWhile_append (closes : Closes (depth + 1) text) (after : List Char) :
    (text ++ after).dropWhile p = text.dropWhile p ++ after := by
  have some : (text.dropWhile p).isEmpty = false := by
    simpa using (closes.dropWhile kind).ne_nil
  rw [List.dropWhile_append, some]
  rfl

theorem Closes.takeWhile_append (closes : Closes (depth + 1) text) (after : List Char) :
    (text ++ after).takeWhile p = text.takeWhile p := by
  have whole : text.takeWhile p ++ text.dropWhile p = text := List.takeWhile_append_dropWhile
  have some := (closes.dropWhile kind).ne_nil
  rw [List.takeWhile_append, if_neg]
  intro same
  rw [← whole, List.length_append, whole] at same
  have none : (text.dropWhile p).length = 0 := by omega
  exact some (List.length_eq_zero_iff.1 none)

end

theorem skipBlanks_eq_dropWhile (text : List Char) : skipBlanks text = text.dropWhile isBlank := by
  induction text with
  | nil => rfl
  | cons c text ih => rw [skipBlanks, List.dropWhile_cons, ih]

theorem isBlank_marks : ∀ b ∈ marks, isBlank b = false := by simp [marks, isBlank]

theorem isDigit_marks : ∀ b ∈ marks, isDigit b = false := by simp [marks, isDigit]

section
variable {depth : Nat} {text : List Char} (closes : Closes (depth + 1) text)
include closes

theorem Closes.skipBlanks : Closes (depth + 1) (skipBlanks text) := by
  rw [skipBlanks_eq_dropWhile]
  exact closes.dropWhile isBlank_marks

theorem Closes.skipBlanks_append (after : List Char) :
    Json.skipBlanks (text ++ after) = Json.skipBlanks text ++ after := by
  rw [skipBlanks_eq_dropWhile, skipBlanks_eq_dropWhile]
  exact closes.dropWhile_append isBlank_marks after

end

/-- A text that closes brackets goes on with something that is no blank. -/
theorem Closes.token {depth : Nat} {text : List Char} (closes : Closes (depth + 1) text) :
    ∃ c rest, Closes (depth + 1) (c :: rest) ∧ rest.length < text.length ∧
      ∀ after, Json.skipBlanks (text ++ after) = c :: (rest ++ after) := by
  have kept := closes.skipBlanks
  have short : (Json.skipBlanks text).length ≤ text.length := by
    rw [skipBlanks_eq_dropWhile]
    exact (List.dropWhile_suffix isBlank).length_le
  have whole := closes.skipBlanks_append
  cases start : Json.skipBlanks text with
  | nil => exact absurd start kept.ne_nil
  | cons c rest =>
    rw [start] at kept short whole
    exact ⟨c, rest, kept, short, whole⟩

/-! Tokens -/

/-- A reader is settled by a text: it does the same whatever comes after the text, and leaves
what closes so many brackets. -/
inductive Settled {α : Type} (read : List Char → Option (α × List Char)) (depth : Nat)
    (text : List Char) : Prop where
  | refused (none : ∀ after, read (text ++ after) = none)
  | taken (a : α) {left : List Char} (short : left.length ≤ text.length)
      (closes : Closes depth left)
      (same : ∀ after, read (text ++ after) = some (a, left ++ after))

section
variable {α β : Type} {read : List Char → Option (α × List Char)} {depth : Nat}
  {text : List Char}

theorem Settled.map (settled : Settled read depth text) (f : α → β) :
    Settled (fun t => (read t).map fun r => (f r.1, r.2)) depth text := by
  cases settled with
  | refused none =>
    apply Settled.refused
    intro after
    rw [none]
    rfl
  | taken a short closes same =>
    refine .taken (f a) short closes ?_
    intro after
    rw [same]
    rfl

theorem Settled.bind {next : α → List Char → Option (β × List Char)} {deep : Nat}
    (settled : Settled read depth text)
    (others : ∀ a left, Closes depth left → Settled (next a) deep left) :
    Settled (fun t => (read t).bind fun r => next r.1 r.2) deep text := by
  cases settled with
  | refused none =>
    apply Settled.refused
    intro after
    rw [none]
    rfl
  | @taken a left short closes same =>
    cases others a left closes with
    | refused none =>
      apply Settled.refused
      intro after
      rw [same]
      exact none after
    | taken b short' closes' same' =>
      refine .taken b (Nat.le_trans short' short) closes' ?_
      intro after
      rw [same]
      exact same' after

/-- A reader may leave what it does to another one that starts later. -/
theorem Settled.later {next : List Char → Option (α × List Char)} {left : List Char}
    (settled : Settled next depth left) (short : left.length ≤ text.length)
    (step : ∀ after, read (text ++ after) = next (left ++ after)) : Settled read depth text := by
  cases settled with
  | refused none => exact .refused fun after => (step after).trans (none after)
  | taken a shorter closes same =>
    exact .taken a (Nat.le_trans shorter short) closes fun after => (step after).trans (same after)

theorem Settled.after {next : List Char → Option (α × List Char)}
    (settled : Settled next depth text) (front : List Char)
    (step : ∀ t, read (front ++ t) = next t) : Settled read depth (front ++ text) := by
  refine settled.later (by simp) ?_
  intro after
  rw [List.append_assoc, step]

end

/-- A word, and what comes after it. -/
def readWord : List Char → List Char → Option (Unit × List Char)
  | [], text => some ((), text)
  | w :: word, c :: text => if c = w then readWord word text else none
  | _ :: _, [] => none

theorem Closes.word {depth : Nat} {word text : List Char} (plain : Unmarked word)
    (closes : Closes (depth + 1) text) : Settled (readWord word) (depth + 1) text := by
  induction word generalizing text with
  | nil => exact .taken () (Nat.le_refl _) closes fun _ => rfl
  | cons w word ih =>
    obtain ⟨other, others⟩ := List.forall_mem_cons.1 plain
    cases text with
    | nil => exact absurd rfl closes.ne_nil
    | cons c text =>
      by_cases same : c = w
      · subst same
        exact (ih others (closes.of_plain other)).after [c] fun _ => if_pos rfl
      · exact .refused fun _ => if_neg same

/-! Strings -/

/-- Without four digits no unit is read. -/
theorem readPieces_no_unit {text : List Char}
    (none : ∀ a b c d rest, text = a :: b :: c :: d :: rest → hex4? a b c d = Option.none) :
    readPieces ('\\' :: 'u' :: text) = Option.none := by
  match text with
  | a :: b :: c :: d :: rest =>
    rw [readPieces_unit, none a b c d rest rfl]
    rfl
  | [] | [_] | [_, _] | [_, _, _] =>
    rw [readPieces]
    · rfl
    · simp

/-- A digit that comes next in a string is of it. -/
theorem Quoted.digit {inside after rest : List Char} {c : Char} {k : Nat} (quoted : Quoted inside)
    (whole : inside ++ after = c :: rest) (digit : hexDigit? c = some k) :
    ∃ left, inside = c :: left ∧ Quoted left ∧ left ++ after = rest := by
  cases quoted with
  | mark =>
    cases whole
    cases digit
  | escaped =>
    cases whole
    cases digit
  | plain _ quoted =>
    obtain ⟨rfl, same⟩ := List.cons.inj whole
    exact ⟨_, rfl, quoted, same⟩

theorem hex4?_eq_some {a b c d : Char} {n : Nat} (unit : hex4? a b c d = some n) :
    (∃ k, hexDigit? a = some k) ∧ (∃ k, hexDigit? b = some k) ∧ (∃ k, hexDigit? c = some k) ∧
      ∃ k, hexDigit? d = some k := by
  unfold hex4? at unit
  obtain ⟨i, first, unit⟩ := Option.bind_eq_some_iff.1 unit
  obtain ⟨j, second, unit⟩ := Option.bind_eq_some_iff.1 unit
  obtain ⟨k, third, unit⟩ := Option.bind_eq_some_iff.1 unit
  obtain ⟨l, fourth, _⟩ := Option.bind_eq_some_iff.1 unit
  exact ⟨⟨i, first⟩, ⟨j, second⟩, ⟨k, third⟩, ⟨l, fourth⟩⟩

/-- The four digits of a unit are of the string too. -/
theorem Quoted.unit {inside after rest : List Char} {a b c d : Char} {n : Nat}
    (quoted : Quoted inside) (whole : inside ++ after = a :: b :: c :: d :: rest)
    (unit : hex4? a b c d = some n) :
    ∃ left, inside = a :: b :: c :: d :: left ∧ Quoted left := by
  obtain ⟨⟨_, first⟩, ⟨_, second⟩, ⟨_, third⟩, ⟨_, fourth⟩⟩ := hex4?_eq_some unit
  obtain ⟨left, rfl, quoted, whole⟩ := quoted.digit whole first
  obtain ⟨left, rfl, quoted, whole⟩ := quoted.digit whole second
  obtain ⟨left, rfl, quoted, whole⟩ := quoted.digit whole third
  obtain ⟨left, rfl, quoted, _⟩ := quoted.digit whole fourth
  exact ⟨left, rfl, quoted⟩

/-- What is left of a string settles how it is read. -/
theorem Quoted.settled {inside text : List Char} {depth : Nat} (quoted : Quoted inside)
    (closes : Closes depth text) : Settled readPieces depth (inside ++ text) := by
  generalize size : inside.length = n
  -- A unit takes six characters at once, so all shorter strings are known to be settled.
  induction n using Nat.strongRecOn generalizing inside with
  | ind n ih =>
    subst size
    cases quoted with
    | mark => exact .taken [] (Nat.le_succ _) closes fun _ => rfl
    | @plain c rest other quoted =>
      have inner := ih rest.length (by simp) quoted rfl
      have read := readPieces_plain other.1 other.2
      by_cases control : c.toNat < 32
      · simp only [control, if_true] at read
        exact .refused fun _ => read _
      · simp only [control, if_false] at read
        exact (inner.map _).after [c] read
    | @escaped e rest quoted =>
      by_cases short : e = 'u'
      · subst short
        by_cases unit : ∃ a b c d n left, rest = a :: b :: c :: d :: left ∧ Quoted left ∧
            hex4? a b c d = some n
        · obtain ⟨a, b, c, d, n, left, rfl, quoted, unit⟩ := unit
          have inner := ih left.length (by simp only [List.length_cons]; omega) quoted rfl
          have read := readPieces_unit a b c d
          simp only [unit, Option.bind_some] at read
          exact (inner.map _).after ['\\', 'u', a, b, c, d] read
        · apply Settled.refused
          intro after
          rw [List.append_assoc]
          apply readPieces_no_unit
          intro a b c d left whole
          cases digits : hex4? a b c d with
          | none => rfl
          | some n =>
            obtain ⟨left, same, quoted⟩ := quoted.unit whole digits
            exact absurd ⟨a, b, c, d, n, left, same, quoted, digits⟩ unit
      · have inner := ih rest.length (by simp only [List.length_cons]; omega) quoted rfl
        have read := readPieces_short short
        cases known : shortEscape? e with
        | none =>
          simp only [known, Option.bind_none] at read
          exact .refused fun _ => read _
        | some c =>
          simp only [known, Option.bind_some] at read
          exact (inner.map _).after ['\\', e] read

theorem Closes.pieces {depth : Nat} {text : List Char} (closes : Closes (depth + 1) ('"' :: text)) :
    Settled readPieces (depth + 1) text := by
  generalize start : '"' :: text = whole at closes
  cases closes with
  | opening bracket => rcases bracket with rfl | rfl <;> cases start
  | closing bracket => rcases bracket with rfl | rfl <;> cases start
  | string quoted rest =>
    cases start
    exact quoted.settled rest
  | plain other =>
    cases start
    exact absurd (by decide) other

/-! Numbers -/

/-- A row of digits, one at least, and what comes after it. -/
def readDigits (text : List Char) : Option (List Char × List Char) :=
  if (text.takeWhile isDigit).isEmpty then none
  else some (text.takeWhile isDigit, text.dropWhile isDigit)

/-- What comes after the letter of an exponent. -/
def readSigned : List Char → Option (Option (Bool × List Char) × List Char)
  | '+' :: text => (readDigits text).map fun r => (some (false, r.1), r.2)
  | '-' :: text => (readDigits text).map fun r => (some (true, r.1), r.2)
  | text => (readDigits text).map fun r => (some (false, r.1), r.2)

theorem readExponent_marked {c : Char} (marked : c = 'e' ∨ c = 'E') (text : List Char) :
    readExponent (c :: text) = readSigned text := by
  have marked : (c = 'e' || c = 'E') = true := by simpa using marked
  unfold readSigned
  split
  all_goals
    unfold readDigits
    simp only [readExponent, marked, if_true]
    split <;> rfl

theorem readExponent_other {c : Char} (other : ¬ (c = 'e' ∨ c = 'E')) (text : List Char) :
    readExponent (c :: text) = some (none, c :: text) := by
  unfold readExponent
  exact if_neg (by simpa using other)

theorem readFraction_point (negative : Bool) (whole text : List Char) :
    readFraction negative whole ('.' :: text) = (readDigits text).bind fun r =>
      (readExponent r.2).map fun e => (Numeral.mk negative whole (some r.1) e.1, e.2) := by
  rw [readFraction, readDigits]
  split
  · rfl
  · rw [Option.bind_some]
    cases readExponent (text.dropWhile isDigit) <;> rfl

theorem readFraction_other {c : Char} (other : c ≠ '.') (negative : Bool) (whole text : List Char) :
    readFraction negative whole (c :: text) =
      (readExponent (c :: text)).map fun e => (Numeral.mk negative whole none e.1, e.2) := by
  rw [readFraction]
  · cases readExponent (c :: text) <;> rfl
  · intro _ same
    exact other (List.cons.inj same).1

theorem readNumeral_digit {d : Char} (first : d ≠ '0') (negative : Bool) (text : List Char) :
    readNumeral negative (d :: text) = if isDigit d then
      readFraction negative (d :: text.takeWhile isDigit) (text.dropWhile isDigit) else none := by
  rw [readNumeral]
  exact first

section
variable {depth : Nat} {text : List Char} (closes : Closes (depth + 1) text)
include closes

theorem Closes.digits : Settled readDigits (depth + 1) text := by
  have read : ∀ after, readDigits (text ++ after) =
      if (text.takeWhile isDigit).isEmpty then none
      else some (text.takeWhile isDigit, text.dropWhile isDigit ++ after) := by
    intro after
    unfold readDigits
    rw [closes.takeWhile_append isDigit_marks, closes.dropWhile_append isDigit_marks]
  by_cases empty : (text.takeWhile isDigit).isEmpty
  · apply Settled.refused
    intro after
    rw [read, if_pos empty]
  · refine .taken (text.takeWhile isDigit) (List.dropWhile_suffix isDigit).length_le
      (closes.dropWhile isDigit_marks) ?_
    intro after
    rw [read, if_neg empty]

theorem Closes.signed : Settled readSigned (depth + 1) text := by
  cases text with
  | nil => exact absurd rfl closes.ne_nil
  | cons c text =>
    by_cases up : c = '+'
    · subst up
      have digits := (closes.of_plain (by decide)).digits.map fun ds => some (false, ds)
      exact digits.after ['+'] fun _ => rfl
    · by_cases down : c = '-'
      · subst down
        have digits := (closes.of_plain (by decide)).digits.map fun ds => some (true, ds)
        exact digits.after ['-'] fun _ => rfl
      · have digits := closes.digits.map fun ds => some (false, ds)
        refine digits.later (Nat.le_refl _) ?_
        intro after
        rw [List.cons_append, readSigned]
        · intro _ same
          exact up (List.cons.inj same).1
        · intro _ same
          exact down (List.cons.inj same).1

theorem Closes.exponent : Settled readExponent (depth + 1) text := by
  cases text with
  | nil => exact absurd rfl closes.ne_nil
  | cons c text =>
    by_cases marked : c = 'e' ∨ c = 'E'
    · have inside : Closes (depth + 1) text :=
        closes.of_plain (by rcases marked with rfl | rfl <;> decide)
      exact inside.signed.after [c] (readExponent_marked marked)
    · exact .taken none (Nat.le_refl _) closes fun _ => readExponent_other marked _

theorem Closes.fraction (negative : Bool) (whole : List Char) :
    Settled (readFraction negative whole) (depth + 1) text := by
  cases text with
  | nil => exact absurd rfl closes.ne_nil
  | cons c text =>
    by_cases point : c = '.'
    · subst point
      have digits := (closes.of_plain (by decide)).digits
      have both := digits.bind fun ds left inside =>
        inside.exponent.map (Numeral.mk negative whole (some ds))
      exact both.after ['.'] (readFraction_point negative whole)
    · have read := closes.exponent.map (Numeral.mk negative whole none)
      refine read.later (Nat.le_refl _) ?_
      intro after
      exact readFraction_other point negative whole _

end

/-- What comes next settles how a number is read. -/
theorem Closes.numeral {depth : Nat} {c : Char} {text : List Char}
    (closes : Closes (depth + 1) (c :: text)) (negative : Bool) :
    Settled (fun t => readNumeral negative (c :: t)) (depth + 1) text := by
  by_cases zero : c = '0'
  · subst zero
    have inside := closes.of_plain (by decide)
    cases text with
    | nil => exact absurd rfl inside.ne_nil
    | cons d text =>
      by_cases digit : isDigit d = true
      · exact .refused fun _ => if_pos digit
      · exact (inside.fraction negative ['0']).later (Nat.le_refl _) fun _ => if_neg digit
  · by_cases digit : isDigit c = true
    · have inside := closes.of_plain (not_mem_marks isDigit_marks digit)
      have fraction := (inside.dropWhile isDigit_marks).fraction negative
        (c :: text.takeWhile isDigit)
      refine fraction.later (List.dropWhile_suffix isDigit).length_le ?_
      intro after
      rw [readNumeral_digit zero, if_pos digit, inside.takeWhile_append isDigit_marks,
        inside.dropWhile_append isDigit_marks]
    · exact .refused fun _ => (readNumeral_digit zero negative _).trans (if_neg digit)

end RoutineWatch.Json
