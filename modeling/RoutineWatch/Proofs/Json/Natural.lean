import RoutineWatch.Json.Printer
import RoutineWatch.Json.Reader

/-!
# Natural numbers are read as they were written

A number of at most 64 bits keeps all its digits, and reading stops at the first character
that cannot continue a number.

- `Json.readNumeral_natural`: a natural number is read up to its last digit.
-/
namespace RoutineWatch.Json

/-- What follows a number's digits neither is a digit nor starts a fraction or an
exponent. -/
def EndsNumber (rest : List Char) : Prop :=
  ∀ c tail, rest = c :: tail → isDigit c = false ∧ c ≠ '.' ∧ c ≠ 'e' ∧ c ≠ 'E'

theorem endsNumber_nil : EndsNumber [] := by
  intro c tail same
  cases same

/-- The number of which the digits are read after those of another one. -/
def appendDigits (n : Nat) (ds : List Char) : Nat :=
  ds.foldl (fun n d => n * 10 + (d.toNat - 48)) n

theorem le_appendDigits (n : Nat) (ds : List Char) : n ≤ appendDigits n ds := by
  induction ds generalizing n with
  | nil => exact Nat.le_refl n
  | cons d ds ih =>
    have step := ih (n * 10 + (d.toNat - 48))
    unfold appendDigits at step ⊢
    rw [List.foldl_cons]
    omega

/-- No digit is dropped while the whole number is in range. -/
theorem takeDigits_eq {n : Nat} {ds : List Char} (small : appendDigits n ds ≤ maxSignificand) :
    takeDigits n ds = (appendDigits n ds, ds.length, []) := by
  induction ds generalizing n with
  | nil => rfl
  | cons d ds ih =>
    have whole : appendDigits n (d :: ds) = appendDigits (n * 10 + (d.toNat - 48)) ds := rfl
    rw [whole] at small ⊢
    have bound := Nat.le_trans (le_appendDigits _ ds) small
    rw [takeDigits, if_neg (Nat.not_lt.2 bound), ih small]
    rfl

theorem appendDigits_toDigits (n : Nat) : appendDigits 0 (Nat.toDigits 10 n) = n := by
  have value : Nat.ofDigitChars 10 (Nat.toDigits 10 n) 0 = n := Nat.ofDigitChars_ten_toDigits
  have zero : '0'.toNat = 48 := rfl
  rw [Nat.ofDigitChars, zero] at value
  simpa only [appendDigits, Nat.mul_comm] using value

theorem isDigit_of_mem_toDigits {n : Nat} {c : Char} (member : c ∈ Nat.toDigits 10 n) :
    isDigit c = true := by
  have core := Nat.isDigit_of_mem_toDigits (by decide) (by decide) member
  simpa [Char.isDigit, isDigit, Char.le_def] using core

/-- A number that is not zero is written without leading zeros. -/
theorem head?_toDigits {n : Nat} (positive : 0 < n) :
    (Nat.toDigits 10 n).head? ≠ some '0' := by
  induction n using Nat.strongRecOn with
  | ind n ih =>
    by_cases small : n < 10
    · rw [Nat.toDigits_of_lt_base small]
      have digits : ∀ d < 10, 0 < d → [Nat.digitChar d].head? ≠ some '0' := by decide
      exact digits n small positive
    · rw [Nat.toDigits_of_base_le (by decide) (by omega)]
      have above := ih (n / 10) (by omega) (by omega)
      cases digits : Nat.toDigits 10 (n / 10) with
      | nil => exact absurd digits Nat.toDigits_ne_nil
      | cons d ds => simpa [digits] using above

/-- The numeral that a natural number is written as. -/
def naturalNumeral (n : Nat) : Numeral := ⟨false, Nat.toDigits 10 n, none, none⟩

theorem value?_naturalNumeral {n : Nat} (small : n ≤ maxSignificand) :
    (naturalNumeral n).value? = some (.integer n) := by
  have whole : appendDigits 0 (Nat.toDigits 10 n) ≤ maxSignificand := by
    rw [appendDigits_toDigits]
    exact small
  have taken := takeDigits_eq whole
  rw [appendDigits_toDigits] at taken
  simp [Numeral.value?, naturalNumeral, taken]

theorem readFraction_whole {rest : List Char} (ends : EndsNumber rest) (negative : Bool)
    (whole : List Char) :
    readFraction negative whole rest = some (⟨negative, whole, none, none⟩, rest) := by
  cases rest with
  | nil => rfl
  | cons c tail =>
    obtain ⟨-, point, lower, upper⟩ := ends c tail rfl
    unfold readFraction
    split
    · next same => exact absurd (List.cons.inj same).1 point
    · simp [readExponent, lower, upper]

/-- A natural number is read up to its last digit. -/
theorem readNumeral_natural (n : Nat) {rest : List Char} (ends : EndsNumber rest) :
    readNumeral false (Nat.toDigits 10 n ++ rest) = some (naturalNumeral n, rest) := by
  have stop : rest.takeWhile isDigit = [] ∧ rest.dropWhile isDigit = rest := by
    cases rest with
    | nil => exact ⟨rfl, rfl⟩
    | cons c tail =>
      have other := (ends c tail rfl).1
      simp [List.takeWhile, List.dropWhile, other]
  rcases Nat.eq_zero_or_pos n with rfl | positive
  · rw [naturalNumeral, Nat.toDigits_zero, List.cons_append, List.nil_append, readNumeral.eq_def]
    cases rest with
    | nil => rfl
    | cons c tail => simp only [(ends c tail rfl).1]; exact readFraction_whole ends _ _
  · have digits := fun c (member : c ∈ Nat.toDigits 10 n) => isDigit_of_mem_toDigits member
    have leading := head?_toDigits positive
    rw [naturalNumeral]
    cases written : Nat.toDigits 10 n with
    | nil => exact absurd written Nat.toDigits_ne_nil
    | cons d ds =>
      rw [written] at digits leading
      have nonzero : d ≠ '0' := by simpa using leading
      have taken : (ds ++ rest).takeWhile isDigit = ds := by
        rw [List.takeWhile_append_of_pos (fun c member => digits c (List.mem_cons_of_mem d member)),
          stop.1, List.append_nil]
      have dropped : (ds ++ rest).dropWhile isDigit = rest := by
        rw [List.dropWhile_append_of_pos (fun c member => digits c (List.mem_cons_of_mem d member)),
          stop.2]
      rw [List.cons_append, readNumeral]
      · rw [if_pos (digits d List.mem_cons_self), taken, dropped, readFraction_whole ends]
      · intro same
        exact absurd same nonzero

end RoutineWatch.Json
