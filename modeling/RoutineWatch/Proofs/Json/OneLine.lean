import RoutineWatch.Proofs.Json.Printed

/-!
# The short form of a value stays on its line

A string is written with escapes for control characters, so whatever a value holds its short
form has none.

- `Json.isPlain_compactChars`: no control character is in it.
-/
namespace RoutineWatch.Json

/-- No control character is among some characters. -/
def IsPlain (text : List Char) : Prop := ∀ c ∈ text, 32 ≤ c.toNat

instance (text : List Char) : Decidable (IsPlain text) :=
  List.decidableBAll _ text

theorem isPlain_nil : IsPlain [] := fun _ member => absurd member List.not_mem_nil

theorem isPlain_append {a b : List Char} (left : IsPlain a) (right : IsPlain b) :
    IsPlain (a ++ b) := by
  intro c member
  rcases List.mem_append.1 member with first | second
  · exact left c first
  · exact right c second

theorem isPlain_cons {c : Char} {text : List Char} (first : 32 ≤ c.toNat) (rest : IsPlain text) :
    IsPlain (c :: text) := by
  intro d member
  cases member with
  | head => exact first
  | tail _ later => exact rest d later

theorem hexDigit_plain : ∀ n < 16, 32 ≤ (hexDigit n).toNat := by decide

theorem isPlain_escape (c : Char) : IsPlain (escape c) := by
  unfold escape
  repeat' split
  all_goals try decide
  · next control =>
    have high := hexDigit_plain (c.toNat / 16) (by omega)
    have low := hexDigit_plain (c.toNat % 16) (by omega)
    have zero : 32 ≤ '0'.toNat := by decide
    exact isPlain_cons (by decide) (isPlain_cons (by decide) (isPlain_cons zero
      (isPlain_cons zero (isPlain_cons high (isPlain_cons low isPlain_nil)))))
  · next printable => exact isPlain_cons (Nat.not_lt.1 printable) isPlain_nil

theorem isPlain_quote (s : String) : IsPlain (quote s) := by
  unfold quote
  refine isPlain_cons (by decide) (isPlain_append ?_ (by decide))
  intro d member
  obtain ⟨c, _, written⟩ := List.mem_flatMap.1 member
  exact isPlain_escape c d written

theorem isPlain_number {n : Int} (small : (Json.number (.integer n)).HasNaturals) :
    IsPlain (compactChars (.number (.integer n))) := by
  obtain ⟨k, rfl⟩ := Int.eq_ofNat_of_zero_le small.1
  intro c member
  have digits : compactChars (.number (.integer k)) = Nat.toDigits 10 k := Nat.toList_repr
  rw [digits] at member
  have digit := isDigit_of_mem_toDigits member
  rw [isDigit, Bool.and_eq_true, decide_eq_true_eq, Char.le_def] at digit
  have above : 48 ≤ c.toNat := UInt32.le_iff_toNat_le.1 digit.1
  omega

mutual

/-- A value on one line has no control character. -/
theorem isPlain_compactChars : ∀ v : Json, v.HasNaturals → IsPlain v.compactChars
  | .null, _ => by decide
  | .bool true, _ => by decide
  | .bool false, _ => by decide
  | .number (.integer n), small => isPlain_number small
  | .number (.real _), small => absurd small (by simp [HasNaturals])
  | .string s, _ => isPlain_quote s
  | .array items, small =>
    isPlain_cons (by decide) (isPlain_append (isPlain_compactItems items small) (by decide))
  | .object members, small =>
    isPlain_cons (by decide) (isPlain_append (isPlain_compactMembers members small) (by decide))

theorem isPlain_compactItems : ∀ items : List Json, ItemsHaveNaturals items →
    IsPlain (compactItems items)
  | [], _ => isPlain_nil
  | [item], small => isPlain_compactChars item small.1
  | item :: next :: items, small =>
    isPlain_append (isPlain_compactChars item small.1)
      (isPlain_cons (by decide) (isPlain_compactItems (next :: items) small.2))

theorem isPlain_compactMembers : ∀ members : List (String × Json), MembersHaveNaturals members →
    IsPlain (compactMembers members)
  | [], _ => isPlain_nil
  | [(key, v)], small =>
    isPlain_append (isPlain_quote key) (isPlain_cons (by decide) (isPlain_compactChars v small.1))
  | (key, v) :: next :: members, small => by
    have rest := isPlain_compactMembers (next :: members) small.2
    have first := isPlain_compactChars v small.1
    exact isPlain_append (isPlain_append (isPlain_quote key) (isPlain_cons (by decide) first))
      (isPlain_cons (by decide) rest)

end

end RoutineWatch.Json
