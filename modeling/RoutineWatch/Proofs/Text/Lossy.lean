import RoutineWatch.Proofs.Text.RoundTrip

/-!
# Reading that never fails

Of a text's own bytes nothing is lost. Of any bytes, malformed ones included, a character of
one byte is read only where its byte stands.

- `Utf8.decodeLossy_encoded`: the bytes of a text are read as the text.
- `Utf8.byte_mem_of_mem_decodeLossy`: where characters of one byte come from.
-/
namespace RoutineWatch.Utf8

section
variable (b0 lo hi : UInt8) (bytes : Bytes)

theorem next2_rest_suffix : (next2 b0 bytes).rest <:+ bytes := by
  unfold next2
  repeat' split
  all_goals simp [Next.rest]

theorem next3_rest_suffix : (next3 b0 lo hi bytes).rest <:+ bytes := by
  unfold next3
  repeat' split
  all_goals simp [Next.rest, List.suffix_cons_iff]

theorem next4_rest_suffix : (next4 b0 lo hi bytes).rest <:+ bytes := by
  unfold next4
  repeat' split
  all_goals simp [Next.rest, List.suffix_cons_iff]

/-- What is left after a step is an end of the bytes. -/
theorem next_rest_suffix : (next b0 bytes).rest <:+ bytes := by
  unfold next
  repeat' split
  all_goals first
    | exact next2_rest_suffix _ _
    | exact next3_rest_suffix _ _ _ _
    | exact next4_rest_suffix _ _ _ _
    | exact List.suffix_refl bytes

end

theorem decodeLossy_cons (b : UInt8) (bytes : Bytes) :
    decodeLossy (b :: bytes) =
      match next b bytes with
      | .char c rest => c :: decodeLossy rest
      | .malformed _ rest => '\uFFFD' :: decodeLossy rest
      | .truncated => ['\uFFFD'] := by
  rw [decodeLossy]
  split <;> simp_all

theorem decodeLossy_eq_nil_iff {bytes : Bytes} : decodeLossy bytes = [] ↔ bytes = [] := by
  cases bytes with
  | nil => simp [decodeLossy]
  | cons b bytes =>
    rw [decodeLossy_cons]
    split <;> simp

/-- The bytes of a text are read as the text. -/
theorem decodeLossy_encoded (text : List Char) :
    decodeLossy (text.flatMap String.utf8EncodeChar) = text := by
  induction text with
  | nil => rw [List.flatMap_nil, decodeLossy]
  | cons c text ih =>
    obtain ⟨b, bytes, encoded, read⟩ := next_encodeChar c (text.flatMap String.utf8EncodeChar)
    rw [List.flatMap_cons, encoded, List.cons_append, decodeLossy_cons, read]
    exact congrArg (c :: ·) ih

/-- A character of one byte is its byte. -/
theorem utf8EncodeChar_small {c : Char} (small : c.toNat < 0x80) :
    String.utf8EncodeChar c = [UInt8.ofNat c.toNat] := by
  have value : c.val.toNat < 0x80 := small
  rw [String.utf8EncodeChar, if_pos (by omega)]
  rfl

/-- A character of one byte is read only where its byte stands. -/
theorem byte_mem_of_mem_decodeLossy {bytes : Bytes} {c : Char} (small : c.toNat < 0x80)
    (member : c ∈ decodeLossy bytes) : UInt8.ofNat c.toNat ∈ bytes := by
  have other : c ≠ '\uFFFD' := by
    rintro rfl
    exact absurd small (by decide)
  fun_induction decodeLossy bytes with
  | case1 => cases member
  | case2 b bytes d rest step ih =>
    have whole : b :: bytes = String.utf8EncodeChar d ++ rest := next_char step
    rw [whole]
    rcases List.mem_cons.1 member with rfl | later
    · simp [utf8EncodeChar_small small]
    · exact List.mem_append_right _ (ih later)
  | case3 b bytes width rest step ih =>
    have later : c ∈ decodeLossy rest := (List.mem_cons.1 member).resolve_left other
    have suffix := next_rest_suffix b bytes
    rw [step] at suffix
    exact List.mem_cons_of_mem b (suffix.mem (ih later))
  | case4 b bytes step => exact absurd (List.mem_singleton.1 member) other

/-- What is read as one character of one byte is this byte. -/
theorem eq_of_decodeLossy_eq_singleton {bytes : Bytes} {c : Char} (small : c.toNat < 0x80)
    (read : decodeLossy bytes = [c]) : bytes = [UInt8.ofNat c.toNat] := by
  have other : '\uFFFD' ≠ c := by
    rintro rfl
    exact absurd small (by decide)
  cases bytes with
  | nil => simp [decodeLossy] at read
  | cons b bytes =>
    rw [decodeLossy_cons] at read
    split at read
    · next d rest step =>
      obtain ⟨rfl, done⟩ := List.cons.inj read
      rw [next_char step, decodeLossy_eq_nil_iff.1 done, utf8EncodeChar_small small,
        List.append_nil]
    · exact absurd (List.cons.inj read).1 other
    · exact absurd (List.cons.inj read).1 other

/-- The bytes of a longer character are none of a shorter one. -/
theorem le_of_mem_utf8EncodeChar {c : Char} (large : 0x80 ≤ c.toNat) {b : UInt8}
    (member : b ∈ String.utf8EncodeChar c) : 0x80 ≤ b.toNat := by
  have value : ¬ c.val.toNat ≤ 0x7F := by
    have same : c.val.toNat = c.toNat := rfl
    omega
  rw [String.utf8EncodeChar, if_neg value] at member
  generalize c.val.toNat = n at member
  have bytes : ∃ k, 0x80 ≤ k ∧ k < 0x100 ∧ b = UInt8.ofNat k := by
    split at member
    · simp only [List.mem_cons, List.not_mem_nil, or_false] at member
      rcases member with rfl | rfl <;> exact ⟨_, by omega, by omega, rfl⟩
    · split at member
      · simp only [List.mem_cons, List.not_mem_nil, or_false] at member
        rcases member with rfl | rfl | rfl <;> exact ⟨_, by omega, by omega, rfl⟩
      · simp only [List.mem_cons, List.not_mem_nil, or_false] at member
        rcases member with rfl | rfl | rfl | rfl <;> exact ⟨_, by omega, by omega, rfl⟩
  obtain ⟨k, lower, upper, rfl⟩ := bytes
  rw [toNat_ofNat_small upper]
  exact lower

/-- A slash is no byte of another character. -/
theorem slash_mem_utf8EncodeChar {c : Char} : slash ∈ String.utf8EncodeChar c ↔ c = '/' := by
  constructor
  · intro member
    by_cases small : c.toNat < 0x80
    · rw [utf8EncodeChar_small small, List.mem_singleton] at member
      have value := congrArg UInt8.toNat member
      rw [toNat_ofNat_small (by omega)] at value
      exact Char.toNat_inj.1 value.symm
    · have large := le_of_mem_utf8EncodeChar (by omega) member
      exact absurd large (by decide)
  · intro same
    subst same
    decide

end RoutineWatch.Utf8
