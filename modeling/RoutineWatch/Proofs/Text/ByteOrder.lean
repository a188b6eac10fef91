import RoutineWatch.Path

/-!
# The order of texts is that of their bytes

UTF-8 writes a smaller character with smaller bytes, at the first byte that is not the same,
and no character starts another.

- `bytesLess_iff`: names stand in the order of their bytes.
- `Utf8.bytesLess_encode`: and so do texts.
-/
namespace RoutineWatch

/-- Names stand in the order of their bytes. -/
theorem bytesLess_iff {a b : Bytes} : bytesLess a b = true ↔ a < b := by
  induction a generalizing b with
  | nil => cases b <;> simp [bytesLess]
  | cons x xs ih =>
    cases b with
    | nil => simp [bytesLess]
    | cons y ys => simp [bytesLess, List.cons_lt_cons_iff, ih]

/-- A row of bytes that comes before another one and does not start it comes before it
whatever follows either. -/
theorem lt_append_of_lt {a b : Bytes} (less : a < b) (apart : ¬ a <+: b) (xs ys : Bytes) :
    a ++ xs < b ++ ys := by
  induction a generalizing b with
  | nil => exact absurd List.nil_prefix apart
  | cons x a ih =>
    cases b with
    | nil => exact absurd less (List.not_lt_nil _)
    | cons y b =>
      rw [List.cons_append, List.cons_append, List.cons_lt_cons_iff]
      rcases List.cons_lt_cons_iff.1 less with first | ⟨rfl, rest⟩
      · exact Or.inl first
      · refine Or.inr ⟨rfl, ih rest fun start => apart ?_⟩
        exact List.cons_prefix_cons.2 ⟨rfl, start⟩

/-- A row of bytes comes before another one also when that goes on. -/
theorem lt_append_right {a b : Bytes} (less : a < b) (ys : Bytes) : a < b ++ ys := by
  induction a generalizing b with
  | nil =>
    cases b with
    | nil => exact absurd less (List.lt_irrefl _)
    | cons y b => exact List.nil_lt_cons _ _
  | cons x a ih =>
    cases b with
    | nil => exact absurd less (List.not_lt_nil _)
    | cons y b =>
      rw [List.cons_append, List.cons_lt_cons_iff]
      exact (List.cons_lt_cons_iff.1 less).imp id fun ⟨same, rest⟩ => ⟨same, ih rest⟩

namespace Utf8

theorem encode_eq (text : String) : encode text = text.toList.flatMap String.utf8EncodeChar := by
  unfold encode
  rw [String.toUTF8_eq_toByteArray, ← String.utf8Encode_toList]
  simp [List.utf8Encode]

theorem bytesLess_append (start xs ys : Bytes) :
    bytesLess (start ++ xs) (start ++ ys) = bytesLess xs ys := by
  induction start with
  | nil => rfl
  | cons b start ih =>
    rw [List.cons_append, List.cons_append, bytesLess, ih]
    simp

theorem bytesLess_cons {a b : UInt8} {as bs : Bytes} :
    bytesLess (a :: as) (b :: bs) = true ↔
      a.toNat < b.toNat ∨ a.toNat = b.toNat ∧ bytesLess as bs = true := by
  rw [bytesLess, UInt8.toNat_inj]
  simp [UInt8.lt_iff_toNat_lt]

/-- The bytes of a smaller character come first, whatever follows. -/
theorem bytesLess_encodeChar {c d : Char} (less : c < d) (xs ys : Bytes) :
    bytesLess (String.utf8EncodeChar c ++ xs) (String.utf8EncodeChar d ++ ys) = true := by
  have values : c.val.toNat < d.val.toNat := less
  have bound : d.val.toNat < 0x110000 := by
    have valid : d.val.toNat < 0xD800 ∨ 0xDFFF < d.val.toNat ∧ d.val.toNat < 0x110000 := d.valid
    omega
  have third : ∀ k, k / 262144 = k / 64 / 64 / 64 := by omega
  have second : ∀ k, k / 4096 = k / 64 / 64 := by omega
  have lead : ∀ k, (k % 8 + 240) % 2 ^ 8 = k % 8 + 240 := by omega
  have tail : ∀ k, (k % 64 + 128) % 2 ^ 8 = k % 64 + 128 := by omega
  unfold String.utf8EncodeChar
  generalize c.val.toNat = m at *
  generalize d.val.toNat = n at *
  dsimp only
  -- The first byte tells how many there are, so it decides unless both have as many.
  repeat' split
  all_goals
    simp only [List.cons_append, List.nil_append, bytesLess_cons, UInt8.toNat_ofNat', third, second,
      lead, tail]
    omega

/-- Texts stand in the order of their bytes. -/
theorem bytesLess_encode {a b : String} (less : a < b) :
    bytesLess (encode a) (encode b) = true := by
  rw [encode_eq, encode_eq]
  have letters : a.toList < b.toList := less
  generalize a.toList = cs at letters
  generalize b.toList = ds at letters
  induction letters with
  | @nil d ds =>
    cases bytes : List.flatMap String.utf8EncodeChar (d :: ds) with
    | nil => simp [String.utf8EncodeChar_ne_nil] at bytes
    | cons => rfl
  | @cons c cs ds _ ih =>
    rw [List.flatMap_cons, List.flatMap_cons, bytesLess_append]
    exact ih
  | @rel c cs d ds first =>
    rw [List.flatMap_cons, List.flatMap_cons]
    exact bytesLess_encodeChar first _ _

end Utf8

end RoutineWatch
