import RoutineWatch.Proofs.Text.ByteOrder

/-!
# Texts are read as they were written

The bytes of a character read as that character, whatever follows, so the bytes of a text
read as the text. No other bytes do: neither a longer form nor a surrogate is read.

- `Utf8.decode?_eq_ok_iff`: bytes read as a text exactly if they are its bytes.
-/
namespace RoutineWatch.Utf8

theorem toNat_ofNat_small {k : Nat} (small : k < 256) : (UInt8.ofNat k).toNat = k := by
  rw [UInt8.toNat_ofNat']
  omega

theorem continues_ofNat {lo hi : UInt8} {k : Nat} (lower : lo.toNat ≤ k) (upper : k ≤ hi.toNat) :
    continues lo hi (UInt8.ofNat k) = true := by
  have small := hi.toNat_lt
  simp [continues, UInt8.le_iff_toNat_le, toNat_ofNat_small (k := k) (by omega), lower, upper]

theorem continues_tail (k : Nat) : continues 0x80 0xBF (UInt8.ofNat (k % 64 + 128)) = true :=
  continues_ofNat (by simp) (by simp; omega)

theorem payload_tail (k : Nat) : payload (UInt8.ofNat (k % 64 + 128)) = k % 64 := by
  rw [payload, toNat_ofNat_small (by omega)]
  omega

section
variable {n : Nat} (rest : Bytes)

theorem next_one (upper : n ≤ 0x7F) :
    next (UInt8.ofNat n) rest = .char (Char.ofNat n) rest := by
  have value : (UInt8.ofNat n).toNat = n := toNat_ofNat_small (by omega)
  rw [next, if_pos, value]
  rw [UInt8.lt_iff_toNat_lt, value]
  simp
  omega

theorem next_two (lower : 0x7F < n) (upper : n ≤ 0x7FF) :
    next (UInt8.ofNat (n / 64 % 32 + 192)) (UInt8.ofNat (n % 64 + 128) :: rest) =
      .char (Char.ofNat n) rest := by
  have value : (UInt8.ofNat (n / 64 % 32 + 192)).toNat = n / 64 % 32 + 192 :=
    toNat_ofNat_small (by omega)
  have whole : (n / 64 % 32 + 192) % 32 * 64 + n % 64 = n := by omega
  unfold next
  simp only [UInt8.lt_iff_toNat_lt, value, UInt8.reduceToNat]
  rw [if_neg (by omega), if_neg (by omega), if_pos (by omega)]
  simp only [next2, continues_tail, payload_tail, value, whole, if_true]

theorem next3_tail {lo hi : UInt8} (lower : lo.toNat ≤ n / 64 % 64 + 128)
    (upper : n / 64 % 64 + 128 ≤ hi.toNat) (size : n ≤ 0xFFFF) :
    next3 (UInt8.ofNat (n / 4096 % 16 + 224)) lo hi
        (UInt8.ofNat (n / 64 % 64 + 128) :: UInt8.ofNat (n % 64 + 128) :: rest) =
      .char (Char.ofNat n) rest := by
  have value : (UInt8.ofNat (n / 4096 % 16 + 224)).toNat = n / 4096 % 16 + 224 :=
    toNat_ofNat_small (by omega)
  have whole : (n / 4096 % 16 + 224) % 16 * 4096 + n / 64 % 64 * 64 + n % 64 = n := by omega
  simp only [next3, continues_ofNat lower upper, continues_tail, payload_tail, value, whole,
    if_true]

theorem next_three (lower : 0x7FF < n) (upper : n ≤ 0xFFFF) (valid : n < 0xD800 ∨ 0xDFFF < n) :
    next (UInt8.ofNat (n / 4096 % 16 + 224))
        (UInt8.ofNat (n / 64 % 64 + 128) :: UInt8.ofNat (n % 64 + 128) :: rest) =
      .char (Char.ofNat n) rest := by
  have value : (UInt8.ofNat (n / 4096 % 16 + 224)).toNat = n / 4096 % 16 + 224 :=
    toNat_ofNat_small (by omega)
  unfold next
  simp only [UInt8.lt_iff_toNat_lt, ← UInt8.toNat_inj, value, UInt8.reduceToNat]
  rw [if_neg (by omega), if_neg (by omega), if_neg (by omega)]
  split
  · exact next3_tail rest (by simp; omega) (by simp; omega) upper
  · split
    · exact next3_tail rest (by simp) (by simp; omega) upper
    · rw [if_pos (by omega)]
      exact next3_tail rest (by simp) (by simp; omega) upper

theorem next4_tail {lo hi : UInt8} (lower : lo.toNat ≤ n / 4096 % 64 + 128)
    (upper : n / 4096 % 64 + 128 ≤ hi.toNat) (size : n < 0x110000) :
    next4 (UInt8.ofNat (n / 262144 % 8 + 240)) lo hi
        (UInt8.ofNat (n / 4096 % 64 + 128) :: UInt8.ofNat (n / 64 % 64 + 128) ::
          UInt8.ofNat (n % 64 + 128) :: rest) =
      .char (Char.ofNat n) rest := by
  have value : (UInt8.ofNat (n / 262144 % 8 + 240)).toNat = n / 262144 % 8 + 240 :=
    toNat_ofNat_small (by omega)
  have whole : (n / 262144 % 8 + 240) % 8 * 262144 + n / 4096 % 64 * 4096 + n / 64 % 64 * 64 +
      n % 64 = n := by omega
  simp only [next4, continues_ofNat lower upper, continues_tail, payload_tail, value, whole,
    if_true]

theorem next_four (lower : 0xFFFF < n) (upper : n < 0x110000) :
    next (UInt8.ofNat (n / 262144 % 8 + 240))
        (UInt8.ofNat (n / 4096 % 64 + 128) :: UInt8.ofNat (n / 64 % 64 + 128) ::
          UInt8.ofNat (n % 64 + 128) :: rest) =
      .char (Char.ofNat n) rest := by
  have value : (UInt8.ofNat (n / 262144 % 8 + 240)).toNat = n / 262144 % 8 + 240 :=
    toNat_ofNat_small (by omega)
  unfold next
  simp only [UInt8.lt_iff_toNat_lt, ← UInt8.toNat_inj, value, UInt8.reduceToNat]
  rw [if_neg (by omega), if_neg (by omega), if_neg (by omega), if_neg (by omega),
    if_neg (by omega), if_neg (by omega)]
  split
  · exact next4_tail rest (by simp; omega) (by simp; omega) upper
  · split
    · exact next4_tail rest (by simp) (by simp; omega) upper
    · rw [if_pos (by omega)]
      exact next4_tail rest (by simp) (by simp; omega) upper

end

/-- The bytes of a character read as it, and those that follow are left. -/
theorem next_encodeChar (c : Char) (rest : Bytes) :
    ∃ b bytes, String.utf8EncodeChar c = b :: bytes ∧ next b (bytes ++ rest) = .char c rest := by
  have valid : c.val.toNat < 0xD800 ∨ 0xDFFF < c.val.toNat ∧ c.val.toNat < 0x110000 := c.valid
  have same : Char.ofNat c.val.toNat = c := Char.ofNat_toNat c
  unfold String.utf8EncodeChar
  generalize c.val.toNat = n at valid same
  subst same
  dsimp only
  split
  · next one => exact ⟨_, _, rfl, next_one rest one⟩
  · split
    · next two => exact ⟨_, _, rfl, next_two rest (by omega) two⟩
    · split
      · next three => exact ⟨_, _, rfl, next_three rest (by omega) three (by omega)⟩
      · exact ⟨_, _, rfl, next_four rest (by omega) (by omega)⟩

theorem decodeFrom_encode (index : Nat) (text : List Char) :
    decodeFrom index (text.flatMap String.utf8EncodeChar) = .ok text := by
  induction text generalizing index with
  | nil => rw [List.flatMap_nil, decodeFrom]
  | cons c text ih =>
    obtain ⟨b, bytes, encoded, read⟩ := next_encodeChar c (text.flatMap String.utf8EncodeChar)
    rw [List.flatMap_cons, encoded, List.cons_append, decodeFrom]
    split
    · next value left step =>
      rw [read] at step
      cases step
      rw [ih]
    · next step => simp [read] at step
    · next step => simp [read] at step

/-- A text that was written is read back. -/
theorem decode?_encode (text : String) : decode? (encode text) = .ok text := by
  rw [decode?, encode_eq, decodeFrom_encode]
  simp [Except.map]

/-! No other bytes -/

theorem val_ofNat {n : Nat} (valid : n.isValidChar) : (Char.ofNat n).val.toNat = n := by
  rw [Char.ofNat, dif_pos valid]
  exact UInt32.toNat_ofNatLT ..

theorem ofNat_eq {b : UInt8} {k : Nat} (value : k = b.toNat) : UInt8.ofNat k = b := by
  rw [value, UInt8.ofNat_toNat]

section
variable {b0 lo hi : UInt8} {bytes rest : Bytes} {c : Char}

theorem continues_bounds {b : UInt8} (continued : continues lo hi b = true) :
    lo.toNat ≤ b.toNat ∧ b.toNat ≤ hi.toNat := by
  simpa [continues, UInt8.le_iff_toNat_le] using continued

theorem next_char_one (lead : b0.toNat < 0x80) :
    b0 :: bytes = String.utf8EncodeChar (Char.ofNat b0.toNat) ++ bytes := by
  have value : (Char.ofNat b0.toNat).val.toNat = b0.toNat := val_ofNat (Or.inl (by omega))
  rw [String.utf8EncodeChar, value, if_pos (by omega), UInt8.ofNat_toNat]
  rfl

theorem next2_char (read : next2 b0 bytes = .char c rest) (lower : 0xC2 ≤ b0.toNat)
    (upper : b0.toNat < 0xE0) : b0 :: bytes = String.utf8EncodeChar c ++ rest := by
  cases bytes with
  | nil => cases read
  | cons b1 left =>
    simp only [next2] at read
    split at read
    · next second =>
      obtain ⟨lower1, upper1⟩ := continues_bounds second
      cases read
      simp only [payload, UInt8.reduceToNat] at lower1 upper1 ⊢
      rw [String.utf8EncodeChar, val_ofNat (Or.inl (by omega)), if_neg (by omega),
        if_pos (by omega), ofNat_eq (b := b0) (by omega), ofNat_eq (b := b1) (by omega)]
      rfl
    · cases read

theorem next3_char (read : next3 b0 lo hi bytes = .char c rest) (lower : 0xE0 ≤ b0.toNat)
    (upper : b0.toNat < 0xF0) (low : 0x80 ≤ lo.toNat) (high : hi.toNat ≤ 0xBF)
    (long : b0.toNat = 0xE0 → 0xA0 ≤ lo.toNat) (plain : b0.toNat = 0xED → hi.toNat ≤ 0x9F) :
    b0 :: bytes = String.utf8EncodeChar c ++ rest := by
  cases bytes with
  | nil => cases read
  | cons b1 left =>
    simp only [next3] at read
    split at read
    · next second =>
      obtain ⟨lower1, upper1⟩ := continues_bounds second
      cases left with
      | nil => cases read
      | cons b2 left =>
        dsimp only at read
        split at read
        · next third =>
          obtain ⟨lower2, upper2⟩ := continues_bounds third
          cases read
          simp only [payload, UInt8.reduceToNat] at lower2 upper2 ⊢
          -- The bounds of the second byte leave out what two bytes can say, and surrogates.
          rw [String.utf8EncodeChar, val_ofNat (by unfold Nat.isValidChar; omega),
            if_neg (by omega), if_neg (by omega), if_pos (by omega),
            ofNat_eq (b := b0) (by omega), ofNat_eq (b := b1) (by omega),
            ofNat_eq (b := b2) (by omega)]
          rfl
        · cases read
    · cases read

theorem next4_char (read : next4 b0 lo hi bytes = .char c rest) (lower : 0xF0 ≤ b0.toNat)
    (upper : b0.toNat ≤ 0xF4) (low : 0x80 ≤ lo.toNat) (high : hi.toNat ≤ 0xBF)
    (long : b0.toNat = 0xF0 → 0x90 ≤ lo.toNat) (small : b0.toNat = 0xF4 → hi.toNat ≤ 0x8F) :
    b0 :: bytes = String.utf8EncodeChar c ++ rest := by
  cases bytes with
  | nil => cases read
  | cons b1 left =>
    simp only [next4] at read
    split at read
    · next second =>
      obtain ⟨lower1, upper1⟩ := continues_bounds second
      cases left with
      | nil => cases read
      | cons b2 left =>
        dsimp only at read
        split at read
        · next third =>
          obtain ⟨lower2, upper2⟩ := continues_bounds third
          cases left with
          | nil => cases read
          | cons b3 left =>
            dsimp only at read
            split at read
            · next fourth =>
              obtain ⟨lower3, upper3⟩ := continues_bounds fourth
              cases read
              simp only [payload, UInt8.reduceToNat] at lower2 upper2 lower3 upper3 ⊢
              rw [String.utf8EncodeChar, val_ofNat (by unfold Nat.isValidChar; omega),
                if_neg (by omega), if_neg (by omega), if_neg (by omega),
                ofNat_eq (b := b0) (by omega), ofNat_eq (b := b1) (by omega),
                ofNat_eq (b := b2) (by omega), ofNat_eq (b := b3) (by omega)]
              rfl
            · cases read
        · cases read
    · cases read

/-- A character is read from its own bytes only. -/
theorem next_char (read : next b0 bytes = .char c rest) :
    b0 :: bytes = String.utf8EncodeChar c ++ rest := by
  unfold next at read
  simp only [UInt8.lt_iff_toNat_lt, ← UInt8.toNat_inj, UInt8.reduceToNat] at read
  split at read
  · next lead =>
    cases read
    exact next_char_one lead
  split at read
  · cases read
  split at read
  · exact next2_char read (by omega) (by omega)
  split at read
  · exact next3_char read (by omega) (by omega) (by decide) (by decide) (by simp) (by omega)
  split at read
  · exact next3_char read (by omega) (by omega) (by decide) (by decide) (by omega) (by simp)
  split at read
  · exact next3_char read (by omega) (by omega) (by decide) (by decide) (by omega) (by omega)
  split at read
  · exact next4_char read (by omega) (by omega) (by decide) (by decide) (by simp) (by omega)
  split at read
  · exact next4_char read (by omega) (by omega) (by decide) (by decide) (by omega) (by omega)
  split at read
  · exact next4_char read (by omega) (by omega) (by decide) (by decide) (by omega) (by simp)
  · cases read

theorem decodeFrom_ok {index : Nat} {text : List Char}
    (read : decodeFrom index bytes = .ok text) : bytes = text.flatMap String.utf8EncodeChar := by
  fun_induction decodeFrom index bytes generalizing text with
  | case1 index =>
    cases read
    rfl
  | case2 index b bytes c rest step cs others ih =>
    cases read
    rw [next_char step, List.flatMap_cons, ih others]
  | case3 index b bytes c rest step e others ih => cases read
  | case4 index b bytes width rest step => cases read
  | case5 index b bytes step => cases read

/-- Bytes read as a text exactly if they are its bytes. -/
theorem decode?_eq_ok_iff {text : String} : decode? bytes = .ok text ↔ bytes = encode text := by
  constructor
  · intro read
    unfold decode? at read
    cases decoded : decodeFrom 0 bytes with
    | error fault => rw [decoded] at read; cases read
    | ok chars =>
      rw [decoded] at read
      cases read
      rw [encode_eq, String.toList_ofList]
      exact decodeFrom_ok decoded
  · rintro rfl
    exact decode?_encode text

end

end RoutineWatch.Utf8
