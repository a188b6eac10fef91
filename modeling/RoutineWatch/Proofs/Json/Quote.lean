import RoutineWatch.Json.Printer
import RoutineWatch.Json.Reader

/-!
# Strings are read as they were written

The reader takes each escaped character as one piece, and the pieces together stand for the
characters that were escaped; so a quoted string is read back whatever characters it has and
whatever text follows it.

- `Json.isPieceOf_escape`: every character is read as the one it was written for.
- `Json.readPieces_quote`: a quoted string is read back.
-/
namespace RoutineWatch.Json

theorem hexDigit?_hexDigit : ∀ n < 16, hexDigit? (hexDigit n) = some n := by decide

/-- The four digits of a control character's escape. -/
theorem hex4?_control {n : Nat} (low : n < 32) :
    hex4? '0' '0' (hexDigit (n / 16)) (hexDigit (n % 16)) = some n := by
  have high := hexDigit?_hexDigit (n / 16) (by omega)
  have rest := hexDigit?_hexDigit (n % 16) (by omega)
  have zero : hexDigit? '0' = some 0 := by decide
  simp only [hex4?, zero, high, rest, Option.bind_eq_bind, Option.bind_some, Option.some.injEq]
  omega

/-- A unit below the surrogates stands for its own character, whatever follows it. -/
theorem joinPieces_unit {n : Nat} (low : n < 0xD800) (pieces : List Unit16) :
    joinPieces (.unit n :: pieces) = (joinPieces pieces).map (Char.ofNat n :: ·) := by
  have notHigh : ¬ 0xD800 ≤ n := by omega
  have notLow : ¬ 0xDC00 ≤ n := by omega
  cases pieces with
  | nil => simp [joinPieces, notHigh]
  | cons piece pieces =>
    cases piece with
    | char c => simp [joinPieces, notHigh]
    | unit m => rw [joinPieces]; simp [notHigh, notLow]

/-- What reading a piece adds to what is read after it. -/
def withPiece (piece : Unit16) (read : List Unit16 × List Char) : List Unit16 × List Char :=
  (piece :: read.1, read.2)

theorem readPieces_short {e : Char} (other : e ≠ 'u') (text : List Char) :
    readPieces ('\\' :: e :: text) =
      (shortEscape? e).bind fun c => (readPieces text).map (withPiece (.char c)) := by
  rw [readPieces]
  · cases shortEscape? e with
    | none => rfl
    | some c => cases readPieces text <;> rfl
  · intro a b c d rest same
    exact absurd same other

theorem readPieces_unit (a b c d : Char) (text : List Char) :
    readPieces ('\\' :: 'u' :: a :: b :: c :: d :: text) =
      (hex4? a b c d).bind fun n => (readPieces text).map (withPiece (.unit n)) := by
  rw [readPieces]
  cases hex4? a b c d with
  | none => rfl
  | some n => cases readPieces text <;> rfl

theorem readPieces_plain {c : Char} (quote : c ≠ '"') (slash : c ≠ '\\') (text : List Char) :
    readPieces (c :: text) =
      if c.toNat < 32 then none else (readPieces text).map (withPiece (.char c)) := by
  rw [readPieces]
  · split
    · rfl
    · cases readPieces text <;> rfl
  · exact quote
  · intro a b d e rest same
    exact absurd same slash
  · intro e rest same
    exact absurd same slash

/-- The written form is read as one piece, which stands for the character. -/
def IsPieceOf (c : Char) (written : List Char) : Prop :=
  ∃ piece, (∀ text, readPieces (written ++ text) = (readPieces text).map (withPiece piece)) ∧
    ∀ pieces, joinPieces (piece :: pieces) = (joinPieces pieces).map (c :: ·)

theorem isPieceOf_short {e c : Char} (plain : e ≠ 'u') (value : shortEscape? e = some c) :
    IsPieceOf c ['\\', e] := by
  refine ⟨.char c, ?_, fun _ => rfl⟩
  intro text
  rw [List.cons_append, List.cons_append, List.nil_append, readPieces_short plain, value]
  rfl

/-- Every character is read as the one it was written for. -/
theorem isPieceOf_escape (c : Char) : IsPieceOf c (escape c) := by
  by_cases quote : c = '"'
  · subst quote
    exact isPieceOf_short (e := '"') (by decide) (by decide)
  by_cases slash : c = '\\'
  · subst slash
    exact isPieceOf_short (e := '\\') (by decide) (by decide)
  by_cases back : c = '\x08'
  · subst back
    exact isPieceOf_short (e := 'b') (by decide) (by decide)
  by_cases feed : c = '\x0c'
  · subst feed
    exact isPieceOf_short (e := 'f') (by decide) (by decide)
  by_cases line : c = '\n'
  · subst line
    exact isPieceOf_short (e := 'n') (by decide) (by decide)
  by_cases carriage : c = '\r'
  · subst carriage
    exact isPieceOf_short (e := 'r') (by decide) (by decide)
  by_cases tab : c = '\t'
  · subst tab
    exact isPieceOf_short (e := 't') (by decide) (by decide)
  unfold escape
  rw [if_neg quote, if_neg slash, if_neg back, if_neg feed, if_neg line, if_neg carriage,
    if_neg tab]
  by_cases low : c.toNat < 32
  · rw [if_pos low]
    refine ⟨.unit c.toNat, ?_, ?_⟩
    · intro text
      have read := readPieces_unit '0' '0' (hexDigit (c.toNat / 16)) (hexDigit (c.toNat % 16)) text
      rw [hex4?_control low] at read
      exact read
    · intro pieces
      rw [joinPieces_unit (by omega), Char.ofNat_toNat]
  · rw [if_neg low]
    refine ⟨.char c, ?_, fun _ => rfl⟩
    intro text
    have read := readPieces_plain quote slash text
    rw [if_neg low] at read
    exact read

/-- The characters of a quoted string are read up to its closing quote. -/
theorem readPieces_escaped (s : List Char) (rest : List Char) :
    ∃ pieces, readPieces (s.flatMap escape ++ '"' :: rest) = some (pieces, rest) ∧
      joinPieces pieces = some s := by
  induction s with
  | nil => exact ⟨[], rfl, rfl⟩
  | cons c s ih =>
    obtain ⟨pieces, read, joined⟩ := ih
    obtain ⟨piece, step, stands⟩ := isPieceOf_escape c
    refine ⟨piece :: pieces, ?_, ?_⟩
    · rw [List.flatMap_cons, List.append_assoc, step, read]
      rfl
    · rw [stands, joined]
      rfl

/-- A quoted string is read back, and nothing of what follows it is touched. -/
theorem readPieces_quote (s : String) (rest : List Char) :
    ∃ pieces, quote s ++ rest = '"' :: (s.toList.flatMap escape ++ '"' :: rest) ∧
      readPieces (s.toList.flatMap escape ++ '"' :: rest) = some (pieces, rest) ∧
      (joinPieces pieces).map String.ofList = some s := by
  obtain ⟨pieces, read, joined⟩ := readPieces_escaped s.toList rest
  refine ⟨pieces, by simp [quote], read, ?_⟩
  rw [joined, Option.map_some, String.ofList_toList]

end RoutineWatch.Json
