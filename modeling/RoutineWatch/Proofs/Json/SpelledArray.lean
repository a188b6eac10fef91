import RoutineWatch.Proofs.Json.Locality
import RoutineWatch.Proofs.Json.Printed

/-!
# Spelled texts close their brackets

A string is escaped so that no mark in it ends it, and every bracket outside strings is
closed. So a spelled array is read as what it spells even where a number would run on into
what follows.

- `Json.readFirst_spelledArray`: this.
-/
namespace RoutineWatch.Json

theorem hexDigit_ne : ∀ n < 16, hexDigit n ≠ '"' ∧ hexDigit n ≠ '\\' := by decide

/-- What stands for a character in a string does not end the string. -/
theorem Quoted.escape {text : List Char} (quoted : Quoted text) (c : Char) :
    Quoted (escape c ++ text) := by
  unfold Json.escape
  split_ifs with mark slash back feed line carriage tab low
  -- seven characters have an escape of two
  iterate 7 exact .escaped _ quoted
  · have high := hexDigit_ne (c.toNat / 16) (by omega)
    have rest := hexDigit_ne (c.toNat % 16) (by omega)
    have digits := Quoted.plain high (.plain rest quoted)
    exact .escaped 'u' (.plain (c := '0') (by decide) (.plain (c := '0') (by decide) digits))
  · exact .plain ⟨mark, slash⟩ quoted

theorem quoted_escaped (s : List Char) : Quoted (s.flatMap escape ++ ['"']) := by
  induction s with
  | nil => exact .mark
  | cons c s ih =>
    rw [List.flatMap_cons, List.append_assoc]
    exact ih.escape c

section
variable {depth : Nat} {rest : List Char} (closes : Closes (depth + 1) rest)
include closes

theorem Closes.blanks {gap : List Char} (blank : AllBlank gap) : Closes (depth + 1) (gap ++ rest) :=
  closes.row fun c member => not_mem_marks isBlank_marks (blank c member)

theorem Closes.quote (s : String) : Closes (depth + 1) (quote s ++ rest) := by
  have inside := Closes.string (quoted_escaped s.toList) closes
  rw [List.append_assoc] at inside
  simpa [Json.quote] using inside

end

mutual

theorem Spells.closes {d : Document} {text : List Char} (spelled : Spells d text) {depth : Nat}
    {rest : List Char} (closes : Closes (depth + 1) rest) : Closes (depth + 1) (text ++ rest) := by
  cases spelled with
  | null => exact closes.row (by decide)
  | yes => exact closes.row (by decide)
  | no => exact closes.row (by decide)
  | natural small =>
    exact closes.row fun c member => not_mem_marks isDigit_marks (isDigit_of_mem_toDigits member)
  | string s => exact closes.quote s
  | emptyArray blank =>
    have bracket : Closes (depth + 2) (']' :: rest) := .closing (Or.inl rfl) closes
    have inside := bracket.blanks blank
    rw [List.append_assoc]
    exact .opening (Or.inl rfl) inside
  | array items =>
    have bracket : Closes (depth + 2) (']' :: rest) := .closing (Or.inl rfl) closes
    have inside := items.closes bracket
    rw [List.append_assoc]
    exact .opening (Or.inl rfl) inside
  | emptyObject blank =>
    have brace : Closes (depth + 2) ('\x7d' :: rest) := .closing (Or.inr rfl) closes
    have inside := brace.blanks blank
    rw [List.append_assoc]
    exact .opening (Or.inr rfl) inside
  | object members =>
    have brace : Closes (depth + 2) ('\x7d' :: rest) := .closing (Or.inr rfl) closes
    have inside := members.closes brace
    rw [List.append_assoc]
    exact .opening (Or.inr rfl) inside

theorem SpellsItems.closes {items : List Document} {text : List Char}
    (spelled : SpellsItems items text) {depth : Nat} {rest : List Char}
    (closes : Closes (depth + 1) rest) : Closes (depth + 1) (text ++ rest) := by
  cases spelled with
  | last leading value trailing =>
    rw [List.append_assoc, List.append_assoc]
    exact (value.closes (closes.blanks trailing)).blanks leading
  | more leading value trailing others =>
    have comma := Closes.plain (c := ',') (by decide) (others.closes closes)
    simp only [List.append_assoc, List.cons_append]
    exact (value.closes (comma.blanks trailing)).blanks leading

theorem SpellsMembers.closes {members : List (Option String × Document)} {text : List Char}
    (spelled : SpellsMembers members text) {depth : Nat} {rest : List Char}
    (closes : Closes (depth + 1) rest) : Closes (depth + 1) (text ++ rest) := by
  cases spelled with
  | last key leading colon space value trailing =>
    have spaced := (value.closes (closes.blanks trailing)).blanks space
    have named := (Closes.plain (c := ':') (by decide) spaced).blanks colon
    simp only [List.append_assoc, List.cons_append]
    exact (named.quote key).blanks leading
  | more key leading colon space value trailing others =>
    have comma := Closes.plain (c := ',') (by decide) (others.closes closes)
    have spaced := (value.closes (comma.blanks trailing)).blanks space
    have named := (Closes.plain (c := ':') (by decide) spaced).blanks colon
    simp only [List.append_assoc, List.cons_append]
    exact (named.quote key).blanks leading

end

section
variable {items : List Document} {text : List Char} (spelled : Spells (.array items true) text)
include spelled

theorem Spells.bracketed : Bracketed text := by
  cases spelled with
  | emptyArray blanks => exact ⟨_, rfl, (Closes.closing (Or.inl rfl) .done).blanks blanks⟩
  | array inside => exact ⟨_, rfl, inside.closes (.closing (Or.inl rfl) .done)⟩

/-- A spelled array is read as what it spells, whatever follows it. -/
theorem readFirst_spelledArray {gap : List Char} (blank : AllBlank gap) (after : List Char) :
    readFirst (gap ++ (text ++ after)) = (.array items true, some after) := by
  obtain ⟨d, closed, same⟩ := readFirst_bracketed spelled.bracketed
  have alone := readFirst_spelled spelled (endsNumber_blank allBlank_nil)
  rw [← List.nil_append (text ++ []), same [] allBlank_nil] at alone
  cases closed with
  | false => cases alone
  | true =>
    cases alone
    exact same gap blank after

end

end RoutineWatch.Json
