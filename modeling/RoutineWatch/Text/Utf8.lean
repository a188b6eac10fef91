/-!
# UTF-8 from raw bytes

UTF-8 read from raw bytes. `Utf8.next` reads one character or reports how many
bytes stand in for it; the strict reader stops at the first malformed place, the
lossy one writes U+FFFD for each maximal malformed run and goes on.

- `Utf8.decode?`: the text of some bytes, or where they stop being one.
- `Utf8.lossy`: a text of any bytes.
-/
namespace RoutineWatch

/-- Raw bytes, as a file or a path holds them. -/
abbrev Bytes := List UInt8

namespace Utf8

/-- What the head of a byte sequence is. -/
inductive Next where
  /-- A character and the bytes after it. -/
  | char (value : Char) (rest : Bytes)
  /-- `width` bytes that no character starts with, and the bytes after them. -/
  | malformed (width : Nat) (rest : Bytes)
  /-- The bytes end within a character. -/
  | truncated
deriving Repr

/-- A byte `10xxxxxx`, narrowed to `lo..hi` where the lead byte asks for it. -/
def continues (lo hi b : UInt8) : Bool := lo ≤ b && b ≤ hi

/-- The bits that a continuation byte carries. -/
def payload (b : UInt8) : Nat := b.toNat % 64

/-- Two-byte characters: `110xxxxx 10xxxxxx`. -/
def next2 (b0 : UInt8) : Bytes → Next
  | [] => .truncated
  | b1 :: r1 =>
    if continues 0x80 0xBF b1 then .char (Char.ofNat (b0.toNat % 32 * 64 + payload b1)) r1
    else .malformed 1 (b1 :: r1)

/-- Three-byte characters; `lo..hi` bounds the second byte, so that no longer form
and no surrogate is read. -/
def next3 (b0 lo hi : UInt8) : Bytes → Next
  | [] => .truncated
  | b1 :: r1 =>
    if continues lo hi b1 then
      match r1 with
      | [] => .truncated
      | b2 :: r2 =>
        if continues 0x80 0xBF b2 then
          .char (Char.ofNat (b0.toNat % 16 * 4096 + payload b1 * 64 + payload b2)) r2
        else .malformed 2 (b2 :: r2)
    else .malformed 1 (b1 :: r1)

/-- Four-byte characters; `lo..hi` bounds the second byte, so that nothing above
U+10FFFF is read. -/
def next4 (b0 lo hi : UInt8) : Bytes → Next
  | [] => .truncated
  | b1 :: r1 =>
    if continues lo hi b1 then
      match r1 with
      | [] => .truncated
      | b2 :: r2 =>
        if continues 0x80 0xBF b2 then
          match r2 with
          | [] => .truncated
          | b3 :: r3 =>
            if continues 0x80 0xBF b3 then
              .char (Char.ofNat
                (b0.toNat % 8 * 262144 + payload b1 * 4096 + payload b2 * 64 + payload b3)) r3
            else .malformed 3 (b3 :: r3)
        else .malformed 2 (b2 :: r2)
    else .malformed 1 (b1 :: r1)

/-- Reads the character that a lead byte starts. -/
def next (b0 : UInt8) (rest : Bytes) : Next :=
  if b0 < 0x80 then .char (Char.ofNat b0.toNat) rest
  else if b0 < 0xC2 then .malformed 1 rest
  else if b0 < 0xE0 then next2 b0 rest
  else if b0 = 0xE0 then next3 b0 0xA0 0xBF rest
  else if b0 = 0xED then next3 b0 0x80 0x9F rest
  else if b0 < 0xF0 then next3 b0 0x80 0xBF rest
  else if b0 = 0xF0 then next4 b0 0x90 0xBF rest
  else if b0 < 0xF4 then next4 b0 0x80 0xBF rest
  else if b0 = 0xF4 then next4 b0 0x80 0x8F rest
  else .malformed 1 rest

/-- Bytes that are still to be read after this step. -/
def Next.rest : Next → Bytes
  | .char _ rest => rest
  | .malformed _ rest => rest
  | .truncated => []

theorem next2_rest_length (b0 : UInt8) (rest : Bytes) :
    (next2 b0 rest).rest.length ≤ rest.length := by
  unfold next2
  repeat' split
  all_goals simp [Next.rest]

theorem next3_rest_length (b0 lo hi : UInt8) (rest : Bytes) :
    (next3 b0 lo hi rest).rest.length ≤ rest.length := by
  unfold next3
  repeat' split
  all_goals simp [Next.rest]
  all_goals omega

theorem next4_rest_length (b0 lo hi : UInt8) (rest : Bytes) :
    (next4 b0 lo hi rest).rest.length ≤ rest.length := by
  unfold next4
  repeat' split
  all_goals simp [Next.rest]
  all_goals omega

theorem next_rest_length (b0 : UInt8) (rest : Bytes) :
    (next b0 rest).rest.length ≤ rest.length := by
  unfold next
  repeat' split
  all_goals first
    | exact next2_rest_length _ _
    | exact next3_rest_length _ _ _ _
    | exact next4_rest_length _ _ _ _
    | simp [Next.rest]

/-- The characters of a byte sequence, U+FFFD standing for each malformed run. -/
def decodeLossy : Bytes → List Char
  | [] => []
  | b :: bytes =>
    match _step : next b bytes with
    | .char c rest => c :: decodeLossy rest
    | .malformed _ rest => '\uFFFD' :: decodeLossy rest
    | .truncated => ['\uFFFD']
termination_by bytes => bytes.length
decreasing_by
  all_goals
    have := next_rest_length b bytes
    simp [_step, Next.rest] at this
    simp only [List.length_cons]
    omega

/-- A text of a byte sequence, always defined. -/
def lossy (bytes : Bytes) : String := String.ofList (decodeLossy bytes)

/-- Where strict reading stopped. -/
structure Fault where
  /-- Bytes before the malformed place. -/
  index : Nat
  /-- Width of the malformed run; `none` when the bytes end within a character. -/
  width : Option Nat
deriving DecidableEq, Repr

/-- Strict reading, `index` counting the bytes already read. -/
def decodeFrom (index : Nat) : Bytes → Except Fault (List Char)
  | [] => .ok []
  | b :: bytes =>
    match _step : next b bytes with
    | .char c rest =>
      match decodeFrom (index + (bytes.length + 1 - rest.length)) rest with
      | .ok cs => .ok (c :: cs)
      | .error e => .error e
    | .malformed width _ => .error ⟨index, some width⟩
    | .truncated => .error ⟨index, none⟩
termination_by bytes => bytes.length
decreasing_by
  all_goals
    have := next_rest_length b bytes
    simp [_step, Next.rest] at this
    simp only [List.length_cons]
    omega

/-- The text of a byte sequence, if it is UTF-8. -/
def decode? (bytes : Bytes) : Except Fault String :=
  (decodeFrom 0 bytes).map String.ofList

def encode (text : String) : Bytes := text.toUTF8.data.toList

/-- How a fault is reported. -/
def Fault.message (fault : Fault) : String :=
  match fault.width with
  | some width =>
    "invalid utf-8 sequence of " ++ toString width ++ " bytes from index " ++ toString fault.index
  | none => "incomplete utf-8 byte sequence from index " ++ toString fault.index

end Utf8

end RoutineWatch
