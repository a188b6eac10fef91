import RoutineWatch.Script.Arithmetic

/-!
# What scripts print

The texts that `echo` and `printf` print: escapes, and the conversions of a format.
-/
namespace RoutineWatch.Script.Printing

def isOctal (c : Char) : Bool := '0' ≤ c && c ≤ '7'

def octalValue (digits : Text) : Nat := digits.foldl (fun n d => n * 8 + (d.toNat - 48)) 0

/-- The character that octal digits stand for. -/
def octalChar (digits : Text) : Char := Char.ofNat (octalValue digits % 256)

/-- The character of a one-letter escape. -/
def letterEscape? : Char → Option Char
  | 'a' => some '\x07'
  | 'b' => some '\x08'
  | 'f' => some '\x0c'
  | 'n' => some '\n'
  | 'r' => some '\r'
  | 't' => some '\t'
  | 'v' => some '\x0b'
  | '\\' => some '\\'
  | _ => none

/-- What a backslash and the text after it stand for; `zeroFirst` tells whether the
octal digits may follow a zero. Gives the text, the rest, and whether printing ends. -/
def readEscape (zeroFirst : Bool) : Text → Text × Text × Bool
  | [] => (['\\'], [], false)
  | c :: rest =>
    if zeroFirst && c = 'c' then ([], [], true)
    else if zeroFirst && c = '0' then
      let digits := (rest.takeWhile isOctal).take 3
      ([octalChar digits], rest.drop digits.length, false)
    else if isOctal c then
      let digits := ((c :: rest).takeWhile isOctal).take 3
      ([octalChar digits], (c :: rest).drop digits.length, false)
    else
      match letterEscape? c with
      | some d => ([d], rest, false)
      | none => (['\\', c], rest, false)

theorem readEscape_length (zeroFirst : Bool) (text : Text) :
    (readEscape zeroFirst text).2.1.length ≤ text.length := by
  cases text with
  | nil => simp [readEscape]
  | cons c rest =>
    simp only [readEscape]
    repeat' split
    all_goals simp
    all_goals omega

/-- A text with its escapes replaced, and whether printing ends there. -/
def unescape : Text → Text × Bool
  | [] => ([], false)
  | c :: rest =>
    if c = '\\' then
      let read := readEscape true rest
      if read.2.2 then (read.1, true)
      else
        let after := unescape read.2.1
        (read.1 ++ after.1, after.2)
    else
      let after := unescape rest
      (c :: after.1, after.2)
termination_by text => text.length
decreasing_by
  · have := readEscape_length true rest
    simp only [List.length_cons]
    omega
  · simp

def echo (arguments : List Text) : Text :=
  let (arguments, ended) := match arguments with
    | ['-', 'n'] :: rest => (rest, true)
    | arguments => (arguments, false)
  let (text, stopped) := unescape (List.intercalate [' '] arguments)
  if ended || stopped then text else text ++ ['\n']

/-- A conversion of a format. -/
structure Conversion where
  left : Bool
  zeros : Bool
  plus : Bool
  width : Nat
  precision : Option Nat
  kind : Char
deriving Repr

/-- Reads a conversion after its percent sign. -/
def readConversion (text : Text) : Option (Conversion × Text) :=
  let isFlag (c : Char) : Bool := c = '-' || c = '0' || c = '+' || c = ' ' || c = '#'
  let flags := text.takeWhile isFlag
  let text := text.dropWhile isFlag
  let width := text.takeWhile Char.isDigit
  let text := text.dropWhile Char.isDigit
  let (precision, text) := match text with
    | '.' :: rest =>
      (some (Arithmetic.digitsValue (rest.takeWhile Char.isDigit)).toNat,
        rest.dropWhile Char.isDigit)
    | text => (none, text)
  match text with
  | kind :: rest =>
    some (⟨flags.contains '-', flags.contains '0', flags.contains '+',
      (Arithmetic.digitsValue width).toNat, precision, kind⟩, rest)
  | [] => none

/-- Fills a text up to the width of a conversion. -/
def Conversion.pad (c : Conversion) (number : Bool) (text : Text) : Text :=
  let missing := c.width - text.length
  if c.left then text ++ List.replicate missing ' '
  else if c.zeros && number then
    match text with
    | '-' :: digits => '-' :: List.replicate missing '0' ++ digits
    | digits => List.replicate missing '0' ++ digits
  else List.replicate missing ' ' ++ text

/-- The text of an integer in a conversion. -/
def Conversion.integerText (c : Conversion) (n : Int) : Text :=
  let digits (base : Nat) : Text := Nat.toDigits base n.natAbs
  let sign : Text := if n < 0 then ['-'] else if c.plus then ['+'] else []
  let body : Text := match c.kind with
    | 'o' => digits 8
    | 'x' => digits 16
    | 'X' => (digits 16).map Char.toUpper
    | _ => digits 10
  sign ++ List.replicate ((c.precision.getD 0) - body.length) '0' ++ body

/-- The integer an argument spells, and whether it spells one. A quote stands for the
number of the character after it. -/
def integerArgument (argument : Text) : Int × Bool :=
  match argument with
  | [] => (0, true)
  | '\'' :: c :: _ => (c.toNat, true)
  | '"' :: c :: _ => (c.toNat, true)
  | argument =>
    match Arithmetic.integer? argument with
    | some n => (n, true)
    | none => (0, false)

/-- What a format prints: its text, the arguments that no number could be read from, the
arguments that are left, and whether printing ends. -/
structure Printed where
  text : Text := []
  faulty : List Text := []
  rest : List Text := []
  stopped : Bool := false

/-- What one conversion prints with the next argument. -/
def convert (c : Conversion) (arguments : List Text) : Printed :=
  let argument := arguments.headD []
  let rest := arguments.drop 1
  let cut (text : Text) : Text :=
    match c.precision with
    | some n => text.take n
    | none => text
  match c.kind with
  | '%' => ⟨['%'], [], arguments, false⟩
  | 's' => ⟨c.pad false (cut argument), [], rest, false⟩
  | 'b' =>
    let (text, stopped) := unescape argument
    ⟨c.pad false (cut text), [], rest, stopped⟩
  | 'c' => ⟨c.pad false (argument.take 1), [], rest, false⟩
  | _ =>
    let (n, good) := integerArgument argument
    ⟨c.pad true (c.integerText n), if good then [] else [argument], rest, false⟩

def formatOnce (fuel : Nat) (format : Text) (arguments : List Text) : Printed :=
  match fuel, format with
  | 0, _ => { rest := arguments }
  | _ + 1, [] => { rest := arguments }
  | fuel + 1, c :: rest =>
    let add (text : Text) (faulty : List Text) (p : Printed) : Printed :=
      { p with text := text ++ p.text, faulty := faulty ++ p.faulty }
    if c = '\\' then
      let read := readEscape false rest
      add read.1 [] (formatOnce fuel read.2.1 arguments)
    else if c = '%' then
      match readConversion rest with
      | none => ⟨['%'], [], arguments, false⟩
      | some (conversion, rest) =>
        let printed := convert conversion arguments
        if printed.stopped then printed
        else add printed.text printed.faulty (formatOnce fuel rest printed.rest)
    else add [c] [] (formatOnce fuel rest arguments)

/-- Prints a format as often as there are arguments for it. -/
def format (fuel : Nat) (form : Text) (arguments : List Text) : Printed :=
  let once := formatOnce (form.length + 1) form arguments
  match fuel with
  | 0 => once
  | fuel + 1 =>
    if once.stopped || once.rest.isEmpty || once.rest.length = arguments.length then once
    else
      let more := format fuel form once.rest
      { more with text := once.text ++ more.text, faulty := once.faulty ++ more.faulty }

def printf (form : Text) (arguments : List Text) : Printed := format arguments.length form arguments

end RoutineWatch.Script.Printing
