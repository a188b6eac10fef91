import RoutineWatch.Text.Utf8

/-!
# Shell scripts

Shell scripts. The tools that this program calls are scripts as often as not, so it can
run them by itself. A script's text is a row of characters, one for each byte, and so is
every text that it works on.
-/
namespace RoutineWatch.Script

/-- A text of a script, one character for each byte. -/
abbrev Text := List Char

def ofBytes (bytes : Bytes) : Text := bytes.map fun b => Char.ofNat b.toNat

def toBytes (text : Text) : Bytes := text.map fun c => UInt8.ofNat c.toNat

def ofString (s : String) : Text := ofBytes (Utf8.encode s)

/-- What stands for the value of a parameter in some case. -/
inductive Substitute where
  /-- A text instead of a value that is missing, or empty if `orEmpty`. -/
  | fallback (orEmpty : Bool) (source : Text)
  /-- Such a text, which the parameter takes as its value. -/
  | assign (orEmpty : Bool) (source : Text)
  /-- A text instead of a value that is there. -/
  | alternative (orEmpty : Bool) (source : Text)
  /-- The length of the value. -/
  | length
deriving Repr

/-- A part of a word. What is quoted is neither split nor matched as a pattern. -/
inductive Part where
  | text (chars : Text) (quoted : Bool)
  | parameter (name : Text) (substitute : Option Substitute) (quoted : Bool)
  | arithmetic (source : Text) (quoted : Bool)
  /-- What a script prints. -/
  | output (source : Text) (quoted : Bool)
deriving Repr

abbrev Word := List Part

/-- What a redirection does. -/
inductive RedirectKind where
  | read
  | write
  | append
  /-- Makes a descriptor the same as another one. -/
  | duplicate
  /-- Reads from the word itself. -/
  | document
deriving DecidableEq, Repr

structure Redirect where
  descriptor : Nat
  kind : RedirectKind
  target : Word
deriving Repr

inductive Command where
  | nothing
  /-- Assignments, and words of which the first names what is run. -/
  | simple (line : Nat) (assignments : List (Text × Word)) (words : List Word)
  | pipe (first second : Command)
  | negate (c : Command)
  | both (first second : Command)
  | either (first second : Command)
  | sequence (first second : Command)
  | branch (condition yes no : Command)
  /-- Runs as long as the condition does not fail, or, if `untilTrue`, as long as it
  fails. -/
  | loop (untilTrue : Bool) (condition body : Command)
  | each (name : Text) (items : List Word) (body : Command)
  /-- Runs the first command one of whose patterns matches. -/
  | choose (subject : Word) (arms : List (List Word × Command))
  | subshell (body : Command)
  | redirected (line : Nat) (body : Command) (redirects : List Redirect)
  | define (name : Text) (body : Command)
deriving Repr

end RoutineWatch.Script
