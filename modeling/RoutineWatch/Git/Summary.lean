/-!
# The summary of a commit message

The summary of a commit message: its first paragraph on one line. A row of blanks with
a line feed in it becomes one blank, others stay, and blanks at the end go.
-/
namespace RoutineWatch.Summary

/-- Blanks that do not end a line. -/
def isInlineBlank (c : Char) : Bool :=
  c = ' ' || c = '\t' || c = '\r' || c = '\x0b' || c = '\x0c'

/-- Blanks of all kinds. -/
def isBlank (c : Char) : Bool := c = '\n' || isInlineBlank c

/-- Whether the line that starts here has only blanks. -/
def isBlankLine (text : List Char) : Bool :=
  match text.dropWhile isInlineBlank with
  | [] => true
  | c :: _ => c = '\n'

/-- A row of blanks as it is written in the summary; the row is given backwards. -/
def settle (blanks : List Char) : List Char :=
  if blanks.contains '\n' then [' '] else blanks.reverse

/-- The summary of the rest of a message; `blanks` is the row of blanks just read,
backwards. -/
def collect (blanks : List Char) : List Char → List Char
  | [] => []
  | c :: rest =>
    if c = '\n' && isBlankLine rest then []
    else if isBlank c then collect (c :: blanks) rest
    else settle blanks ++ c :: collect [] rest

def ofMessage (message : String) : String :=
  String.ofList (collect [] (message.toList.dropWhile (· = '\n')))

end RoutineWatch.Summary
