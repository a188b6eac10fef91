/-!
# Styled output

Styled output and the choice whether to style it. A styled piece of text stands between
a sequence that sets the style and one that clears it; without color it stands alone.

- `Style.paint`: a piece in a style.
- `ColorSetting.choice`: whether output is styled.

Specification, § 10.7.
-/
namespace RoutineWatch

/-- How a piece of text is shown. -/
inductive Style where
  | plain
  | bold
  | red
  | green
  | cyan
deriving DecidableEq, Repr

namespace Style

def escapeChar : Char := '\x1b'

/-- The sequence that clears all styling. -/
def reset : List Char := [escapeChar, '[', '0', 'm']

/-- The sequence that a style is set by, after the one that clears the last. -/
def start : Style → List Char
  | .plain => []
  | .bold => reset ++ [escapeChar, '[', '1', 'm']
  | .red => reset ++ [escapeChar, '[', '3', '1', 'm']
  | .green => reset ++ [escapeChar, '[', '3', '2', 'm']
  | .cyan => reset ++ [escapeChar, '[', '3', '6', 'm']

/-- A styled text on a terminal with colors. -/
def paint (style : Style) (text : List Char) : List Char :=
  if style = .plain then text else style.start ++ text ++ reset

end Style

/-- Whether output is styled. -/
inductive ColorChoice where
  | never
  | always
  /-- If the terminal can. -/
  | auto
deriving DecidableEq, Repr

/-- What the choice depends on: which variables are set, whatever their value, and
whether a terminal reads the output. -/
structure ColorSetting where
  noColor : Bool
  color : Bool
  ci : Bool
  terminal : Bool
deriving DecidableEq, Repr

/-- The choice: a refusal counts first, then a request; without either only a terminal
outside of continuous integration gets colors. -/
def ColorSetting.choice (s : ColorSetting) : ColorChoice :=
  if s.noColor then .never
  else if s.color then .always
  else if !s.terminal then .never
  else if s.ci then .never
  else .auto

end RoutineWatch
