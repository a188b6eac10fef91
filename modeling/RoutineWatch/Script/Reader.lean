import RoutineWatch.Script.Syntax

/-!
# Reading scripts

Reading scripts, one complete command at a time. The text of a document that a
redirection reads from is taken out of the script where the redirection stands, from the
lines that follow.

- `Script.readNext`: the next complete command.
-/
namespace RoutineWatch.Script

/-- Why a script cannot be read. -/
inductive Fault where
  | unterminatedQuote
  | unexpected (token : Text)
  | unexpectedEnd
deriving DecidableEq, Repr

def Fault.message : Fault → Text
  | .unterminatedQuote => ofString "Syntax error: Unterminated quoted string"
  | .unexpected token => ofString "Syntax error: \"" ++ token ++ ofString "\" unexpected"
  | .unexpectedEnd => ofString "Syntax error: end of file unexpected"

/-! Characters -/

def isBlank (c : Char) : Bool := c = ' ' || c = '\t'

def isNameStart (c : Char) : Bool := c.isAlpha || c = '_'

def isNameChar (c : Char) : Bool := c.isAlphanum || c = '_'

def isOperator (c : Char) : Bool :=
  c = '\n' || c = ';' || c = '&' || c = '|' || c = '<' || c = '>' || c = '(' || c = ')'

def isSpecial (c : Char) : Bool :=
  c = '@' || c = '*' || c = '#' || c = '?' || c = '$' || c = '!' || c = '-' || c.isDigit

/-- Skips blanks, joined lines and a comment. -/
def skipBlanks : Text → Text
  | '\\' :: '\n' :: rest => skipBlanks rest
  | '#' :: rest => rest.dropWhile (· ≠ '\n')
  | c :: rest => if isBlank c then skipBlanks rest else c :: rest
  | [] => []

/-- Skips blanks and line ends. `fuel` bounds how many line ends. -/
def skipLines (fuel : Nat) (text : Text) : Text :=
  match fuel, skipBlanks text with
  | fuel + 1, '\n' :: rest => skipLines fuel rest
  | _, rest => rest

/-! Words -/

/-- The text up to a closing bracket that is not inside of quotes or of brackets opened
on the way; `depth` counts those, and `quote` is the quote that is open. -/
def upToClose (openChar close : Char) (depth : Nat) (quote : Option Char) :
    Text → Except Fault (Text × Text)
  | [] => .error .unterminatedQuote
  | c :: rest =>
    let go (depth : Nat) (quote : Option Char) : Except Fault (Text × Text) := do
      let (inner, rest) ← upToClose openChar close depth quote rest
      .ok (c :: inner, rest)
    if c = '\\' && quote ≠ some '\'' then
      match rest with
      | [] => .error .unterminatedQuote
      | d :: rest => do
        let (inner, rest) ← upToClose openChar close depth quote rest
        .ok (c :: d :: inner, rest)
    else if quote.isSome then go depth (if some c = quote then none else quote)
    else if c = '\'' || c = '"' then go depth (some c)
    else if c = close then
      match depth with
      | 0 => .ok ([], rest)
      | depth + 1 => go depth none
    else go (if c = openChar then depth + 1 else depth) none

/-- The text up to a closing backquote; a backslash before a backquote, a dollar or a
backslash is left out. -/
def upToBackquote : Text → Except Fault (Text × Text)
  | [] => .error .unterminatedQuote
  | '`' :: rest => .ok ([], rest)
  | '\\' :: c :: rest => do
    let (inner, rest) ← upToBackquote rest
    .ok (if c = '`' || c = '$' || c = '\\' then c :: inner else '\\' :: c :: inner, rest)
  | c :: rest => do
    let (inner, rest) ← upToBackquote rest
    .ok (c :: inner, rest)

/-- What stands between the name of a parameter in braces and the closing brace. -/
def substituteOf : Text → Except Fault (Option Substitute)
  | [] => .ok none
  | ':' :: '-' :: source => .ok (some (.fallback true source))
  | ':' :: '=' :: source => .ok (some (.assign true source))
  | ':' :: '+' :: source => .ok (some (.alternative true source))
  | '-' :: source => .ok (some (.fallback false source))
  | '=' :: source => .ok (some (.assign false source))
  | '+' :: source => .ok (some (.alternative false source))
  | _ => .error (.unexpected ['\x7d'])

def nameOf : Text → Text × Text
  | c :: rest =>
    if isNameStart c then (c :: rest.takeWhile isNameChar, rest.dropWhile isNameChar)
    else if c.isDigit then (c :: rest.takeWhile Char.isDigit, rest.dropWhile Char.isDigit)
    else if isSpecial c then ([c], rest)
    else ([], c :: rest)
  | [] => ([], [])

def bracedParameter (quoted : Bool) (inner : Text) : Except Fault Part :=
  match inner with
  | '#' :: c :: rest =>
    if isNameStart c || c.isDigit then
      .ok (.parameter (nameOf (c :: rest)).1 (some .length) quoted)
    else .error (.unexpected ['\x7d'])
  | inner => do
    let substitute ← substituteOf (nameOf inner).2
    .ok (.parameter (nameOf inner).1 substitute quoted)

/-- What a dollar stands for, and what follows it. -/
def readDollar (quoted : Bool) : Text → Except Fault (Part × Text)
  | '(' :: '(' :: rest => do
    let (inner, rest) ← upToClose '(' ')' 1 none rest
    .ok (.arithmetic inner.dropLast quoted, rest)
  | '(' :: rest => do
    let (inner, rest) ← upToClose '(' ')' 0 none rest
    .ok (.output inner quoted, rest)
  | '\x7b' :: rest => do
    let (inner, rest) ← upToClose '\x7b' '\x7d' 0 none rest
    .ok (← bracedParameter quoted inner, rest)
  | c :: rest =>
    if isNameStart c then
      .ok (.parameter (c :: rest.takeWhile isNameChar) none quoted, rest.dropWhile isNameChar)
    else if isSpecial c then .ok (.parameter [c] none quoted, rest)
    else .ok (.text ['$'] quoted, c :: rest)
  | [] => .ok (.text ['$'] quoted, [])

/-- Puts a character in front of a word. -/
def onto (c : Char) (quoted : Bool) : Word → Word
  | .text chars q :: parts =>
    if q = quoted then .text (c :: chars) quoted :: parts
    else .text [c] quoted :: .text chars q :: parts
  | parts => .text [c] quoted :: parts

/-- The parts of a text in double quotes, up to `close` if there is one. -/
def readQuoted (fuel : Nat) (close : Option Char) (text : Text) : Except Fault (Word × Text) :=
  match fuel, text with
  | 0, _ => .error .unterminatedQuote
  | _ + 1, [] => if close.isNone then .ok ([], []) else .error .unterminatedQuote
  | fuel + 1, c :: rest =>
    if some c = close then .ok ([], rest)
    else if c = '\\' then
      match rest with
      | '\n' :: rest => readQuoted fuel close rest
      | d :: after =>
        if d = '$' || d = '`' || d = '\\' || some d = close then do
          let (parts, rest) ← readQuoted fuel close after
          .ok (onto d true parts, rest)
        else do
          let (parts, rest) ← readQuoted fuel close rest
          .ok (onto '\\' true parts, rest)
      | [] => .error .unterminatedQuote
    else if c = '$' then do
      let (part, rest) ← readDollar true rest
      let (parts, rest) ← readQuoted fuel close rest
      .ok (part :: parts, rest)
    else if c = '`' then do
      let (source, rest) ← upToBackquote rest
      let (parts, rest) ← readQuoted fuel close rest
      .ok (.output source true :: parts, rest)
    else do
      let (parts, rest) ← readQuoted fuel close rest
      .ok (onto c true parts, rest)

def readWord (fuel : Nat) (text : Text) : Except Fault (Word × Text) :=
  match fuel, text with
  | 0, _ => .error .unterminatedQuote
  | _ + 1, [] => .ok ([], [])
  | fuel + 1, c :: rest =>
    if isBlank c || isOperator c then .ok ([], c :: rest)
    else if c = '\'' then
      match rest.dropWhile (· ≠ '\'') with
      | [] => .error .unterminatedQuote
      | _ :: after => do
        let (parts, rest') ← readWord fuel after
        .ok (.text (rest.takeWhile (· ≠ '\'')) true :: parts, rest')
    else if c = '"' then do
      let (quoted, rest) ← readQuoted (rest.length + 1) (some '"') rest
      let (parts, rest) ← readWord fuel rest
      .ok ((if quoted.isEmpty then [.text [] true] else quoted) ++ parts, rest)
    else if c = '\\' then
      match rest with
      | '\n' :: rest => readWord fuel rest
      | d :: rest => do
        let (parts, rest) ← readWord fuel rest
        .ok (onto d true parts, rest)
      | [] => .ok ([.text ['\\'] true], [])
    else if c = '$' then do
      let (part, rest) ← readDollar false rest
      let (parts, rest) ← readWord fuel rest
      .ok (part :: parts, rest)
    else if c = '`' then do
      let (source, rest) ← upToBackquote rest
      let (parts, rest) ← readWord fuel rest
      .ok (.output source false :: parts, rest)
    else do
      let (parts, rest) ← readWord fuel rest
      .ok (onto c false parts, rest)

def word (text : Text) : Except Fault (Word × Text) := readWord (text.length + 1) text

/-! Redirections -/

def cutLine (text : Text) : Text × Text :=
  (text.takeWhile (· ≠ '\n'), (text.dropWhile (· ≠ '\n')).drop 1)

/-- The lines of a document up to its last line, and the text after that. `fuel` bounds
how many. -/
def documentLines (fuel : Nat) (dropTabs : Bool) (last : Text) (text : Text) : Text × Text :=
  match fuel, text with
  | 0, text => ([], text)
  | _ + 1, [] => ([], [])
  | fuel + 1, text =>
    let (line, rest) := cutLine text
    let line := if dropTabs then line.dropWhile (· = '\t') else line
    if line = last then ([], rest)
    else
      let (lines, rest) := documentLines fuel dropTabs last rest
      (line ++ '\n' :: lines, rest)

/-- The text of a word without its quotes, and whether it had any. -/
def unquote (w : Word) : Text × Bool :=
  (w.flatMap fun
      | .text chars _ => chars
      | .parameter name _ _ => '$' :: name
      | _ => [],
    w.any fun
      | .text _ quoted => quoted
      | _ => false)

/-- A document after the word that ends it; its lines start on the next line. -/
def readDocument (dropTabs : Bool) (descriptor : Nat) (text : Text) : Except Fault (Redirect × Text) := do
  let (w, rest) ← word (skipBlanks text)
  let (last, quoted) := unquote w
  let (line, after) := cutLine rest
  let (contents, after) := documentLines (after.length + 1) dropTabs last after
  let body ← if quoted then .ok ([.text contents true], [])
    else readQuoted (contents.length + 1) none contents
  .ok (⟨descriptor, .document, body.1⟩, line ++ '\n' :: after)

def readTarget (descriptor : Nat) (kind : RedirectKind) (text : Text) : Except Fault (Redirect × Text) := do
  let (target, rest) ← word (skipBlanks text)
  if target.isEmpty then .error (.unexpected (if rest.isEmpty then [] else rest.take 1))
  else .ok (⟨descriptor, kind, target⟩, rest)

/-- A redirection, if one stands here. -/
def readRedirect? (text : Text) : Except Fault (Option (Redirect × Text)) :=
  let digits := text.takeWhile Char.isDigit
  let number (standard : Nat) : Nat :=
    if digits.isEmpty then standard else digits.foldl (fun n d => n * 10 + (d.toNat - 48)) 0
  match text.dropWhile Char.isDigit with
  | '<' :: '<' :: '-' :: rest => (readDocument true (number 0) rest).map some
  | '<' :: '<' :: rest => (readDocument false (number 0) rest).map some
  | '<' :: '&' :: rest => (readTarget (number 0) .duplicate rest).map some
  | '<' :: rest => (readTarget (number 0) .read rest).map some
  | '>' :: '>' :: rest => (readTarget (number 1) .append rest).map some
  | '>' :: '&' :: rest => (readTarget (number 1) .duplicate rest).map some
  | '>' :: '|' :: rest => (readTarget (number 1) .write rest).map some
  | '>' :: rest => (readTarget (number 1) .write rest).map some
  | _ => .ok none

def readRedirects (fuel : Nat) (text : Text) : Except Fault (List Redirect × Text) :=
  match fuel with
  | 0 => .ok ([], text)
  | fuel + 1 => do
    match ← readRedirect? (skipBlanks text) with
    | none => .ok ([], skipBlanks text)
    | some (redirect, rest) =>
      let (redirects, rest) ← readRedirects fuel rest
      .ok (redirect :: redirects, rest)

/-! Commands -/

/-- Words that end a list of commands. -/
def closers : List Text :=
  ["then", "elif", "else", "fi", "do", "done", "esac", "\x7d"].map ofString

/-- The plain word at the start of a text. -/
def plainWord (text : Text) : Text :=
  text.takeWhile fun c => !(isBlank c || isOperator c)

/-- Whether no command starts here. -/
def atClose (text : Text) : Bool :=
  match text with
  | [] => true
  | ')' :: _ => true
  | ';' :: ';' :: _ => true
  | text => closers.contains (plainWord text)

/-- The text after an expected word. -/
def expectWord (expected : String) (text : Text) : Except Fault Text :=
  let found := plainWord text
  if found = ofString expected then .ok (text.drop found.length)
  else if text.isEmpty then .error .unexpectedEnd
  else .error (.unexpected (if found.isEmpty then text.take 1 else found))

/-- An assignment at the start of a text: its name, and what follows the equals sign. -/
def assignment? (text : Text) : Option (Text × Text) :=
  match text with
  | c :: _ =>
    if isNameStart c then
      match text.dropWhile isNameChar with
      | '=' :: rest => some (text.takeWhile isNameChar, rest)
      | _ => none
    else none
  | [] => none

/-- Reads the assignments, words and redirections of a simple command. -/
def readSimple (fuel : Nat) (assignments : List (Text × Word)) (words : List Word)
    (redirects : List Redirect) (text : Text) :
    Except Fault ((List (Text × Word) × List Word × List Redirect) × Text) :=
  match fuel with
  | 0 => .error .unexpectedEnd
  | fuel + 1 => do
    let text := skipBlanks text
    match ← readRedirect? text with
    | some (redirect, rest) => readSimple fuel assignments words (redirect :: redirects) rest
    | none =>
      match if words.isEmpty then assignment? text else none with
      | some (name, rest) => do
        let (value, rest) ← word rest
        readSimple fuel ((name, value) :: assignments) words redirects rest
      | none => do
        let (w, rest) ← word text
        if w.isEmpty then .ok ((assignments.reverse, words.reverse, redirects.reverse), rest)
        else readSimple fuel assignments (w :: words) redirects rest

/-- The items of a loop, up to the end of the line. -/
def readItems (fuel : Nat) (text : Text) : Except Fault (List Word × Text) :=
  match fuel with
  | 0 => .error .unexpectedEnd
  | fuel + 1 => do
    let (w, rest) ← word (skipBlanks text)
    if w.isEmpty then .ok ([], rest)
    else
      let (items, rest) ← readItems fuel rest
      .ok (w :: items, rest)

def readPatterns (fuel : Nat) (text : Text) : Except Fault (List Word × Text) :=
  match fuel with
  | 0 => .error .unexpectedEnd
  | fuel + 1 => do
    let (w, rest) ← word (skipBlanks text)
    match skipBlanks rest with
    | '|' :: rest => do
      let (patterns, rest) ← readPatterns fuel rest
      .ok (w :: patterns, rest)
    | ')' :: rest => .ok ([w], rest)
    | [] => .error .unexpectedEnd
    | c :: _ => .error (.unexpected [c])

def withRedirects (line : Nat) (c : Command) (redirects : List Redirect) : Command :=
  if redirects.isEmpty then c else .redirected line c redirects

mutual

/-- Reads commands up to a word that closes them. `lines` is how many line ends the
whole script has. -/
def readList (fuel lines : Nat) (text : Text) : Except Fault (Command × Text) :=
  match fuel with
  | 0 => .error .unexpectedEnd
  | fuel + 1 =>
    let text := skipLines text.length text
    if atClose text then .ok (.nothing, text)
    else do
      let (first, rest) ← readLogic fuel lines text
      match skipBlanks rest with
      | '\n' :: rest => do
        let (second, rest) ← readList fuel lines rest
        .ok (.sequence first second, rest)
      | ';' :: ';' :: rest => .ok (first, ';' :: ';' :: rest)
      | ';' :: rest => do
        let (second, rest) ← readList fuel lines rest
        .ok (.sequence first second, rest)
      | '&' :: rest => do
        let (second, rest) ← readList fuel lines rest
        .ok (.sequence (.subshell first) second, rest)
      | rest =>
        if atClose rest then .ok (first, rest) else .error (.unexpected (rest.take 1))

/-- Reads pipelines joined by `&&` and `||`. -/
def readLogic (fuel lines : Nat) (text : Text) : Except Fault (Command × Text) :=
  match fuel with
  | 0 => .error .unexpectedEnd
  | fuel + 1 => do
    let (first, rest) ← readPipeline fuel lines text
    readLogicRest fuel lines first rest

/-- Reads what is joined to a pipeline. -/
def readLogicRest (fuel lines : Nat) (first : Command) (text : Text) : Except Fault (Command × Text) :=
  match fuel with
  | 0 => .error .unexpectedEnd
  | fuel + 1 =>
    match skipBlanks text with
    | '&' :: '&' :: rest => do
      let (second, rest) ← readPipeline fuel lines (skipLines rest.length rest)
      readLogicRest fuel lines (.both first second) rest
    | '|' :: '|' :: rest => do
      let (second, rest) ← readPipeline fuel lines (skipLines rest.length rest)
      readLogicRest fuel lines (.either first second) rest
    | rest => .ok (first, rest)

def readPipeline (fuel lines : Nat) (text : Text) : Except Fault (Command × Text) :=
  match fuel with
  | 0 => .error .unexpectedEnd
  | fuel + 1 =>
    let text := skipBlanks text
    if plainWord text = ['!'] then do
      let (c, rest) ← readPipeline fuel lines (text.drop 1)
      .ok (.negate c, rest)
    else do
      let (first, rest) ← readCommand fuel lines text
      match skipBlanks rest with
      | '|' :: '|' :: rest => .ok (first, '|' :: '|' :: rest)
      | '|' :: rest => do
        let (second, rest) ← readPipeline fuel lines (skipLines rest.length rest)
        .ok (.pipe first second, rest)
      | rest => .ok (first, rest)

def readCommand (fuel lines : Nat) (text : Text) : Except Fault (Command × Text) :=
  match fuel with
  | 0 => .error .unexpectedEnd
  | fuel + 1 =>
    let line := 1 + (lines - text.count '\n')
    let close (read : Except Fault (Command × Text)) : Except Fault (Command × Text) := do
      let (c, rest) ← read
      let (redirects, rest) ← readRedirects rest.length rest
      .ok (withRedirects line c redirects, rest)
    let keyword := plainWord text
    let rest := text.drop keyword.length
    match text with
    | '(' :: rest => close do
      let (body, rest) ← readList fuel lines rest
      .ok (.subshell body, ← expectClose rest)
    | _ =>
      if keyword = ['\x7b'] then close do
        let (body, rest) ← readList fuel lines rest
        .ok (body, ← expectWord "\x7d" rest)
      else if keyword = ofString "if" then close (readBranch fuel lines rest)
      else if keyword = ofString "while" || keyword = ofString "until" then close do
        let (condition, rest) ← readList fuel lines rest
        let (body, rest) ← readList fuel lines (← expectWord "do" rest)
        .ok (.loop (keyword = ofString "until") condition body, ← expectWord "done" rest)
      else if keyword = ofString "for" then close (readEach fuel lines (skipBlanks rest))
      else if keyword = ofString "case" then close do
        let (subject, rest) ← word (skipBlanks rest)
        let rest ← expectWord "in" (skipLines rest.length rest)
        let (arms, rest) ← readArms fuel lines rest
        .ok (.choose subject arms, rest)
      else if closers.contains keyword then .error (.unexpected keyword)
      else
        match (nameOf text).2 with
        | '(' :: ')' :: rest => do
          if (nameOf text).1.isEmpty then .error (.unexpected ['('])
          else
            let (body, rest) ← readCommand fuel lines (skipLines rest.length rest)
            .ok (.define (nameOf text).1 body, rest)
        | _ => do
          let ((assignments, words, redirects), rest) ← readSimple (text.length + 1) [] [] [] text
          if assignments.isEmpty && words.isEmpty && redirects.isEmpty then
            .error (if rest.isEmpty then .unexpectedEnd else .unexpected (rest.take 1))
          else .ok (withRedirects line (.simple line assignments words) redirects, rest)

def expectClose (text : Text) : Except Fault Text :=
  match text with
  | ')' :: rest => .ok rest
  | [] => .error .unexpectedEnd
  | text => .error (.unexpected (plainWord text))

/-- Reads a branch after `if` or `elif`. -/
def readBranch (fuel lines : Nat) (text : Text) : Except Fault (Command × Text) :=
  match fuel with
  | 0 => .error .unexpectedEnd
  | fuel + 1 => do
    let (condition, rest) ← readList fuel lines text
    let (yes, rest) ← readList fuel lines (← expectWord "then" rest)
    let keyword := plainWord rest
    if keyword = ofString "elif" then
      let (no, rest) ← readBranch fuel lines (rest.drop 4)
      .ok (.branch condition yes no, rest)
    else if keyword = ofString "else" then
      let (no, rest) ← readList fuel lines (rest.drop 4)
      .ok (.branch condition yes no, ← expectWord "fi" rest)
    else .ok (.branch condition yes .nothing, ← expectWord "fi" rest)

/-- Reads a loop after `for`. Without items it is over the arguments. -/
def readEach (fuel lines : Nat) (text : Text) : Except Fault (Command × Text) :=
  match fuel with
  | 0 => .error .unexpectedEnd
  | fuel + 1 => do
    let name := text.takeWhile isNameChar
    let rest := skipLines text.length (text.drop name.length)
    let (items, rest) ←
      if plainWord rest = ofString "in" then readItems rest.length (rest.drop 2)
      else .ok ([[.parameter ['@'] none true]], rest)
    let rest := match skipBlanks rest with
      | ';' :: rest => rest
      | rest => rest
    let (body, rest) ← readList fuel lines (← expectWord "do" (skipLines rest.length rest))
    .ok (.each name items body, ← expectWord "done" rest)

/-- Reads arms up to `esac`. -/
def readArms (fuel lines : Nat) (text : Text) : Except Fault (List (List Word × Command) × Text) :=
  match fuel with
  | 0 => .error .unexpectedEnd
  | fuel + 1 =>
    let text := skipLines text.length text
    if plainWord text = ofString "esac" then .ok ([], text.drop 4)
    else do
      let (patterns, rest) ← readPatterns text.length (if text.head? = some '(' then text.drop 1 else text)
      let (body, rest) ← readList fuel lines rest
      match rest with
      | ';' :: ';' :: rest => do
        let (arms, rest) ← readArms fuel lines rest
        .ok ((patterns, body) :: arms, rest)
      | rest => do
        .ok ([(patterns, body)], ← expectWord "esac" rest)

end

/-- Reads the next complete command, up to the end of its line. -/
def readNext (lines : Nat) (text : Text) : Except Fault (Option (Command × Text)) :=
  let text := skipLines text.length text
  if text.isEmpty then .ok none
  else do
    let (c, rest) ← readLogic (8 * text.length + 8) lines text
    match skipBlanks rest with
    | [] => .ok (some (c, []))
    | '\n' :: rest => .ok (some (c, rest))
    | ';' :: ';' :: _ => .error (.unexpected [';', ';'])
    | ';' :: rest => .ok (some (c, rest))
    | '&' :: rest => .ok (some (.subshell c, rest))
    | rest => .error (.unexpected (rest.take 1))

end RoutineWatch.Script
