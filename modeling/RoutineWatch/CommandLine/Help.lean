import RoutineWatch.CommandLine.Basic

/-!
# Help and version texts

The texts that are printed when help or the version is asked for, and what is said of a
command line that is refused.
-/
namespace RoutineWatch.Help

def program : String := "libm-ci"

def version : String := "0.1.0"

def about : String :=
  "CI helper that scopes exhaustive libm tests to the routines a change touches"

/-- The variable that can name the configuration. -/
def configVariable : String := "LIBM_CI_CONFIG"

def helpCommand : String := "help"

def helpAbout : String := "Print this message or the help of the given subcommand(s)"

/-- Rows of two columns, the second one in line. -/
def columns (rows : List (String × String)) : List String :=
  let width := (rows.map (·.1.length)).foldl max 0
  rows.map fun row =>
    "  " ++ row.1 ++ String.ofList (List.replicate (width - row.1.length) ' ') ++ "  " ++ row.2

/-- The rows of options, the flags of a command among them. -/
def optionRows (configValue : Option String) (flags : List Flag) : List (String × String) :=
  [("-C, --config <CONFIG>",
    "Use specific config file [env: " ++ configVariable ++ "=" ++ configValue.getD "" ++ "]")] ++
  flags.map (fun f => ("    --" ++ f.name, f.about)) ++
  [("-h, --help", "Print help"), ("-V, --version", "Print version")]

/-- Paragraphs with empty lines between them. -/
def paragraphs (parts : List (List String)) : String :=
  String.intercalate "\n" (parts.map fun lines => String.join (lines.map (· ++ "\n")))

def main (configValue : Option String) : String :=
  paragraphs [
    [about],
    ["Usage: " ++ program ++ " [OPTIONS] <COMMAND>"],
    "Commands:" :: columns
      (CommandShape.all.map (fun c => (c.name, c.about)) ++ [(helpCommand, helpAbout)]),
    "Options:" :: columns (optionRows configValue [])]

def command (configValue : Option String) (c : CommandShape) : String :=
  paragraphs [
    [c.about],
    ["Usage: " ++ program ++ " " ++ c.name ++ " [OPTIONS]"],
    "Options:" :: columns (optionRows configValue c.flags)]

def ofHelp : String :=
  paragraphs [
    [helpAbout],
    ["Usage: " ++ program ++ " " ++ helpCommand ++ " [COMMAND]..."],
    ["Arguments:", "  [COMMAND]...  Print help for the subcommand(s)"]]

def mainVersion : String := program ++ " " ++ version ++ "\n"

def commandVersion (c : CommandShape) : String :=
  program ++ "-" ++ c.name ++ " " ++ version ++ "\n"

end RoutineWatch.Help

namespace RoutineWatch.UsageFault

/-- What is said of a command line that is refused. -/
def message (configValue : Option String) : UsageFault → String
  | .nothingGiven => Help.main configValue
  | .missingSubcommand => "error: '" ++ Help.program ++ "' requires a subcommand but one was not provided\n"
  | .invalidSubcommand => "error: unrecognized subcommand\n"
  | .unknownArgument => "error: unexpected argument found\n"
  | .argumentConflict => "error: the argument cannot be used multiple times\n"
  | .invalidValue => "error: a value is required but none was supplied\n"
  | .tooManyValues => "error: unexpected value for an argument found; no more were expected\n"
  | .missingRequired =>
    "error: the following required arguments were not provided:\n  --" ++
      CommandShape.downloadFlag.name ++ "\n"

end RoutineWatch.UsageFault
