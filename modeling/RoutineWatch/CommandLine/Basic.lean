import RoutineWatch.Baseline.Lookup

/-!
# What a command line asks for

What a command line asks for: one of the commands with its flags, and the configuration
to use; or a help text; or nothing that there is.

Specification, §§ 6 and 10.13.
-/
namespace RoutineWatch

/-- A command with its flags. -/
inductive Subcommand where
  | generateMatrix
  | locateBaseline (options : Baseline.Options)
  /-- Regenerates the checked-in files, or only compares them. -/
  | updateApiList (check : Bool)
deriving DecidableEq, Repr

structure Invocation where
  config : Option String
  command : Subcommand
deriving DecidableEq, Repr

/-- What is wrong with a command line. -/
inductive UsageFault where
  | nothingGiven
  | missingSubcommand
  | invalidSubcommand
  | unknownArgument
  /-- Something that may be given once is given again. -/
  | argumentConflict
  /-- A value is empty or missing. -/
  | invalidValue
  /-- A flag was given a value. -/
  | tooManyValues
  /-- A flag lacks another one that it needs. -/
  | missingRequired
deriving DecidableEq, Repr

/-- What a command line comes to. -/
inductive Request where
  | run (invocation : Invocation)
  | help (text : String)
  | version (text : String)
  | refuse (fault : UsageFault)
deriving DecidableEq, Repr

structure Flag where
  name : String
  about : String
deriving DecidableEq, Repr

/-- How a command is called. -/
structure CommandShape where
  name : String
  about : String
  flags : List Flag
  /-- The command that flags make. -/
  make : List String → Subcommand

namespace CommandShape

def downloadFlag : Flag := ⟨"download", "Download the baseline artifacts"⟩

def extractFlag : Flag :=
  ⟨"extract", "Extract the newest downloaded archive (overwrites files in place)"⟩

def checkFlag : Flag :=
  ⟨"check", "Compare against the checked-in files instead of overwriting them"⟩

def all : List CommandShape := [
  ⟨"generate-matrix", "Print a matrix of routines whose sources changed, as a workflow output",
    [], fun _ => .generateMatrix⟩,
  ⟨"locate-baseline", "Locate the most recent benchmark baseline from CI",
    [downloadFlag, extractFlag],
    fun given => .locateBaseline ⟨given.contains downloadFlag.name, given.contains extractFlag.name⟩⟩,
  ⟨"update-api-list", "Regenerate the public function list and definitions",
    [checkFlag], fun given => .updateApiList (given.contains checkFlag.name)⟩]

def ofName? (name : String) : Option CommandShape := all.find? fun c => c.name = name

end CommandShape

end RoutineWatch
