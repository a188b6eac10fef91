import RoutineWatch.Path
import RoutineWatch.Decode
import RoutineWatch.SystemError

/-!
# Errors and exit statuses

Why a command fails, what it then says, and its exit status.

- `Error.message`: what is said.
- `Error.exitCode`: the status that the program ends with.

Specification, §§ 7 and 10.10.
-/
namespace RoutineWatch

/-- Why the file system refused an operation. -/
inductive IoCause where
  | os (code : Nat)
  | other (text : String)
deriving DecidableEq, Repr

def IoCause.message : IoCause → String
  | .os code => SystemError.text code ++ " (os error " ++ toString code ++ ")"
  | .other text => text

/-- Why a configuration was not accepted. -/
inductive ConfigCause where
  /-- The text does not decode. -/
  | undecodable (mismatch : Mismatch)
  | missingVersion
  | unsupportedVersion (version : Int)
  | notFound (path : Path)
  | other (text : String)
deriving DecidableEq, Repr

/-- The configuration version this program reads. -/
def supportedVersion : Int := 1

def ConfigCause.message : ConfigCause → String
  | .undecodable mismatch => mismatch.message
  | .missingVersion => "missing required field: version"
  | .unsupportedVersion version =>
    "unsupported config version " ++ toString version ++
      " (supported: " ++ toString supportedVersion ++ ")"
  | .notFound path => "config file not found: " ++ path.display
  | .other text => text

inductive Error where
  | config (cause : ConfigCause) (path : Option Path)
  | argument (message : String)
  | io (path : Path) (cause : IoCause)
  /-- A stored file or a tool's output could not be decoded. -/
  | parse (what message : String)
  /-- An external tool did not start or did not succeed. -/
  | tool (program message : String)
  /-- The repository could not be read. -/
  | git (message : String)
  /-- Something outside this program broke what it promises. -/
  | invariant (message : String)
  /-- A checked-in file differs from what would be written. -/
  | drift (path : Path)
  | internal (message : String)
deriving DecidableEq, Repr

inductive ExitCode where
  | success
  | checkFailed
  | configError
  | internalError
deriving DecidableEq, Repr

def ExitCode.value : ExitCode → Nat
  | .success => 0
  | .checkFailed => 1
  | .configError => 2
  | .internalError => 3

namespace Error

def message : Error → String
  | .config cause _ => "config error: " ++ cause.message
  | .argument text => "argument error: " ++ text
  | .io path cause => "io error: " ++ path.display ++ ": " ++ cause.message
  | .parse what text => "parse error: " ++ what ++ ": " ++ text
  | .tool program text => program ++ " failed: " ++ text
  | .git text => "git error: " ++ text
  | .invariant text => "invariant violated: " ++ text
  | .drift path => path.display ++ " is out of date; rerun `libm-ci update-api-list`"
  | .internal text => "internal error: " ++ text

def exitCode : Error → ExitCode
  | .config .. | .argument _ => .configError
  | .drift _ => .checkFailed
  | .io .. | .parse .. | .tool .. | .git _ | .invariant _ | .internal _ => .internalError

end Error

end RoutineWatch
