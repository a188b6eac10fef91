import RoutineWatch.Error
import RoutineWatch.Extraction
import RoutineWatch.Ordered.Set
import RoutineWatch.Toml.Assembly

/-!
# The configuration

The configuration. Every field has a default, so every section and the whole file may
be missing; a file that is there states its version first of all. Unknown fields of a
section are refused, unknown sections only warned about.

- `Config.parse`: the configuration of a text.
- `Config.warnings`: what is said of names that are not known.

Specification, § 10.9.
-/
namespace RoutineWatch

/-- Which changes count, and where the registry is kept. -/
structure MatrixConfig where
  ignore : List String := ["src/math/support/", "src/libm_helper.rs", "src/math/arch/intrinsics.rs"]
  definitions : Path := Path.ofString "etc/function-definitions.json"
deriving DecidableEq, Repr

/-- What the public functions are read from, and where their list is kept. -/
structure ApiConfig where
  reexportModules : List String := ["src/lib.rs", "src/math/mod.rs"]
  archDir : String := "src/math/arch"
  genericMarker : String := "generic"
  functionList : Path := Path.ofString "etc/function-list.txt"
  docArguments : List String := [
    "src/lib.rs",
    "--edition=2021",
    "--document-private-items",
    "--output-format=json",
    "--cfg=f16_enabled",
    "--cfg=f128_enabled",
    "-Zunstable-options",
    "-o-"]
deriving DecidableEq, Repr

/-- What extraction needs of the configuration. -/
def ApiConfig.rule (api : ApiConfig) : ExtractionRule := ⟨api.reexportModules, api.genericMarker⟩

/-- Where benchmark baselines come from. -/
structure BaselineConfig where
  branch : String := "master"
  workflow : String := "CI"
  artifactGlob : String := "baseline-icount*"
deriving DecidableEq, Repr

structure Config where
  version : Int := supportedVersion
  matrix : MatrixConfig := {}
  api : ApiConfig := {}
  baseline : BaselineConfig := {}
  /-- Names of sections and fields outside the known ones. -/
  unknown : TextSet := TextSet.empty
deriving DecidableEq

namespace Config

def fileName : String := "libm-ci.toml"

/-! Fields -/

def readText : Toml → Except Mismatch String
  | .string text => .ok text
  | value => .error (.wrongType value.found "a string")

def readPath : Toml → Except Mismatch Path
  | .string text => .ok (Path.ofString text)
  | value => .error (.wrongType value.found "path string")

def readTexts : Toml → Except Mismatch (List String)
  | .array items => items.mapM readText
  | value => .error (.wrongType value.found "a sequence")

/-- A section: its name in messages, and its fields in order, each with a reader that
puts its value in place. -/
structure Shape (σ : Type) where
  expected : String
  fields : List (String × (σ → Toml → Except Mismatch σ))

namespace Shape
variable {σ : Type}

/-- Reads an entry of a section's table. -/
def readEntry (shape : Shape σ) (start : σ) (entry : String × Toml) : Except Mismatch σ :=
  match shape.fields.find? fun f => f.1 = entry.1 with
  | some (_, read) => read start entry.2
  | none => .error (.unknownField entry.1 (shape.fields.map (·.1)))

/-- Reads a list of field values in order; a shorter list leaves fields as they are and
a longer one has its last items ignored. -/
def readItems (start : σ) : List (String × (σ → Toml → Except Mismatch σ)) → List Toml →
    Except Mismatch σ
  | (_, read) :: fields, item :: items => do readItems (← read start item) fields items
  | _, _ => .ok start

/-- Reads a section over its defaults. -/
def read (shape : Shape σ) (start : σ) : Toml → Except Mismatch σ
  | .table entries => entries.foldlM shape.readEntry start
  | .array items => readItems start shape.fields items
  | .datetime text => shape.readEntry start (Toml.datetimeField, .string text)
  | value => .error (.wrongType value.found shape.expected)

end Shape

def matrixShape : Shape MatrixConfig where
  expected := "struct MatrixConfig"
  fields := [
    ("ignore", fun c v => do .ok { c with ignore := ← readTexts v }),
    ("definitions", fun c v => do .ok { c with definitions := ← readPath v })]

def apiShape : Shape ApiConfig where
  expected := "struct ApiConfig"
  fields := [
    ("reexport_modules", fun c v => do .ok { c with reexportModules := ← readTexts v }),
    ("arch_dir", fun c v => do .ok { c with archDir := ← readText v }),
    ("generic_marker", fun c v => do .ok { c with genericMarker := ← readText v }),
    ("function_list", fun c v => do .ok { c with functionList := ← readPath v }),
    ("rustdoc_args", fun c v => do .ok { c with docArguments := ← readTexts v })]

def baselineShape : Shape BaselineConfig where
  expected := "struct BaselineConfig"
  fields := [
    ("branch", fun c v => do .ok { c with branch := ← readText v }),
    ("workflow", fun c v => do .ok { c with workflow := ← readText v }),
    ("artifact_glob", fun c v => do .ok { c with artifactGlob := ← readText v })]

def readVersion : Toml → Except Mismatch Int
  | .integer version => .ok version
  | value => .error (.wrongType value.found "i64")

/-! The whole -/

mutual

/-- What keeps a value of an unknown section from being read. The name of the field
that dates show is reserved: a table that starts with it must be a date. -/
def reservedMismatch? : Toml → Option Mismatch
  | .table ((key, value) :: entries) =>
    if key = Toml.datetimeField then
      match value with
      | .string text =>
        if (Toml.skipDatetime text.toList) ≠ some [] then
          some (.refused "failed to parse datetime")
        else if entries.isEmpty then none
        else some (.wrongLength (entries.length + 1) "1 element in map")
      | value => some (.wrongType value.found "string containing a datetime")
    else
      match reservedMismatch? value with
      | some mismatch => some mismatch
      | none => reservedEntries? entries
  | .array items => reservedItems? items
  | _ => none

/-- The first mismatch among the values of entries. -/
def reservedEntries? : List (String × Toml) → Option Mismatch
  | [] => none
  | (_, value) :: entries =>
    match reservedMismatch? value with
    | some mismatch => some mismatch
    | none => reservedEntries? entries

/-- The first mismatch among items. -/
def reservedItems? : List Toml → Option Mismatch
  | [] => none
  | value :: items =>
    match reservedMismatch? value with
    | some mismatch => some mismatch
    | none => reservedItems? items

end

/-- Reads a top-level entry over what is known so far. -/
def readTop (config : Config) (entry : String × Toml) : Except Mismatch Config :=
  if entry.1 = "version" then do .ok { config with version := ← readVersion entry.2 }
  else if entry.1 = "matrix" then do
    .ok { config with matrix := ← matrixShape.read config.matrix entry.2 }
  else if entry.1 = "api" then do .ok { config with api := ← apiShape.read config.api entry.2 }
  else if entry.1 = "baseline" then do
    .ok { config with baseline := ← baselineShape.read config.baseline entry.2 }
  else .ok { config with unknown := config.unknown.insert entry.1 }

/-- Reads all entries of a document of the supported version. -/
def ofEntries (entries : List (String × Toml)) : Except Mismatch Config := do
  let config ← entries.foldlM readTop {}
  match reservedEntries? (entries.filter fun e => config.unknown.contains e.1) with
  | some mismatch => .error mismatch
  | none => .ok config

/-- The version a document states. -/
def statedVersion (entries : List (String × Toml)) : Except Mismatch (Option Int) :=
  match entries.find? fun e => e.1 = "version" with
  | none => .ok none
  | some (_, value) => (readVersion value).map some

/-- Reads a configuration from the entries of its document. The version counts before
everything else. -/
def decode (entries : List (String × Toml)) : Except ConfigCause Config :=
  match statedVersion entries with
  | .error mismatch => .error (.undecodable mismatch)
  | .ok none => .error .missingVersion
  | .ok (some version) =>
    if version ≠ supportedVersion then .error (.unsupportedVersion version)
    else (ofEntries entries).mapError .undecodable

def parse (text : String) (path : Path) : Except Error Config :=
  match Toml.parse text with
  | .error mismatch => .error (.config (.undecodable mismatch) (some path))
  | .ok entries => (decode entries).mapError fun cause => .config cause (some path)

/-- What is printed about an unknown name. -/
def warning (path : Path) (key : String) : String :=
  "libm-ci: warning: " ++ path.display ++ ": unrecognized field `" ++ key ++ "` (ignored)"

/-- What is printed about the unknown names of a configuration. -/
def warnings (config : Config) (path : Path) : List String :=
  config.unknown.toList.map (warning path)

end Config

end RoutineWatch
