import RoutineWatch.Config
import RoutineWatch.Proofs.Decode.Rows

/-!
# Sections of a configuration

A section is read entry by entry over its defaults. It goes through exactly if each entry is
a field with a value of the field's type, and afterwards each field has what its own entry
says, or its default if it has none.

- `Config.Shape.exists_read_eq_ok_iff`: which tables are read.
- `Config.matrixOverlay_of_read`, `Config.apiOverlay_of_read`,
  `Config.baselineOverlay_of_read`: what they are read as.
-/
namespace RoutineWatch.Config

/-! Values of fields -/

/-- A value is a text. -/
def IsText (v : Toml) (text : String) : Prop := v = .string text

/-- A value is a text that stands for a path. -/
def IsPath (v : Toml) (path : Path) : Prop := ∃ text, v = .string text ∧ path = Path.ofString text

/-- A value is a list of texts. -/
def AreTexts (v : Toml) (texts : List String) : Prop := v = .array (texts.map .string)

theorem readText_eq_ok_iff {v : Toml} {text : String} : readText v = .ok text ↔ IsText v text := by
  unfold IsText
  cases v <;> simp [readText]

theorem readPath_eq_ok_iff {v : Toml} {path : Path} : readPath v = .ok path ↔ IsPath v path := by
  unfold IsPath
  cases v <;> simp [readPath, eq_comm]

/-- Every text stands for a path. -/
theorem exists_isPath_iff {v : Toml} : (∃ path, IsPath v path) ↔ ∃ text, IsText v text := by
  unfold IsPath IsText
  simp

theorem readTexts_eq_ok_iff {v : Toml} {texts : List String} :
    readTexts v = .ok texts ↔ AreTexts v texts := by
  unfold AreTexts
  cases v with
  | array items =>
    rw [readTexts, mapM_eq_ok_iff, Toml.array.injEq, ← List.forall₂_eq_eq_eq,
      List.forall₂_map_right_iff]
    simp only [readText_eq_ok_iff, IsText]
  | string | integer | real | boolean | datetime | table => simp [readTexts]

/-- What a document has to give for a field. -/
inductive FieldType where
  | text
  | texts
deriving DecidableEq, Repr

/-- A value has the type of a field. -/
def FieldType.Holds : FieldType → Toml → Prop
  | .text, v => ∃ text, IsText v text
  | .texts, v => ∃ texts, AreTexts v texts

/-- Every key is a field, and has a value of the field's type. -/
def Fits (fields : List (String × FieldType)) (entries : List (String × Toml)) : Prop :=
  ∀ e ∈ entries, ∃ field ∈ fields, field.1 = e.1 ∧ field.2.Holds e.2

/-! Shapes -/

namespace Shape
variable {σ α : Type} {shape : Shape σ}

theorem readEntry_eq_ok_iff (once : (shape.fields.map (·.1)).Nodup) {c c' : σ} {e : String × Toml} :
    shape.readEntry c e = .ok c' ↔
      ∃ field ∈ shape.fields, field.1 = e.1 ∧ field.2 c e.2 = .ok c' := by
  unfold readEntry
  constructor
  · intro read
    split at read
    · next key reader found =>
      have same : key = e.1 := by simpa using List.find?_some found
      exact ⟨(key, reader), List.mem_of_find?_eq_some found, same, read⟩
    · cases read
  · intro field
    obtain ⟨⟨key, reader⟩, listed, same, read⟩ := field
    rw [← same, find?_of_once once listed]
    exact read

variable {entries : List (String × Toml)} {start last : σ}

/-- A table is read exactly if each of its entries is taken. -/
theorem exists_read_eq_ok_iff {taken : String × Toml → Prop}
    (each : ∀ e c, (∃ c', shape.readEntry c e = .ok c') ↔ taken e) :
    (∃ c, shape.read start (.table entries) = .ok c) ↔ ∀ e ∈ entries, taken e :=
  exists_foldlM_eq_ok_iff fun e _ => each e

/-- An entry decides a place of a section if it has the key of this place, and leaves it as it is
if it has another one. -/
def Puts (means : Toml → α → Prop) (key : String) (place : σ → α) (e : String × Toml)
    (c c' : σ) : Prop :=
  if e.1 = key then means e.2 (place c') else place c' = place c

/-- A place has the value of its field, or what it had before. -/
theorem given_of_read {place : σ → α} {key : String} {means : Toml → α → Prop}
    (puts : ∀ {e c c'}, shape.readEntry c e = .ok c' → Puts means key place e c c')
    (once : (entries.map (·.1)).Nodup) (read : shape.read start (.table entries) = .ok last) :
    Given means (place start) entries key (place last) := by
  apply foldlM_given place ?_ read once
  · intro v _ c c' stepped _
    simpa [Puts] using puts stepped
  · intro e c c' stepped other
    simpa [Puts, other] using puts stepped

end Shape

/-! The sections -/

theorem bind_ok_eq_ok_iff {α β ε : Type} {x : Except ε α} {f : α → β} {b : β} :
    (x >>= fun a => Except.ok (f a)) = .ok b ↔ ∃ a, x = .ok a ∧ b = f a := by
  cases x <;> simp [bind, Except.bind, eq_comm]

section
variable {c c' start : MatrixConfig} {e : String × Toml} {entries : List (String × Toml)}

def matrixFields : List (String × FieldType) := [("ignore", .texts), ("definitions", .text)]

/-- A section is its defaults, overlaid with its entries. -/
structure MatrixOverlay (entries : List (String × Toml)) (c : MatrixConfig) : Prop where
  ignore : Given AreTexts ({} : MatrixConfig).ignore entries "ignore" c.ignore
  definitions : Given IsPath ({} : MatrixConfig).definitions entries "definitions" c.definitions

theorem matrix_readEntry_iff : matrixShape.readEntry c e = .ok c' ↔
    ("ignore" = e.1 ∧ ∃ texts, AreTexts e.2 texts ∧ c' = { c with ignore := texts }) ∨
    ("definitions" = e.1 ∧ ∃ path, IsPath e.2 path ∧ c' = { c with definitions := path }) := by
  rw [Shape.readEntry_eq_ok_iff (by decide)]
  simp [matrixShape, bind_ok_eq_ok_iff, readTexts_eq_ok_iff, readPath_eq_ok_iff]

theorem matrix_puts (step : matrixShape.readEntry c e = .ok c') :
    Shape.Puts AreTexts "ignore" (·.ignore) e c c' ∧
    Shape.Puts IsPath "definitions" (·.definitions) e c c' := by
  rcases matrix_readEntry_iff.1 step with ⟨same, _, own, rfl⟩ | ⟨same, _, own, rfl⟩ <;>
    simp [Shape.Puts, ← same, own]

theorem matrix_fits_iff : (∃ c, matrixShape.read start (.table entries) = .ok c) ↔
    Fits matrixFields entries := by
  apply Shape.exists_read_eq_ok_iff
  intro e c
  simp [matrix_readEntry_iff, exists_or, matrixFields, FieldType.Holds, exists_isPath_iff]

theorem matrixOverlay_of_read (once : (entries.map (·.1)).Nodup)
    (read : matrixShape.read {} (.table entries) = .ok c) : MatrixOverlay entries c where
  ignore := Shape.given_of_read (fun step => (matrix_puts step).1) once read
  definitions := Shape.given_of_read (fun step => (matrix_puts step).2) once read

end

section
variable {c c' start : ApiConfig} {e : String × Toml} {entries : List (String × Toml)}

def apiFields : List (String × FieldType) :=
  [("reexport_modules", .texts), ("arch_dir", .text), ("generic_marker", .text),
    ("function_list", .text), ("rustdoc_args", .texts)]

/-- A section is its defaults, overlaid with its entries. -/
structure ApiOverlay (entries : List (String × Toml)) (c : ApiConfig) : Prop where
  reexportModules : Given AreTexts ({} : ApiConfig).reexportModules entries "reexport_modules"
    c.reexportModules
  archDir : Given IsText ({} : ApiConfig).archDir entries "arch_dir" c.archDir
  genericMarker : Given IsText ({} : ApiConfig).genericMarker entries "generic_marker"
    c.genericMarker
  functionList : Given IsPath ({} : ApiConfig).functionList entries "function_list" c.functionList
  docArguments : Given AreTexts ({} : ApiConfig).docArguments entries "rustdoc_args" c.docArguments

theorem api_readEntry_iff : apiShape.readEntry c e = .ok c' ↔
    ("reexport_modules" = e.1 ∧
      ∃ texts, AreTexts e.2 texts ∧ c' = { c with reexportModules := texts }) ∨
    ("arch_dir" = e.1 ∧ ∃ text, IsText e.2 text ∧ c' = { c with archDir := text }) ∨
    ("generic_marker" = e.1 ∧ ∃ text, IsText e.2 text ∧ c' = { c with genericMarker := text }) ∨
    ("function_list" = e.1 ∧ ∃ path, IsPath e.2 path ∧ c' = { c with functionList := path }) ∨
    ("rustdoc_args" = e.1 ∧
      ∃ texts, AreTexts e.2 texts ∧ c' = { c with docArguments := texts }) := by
  rw [Shape.readEntry_eq_ok_iff (by decide)]
  simp [apiShape, bind_ok_eq_ok_iff, readText_eq_ok_iff, readTexts_eq_ok_iff, readPath_eq_ok_iff]

theorem api_puts (step : apiShape.readEntry c e = .ok c') :
    Shape.Puts AreTexts "reexport_modules" (·.reexportModules) e c c' ∧
    Shape.Puts IsText "arch_dir" (·.archDir) e c c' ∧
    Shape.Puts IsText "generic_marker" (·.genericMarker) e c c' ∧
    Shape.Puts IsPath "function_list" (·.functionList) e c c' ∧
    Shape.Puts AreTexts "rustdoc_args" (·.docArguments) e c c' := by
  rcases api_readEntry_iff.1 step with ⟨same, _, own, rfl⟩ | ⟨same, _, own, rfl⟩ |
    ⟨same, _, own, rfl⟩ | ⟨same, _, own, rfl⟩ | ⟨same, _, own, rfl⟩ <;>
    simp [Shape.Puts, ← same, own]

theorem api_fits_iff : (∃ c, apiShape.read start (.table entries) = .ok c) ↔
    Fits apiFields entries := by
  apply Shape.exists_read_eq_ok_iff
  intro e c
  simp [api_readEntry_iff, exists_or, apiFields, FieldType.Holds, exists_isPath_iff]

theorem apiOverlay_of_read (once : (entries.map (·.1)).Nodup)
    (read : apiShape.read {} (.table entries) = .ok c) : ApiOverlay entries c where
  reexportModules := Shape.given_of_read (fun step => (api_puts step).1) once read
  archDir := Shape.given_of_read (fun step => (api_puts step).2.1) once read
  genericMarker := Shape.given_of_read (fun step => (api_puts step).2.2.1) once read
  functionList := Shape.given_of_read (fun step => (api_puts step).2.2.2.1) once read
  docArguments := Shape.given_of_read (fun step => (api_puts step).2.2.2.2) once read

end

section
variable {c c' start : BaselineConfig} {e : String × Toml} {entries : List (String × Toml)}

def baselineFields : List (String × FieldType) :=
  [("branch", .text), ("workflow", .text), ("artifact_glob", .text)]

/-- A section is its defaults, overlaid with its entries. -/
structure BaselineOverlay (entries : List (String × Toml)) (c : BaselineConfig) : Prop where
  branch : Given IsText ({} : BaselineConfig).branch entries "branch" c.branch
  workflow : Given IsText ({} : BaselineConfig).workflow entries "workflow" c.workflow
  artifactGlob : Given IsText ({} : BaselineConfig).artifactGlob entries "artifact_glob"
    c.artifactGlob

theorem baseline_readEntry_iff : baselineShape.readEntry c e = .ok c' ↔
    ("branch" = e.1 ∧ ∃ text, IsText e.2 text ∧ c' = { c with branch := text }) ∨
    ("workflow" = e.1 ∧ ∃ text, IsText e.2 text ∧ c' = { c with workflow := text }) ∨
    ("artifact_glob" = e.1 ∧ ∃ text, IsText e.2 text ∧ c' = { c with artifactGlob := text }) := by
  rw [Shape.readEntry_eq_ok_iff (by decide)]
  simp [baselineShape, bind_ok_eq_ok_iff, readText_eq_ok_iff]

theorem baseline_puts (step : baselineShape.readEntry c e = .ok c') :
    Shape.Puts IsText "branch" (·.branch) e c c' ∧
    Shape.Puts IsText "workflow" (·.workflow) e c c' ∧
    Shape.Puts IsText "artifact_glob" (·.artifactGlob) e c c' := by
  rcases baseline_readEntry_iff.1 step with ⟨same, _, own, rfl⟩ | ⟨same, _, own, rfl⟩ |
    ⟨same, _, own, rfl⟩ <;>
    simp [Shape.Puts, ← same, own]

theorem baseline_fits_iff : (∃ c, baselineShape.read start (.table entries) = .ok c) ↔
    Fits baselineFields entries := by
  apply Shape.exists_read_eq_ok_iff
  intro e c
  simp [baseline_readEntry_iff, exists_or, baselineFields, FieldType.Holds]

theorem baselineOverlay_of_read (once : (entries.map (·.1)).Nodup)
    (read : baselineShape.read {} (.table entries) = .ok c) : BaselineOverlay entries c where
  branch := Shape.given_of_read (fun step => (baseline_puts step).1) once read
  workflow := Shape.given_of_read (fun step => (baseline_puts step).2.1) once read
  artifactGlob := Shape.given_of_read (fun step => (baseline_puts step).2.2) once read

end

end RoutineWatch.Config
