import Mathlib
import RoutineWatch.Proofs.Config.Sections
import RoutineWatch.Proofs.Text.ByteOrder
import RoutineWatch.Proofs.Toml.Keys
import RoutineWatch.Workspace

/-!
# A configuration from its document

A configuration is what its document gives, over the defaults, behind a gate: a document
without the supported version is refused for its version, whatever else it holds. The
sections are read each for itself. Names outside the known ones make no difference to any of
this; each of them is told once.

- `Config.parse_unsupported`, `Config.parse_missing`: the gate.
- `Config.exists_parse_iff`: which documents of the supported version are read.
- `Config.configuration_exact`: what they are read as, and what is told of other names.
-/
namespace RoutineWatch

/-- No table of a value has the key that dates show. -/
inductive Toml.Plain : Toml → Prop where
  | string (value : String) : Plain (.string value)
  | integer (value : Int) : Plain (.integer value)
  | real (value : Binary64) : Plain (.real value)
  | boolean (value : Bool) : Plain (.boolean value)
  | datetime (text : String) : Plain (.datetime text)
  | array {items : List Toml} (all : ∀ v ∈ items, Plain v) : Plain (.array items)
  | table {entries : List (String × Toml)} (free : datetimeField ∉ entries.map (·.1))
      (all : ∀ e ∈ entries, Plain e.2) : Plain (.table entries)

namespace Config

/-- The keys that mean something. -/
def knownKeys : List String := ["version", "matrix", "api", "baseline"]

/-- The sections, each with its fields. -/
def sectionFields : List (String × List (String × FieldType)) :=
  [("matrix", matrixFields), ("api", apiFields), ("baseline", baselineFields)]

section
variable (entries : List (String × Toml))

/-- The sections that are there are tables. -/
def SectionsAreTables : Prop :=
  ∀ part ∈ sectionFields, ∀ v, (part.1, v) ∈ entries → ∃ inner, v = .table inner

/-- They hold their own fields only, each with a value of its type. -/
def SectionsFit : Prop :=
  ∀ part ∈ sectionFields, ∀ inner, (part.1, .table inner) ∈ entries → Fits part.2 inner

/-- The values of other keys do without the reserved one. -/
def OthersPlain : Prop := ∀ e ∈ entries, e.1 ∉ knownKeys → e.2.Plain

/-- The entries whose keys mean something. -/
def known : List (String × Toml) := entries.filter (·.1 ∈ knownKeys)

/-- A value is an integer. -/
def IsInteger (v : Toml) (n : Int) : Prop := v = .integer n

/-- A value is a table, and a section is the defaults overlaid with it. -/
def TableOf {σ : Type} (overlay : List (String × Toml) → σ → Prop) (v : Toml) (c : σ) : Prop :=
  ∃ inner, v = .table inner ∧ overlay inner c

/-- A configuration is its defaults, overlaid with a document. -/
structure Overlay (c : Config) : Prop where
  version : Given IsInteger supportedVersion entries "version" c.version
  matrix : Given (TableOf MatrixOverlay) {} entries "matrix" c.matrix
  api : Given (TableOf ApiOverlay) {} entries "api" c.api
  baseline : Given (TableOf BaselineOverlay) {} entries "baseline" c.baseline

/-- Lines tell the other keys, each once and in the order of their bytes. -/
def TellOthers (path : Path) (lines : List String) : Prop :=
  ∃ keys : List String, lines = keys.map (warning path) ∧
    keys.Pairwise (fun a b => bytesLess (Utf8.encode a) (Utf8.encode b) = true) ∧
    ∀ key, key ∈ keys ↔ key ∉ knownKeys ∧ key ∈ entries.map (·.1)

end

/-- A configuration without the names outside the known ones. -/
def forget (c : Config) : Config := { c with unknown := TextSet.empty }

/-! Reserved keys -/

theorem reservedItems?_eq_none {items : List Toml}
    (each : ∀ v ∈ items, reservedMismatch? v = none) : reservedItems? items = none := by
  induction items with
  | nil => rw [reservedItems?]
  | cons v items ih =>
    obtain ⟨own, others⟩ := List.forall_mem_cons.1 each
    rw [reservedItems?, own]
    exact ih others

theorem reservedEntries?_eq_none {entries : List (String × Toml)}
    (each : ∀ e ∈ entries, reservedMismatch? e.2 = none) : reservedEntries? entries = none := by
  induction entries with
  | nil => rw [reservedEntries?]
  | cons e entries ih =>
    obtain ⟨own, others⟩ := List.forall_mem_cons.1 each
    rw [reservedEntries?, own]
    exact ih others

/-- A value without the reserved key can be read. -/
theorem reservedMismatch?_eq_none {v : Toml} (plain : v.Plain) : reservedMismatch? v = none := by
  induction plain with
  | string | integer | real | boolean | datetime => simp [reservedMismatch?]
  | array _ ih =>
    rw [reservedMismatch?]
    exact reservedItems?_eq_none ih
  | @table entries free _ ih =>
    cases entries with
    | nil => simp [reservedMismatch?]
    | cons e entries =>
      obtain ⟨key, v⟩ := e
      obtain ⟨own, others⟩ := List.forall_mem_cons.1 ih
      have other : key ≠ Toml.datetimeField := by
        intro same
        exact free (same ▸ List.mem_cons_self)
      unfold reservedMismatch?
      rw [if_neg other, own]
      exact reservedEntries?_eq_none others

/-! One entry -/

theorem readVersion_eq_ok_iff {v : Toml} {n : Int} : readVersion v = .ok n ↔ IsInteger v n := by
  unfold IsInteger
  cases v <;> simp [readVersion]

section
variable {c c' : Config} {e : String × Toml}

/-- What an entry does to a configuration. -/
theorem readTop_eq_ok_iff : readTop c e = .ok c' ↔
    (e.1 = "version" ∧ ∃ n, IsInteger e.2 n ∧ c' = { c with version := n }) ∨
    (e.1 = "matrix" ∧ ∃ m, matrixShape.read c.matrix e.2 = .ok m ∧ c' = { c with matrix := m }) ∨
    (e.1 = "api" ∧ ∃ a, apiShape.read c.api e.2 = .ok a ∧ c' = { c with api := a }) ∨
    (e.1 = "baseline" ∧
      ∃ b, baselineShape.read c.baseline e.2 = .ok b ∧ c' = { c with baseline := b }) ∨
    (e.1 ∉ knownKeys ∧ c' = { c with unknown := c.unknown.insert e.1 }) := by
  unfold readTop knownKeys
  split
  · next same => simp [same, bind_ok_eq_ok_iff, readVersion_eq_ok_iff]
  · split
    · next same => simp [same, bind_ok_eq_ok_iff]
    · split
      · next same => simp [same, bind_ok_eq_ok_iff]
      · split
        · next same => simp [same, bind_ok_eq_ok_iff]
        · simpa [*] using eq_comm

/-- Each place is decided by the entry with its key, and by no other one. -/
theorem readTop_puts (step : readTop c e = .ok c') :
    (if e.1 = "version" then IsInteger e.2 c'.version else c'.version = c.version) ∧
    (if e.1 = "matrix" then matrixShape.read c.matrix e.2 = .ok c'.matrix
      else c'.matrix = c.matrix) ∧
    (if e.1 = "api" then apiShape.read c.api e.2 = .ok c'.api else c'.api = c.api) ∧
    (if e.1 = "baseline" then baselineShape.read c.baseline e.2 = .ok c'.baseline
      else c'.baseline = c.baseline) := by
  rcases readTop_eq_ok_iff.1 step with ⟨same, _, own, rfl⟩ | ⟨same, _, own, rfl⟩ |
    ⟨same, _, own, rfl⟩ | ⟨same, _, own, rfl⟩ | ⟨other, rfl⟩
  · simp [same, own]
  · simp [same, own]
  · simp [same, own]
  · simp [same, own]
  · simp only [knownKeys, List.mem_cons, List.not_mem_nil, or_false, not_or] at other
    simp [other]

/-- A known entry is read alike whatever other names there were before it. -/
theorem readTop_known (listed : e.1 ∈ knownKeys) :
    (readTop c e).map forget = readTop (forget c) e := by
  simp only [knownKeys, List.mem_cons, List.not_mem_nil, or_false] at listed
  unfold readTop
  rcases listed with same | same | same | same
  · simp only [same]
    cases readVersion e.2 <;> rfl
  · simp only [same]
    cases read : matrixShape.read c.matrix e.2 <;>
      simp [forget, read, bind, Except.bind, Except.map]
  · simp only [same]
    cases read : apiShape.read c.api e.2 <;>
      simp [forget, read, bind, Except.bind, Except.map]
  · simp only [same]
    cases read : baselineShape.read c.baseline e.2 <;>
      simp [forget, read, bind, Except.bind, Except.map]

/-- The other names grow by the key of an entry that is not known. -/
theorem readTop_unknown (step : readTop c e = .ok c') :
    c'.unknown = if e.1 ∈ knownKeys then c.unknown else c.unknown.insert e.1 := by
  rcases readTop_eq_ok_iff.1 step with ⟨same, _, _, rfl⟩ | ⟨same, _, _, rfl⟩ |
    ⟨same, _, _, rfl⟩ | ⟨same, _, _, rfl⟩ | ⟨other, rfl⟩
  · simp [same, knownKeys]
  · simp [same, knownKeys]
  · simp [same, knownKeys]
  · simp [same, knownKeys]
  · rw [if_neg other]

/-- Another one is taken and changes nothing else. -/
theorem readTop_other (other : e.1 ∉ knownKeys) :
    readTop c e = .ok { c with unknown := c.unknown.insert e.1 } := by
  apply readTop_eq_ok_iff.2
  exact .inr (.inr (.inr (.inr ⟨other, rfl⟩)))

end

/-! All entries -/

section
variable {entries : List (String × Toml)} {start c : Config}

/-- What other names there are afterwards. -/
theorem mem_unknown_iff (run : entries.foldlM readTop start = .ok c) {key : String} :
    key ∈ c.unknown ↔ key ∈ start.unknown ∨ key ∉ knownKeys ∧ key ∈ entries.map (·.1) := by
  induction entries generalizing start with
  | nil =>
    cases run
    simp
  | cons e entries ih =>
    obtain ⟨next, first, later⟩ := foldlM_cons_eq_ok_iff.1 run
    rw [ih later, readTop_unknown first, List.map_cons, List.mem_cons]
    by_cases listed : e.1 ∈ knownKeys
    · rw [if_pos listed]
      by_cases same : key = e.1
      · simp [same, listed]
      · simp [same]
    · rw [if_neg listed, TextSet.mem_insert]
      by_cases same : key = e.1
      · simp [same, listed]
      · simp [same]

/-- Other names make no difference to the rest. -/
theorem foldlM_readTop_known :
    (entries.foldlM readTop start).map forget = (known entries).foldlM readTop (forget start) := by
  induction entries generalizing start with
  | nil => rfl
  | cons e entries ih =>
    rw [List.foldlM_cons]
    by_cases listed : e.1 ∈ knownKeys
    · have kept : known (e :: entries) = e :: known entries := by simp [known, listed]
      rw [kept, List.foldlM_cons, ← readTop_known listed]
      cases readTop start e with
      | error mismatch => rfl
      | ok next => exact ih
    · have dropped : known (e :: entries) = known entries := by simp [known, listed]
      rw [dropped, readTop_other listed]
      exact ih

/-- Where other values are plain, all entries are read one after the other, and that is all. -/
theorem ofEntries_eq (plain : OthersPlain entries) :
    ofEntries entries = entries.foldlM readTop {} := by
  unfold ofEntries
  cases run : entries.foldlM readTop {} with
  | error mismatch => rfl
  | ok c =>
    have free : reservedEntries? (entries.filter fun e => c.unknown.contains e.1) = none := by
      apply reservedEntries?_eq_none
      intro e member
      obtain ⟨listed, told⟩ := List.mem_filter.1 member
      have other : e.1 ∉ knownKeys := by
        rcases (mem_unknown_iff run).1 (of_decide_eq_true told) with before | there
        · exact absurd before TextSet.not_mem_empty
        · exact there.1
      exact reservedMismatch?_eq_none (plain e listed other)
    simp [bind, Except.bind, free]

/-- What is read is what the run gives. -/
theorem foldlM_of_ofEntries (read : ofEntries entries = .ok c) :
    entries.foldlM readTop {} = .ok c := by
  unfold ofEntries at read
  cases run : entries.foldlM readTop {} with
  | error mismatch =>
    rw [run] at read
    cases read
  | ok last =>
    rw [run] at read
    simp only [bind, Except.bind] at read
    split at read
    · cases read
    · exact read

/-! Sections of a document -/

/-- A section that is a table is its defaults, overlaid with this table, whatever other entries
there are. -/
theorem section_of_run {σ : Type} {shape : Shape σ} (place : Config → σ) {key : String}
    {overlay : List (String × Toml) → σ → Prop}
    (puts : ∀ {e c c'}, readTop c e = .ok c' →
      if e.1 = key then shape.read (place c) e.2 = .ok (place c') else place c' = place c)
    (overlaid : ∀ {inner m}, (inner.map (·.1)).Nodup →
      shape.read (place start) (.table inner) = .ok m → overlay inner m)
    (tables : ∀ v, (key, v) ∈ entries → ∃ inner, v = .table inner)
    (orderly : Toml.Orderly Toml.Tidy entries) (run : entries.foldlM readTop start = .ok c) :
    Given (TableOf overlay) (place start) entries key (place c) := by
  apply foldlM_given place ?_ run orderly.once
  · intro v listed c c' stepped before
    obtain ⟨inner, rfl⟩ := tables v listed
    have once := (Toml.tidy_table_iff.1 (orderly.all _ listed)).once
    have read := puts stepped
    rw [if_pos rfl, before] at read
    exact ⟨inner, rfl, overlaid once read⟩
  · intro e c c' stepped other
    simpa [other] using puts stepped

/-- A document that is read overlays the defaults. -/
theorem overlay_of_run (tables : SectionsAreTables entries)
    (orderly : Toml.Orderly Toml.Tidy entries) (run : entries.foldlM readTop {} = .ok c) :
    Overlay entries c := by
  simp only [SectionsAreTables, sectionFields, List.forall_mem_cons] at tables
  obtain ⟨matrix, api, baseline, _⟩ := tables
  constructor
  · apply foldlM_given (·.version) ?_ run orderly.once
    · intro v _ c c' stepped _
      simpa using (readTop_puts stepped).1
    · intro e c c' stepped other
      simpa [other] using (readTop_puts stepped).1
  · exact section_of_run (·.matrix) (fun step => (readTop_puts step).2.1) matrixOverlay_of_read
      matrix orderly run
  · exact section_of_run (·.api) (fun step => (readTop_puts step).2.2.1) apiOverlay_of_read api
      orderly run
  · exact section_of_run (·.baseline) (fun step => (readTop_puts step).2.2.2)
      baselineOverlay_of_read baseline orderly run

/-- An entry is taken, whatever was read before it, if it fits in case it is a section. -/
theorem exists_readTop_iff {e : String × Toml} (version : e.1 = "version" → ∃ n, IsInteger e.2 n)
    (tables : ∀ part ∈ sectionFields, part.1 = e.1 → ∃ inner, e.2 = .table inner) :
    (∃ c', readTop c e = .ok c') ↔
      ∀ part ∈ sectionFields, part.1 = e.1 → ∀ inner, e.2 = .table inner → Fits part.2 inner := by
  obtain ⟨key, v⟩ := e
  simp only [sectionFields, List.forall_mem_cons] at tables ⊢
  obtain ⟨matrix, api, baseline, _⟩ := tables
  dsimp only at *
  by_cases listed : key ∈ knownKeys
  · simp only [knownKeys, List.mem_cons, List.not_mem_nil, or_false] at listed
    rcases listed with rfl | rfl | rfl | rfl
    · obtain ⟨n, own⟩ := version rfl
      have taken : ∃ c', readTop c ("version", v) = .ok c' :=
        ⟨_, readTop_eq_ok_iff.2 (.inl ⟨rfl, n, own, rfl⟩)⟩
      simp [taken]
    · obtain ⟨inner, rfl⟩ := matrix rfl
      simp [readTop_eq_ok_iff, knownKeys, matrix_fits_iff]
    · obtain ⟨inner, rfl⟩ := api rfl
      simp [readTop_eq_ok_iff, knownKeys, api_fits_iff]
    · obtain ⟨inner, rfl⟩ := baseline rfl
      simp [readTop_eq_ok_iff, knownKeys, baseline_fits_iff]
  · have taken : ∃ c', readTop c (key, v) = .ok c' := ⟨_, readTop_other listed⟩
    simp only [knownKeys, List.mem_cons, List.not_mem_nil, or_false, not_or] at listed
    obtain ⟨_, other, other', other''⟩ := listed
    simp [taken, Ne.symm other, Ne.symm other', Ne.symm other'']

/-- A document of integer version, whose sections are tables, is read exactly if these fit. -/
theorem exists_run_iff {n : Int} (orderly : Toml.Orderly Toml.Tidy entries)
    (version : ("version", .integer n) ∈ entries) (tables : SectionsAreTables entries) :
    (∃ c, entries.foldlM readTop start = .ok c) ↔ SectionsFit entries := by
  have each : ∀ e ∈ entries, ∀ c, (∃ c', readTop c e = .ok c') ↔
      ∀ part ∈ sectionFields, part.1 = e.1 → ∀ inner, e.2 = .table inner → Fits part.2 inner := by
    intro e listed c
    apply exists_readTop_iff
    · intro same
      have entry : ("version", e.2) ∈ entries := same ▸ listed
      exact ⟨n, orderly.unique entry version⟩
    · intro part there same
      have entry : (part.1, e.2) ∈ entries := same ▸ listed
      exact tables part there e.2 entry
  rw [exists_foldlM_eq_ok_iff each]
  constructor
  · intro fit part there inner entry
    exact fit _ entry part there rfl inner rfl
  · intro fit e listed part there same inner table
    have entry : (part.1, Toml.table inner) ∈ entries := by
      rw [same, ← table]
      exact listed
    exact fit part there inner entry

end

/-! The whole -/

section
variable {entries : List (String × Toml)}

theorem statedVersion_absent (absent : "version" ∉ entries.map (·.1)) :
    statedVersion entries = .ok none := by
  have none : entries.find? (fun e => e.1 = "version") = none := by
    apply List.find?_eq_none.2
    intro e listed same
    exact absent (of_decide_eq_true same ▸ List.mem_map_of_mem listed)
  rw [statedVersion, none]

theorem statedVersion_integer {n : Int} (once : (entries.map (·.1)).Nodup)
    (version : ("version", .integer n) ∈ entries) : statedVersion entries = .ok (some n) := by
  rw [statedVersion, find?_of_once once version]
  rfl

theorem statedVersion_known : statedVersion (known entries) = statedVersion entries := by
  have same : (known entries).find? (fun e => e.1 = "version") =
      entries.find? fun e => e.1 = "version" := by
    rw [known, List.find?_filter]
    congr 1
    funext e
    by_cases own : e.1 = "version" <;> simp [own, knownKeys]
  rw [statedVersion, same]
  rfl

/-- Without other entries there is nothing that must be plain. -/
theorem othersPlain_known : OthersPlain (known entries) := by
  intro e listed other
  exact absurd (of_decide_eq_true (List.mem_filter.1 listed).2) other

/-- A document is read as the one without its other entries, but for their names. -/
theorem decode_known (plain : OthersPlain entries) :
    (decode entries).map forget = decode (known entries) := by
  have same : (ofEntries entries).map forget = ofEntries (known entries) := by
    rw [ofEntries_eq plain, ofEntries_eq othersPlain_known]
    exact foldlM_readTop_known
  unfold decode
  rw [statedVersion_known]
  cases statedVersion entries with
  | error mismatch => rfl
  | ok version =>
    cases version with
    | none => rfl
    | some version =>
      dsimp only
      split
      · rfl
      · rw [← same]
        cases ofEntries entries <;> rfl

end

section
variable {text : String} {entries : List (String × Toml)} {path : Path}
  (read : Toml.parse text = .ok entries)
include read

theorem parse_of_read :
    parse text path = (decode entries).mapError fun cause => .config cause (some path) := by
  rw [parse, read]

theorem parse_missing (absent : "version" ∉ entries.map (·.1)) :
    parse text path = .error (.config .missingVersion (some path)) := by
  rw [parse_of_read read, decode, statedVersion_absent absent]
  rfl

theorem parse_unsupported {n : Int} (version : ("version", .integer n) ∈ entries)
    (other : n ≠ supportedVersion) :
    parse text path = .error (.config (.unsupportedVersion n) (some path)) := by
  have once := (Toml.parse_orderly read).once
  rw [parse_of_read read, decode, statedVersion_integer once version]
  simp [other, Except.mapError]

/-- A configuration that is read comes from a run over the entries. -/
theorem foldlM_of_parse {c : Config} (parsed : parse text path = .ok c) :
    entries.foldlM readTop {} = .ok c := by
  rw [parse_of_read read, mapError_eq_ok_iff, decode] at parsed
  split at parsed
  · cases parsed
  · cases parsed
  · split at parsed
    · cases parsed
    · exact foldlM_of_ofEntries (mapError_eq_ok_iff.1 parsed)

theorem exists_parse_iff (version : ("version", .integer supportedVersion) ∈ entries)
    (plain : OthersPlain entries) :
    (∃ c, parse text path = .ok c) ↔ ∃ c, entries.foldlM readTop {} = .ok c := by
  have once := (Toml.parse_orderly read).once
  rw [parse_of_read read, decode, statedVersion_integer once version, ofEntries_eq plain]
  simp only [ne_eq, not_true_eq_false, ↓reduceIte, mapError_eq_ok_iff]

/-- A configuration has a warning for each other key. -/
theorem tellOthers_warnings {c : Config} (parsed : parse text path = .ok c) :
    TellOthers entries path (c.warnings path) := by
  refine ⟨c.unknown.toList, rfl, c.unknown.ascending.imp Utf8.bytesLess_encode, ?_⟩
  intro key
  rw [← TextSet.mem_def, mem_unknown_iff (foldlM_of_parse read parsed)]
  simp

/-- Other entries make no difference to the rest. -/
theorem parse_known {text' : String} {entries' : List (String × Toml)}
    (read' : Toml.parse text' = .ok entries') (plain : OthersPlain entries)
    (plain' : OthersPlain entries') (same : known entries' = known entries) :
    (parse text' path).map forget = (parse text path).map forget := by
  have alike : (decode entries').map forget = (decode entries).map forget := by
    rw [decode_known plain', decode_known plain, same]
  have through : ∀ x : Except ConfigCause Config,
      (x.mapError fun cause => Error.config cause (some path)).map forget =
        (x.map forget).mapError fun cause => .config cause (some path) := by
    intro x
    cases x <;> rfl
  rw [parse_of_read read', parse_of_read read, through, through, alike]

end

/-- The lines of an opening are the warnings of the configuration that it reads. -/
theorem lines_openAt {s : Surroundings} {asked : Option Path} {cwd path : Path} {text : String}
    (resolved : Workspace.resolveConfig s asked cwd = .ok (some path))
    (held : s.tree.readText s.here path = .ok text) :
    Notice.lines (Workspace.openAt s asked cwd).notices =
      match parse text path with
      | .ok c => c.warnings path
      | .error _ => [] := by
  unfold Workspace.openAt Workspace.configInForce Workspace.load
  rw [resolved]
  dsimp only
  rw [held]
  dsimp only
  cases parse text path with
  | error e => rfl
  | ok c =>
    have told : ((c.warnings path).map Notice.line).filterMap Notice.line? = c.warnings path := by
      rw [List.filterMap_map]
      exact List.filterMap_some
    dsimp only
    rw [Notice.lines, List.cons_append, List.filterMap_cons_none rfl, List.filterMap_append, told]
    exact List.append_nil _

/-- A configuration is its defaults, overlaid with what its document gives, behind a gate for the
version. -/
theorem configuration_exact {text : String} {entries : List (String × Toml)} (path : Path)
    (read : Toml.parse text = .ok entries) :
    -- The version decides before everything else.
    ("version" ∉ entries.map (·.1) →
      parse text path = .error (.config .missingVersion (some path))) ∧
    (∀ n, ("version", .integer n) ∈ entries → n ≠ supportedVersion →
      parse text path = .error (.config (.unsupportedVersion n) (some path))) ∧
    -- After it the sections do, and each field has its own value or its default.
    (("version", .integer supportedVersion) ∈ entries → SectionsAreTables entries →
      (OthersPlain entries → ((∃ c, parse text path = .ok c) ↔ SectionsFit entries)) ∧
      ∀ c, parse text path = .ok c → SectionsFit entries ∧ Overlay entries c) ∧
    -- Other keys change nothing of this.
    (∀ text' entries', Toml.parse text' = .ok entries' → OthersPlain entries →
      OthersPlain entries' → known entries' = known entries →
      (parse text' path).map forget = (parse text path).map forget) ∧
    -- They are told if the configuration is read, and not if it is not.
    ∀ s asked cwd, Workspace.resolveConfig s asked cwd = .ok (some path) →
      s.tree.readText s.here path = .ok text →
      (∀ c, parse text path = .ok c →
        TellOthers entries path (Notice.lines (Workspace.openAt s asked cwd).notices)) ∧
      ∀ e, parse text path = .error e →
        Notice.lines (Workspace.openAt s asked cwd).notices = [] := by
  have orderly := Toml.parse_orderly read
  refine ⟨parse_missing read, fun n => parse_unsupported read, ?_, ?_, ?_⟩
  · intro version tables
    have fits : (∃ c, entries.foldlM readTop {} = .ok c) ↔ SectionsFit entries :=
      exists_run_iff orderly version tables
    constructor
    · intro plain
      exact (exists_parse_iff read version plain).trans fits
    · intro c parsed
      have run := foldlM_of_parse read parsed
      exact ⟨fits.1 ⟨c, run⟩, overlay_of_run tables orderly run⟩
  · intro text' entries' read' plain plain' same
    exact parse_known read read' plain plain' same
  · intro s asked cwd resolved held
    rw [lines_openAt resolved held]
    constructor
    · intro c parsed
      rw [parsed]
      exact tellOthers_warnings read parsed
    · intro e failed
      rw [failed]

/-- A document with two sections, each given in part, and two other keys. -/
def layeredText : String :=
  "zone = 1979-05-27\nversion = 1\n[api]\narch_dir = \"src/arch\"\n" ++
    "[area]\nnames = [\"a\"]\n[matrix]\nignore = []\n"

def layeredEntries : List (String × Toml) :=
  [("zone", .datetime "1979-05-27"), ("version", .integer 1),
    ("api", .table [("arch_dir", .string "src/arch")]),
    ("area", .table [("names", .array [.string "a"])]), ("matrix", .table [("ignore", .array [])])]

def layeredPath : Path := Path.ofString "libm-ci.toml"

/-- Standing beside it. -/
def layeredPlace : Surroundings :=
  ⟨⟨[([Utf8.encode "libm-ci.toml"], .file (Utf8.encode layeredText) false)]⟩, [], []⟩

theorem layeredEntries_plain : OthersPlain layeredEntries := by
  intro e listed other
  simp only [layeredEntries, List.mem_cons, List.not_mem_nil, or_false] at listed
  rcases listed with rfl | rfl | rfl | rfl | rfl
  · exact .datetime _
  · exact absurd other (by decide)
  · exact absurd other (by decide)
  · refine .table (by decide) ?_
    intro e listed
    rw [List.mem_singleton.1 listed]
    refine .array ?_
    intro v listed
    rw [List.mem_singleton.1 listed]
    exact .string "a"
  · exact absurd other (by decide)

theorem layeredEntries_tables : SectionsAreTables layeredEntries := by
  intro part there v listed
  simp only [sectionFields, List.mem_cons, List.not_mem_nil, or_false] at there
  rcases there with rfl | rfl | rfl <;> simp [layeredEntries] at listed <;> exact ⟨_, listed⟩

theorem layeredEntries_fit : SectionsFit layeredEntries := by
  intro part there inner listed
  simp only [sectionFields, List.mem_cons, List.not_mem_nil, or_false] at there
  rcases there with rfl | rfl | rfl <;> simp [layeredEntries] at listed <;> rw [listed]
  · exact List.forall_mem_singleton.2 ⟨_, List.mem_cons_self, rfl, [], rfl⟩
  · exact List.forall_mem_singleton.2 ⟨("arch_dir", .text), by decide, rfl, "src/arch", rfl⟩

theorem layered_configuration :
    Toml.parse layeredText = .ok layeredEntries ∧
      (∃ c, parse layeredText layeredPath = .ok c ∧ Overlay layeredEntries c ∧
        c.api.archDir = "src/arch" ∧ c.api.genericMarker = "generic" ∧
        TellOthers layeredEntries layeredPath
          (Notice.lines (Workspace.openAt layeredPlace (some layeredPath) layeredPath).notices)) ∧
      parse "[api]\n" layeredPath = .error (.config .missingVersion (some layeredPath)) ∧
      parse "version = 2\n" layeredPath =
        .error (.config (.unsupportedVersion 2) (some layeredPath)) := by
  have read : Toml.parse layeredText = .ok layeredEntries := by cbv
  have bare : Toml.parse "[api]\n" = .ok [("api", .table [])] := by cbv
  have newer : Toml.parse "version = 2\n" = .ok [("version", .integer 2)] := by cbv
  have resolved : Workspace.resolveConfig layeredPlace (some layeredPath) layeredPath =
      .ok (some layeredPath) := by
    cbv
  have held : layeredPlace.tree.readText layeredPlace.here layeredPath = .ok layeredText := by cbv
  obtain ⟨_, _, sections, _, told⟩ := configuration_exact layeredPath read
  have version : ("version", .integer supportedVersion) ∈ layeredEntries := by
    simp [layeredEntries, supportedVersion]
  obtain ⟨accepted, overlaid⟩ := sections version layeredEntries_tables
  obtain ⟨c, parsed⟩ := (accepted layeredEntries_plain).2 layeredEntries_fit
  have overlay := (overlaid c parsed).2
  obtain ⟨inner, table, api⟩ := overlay.api.given (.table [("arch_dir", .string "src/arch")])
    (by simp [layeredEntries])
  cases table
  have dir : Toml.string "src/arch" = .string c.api.archDir :=
    api.archDir.given _ List.mem_cons_self
  refine ⟨read, ⟨c, parsed, overlay, ?_, ?_, ?_⟩, ?_, ?_⟩
  · exact (Toml.string.inj dir).symm
  · exact api.genericMarker.missing (by decide)
  · exact (told _ _ _ resolved held).1 c parsed
  · exact (configuration_exact layeredPath bare).1 (by decide)
  · exact (configuration_exact layeredPath newer).2.1 2 List.mem_cons_self (by decide)

end Config

end RoutineWatch
