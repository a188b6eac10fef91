import RoutineWatch.Proofs.Baseline.Output
import RoutineWatch.Proofs.Json.Extent
import RoutineWatch.Proofs.Json.SpelledArray

/-!
# What a listing of runs says

The record of a run is read back from what is written of it, and the first record of a
listing is found whatever stands after the listing: a second listing, what a tool says
besides, or broken text. It is the bracket that closes the listing that counts, not one
inside a record or inside a string.

- `Job.ofDocument_toJson`: a record is read back.
- `Job.latest_exact`: what is found in a listing, and that nothing after it counts.
-/
namespace RoutineWatch.Job

/-! Records -/

theorem readNumber_written (value : Option UInt64) :
    readNumber (writeNumber value).document = .ok value := by
  cases value with
  | none => rfl
  | some n => simp [writeNumber, Json.nat, Json.document, readNumber, UInt64.ofNat_toNat]

theorem readText_written (value : Option String) :
    readText (writeText value).document = .ok value := by
  cases value <;> rfl

/-- A record is read back: no field is lost, and none takes the place of another. -/
theorem ofDocument_toJson (job : Job) : ofDocument job.toJson.document = .ok job := by
  have numbers := readNumber_written
  have texts := readText_written
  simp [toJson, fields, Json.document, Json.memberDocuments, ofDocument, readMembers, numberField,
    textField, numbers, texts, Except.map]

theorem readAll_toJson (jobs : List Job) :
    readAll (Json.itemDocuments (jobs.map toJson)) = .ok jobs := by
  induction jobs with
  | nil => rfl
  | cons job jobs ih =>
    rw [List.map_cons, Json.itemDocuments, readAll, ofDocument_toJson]
    dsimp only
    rw [ih]
    rfl

/-- The listing of some runs. -/
def listed (jobs : List Job) : Json := .array (jobs.map toJson)

theorem hasNaturals_listed (jobs : List Job) : (listed jobs).HasNaturals := by
  apply Json.itemsHaveNaturals_iff.2
  intro item member
  obtain ⟨job, -, rfl⟩ := List.mem_map.1 member
  exact job.hasNaturals_toJson

theorem spells_listed (jobs : List Job) :
    Json.Spells (listed jobs).document (listed jobs).compact.toList := by
  rw [Json.compact, String.toList_ofList]
  exact Json.spells_compactChars _ (hasNaturals_listed jobs)

/-! Listings -/

/-- A listing that is not blank is read at its beginning. -/
theorem latest_of_readFirst {listing : String} {c : Char} {text : List Char}
    (start : Json.skipBlanks listing.toList = c :: text) :
    latest? listing = (listOfDocument (Json.readFirst listing.toList).1).map List.head? := by
  rw [latest?, start]
  rfl

/-- What begins with an array, blanks aside, is not blank. -/
theorem latest_of_bracketed {gap text after : String} (blank : Json.AllBlank gap.toList)
    (bracketed : Json.Bracketed text.toList) :
    latest? (gap ++ text ++ after) =
      (listOfDocument (Json.readFirst (gap.toList ++ (text.toList ++ after.toList))).1).map
        List.head? := by
  have whole : (gap ++ text ++ after).toList = gap.toList ++ (text.toList ++ after.toList) := by
    rw [String.toList_append, String.toList_append, List.append_assoc]
  obtain ⟨inside, opened, -⟩ := bracketed
  have start : Json.skipBlanks (gap ++ text ++ after).toList = '[' :: (inside ++ after.toList) := by
    rw [whole, Json.skipBlanks_append blank, opened, List.cons_append,
      Json.skipBlanks_cons (by decide)]
  rw [latest_of_readFirst start, whole]

/-- The first of the listed runs is found, however they are laid out. -/
theorem latest_listed {job : Job} {others : List Job} {gap text : String}
    (blank : Json.AllBlank gap.toList)
    (spelled : Json.Spells (listed (job :: others)).document text.toList) (after : String) :
    latest? (gap ++ text ++ after) = .ok (some job) := by
  rw [latest_of_bracketed blank spelled.bracketed, Json.readFirst_spelledArray spelled blank]
  dsimp only [listOfDocument]
  rw [readAll_toJson]
  rfl

/-- What is found depends on the array at the beginning only. -/
theorem latest_local {gap other text : String} (blank : Json.AllBlank gap.toList)
    (free : Json.AllBlank other.toList) (bracketed : Json.Bracketed text.toList)
    (after rest : String) : latest? (gap ++ text ++ after) = latest? (other ++ text ++ rest) := by
  obtain ⟨d, closed, same⟩ := Json.readFirst_bracketed bracketed
  rw [latest_of_bracketed blank bracketed, latest_of_bracketed free bracketed, same _ blank,
    same _ free]

/-- What is read as an array to its end is bracketed. -/
theorem exists_bracketed {listing : String} {items : List Json.Document} {rest : List Char}
    (read : Json.readFirst listing.toList = (.array items true, some rest)) :
    ∃ gap text : String, Json.AllBlank gap.toList ∧ Json.Bracketed text.toList ∧
      listing = gap ++ text ++ String.ofList rest := by
  obtain ⟨gap, array, blank, bracketed, whole⟩ := Json.exists_bracketed_of_readFirst read
  refine ⟨String.ofList gap, String.ofList array, ?_, ?_, ?_⟩
  · rwa [String.toList_ofList]
  · rwa [String.toList_ofList]
  · rw [← String.ofList_append, ← String.ofList_append, List.append_assoc, ← whole,
      String.ofList_toList]

/-- A listing is read up to the bracket that closes it. A run that is listed first is found with
all its fields, be the listing on one line or laid out with blanks, whatever comes after it. And
where a text begins with an array, well formed or not, what is found depends on this array, and
not on what comes after it. -/
theorem latest_exact :
    (∀ job others after, latest? ((listed (job :: others)).compact ++ after) = .ok (some job)) ∧
    (∀ job others gap text after, Json.AllBlank gap.toList →
      Json.Spells (listed (job :: others)).document text.toList →
      latest? (gap ++ text ++ after) = .ok (some job)) ∧
    (∀ listing items rest, Json.readFirst listing.toList = (.array items true, some rest) →
      ∃ gap text : String, Json.AllBlank gap.toList ∧ Json.Bracketed text.toList ∧
        listing = gap ++ text ++ String.ofList rest) ∧
    ∀ gap other text after rest, Json.AllBlank gap.toList → Json.AllBlank other.toList →
      Json.Bracketed text.toList →
      latest? (gap ++ text ++ after) = latest? (other ++ text ++ rest) := by
  refine ⟨?_, ?_, ?_, ?_⟩
  · intro job others after
    have blank : Json.AllBlank "".toList := Json.allBlank_nil
    have found := latest_listed blank (spells_listed (job :: others)) after
    rwa [String.empty_append] at found
  · intro job others gap text after blank spelled
    exact latest_listed blank spelled after
  · intro listing items rest read
    exact exists_bracketed read
  · intro gap other text after rest blank free bracketed
    exact latest_local blank free bracketed after rest

/-- A run whose name has brackets and quotation marks. -/
def bracketedRun : Job where
  databaseId := some 18446744073709551615
  workflowName := some "build [\"x86\"]]"

/-- The listing of that run alone. -/
def bracketedListing : String :=
  "[\x7b\"databaseId\":18446744073709551615,\"url\":null,\"headSha\":null,\"conclusion\":null," ++
  "\"createdAt\":null,\"status\":null,\"workflowDatabaseId\":null," ++
  "\"workflowName\":\"build [\\\"x86\\\"]]\"\x7d]"

theorem compact_bracketedRun : (listed [bracketedRun]).compact = bracketedListing := by
  decide +kernel

theorem latest_bracketedRun :
    (listed [bracketedRun]).compact = bracketedListing ∧
      latest? (bracketedListing ++ "[\x7b") = .ok (some bracketedRun) ∧
      latest? ("\n" ++ bracketedListing ++ "]") = .ok (some bracketedRun) ∧
      (∃ gap text : String, Json.AllBlank gap.toList ∧ Json.Bracketed text.toList ∧
        "\n" ++ bracketedListing ++ "]" = gap ++ text ++ String.ofList [']']) ∧
      latest? ("\n" ++ "[[\"]\"]]" ++ "\x7d") = latest? (" " ++ "[[\"]\"]]" ++ "[]") := by
  have spelled := spells_listed [bracketedRun]
  have onLine := latest_exact.1 bracketedRun [] "[\x7b"
  rw [compact_bracketedRun] at spelled onLine
  have newline : Json.AllBlank "\n".toList := by decide
  have read := Json.readFirst_spelledArray spelled newline [']']
  have whole : ("\n" ++ bracketedListing ++ "]").toList =
      "\n".toList ++ (bracketedListing.toList ++ [']']) := by
    rw [String.toList_append, String.toList_append, List.append_assoc]
    rfl
  rw [← whole] at read
  have bracketed : Json.Bracketed "[[\"]\"]]".toList :=
    ⟨_, rfl, .opening (Or.inl rfl) (.string (.plain (by decide) .mark)
      (.closing (Or.inl rfl) (.closing (Or.inl rfl) .done)))⟩
  refine ⟨compact_bracketedRun, onLine, ?_, ?_, ?_⟩
  · exact latest_exact.2.1 bracketedRun [] "\n" bracketedListing "]" newline spelled
  · exact latest_exact.2.2.1 ("\n" ++ bracketedListing ++ "]") _ [']'] read
  · exact latest_exact.2.2.2 "\n" " " "[[\"]\"]]" "\x7d" "[]" newline (by decide) bracketed

end RoutineWatch.Job
