import RoutineWatch.Json.Printer
import RoutineWatch.Json.Reader

/-!
# The record of a workflow run

The record of a workflow run, read from a listing and printed back. A listing is a text
whose first JSON value is a list of records; what follows that value is not looked at.
Every field of a record may be missing or null.

- `Job.ofDocument`, `Job.toJson`: reading and writing a record.
- `Job.latest?`: the first record of a listing.

Specification, § 10.8.
-/
namespace RoutineWatch

structure Job where
  databaseId : Option UInt64 := none
  url : Option String := none
  headSha : Option String := none
  conclusion : Option String := none
  createdAt : Option String := none
  status : Option String := none
  workflowDatabaseId : Option UInt64 := none
  workflowName : Option String := none
deriving DecidableEq, Repr

namespace Job

/-- A field: its name, how it is read from a document and how it is written. -/
structure Field where
  name : String
  read : Job → Json.Document → Except Mismatch Job
  write : Job → Json

/-- Reads a number of 64 bits. -/
def readNumber : Json.Document → Except Mismatch (Option UInt64)
  | .null => .ok none
  | .number (some (.integer value)) =>
    if value < 0 then .error (.wrongValue (.integer value) "u64")
    else .ok (some (UInt64.ofNat value.toNat))
  | document => .error (document.mismatch "u64")

def readText : Json.Document → Except Mismatch (Option String)
  | .null => .ok none
  | .string (some text) => .ok (some text)
  | document => .error (document.mismatch "a string")

def writeNumber : Option UInt64 → Json
  | none => .null
  | some value => .nat value.toNat

def writeText : Option String → Json
  | none => .null
  | some text => .string text

def numberField (name : String) (get : Job → Option UInt64) (set : Job → Option UInt64 → Job) :
    Field :=
  ⟨name, fun job d => (readNumber d).map (set job), fun job => writeNumber (get job)⟩

def textField (name : String) (get : Job → Option String) (set : Job → Option String → Job) :
    Field :=
  ⟨name, fun job d => (readText d).map (set job), fun job => writeText (get job)⟩

/-- The fields, in the order in which they are written. -/
def fields : List Field := [
  numberField "databaseId" databaseId fun job v => { job with databaseId := v },
  textField "url" url fun job v => { job with url := v },
  textField "headSha" headSha fun job v => { job with headSha := v },
  textField "conclusion" conclusion fun job v => { job with conclusion := v },
  textField "createdAt" createdAt fun job v => { job with createdAt := v },
  textField "status" status fun job v => { job with status := v },
  numberField "workflowDatabaseId" workflowDatabaseId fun job v =>
    { job with workflowDatabaseId := v },
  textField "workflowName" workflowName fun job v => { job with workflowName := v }]

def toJson (job : Job) : Json := .object (fields.map fun f => (f.name, f.write job))

/-- What a reader of a record expects. -/
def expected : String := "struct LatestJob"

/-- Reads members in order. A field may be given once only; the value of an unknown
member must be well formed and does not count. -/
def readMembers (seen : List String) (job : Job) :
    List (Option String × Json.Document) → Except Mismatch Job
  | [] => .ok job
  | (none, _) :: _ => .error Json.malformed
  | (some key, document) :: members =>
    match fields.find? fun f => f.name = key with
    | none =>
      if document.isComplete then readMembers seen job members else .error Json.malformed
    | some field =>
      if seen.contains key then .error (.duplicateField key)
      else
        match field.read job document with
        | .ok job => readMembers (key :: seen) job members
        | .error mismatch => .error mismatch

/-- Reads the values of fields in order; `closed` tells whether the list of values
ended. -/
def readItems (closed : Bool) (job : Job) :
    List Field → List Json.Document → Except Mismatch Job
  | [], [] => if closed then .ok job else .error Json.malformed
  | [], _ :: _ => .error Json.malformed
  | missing, [] =>
    if closed then
      .error (.wrongLength (fields.length - missing.length)
        (expected ++ " with " ++ toString fields.length ++ " elements"))
    else .error Json.malformed
  | field :: rest, document :: documents =>
    match field.read job document with
    | .ok job => readItems closed job rest documents
    | .error mismatch => .error mismatch

/-- Reads a record from an object or from a list of its field values. -/
def ofDocument : Json.Document → Except Mismatch Job
  | .object members closed =>
    match readMembers [] {} members with
    | .ok job => if closed then .ok job else .error Json.malformed
    | .error mismatch => .error mismatch
  | .array items closed => readItems closed {} fields items
  | document => .error (document.mismatch expected)

def readAll : List Json.Document → Except Mismatch (List Job)
  | [] => .ok []
  | document :: documents =>
    match ofDocument document with
    | .error mismatch => .error mismatch
    | .ok job => (readAll documents).map (job :: ·)

def listOfDocument : Json.Document → Except Mismatch (List Job)
  | .array items closed =>
    match readAll items with
    | .ok jobs => if closed then .ok jobs else .error Json.malformed
    | .error mismatch => .error mismatch
  | document => .error (document.mismatch "a sequence")

/-- The first record of a listing. A blank listing has none. -/
def latest? (listing : String) : Except Mismatch (Option Job) :=
  if (Json.skipBlanks listing.toList).isEmpty then .ok none
  else (listOfDocument (Json.readFirst listing.toList).1).map List.head?

end Job

end RoutineWatch
