import LoadPlan.Document.Server
import LoadPlan.Plan.Assembly

/-! From the text of an API description to the text of a test plan. -/
namespace LoadPlan

inductive CompileError where
  | zeroCount (count : Count)
  | document (cause : DocumentError)
  | reference (cause : ReferenceError)
  deriving DecidableEq, Repr

def ReferenceError.message : ReferenceError → String
  | unresolvable pointer =>
    "Unresolvable reference: '" ++ pointer ++ "' does not point to a node in this document"
  | cycle pointer =>
    "Reference cycle: '" ++ pointer ++ "' leads back to itself without reaching an object"

def CompileError.message : CompileError → String
  | zeroCount count => "Invalid configuration: " ++ count.key ++ " must be a positive integer"
  | document cause => cause.message
  | reference cause => cause.message

/-- Settings whose counts are all positive. -/
def Settings.checked (s : Settings) : Except CompileError Settings :=
  match s.zeroCount? with
  | some count => .error (.zeroCount count)
  | none => .ok s

/-- A blank base URL gives way to the one that the document declares. -/
def Settings.withDeclaredUrl (s : Settings) (d : Document) : Settings :=
  if Text.allBlank s.baseUrl then { s with baseUrl := d.declaredUrl?.getD s.baseUrl } else s

/-- The test plan for the operations of a document. -/
def Document.testPlan (d : Document) (s : Settings) (chance : Sample.Chance) :
    Except ReferenceError Xml.Element :=
  (d.requests chance).map (Plan.testPlan (s.withDeclaredUrl d))

/-- The text of the test plan for an API description, read in the hinted encoding first. -/
def compile (text : String) (hint : Option Encoding) (s : Settings) (chance : Sample.Chance) :
    Except CompileError String := do
  let s ← s.checked
  let document ← (Document.read text hint).mapError .document
  let plan ← (document.testPlan s chance).mapError .reference
  .ok plan.document

end LoadPlan
