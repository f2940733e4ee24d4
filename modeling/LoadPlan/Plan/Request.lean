import LoadPlan.Json.Printer
import LoadPlan.Sample.Synthesis

/-! Requests of a test plan: operations with the texts of the bodies that they send. -/
namespace LoadPlan

structure Request where
  operation : Operation
  body : Option String
  deriving Repr

namespace Request
open Sample (Chance Counters Outcome sampleBody)

/-- The schema of the body that requests of an operation carry. -/
def bodySchema? (operation : Operation) : Option BodySchema :=
  if operation.method.carriesBody then operation.body else none

def ofOperation (chance : Chance) (root : Json) (operation : Operation) (c : Counters) :
    Outcome Request :=
  match bodySchema? operation with
  | some body =>
    (sampleBody chance root body c).map fun value => ⟨operation, some (Json.bodyText value)⟩
  | none => (.ok ⟨operation, none⟩, c)

/-- One request for each operation, in their order. -/
def ofOperations (chance : Chance) (root : Json) :
    List Operation → Counters → Outcome (List Request)
  | [], c => (.ok [], c)
  | operation :: rest, c =>
    match ofOperation chance root operation c with
    | (.error e, c) => (.error e, c)
    | (.ok request, c) => (ofOperations chance root rest c).map (request :: ·)

end Request

/-- The requests for all operations of a document. -/
def Document.requests (d : Document) (chance : Sample.Chance) :
    Except ReferenceError (List Request) := do
  let operations ← d.operations
  (Request.ofOperations chance d.root operations .start).1

end LoadPlan
