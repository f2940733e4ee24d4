import LoadPlan.Document.Basic
import LoadPlan.Method
import LoadPlan.Reference
import LoadPlan.Text.Blank

/-! Operations: the methods declared for each path, in the order of the document. -/
namespace LoadPlan

/-- The schema of a request body, with the pointers followed to reach it. -/
structure BodySchema where
  schema : Json
  via : List String
  deriving Repr

structure Operation where
  path : String
  method : Method
  operationId : Option String
  summary : Option String
  tags : List String
  body : Option BodySchema
  deriving Repr

namespace Operation

/-- The operation's identifier, else its summary, blank ones aside, else method and path. -/
def displayName (op : Operation) : String :=
  match (op.operationId.filter (!Text.allBlank ·)).or (op.summary.filter (!Text.allBlank ·)) with
  | some name => name
  | none => op.method.name ++ " " ++ op.path

def jsonMedia : String := "application/json"

/-- The schema under a request body's JSON content. -/
def contentSchema? (body : Json) : Option Json :=
  ((body.get? "content").bind (·.get? jsonMedia)).bind (·.get? "schema")

def inBody (parameter : Json) : Bool := (parameter.get? "in").bind Json.string? == some "body"

/-- The schema of the first body parameter that has one; no parameter after it is looked at. -/
def parameterSchema (root : Json) : List Json → Except ReferenceError (Option Json)
  | [] => .ok none
  | parameter :: rest =>
    match Reference.target root parameter with
    | .error e => .error e
    | .ok parameter =>
      match if inBody parameter then parameter.get? "schema" else none with
      | some schema => .ok (some schema)
      | none => parameterSchema root rest

/-- The schema node of an operation: of its request body, or of a parameter if it has none. -/
def schemaNode (root declared : Json) : Except ReferenceError (Option Json) :=
  match declared.get? "requestBody" with
  | some body => (Reference.target root body).map contentSchema?
  | none => parameterSchema root (((declared.get? "parameters").bind Json.items?).getD [])

/-- The schema at the end of a chain of markers; a chain without an end has a null one. -/
def bodySchema (root node : Json) : Except ReferenceError BodySchema :=
  (Reference.follow root [] node).map fun
    | .literal schema via => ⟨schema, via⟩
    | .cycle pointer => ⟨.null, [pointer]⟩

def requestBody (root declared : Json) : Except ReferenceError (Option BodySchema) :=
  match schemaNode root declared with
  | .error e => .error e
  | .ok none => .ok none
  | .ok (some node) => (bodySchema root node).map some

def textField? (declared : Json) (key : String) : Option String :=
  (declared.get? key).bind Json.string?

def tagsOf (declared : Json) : List String :=
  (((declared.get? "tags").bind Json.items?).getD []).filterMap Json.string?

/-- The operation that a field of a path item declares; a field that is no method, or has no
mapping, declares none. -/
def ofField (root : Json) (path key : String) (declared : Json) :
    Except ReferenceError (Option Operation) :=
  match Method.ofKey? key, declared with
  | some method, .object _ =>
    (requestBody root declared).map fun body => some
      { path, method, operationId := textField? declared "operationId",
        summary := textField? declared "summary", tags := tagsOf declared, body }
  | _, _ => .ok none

def ofFields (root : Json) (path : String) :
    List (String × Json) → Except ReferenceError (List Operation)
  | [] => .ok []
  | (key, declared) :: rest => do
    let operation ← ofField root path key declared
    let operations ← ofFields root path rest
    .ok (operation.toList ++ operations)

/-- The operations of a path item, which may be a reference marker. -/
def ofPathItem (root : Json) (path : String) (item : Json) :
    Except ReferenceError (List Operation) := do
  let item ← Reference.target root item
  ofFields root path (item.fields?.getD [])

def ofPaths (root : Json) : List (String × Json) → Except ReferenceError (List Operation)
  | [] => .ok []
  | (path, item) :: rest => do
    let here ← ofPathItem root path item
    let operations ← ofPaths root rest
    .ok (here ++ operations)

end Operation

def Document.operations (d : Document) : Except ReferenceError (List Operation) :=
  Operation.ofPaths d.root d.paths

end LoadPlan
