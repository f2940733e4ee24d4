import LoadPlan.Document.Server
import LoadPlan.Operation

/-! The listing of a document: its version, the server it declares, and its operations. -/
namespace LoadPlan.Listing

def line (text : String) : String := text ++ "\n"

def versionLine (d : Document) : String :=
  match d.versionText? with
  | some version =>
    line ("  " ++ (if d.isSwagger then "Swagger" else "OpenAPI") ++ " Version: " ++ version)
  | none => ""

def serverLine (d : Document) : String :=
  match d.declaredUrl? with
  | some url => line ("  Declared Server: " ++ url)
  | none => ""

def tagsLine (tags : List String) : String :=
  if tags.isEmpty then "" else line ("     Tags: " ++ String.intercalate ", " tags)

def bodyLine (operation : Operation) : String :=
  if operation.method.carriesBody && operation.body.isSome then line "     Body: synthesized JSON"
  else ""

/-- The lines of the operation at an index; they are numbered from one. -/
def operationLines (operation : Operation) (index : Nat) : String :=
  line ("  " ++ toString (index + 1) ++ ". " ++ operation.method.name ++ " " ++ operation.path) ++
    line ("     Name: " ++ operation.displayName) ++ tagsLine operation.tags ++ bodyLine operation

def operationsText (operations : List Operation) : String :=
  if operations.isEmpty then line "No operations found"
  else line ("Operations (" ++ toString operations.length ++ "):") ++
    String.join (operations.zipIdx.map fun (operation, index) => operationLines operation index)

def text (d : Document) (operations : List Operation) : String :=
  line "" ++ line "✓ Spec loaded successfully" ++ versionLine d ++ serverLine d ++ line "" ++
    operationsText operations

end LoadPlan.Listing
