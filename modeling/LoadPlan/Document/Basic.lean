import LoadPlan.Encoding
import LoadPlan.Json.Printer

/-! API descriptions: a mapping with a version marker and a mapping of paths, read from a text in
either encoding. -/
namespace LoadPlan

/-- What a value is that should have been a mapping. -/
inductive Kind where
  | null
  | boolean
  | number
  | string
  | sequence
  | mapping
  deriving DecidableEq, Repr

def Json.kind : Json → Kind
  | .null => .null
  | .bool _ => .boolean
  | .int _ => .number
  | .float _ => .number
  | .string _ => .string
  | .array _ => .sequence
  | .object _ => .mapping

def Kind.phrase : Kind → String
  | null => "null"
  | boolean => "a boolean"
  | number => "a number"
  | string => "a string"
  | sequence => "a sequence"
  | mapping => "a mapping"

inductive DocumentError where
  | malformed (first : Encoding)
  | notMapping (found : Kind)
  | noVersion
  | noPaths
  deriving DecidableEq, Repr

def DocumentError.message : DocumentError → String
  | malformed first =>
    "Malformed spec: not valid " ++ first.name ++ " (syntax error) nor " ++ first.other.name ++
      " (syntax error)"
  | notMapping found =>
    "Invalid spec shape: document root must be a mapping, found " ++ found.phrase
  | noVersion =>
    "Missing version marker: document has neither an 'openapi' nor a 'swagger' field"
  | noPaths => "Missing paths: document has no 'paths' mapping"

/-- The fields of the root, and the paths among them. -/
structure Document where
  fields : List (String × Json)
  paths : List (String × Json)
  versioned : (fields.lookup "openapi").isSome ∨ (fields.lookup "swagger").isSome
  paths_eq : fields.lookup "paths" = some (.object paths)

namespace Document

def root (d : Document) : Json := .object d.fields

def ofFields (fields : List (String × Json)) : Except DocumentError Document :=
  if versioned : (fields.lookup "openapi").isSome ∨ (fields.lookup "swagger").isSome then
    match paths_eq : fields.lookup "paths" with
    | some (.object paths) => .ok { fields, paths, versioned, paths_eq }
    | _ => .error .noPaths
  else .error .noVersion

def ofJson : Json → Except DocumentError Document
  | .object fields => ofFields fields
  | value => .error (.notMapping value.kind)

/-- The value of a text in the hinted encoding, or else in the other one. -/
def readJson (text : String) (hint : Option Encoding) : Except DocumentError Json :=
  let first := hint.getD .json
  match first.read? text <|> first.other.read? text with
  | some value => .ok value
  | none => .error (.malformed first)

def read (text : String) (hint : Option Encoding) : Except DocumentError Document :=
  (readJson text hint).bind ofJson

/-- The marker `openapi` goes before `swagger`. -/
def version (d : Document) : Option Json :=
  (d.fields.lookup "openapi").or (d.fields.lookup "swagger")

/-- The version as text, when it is a text or a number. -/
def versionText? (d : Document) : Option String :=
  match d.version with
  | some (.string text) => some text
  | some (.int n) => some (Json.scalarText (.int n))
  | some (.float x) => some (Json.scalarText (.float x))
  | _ => none

def isSwagger (d : Document) : Bool :=
  (d.fields.lookup "swagger").isSome && (d.fields.lookup "openapi").isNone

end Document
end LoadPlan
