import LoadPlan.Json.Reader
import LoadPlan.Yaml.Reader

/-! The two encodings of API descriptions, and how file names tell them. -/
namespace LoadPlan

inductive Encoding where
  | json
  | yaml
  deriving DecidableEq, Repr

namespace Encoding

def name : Encoding → String
  | json => "JSON"
  | yaml => "YAML"

def other : Encoding → Encoding
  | json => yaml
  | yaml => json

def read? : Encoding → String → Option Json
  | json, text => Json.read? text
  | yaml, text => Yaml.readJson? text

/-- The last part of a path that names something; a path that ends in two points has none. -/
def fileName? (path : String) : Option String :=
  match ((path.splitOn "/").filter fun part => part != "" && part != ".").getLast? with
  | some name => if name == ".." then none else some name
  | none => none

/-- What follows the last point of a file name, unless nothing stands before it. -/
def extension? (name : String) : Option String :=
  match (name.splitOn ".").reverse with
  | extension :: before :: rest =>
    if before.isEmpty && rest.isEmpty then none else some extension
  | _ => none

def ofExtension? (extension : String) : Option Encoding :=
  match String.ofList (extension.toList.map Char.toLower) with
  | "json" => some json
  | "yaml" => some yaml
  | "yml" => some yaml
  | _ => none

/-- The encoding that a path's extension names, in any letter case. -/
def ofPath? (path : String) : Option Encoding :=
  ((fileName? path).bind extension?).bind ofExtension?

end Encoding
end LoadPlan
