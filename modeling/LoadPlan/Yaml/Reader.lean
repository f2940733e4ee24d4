import LoadPlan.Json.Value
import LoadPlan.Text.Blank
import LoadPlan.Yaml.Layout
import LoadPlan.Yaml.Merge

/-! YAML texts as JSON values: merge keys are applied, tags are dropped, keys become texts, and
floats that JSON cannot write become null. -/
namespace LoadPlan.Yaml

/-- The text of a key, which is empty where the key has no written form. Of two keys with one text
the first keeps its place and the last its value. -/
def Value.keyText : Value → String
  | .scalar s => Quote.word s
  | key => (key.text?.map Text.trimEnd).getD ""

def Scalar.toJson : Scalar → Json
  | null => .null
  | bool value => .bool value
  | int value => .int value
  | float value => .float value
  | infinity _ => .null
  | nan => .null
  | string text => .string text

namespace Value

mutual
def toJson : Value → Json
  | .scalar s => s.toJson
  | .sequence items => .array (toJsonItems items)
  | .mapping entries => .ofFields (toJsonFields entries)
  | .tagged _ value => toJson value

def toJsonItems : List Value → List Json
  | [] => []
  | item :: rest => toJson item :: toJsonItems rest

def toJsonFields : List (Value × Value) → List (String × Json)
  | [] => []
  | (key, value) :: rest => (key.keyText, toJson value) :: toJsonFields rest
end

end Value

def readJson? (text : String) : Option Json := do
  let value ← Value.read? text
  let value ← value.merged?
  some value.toJson

end LoadPlan.Yaml
