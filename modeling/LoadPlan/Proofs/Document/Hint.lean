import LoadPlan.Document.Basic
import LoadPlan.Proofs.Yaml.JsonText

/-! Documents in JSON under all hints. A JSON text is YAML too, and reads the same in both, but for
fields that are taken for merge keys, numbers that the two readers round apart, and line breaks that
YAML folds. -/
namespace LoadPlan.Document
open Yaml (Unfolded NumbersAgree)

section
variable {text : String} {json : Json} (value : Json.read? text = some json)
  (mergeless : json.isMergeless = true) (unfolded : Unfolded text.toList)
  (agree : NumbersAgree text.toList)
include value mergeless unfolded agree

/-- The value is found in either encoding first: YAML finds no other one, or none. -/
theorem read?_or_other (first : Encoding) :
    (first.read? text <|> first.other.read? text) = some json := by
  cases first with
  | json =>
    have here : Encoding.json.read? text = some json := value
    rw [here]
    rfl
  | yaml =>
    have there : Encoding.yaml.other.read? text = some json := value
    cases found : Encoding.yaml.read? text with
    | none => exact there
    | some other => exact congrArg some (Yaml.readJson?_eq value mergeless unfolded agree found)

/-- A text that is JSON gives the same document, or the same error, under all hints, where no field `<<`
stands over objects, every number is one value for both readers, and the text has no next-line
character and no blank beside a Unicode separator. -/
theorem read_any_hint (first second : Option Encoding) : read text first = read text second := by
  have same (hint : Option Encoding) : readJson text hint = .ok json := by
    unfold readJson
    dsimp only
    rw [read?_or_other value mergeless unfolded agree]
  rw [read, read, same first, same second]

end

def numbersText : String :=
  "\x7b\"swagger\": \"2.0\", \"paths\": \x7b\"/notes\": \x7b\"get\": " ++
    "\x7b\"x\": [-2, 0.5e1, null]\x7d\x7d\x7d\x7d"

def numbersRoot : Json :=
  .object [("swagger", .string "2.0"), ("paths", .object [("/notes", .object [("get",
    .object [("x", .array [.int (-2), .float ⟨false, 5 * twoTo 1074⟩, .null])])])])]

theorem numbers_any_hint :
    (Json.read? numbersText = some numbersRoot ∧ numbersRoot.isMergeless = true ∧
      Unfolded numbersText.toList ∧ NumbersAgree numbersText.toList) ∧
    read numbersText (some .json) = read numbersText (some .yaml) := by
  have value : Json.read? numbersText = some numbersRoot := by decide +kernel
  have mergeless : numbersRoot.isMergeless = true := by decide +kernel
  have unfolded : Unfolded numbersText.toList := ⟨by decide +kernel, by decide +kernel⟩
  have agree : NumbersAgree numbersText.toList := by decide +kernel
  exact ⟨⟨value, mergeless, unfolded, agree⟩, read_any_hint value mergeless unfolded agree _ _⟩

def fieldText : String :=
  "\x7b\"swagger\":\"2.0\",\"paths\":\x7b\"/a\":\x7b\"<<\":\x7b\"get\":\x7b\x7d\x7d\x7d\x7d\x7d"

def itemRoot (item : Json) : Json :=
  .object [("swagger", .string "2.0"), ("paths", .object [("/a", item)])]

/-- Texts with a number that loses its sign, one that is rounded in two ways, a blank beside a separator
and a next-line character. -/
def valueTexts : List String :=
  ["-0", "1e-23", "\" \u2028\"", "\"\u0085\""].map fun value =>
    "\x7b\"swagger\":\"2.0\",\"paths\":\x7b\x7d,\"x\":" ++ value ++ "\x7d"

/-- A text is JSON, and is read in two ways. -/
def isAmbiguous (text : String) : Bool :=
  (Json.read? text).isSome &&
    decide ((read text (some .json)).map root ≠ (read text (some .yaml)).map root)

/-- The field `<<` is kept in JSON and merged in YAML, and values of each other kind differ. -/
theorem hint_told_apart :
    ((read fieldText (some .json)).map root =
        .ok (itemRoot (.object [("<<", .object [("get", .object [])])])) ∧
      (read fieldText (some .yaml)).map root = .ok (itemRoot (.object [("get", .object [])]))) ∧
    valueTexts.all isAmbiguous = true := by
  refine ⟨⟨?_, ?_⟩, ?_⟩ <;> decide +kernel

end LoadPlan.Document
