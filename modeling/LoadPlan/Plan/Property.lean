import LoadPlan.Xml.Element

/-! The kinds of elements that test plans are made of. -/
namespace LoadPlan.Plan
open Xml (Element)

def textProperty (name value : String) : Element := .text ⟨"stringProp", [("name", name)]⟩ value

def flag (name : String) (value : Bool) : Element :=
  .text ⟨"boolProp", [("name", name)]⟩ (if value then "true" else "false")

/-- A list of elements; an empty one has no content. -/
def collection (name : String) (items : List Element) : Element :=
  ((Element.named "collectionProp").attr "name" name).withChildren items

/-- A value with parts, such as a header or an argument. -/
def record (name type : String) (parts : List Element) : Element :=
  .parent ⟨"elementProp", [("name", name), ("elementType", type)]⟩ parts

/-- What the editor of test plans shows for an element: its panel, class and title. -/
def shownAs (panel type title : String) : List (String × String) :=
  [("guiclass", panel), ("testclass", type), ("testname", title), ("enabled", "true")]

/-- A record that has a panel of its own. -/
def panelRecord (name type panel title : String) (parts : List Element) : Element :=
  .parent ⟨"elementProp", [("name", name), ("elementType", type)] ++ shownAs panel type title⟩ parts

/-- An element of the plan's tree. -/
def component (type panel title : String) (parts : List Element) : Element :=
  .parent ⟨type, shownAs panel type title⟩ parts

/-- What is under a component stands beside it in a tree, which may be empty. -/
def tree (children : List Element) : Element := (Element.named "hashTree").withChildren children

def leafTree : Element := tree []

/-- A request without arguments. -/
def noArguments : Element :=
  panelRecord "HTTPsampler.Arguments" "Arguments" "HTTPArgumentsPanel" "User Defined Variables"
    [collection "Arguments.arguments" []]

end LoadPlan.Plan
