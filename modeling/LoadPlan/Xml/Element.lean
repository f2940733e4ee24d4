/-! XML elements and their written form. An element has no content, a text, or child elements on
lines of their own. Values are escaped when they are written, and nowhere else. -/
namespace LoadPlan.Xml

/-- A name and attributes in the order they are written. -/
structure Tag where
  name : String
  attributes : List (String × String)
  deriving Repr, DecidableEq

inductive Element where
  | bare (tag : Tag)
  | text (tag : Tag) (content : String)
  | parent (tag : Tag) (children : List Element)
  deriving Repr

/-- Characters that XML documents cannot hold. -/
def isForbidden (c : Char) : Bool :=
  (c.toNat < 0x20 && c != '\t' && c != '\n' && c != '\r') || c == '\ufffe' || c == '\uffff'

def escapeChar (c : Char) : List Char :=
  if isForbidden c then []
  else match c with
    | '&' => ['&', 'a', 'm', 'p', ';']
    | '<' => ['&', 'l', 't', ';']
    | '>' => ['&', 'g', 't', ';']
    | '"' => ['&', 'q', 'u', 'o', 't', ';']
    | '\'' => ['&', 'a', 'p', 'o', 's', ';']
    | c => [c]

/-- The five marks of XML become entities; characters it cannot hold are left out. -/
def escape (value : String) : String := String.ofList (value.toList.flatMap escapeChar)

namespace Element

def named (name : String) : Element := bare ⟨name, []⟩

def tag : Element → Tag
  | bare tag => tag
  | text tag _ => tag
  | parent tag _ => tag

def name (e : Element) : String := e.tag.name

def mapTag (f : Tag → Tag) : Element → Element
  | bare tag => bare (f tag)
  | text tag content => text (f tag) content
  | parent tag children => parent (f tag) children

/-- A further attribute, written last. -/
def attr (e : Element) (name value : String) : Element :=
  e.mapTag fun tag => { tag with attributes := tag.attributes ++ [(name, value)] }

/-- A text in place of all content. -/
def withText (e : Element) (content : String) : Element := text e.tag content

def children : Element → List Element
  | parent _ children => children
  | _ => []

/-- A further child, in place of a text. -/
def child (e : Element) (child : Element) : Element := parent e.tag (e.children ++ [child])

def withChildren (e : Element) (children : List Element) : Element := children.foldl child e

/-- The value of the first attribute of a name. -/
def attribute? (e : Element) (name : String) : Option String := e.tag.attributes.lookup name

end Element

def indent (depth : Nat) : String := String.ofList (List.replicate (2 * depth) ' ')

def attributeText (pair : String × String) : String :=
  " " ++ pair.1 ++ "=\"" ++ escape pair.2 ++ "\""

def startText (tag : Tag) : String :=
  "<" ++ tag.name ++ String.join (tag.attributes.map attributeText)

def endText (tag : Tag) : String := "</" ++ tag.name ++ ">\n"

namespace Element

mutual
/-- An element on lines of its own, indented by two spaces for each level. -/
def render (depth : Nat) : Element → String
  | bare tag => indent depth ++ startText tag ++ "/>\n"
  | text tag content => indent depth ++ startText tag ++ ">" ++ escape content ++ endText tag
  | parent tag children =>
    indent depth ++ startText tag ++ ">\n" ++ renderAll (depth + 1) children ++ indent depth ++
      endText tag

def renderAll (depth : Nat) : List Element → String
  | [] => ""
  | child :: rest => render depth child ++ renderAll depth rest
end

/-- A whole document with the element as its root. -/
def document (e : Element) : String :=
  "<?xml version=\"1.0\" encoding=\"UTF-8\"?>\n" ++ e.render 0

end Element
end LoadPlan.Xml
