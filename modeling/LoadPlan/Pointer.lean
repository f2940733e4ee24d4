import LoadPlan.Json.Value
import LoadPlan.Text.Digits
import LoadPlan.Text.Replace

/-! Pointers into a document: a number sign, then segments with a slash before each. In a segment
`~1` stands for a slash and `~0` for a tilde. -/
namespace LoadPlan.Pointer

/-- Slashes are put in before tildes are, so that `~01` stands for a tilde and a one. -/
def unescape (segment : List Char) : List Char :=
  Text.replaceChars ['~', '0'] ['~'] (Text.replaceChars ['~', '1'] ['/'] segment)

def escape (segment : List Char) : List Char :=
  segment.flatMap fun c => if c = '~' then ['~', '0'] else if c = '/' then ['~', '1'] else [c]

/-- The pieces of a text between slashes. -/
def splitSlash : List Char → List (List Char)
  | [] => [[]]
  | c :: rest =>
    match splitSlash rest with
    | piece :: pieces => if c = '/' then [] :: piece :: pieces else (c :: piece) :: pieces
    | [] => [[c]]

/-- The segments of a pointer with their escapes undone. -/
def segments? (pointer : String) : Option (List String) :=
  match pointer.toList with
  | ['#'] => some []
  | '#' :: '/' :: rest => some ((splitSlash rest).map fun piece => String.ofList (unescape piece))
  | _ => none

/-- The pointer to the node that these segments lead to. -/
def ofSegments (segments : List String) : String :=
  String.ofList ('#' :: segments.flatMap fun segment => '/' :: escape segment.toList)

/-- The index of a list item that a segment names. -/
def index? (segment : String) : Option Nat := Text.unsigned? UInt64.size segment.toList

def child? (node : Json) (segment : String) : Option Json :=
  match node with
  | .object fields => fields.lookup segment
  | .array items => (index? segment).bind (items[·]?)
  | _ => none

def walk? (node : Json) : List String → Option Json
  | [] => some node
  | segment :: rest => (child? node segment).bind (walk? · rest)

/-- The node a pointer leads to from the root of its document. -/
def lookup? (root : Json) (pointer : String) : Option Json :=
  (segments? pointer).bind (walk? root)

end LoadPlan.Pointer
