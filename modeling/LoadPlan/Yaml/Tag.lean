/-! Tags of nodes. They are bytes, since percent escapes can spell any. A tag that begins with an
exclamation mark is one of the document's own, and has a name when its bytes are a text. -/
namespace LoadPlan.Yaml

structure Tag where
  bytes : List UInt8
  deriving Repr, DecidableEq

namespace Tag

def ofText (text : String) : Tag := ⟨text.toUTF8.data.toList⟩

/-- A tag of the types that all documents share. -/
def shared (name : String) : Tag := ofText ("tag:yaml.org,2002:" ++ name)

/-- A zero byte ends a part of a tag. -/
def beforeZero (bytes : List UInt8) : List UInt8 := bytes.takeWhile (· != 0)

def isOwn (tag : Tag) : Bool := tag.bytes.head? == some '!'.toNat.toUInt8

/-- Takes the exclamation mark away, unless it is all there is. -/
def dropMark : List Char → List Char
  | '!' :: c :: rest => c :: rest
  | cs => cs

/-- The name of a tag of the document's own. A second mark makes no difference. -/
def ownName? (tag : Tag) : Option String :=
  if tag.isOwn then
    (String.fromUTF8? tag.bytes.toByteArray).map fun text =>
      String.ofList (dropMark (dropMark text.toList))
  else none

end Tag
end LoadPlan.Yaml
