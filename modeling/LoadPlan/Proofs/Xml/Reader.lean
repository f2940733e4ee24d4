import LoadPlan.Proofs.Xml.Character

/-! A reader of XML elements, which knows nothing of how elements are laid out when they are written.
It goes through a text once, character by character, and undoes the five predefined entities; white
space between child elements is passed over, and any other text beside them is refused. Line ends
and white space in values are left as they are. -/
namespace LoadPlan.Xml

def entities : List (List Char × Char) :=
  [(['a', 'm', 'p'], '&'), (['l', 't'], '<'), (['g', 't'], '>'), (['q', 'u', 'o', 't'], '"'),
    (['a', 'p', 'o', 's'], '\'')]

/-- Undoes entities; the name of one that is not yet complete is pending. -/
def unescapeFrom? : Option (List Char) → List Char → Option (List Char)
  | none, [] => some []
  | some _, [] => none
  | none, c :: rest =>
    if c == '&' then unescapeFrom? (some []) rest else (unescapeFrom? none rest).map (c :: ·)
  | some pending, c :: rest =>
    if c == ';' then
      (entities.lookup pending).bind fun mark => (unescapeFrom? none rest).map (mark :: ·)
    else unescapeFrom? (some (pending ++ [c])) rest

def unescape? (cs : List Char) : Option (List Char) := unescapeFrom? none cs

/-- The text and the elements found so far within an element. -/
structure Level where
  text : List Char
  children : List Element

namespace Level

def empty : Level := ⟨[], []⟩

def addText (level : Level) (cs : List Char) : Level := { level with text := level.text ++ cs }

def add (level : Level) (e : Element) : Level := { level with children := level.children ++ [e] }

/-- An element has either a text or children, with no more than white space around these. -/
def close? (level : Level) (tag : Tag) : Option Element :=
  if level.children.isEmpty then some (.text tag (String.ofList level.text))
  else if level.text.all isSpace then some (.parent tag level.children)
  else none

end Level

/-- The innermost level, and the start tags before it with the levels they stand on. -/
structure Builder where
  level : Level
  outer : List (Tag × Level)

namespace Builder

def addText (b : Builder) (cs : List Char) : Builder := { b with level := b.level.addText cs }

def add (b : Builder) (e : Element) : Builder := { b with level := b.level.add e }

def start (b : Builder) (tag : Tag) : Builder := ⟨.empty, (tag, b.level) :: b.outer⟩

/-- An end tag has the name of the last start tag that is still open. -/
def close? (b : Builder) (name : String) : Option Builder :=
  match b.outer with
  | [] => none
  | (tag, level) :: outer =>
    if tag.name == name then (b.level.close? tag).map fun e => ⟨level.add e, outer⟩ else none

/-- A document has one element, with white space around it. -/
def finish? (b : Builder) : Option Element :=
  match b.outer, b.level.children with
  | [], [e] => if b.level.text.all isSpace then some e else none
  | _, _ => none

end Builder

/-- What comes next, with what has been read of it. -/
inductive Mode where
  | content (raw : List Char)
  | opened
  | tagName (name : List Char)
  | inTag (tag : Tag)
  | attributeName (tag : Tag) (name : List Char)
  | attributeNamed (tag : Tag) (name : String)
  | assigned (tag : Tag) (name : String)
  | value (tag : Tag) (name : String) (quote : Char) (raw : List Char)
  | valued (tag : Tag)
  | slash (tag : Tag)
  | closing
  | endName (name : List Char)
  | endNamed (name : String)

structure Reading where
  builder : Builder
  mode : Mode

namespace Reading

/-- After a name or a value the tag goes on, or ends. -/
def goOn? (b : Builder) (tag : Tag) (c : Char) : Option Reading :=
  if isSpace c then some ⟨b, .inTag tag⟩
  else if c == '/' then some ⟨b, .slash tag⟩
  else if c == '>' then some ⟨b.start tag, .content []⟩
  else none

def assign? (b : Builder) (tag : Tag) (name : String) (c : Char) : Option Reading :=
  if c == '=' then some ⟨b, .assigned tag name⟩
  else if isSpace c then some ⟨b, .attributeNamed tag name⟩
  else none

def close? (b : Builder) (name : String) (c : Char) : Option Reading :=
  if c == '>' then (b.close? name).map (⟨·, .content []⟩)
  else if isSpace c then some ⟨b, .endNamed name⟩
  else none

/-- A value is complete; no attribute is given twice. -/
def endValue? (b : Builder) (tag : Tag) (name : String) (raw : List Char) : Option Reading :=
  if (tag.attributes.map Prod.fst).contains name then none
  else (unescape? raw).map fun cs =>
    ⟨b, .valued { tag with attributes := tag.attributes ++ [(name, String.ofList cs)] }⟩

def step? (reading : Reading) (c : Char) : Option Reading :=
  let b := reading.builder
  match reading.mode with
  | .content raw =>
    if c == '<' then (unescape? raw).map fun cs => ⟨b.addText cs, .opened⟩
    else some ⟨b, .content (raw ++ [c])⟩
  | .opened =>
    if c == '/' then some ⟨b, .closing⟩
    else if isNameStart c then some ⟨b, .tagName [c]⟩
    else none
  | .tagName name =>
    if isNameChar c then some ⟨b, .tagName (name ++ [c])⟩ else goOn? b ⟨String.ofList name, []⟩ c
  | .inTag tag => if isNameStart c then some ⟨b, .attributeName tag [c]⟩ else goOn? b tag c
  | .attributeName tag name =>
    if isNameChar c then some ⟨b, .attributeName tag (name ++ [c])⟩
    else assign? b tag (String.ofList name) c
  | .attributeNamed tag name => assign? b tag name c
  | .assigned tag name =>
    if c == '"' || c == '\'' then some ⟨b, .value tag name c []⟩
    else if isSpace c then some reading
    else none
  | .value tag name quote raw =>
    if c == quote then endValue? b tag name raw
    else if c == '<' then none
    else some ⟨b, .value tag name quote (raw ++ [c])⟩
  | .valued tag => goOn? b tag c
  | .slash tag => if c == '>' then some ⟨b.add (.bare tag), .content []⟩ else none
  | .closing => if isNameStart c then some ⟨b, .endName [c]⟩ else none
  | .endName name =>
    if isNameChar c then some ⟨b, .endName (name ++ [c])⟩ else close? b (String.ofList name) c
  | .endNamed name => close? b name c

def run? (reading : Reading) : List Char → Option Reading
  | [] => some reading
  | c :: rest => (reading.step? c).bind fun next => next.run? rest

/-- All that was started has to be complete at the end. -/
def finish? (reading : Reading) : Option Element :=
  match reading.mode with
  | .content raw => (unescape? raw).bind fun cs => (reading.builder.addText cs).finish?
  | _ => none

end Reading

/-- The element that a text is. -/
def read? (text : String) : Option Element :=
  if text.toList.all isAllowed then
    ((⟨⟨.empty, []⟩, .content []⟩ : Reading).run? text.toList).bind Reading.finish?
  else none

end LoadPlan.Xml
