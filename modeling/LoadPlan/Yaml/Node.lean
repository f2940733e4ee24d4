import LoadPlan.Yaml.Scanner

/-! The tree that the tokens of a YAML text describe, with anchors, aliases and tags as written.
A stack holds the collections around the node being read; each token either begins that node or
tells what follows it, so building the tree recurses on the tokens, and on the stack where one
token ends several collections. -/
namespace LoadPlan.Yaml

/-- What stands before a node: the number of its anchor and its tag. -/
structure Properties where
  anchor : Option Nat
  tag : Option Tag
  deriving Repr

def Properties.none : Properties := ⟨.none, .none⟩

def Properties.isEmpty (p : Properties) : Bool := p.anchor.isNone && p.tag.isNone

inductive Node where
  | alias (anchor : Nat)
  | scalar (properties : Properties) (text : String) (style : Style)
  | sequence (properties : Properties) (items : List Node)
  | mapping (properties : Properties) (entries : List (Node × Node))
  deriving Repr

/-- What stands where no content is written. -/
def Node.empty (properties : Properties) : Node := .scalar properties "" .plain

def Node.absent : Node := .empty .none

/-- What a node is read for. Parts already read are latest first. Dash items belong to a sequence
that is not indented within its mapping; pairs are mappings of one entry in a flow sequence. -/
inductive Frame where
  | document
  | blockItem (properties : Properties) (items : List Node)
  | dashItem (properties : Properties) (items : List Node)
  | blockKey (properties : Properties) (entries : List (Node × Node))
  | blockValue (properties : Properties) (entries : List (Node × Node)) (key : Node)
  | flowItem (properties : Properties) (items : List Node)
  | flowKey (properties : Properties) (entries : List (Node × Node)) (marked : Bool)
  | flowValue (properties : Properties) (entries : List (Node × Node)) (key : Node)
  | pairKey (properties : Properties) (items : List Node)
  | pairValue (properties : Properties) (items : List Node) (key : Node)

namespace Frame

def isBlock : Frame → Bool
  | document | blockItem .. | dashItem .. | blockKey .. | blockValue .. => true
  | _ => false

/-- A sequence may begin here without being indented. -/
def takesDashes : Frame → Bool
  | blockKey .. | blockValue .. => true
  | _ => false

/-- The token shows that no node is written for the frame. -/
def isAbsentAt (frame : Frame) (token : Token) : Bool :=
  match frame, token with
  | document, .documentEnd => true
  | blockItem .., .blockEntry | blockItem .., .blockEnd => true
  | dashItem .., .blockEntry | dashItem .., .key | dashItem .., .value => true
  | dashItem .., .blockEnd => true
  | blockKey .., .key | blockKey .., .value | blockKey .., .blockEnd => true
  | blockValue .., .key | blockValue .., .value | blockValue .., .blockEnd => true
  | flowKey _ _ true, .value | flowKey _ _ true, .flowEntry => true
  | flowKey _ _ true, .closeMapping => true
  | flowValue .., .flowEntry | flowValue .., .closeMapping => true
  | pairValue .., .flowEntry | pairValue .., .closeSequence => true
  | _, _ => false

end Frame

/-- Where reading stands: among the directives, before the node of the topmost frame with the
properties read for it, in a block collection just opened, after a node, or after the document. -/
inductive Stage where
  | prologue (version : Bool) (directives : List (String × List UInt8))
  | before (properties : Properties)
  | opened
  | after (node : Node)
  | ended (root : Node)

structure Position where
  stage : Stage
  stack : List Frame

namespace Position

def want (stack : List Frame) : Position := ⟨.before .none, stack⟩

def found (node : Node) (stack : List Frame) : Position := ⟨.after node, stack⟩

def sequenceOf (properties : Properties) (items : List Node) : Node :=
  .sequence properties items.reverse

def mappingOf (properties : Properties) (entries : List (Node × Node)) : Node :=
  .mapping properties entries.reverse

def pairOf (key value : Node) : Node := .mapping .none [(key, value)]

def afterBlockEntry (properties : Properties) (entries : List (Node × Node)) (stack : List Frame) :
    Token → Option Position
  | .key => some (want (.blockKey properties entries :: stack))
  | .blockEnd => some (found (mappingOf properties entries) stack)
  | _ => none

def afterFlowItem (properties : Properties) (items : List Node) (stack : List Frame) :
    Token → Option Position
  | .flowEntry => some (want (.flowItem properties items :: stack))
  | .closeSequence => some (found (sequenceOf properties items) stack)
  | _ => none

def afterFlowEntry (properties : Properties) (entries : List (Node × Node)) (stack : List Frame) :
    Token → Option Position
  | .flowEntry => some (want (.flowKey properties entries false :: stack))
  | .closeMapping => some (found (mappingOf properties entries) stack)
  | _ => none

/-- What a token means after a node that was read for the topmost frame. -/
def afterNode (node : Node) (token : Token) : List Frame → Option Position
  | [] => none
  | .document :: _ => if token matches .documentEnd then some ⟨.ended node, []⟩ else none
  | .blockItem p items :: stack =>
    match token with
    | .blockEntry => some (want (.blockItem p (node :: items) :: stack))
    | .blockEnd => some (found (sequenceOf p (node :: items)) stack)
    | _ => none
  | .dashItem p items :: stack =>
    if token matches .blockEntry then some (want (.dashItem p (node :: items) :: stack))
    else afterNode (sequenceOf p (node :: items)) token stack
  | .blockKey p entries :: stack =>
    if token matches .value then some (want (.blockValue p entries node :: stack))
    else afterBlockEntry p ((node, .absent) :: entries) stack token
  | .blockValue p entries key :: stack => afterBlockEntry p ((key, node) :: entries) stack token
  | .flowItem p items :: stack => afterFlowItem p (node :: items) stack token
  | .flowKey p entries marked :: stack =>
    if marked && token matches .value then some (want (.flowValue p entries node :: stack))
    else afterFlowEntry p ((node, .absent) :: entries) stack token
  | .flowValue p entries key :: stack => afterFlowEntry p ((key, node) :: entries) stack token
  | .pairKey p items :: stack =>
    if token matches .value then some (want (.pairValue p items node :: stack))
    else afterFlowItem p (pairOf node .absent :: items) stack token
  | .pairValue p items key :: stack => afterFlowItem p (pairOf key node :: items) stack token

/-- A token that begins the content of a node, or ends an empty one that has properties. -/
def content (p : Properties) (token : Token) (frame : Frame) (stack : List Frame) :
    Option Position :=
  let stack := frame :: stack
  match token, frame.isBlock with
  | .scalar text style, _ => some (found (.scalar p text style) stack)
  | .openSequence, _ => some (want (.flowItem p [] :: stack))
  | .openMapping, _ => some (want (.flowKey p [] false :: stack))
  | .sequenceStart, true => some ⟨.opened, .blockItem p [] :: stack⟩
  | .mappingStart, true => some ⟨.opened, .blockKey p [] :: stack⟩
  | _, _ =>
    if frame.takesDashes && token matches .blockEntry then some (want (.dashItem p [] :: stack))
    else if p.isEmpty then none
    else afterNode (.empty p) token stack

/-- A token before a node without properties. In flow collections it may also close the
collection, or mark a key; a marked pair without a key gives up the token that shows it. -/
def fresh (token : Token) (frame : Frame) (stack : List Frame) : Option Position :=
  match frame, token with
  | .flowItem p items, .closeSequence => some (found (sequenceOf p items) stack)
  | .flowItem p items, .key => some (want (.pairKey p items :: stack))
  | .flowKey p entries false, .closeMapping => some (found (mappingOf p entries) stack)
  | .flowKey p entries false, .key => some (want (.flowKey p entries true :: stack))
  | .pairKey .., .value | .pairKey .., .flowEntry | .pairKey .., .closeSequence =>
    some (found .absent (frame :: stack))
  | _, _ =>
    if frame.isAbsentAt token then afterNode .absent token (frame :: stack)
    else content .none token frame stack

/-- The first token in a block collection. -/
def first (token : Token) (stack : List Frame) : Option Position :=
  match token, stack with
  | .blockEntry, .blockItem _ _ :: _ => some (want stack)
  | .key, .blockKey _ _ :: _ => some (want stack)
  | _, _ => none

end Position

/-- Names of anchors with the numbers of their latest nodes, and handles of tags with what they
stand for. -/
structure Names where
  anchors : List (String × Nat)
  tags : List (String × List UInt8)

namespace Names

def defaultTags : List (String × List UInt8) :=
  [("!", (Tag.ofText "!").bytes), ("!!", (Tag.shared "").bytes)]

/-- An anchor is numbered by how many names there are when it is written. -/
def anchor (names : Names) (name : String) : Names × Nat :=
  let number := names.anchors.length
  let known := names.anchors.filter fun entry => entry.1 != name
  ({ names with anchors := (name, number) :: known }, number)

/-- A tag in full; the empty handle has its tag already. -/
def tag? (names : Names) (handle : String) (suffix : List UInt8) : Option Tag :=
  if handle.isEmpty then some ⟨suffix⟩
  else (names.tags.lookup handle).map fun start => ⟨start ++ suffix⟩

end Names

structure Builder where
  position : Position
  names : Names

namespace Builder

def start : Builder := ⟨⟨.prologue false [], []⟩, ⟨[], Names.defaultTags⟩⟩

def move (b : Builder) (position : Option Position) : Option Builder :=
  position.map fun position => { b with position }

/-- A token where a node is wanted. One anchor and one tag may come before the content. -/
def node? (b : Builder) (p : Properties) (token : Token) (frame : Frame) (stack : List Frame)
    (absent : Bool) : Option Builder :=
  match token with
  | .anchor name =>
    if p.anchor.isSome then none
    else
      let (names, number) := b.names.anchor name
      some ⟨⟨.before { p with anchor := some number }, frame :: stack⟩, names⟩
  | .tag handle suffix =>
    if p.tag.isSome then none
    else (b.names.tag? handle suffix).bind fun tag =>
      b.move (some ⟨.before { p with tag := some tag }, frame :: stack⟩)
  | .alias name =>
    if p.isEmpty then
      (b.names.anchors.lookup name).bind fun number =>
        b.move (some (Position.found (.alias number) (frame :: stack)))
    else none
  | token =>
    if p.isEmpty && absent then b.move (Position.fresh token frame stack)
    else b.move (Position.content p token frame stack)

/-- Directives come before the mark of a document; each handle and the version only once. -/
def prologue? (b : Builder) (version : Bool) (directives : List (String × List UInt8)) :
    Token → Option Builder
  | .version major minor =>
    if version || major != 1 || !(minor == 1 || minor == 2) then none
    else b.move (some ⟨.prologue true directives, []⟩)
  | .tagDirective handle start =>
    if (directives.lookup handle).isSome then none
    else b.move (some ⟨.prologue version ((handle, start) :: directives), []⟩)
  | .documentStart =>
    some ⟨Position.want [.document], { b.names with tags := directives ++ Names.defaultTags }⟩
  | token =>
    if version || !directives.isEmpty then none else b.node? .none token .document [] false

def step (b : Builder) (token : Token) : Option Builder :=
  match b.position.stage, b.position.stack with
  | .prologue version directives, _ => b.prologue? version directives token
  | .before p, frame :: stack => b.node? p token frame stack true
  | .before _, [] => none
  | .opened, stack => b.move (Position.first token stack)
  | .after node, stack => b.move (Position.afterNode node token stack)
  | .ended _, _ => if token matches .documentEnd then some b else none

def run (b : Builder) : List Token → Option Builder
  | [] => some b
  | token :: rest => (b.step token).bind fun next => next.run rest

/-- The root, when the text ends here. A text without a document has an absent one. -/
def result? (b : Builder) : Option Node :=
  match b.position.stage, b.position.stack with
  | .prologue version directives, _ =>
    if version || !directives.isEmpty then none else some .absent
  | .before p, [.document] => some (.empty p)
  | .after node, [.document] => some node
  | .ended node, _ => some node
  | _, _ => none

end Builder

def Node.read? (text : String) : Option Node := do
  let tokens ← tokens? text
  let builder ← Builder.start.run tokens
  builder.result?

end LoadPlan.Yaml
