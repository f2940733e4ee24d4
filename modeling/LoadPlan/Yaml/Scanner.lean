import LoadPlan.Yaml.Token
import LoadPlan.Yaml.Plain
import LoadPlan.Yaml.Quoted
import LoadPlan.Yaml.Block

/-! Cutting a YAML text into tokens. Indentation opens and closes block collections, and a colon
makes a key of what stands before it on its line, so the marks of a mapping and its key are
inserted behind the tokens already found. -/
namespace LoadPlan.Yaml

/-- A place where a key may have begun: the number of tokens before it, and its first cell's place.
A required one stands where only a key can. -/
structure KeyStart where
  tokens : Nat
  left : Nat
  line : Nat
  column : Nat
  required : Bool

/-- A key must be on one line with its colon, and at most 1024 bytes before it. -/
def KeyStart.reaches (key : KeyStart) (c : Cell) : Bool :=
  key.line == c.line && key.left ≤ c.left + 1024

structure Scanner where
  cells : List Cell
  /-- The tokens found, latest first, and their number. -/
  tokens : List Token
  count : Nat
  /-- Columns of the open block collections, innermost first, above the column -1. -/
  indents : List Int
  /-- For every open flow collection and the block around them, where a key may have begun. -/
  keys : List (Option KeyStart)
  /-- A key may begin here. -/
  keyAllowed : Bool

namespace Scanner

def start (cells : List Cell) : Scanner := ⟨cells, [], 0, [], [none], true⟩

def indent (s : Scanner) : Int := s.indents.headD (-1)

def inFlow (s : Scanner) : Bool := 1 < s.keys.length

def emit (s : Scanner) (token : Token) : Scanner :=
  { s with tokens := token :: s.tokens, count := s.count + 1 }

/-- Puts tokens behind the first `position` ones. -/
def insertAt (s : Scanner) (position : Nat) (inserted : List Token) : Scanner :=
  let (late, early) := s.tokens.splitAt (s.count - position)
  { s with tokens := late ++ inserted.reverse ++ early, count := s.count + inserted.length }

/-- Closes the block collections indented more than the column. -/
def unrollList (column : Int) (s : Scanner) : List Int → Scanner
  | [] => { s with indents := [] }
  | top :: rest =>
    if column < top then unrollList column (s.emit .blockEnd) rest
    else { s with indents := top :: rest }

def unroll (s : Scanner) (column : Int) : Scanner :=
  if s.inFlow then s else unrollList column s s.indents

/-- Opens a block collection when the column is beyond the current one. -/
def roll (s : Scanner) (column : Nat) (token : Token) : Scanner :=
  if !s.inFlow && s.indent < column then
    { s.emit token with indents := (column : Int) :: s.indents }
  else s

def topKey (s : Scanner) : Option KeyStart := s.keys.headD none

def setKey (s : Scanner) (key : Option KeyStart) : Scanner :=
  { s with keys := key :: s.keys.drop 1 }

/-- Gives up the possible key of this level, which must not be a required one. -/
def dropKey? (s : Scanner) : Option Scanner :=
  match s.topKey with
  | some key => if key.required then none else some (s.setKey none)
  | none => some (s.setKey none)

/-- A token that may begin a key comes next. -/
def markKey? (s : Scanner) (c : Cell) : Option Scanner :=
  if s.keyAllowed then
    s.dropKey?.map fun s =>
      s.setKey (some ⟨s.count, c.left, c.line, c.column, !s.inFlow && s.indent == c.column⟩)
  else some s

def allowKey (s : Scanner) (allowed : Bool) : Scanner := { s with keyAllowed := allowed }

def moveTo (s : Scanner) (cells : List Cell) : Scanner := { s with cells }

/-- Passes blanks, comments and line breaks up to the next token. Tabs are passed only where no
key may begin; outside flow collections a line break lets one begin. A line may begin with a byte
order mark. -/
def skipToToken (flow : Bool) (allowed comment : Bool) : List Cell → List Cell × Bool
  | [] => ([], allowed)
  | c :: rest =>
    if isBreak c.char then skipToToken flow (allowed || !flow) false rest
    else if comment then skipToToken flow allowed true rest
    else if c.char == ' ' || (c.char == '\t' && (flow || !allowed)) then
      skipToToken flow allowed false rest
    else if c.char == '\ufeff' && c.column == 0 then skipToToken flow allowed false rest
    else if c.char == '#' then skipToToken flow allowed true rest
    else (c :: rest, allowed)

def advance (s : Scanner) : Scanner :=
  let (cells, keyAllowed) := skipToToken s.inFlow s.keyAllowed false s.cells
  { s with cells, keyAllowed }

/-- The end of all open blocks, at the end of a document or of the text. -/
def endBlocks? (s : Scanner) : Option Scanner := (s.unroll (-1)).dropKey?.map (·.allowKey false)

def fetchOpen? (s : Scanner) (c : Cell) (rest : List Cell) (token : Token) : Option Scanner :=
  (s.markKey? c).map fun s =>
    ({ s with keys := none :: s.keys }.emit token).allowKey true |>.moveTo rest

def fetchClose? (s : Scanner) (rest : List Cell) (token : Token) : Option Scanner :=
  s.dropKey?.map fun s =>
    let keys := if s.inFlow then s.keys.drop 1 else s.keys
    ({ s with keys }.emit token).allowKey false |>.moveTo rest

/-- The mark of a block entry or of an explicit key, which open a block where one may begin. -/
def fetchEntry? (s : Scanner) (c : Cell) (rest : List Cell) (block token : Token) (allow : Bool) :
    Option Scanner :=
  if !s.inFlow && !s.keyAllowed then none
  else (s.roll c.column block).dropKey?.map fun s => ((s.emit token).allowKey allow).moveTo rest

/-- A colon. With a possible key before it, that becomes the key; otherwise the key is empty or
was marked explicitly. -/
def fetchValue? (s : Scanner) (c : Cell) (rest : List Cell) : Option Scanner :=
  let bare (s : Scanner) : Option Scanner :=
    if !s.inFlow && !s.keyAllowed then none
    else some (((s.roll c.column .mappingStart).allowKey (!s.inFlow)).emit .value |>.moveTo rest)
  match s.topKey with
  | none => bare s
  | some key =>
    if key.reaches c then
      let opens := !s.inFlow && s.indent < key.column
      let s := s.insertAt key.tokens (if opens then [.mappingStart, .key] else [.key])
      let s := if opens then { s with indents := (key.column : Int) :: s.indents } else s
      some ((((s.setKey none).allowKey false).emit .value).moveTo rest)
    else if key.required then none
    else bare (s.setKey none)

/-- A token that can be the first of a key and is made by a reader of its own. -/
def fetchNode? (s : Scanner) (c : Cell) (read : Option (Token × List Cell)) : Option Scanner := do
  let s ← s.markKey? c
  let (token, rest) ← read
  some (((s.allowKey false).emit token).moveTo rest)

def fetchBlock? (s : Scanner) (rest : List Cell) (folded : Bool) : Option Scanner := do
  let s ← s.dropKey?
  let (text, rest) ← scanBlock? folded s.indent rest
  some (((s.allowKey true).emit (.scalar text (if folded then .folded else .literal))).moveTo rest)

/-- A plain scalar that runs over a line break lets a key begin after it. -/
def fetchPlain? (s : Scanner) (c : Cell) (rest : List Cell) : Option Scanner := do
  let s ← s.markKey? c
  let plain ← scanPlain s.inFlow (s.indent + 1).toNat .start (c :: rest)
  some (((s.allowKey plain.broken).emit (.scalar plain.text .plain)).moveTo plain.rest)

/-- A plain scalar begins with no mark, or with a mark that its next character takes the meaning
from. -/
def beginsPlain (inFlow : Bool) (c : Char) (rest : List Cell) : Bool :=
  let marks := ['-', '?', ':', ',', '[', ']', '\x7b', '\x7d', '#', '&', '*', '!', '|', '>', '\'',
    '"', '%', '@', '\x60']
  !(isGap c || marks.contains c) ||
    (c == '-' && !(rest.take 1).any (fun c => isSpaceOrTab c.char)) ||
    (!inFlow && (c == '?' || c == ':') && !Cell.atGap rest)

/-- The token at the next cell, which is neither blank nor part of a comment. -/
def fetch? (s : Scanner) (c : Cell) (rest : List Cell) : Option Scanner :=
  let s := s.unroll c.column
  let named (token : String → Token) :=
    (scanAnchor? rest).map fun (name, rest) => (token name, rest)
  let quoted (read : Option (String × List Cell)) :=
    read.map fun (text, rest) => (Token.scalar text .quoted, rest)
  if c.column == 0 && c.char == '%' then do
    let s ← s.endBlocks?
    let (token, rest) ← scanDirective? rest
    some ((s.emit token).moveTo rest)
  else if Cell.atRow '-' (c :: rest) then
    s.endBlocks?.map fun s => (s.emit .documentStart).moveTo (rest.drop 2)
  else if Cell.atRow '.' (c :: rest) then
    s.endBlocks?.map fun s => (s.emit .documentEnd).moveTo (rest.drop 2)
  else if c.char == '[' then s.fetchOpen? c rest .openSequence
  else if c.char == '\x7b' then s.fetchOpen? c rest .openMapping
  else if c.char == ']' then s.fetchClose? rest .closeSequence
  else if c.char == '\x7d' then s.fetchClose? rest .closeMapping
  else if c.char == ',' then
    s.dropKey?.map fun s => ((s.allowKey true).emit .flowEntry).moveTo rest
  else if c.char == '-' && Cell.atGap rest then
    s.fetchEntry? c rest .sequenceStart .blockEntry true
  else if c.char == '?' && (s.inFlow || Cell.atGap rest) then
    s.fetchEntry? c rest .mappingStart .key (!s.inFlow)
  else if c.char == ':' && (s.inFlow || Cell.atGap rest) then s.fetchValue? c rest
  else if c.char == '*' then s.fetchNode? c (named .alias)
  else if c.char == '&' then s.fetchNode? c (named .anchor)
  else if c.char == '!' then s.fetchNode? c (scanTag? s.inFlow rest)
  else if c.char == '|' && !s.inFlow then s.fetchBlock? rest false
  else if c.char == '>' && !s.inFlow then s.fetchBlock? rest true
  else if c.char == '\'' then s.fetchNode? c (quoted (scanSingle .start false rest))
  else if c.char == '"' then s.fetchNode? c (quoted (scanDouble .start .text rest))
  else if beginsPlain s.inFlow c.char rest then s.fetchPlain? c rest
  else none

/-- Every token takes at least its first cell, which the comparison makes plain. -/
def run (s : Scanner) : Option (List Token) :=
  match s.advance.cells with
  | [] => s.advance.endBlocks?.map fun s => s.tokens.reverse
  | c :: rest =>
    match s.advance.fetch? c rest with
    | none => none
    | some next => if Cell.size next.cells < Cell.size s.cells then run next else none
  termination_by Cell.size s.cells

end Scanner

def tokens? (text : String) : Option (List Token) :=
  (cells? text).bind fun cells => (Scanner.start cells).run

end LoadPlan.Yaml
