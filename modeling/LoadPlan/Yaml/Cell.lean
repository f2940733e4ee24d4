/-! The characters of a YAML text with their places. Line breaks of all spellings but the two
Unicode separators become line feeds before places are given, so every break is one cell. -/
namespace LoadPlan.Yaml

/-- A character with its line, its column and the number of bytes from it to the end. -/
structure Cell where
  char : Char
  line : Nat
  column : Nat
  left : Nat
  deriving Repr

/-- The characters a text may hold: no controls but tab and the line breaks. -/
def isAllowed (c : Char) : Bool :=
  let n := c.toNat
  n == 0x09 || n == 0x0a || n == 0x0d || n == 0x85 || (0x20 ≤ n && n ≤ 0x7e) ||
    (0xa0 ≤ n && n ≤ 0xfffd) || 0x10000 ≤ n

/-- Carriage returns, alone or before a line feed, and next-line characters as line feeds. -/
def unifyBreaks : List Char → List Char
  | '\r' :: '\n' :: rest => '\n' :: unifyBreaks rest
  | '\r' :: rest => '\n' :: unifyBreaks rest
  | '\u0085' :: rest => '\n' :: unifyBreaks rest
  | c :: rest => c :: unifyBreaks rest
  | [] => []

def isBreak (c : Char) : Bool := c == '\n' || c == '\u2028' || c == '\u2029'

def isSpaceOrTab (c : Char) : Bool := c == ' ' || c == '\t'

def isGap (c : Char) : Bool := isSpaceOrTab c || isBreak c

/-- Characters of anchors, tag handles and directive names. -/
def isNameChar (c : Char) : Bool := c.isAlphanum || c == '-' || c == '_'

/-- Places for characters that take so many bytes together. -/
def place (line column bytes : Nat) : List Char → List Cell
  | [] => []
  | c :: rest =>
    ⟨c, line, column, bytes⟩ ::
      if isBreak c then place (line + 1) 0 (bytes - c.utf8Size) rest
      else place line (column + 1) (bytes - c.utf8Size) rest

namespace Cell

/-- The number of bytes, as the first cell tells it. -/
def size : List Cell → Nat
  | [] => 0
  | c :: _ => c.left

/-- A gap or the end of the text comes next. -/
def atGap : List Cell → Bool
  | [] => true
  | c :: _ => isGap c.char

def at? (expected : Char) : List Cell → Bool
  | [] => false
  | c :: _ => c.char == expected

/-- Three characters of the same kind at the start of a line, set off from what follows. -/
def atRow (mark : Char) : List Cell → Bool
  | a :: b :: c :: rest =>
    a.column == 0 && a.char == mark && b.char == mark && c.char == mark && atGap rest
  | _ => false

/-- The line that begins or ends a document comes next. -/
def atDocumentMark (cells : List Cell) : Bool := atRow '-' cells || atRow '.' cells

def text (cells : List Cell) : String := String.ofList (cells.map Cell.char)

end Cell

/-- The cells of a text, when all its characters are allowed. -/
def cells? (text : String) : Option (List Cell) :=
  let cs := unifyBreaks text.toList
  if text.toList.all isAllowed then some (place 0 0 (String.ofList cs).utf8ByteSize cs) else none

end LoadPlan.Yaml
