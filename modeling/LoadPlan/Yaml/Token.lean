import LoadPlan.Yaml.Cell
import LoadPlan.Yaml.Tag

/-! Tokens of YAML texts, and those among them that are made of names: anchors, aliases, tags and
directives. -/
namespace LoadPlan.Yaml

inductive Style where
  | plain
  | quoted
  | literal
  | folded
  deriving Repr, DecidableEq

inductive Token where
  | version (major minor : Nat)
  | tagDirective (handle : String) (start : List UInt8)
  | documentStart
  | documentEnd
  | sequenceStart
  | mappingStart
  | blockEnd
  | openSequence
  | closeSequence
  | openMapping
  | closeMapping
  | blockEntry
  | flowEntry
  | key
  | value
  | alias (name : String)
  | anchor (name : String)
  | tag (handle : String) (suffix : List UInt8)
  | scalar (text : String) (style : Style)
  deriving Repr, DecidableEq

def spanName (cells : List Cell) : List Cell × List Cell :=
  cells.span fun c => isNameChar c.char

def skipBlanks (cells : List Cell) : List Cell := cells.dropWhile fun c => isSpaceOrTab c.char

/-- The name of an anchor or alias, which must end at a gap or one of a few marks. -/
def scanAnchor? (cells : List Cell) : Option (String × List Cell) :=
  let (name, rest) := spanName cells
  let ended :=
    Cell.atGap rest || ['?', ':', ',', ']', '\x7d', '%', '@', '\x60'].any (Cell.at? · rest)
  if name.isEmpty || !ended then none else some (Cell.text name, rest)

def isUriChar (verbatim : Bool) (c : Char) : Bool :=
  isNameChar c ||
    [';', '/', '?', ':', '@', '&', '=', '+', '$', '.', '!', '~', '*', '\'', '(', ')'].contains c ||
    (verbatim && (c == ',' || c == '[' || c == ']'))

def hexPair? : List Cell → Option (UInt8 × List Cell)
  | a :: b :: rest =>
    let digit? (c : Cell) : Option Nat :=
      let n := c.char.toNat
      if c.char.isDigit then some (n - 48)
      else if 65 ≤ n && n ≤ 70 then some (n - 55)
      else if 97 ≤ n && n ≤ 102 then some (n - 87)
      else none
    match digit? a, digit? b with
    | some a, some b => some ((a * 16 + b).toUInt8, rest)
    | _, _ => none
  | _ => none

/-- Percent escapes of bytes that each continue a character, `count` of them. -/
def continueEscape? : (count : Nat) → List Cell → Option (List UInt8 × List Cell)
  | 0, cells => some ([], cells)
  | count + 1, cells =>
    if !Cell.at? '%' cells then none
    else match hexPair? (cells.drop 1) with
      | some (byte, rest) =>
        if byte &&& 0xc0 == 0x80 then
          (continueEscape? count rest).map fun (bytes, rest) => (byte :: bytes, rest)
        else none
      | none => none

/-- How many bytes continue a character after its first one. -/
def continuation? (byte : UInt8) : Option Nat :=
  if byte &&& 0x80 == 0 then some 0
  else if byte &&& 0xe0 == 0xc0 then some 1
  else if byte &&& 0xf0 == 0xe0 then some 2
  else if byte &&& 0xf8 == 0xf0 then some 3
  else none

/-- Percent escapes that have the form of one character, after the first percent sign. -/
def uriEscape? (cells : List Cell) : Option (List UInt8 × List Cell) := do
  let (byte, rest) ← hexPair? cells
  let count ← continuation? byte
  let (bytes, rest) ← continueEscape? count rest
  some (byte :: bytes, rest)

/-- The bytes of the characters of a tag, at most `limit` of them. -/
def scanUri? (verbatim : Bool) : (limit : Nat) → List Cell → Option (List UInt8 × List Cell)
  | limit + 1, c :: rest =>
    if c.char == '%' then do
      let (bytes, rest) ← uriEscape? rest
      let (uri, rest) ← scanUri? verbatim limit rest
      some (bytes ++ uri, rest)
    else if isUriChar verbatim c.char then
      (scanUri? verbatim limit rest).map fun (uri, rest) => (c.char.toNat.toUInt8 :: uri, rest)
    else some ([], c :: rest)
  | _, rest => some ([], rest)

def scanWholeUri? (verbatim : Bool) (cells : List Cell) : Option (List UInt8 × List Cell) :=
  scanUri? verbatim (Cell.size cells) cells

/-- As before, for a tag that must have characters. -/
def scanSomeUri? (verbatim : Bool) (cells : List Cell) : Option (List UInt8 × List Cell) :=
  (scanWholeUri? verbatim cells).bind fun (uri, rest) =>
    if uri.isEmpty then none else some (Tag.beforeZero uri, rest)

/-- A tag after its exclamation mark, as a handle and what follows it: `!<uri>` has the empty
handle, `!name!suffix` a named one, `!suffix` the handle `!`, and `!` alone is a tag of its own. -/
def tagParts? (cells : List Cell) : Option (String × List UInt8 × List Cell) :=
  let (name, rest) := spanName cells
  if Cell.at? '<' cells then
    (scanSomeUri? true (cells.drop 1)).bind fun (uri, rest) =>
      if Cell.at? '>' rest then some ("", uri, rest.drop 1) else none
  else if Cell.at? '!' rest then
    (scanSomeUri? false (rest.drop 1)).map fun (uri, rest) =>
      ("!" ++ Cell.text name ++ "!", uri, rest)
  else
    (scanWholeUri? false rest).map fun (uri, rest) =>
      let suffix := Tag.beforeZero ((Tag.ofText (Cell.text name)).bytes ++ uri)
      if suffix.isEmpty then ("", (Tag.ofText "!").bytes, rest) else ("!", suffix, rest)

/-- A tag ends at a gap, or inside flow collections at a comma. -/
def scanTag? (inFlow : Bool) (cells : List Cell) : Option (Token × List Cell) := do
  let (handle, suffix, rest) ← tagParts? cells
  if Cell.atGap rest || (inFlow && Cell.at? ',' rest) then some (.tag handle suffix, rest) else none

/-- A number of at most nine digits. -/
def scanVersionNumber? (cells : List Cell) : Option (Nat × List Cell) :=
  let (digits, rest) := cells.span fun c => c.char.isDigit
  if digits.isEmpty || 9 < digits.length then none
  else some (digits.foldl (fun n c => n * 10 + (c.char.toNat - '0'.toNat)) 0, rest)

def scanVersion? (cells : List Cell) : Option (Token × List Cell) := do
  let (major, rest) ← scanVersionNumber? (skipBlanks cells)
  if Cell.at? '.' rest then
    let (minor, rest) ← scanVersionNumber? (rest.drop 1)
    some (.version major minor, rest)
  else none

/-- A handle with an exclamation mark at both ends, or a single one. -/
def scanHandle? (cells : List Cell) : Option (String × List Cell) :=
  if Cell.at? '!' cells then
    let (name, rest) := spanName (cells.drop 1)
    if Cell.at? '!' rest then some ("!" ++ Cell.text name ++ "!", rest.drop 1)
    else if name.isEmpty then some ("!", rest)
    else none
  else none

def scanTagDirective? (cells : List Cell) : Option (Token × List Cell) := do
  let (handle, rest) ← scanHandle? (skipBlanks cells)
  if rest.isEmpty || !(rest.take 1).all (fun c => isSpaceOrTab c.char) then none
  else
    let (uri, rest) ← scanSomeUri? true (skipBlanks rest)
    if Cell.atGap rest then some (.tagDirective handle uri, rest) else none

/-- A directive after its percent sign; a comment may end its line. -/
def scanDirective? (cells : List Cell) : Option (Token × List Cell) := do
  let (name, rest) := spanName cells
  if name.isEmpty || !Cell.atGap rest then none
  else
    let (token, rest) ←
      if Cell.text name == "YAML" then scanVersion? rest
      else if Cell.text name == "TAG" then scanTagDirective? rest
      else none
    let rest := skipBlanks rest
    let rest := if Cell.at? '#' rest then rest.dropWhile fun c => !isBreak c.char else rest
    match rest with
    | [] => some (token, [])
    | c :: rest => if isBreak c.char then some (token, rest) else none

end LoadPlan.Yaml
