import LoadPlan.Number.Decimal
import LoadPlan.Yaml.Row
import LoadPlan.Yaml.Scalar

/-! Written forms of scalars. A text is written plain where it would be read back as itself, else
in single quotes, on rows of its own if it has a line feed, and in double quotes where nothing else
can hold it. -/
namespace LoadPlan.Yaml.Quote

/-- Powers of ten have no plus sign here. -/
def floatLayout : Decimal.Layout := ⟨-5, 16, false⟩

/-- The text read as a plain scalar is that text. -/
def readsAsText (text : String) : Bool :=
  Scalar.ofPlain? text == some (.string text) &&
    !Scalar.isZeroPadded (Scalar.unsigned text.toList)

/-- Characters that are written as they are, in any style. -/
def isPrintable (c : Char) : Bool :=
  let n := c.toNat
  n == 0x0a || (0x20 ≤ n && n ≤ 0x7e) || (0xa0 ≤ n && n < 0xfffe && n != 0xfeff) || 0x10000 ≤ n

/-- Breaks of every kind, with those that only double quotes can hold. -/
def isAnyBreak (c : Char) : Bool := isBreak c || c == '\r' || c == '\u0085'

def isBlankOrEnd : List Char → Bool
  | [] => true
  | c :: _ => isSpaceOrTab c || isAnyBreak c

/-- Marks that a plain scalar cannot begin with. -/
def beginsWithMark : List Char → Bool
  | [] => false
  | c :: rest =>
    ['#', ',', '[', ']', '\x7b', '\x7d', '&', '*', '!', '|', '>', '\'', '"', '%', '@',
        '\x60'].contains c ||
      ((c == '?' || c == ':' || c == '-') && isBlankOrEnd rest)

/-- Marks that end a plain scalar: a colon before a blank, a number sign after one. -/
def holdsMark (afterBlank : Bool) : List Char → Bool
  | [] => false
  | c :: rest =>
    (c == ':' && isBlankOrEnd rest) || (c == '#' && afterBlank) || holdsMark (isBlankOrEnd [c]) rest

def beginsDocument (cs : List Char) : Bool :=
  cs.take 3 == ['-', '-', '-'] || cs.take 3 == ['.', '.', '.']

def allowsPlain (cs : List Char) : Bool :=
  cs.all (fun c => isPrintable c && !isBreak c) && cs.head? != some ' ' &&
    cs.getLast? != some ' ' && !beginsWithMark cs && !holdsMark false (cs.drop 1) &&
    !beginsDocument cs

/-- A space before a break. -/
def hasSpaceBeforeBreak : List Char → Bool
  | ' ' :: c :: rest => isBreak c || hasSpaceBeforeBreak (c :: rest)
  | _ :: rest => hasSpaceBeforeBreak rest
  | [] => false

/-- A space after a break. -/
def hasSpaceAfterBreak : List Char → Bool
  | c :: ' ' :: rest => isBreak c || hasSpaceAfterBreak rest
  | _ :: rest => hasSpaceAfterBreak rest
  | [] => false

def allowsSingle (cs : List Char) : Bool :=
  cs.all isPrintable && !hasSpaceBeforeBreak cs && !hasSpaceAfterBreak cs

def allowsLiteral (cs : List Char) : Bool :=
  cs.all isPrintable && !hasSpaceBeforeBreak cs && cs.getLast? != some ' '

def single (cs : List Char) : List Char :=
  '\'' :: cs.flatMap (fun c => if c == '\'' then ['\'', '\''] else [c]) ++ ['\'']

def hexDigits (count n : Nat) : List Char :=
  let digits := (Nat.toDigits 16 n).map Char.toUpper
  List.replicate (count - digits.length) '0' ++ digits

def escapeLetter? (c : Char) : Option Char :=
  match c with
  | '\x00' => some '0'
  | '\x07' => some 'a'
  | '\x08' => some 'b'
  | '\t' => some 't'
  | '\n' => some 'n'
  | '\x0b' => some 'v'
  | '\x0c' => some 'f'
  | '\r' => some 'r'
  | '\x1b' => some 'e'
  | '"' => some '"'
  | '\\' => some '\\'
  | '\u0085' => some 'N'
  | '\u00a0' => some '_'
  | '\u2028' => some 'L'
  | '\u2029' => some 'P'
  | _ => none

def escape (c : Char) : List Char :=
  if isPrintable c && !isBreak c && c != '"' && c != '\\' then [c]
  else match escapeLetter? c with
    | some letter => ['\\', letter]
    | none =>
      if c.toNat < 0x100 then '\\' :: 'x' :: hexDigits 2 c.toNat
      else if c.toNat < 0x10000 then '\\' :: 'u' :: hexDigits 4 c.toNat
      else '\\' :: 'U' :: hexDigits 8 c.toNat

def double (cs : List Char) : List Char := '"' :: cs.flatMap escape ++ ['"']

/-- Header of a literal scalar: an indentation digit where the text begins with a blank, and a
mark unless the text ends with exactly one line break. -/
def literalHeader (cs : List Char) : String :=
  let digit := if cs.head? == some ' ' || (cs.take 1).any isBreak then "2" else ""
  let chomp := match cs.reverse with
    | last :: before =>
      if !isBreak last then "-"
      else if before.isEmpty || (before.take 1).any isBreak then "+" else ""
    | [] => "-"
  "|" ++ digit ++ chomp

/-- Breaks written as escapes count as breaks. -/
def keySize (s : String) : Option Nat :=
  if s.toList.any isAnyBreak then none else some s.utf8ByteSize

def text (s : String) : Phrase :=
  let cs := s.toList
  let hasLineFeed := cs.contains '\n'
  if hasLineFeed && allowsLiteral cs then ⟨.ofText (literalHeader cs), Row.split cs, none⟩
  else if !hasLineFeed && readsAsText s && allowsPlain cs then .ofChars cs (keySize s)
  else if !hasLineFeed && allowsSingle cs then .ofChars (single cs) (keySize s)
  else .ofChars (double cs) (keySize s)

/-- The text of a scalar that is no text itself. -/
def word : Scalar → String
  | .null => "null"
  | .bool value => if value then "true" else "false"
  | .int value => toString value
  | .float value => floatLayout.write value
  | .infinity negative => if negative then "-.inf" else ".inf"
  | .nan => ".nan"
  | .string s => s

def scalar : Scalar → Phrase
  | .string s => text s
  | s => .ofText (word s) (some (word s).utf8ByteSize)

end LoadPlan.Yaml.Quote
