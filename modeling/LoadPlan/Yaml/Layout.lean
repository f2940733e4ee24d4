import LoadPlan.Yaml.Quote
import LoadPlan.Yaml.Token
import LoadPlan.Yaml.Value

/-! Written forms of values, one item or entry a row. They name mapping keys that are neither
texts, numbers, truth values nor null. -/
namespace LoadPlan.Yaml

/-- A written value: a phrase that stands beside the mark before it, or rows that may begin beside
that mark unless a tag stands there. -/
inductive Layout where
  | inline (phrase : Phrase)
  | block (tag : Option String) (rows : List Row) (ofSequence : Bool)

namespace Layout

/-- After a dash, or a mark on a row of its own. -/
def beside (mark : String) : Layout → List Row
  | inline phrase => phrase.first.after (mark ++ " ") :: Row.indentAll phrase.below
  | block (some tag) rows _ => .ofText (mark ++ " " ++ tag) :: Row.indentAll rows
  | block none [] _ => [.ofText mark]
  | block none (first :: rest) _ => first.after (mark ++ " ") :: Row.indentAll rest

/-- Sequences are not indented below a key or a tag in a mapping. -/
def below (rows : List Row) (ofSequence : Bool) : List Row :=
  if ofSequence then rows else Row.indentAll rows

/-- After the marks of a key and value that are not on one row. -/
def marked (mark : String) : Layout → List Row
  | block (some tag) rows ofSequence => .ofText (mark ++ " " ++ tag) :: below rows ofSequence
  | layout => beside mark layout

/-- After a key on its row. -/
def afterKey (key : Row) : Layout → List Row
  | inline phrase =>
    ⟨key.chars ++ ':' :: ' ' :: phrase.first.chars, phrase.first.ending⟩ ::
      Row.indentAll phrase.below
  | block (some tag) rows ofSequence =>
    ⟨key.chars ++ ':' :: ' ' :: tag.toList, '\n'⟩ :: below rows ofSequence
  | block none rows ofSequence => ⟨key.chars ++ [':'], '\n'⟩ :: below rows ofSequence

/-- A key that shares its row with the value. -/
def shortKey? : Layout → Option Row
  | inline phrase => phrase.size.bind fun size => if size ≤ 128 then some phrase.first else none
  | block _ _ _ => none

def entry (key value : Layout) : List Row :=
  match key.shortKey? with
  | some row => value.afterKey row
  | none => key.marked "?" ++ value.marked ":"

def withTag (tag : String) (bytes : Nat) : Layout → Layout
  | inline phrase => inline (phrase.withTag tag bytes)
  | block _ rows ofSequence => block (some tag) rows ofSequence

def rows : Layout → List Row
  | inline phrase => phrase.rows
  | block tag rows _ => tag.toList.map Row.ofText ++ rows

end Layout

namespace Tag

/-- Characters of tags that are not written as percent escapes. -/
def isWritten (c : Char) : Bool := isUriChar true c && c != '!'

def byteEscape (byte : UInt8) : List Char := '%' :: Quote.hexDigits 2 byte.toNat

def escape (c : Char) : List Char :=
  if isWritten c then [c] else c.toString.toUTF8.toList.flatMap byteEscape

/-- The tag of a name: an exclamation mark is put before it unless it has one. -/
def ofName (name : String) : String := if name.toList.head? == some '!' then name else "!" ++ name

/-- A written tag. One that is an exclamation mark only is written in full. -/
def write (tag : String) : String :=
  match tag.toList with
  | '!' :: c :: rest => String.ofList ('!' :: (c :: rest).flatMap escape)
  | cs => String.ofList ('!' :: '<' :: cs.flatMap escape ++ ['>'])

end Tag

namespace Value

/-- An entry that cannot be the only one of its mapping, since its key would be taken for a tag. -/
def keyIsTagLike : List (Value × Value) → Bool
  | [(.tagged _ _, _)] => true
  | [(.mapping [_], _)] => true
  | _ => false

mutual
/-- Whether a value has a written form. A tag before a mapping lets it hold any one entry. -/
def isWritable (afterTag : Bool) : Value → Bool
  | .scalar _ => true
  | .sequence items => areWritable items
  | .mapping entries => (afterTag || !keyIsTagLike entries) && entriesAreWritable entries
  | .tagged _ value => isWritable true value

def areWritable : List Value → Bool
  | [] => true
  | item :: rest => isWritable false item && areWritable rest

def entriesAreWritable : List (Value × Value) → Bool
  | [] => true
  | (key, value) :: rest =>
    isWritable false key && isWritable false value && entriesAreWritable rest
end

mutual
def layout : Value → Layout
  | .scalar s => .inline (Quote.scalar s)
  | .sequence [] => .inline (.ofText "[]" (some 0))
  | .sequence (item :: rest) => .block none (itemRows (item :: rest)) true
  | .mapping [] => .inline (.ofText "\x7b\x7d" (some 0))
  | .mapping (entry :: rest) => .block none (entryRows (entry :: rest)) false
  | .tagged name value =>
    let tag := Tag.ofName name
    (layout value).withTag (Tag.write tag) tag.utf8ByteSize

def itemRows : List Value → List Row
  | [] => []
  | item :: rest => (layout item).beside "-" ++ itemRows rest

def entryRows : List (Value × Value) → List Row
  | [] => []
  | (key, value) :: rest => Layout.entry (layout key) (layout value) ++ entryRows rest
end

def text? (value : Value) : Option String :=
  if value.isWritable false then some (Row.join value.layout.rows) else none

end Value
end LoadPlan.Yaml
