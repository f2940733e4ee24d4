import LoadPlan.Yaml.Cell

/-! Rows of written YAML. A break ends each row. Rows below the first are indented unless they are
empty. -/
namespace LoadPlan.Yaml

/-- The characters of a row and the break that ends it. -/
structure Row where
  chars : List Char
  ending : Char
  deriving Repr, DecidableEq

namespace Row

def ofText (text : String) : Row := ⟨text.toList, '\n'⟩

/-- The rows of a text. The last ends in a line feed where the text does not end in a break. -/
def split : List Char → List Row
  | [] => []
  | c :: rest =>
    if isBreak c then ⟨[], c⟩ :: split rest
    else match split rest with
      | [] => [⟨[c], '\n'⟩]
      | row :: rows => ⟨c :: row.chars, row.ending⟩ :: rows

def after (mark : String) (row : Row) : Row := ⟨mark.toList ++ row.chars, row.ending⟩

def indent (row : Row) : Row := if row.chars.isEmpty then row else row.after "  "

def indentAll (rows : List Row) : List Row := rows.map indent

def join (rows : List Row) : String :=
  String.ofList (rows.flatMap fun row => row.chars ++ [row.ending])

end Row

/-- A written scalar, or a collection on one row: its first row with those below. Its size as a key
counts the bytes of its text and tag; one whose text has a break is no key of one row. -/
structure Phrase where
  first : Row
  below : List Row
  size : Option Nat

namespace Phrase

def ofText (text : String) (size : Option Nat) : Phrase := ⟨.ofText text, [], size⟩

def ofChars (written : List Char) (size : Option Nat) : Phrase :=
  match Row.split written with
  | [] => .ofText "" size
  | first :: below => ⟨first, below, size⟩

def rows (phrase : Phrase) : List Row := phrase.first :: Row.indentAll phrase.below

/-- The phrase after a tag of so many bytes. -/
def withTag (tag : String) (bytes : Nat) (phrase : Phrase) : Phrase :=
  ⟨phrase.first.after (tag ++ " "), phrase.below, phrase.size.map (· + bytes)⟩

end Phrase
end LoadPlan.Yaml
