import LoadPlan.Yaml.Cell

/-! Block scalars: a header, then the lines that are indented. -/
namespace LoadPlan.Yaml

/-- What becomes of the line breaks at the end. -/
inductive Chomp where
  | strip
  | clip
  | keep

structure BlockHeader where
  chomp : Chomp
  indent : Option Nat

def chompMark? (c : Char) : Option Chomp :=
  if c == '+' then some .keep else if c == '-' then some .strip else none

/-- An indentation digit, which must not be zero. -/
def indentDigit? : List Cell → Option (Option Nat × List Cell)
  | c :: rest =>
    if c.char == '0' then none
    else if c.char.isDigit then some (some (c.char.toNat - '0'.toNat), rest)
    else some (none, c :: rest)
  | [] => some (none, [])

def chomp? : List Cell → Option Chomp × List Cell
  | c :: rest =>
    match chompMark? c.char with
    | some chomp => (some chomp, rest)
    | none => (none, c :: rest)
  | [] => (none, [])

/-- The two marks of a header come in either order. -/
def blockMarks? (cells : List Cell) : Option (BlockHeader × List Cell) :=
  match chomp? cells with
  | (some chomp, rest) => (indentDigit? rest).map fun (indent, rest) => (⟨chomp, indent⟩, rest)
  | (none, rest) =>
    match indentDigit? rest with
    | none => none
    | some (none, rest) => some (⟨.clip, none⟩, rest)
    | some (indent, rest) =>
      let (chomp, rest) := chomp? rest
      some (⟨chomp.getD .clip, indent⟩, rest)

/-- The rest of a line that may only hold blanks and a comment, with its break. -/
def skipLine? (cells : List Cell) : Option (List Cell) :=
  let rest := cells.dropWhile fun c => isSpaceOrTab c.char
  let rest := if Cell.at? '#' rest then rest.dropWhile fun c => !isBreak c.char else rest
  match rest with
  | [] => some []
  | c :: rest => if isBreak c.char then some rest else none

/-- A block scalar under construction. Characters are latest first; `pending` is the break that
ended the last line, `empty` are the breaks of the empty lines after it, and `blank` tells that
the last line began with a blank. -/
structure BlockText where
  done : List Char
  pending : Option Char
  empty : List Char
  blank : Bool

namespace BlockText

def start : BlockText := ⟨[], none, [], false⟩

/-- A line begins with the given character: folding turns the single break between two lines
into a space, unless one of them begins with a blank. -/
def beginLine (b : BlockText) (folded : Bool) (c : Char) : BlockText :=
  let starts := isSpaceOrTab c
  let joined :=
    if folded && b.pending == some '\n' && !b.blank && !starts then
      if b.empty.isEmpty then [' '] else b.empty
    else b.pending.toList ++ b.empty
  ⟨joined.reverse ++ b.done, none, [], starts⟩

def finish (b : BlockText) : Chomp → String
  | .strip => String.ofList b.done.reverse
  | .clip => String.ofList (b.done.reverse ++ b.pending.toList)
  | .keep => String.ofList (b.done.reverse ++ b.pending.toList ++ b.empty)

end BlockText

/-- Where a block scalar stands: before its first line with the widest indentation seen, at the
start of a line, or within one. -/
inductive BlockState where
  | leading (widest : Nat)
  | lineStart (indent : Nat)
  | inLine (indent : Nat)

/-- Reads the lines after the header; `least` is the smallest indentation the first may have.
The answer is none for a tab where indentation is expected. -/
def scanLines (folded : Bool) (chomp : Chomp) (least : Nat) (b : BlockText) (state : BlockState) :
    List Cell → Option (String × List Cell)
  | [] => some (b.finish chomp, [])
  | c :: rest =>
    let stop := some (b.finish chomp, c :: rest)
    let line (indent : Nat) (b : BlockText) :=
      scanLines folded chomp least { b with done := c.char :: b.done } (.inLine indent) rest
    match state with
    | .leading widest =>
      if c.char == ' ' then scanLines folded chomp least b (.leading widest) rest
      else if c.char == '\t' then none
      else if isBreak c.char then
        scanLines folded chomp least { b with empty := b.empty ++ [c.char] }
          (.leading (max widest c.column)) rest
      else
        let indent := max (max widest c.column) least
        if c.column == indent then line indent (b.beginLine folded c.char) else stop
    | .lineStart indent =>
      if c.column < indent && c.char == ' ' then
        scanLines folded chomp least b (.lineStart indent) rest
      else if c.column < indent && c.char == '\t' then none
      else if isBreak c.char then
        scanLines folded chomp least { b with empty := b.empty ++ [c.char] } (.lineStart indent)
          rest
      else if c.column == indent then line indent (b.beginLine folded c.char) else stop
    | .inLine indent =>
      if isBreak c.char then
        scanLines folded chomp least { b with pending := some c.char } (.lineStart indent) rest
      else line indent b

/-- A block scalar after its mark, within a block of the given indentation (-1 at the top). -/
def scanBlock? (folded : Bool) (parent : Int) (cells : List Cell) :
    Option (String × List Cell) := do
  let (header, rest) ← blockMarks? cells
  let rest ← skipLine? rest
  let least := max (parent + 1) 1
  match header.indent with
  | none => scanLines folded header.chomp least.toNat .start (.leading 0) rest
  | some digit =>
    scanLines folded header.chomp least.toNat .start
      (.lineStart ((max parent 0).toNat + digit)) rest

end LoadPlan.Yaml
