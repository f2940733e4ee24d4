import LoadPlan.Yaml.Node
import LoadPlan.Yaml.Scalar

/-! Values of YAML texts: the tree with its aliases replaced by the nodes they name, and its scalars
read by their form or tag. Keys of one mapping differ as values. -/
namespace LoadPlan.Yaml

inductive Value where
  | scalar (value : Scalar)
  | sequence (items : List Value)
  | mapping (entries : List (Value × Value))
  | tagged (tag : String) (value : Value)
  deriving Repr

/-- Equality of scalars as keys: zeros of either sign are one, and so is not-a-number. -/
def Scalar.same : Scalar → Scalar → Bool
  | .float x, .float y => x.sameValue y
  | a, b => a == b

namespace Value

mutual
/-- Equality of keys; the order of the entries of a mapping does not count. -/
def same : Value → Value → Bool
  | .scalar a, .scalar b => a.same b
  | .sequence xs, .sequence ys => sameItems xs ys
  | .mapping xs, .mapping ys => xs.length == ys.length && entriesIn xs ys
  | .tagged s a, .tagged t b => s == t && same a b
  | _, _ => false

def sameItems : List Value → List Value → Bool
  | [], [] => true
  | x :: xs, y :: ys => same x y && sameItems xs ys
  | _, _ => false

def entriesIn : List (Value × Value) → List (Value × Value) → Bool
  | [], _ => true
  | (k, v) :: rest, ys => ys.any (fun y => same k y.1 && same v y.2) && entriesIn rest ys
end

def hasKey (entries : List (Value × Value)) (key : Value) : Bool :=
  entries.any fun entry => entry.1.same key

/-- Collections nest at most this deep once aliases are replaced. -/
def maxDepth : Nat := 128

/-- Aliases are replaced at most this many times for each node or end of a collection. -/
def replacementsPerEvent : Nat := 100

end Value

namespace Node

mutual
/-- Nodes and ends of collections, aliases counting once. -/
def events : Node → Nat
  | .sequence _ items => eventsOfItems items + 2
  | .mapping _ entries => eventsOfEntries entries + 2
  | _ => 1

def eventsOfItems : List Node → Nat
  | [] => 0
  | item :: rest => events item + eventsOfItems rest

def eventsOfEntries : List (Node × Node) → Nat
  | [] => 0
  | (key, value) :: rest => events key + events value + eventsOfEntries rest
end

def named (p : Properties) (node : Node) : List (Nat × Node) :=
  match p.anchor with
  | some number => [(number, node)]
  | none => []

mutual
/-- The nodes with anchors, in the order written. -/
def anchored : Node → List (Nat × Node)
  | .alias _ => []
  | .scalar p text style => named p (.scalar p text style)
  | .sequence p items => named p (.sequence p items) ++ anchoredItems items
  | .mapping p entries => named p (.mapping p entries) ++ anchoredEntries entries

def anchoredItems : List Node → List (Nat × Node)
  | [] => []
  | item :: rest => anchored item ++ anchoredItems rest

def anchoredEntries : List (Node × Node) → List (Nat × Node)
  | [] => []
  | (key, value) :: rest => anchored key ++ anchored value ++ anchoredEntries rest
end

/-- Reading a value may fail, and replaces a limited number of aliases. -/
abbrev Reading (α : Type) := StateT Nat Option α

def replaceAlias (table : List (Nat × Node)) (number : Nat) : Reading Node := fun left =>
  match left, table.lookup number with
  | left + 1, some node => some (node, left)
  | _, _ => none

/-- The value under the name of its tag, if that is one of the document's own. -/
def applyTag (p : Properties) (value : Value) : Value :=
  match p.tag.bind Tag.ownName? with
  | some name => .tagged name value
  | none => value

/-- A scalar by its tag, else by its form; tags of the document's own leave the form in force. -/
def scalar? (p : Properties) (text : String) (style : Style) : Option Scalar :=
  let untagged := if style == .plain then Scalar.ofPlain? text else some (.string text)
  match p.tag with
  | none => untagged
  | some tag =>
    if tag.isOwn then untagged
    else (Scalar.ofTagged? tag text).getD (some (.string text))

def readItems (read : Node → Reading Value) : List Node → Reading (List Value)
  | [] => pure []
  | item :: rest => do
    let value ← read item
    let values ← readItems read rest
    pure (value :: values)

/-- Entries in the order written, those already read being the first argument. -/
def readEntries (read : Node → Reading Value) (done : List (Value × Value)) :
    List (Node × Node) → Reading (List (Value × Value))
  | [] => pure done
  | (key, value) :: rest => do
    let key ← read key
    if Value.hasKey done key then failure
    else
      let value ← read value
      readEntries read (done ++ [(key, value)]) rest

/-- The value of a node that is no alias; `inner` reads its parts unless it is too deep. -/
def readContent (inner : Option (Node → Reading Value)) : Node → Reading Value
  | .alias _ => failure
  | .scalar p text style =>
    StateT.lift ((scalar? p text style).map fun s => applyTag p (.scalar s))
  | .sequence p items => do
    let values ← match inner with
      | some read => readItems read items
      | none => failure
    pure (applyTag p (.sequence values))
  | .mapping p entries => do
    let entries ← match inner with
      | some read => readEntries read [] entries
      | none => failure
    pure (applyTag p (.mapping entries))

/-- The value of a node with at most `depth` collections one in another. -/
def read (table : List (Nat × Node)) (depth : Nat) (node : Node) : Reading Value := do
  let inner := match depth with
    | 0 => none
    | depth + 1 => some (read table depth)
  match node with
  | .alias number => do
    let target ← replaceAlias table number
    readContent inner target
  | node => readContent inner node

/-- Anchors with their nodes, of two with one number the later. -/
def anchorTable (root : Node) : List (Nat × Node) := root.anchored.reverse

def value? (root : Node) : Option Value :=
  let budget := root.events * Value.replacementsPerEvent
  ((root.read root.anchorTable Value.maxDepth).run budget).map Prod.fst

end Node

def Value.read? (text : String) : Option Value := (Node.read? text).bind Node.value?

end LoadPlan.Yaml
