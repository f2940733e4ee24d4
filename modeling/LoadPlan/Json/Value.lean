import LoadPlan.Number.Double

/-! JSON values. Object fields are a list in the order written; readers never build one with a
key twice, and looking a key up takes the first. -/
namespace LoadPlan

inductive Json where
  | null
  | bool (value : Bool)
  | int (value : Int)
  | float (value : Double)
  | string (text : String)
  | array (items : List Json)
  | object (fields : List (String × Json))
  deriving Repr, BEq, Inhabited

namespace Json

def get? : Json → String → Option Json
  | .object fields, key => fields.lookup key
  | _, _ => none

def string? : Json → Option String
  | .string text => some text
  | _ => none

def items? : Json → Option (List Json)
  | .array items => some items
  | _ => none

def fields? : Json → Option (List (String × Json))
  | .object fields => some fields
  | _ => none

/-- A non-negative whole number below 2^64; floats are none, whatever their value. -/
def nat? : Json → Option Nat
  | .int n => if 0 ≤ n ∧ n < twoTo 64 then some n.toNat else none
  | _ => none

/-- Numbers as floating-point values, whole ones rounded. -/
def double? : Json → Option Double
  | .int n => Double.ofInt? n
  | .float x => some x
  | _ => none

def first? (node : Json) : Option Json := node.items?.bind List.head?

/-- A field with a new key goes last; one with a known key keeps that key's place. -/
def insert (fields : List (String × Json)) (key : String) (value : Json) : List (String × Json) :=
  match fields with
  | [] => [(key, value)]
  | (k, v) :: rest =>
    if k == key then (k, value) :: rest else (k, v) :: insert rest key value

/-- The object with these fields, a later one replacing an earlier one of the same key. -/
def ofFields (fields : List (String × Json)) : Json :=
  .object (fields.foldl (fun done (key, value) => insert done key value) [])

/-- The finite float, or null for an absent one. -/
def ofDouble? : Option Double → Json
  | some x => .float x
  | none => .null

mutual
/-- Nesting of arrays and objects; scalars have none. -/
def depth : Json → Nat
  | .array items => depthItems items + 1
  | .object fields => depthFields fields + 1
  | _ => 0

def depthItems : List Json → Nat
  | [] => 0
  | item :: rest => max (depth item) (depthItems rest)

def depthFields : List (String × Json) → Nat
  | [] => 0
  | (_, value) :: rest => max (depth value) (depthFields rest)
end

end Json
end LoadPlan
