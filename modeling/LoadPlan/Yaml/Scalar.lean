import LoadPlan.Number.Double
import LoadPlan.Yaml.Tag

/-! What plain scalars stand for: null, truth values, whole numbers, floats and texts. -/
namespace LoadPlan.Yaml

inductive Scalar where
  | null
  | bool (value : Bool)
  | int (value : Int)
  | float (value : Double)
  | infinity (negative : Bool)
  | nan
  | string (text : String)
  deriving Repr, DecidableEq

namespace Scalar

def isNullWord (text : String) : Bool := ["~", "null", "Null", "NULL"].contains text

def boolWord? (text : String) : Option Bool :=
  if ["true", "True", "TRUE"].contains text then some true
  else if ["false", "False", "FALSE"].contains text then some false
  else none

def digit? (base : Nat) (c : Char) : Option Nat :=
  let n := c.toNat
  let value :=
    if c.isDigit then n - 48
    else if 97 ≤ n && n ≤ 122 then n - 87
    else if 65 ≤ n && n ≤ 90 then n - 55
    else base
  if value < base then some value else none

/-- Digits of a base, of which there must be one. -/
def digits? (base : Nat) (cs : List Char) : Option Nat :=
  if cs.isEmpty then none
  else cs.foldl (fun n c => n.bind fun n => (digit? base c).map (n * base + ·)) (some 0)

/-- Digits that begin with a zero are no number, nor is a single zero's sign in the way of it. -/
def isZeroPadded : List Char → Bool
  | '0' :: c :: rest => (c :: rest).all Char.isDigit
  | _ => false

/-- A whole number without its sign: decimal, or of the base that its second letter tells. -/
def magnitude? : List Char → Option Nat
  | '0' :: 'x' :: rest => digits? 16 rest
  | '0' :: 'o' :: rest => digits? 8 rest
  | '0' :: 'b' :: rest => digits? 2 rest
  | cs => if isZeroPadded cs then none else digits? 10 cs

def int? : List Char → Option Int
  | '-' :: rest => (magnitude? rest).map fun n => -(n : Int)
  | '+' :: rest => (magnitude? rest).map Int.ofNat
  | cs => (magnitude? cs).map Int.ofNat

/-- The power of ten after the digits, when all of the text is one. -/
def power? : List Char → Option Int
  | [] => some 0
  | e :: rest =>
    if e != 'e' && e != 'E' then none
    else match rest with
      | '-' :: rest => (digits? 10 rest).map fun n => -(n : Int)
      | '+' :: rest => (digits? 10 rest).map Int.ofNat
      | rest => (digits? 10 rest).map Int.ofNat

/-- Digits with at most one point among or beside them, and a power of ten. -/
def decimal? (negative : Bool) (cs : List Char) : Option Double :=
  let (whole, rest) := cs.span Char.isDigit
  let (fraction, rest) := match rest with
    | '.' :: rest => rest.span Char.isDigit
    | rest => ([], rest)
  match digits? 10 (whole ++ fraction), power? rest with
  | some digits, some power => Double.ofDecimal? negative digits (power - fraction.length)
  | _, _ => none

def finite? : List Char → Option Double
  | '-' :: rest => decimal? true rest
  | '+' :: rest => decimal? false rest
  | cs => decimal? false cs

/-- Floats; numbers too large are none, so they stay texts. -/
def float? (text : String) : Option Scalar :=
  if [".inf", ".Inf", ".INF", "+.inf", "+.Inf", "+.INF"].contains text then some (infinity false)
  else if ["-.inf", "-.Inf", "-.INF"].contains text then some (infinity true)
  else if [".nan", ".NaN", ".NAN"].contains text then some nan
  else (finite? text.toList).map float

/-- The whole numbers that are kept. Others within 128 bits are refused. -/
def fits64 (n : Int) : Bool := -twoTo 63 ≤ n && n < twoTo 64

def fits128 (n : Int) : Bool := -twoTo 127 ≤ n && n < twoTo 128

/-- Whole numbers beyond 128 bits are none, and are then read as floats. -/
inductive WholeNumber where
  | value (n : Int)
  | refused
  | other

def wholeNumber (text : String) : WholeNumber :=
  match int? text.toList with
  | some n => if fits64 n then .value n else if fits128 n then .refused else .other
  | none => .other

def unsigned : List Char → List Char
  | '-' :: rest => rest
  | '+' :: rest => rest
  | cs => cs

/-- A plain scalar without a tag. -/
def ofPlain? (text : String) : Option Scalar :=
  if text.isEmpty || isNullWord text then some null
  else match boolWord? text with
    | some value => some (bool value)
    | none => match wholeNumber text with
      | .value n => some (int n)
      | .refused => none
      | .other =>
        if isZeroPadded (unsigned text.toList) then some (string text)
        else some ((float? text).getD (string text))

/-- A scalar with one of the four tags that force a type, whatever its style. -/
def ofTagged? (tag : Tag) (text : String) : Option (Option Scalar) :=
  if tag == .shared "bool" then some ((boolWord? text).map bool)
  else if tag == .shared "int" then
    some (match wholeNumber text with
      | .value n => some (int n)
      | _ => none)
  else if tag == .shared "float" then some (float? text)
  else if tag == .shared "null" then some (if isNullWord text then some null else none)
  else none

end Scalar
end LoadPlan.Yaml
