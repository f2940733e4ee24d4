import LoadPlan.Number.Double

/-! The shortest decimal of a floating-point number, and its written form. The digits are those
of the coarsest decimal grid that has a point in the interval of reals rounding to the number;
of two such points the nearer is taken. How digits and exponent are laid out is a record, since
JSON texts and mapping keys differ in it. -/
namespace LoadPlan

/-- The decimal `digits · 10^exponent`. -/
structure Decimal where
  digits : Nat
  exponent : Int
  deriving DecidableEq, Repr, Inhabited

namespace Decimal

/-- The reals that round to a number, in quarters of a unit; the ends belong to them
when the significand is even. -/
structure Interval where
  low : Nat
  value : Nat
  high : Nat
  closed : Bool

def interval (units : Nat) : Interval :=
  let gap := twoTo (Double.spareBits units)
  let below := if units = gap * twoTo 52 ∧ 1 < gap then gap else 2 * gap
  ⟨4 * units - below, 4 * units, 4 * units + 2 * gap, units / gap % 2 == 0⟩

/-- Both members of the comparison of `count · 10^exponent` with `quarters`, as whole numbers. -/
def Interval.sides (count : Nat) (exponent : Int) (quarters : Nat) : Nat × Nat :=
  match exponent with
  | .ofNat e => (count * tenTo e * (4 * Double.one), quarters)
  | .negSucc e => (count * (4 * Double.one), quarters * tenTo (e + 1))

def Interval.contains (i : Interval) (count : Nat) (exponent : Int) : Bool :=
  let (point, low) := sides count exponent i.low
  let (_, high) := sides count exponent i.high
  if i.closed then low ≤ point && point ≤ high else low < point && point < high

/-- The point of the grid of step `10^exponent` that lies in the interval and is nearest to the
value; an exact tie goes to the even count. -/
def Interval.onGrid? (i : Interval) (exponent : Int) : Option Nat :=
  let (step, value) := sides 1 exponent i.value
  let below := value / step
  match i.contains below exponent, i.contains (below + 1) exponent with
  | false, false => none
  | true, false => some below
  | false, true => some (below + 1)
  | true, true => some (Double.roundDiv value step)

/-- The first hit on ever finer grids, `tries` of them at most. -/
def Interval.coarsest (i : Interval) : (tries : Nat) → (exponent : Int) → Decimal
  | 0, exponent => ⟨0, exponent⟩
  | tries + 1, exponent =>
    match i.onGrid? exponent with
    | some digits => ⟨digits, exponent⟩
    | none => i.coarsest tries (exponent - 1)

/-- Ten to the next exponent is above the number, so no coarser grid has a point in its
interval; 1233/4096 is close to the decimal logarithm of two. -/
def ceilingExponent (units : Nat) : Int :=
  (((units.log2 : Int) - 1073) * 1233).fdiv 4096 + 1

/-- Twenty-five grids reach past seventeen significant digits, which always suffice. -/
def shortest (x : Double) : Decimal :=
  (interval x.units).coarsest 25 (ceilingExponent x.units)

/-- How a decimal is written: the exponents of ten of the leading digit for which no power is
written, and whether a positive power shows its sign. -/
structure Layout where
  plainFrom : Int
  plainBelow : Int
  plusSign : Bool

def zeros (n : Nat) : String := String.ofList (List.replicate n '0')

/-- Digits of a positive decimal with its point, or with a power of ten. -/
def Layout.positive (layout : Layout) (d : Decimal) : String :=
  let digits := Nat.toDigits 10 d.digits
  let leading : Int := digits.length - 1 + d.exponent
  if layout.plainFrom ≤ leading ∧ leading < layout.plainBelow then
    if 0 ≤ d.exponent then String.ofList digits ++ zeros d.exponent.toNat ++ ".0"
    else if 0 ≤ leading then
      let whole := leading.toNat + 1
      String.ofList (digits.take whole) ++ "." ++ String.ofList (digits.drop whole)
    else "0." ++ zeros (-leading - 1).toNat ++ String.ofList digits
  else
    let sign := if leading < 0 then "-" else if layout.plusSign then "+" else ""
    let fraction := if digits.length ≤ 1 then "" else "." ++ String.ofList (digits.drop 1)
    String.ofList (digits.take 1) ++ fraction ++ "e" ++ sign ++ toString leading.natAbs

def Layout.write (layout : Layout) (x : Double) : String :=
  let sign := if x.negative then "-" else ""
  if x.units = 0 then sign ++ "0.0" else sign ++ layout.positive (shortest x)

end Decimal
end LoadPlan
