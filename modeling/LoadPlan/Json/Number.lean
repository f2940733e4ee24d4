import LoadPlan.Json.Value

/-! Numbers in JSON texts. Whole numbers from -2^63 to 2^64 - 1 without fraction or power stay
whole, except that a negated zero is the float -0.0. All others become floats in two roundings:
digits are gathered into a 64-bit significand, and the significand is scaled by a power of ten. -/
namespace LoadPlan.Json

/-- A number as written: digits before and after the point, and the power of ten. -/
structure Numeral where
  negative : Bool
  whole : List Nat
  fraction : List Nat
  exponent : Option (Bool × List Nat)

namespace Numeral

def digitValue (c : Char) : Nat := c.toNat - '0'.toNat

/-- The digits in front and what follows them; there must be one. -/
def scanDigits (cs : List Char) : Option (List Nat × List Char) :=
  if (cs.takeWhile Char.isDigit).isEmpty then none
  else some ((cs.takeWhile Char.isDigit).map digitValue, cs.dropWhile Char.isDigit)

/-- Whole digits: a single zero, or digits that do not begin with one. -/
def scanWhole : List Char → Option (List Nat × List Char)
  | '0' :: rest => some ([0], rest)
  | cs => scanDigits cs

def scanFraction : List Char → Option (List Nat × List Char)
  | '.' :: rest => scanDigits rest
  | cs => some ([], cs)

/-- The sign of a written power: true unless it is a minus. -/
def scanSign : List Char → Bool × List Char
  | '+' :: rest => (true, rest)
  | '-' :: rest => (false, rest)
  | cs => (true, cs)

def scanPower (cs : List Char) : Option (Option (Bool × List Nat) × List Char) :=
  (scanDigits (scanSign cs).2).map fun (digits, rest) => (some ((scanSign cs).1, digits), rest)

def scanExponent : List Char → Option (Option (Bool × List Nat) × List Char)
  | 'e' :: rest => scanPower rest
  | 'E' :: rest => scanPower rest
  | cs => some (none, cs)

/-- A number without its minus. -/
def scan (negative : Bool) (cs : List Char) : Option (Numeral × List Char) := do
  let (whole, rest) ← scanWhole cs
  let (fraction, rest) ← scanFraction rest
  let (exponent, rest) ← scanExponent rest
  some (⟨negative, whole, fraction, exponent⟩, rest)

private theorem scanDigits_length {cs rest : List Char} (h : scanDigits cs = some (ds, rest)) :
    rest.length < cs.length := by
  unfold scanDigits at h
  split at h
  · simp at h
  · rename_i hne
    simp only [Option.some.injEq, Prod.mk.injEq] at h
    have hsum := congrArg List.length
      (List.takeWhile_append_dropWhile (p := Char.isDigit) (l := cs))
    have hpos : 0 < (cs.takeWhile Char.isDigit).length := by
      simpa [List.length_pos_iff] using hne
    rw [List.length_append, h.2] at hsum
    omega

private theorem scanWhole_length {cs rest : List Char} (h : scanWhole cs = some (ds, rest)) :
    rest.length < cs.length := by
  unfold scanWhole at h
  split at h
  · simp_all
  · exact scanDigits_length h

private theorem scanFraction_length {cs rest : List Char} (h : scanFraction cs = some (ds, rest)) :
    rest.length ≤ cs.length := by
  unfold scanFraction at h
  split at h
  · have := scanDigits_length h
    simp only [List.length_cons]
    omega
  · simp_all

private theorem scanPower_length {cs rest : List Char} (h : scanPower cs = some (e, rest)) :
    rest.length < cs.length := by
  simp only [scanPower, Option.map_eq_some_iff, Prod.mk.injEq] at h
  obtain ⟨⟨_, _⟩, hd, _, rfl⟩ := h
  have hsign : (scanSign cs).2.length ≤ cs.length := by unfold scanSign; split <;> simp
  have := scanDigits_length hd
  simp only at *
  omega

private theorem scanExponent_length {cs rest : List Char}
    (h : scanExponent cs = some (e, rest)) : rest.length ≤ cs.length := by
  unfold scanExponent at h
  split at h
  · have := scanPower_length h
    simp only [List.length_cons]
    omega
  · have := scanPower_length h
    simp only [List.length_cons]
    omega
  · simp_all

theorem scan_length {neg : Bool} {cs rest : List Char} (h : scan neg cs = some (n, rest)) :
    rest.length < cs.length := by
  simp only [scan, Option.bind_eq_bind, Option.bind_eq_some_iff, Option.some.injEq,
    Prod.mk.injEq] at h
  obtain ⟨⟨_, _⟩, h1, ⟨_, _⟩, h2, ⟨_, _⟩, h3, _, rfl⟩ := h
  have := scanWhole_length h1
  have := scanFraction_length h2
  have := scanExponent_length h3
  simp only at *
  omega

/-- A significand below this bound is kept exactly. -/
def significandLimit : Nat := UInt64.size

/-- A significand and the power of ten it is to be scaled by; once full it takes no more digits. -/
structure Gathered where
  significand : Nat
  exponent : Int
  full : Bool

/-- A whole digit that no longer fits, and every one after it, counts as one power of ten. -/
def Gathered.wholeDigit (g : Gathered) (d : Nat) : Gathered :=
  let next := g.significand * 10 + d
  if g.full || significandLimit ≤ next then { g with exponent := g.exponent + 1, full := true }
  else { g with significand := next }

/-- A fraction digit that no longer fits is ignored, with every one after it. -/
def Gathered.fractionDigit (g : Gathered) (d : Nat) : Gathered :=
  let next := g.significand * 10 + d
  if g.full || significandLimit ≤ next then { g with full := true }
  else { g with significand := next, exponent := g.exponent - 1 }

def gather (n : Numeral) : Gathered :=
  let whole := n.whole.foldl Gathered.wholeDigit ⟨0, 0, false⟩
  n.fraction.foldl Gathered.fractionDigit { whole with full := false }

/-- The largest power of ten that is a float. -/
def largestPower : Nat := 308

def powerOfTen? (e : Nat) : Option Double := Double.nearest? false (tenTo e) 1

/-- Division by `10^n`, in steps of the largest power. -/
def scaleDown (x : Double) (n : Nat) : Option Double :=
  if n ≤ largestPower then (powerOfTen? n).bind x.div?
  else if x.units = 0 then some x
  else ((powerOfTen? largestPower).bind x.div?).bind fun y => scaleDown y (n - largestPower)
  termination_by n
  decreasing_by simp only [largestPower] at *; omega

def scale (x : Double) : Int → Option Double
  | .ofNat n =>
    if n ≤ largestPower then (powerOfTen? n).bind x.mul?
    else if x.units = 0 then some x else none
  | .negSucc n => scaleDown x (n + 1)

def ofDigits (digits : List Nat) : Nat := digits.foldl (fun n d => n * 10 + d) 0

/-- A written power beyond 31 bits is refused when it would make the number large. -/
def float? (n : Numeral) : Option Double := do
  let g := n.gather
  let (up, power) := match n.exponent with
    | some (up, digits) => (up, ofDigits digits)
    | none => (true, 0)
  let magnitude ←
    if twoTo 31 ≤ power then if up && g.significand != 0 then none else some (Double.zero false)
    else do
      let x ← Double.ofNat? g.significand
      scale x (if up then g.exponent + power else g.exponent - power)
  some { magnitude with negative := n.negative }

def toJson? (n : Numeral) : Option Json :=
  let value := ofDigits n.whole
  if n.exponent.isNone && n.fraction.isEmpty && !n.negative && value < twoTo 64 then
    some (.int value)
  else if n.exponent.isNone && n.fraction.isEmpty && n.negative && 0 < value &&
      value ≤ twoTo 63 then
    some (.int (-value))
  else n.float?.map .float

end Numeral

/-- A number with or without a minus; one that is out of range has no value. -/
def scanNumber : List Char → Option (Option Json × List Char)
  | '-' :: rest => (Numeral.scan true rest).map fun (n, rest) => (n.toJson?, rest)
  | cs => (Numeral.scan false cs).map fun (n, rest) => (n.toJson?, rest)

theorem scanNumber_length {cs rest : List Char} (h : scanNumber cs = some (v, rest)) :
    rest.length < cs.length := by
  unfold scanNumber at h
  split at h <;>
  · obtain ⟨⟨_, _⟩, hn, heq⟩ := Option.map_eq_some_iff.1 h
    have := Numeral.scan_length hn
    simp only [Prod.mk.injEq] at heq
    simp only [List.length_cons, ← heq.2] at *
    omega

end LoadPlan.Json
