import LoadPlan.Json.Value
import LoadPlan.Sample.Hint

/-! Sample values of schemas without parts: the first of the listed values, else what the name of
the property suggests, else a default within the declared bounds. -/
namespace LoadPlan.Sample

abbrev Schema := List (String × Json)

/-- What samples depend on besides their schema: the current year and 64-bit random words. -/
structure Chance where
  year : Int32
  words : Nat → UInt64

/-- The next identifier, and the number of random words used. -/
structure Counters where
  nextId : Nat
  drawn : Nat
  deriving DecidableEq, Repr

def Counters.start : Counters := ⟨1, 0⟩

def Counters.nextIdentifier (c : Counters) : Nat × Counters :=
  (c.nextId, { c with nextId := c.nextId + 1 })

/-- A random word spread evenly over as many numbers as given. A word just below the boundary of two
numbers counts for the higher one if a second word carries it over. -/
def Chance.below (chance : Chance) (size : Nat) (c : Counters) : Nat × Counters :=
  let spread := (chance.words c.drawn).toNat * size
  if UInt64.size - size < spread % UInt64.size then
    let carried := spread % UInt64.size + (chance.words (c.drawn + 1)).toNat * size / UInt64.size
    (spread / UInt64.size + carried / UInt64.size, { c with drawn := c.drawn + 2 })
  else (spread / UInt64.size, { c with drawn := c.drawn + 1 })

/-- A random number from `low` to `high`. -/
def Chance.draw (chance : Chance) (low high : Nat) (c : Counters) : Nat × Counters :=
  (low + (chance.below (high - low + 1) c).1, (chance.below (high - low + 1) c).2)

/-- No text is lengthened beyond this to reach its least length. -/
def maxPadding : Nat := 1024

/-- A text brought to its declared lengths: filled up with the letter x, then cut. -/
def fitLength (shortest longest : Option Nat) (text : List Char) : List Char :=
  let goal := match shortest with
    | some least => min (min least (longest.getD least)) maxPadding
    | none => 0
  let filled := text ++ List.replicate (goal - text.length) 'x'
  match longest with
  | some most => filled.take most
  | none => filled

def fitted (schema : Schema) (text : String) : Json :=
  .string (String.ofList (fitLength ((schema.lookup "minLength").bind Json.nat?)
    ((schema.lookup "maxLength").bind Json.nat?) text.toList))

def stringText (property : Option String) (c : Counters) : String × Counters :=
  match hint? stringHints property with
  | some .identifier => (toString c.nextIdentifier.1, c.nextIdentifier.2)
  | some .name => (sampleName (property.getD ""), c)
  | some (.fixed text) => (text, c)
  | none => ("sample", c)

def bound? (schema : Schema) (key : String) : Option Double := (schema.lookup key).bind Json.double?

/-- The nearest signed 64-bit number. -/
def saturate (n : Int) : Int := max (-twoTo 63) (min n (twoTo 63 - 1))

/-- The least whole number that the minimum allows, or one, but at most the maximum. -/
def boundedInteger (schema : Schema) : Int :=
  let least := ((bound? schema "minimum").map Double.ceil).getD 1
  saturate (match (bound? schema "maximum").map Double.floor with
    | some most => if most < least then most else least
    | none => least)

def integerValue (chance : Chance) (schema : Schema) (property : Option String) (c : Counters) :
    Int × Counters :=
  match hint? integerHints property with
  | some .identifier => (saturate c.nextIdentifier.1, c.nextIdentifier.2)
  | some (.fixed value) => (value, c)
  | some .currentYear => (chance.year.toInt, c)
  | some (.between low high) => ((chance.draw low high c).1, (chance.draw low high c).2)
  | none => (boundedInteger schema, c)

def unit : Double := ⟨false, Double.one⟩

/-- The minimum, or one, but at most the maximum. -/
def boundedNumber (schema : Schema) : Double :=
  let least := (bound? schema "minimum").getD unit
  match bound? schema "maximum" with
  | some most => if least.le most then least else most
  | none => least

def numberValue (schema : Schema) (property : Option String) : Json :=
  match hint? numberHints property with
  | some decimal => .ofDouble? (Double.ofDecimal? false decimal.digits decimal.exponent)
  | none => .float (boundedNumber schema)

/-- The types of schemas that have no parts. -/
inductive LeafType where
  | string
  | integer
  | number
  | boolean
  deriving DecidableEq, Repr

def leaf (chance : Chance) (schema : Schema) (property : Option String) (c : Counters) :
    LeafType → Json × Counters
  | .string => (fitted schema (stringText property c).1, (stringText property c).2)
  | .integer =>
    (.int (integerValue chance schema property c).1, (integerValue chance schema property c).2)
  | .number => (numberValue schema property, c)
  | .boolean => (.bool ((hint? booleanHints property).getD true), c)

end LoadPlan.Sample
