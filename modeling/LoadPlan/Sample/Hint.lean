import LoadPlan.Number.Decimal
import LoadPlan.Text.LetterCase

/-! What the name of a property suggests for its value. A table lists words; the first entry with a
word that occurs in the name, in any letter case, gives the hint. -/
namespace LoadPlan.Sample

inductive StringHint where
  | identifier
  | name
  | fixed (text : String)
  deriving DecidableEq, Repr

inductive IntegerHint where
  | identifier
  | fixed (value : Int)
  | currentYear
  | between (low high : Nat)
  deriving DecidableEq, Repr

abbrev Table (α : Type) := List (List String × α)

def stringHints : Table StringHint := [
  (["id"], .identifier),
  (["name"], .name),
  (["email"], .fixed "user@example.com"),
  (["url", "link"], .fixed "https://example.com"),
  (["phone"], .fixed "+1-555-123-4567"),
  (["address"], .fixed "123 Main Street"),
  (["city"], .fixed "Sample City"),
  (["country"], .fixed "Sample Country"),
  (["description", "comment"], .fixed "This is a sample description"),
  (["status"], .fixed "active"),
  (["type", "category"], .fixed "sample")]

def integerHints : Table IntegerHint := [
  (["id"], .identifier),
  (["count", "quantity"], .fixed 5),
  (["age"], .fixed 25),
  (["year"], .currentYear),
  (["month"], .between 1 12),
  (["day"], .between 1 28),
  (["price", "amount"], .fixed 100)]

def numberHints : Table Decimal := [
  (["price", "amount", "cost"], ⟨9999, -2⟩),
  (["rate", "percentage"], ⟨15, -2⟩),
  (["weight"], ⟨15, -1⟩),
  (["height"], ⟨175, -2⟩)]

def booleanHints : Table Bool := [
  (["active", "enabled", "available"], true),
  (["deleted", "disabled", "hidden"], false)]

def occursIn (word : List Char) : List Char → Bool
  | [] => word.isEmpty
  | c :: rest => word.isPrefixOf (c :: rest) || occursIn word rest

def lowered (property : String) : List Char := property.toList.flatMap Text.lower

def hint? (table : Table α) (property : Option String) : Option α :=
  property.bind fun property =>
    (table.find? fun entry => entry.1.any fun word => occursIn word.toList (lowered property)).map
      Prod.snd

/-- The word "sample" and the name with its first character in upper case. -/
def sampleName (property : String) : String :=
  "sample" ++ match property.toList with
    | [] => ""
    | c :: rest => String.ofList (Text.upper c ++ rest)

end LoadPlan.Sample
