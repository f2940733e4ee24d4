/-! Whole numbers in decimal digits. -/
namespace LoadPlan.Text

/-- The number that digits write; there must be one. -/
def digits? (cs : List Char) : Option Nat :=
  if cs.isEmpty || !cs.all Char.isDigit then none
  else some (cs.foldl (fun n c => n * 10 + (c.toNat - '0'.toNat)) 0)

/-- A number below a limit, which a plus sign and zeros may stand before. -/
def unsigned? (limit : Nat) (cs : List Char) : Option Nat :=
  (digits? (if cs.head? == some '+' then cs.drop 1 else cs)).filter (· < limit)

end LoadPlan.Text
