/-! White space, and text without it at the ends. -/
namespace LoadPlan.Text

/-- The characters that count as white space. -/
def isBlank (c : Char) : Bool :=
  (9 ≤ c.toNat && c.toNat ≤ 13) || (0x2000 ≤ c.toNat && c.toNat ≤ 0x200a) ||
    [0x20, 0x85, 0xa0, 0x1680, 0x2028, 0x2029, 0x202f, 0x205f, 0x3000].contains c.toNat

/-- A text of white space only; the empty text is one. -/
def allBlank (s : String) : Bool := s.toList.all isBlank

def dropTrailing (drop : Char → Bool) (cs : List Char) : List Char :=
  (cs.reverse.dropWhile drop).reverse

def trimEnd (s : String) : String := String.ofList (dropTrailing isBlank s.toList)

def trim (s : String) : String :=
  String.ofList (dropTrailing isBlank (s.toList.dropWhile isBlank))

end LoadPlan.Text
