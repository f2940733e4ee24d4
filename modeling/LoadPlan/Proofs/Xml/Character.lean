import LoadPlan.Xml.Element

/-! Characters of documents and of names. What is left out when a value is written is exactly what a
document may not have, and a name has nothing of the kind. -/
namespace LoadPlan.Xml

/-- The characters that a document may have. -/
def isAllowed (c : Char) : Bool :=
  c == '\t' || c == '\n' || c == '\r' || (0x20 ≤ c.toNat && c.toNat ≤ 0xd7ff) ||
    (0xe000 ≤ c.toNat && c.toNat ≤ 0xfffd) || 0x10000 ≤ c.toNat

def isSpace (c : Char) : Bool := c == ' ' || c == '\t' || c == '\n' || c == '\r'

def inRanges (ranges : List (Nat × Nat)) (c : Char) : Bool :=
  ranges.any fun (low, high) => low ≤ c.toNat && c.toNat ≤ high

/-- Colon, letters and underscore, and the letters of other scripts. -/
def nameStartRanges : List (Nat × Nat) :=
  [(0x3a, 0x3a), (0x41, 0x5a), (0x5f, 0x5f), (0x61, 0x7a), (0xc0, 0xd6), (0xd8, 0xf6), (0xf8, 0x2ff),
    (0x370, 0x37d), (0x37f, 0x1fff), (0x200c, 0x200d), (0x2070, 0x218f), (0x2c00, 0x2fef),
    (0x3001, 0xd7ff), (0xf900, 0xfdcf), (0xfdf0, 0xfffd), (0x10000, 0xeffff)]

/-- Hyphen, full stop, digits, middle dot and combining marks go on with a name. -/
def nameRanges : List (Nat × Nat) :=
  nameStartRanges ++
    [(0x2d, 0x2e), (0x30, 0x39), (0xb7, 0xb7), (0x300, 0x36f), (0x203f, 0x2040)]

def isNameStart (c : Char) : Bool := inRanges nameStartRanges c

def isNameChar (c : Char) : Bool := inRanges nameRanges c

def isName (name : String) : Bool :=
  match name.toList with
  | [] => false
  | first :: rest => isNameStart first && rest.all isNameChar

theorem isAllowed_eq (c : Char) : isAllowed c = !isForbidden c := by
  have scalar : c.toNat < 0xd800 ∨ 0xdfff < c.toNat ∧ c.toNat < 0x110000 := c.valid
  have equal (d : Char) : c = d ↔ c.toNat = d.toNat := Char.toNat_inj.symm
  rw [Bool.eq_iff_iff]
  simp only [isAllowed, isForbidden, bne, Bool.or_eq_true, Bool.and_eq_true, Bool.not_eq_true',
    Bool.or_eq_false_iff, Bool.and_eq_false_iff, Bool.not_eq_false', beq_iff_eq, beq_eq_false_iff_ne,
    decide_eq_true_eq, decide_eq_false_iff_not, ne_eq, equal, Char.reduceToNat]
  omega

/-- Only characters that a document may have. -/
def Allowed (text : String) : Prop := text.toList.all isAllowed

instance (text : String) : Decidable (Allowed text) :=
  inferInstanceAs (Decidable (text.toList.all isAllowed = true))

theorem allowed_iff : Allowed text ↔ ∀ c ∈ text.toList, isAllowed c := List.all_eq_true

theorem allowed_append : Allowed (a ++ b) ↔ Allowed a ∧ Allowed b := by
  simp only [allowed_iff, String.toList_append, List.forall_mem_append]

theorem isNameChar_allowed {c : Char} (within : isNameChar c) : isAllowed c := by
  have ranges : ∀ range ∈ nameRanges, 0x20 ≤ range.1 ∧ range.2 ≤ 0xd7ff ∨
      0xe000 ≤ range.1 ∧ range.2 ≤ 0xfffd ∨ 0x10000 ≤ range.1 := by decide
  obtain ⟨range, known, bounds⟩ := List.any_eq_true.mp within
  have placed := ranges range known
  simp only [Bool.and_eq_true, decide_eq_true_eq] at bounds
  simp only [isAllowed, Bool.or_eq_true, Bool.and_eq_true, decide_eq_true_eq]
  omega

theorem isNameStart_isNameChar {c : Char} (start : isNameStart c) : isNameChar c := by
  obtain ⟨range, known, bounds⟩ := List.any_eq_true.mp start
  exact List.any_eq_true.mpr ⟨range, List.mem_append_left _ known, bounds⟩

theorem isNameChar_of_mem {name : String} (named : isName name) (member : c ∈ name.toList) :
    isNameChar c := by
  unfold isName at named
  generalize name.toList = cs at named member
  cases cs with
  | nil => contradiction
  | cons first rest =>
    obtain ⟨start, more⟩ := Bool.and_eq_true_iff.mp named
    rcases List.mem_cons.mp member with rfl | later
    · exact isNameStart_isNameChar start
    · exact List.all_eq_true.mp more c later

theorem allowed_name (named : isName name) : Allowed name :=
  allowed_iff.mpr fun _ member => isNameChar_allowed (isNameChar_of_mem named member)

end LoadPlan.Xml
