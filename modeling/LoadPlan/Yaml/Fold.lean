import LoadPlan.Yaml.Cell

/-! White space inside scalars. Between two pieces of a plain or quoted scalar there are either
blanks on one line, which are kept, or line breaks, which are folded: a single break becomes a
space, and of several the first is dropped. -/
namespace LoadPlan.Yaml

/-- What was passed since the last piece. The first break is absent when it was escaped. -/
inductive Gap where
  | blanks (kept : List Char)
  | breaks (first : Option Char) (more : List Char)

namespace Gap

def none : Gap := .blanks []

def text : Gap → List Char
  | .blanks kept => kept
  | .breaks (some '\n') [] => [' ']
  | .breaks (some '\n') more => more
  | .breaks first more => first.toList ++ more

/-- Blanks after a break are indentation and are dropped. -/
def add (gap : Gap) (c : Char) : Gap :=
  match gap with
  | .blanks kept => if isBreak c then .breaks (some c) [] else .blanks (kept ++ [c])
  | .breaks first more => if isBreak c then .breaks first (more ++ [c]) else gap

def isBroken : Gap → Bool
  | .blanks _ => false
  | .breaks _ _ => true

def isEmpty : Gap → Bool
  | .blanks kept => kept.isEmpty
  | .breaks _ _ => false

end Gap

/-- A scalar under construction: its characters, latest first, and the pending gap. -/
structure Folded where
  done : List Char
  gap : Gap

namespace Folded

def start : Folded := ⟨[], Gap.none⟩

/-- The gap is settled by the piece that follows it. -/
def settle (f : Folded) : Folded := ⟨f.gap.text.reverse ++ f.done, Gap.none⟩

def push (f : Folded) (c : Char) : Folded := ⟨c :: f.settle.done, Gap.none⟩

def pass (f : Folded) (c : Char) : Folded := { f with gap := f.gap.add c }

def text (f : Folded) : String := String.ofList f.done.reverse

end Folded
end LoadPlan.Yaml
