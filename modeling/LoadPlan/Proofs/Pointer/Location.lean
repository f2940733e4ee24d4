import LoadPlan.Proofs.Pointer.Walk

/-! Where pointers lead. One place of a document can have several pointers: a tilde stands for itself
unless it begins an escape, and an index may have a plus sign and zeros in front. Of those that are
spelled as the escapes and the numbers are meant to be there is one for each place. -/
namespace LoadPlan.Pointer

inductive Step where
  | field (key : String)
  | item (index : Nat)
  deriving DecidableEq, Repr

namespace Step

/-- The segment that a step is written with. -/
def name : Step → String
  | .field key => key
  | .item index => toString index

def part? (node : Json) (step : Step) : Option Json :=
  match node, step with
  | .object fields, .field key => fields.lookup key
  | .array items, .item index => items[index]?
  | _, _ => none

/-- The step that a segment is read as at a node. -/
def read? (node : Json) (segment : String) : Option Step :=
  match node with
  | .object _ => some (.field segment)
  | .array _ => (index? segment).map .item
  | _ => none

end Step

/-- The node at a place of a document. -/
def at? (node : Json) : List Step → Option Json
  | [] => some node
  | step :: rest => (step.part? node).bind (at? · rest)

/-- The steps that segments are read as, from a node to what they lead to. -/
def steps? (node : Json) : List String → Option (List Step)
  | [] => some []
  | segment :: rest =>
    (Step.read? node segment).bind fun step =>
      (step.part? node).bind fun part => (steps? part rest).map (step :: ·)

/-- The place of a document that a pointer leads to. -/
def location? (root : Json) (pointer : String) : Option (List Step) :=
  (segments? pointer).bind (steps? root)

theorem child?_eq_part? (node : Json) (segment : String) :
    child? node segment = (Step.read? node segment).bind (Step.part? node) := by
  cases node with
  | array items => cases number : index? segment <;> simp [child?, Step.read?, Step.part?, number]
  | null | bool | int | float | string | object => rfl

theorem walk?_eq_at? (node : Json) (segments : List String) :
    walk? node segments = (steps? node segments).bind (at? node) := by
  induction segments generalizing node with
  | nil => rfl
  | cons segment rest ih =>
    rw [walk?, steps?, child?_eq_part?]
    cases Step.read? node segment with
    | none => rfl
    | some step =>
      simp only [Option.bind_some]
      cases found : step.part? node with
      | none => rfl
      | some part =>
        rw [Option.bind_some, ih, Option.bind_some, Option.bind_map]
        congr 1
        funext steps
        rw [Function.comp_apply, at?, found, Option.bind_some]

/-- A pointer is looked up to the node at its place. -/
theorem lookup?_eq_at? (root : Json) (pointer : String) :
    lookup? root pointer = (location? root pointer).bind (at? root) := by
  rw [lookup?, location?, Option.bind_assoc]
  congr 1
  funext segments
  exact walk?_eq_at? root segments

/-- Segments with decimal indices are the names of the steps that they are read as. -/
theorem names_of_steps? {node : Json} {segments : List String} {steps : List Step}
    (read : steps? node segments = some steps) (decimal : DecimalIndices node segments) :
    segments = steps.map Step.name := by
  induction segments generalizing node steps with
  | nil =>
    cases read
    rfl
  | cons segment rest ih =>
    obtain ⟨step, first, read⟩ := Option.bind_eq_some_iff.mp read
    obtain ⟨part, found, read⟩ := Option.bind_eq_some_iff.mp read
    obtain ⟨later, others, rfl⟩ := Option.map_eq_some_iff.mp read
    have entered : child? node segment = some part := by
      rw [child?_eq_part?, first, Option.bind_some, found]
    have enters := (child?_eq_some fun items same => (same ▸ decimal).head).mp entered
    have named : segment = step.name := by
      cases enters with
      | field =>
        cases first
        rfl
      | item _ fits =>
        rw [Step.read?, index?_toString, if_pos fits] at first
        cases first
        rfl
    rw [List.map_cons, ← named, ← ih others (decimal.tail enters)]

/-- A pointer in its usual spelling: tildes only in escapes, and indices as decimal numbers. -/
structure Canonical (root : Json) (pointer : String) : Prop where
  escaped : WellEscaped pointer.toList
  decimal : ∀ segments, segments? pointer = some segments → DecimalIndices root segments

/-- The pointer that is written for a way through the document has that spelling. -/
theorem Walks.canonical {root node : Json} {segments : List String}
    (walks : Walks root segments node) : Canonical root (ofSegments segments) where
  escaped := wellEscaped_ofSegments segments
  decimal read same := by
    cases (segments?_ofSegments segments).symm.trans same
    exact walks.decimalIndices

/-- Two pointers lead to one place. -/
def SameTarget (root : Json) (pointer other : String) : Prop :=
  ∃ place, location? root pointer = some place ∧ location? root other = some place

theorem Canonical.eq_ofSegments {root : Json} {pointer : String} {place : List Step}
    (canonical : Canonical root pointer) (leads : location? root pointer = some place) :
    pointer = ofSegments (place.map Step.name) := by
  obtain ⟨segments, read, steps⟩ := Option.bind_eq_some_iff.mp leads
  rw [← names_of_steps? steps (canonical.decimal segments read)]
  exact Pointer.eq_ofSegments canonical.escaped read

/-- In the usual spelling a place has one pointer. -/
theorem SameTarget.eq {root : Json} {pointer other : String} (same : SameTarget root pointer other)
    (canonical : Canonical root pointer) (canonical' : Canonical root other) : pointer = other := by
  obtain ⟨place, leads, leads'⟩ := same
  exact (canonical.eq_ofSegments leads).trans (canonical'.eq_ofSegments leads').symm

end LoadPlan.Pointer
