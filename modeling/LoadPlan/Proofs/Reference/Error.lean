import LoadPlan.Proofs.Reference.Trail
import Mathlib.Logic.Relation

/-! What reference errors say of a document. An error of either kind names a pointer of one of the
document's markers, and a value got from nodes of the document depends on no other markers. -/
namespace LoadPlan.Reference

/-- A pointer leads to a marker, which has the next pointer. -/
def Hop (root : Json) (pointer next : String) : Prop :=
  (Pointer.lookup? root pointer).bind pointer? = some next

/-- The chain that starts at a pointer comes back to it by way of markers alone. -/
def Loops (root : Json) (pointer : String) : Prop := Relation.TransGen (Hop root) pointer pointer

/-- The error is about a marker of the document and names its fault. -/
def Faulty (root : Json) : ReferenceError → Prop
  | .unresolvable pointer => pointer ∈ pointers root ∧ Pointer.lookup? root pointer = none
  | .cycle pointer => pointer ∈ pointers root ∧ Loops root pointer

/-- All markers in a tree have pointers of the document. -/
def Inside (root node : Json) : Prop := pointers node ⊆ pointers root

/-- A value with a property, or an error that the document gives cause for. -/
def Yields (root : Json) (P : α → Prop) : Except ReferenceError α → Prop
  | .ok value => P value
  | .error e => Faulty root e

namespace Yields
variable {root : Json} {P : α → Prop} {Q : β → Prop} {x : Except ReferenceError α}

theorem bind {f : α → Except ReferenceError β} (yields : Yields root P x)
    (next : ∀ value, P value → Yields root Q (f value)) : Yields root Q (x >>= f) := by
  cases x with
  | ok value => exact next value yields
  | error e => exact yields

theorem map {f : α → β} (yields : Yields root P x) (next : ∀ value, P value → Q (f value)) :
    Yields root Q (x.map f) := by
  cases x with
  | ok value => exact next value yields
  | error e => exact yields

end Yields

theorem inside_get? {root node value : Json} {key : String} (inside : Inside root node)
    (found : node.get? key = some value) : Inside root value :=
  List.Subset.trans (pointers_get?_subset found) inside

theorem inside_field {root value : Json} {fields : List (String × Json)} {key : String}
    (inside : Inside root (.object fields)) (member : (key, value) ∈ fields) : Inside root value := by
  refine List.Subset.trans (pointersOfFields_subset member) (List.Subset.trans ?_ inside)
  exact List.subset_append_right _ _

theorem inside_item {root item : Json} {items : List Json} (inside : Inside root (.array items))
    (member : item ∈ items) : Inside root item :=
  List.Subset.trans (pointersOfItems_subset member) inside

namespace Trail
variable {root start node : Json} {path via : List String}

theorem inside (trail : Trail root path start via node) (within : Inside root start) :
    Inside root node :=
  List.Subset.trans trail.pointers_subset (List.append_subset.mpr ⟨List.Subset.refl _, within⟩)

/-- From each pointer followed the chain goes on to the marker reached. -/
theorem hops (trail : Trail root path start via node) (marker : pointer? node = some last)
    (member : pointer ∈ via) : Relation.TransGen (Hop root) pointer last := by
  induction trail generalizing last with
  | start => contradiction
  | @hop via node followed next _ before _ found ih =>
    have onward : Hop root followed last := by simp only [Hop, found, Option.bind_some, marker]
    rcases List.mem_append.mp member with earlier | newest
    · exact (ih before earlier).tail onward
    · cases List.mem_singleton.mp newest
      exact .single onward

end Trail

/-- A chain is followed inside the document to a literal node, or to a pointer visited before. -/
theorem follow_yields {root node : Json} (path : List String) (within : Inside root node) :
    Yields root
      (fun resolution => ∀ literal via, resolution = .literal literal via → Inside root literal)
      (follow root path node) := by
  have followed := follow_followed root path node
  generalize follow root path node = ending at followed ⊢
  cases followed with
  | literal trail plain =>
    intro literal via same
    cases same
    exact trail.inside within
  | cycle => exact fun _ _ same => nomatch same
  | unresolvable trail marker fresh missing =>
    exact ⟨trail.inside within (mem_pointers_of_pointer? marker), missing⟩

theorem target_yields {root node : Json} (within : Inside root node) :
    Yields root (Inside root) (target root node) := by
  have followed := follow_followed root [] node
  unfold target resolve
  generalize follow root [] node = ending at followed ⊢
  cases followed with
  | literal trail plain => exact trail.inside within
  | cycle trail marker seen =>
    exact ⟨trail.inside within (mem_pointers_of_pointer? marker),
      trail.hops marker (by simpa using seen)⟩
  | unresolvable trail marker fresh missing =>
    exact ⟨trail.inside within (mem_pointers_of_pointer? marker), missing⟩

end LoadPlan.Reference
