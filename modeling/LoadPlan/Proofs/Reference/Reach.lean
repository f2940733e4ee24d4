import LoadPlan.Proofs.Reference.Trail
import Mathlib.Logic.Relation

/-! Where schemas lead: a marker to the node its pointer names, any other schema to its items and its
properties. The pointers that are being expanded lead to the node at hand, along any trail. -/
namespace LoadPlan.Reference

/-- Schemas that stand inside of a schema. -/
inductive Part : Json → Json → Prop where
  | items (found : Json.get? node "items" = some part) : Part node part
  | property (found : Json.get? node "properties" = some (.object properties))
      (member : (name, part) ∈ properties) : Part node part

inductive Leads (root : Json) : Json → Json → Prop where
  | marker (marker : pointer? node = some pointer)
      (found : Pointer.lookup? root pointer = some next) : Leads root node next
  | part (plain : pointer? node = none) (inside : Part node part) : Leads root node part

abbrev Reaches (root : Json) : Json → Json → Prop := Relation.ReflTransGen (Leads root)

/-- The pointers of a path all lead to a node. -/
def Ancestors (root : Json) (path : List String) (node : Json) : Prop :=
  ∀ pointer ∈ path, ∃ target, Pointer.lookup? root pointer = some target ∧ Reaches root target node

namespace Ancestors
variable {root node next : Json} {path : List String}

theorem nil : Ancestors root [] node := fun _ => (nomatch ·)

theorem step (ancestors : Ancestors root path node) (leads : Leads root node next) :
    Ancestors root path next := by
  intro pointer member
  obtain ⟨target, found, reaches⟩ := ancestors pointer member
  exact ⟨target, found, reaches.tail leads⟩

theorem hop (ancestors : Ancestors root path node) (marker : pointer? node = some pointer)
    (found : Pointer.lookup? root pointer = some next) :
    Ancestors root (path ++ [pointer]) next := by
  intro other member
  rcases List.mem_append.mp member with earlier | newest
  · exact ancestors.step (.marker marker found) other earlier
  · cases List.mem_singleton.mp newest
    exact ⟨next, found, .refl⟩

end Ancestors

namespace Trail
variable {root start node : Json} {path via : List String}

theorem reaches (trail : Trail root path start via node) : Reaches root start node := by
  induction trail with
  | start => exact .refl
  | hop _ marker _ found ih => exact ih.tail (.marker marker found)

theorem ancestors (trail : Trail root path start via node) (before : Ancestors root path start) :
    Ancestors root (path ++ via) node := by
  induction trail with
  | start => rwa [List.append_nil]
  | hop _ marker _ found ih =>
    rw [← List.append_assoc]
    exact ih.hop marker found

end Trail

/-- A chain of markers that is found to be a cycle ends at a marker whose pointer leads back to it. -/
theorem Ancestors.follow_cycle (ancestors : Ancestors root path node)
    (ends : follow root path node = .ok (.cycle pointer)) :
    ∃ target marker, Pointer.lookup? root pointer = some target ∧ Reaches root target marker ∧
      pointer? marker = some pointer ∧ Reaches root node marker := by
  obtain ⟨via, last, trail, marker, seen⟩ := Reference.follow_cycle ends
  obtain ⟨target, found, reaches⟩ := trail.ancestors ancestors pointer seen
  exact ⟨target, last, found, reaches, marker, trail.reaches⟩

end LoadPlan.Reference
