import LoadPlan.Proofs.Reference.Error

/-! Roots that agree on the markers of a document. A chain of markers reads nothing of a document but
the nodes that their pointers lead to, so from any root that has these nodes it ends alike. -/
namespace LoadPlan.Reference

/-- Each pointer of a document's markers leads to the same node from the other root. -/
def Agrees (root root' : Json) : Prop :=
  ∀ pointer ∈ pointers root, Pointer.lookup? root' pointer = Pointer.lookup? root pointer

namespace Agrees
variable {root root' node : Json} (agrees : Agrees root root')
include agrees

theorem chase (path via : List String) (within : Inside root node) :
    Reference.chase root' path via node = Reference.chase root path via node := by
  fun_induction Reference.chase root path via node with
  | case1 via node plain => rw [chase_plain plain]
  | case2 via node pointer marker visited => rw [chase_marker marker, if_pos visited]
  | case3 via node pointer marker fresh missing =>
    have same := agrees pointer (within (mem_pointers_of_pointer? marker))
    rw [chase_marker marker, if_neg fresh, same, missing]
  | case4 via node pointer marker fresh next found ih =>
    have same := agrees pointer (within (mem_pointers_of_pointer? marker))
    rw [chase_marker marker, if_neg fresh, same, found]
    exact ih (pointers_lookup?_subset found)

theorem follow (path : List String) (within : Inside root node) :
    Reference.follow root' path node = Reference.follow root path node :=
  agrees.chase path [] within

theorem target (within : Inside root node) :
    Reference.target root' node = Reference.target root node := by
  rw [Reference.target, Reference.target, resolve, resolve, agrees.follow [] within]

end Agrees
end LoadPlan.Reference
