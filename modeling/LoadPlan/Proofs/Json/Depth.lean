import LoadPlan.Reference

/-! Nesting of values: fields and items nest less deep than what holds them, and so does what a
pointer leads to. -/
namespace LoadPlan.Json

theorem depth_le_depthItems {items : List Json} {item : Json} (member : item ∈ items) :
    depth item ≤ depthItems items := by
  induction items with
  | nil => contradiction
  | cons head tail ih =>
    simp only [depthItems]
    rcases List.mem_cons.mp member with rfl | later
    · exact Nat.le_max_left _ _
    · exact Nat.le_trans (ih later) (Nat.le_max_right _ _)

theorem depth_le_depthFields {fields : List (String × Json)} {key : String} {value : Json}
    (member : (key, value) ∈ fields) : depth value ≤ depthFields fields := by
  induction fields with
  | nil => contradiction
  | cons head tail ih =>
    obtain ⟨name, first⟩ := head
    simp only [depthFields]
    rcases List.mem_cons.mp member with same | later
    · cases same
      exact Nat.le_max_left _ _
    · exact Nat.le_trans (ih later) (Nat.le_max_right _ _)

theorem depth_get?_lt {node value : Json} {key : String} (found : node.get? key = some value) :
    depth value < depth node := by
  cases node with
  | object fields =>
    have bound := depth_le_depthFields (Reference.mem_of_lookup found)
    simp only [depth]
    omega
  | null | bool | int | float | string | array => contradiction

theorem depth_child?_lt {node child : Json} {segment : String}
    (found : Pointer.child? node segment = some child) : depth child < depth node := by
  cases node with
  | object fields => exact depth_get?_lt found
  | array items =>
    obtain ⟨i, _, at_i⟩ := Option.bind_eq_some_iff.mp found
    have bound := depth_le_depthItems (List.mem_of_getElem? at_i)
    simp only [depth]
    omega
  | null | bool | int | float | string => contradiction

theorem depth_walk?_le {node last : Json} {segments : List String}
    (found : Pointer.walk? node segments = some last) : depth last ≤ depth node := by
  induction segments generalizing node with
  | nil =>
    cases found
    exact Nat.le_refl _
  | cons segment rest ih =>
    obtain ⟨child, first, onward⟩ := Option.bind_eq_some_iff.mp found
    exact Nat.le_trans (ih onward) (Nat.le_of_lt (depth_child?_lt first))

theorem depth_lookup?_le {root node : Json} {pointer : String}
    (found : Pointer.lookup? root pointer = some node) : depth node ≤ depth root := by
  obtain ⟨segments, _, walked⟩ := Option.bind_eq_some_iff.mp found
  exact depth_walk?_le walked

end LoadPlan.Json
