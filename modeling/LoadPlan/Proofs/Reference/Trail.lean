import LoadPlan.Proofs.Json.Depth

/-! Chains of reference markers as trails: the pointers followed from a node and the node reached,
no pointer followed twice. Following a chain ends in one of three ways, each told by its trail. -/
namespace LoadPlan.Reference

/-- Markers followed from a node by way of pointers that were not visited before. -/
inductive Trail (root : Json) (path : List String) (start : Json) : List String → Json → Prop where
  | start : Trail root path start [] start
  | hop : Trail root path start via node → pointer? node = some pointer → pointer ∉ path ++ via →
      Pointer.lookup? root pointer = some next → Trail root path start (via ++ [pointer]) next

/-- How the chain of markers from a node ends, after the pointers of a path. -/
inductive Followed (root : Json) (path : List String) (node : Json) :
    Except ReferenceError Resolution → Prop where
  | literal : Trail root path node via last → pointer? last = none →
      Followed root path node (.ok (.literal last via))
  | cycle : Trail root path node via last → pointer? last = some pointer → pointer ∈ path ++ via →
      Followed root path node (.ok (.cycle pointer))
  | unresolvable : Trail root path node via last → pointer? last = some pointer →
      pointer ∉ path ++ via → Pointer.lookup? root pointer = none →
      Followed root path node (.error (.unresolvable pointer))

theorem chase_plain (plain : pointer? node = none) :
    chase root path via node = .ok (.literal node via) := by
  rw [chase]
  split
  · rfl
  · simp_all

/-- What a marker's pointer decides: whether it was visited before, and where it leads. -/
theorem chase_marker (marker : pointer? node = some pointer) :
    chase root path via node =
      if (path ++ via).contains pointer then .ok (.cycle pointer)
      else match Pointer.lookup? root pointer with
        | none => .error (.unresolvable pointer)
        | some next => chase root path (via ++ [pointer]) next := by
  rw [chase]
  split
  · simp_all
  · rename_i other marked
    cases Option.some.inj (marked.symm.trans marker)
    split
    · rfl
    · split <;> rename_i reached <;> simp only [reached]

theorem chase_followed (trail : Trail root path start via node) :
    Followed root path start (chase root path via node) := by
  fun_induction chase root path via node with
  | case1 via node plain => exact .literal trail plain
  | case2 via node pointer marker visited => exact .cycle trail marker (by simpa using visited)
  | case3 via node pointer marker fresh missing =>
    exact .unresolvable trail marker (by simpa using fresh) missing
  | case4 via node pointer marker fresh next found ih =>
    exact ih (trail.hop marker (by simpa using fresh) found)

theorem follow_followed (root : Json) (path : List String) (node : Json) :
    Followed root path node (follow root path node) :=
  chase_followed .start

theorem follow_literal (ends : follow root path node = .ok (.literal literal via)) :
    Trail root path node via literal ∧ pointer? literal = none := by
  have followed := follow_followed root path node
  rw [ends] at followed
  cases followed with
  | literal trail plain => exact ⟨trail, plain⟩

theorem follow_cycle (ends : follow root path node = .ok (.cycle pointer)) :
    ∃ via last, Trail root path node via last ∧ pointer? last = some pointer ∧
      pointer ∈ path ++ via := by
  have followed := follow_followed root path node
  rw [ends] at followed
  cases followed with
  | cycle trail marker seen => exact ⟨_, _, trail, marker, seen⟩

theorem follow_plain (plain : pointer? node = none) :
    follow root path node = .ok (.literal node []) :=
  chase_plain plain

theorem target_plain (plain : pointer? node = none) : target root node = .ok node := by
  rw [target, resolve, follow_plain plain]
  rfl

theorem follow_seen (marker : pointer? node = some pointer) (seen : pointer ∈ path) :
    follow root path node = .ok (.cycle pointer) := by
  rw [follow, chase_marker marker, if_pos (by simpa using seen)]

theorem follow_hop (marker : pointer? node = some pointer) (fresh : pointer ∉ path)
    (found : Pointer.lookup? root pointer = some next) (plain : pointer? next = none) :
    follow root path node = .ok (.literal next [pointer]) := by
  rw [follow, chase_marker marker, if_neg (by simpa using fresh), found]
  exact chase_plain plain

theorem unvisited_length_le_distinct (known visited : List String) :
    (unvisited known visited).length ≤ known.eraseDups.length := by
  have all : unvisited known [] = known.eraseDups := by
    rw [unvisited, List.filter_eq_self.mpr (by simp)]
  have kept : unvisited (known.filter (!visited.contains ·)) [] = unvisited known visited := by
    rw [unvisited, List.filter_eq_self.mpr (by simp), unvisited]
  rw [← all, ← kept]
  exact unvisited_length_le List.filter_sublist.subset

namespace Trail

variable {root start node : Json} {path via : List String}

theorem pointers_subset (trail : Trail root path start via node) :
    pointers node ⊆ pointers root ++ pointers start := by
  cases trail with
  | start => exact List.subset_append_right _ _
  | hop _ _ _ found =>
    exact List.Subset.trans (pointers_lookup?_subset found) (List.subset_append_left _ _)

/-- Each pointer followed leaves one fewer to visit. -/
theorem unvisited_length_le (trail : Trail root path start via node) :
    (unvisited (pointers root ++ pointers node) (path ++ via)).length + via.length ≤
      (unvisited (pointers root ++ pointers start) path).length := by
  induction trail with
  | start => simp
  | @hop via node pointer next _ marker fresh found ih =>
    have unseen : (path ++ via).contains pointer = false := by simpa using fresh
    have fewer := unvisited_length_lt marker unseen found
    rw [← List.append_assoc]
    simp only [List.length_append, List.length_singleton]
    omega

theorem depth_le (trail : Trail root path start via node) (moved : via ≠ []) :
    node.depth ≤ root.depth := by
  cases trail with
  | start => contradiction
  | hop _ _ _ found => exact Json.depth_lookup?_le found

theorem eq_start (trail : Trail root path start [] node) : node = start := by
  generalize followed : ([] : List String) = via at trail
  cases trail with
  | start => rfl
  | hop => simp at followed

end Trail
end LoadPlan.Reference
