import LoadPlan.Pointer

/-! Reference markers: mappings with a text under `$ref`, which stand for the node their pointer
leads to. Chains of markers are followed to the first node that is none; since no pointer is
followed twice, the pointers of the document that are still to be visited become fewer. -/
namespace LoadPlan

inductive ReferenceError where
  | unresolvable (pointer : String)
  | cycle (pointer : String)
  deriving Repr, DecidableEq

namespace Reference

/-- The pointer of a reference marker; a mapping with something else under `$ref` is none. -/
def pointer? (node : Json) : Option String := (node.get? "$ref").bind Json.string?

/-- What a node is to those who walk a document. -/
inductive Shape where
  | marker (pointer : String)
  | mapping (fields : List (String × Json))
  | sequence (items : List Json)
  | scalar
  deriving Repr

def shape (node : Json) : Shape :=
  match pointer? node, node with
  | some pointer, _ => .marker pointer
  | none, .object fields => .mapping fields
  | none, .array items => .sequence items
  | none, _ => .scalar

mutual
/-- The pointers of all markers in a tree. -/
def pointers : Json → List String
  | .object fields => (pointer? (.object fields)).toList ++ pointersOfFields fields
  | .array items => pointersOfItems items
  | _ => []

def pointersOfItems : List Json → List String
  | [] => []
  | item :: rest => pointers item ++ pointersOfItems rest

def pointersOfFields : List (String × Json) → List String
  | [] => []
  | (_, value) :: rest => pointers value ++ pointersOfFields rest
end

/-- Of the known pointers those not visited, each once. -/
def unvisited (known visited : List String) : List String :=
  (known.filter (!visited.contains ·)).eraseDups

theorem pointersOfItems_subset {items : List Json} {item : Json} (h : item ∈ items) :
    pointers item ⊆ pointersOfItems items := by
  induction items with
  | nil => simp at h
  | cons head tail ih =>
    simp only [pointersOfItems]
    rcases List.mem_cons.1 h with rfl | h
    · exact List.subset_append_left _ _
    · exact List.Subset.trans (ih h) (List.subset_append_right _ _)

theorem pointersOfFields_subset {fields : List (String × Json)} {key : String} {value : Json}
    (h : (key, value) ∈ fields) :
    pointers value ⊆ pointersOfFields fields := by
  induction fields with
  | nil => simp at h
  | cons head tail ih =>
    obtain ⟨k, v⟩ := head
    simp only [pointersOfFields]
    rcases List.mem_cons.1 h with heq | h
    · cases heq
      exact List.subset_append_left _ _
    · exact List.Subset.trans (ih h) (List.subset_append_right _ _)

theorem mem_of_lookup {fields : List (String × Json)} {key : String} {value : Json}
    (h : fields.lookup key = some value) :
    (key, value) ∈ fields := by
  induction fields with
  | nil => simp at h
  | cons head tail ih =>
    obtain ⟨k, v⟩ := head
    rw [List.lookup_cons] at h
    split at h
    · rename_i heq
      simp only [Option.some.injEq] at h
      rw [beq_iff_eq.1 heq, h]
      exact List.mem_cons_self
    · exact List.mem_cons_of_mem _ (ih h)

theorem pointers_get?_subset {node value : Json} {key : String} (h : node.get? key = some value) :
    pointers value ⊆ pointers node := by
  unfold Json.get? at h
  split at h
  · simp only [pointers]
    exact List.Subset.trans (pointersOfFields_subset (mem_of_lookup h))
      (List.subset_append_right _ _)
  · simp at h

theorem pointers_child?_subset {node child : Json} {segment : String}
    (h : Pointer.child? node segment = some child) :
    pointers child ⊆ pointers node := by
  unfold Pointer.child? at h
  split at h
  · exact pointers_get?_subset (show Json.get? (.object _) _ = _ from h)
  · obtain ⟨i, _, hi⟩ := Option.bind_eq_some_iff.1 h
    exact pointersOfItems_subset (List.mem_of_getElem? hi)
  · simp at h

theorem pointers_walk?_subset {node target : Json} {segments : List String}
    (h : Pointer.walk? node segments = some target) : pointers target ⊆ pointers node := by
  induction segments generalizing node with
  | nil => simp only [Pointer.walk?, Option.some.injEq] at h; simp [h]
  | cons segment rest ih =>
    obtain ⟨child, hc, hw⟩ := Option.bind_eq_some_iff.1 h
    exact List.Subset.trans (ih hw) (pointers_child?_subset hc)

theorem pointers_lookup?_subset {root target : Json} {pointer : String}
    (h : Pointer.lookup? root pointer = some target) : pointers target ⊆ pointers root := by
  obtain ⟨segments, _, hw⟩ := Option.bind_eq_some_iff.1 h
  exact pointers_walk?_subset hw

theorem mem_pointers_of_pointer? {node : Json} {pointer : String}
    (h : pointer? node = some pointer) :
    pointer ∈ pointers node := by
  match node with
  | .object fields => simp [pointers, h]
  | .null | .bool _ | .int _ | .float _ | .string _ | .array _ => simp [pointer?, Json.get?] at h

private theorem length_le_of_subset {xs ys : List String} (nodup : xs.Nodup) (h : xs ⊆ ys) :
    xs.length ≤ ys.length := by
  induction xs generalizing ys with
  | nil => simp
  | cons x xs ih =>
    have hx : x ∈ ys := h List.mem_cons_self
    have hsub : xs ⊆ ys.erase x := fun y hy => by
      have hne : y ≠ x := fun heq => (List.nodup_cons.1 nodup).1 (heq ▸ hy)
      exact (List.mem_erase_of_ne hne).2 (h (List.mem_cons_of_mem _ hy))
    have := ih (List.nodup_cons.1 nodup).2 hsub
    have := List.length_erase_of_mem hx
    have := List.length_pos_of_mem hx
    simp only [List.length_cons]
    omega

private theorem nodup_eraseDups (xs : List String) : xs.eraseDups.Nodup := by
  match xs with
  | [] => simp
  | x :: xs =>
    rw [List.eraseDups_cons, List.nodup_cons]
    exact ⟨by simp [List.mem_eraseDups], nodup_eraseDups _⟩
  termination_by xs.length
  decreasing_by exact Nat.lt_succ_of_le (List.length_filter_le _ _)

theorem unvisited_length_le {known known' visited : List String} (h : known' ⊆ known) :
    (unvisited known' visited).length ≤ (unvisited known visited).length := by
  refine length_le_of_subset (nodup_eraseDups _) fun p hp => ?_
  simp only [unvisited, List.mem_eraseDups, List.mem_filter] at hp ⊢
  exact ⟨h hp.1, hp.2⟩

/-- Following a marker leaves fewer pointers to visit. -/
theorem unvisited_length_lt {root node target : Json} {visited : List String} {pointer : String}
    (hp : pointer? node = some pointer) (hv : visited.contains pointer = false)
    (ht : Pointer.lookup? root pointer = some target) :
    (unvisited (pointers root ++ pointers target) (visited ++ [pointer])).length <
      (unvisited (pointers root ++ pointers node) visited).length := by
  have hmem : pointer ∈ unvisited (pointers root ++ pointers node) visited := by
    simp only [unvisited, List.mem_eraseDups, List.mem_filter, List.mem_append, hv, Bool.not_false,
      and_true]
    exact .inr (mem_pointers_of_pointer? hp)
  have hsub : unvisited (pointers root ++ pointers target) (visited ++ [pointer]) ⊆
      (unvisited (pointers root ++ pointers node) visited).erase pointer := fun p hin => by
    simp only [unvisited, List.mem_eraseDups, List.mem_filter, List.mem_append, Bool.not_eq_true',
      List.contains_eq_mem, decide_eq_false_iff_not, List.mem_singleton, not_or] at hin
    refine (List.mem_erase_of_ne hin.2.2).2 ?_
    simp only [unvisited, List.mem_eraseDups, List.mem_filter, List.mem_append, Bool.not_eq_true',
      List.contains_eq_mem, decide_eq_false_iff_not]
    refine ⟨.inl ?_, hin.2.1⟩
    rcases hin.1 with hroot | htarget
    · exact hroot
    · exact pointers_lookup?_subset ht htarget
  have hle := length_le_of_subset (nodup_eraseDups _) hsub
  rw [List.length_erase_of_mem hmem] at hle
  have := List.length_pos_of_mem hmem
  exact Nat.lt_of_le_of_lt hle (by omega)

/-- The node that a pointer leads to; a pointer that leads nowhere is an error. -/
def lookup (root : Json) (pointer : String) : Except ReferenceError Json :=
  match Pointer.lookup? root pointer with
  | some node => .ok node
  | none => .error (.unresolvable pointer)

/-- Where a chain of markers leads: to a node that is none, by way of these pointers, or back to a
pointer that has been visited. -/
inductive Resolution where
  | literal (node : Json) (via : List String)
  | cycle (pointer : String)
  deriving Repr

/-- The chain from a node, with the pointers followed to it. -/
def chase (root : Json) (path via : List String) (node : Json) : Except ReferenceError Resolution :=
  match _hp : pointer? node with
  | none => .ok (.literal node via)
  | some pointer =>
    if _hv : (path ++ via).contains pointer then .ok (.cycle pointer)
    else match _ht : Pointer.lookup? root pointer with
      | none => .error (.unresolvable pointer)
      | some target => chase root path (via ++ [pointer]) target
  termination_by (unvisited (pointers root ++ pointers node) (path ++ via)).length
  decreasing_by
    rw [← List.append_assoc]
    exact unvisited_length_lt _hp (by simpa using _hv) _ht

/-- Follows a chain of markers; `path` are the pointers visited before it. -/
def follow (root : Json) (path : List String) (node : Json) : Except ReferenceError Resolution :=
  chase root path [] node

/-- The node a chain ends in, where a chain without an end is an error. -/
def resolve (root node : Json) : Except ReferenceError (Json × List String) :=
  match follow root [] node with
  | .ok (.literal node via) => .ok (node, via)
  | .ok (.cycle pointer) => .error (.cycle pointer)
  | .error e => .error e

/-- The node a chain ends in. -/
def target (root node : Json) : Except ReferenceError Json := (resolve root node).map Prod.fst

end Reference
end LoadPlan
