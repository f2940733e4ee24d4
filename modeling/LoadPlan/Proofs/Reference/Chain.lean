import LoadPlan.Proofs.Reference.Trail

/-! The chain of nodes that begins at a node and goes on from each marker to the node its pointer
names. Following it ends at the first node that is no marker, unless a pointer comes back before that
or leads nowhere; which of these comes first decides, and no pointer is looked up twice. -/
namespace LoadPlan.Reference

/-- The node that a number of markers lead to. -/
def chain (root node : Json) : Nat → Option Json
  | 0 => some node
  | i + 1 => ((chain root node i).bind pointer?).bind (Pointer.lookup? root)

/-- The pointer of a marker in the chain. -/
def pointerAt (root node : Json) (i : Nat) : Option String := (chain root node i).bind pointer?

/-- A pointer of the chain that is on the path, or that the chain had before. -/
def Returns (root : Json) (path : List String) (node : Json) (i : Nat) : Prop :=
  ∃ pointer, pointerAt root node i = some pointer ∧
    (pointer ∈ path ∨ ∃ earlier < i, pointerAt root node earlier = some pointer)

theorem chain_succ_eq_some : chain root node (i + 1) = some next ↔
    ∃ pointer, pointerAt root node i = some pointer ∧ Pointer.lookup? root pointer = some next :=
  Option.bind_eq_some_iff

theorem pointerAt_eq_some : pointerAt root node i = some pointer ↔
    ∃ last, chain root node i = some last ∧ pointer? last = some pointer :=
  Option.bind_eq_some_iff

namespace Trail
variable {root start node : Json} {path via : List String}

theorem reached (trail : Trail root path start via node) :
    chain root start via.length = some node := by
  induction trail with
  | start => rfl
  | hop _ marker _ found ih =>
    rw [List.length_append, List.length_singleton]
    exact chain_succ_eq_some.mpr ⟨_, pointerAt_eq_some.mpr ⟨_, ih, marker⟩, found⟩

theorem listed (trail : Trail root path start via node) (listed : via[i]? = some pointer) :
    pointerAt root start i = some pointer := by
  induction trail with
  | start => contradiction
  | @hop via node followed next before marker _ _ ih =>
    rw [List.getElem?_append] at listed
    split at listed
    · exact ih listed
    · obtain rfl : i = via.length := by
        have within := (List.getElem?_eq_some_iff.mp listed).1
        simp only [List.length_singleton] at within
        omega
      rw [Nat.sub_self] at listed
      cases listed
      exact pointerAt_eq_some.mpr ⟨node, before.reached, marker⟩

theorem mem_iff (trail : Trail root path start via node) :
    pointer ∈ via ↔ ∃ i < via.length, pointerAt root start i = some pointer := by
  constructor
  · intro member
    obtain ⟨i, listed⟩ := List.mem_iff_getElem?.mp member
    exact ⟨i, (List.getElem?_eq_some_iff.mp listed).1, trail.listed listed⟩
  · rintro ⟨i, within, known⟩
    cases (trail.listed (List.getElem?_eq_getElem within)).symm.trans known
    exact List.getElem_mem within

theorem nodup (trail : Trail root path start via node) : via.Nodup := by
  induction trail with
  | start => exact List.nodup_nil
  | hop _ _ fresh _ ih =>
    refine List.nodup_append.mpr ⟨ih, by simp, fun earlier seen last newest same => ?_⟩
    cases List.mem_singleton.mp newest
    exact fresh (List.mem_append_right _ (same ▸ seen))

theorem outside (trail : Trail root path start via node) : ∀ pointer ∈ via, pointer ∉ path := by
  induction trail with
  | start => exact fun _ => (nomatch ·)
  | hop _ _ fresh _ ih =>
    intro pointer member
    rcases List.mem_append.mp member with earlier | last
    · exact ih pointer earlier
    · cases List.mem_singleton.mp last
      exact fun seen => fresh (List.mem_append_left _ seen)

/-- The chain is followed in the end as it is from any node of a trail. -/
theorem chase_eq (trail : Trail root path start via node) :
    chase root path [] start = chase root path via node := by
  induction trail with
  | start => rfl
  | hop _ marker fresh found ih =>
    rw [ih, chase_marker marker, if_neg (by simpa using fresh), found]

end Trail

section
variable {root start node : Json} {path : List String}

theorem not_returns {via : List String} {j : Nat} (nodup : via.Nodup)
    (outside : ∀ pointer ∈ via, pointer ∉ path)
    (listed : ∀ i pointer, via[i]? = some pointer → pointerAt root start i = some pointer)
    (within : j < via.length) : ¬ Returns root path start j := by
  rintro ⟨pointer, here, seen⟩
  have at_of_lt (i : Nat) (bound : i < via.length) (known : pointerAt root start i = some pointer) :
      via[i]? = some pointer :=
    have some := List.getElem?_eq_getElem bound
    some.trans ((listed i _ some).symm.trans known)
  rcases seen with onPath | ⟨i, earlier, there⟩
  · exact outside pointer (List.mem_of_getElem? (at_of_lt j within here)) onPath
  · have same := (at_of_lt i (by omega) there).trans (at_of_lt j within here).symm
    have := (List.getElem?_inj (by omega) nodup).mp same
    omega

/-- As long as no pointer returns, the chain is a trail. -/
theorem exists_trail {j : Nat} (reached : chain root start j = some node)
    (fresh : ∀ i < j, ¬ Returns root path start i) :
    ∃ via, via.length = j ∧ Trail root path start via node := by
  induction j generalizing node with
  | zero =>
    cases reached
    exact ⟨[], rfl, .start⟩
  | succ j ih =>
    obtain ⟨pointer, here, found⟩ := chain_succ_eq_some.mp reached
    obtain ⟨last, before, marker⟩ := pointerAt_eq_some.mp here
    obtain ⟨via, rfl, trail⟩ := ih before fun i less => fresh i (by omega)
    refine ⟨via ++ [pointer], by simp, trail.hop marker (fun seen => ?_) found⟩
    have earlier := (List.mem_append.mp seen).imp_right trail.mem_iff.mp
    exact fresh via.length (by omega) ⟨pointer, here, earlier⟩

theorem Trail.via_eq {via other : List String} (trail : Trail root path start via node)
    (same : via.length = other.length)
    (listed : ∀ i pointer, other[i]? = some pointer → pointerAt root start i = some pointer) :
    via = other := by
  refine List.ext_getElem same fun i within within' => ?_
  have here := trail.listed (List.getElem?_eq_getElem within)
  exact Option.some.inj (here.symm.trans (listed i _ (List.getElem?_eq_getElem within')))

theorem Trail.not_returns (trail : Trail root path start via node) :
    ∀ i < via.length, ¬ Returns root path start i := fun _ less =>
  Reference.not_returns trail.nodup trail.outside (fun _ _ => trail.listed) less

theorem Trail.returns_iff (trail : Trail root path start via node)
    (marker : pointer? node = some pointer) :
    pointer ∈ path ++ via ↔ Returns root path start via.length := by
  have here : pointerAt root start via.length = some pointer :=
    pointerAt_eq_some.mpr ⟨node, trail.reached, marker⟩
  rw [List.mem_append, trail.mem_iff]
  constructor
  · exact fun seen => ⟨pointer, here, seen⟩
  · rintro ⟨other, there, seen⟩
    cases here.symm.trans there
    exact seen

end

/-- A chain followed with a number of lookups: nothing comes of one that takes more. -/
def chaseWithin (root : Json) (path : List String) :
    Nat → List String → Json → Option (Except ReferenceError Resolution)
  | lookups, via, node =>
    match pointer? node with
    | none => some (.ok (.literal node via))
    | some pointer =>
      if (path ++ via).contains pointer then some (.ok (.cycle pointer))
      else match lookups with
        | 0 => none
        | lookups + 1 =>
          match Pointer.lookup? root pointer with
          | none => some (.error (.unresolvable pointer))
          | some next => chaseWithin root path lookups (via ++ [pointer]) next

def followWithin (root : Json) (path : List String) (lookups : Nat) (node : Json) :
    Option (Except ReferenceError Resolution) :=
  chaseWithin root path lookups [] node

theorem unvisited_length_pos {root node : Json} {visited : List String}
    (marker : pointer? node = some pointer) (fresh : pointer ∉ visited) :
    0 < (unvisited (pointers root ++ pointers node) visited).length := by
  refine List.length_pos_of_mem (a := pointer) ?_
  simp only [unvisited, List.mem_eraseDups, List.mem_filter, List.mem_append]
  exact ⟨.inr (mem_pointers_of_pointer? marker), by simpa using fresh⟩

/-- One lookup for each pointer still to visit is enough. -/
theorem chaseWithin_eq {lookups : Nat}
    (enough : (unvisited (pointers root ++ pointers node) (path ++ via)).length ≤ lookups) :
    chaseWithin root path lookups via node = some (chase root path via node) := by
  fun_induction chase root path via node generalizing lookups with
  | case1 via node plain =>
    unfold chaseWithin
    rw [plain]
  | case2 via node pointer marker visited =>
    unfold chaseWithin
    simp only [marker, if_pos visited]
  | case3 via node pointer marker fresh missing =>
    have unseen : pointer ∉ path ++ via := by simpa using fresh
    have some : 0 < (unvisited (pointers root ++ pointers node) (path ++ via)).length :=
      unvisited_length_pos marker unseen
    obtain ⟨fewer, rfl⟩ : ∃ fewer, lookups = fewer + 1 := ⟨lookups - 1, by omega⟩
    unfold chaseWithin
    simp only [marker, if_neg fresh, missing]
  | case4 via node pointer marker fresh next found ih =>
    have unseen : (path ++ via).contains pointer = false := by simpa using fresh
    have fewer := unvisited_length_lt marker unseen found
    obtain ⟨lookups, rfl⟩ : ∃ fewer, lookups = fewer + 1 := ⟨lookups - 1, by omega⟩
    unfold chaseWithin
    simp only [marker, if_neg fresh, found]
    exact ih (by rw [← List.append_assoc]; omega)

section
variable {root node : Json} {path : List String}

theorem follow_eq_literal_iff : follow root path node = .ok (.literal literal via) ↔
    chain root node via.length = some literal ∧ pointer? literal = none ∧
      (∀ i pointer, via[i]? = some pointer → pointerAt root node i = some pointer) ∧
      via.Nodup ∧ ∀ pointer ∈ via, pointer ∉ path := by
  constructor
  · intro ends
    obtain ⟨trail, plain⟩ := follow_literal ends
    exact ⟨trail.reached, plain, fun _ _ => trail.listed, trail.nodup, trail.outside⟩
  · rintro ⟨reached, plain, listed, nodup, outside⟩
    obtain ⟨via', same, trail⟩ := exists_trail reached fun i => not_returns nodup outside listed
    obtain rfl := trail.via_eq same listed
    rw [follow, trail.chase_eq, chase_plain plain]

theorem follow_eq_cycle_iff : follow root path node = .ok (.cycle pointer) ↔
    ∃ j, pointerAt root node j = some pointer ∧ Returns root path node j ∧
      ∀ i < j, ¬ Returns root path node i := by
  constructor
  · intro ends
    obtain ⟨via, last, trail, marker, seen⟩ := follow_cycle ends
    exact ⟨via.length, pointerAt_eq_some.mpr ⟨last, trail.reached, marker⟩,
      (trail.returns_iff marker).mp seen, trail.not_returns⟩
  · rintro ⟨j, here, returns, fresh⟩
    obtain ⟨last, reached, marker⟩ := pointerAt_eq_some.mp here
    obtain ⟨via, rfl, trail⟩ := exists_trail reached fresh
    have seen := (trail.returns_iff marker).mpr returns
    rw [follow, trail.chase_eq, chase_marker marker, if_pos (by simpa using seen)]

theorem follow_eq_error_iff : follow root path node = .error e ↔
    ∃ j pointer, e = .unresolvable pointer ∧ pointerAt root node j = some pointer ∧
      Pointer.lookup? root pointer = none ∧ ∀ i ≤ j, ¬ Returns root path node i := by
  constructor
  · intro ends
    have followed := follow_followed root path node
    rw [ends] at followed
    cases followed with
    | @unresolvable via last pointer trail marker fresh missing =>
      refine ⟨via.length, pointer, rfl, pointerAt_eq_some.mpr ⟨last, trail.reached, marker⟩, missing,
        fun i upTo => ?_⟩
      rcases Nat.lt_or_eq_of_le upTo with less | rfl
      · exact trail.not_returns i less
      · exact mt (trail.returns_iff marker).mpr fresh
  · rintro ⟨j, pointer, rfl, here, missing, fresh⟩
    obtain ⟨last, reached, marker⟩ := pointerAt_eq_some.mp here
    obtain ⟨via, rfl, trail⟩ := exists_trail reached fun i less => fresh i (by omega)
    have unseen := mt (trail.returns_iff marker).mp (fresh via.length (by omega))
    rw [follow, trail.chase_eq, chase_marker marker, if_neg (by simpa using unseen), missing]

end

/-- Following a chain is exact. It ends with no more lookups than there are distinct pointers. It
gives the first node that is no marker, with all pointers before it, exactly if none of these returns;
it gives a cycle exactly for the first pointer that returns, if no lookup fails before; and an error
exactly for the first pointer that leads nowhere, if no pointer up to it returns. -/
theorem follow_exact (root : Json) (path : List String) (node : Json) :
    (∀ spare, followWithin root path ((pointers root ++ pointers node).eraseDups.length + spare) node =
      some (follow root path node)) ∧
    (∀ literal via, follow root path node = .ok (.literal literal via) ↔
      chain root node via.length = some literal ∧ pointer? literal = none ∧
      (∀ i pointer, via[i]? = some pointer → pointerAt root node i = some pointer) ∧
      via.Nodup ∧ ∀ pointer ∈ via, pointer ∉ path) ∧
    (∀ pointer, follow root path node = .ok (.cycle pointer) ↔
      ∃ j, pointerAt root node j = some pointer ∧ Returns root path node j ∧
        ∀ i < j, ¬ Returns root path node i) ∧
    (∀ e, follow root path node = .error e ↔
      ∃ j pointer, e = .unresolvable pointer ∧ pointerAt root node j = some pointer ∧
        Pointer.lookup? root pointer = none ∧ ∀ i ≤ j, ¬ Returns root path node i) := by
  refine ⟨fun spare => ?_, fun _ _ => follow_eq_literal_iff, fun _ => follow_eq_cycle_iff,
    fun _ => follow_eq_error_iff⟩
  have bound := unvisited_length_le_distinct (pointers root ++ pointers node) (path ++ [])
  exact chaseWithin_eq (by omega)

end LoadPlan.Reference
