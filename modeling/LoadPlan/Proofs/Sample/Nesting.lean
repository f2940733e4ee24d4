import LoadPlan.Proofs.Sample.Expansion

/-! How deep the calls of synthesis nest. Each call made for a part either goes down in a node or
has followed a pointer that was not visited before, so the number of distinct pointers and the
nesting of the two trees bound the calls that are open at once. -/
namespace LoadPlan.Sample
open Reference (Trail Followed follow pointers unvisited)

theorem depth_part_lt {node part : Json} (member : part ∈ (form node).parts) :
    part.depth < node.depth := by
  rcases mem_parts member with found | ⟨properties, name, found, inside⟩
  · exact Json.depth_get?_lt found
  · have below := Json.depth_get?_lt found
    have bound := Json.depth_le_depthFields inside
    simp only [Json.depth] at below
    omega

/-- Room for calls below a call: all levels of a tree for each pointer still to visit, and the
levels of the node itself. -/
def room (root : Json) (limit : Nat) (call : Call) : Nat :=
  (unvisited (pointers root ++ pointers call.2) call.1).length * (limit + 1) + call.2.depth

/-- A call for a part has less room than the call that makes it. -/
theorem Expands.room_lt (expands : Expands root call called) (limited : root.depth ≤ limit) :
    room root limit called < room root limit call := by
  cases expands with
  | @part path node via literal part trail plain member =>
    have lower := depth_part_lt member
    have fewer := trail.unvisited_length_le
    have within : pointers root ++ pointers part ⊆ pointers root ++ pointers literal :=
      List.append_subset.mpr ⟨List.subset_append_left _ _,
        List.Subset.trans (pointers_part_subset member) (List.subset_append_right _ _)⟩
    have kept : (unvisited _ (path ++ via)).length ≤ (unvisited _ (path ++ via)).length :=
      Reference.unvisited_length_le within
    simp only [room]
    by_cases moved : via = []
    · subst moved
      obtain rfl := trail.eq_start
      simp only [List.append_nil, List.length_nil, Nat.add_zero] at *
      have scaled := Nat.mul_le_mul_right (limit + 1) kept
      omega
    · have shallow := trail.depth_le moved
      have followed := List.length_pos_iff.mpr moved
      have scaled := Nat.mul_le_mul_right (limit + 1)
        (Nat.le_trans (Nat.add_le_add kept followed) fewer)
      rw [Nat.succ_mul] at scaled
      omega

/-- A property holds of all calls if it passes from calls for parts to the call that makes them. -/
theorem call_induction {motive : Call → Prop} (root : Json)
    (expand : ∀ call, (∀ called, Expands root call called → motive called) → motive call)
    (call : Call) : motive call := by
  induction size : room root root.depth call using Nat.strongRecOn generalizing call with
  | ind size ih =>
    apply expand
    intro called expands
    exact ih _ (size ▸ expands.room_lt (Nat.le_refl _)) called rfl

/-- Induction on synthesis: a property holds of every node, below any pointers, if it passes from the
parts of the literal node that ends the chain at a node to that node, and holds where the chain ends
in a cycle or is broken. -/
theorem sample_induction {motive : List String → Json → Prop} (root : Json)
    (unresolvable : ∀ path node e, follow root path node = .error e → motive path node)
    (cycle : ∀ path node pointer, follow root path node = .ok (.cycle pointer) → motive path node)
    (literal : ∀ path node literal via, follow root path node = .ok (.literal literal via) →
      (∀ part ∈ (form literal).parts, motive (path ++ via) part) → motive path node)
    (path : List String) (node : Json) : motive path node := by
  have every (call : Call) : motive call.1 call.2 := by
    induction call using call_induction root with
    | expand call inner =>
      obtain ⟨path, node⟩ := call
      rcases ends : follow root path node with e | ⟨last, via⟩ | pointer
      · exact unresolvable path node e ends
      · obtain ⟨trail, plain⟩ := Reference.follow_literal ends
        refine literal path node last via ends fun part member => ?_
        exact inner (path ++ via, part) (.part trail plain member)
      · exact cycle path node pointer ends
  exact every (path, node)

/-- Samples of properties by a partial sampler, in the order declared. -/
def sampleEach (sampler : String → Json → Counters → Option (Outcome Json)) :
    List (String × Json) → Counters → Option (Outcome (List (String × Json)))
  | [], c => some (.ok [], c)
  | (name, node) :: rest, c =>
    match sampler name node c with
    | none => none
    | some (.error e, c) => some (.error e, c)
    | some (.ok value, c) => (sampleEach sampler rest c).map (Outcome.map ((name, value) :: ·))

/-- Synthesis cut off at a number of levels: nothing comes of calls that nest deeper. -/
def sampleWithin (chance : Chance) (root : Json) :
    Nat → List String → Option String → Json → Counters → Option (Outcome Json)
  | 0, _, _, _, _ => none
  | levels + 1, path, property, node, c =>
    match follow root path node with
    | .error e => some (.error e, c)
    | .ok (.cycle _) => some (.ok .null, c)
    | .ok (.literal literal via) =>
      match form literal with
      | .fixed value => some (.ok value, c)
      | .leaf schema type =>
        some (.ok (leafValue chance schema property type c).1, (leafValue chance schema property type c).2)
      | .items node =>
        (sampleWithin chance root levels (path ++ via) property node c).map
          (Outcome.map fun value => .array [value])
      | .fields properties =>
        (sampleEach (fun name node c =>
          sampleWithin chance root levels (path ++ via) (some name) node c) properties c).map
            (Outcome.map .object)

theorem sampleEach_eq {sampler : String → Json → Counters → Option (Outcome Json)}
    (agrees : ∀ name node, (name, node) ∈ properties → ∀ c,
      sampler name node c = some (sample chance root path (some name) node c)) (c : Counters) :
    sampleEach sampler properties c = some (sampleFields chance root path properties c) := by
  induction properties generalizing c with
  | nil => simp [sampleEach, sampleFields]
  | cons entry rest ih =>
    obtain ⟨name, node⟩ := entry
    have later := ih (fun name node member => agrees name node (List.mem_cons_of_mem _ member))
    rw [sampleEach, agrees name node List.mem_cons_self, sampleFields]
    rcases sample chance root path (some name) node c with ⟨_ | value, c⟩
    · rfl
    · simp only [later, Option.map_some]

/-- Levels that exceed the room of a call are enough for it. -/
theorem sampleWithin_eq (limited : root.depth ≤ limit) (enough : room root limit (path, node) < levels)
    (property : Option String) (c : Counters) :
    sampleWithin chance root levels path property node c =
      some (sample chance root path property node c) := by
  induction levels generalizing path node property c with
  | zero => omega
  | succ levels ih =>
    rw [sampleWithin, sample_follow]
    have followed := Reference.follow_followed root path node
    generalize follow root path node = resolution at followed ⊢
    cases followed with
    | unresolvable => rfl
    | cycle => rfl
    | @literal via literal trail plain =>
      have inner : ∀ part ∈ (form literal).parts, room root limit (path ++ via, part) < levels := by
        intro part member
        have less := (Expands.part trail plain member).room_lt limited
        omega
      simp only [sampleResolution]
      generalize form literal = asked at inner ⊢
      cases asked with
      | fixed => rfl
      | leaf => rfl
      | items node =>
        simp only [ih (inner node List.mem_cons_self), Option.map_some, sampleForm]
      | fields properties =>
        have each := sampleEach_eq (fun name node member c =>
          ih (inner node (List.mem_map_of_mem member)) (some name) c) c
        simp only [each, Option.map_some, sampleForm]

/-- The distinct pointers of the document and a node. -/
def pointerCount (root node : Json) : Nat := (pointers root ++ pointers node).eraseDups.length

/-- The levels of calls that a document and a node leave room for. -/
def levelBound (root node : Json) : Nat :=
  (pointerCount root node + 1) * (max root.depth node.depth + 1)

theorem room_lt_levelBound (root node : Json) (path : List String) :
    room root (max root.depth node.depth) (path, node) < levelBound root node := by
  have fewer : (unvisited (pointers root ++ pointers node) path).length ≤ pointerCount root node :=
    Reference.unvisited_length_le_distinct _ _
  have scaled := Nat.mul_le_mul_right (max root.depth node.depth + 1) fewer
  have lower := Nat.le_max_right root.depth node.depth
  simp only [room, levelBound, Nat.succ_mul]
  omega

/-- Synthesis ends on every document, with calls nested no deeper than the bound: cut off there, or
at any level below, it gives the same answer. -/
theorem sampleWithin_levelBound (chance : Chance) (root : Json) (path : List String)
    (property : Option String) (node : Json) (c : Counters) (spare : Nat) :
    sampleWithin chance root (levelBound root node + spare) path property node c =
      some (sample chance root path property node c) := by
  apply sampleWithin_eq (Nat.le_max_left _ _)
  exact Nat.lt_of_lt_of_le (room_lt_levelBound root node path) (Nat.le_add_right _ _)

end LoadPlan.Sample
