import LoadPlan.Proofs.Json.Fields
import LoadPlan.Proofs.Sample.Cycle

/-! Schemas unfolded into trees. Where no way through markers, items and properties goes on for ever,
and all markers met lead somewhere, each marker is replaced by the literal node it leads to. The tree
has no markers left to follow, and its samples are those of the schema. -/
namespace LoadPlan.Sample
open Reference (Part Leads Reaches Ancestors follow pointer?)

section
variable (unfold : Json → Option Json)

def unfoldEach : List (String × Json) → Option (List (String × Json))
  | [] => some []
  | (name, node) :: rest => do
    let tree ← unfold node
    let trees ← unfoldEach rest
    some ((name, tree) :: trees)

def unfoldItems (schema : Schema) : Option Schema :=
  match schema.lookup "items" with
  | some node => (unfold node).map (Json.insert schema "items")
  | none => some schema

def unfoldProperties (schema : Schema) : Option Schema :=
  match schema.lookup "properties" with
  | some (.object properties) =>
    (unfoldEach unfold properties).map fun trees => Json.insert schema "properties" (.object trees)
  | _ => some schema

end

/-- The tree that a node unfolds into; there is none if that takes more levels, or if a marker that
is met leads nowhere. -/
def unfolded? (root : Json) : Nat → Json → Option Json
  | 0, _ => none
  | levels + 1, node =>
    match pointer? node, node with
    | some pointer, _ => (Pointer.lookup? root pointer).bind (unfolded? root levels)
    | none, .object schema =>
      ((unfoldItems (unfolded? root levels) schema).bind
        (unfoldProperties (unfolded? root levels))).map .object
    | none, node => some node

/-- One schema is another with its items and properties unfolded. -/
structure Unfolds (unfold : Json → Option Json) (schema tree : Schema) : Prop where
  alike : ∀ key, key ≠ "items" → key ≠ "properties" → tree.lookup key = schema.lookup key
  items : tree.lookup "items" = none ∧ schema.lookup "items" = none ∨
    ∃ node part, schema.lookup "items" = some node ∧ tree.lookup "items" = some part ∧
      unfold node = some part
  properties : tree.lookup "properties" = schema.lookup "properties" ∧
      (∀ properties, schema.lookup "properties" ≠ some (.object properties)) ∨
    ∃ properties parts, schema.lookup "properties" = some (.object properties) ∧
      tree.lookup "properties" = some (.object parts) ∧ unfoldEach unfold properties = some parts

section
variable {unfold : Json → Option Json} {schema tree : Schema}

theorem unfoldItems_eq_some (done : unfoldItems unfold schema = some tree) :
    (∀ key, key ≠ "items" → tree.lookup key = schema.lookup key) ∧
    (tree.lookup "items" = none ∧ schema.lookup "items" = none ∨
      ∃ node part, schema.lookup "items" = some node ∧ tree.lookup "items" = some part ∧
        unfold node = some part) := by
  unfold unfoldItems at done
  split at done
  · rename_i node found
    obtain ⟨part, unfolded, rfl⟩ := Option.map_eq_some_iff.mp done
    refine ⟨fun key other => ?_, .inr ⟨node, part, found, ?_, unfolded⟩⟩
    · rw [Json.lookup_insert, if_neg other]
    · rw [Json.lookup_insert, if_pos rfl]
  · rename_i absent
    cases done
    exact ⟨fun _ _ => rfl, .inl ⟨absent, absent⟩⟩

theorem unfoldProperties_eq_some (done : unfoldProperties unfold schema = some tree) :
    (∀ key, key ≠ "properties" → tree.lookup key = schema.lookup key) ∧
    (tree.lookup "properties" = schema.lookup "properties" ∧
        (∀ properties, schema.lookup "properties" ≠ some (.object properties)) ∨
      ∃ properties parts, schema.lookup "properties" = some (.object properties) ∧
        tree.lookup "properties" = some (.object parts) ∧
          unfoldEach unfold properties = some parts) := by
  unfold unfoldProperties at done
  split at done
  · rename_i properties found
    obtain ⟨parts, unfolded, rfl⟩ := Option.map_eq_some_iff.mp done
    refine ⟨fun key other => ?_, .inr ⟨properties, parts, found, ?_, unfolded⟩⟩
    · rw [Json.lookup_insert, if_neg other]
    · rw [Json.lookup_insert, if_pos rfl]
  · rename_i other
    cases done
    exact ⟨fun _ _ => rfl, .inl ⟨rfl, other⟩⟩

theorem unfolds_of_eq_some
    (done : (unfoldItems unfold schema).bind (unfoldProperties unfold) = some tree) :
    Unfolds unfold schema tree := by
  obtain ⟨middle, first, last⟩ := Option.bind_eq_some_iff.mp done
  obtain ⟨kept, items⟩ := unfoldItems_eq_some first
  obtain ⟨kept', properties⟩ := unfoldProperties_eq_some last
  rw [kept "properties" (by decide)] at properties
  rw [← kept' "items" (by decide)] at items
  exact ⟨fun key other other' => (kept' key other').trans (kept key other), items, properties⟩

theorem unfoldEach_isSome {properties : List (String × Json)} :
    (unfoldEach unfold properties).isSome ↔
      ∀ name node, (name, node) ∈ properties → (unfold node).isSome := by
  induction properties with
  | nil => simp [unfoldEach]
  | cons field rest ih =>
    obtain ⟨name, node⟩ := field
    have both : (unfoldEach unfold ((name, node) :: rest)).isSome ↔
        (unfold node).isSome ∧ (unfoldEach unfold rest).isSome := by
      rw [unfoldEach]
      cases unfold node <;> cases unfoldEach unfold rest <;> simp
    rw [both, ih]
    constructor
    · rintro ⟨first, later⟩ other part member
      rcases List.mem_cons.mp member with same | after
      · cases same
        exact first
      · exact later other part after
    · intro each
      exact ⟨each name node List.mem_cons_self,
        fun other part member => each other part (List.mem_cons_of_mem _ member)⟩

theorem unfoldSchema_isSome :
    ((unfoldItems unfold schema).bind (unfoldProperties unfold)).isSome ↔
      ∀ part, Part (.object schema) part → (unfold part).isSome := by
  constructor
  · intro done part inside
    obtain ⟨tree, done⟩ := Option.isSome_iff_exists.mp done
    have unfolds := unfolds_of_eq_some done
    cases inside with
    | items found =>
      rcases unfolds.items with ⟨-, absent⟩ | ⟨node, part, same, -, unfolded⟩
      · cases absent.symm.trans found
      · cases same.symm.trans found
        exact Option.isSome_of_eq_some unfolded
    | property found member =>
      rcases unfolds.properties with ⟨-, other⟩ | ⟨properties, parts, same, -, unfolded⟩
      · exact absurd found (other _)
      · cases same.symm.trans found
        exact unfoldEach_isSome.mp (Option.isSome_of_eq_some unfolded) _ _ member
  · intro each
    have first : (unfoldItems unfold schema).isSome := by
      unfold unfoldItems
      split
      · rename_i node found
        simpa using each node (.items found)
      · rfl
    obtain ⟨middle, first⟩ := Option.isSome_iff_exists.mp first
    have kept := (unfoldItems_eq_some first).1 "properties" (by decide)
    rw [first, Option.bind_some, unfoldProperties, kept]
    split
    · rename_i properties found
      have all : (unfoldEach unfold properties).isSome :=
        unfoldEach_isSome.mpr fun name node member => each node (.property found member)
      simpa using all
    · rfl

end

section
variable {root node : Json}

theorem unfolded?_chain (marked : pointer? node = some pointer) (levels : Nat) :
    unfolded? root (levels + 1) node =
      (Pointer.lookup? root pointer).bind (unfolded? root levels) := by
  simp only [unfolded?, marked]

theorem unfolded?_schema (plain : pointer? (.object schema) = none) (levels : Nat) :
    unfolded? root (levels + 1) (.object schema) =
      ((unfoldItems (unfolded? root levels) schema).bind
        (unfoldProperties (unfolded? root levels))).map .object := by
  simp only [unfolded?, plain]

/-- A node unfolds if its marker leads somewhere and all that it leads to unfolds in fewer levels. -/
theorem unfolded?_isSome_iff {levels : Nat} :
    (unfolded? root (levels + 1) node).isSome ↔
      (∀ pointer, pointer? node = some pointer → (Pointer.lookup? root pointer).isSome) ∧
        ∀ next, Leads root node next → (unfolded? root levels next).isSome := by
  cases marked : pointer? node with
  | some pointer =>
    rw [unfolded?_chain marked]
    constructor
    · intro done
      obtain ⟨tree, done⟩ := Option.isSome_iff_exists.mp done
      obtain ⟨target, found, unfolded⟩ := Option.bind_eq_some_iff.mp done
      refine ⟨fun _ same => ?_, fun next leads => ?_⟩
      · cases same
        exact Option.isSome_of_eq_some found
      · cases leads with
        | marker same other =>
          cases same.symm.trans marked
          cases other.symm.trans found
          exact Option.isSome_of_eq_some unfolded
        | part plain => cases plain.symm.trans marked
    · rintro ⟨sound, each⟩
      obtain ⟨target, found⟩ := Option.isSome_iff_exists.mp (sound pointer rfl)
      rw [found, Option.bind_some]
      exact each target (.marker marked found)
  | none =>
    have parts : (unfolded? root (levels + 1) node).isSome ↔
        ∀ part, Part node part → (unfolded? root levels part).isSome := by
      cases node with
      | object schema =>
        rw [unfolded?_schema marked, Option.isSome_map]
        exact unfoldSchema_isSome
      | null | bool | int | float | string | array =>
        refine ⟨fun _ part inside => ?_, fun _ => ?_⟩
        · cases inside <;> contradiction
        · simp only [unfolded?, marked, Option.isSome_some]
    rw [parts]
    constructor
    · intro each
      refine ⟨fun _ => (nomatch ·), fun next leads => ?_⟩
      cases leads with
      | marker same => cases same.symm.trans marked
      | part _ inside => exact each next inside
    · rintro ⟨-, each⟩ part inside
      exact each part (.part marked inside)

theorem unfolded?_isSome_succ {levels : Nat} (done : (unfolded? root levels node).isSome) :
    (unfolded? root (levels + 1) node).isSome := by
  induction levels generalizing node with
  | zero => contradiction
  | succ levels ih =>
    obtain ⟨sound, each⟩ := unfolded?_isSome_iff.mp done
    exact unfolded?_isSome_iff.mpr ⟨sound, fun next leads => ih (each next leads)⟩

/-- No way that starts at a node goes on for ever. -/
def Finite (root node : Json) : Prop := Acc (fun next node => Leads root node next) node

/-- All markers that a node leads to lead somewhere. -/
def Resolved (root node : Json) : Prop :=
  ∀ marker pointer, Reaches root node marker → pointer? marker = some pointer →
    (Pointer.lookup? root pointer).isSome

theorem Finite.no_return (finite : Finite root node) (leads : Leads root node next) :
    ¬ Reaches root next node := by
  induction finite generalizing next with
  | intro node _ ih =>
    intro back
    rcases Relation.ReflTransGen.cases_head back with rfl | ⟨further, onward, rest⟩
    · exact ih _ leads leads .refl
    · exact ih next leads onward (rest.tail leads)

/-- A marker of a finite node is not on a path that leads to the node: its pointer would lead back. -/
theorem Finite.not_visited (finite : Finite root node) (ancestors : Ancestors root path node)
    (marked : pointer? node = some pointer) (found : Pointer.lookup? root pointer = some next) :
    ¬ path.contains pointer := by
  intro visited
  obtain ⟨target, same, back⟩ := ancestors pointer (by simpa using visited)
  cases found.symm.trans same
  exact finite.no_return (.marker marked found) back

theorem Finite.reached (finite : Finite root node) (reaches : Reaches root node last) :
    Finite root last := by
  induction reaches with
  | refl => exact finite
  | tail _ leads ih => exact ih.inv leads

theorem finite_of_unfolded? {levels : Nat} (done : (unfolded? root levels node).isSome) :
    Finite root node := by
  induction levels generalizing node with
  | zero => contradiction
  | succ levels ih => exact ⟨node, fun next leads => ih ((unfolded?_isSome_iff.mp done).2 next leads)⟩

theorem resolved_of_unfolded? {levels : Nat} (done : (unfolded? root levels node).isSome) :
    Resolved root node := by
  intro marker pointer reaches marked
  induction reaches using Relation.ReflTransGen.head_induction_on generalizing levels with
  | refl =>
    cases levels with
    | zero => contradiction
    | succ levels => exact (unfolded?_isSome_iff.mp done).1 pointer marked
  | head leads _ ih =>
    cases levels with
    | zero => contradiction
    | succ levels => exact ih ((unfolded?_isSome_iff.mp done).2 _ leads)

section
variable {P : Nat → Json → Prop}
  (stays : ∀ levels more part, levels ≤ more → P levels part → P more part)
include stays

theorem exists_common_level (nodes : List Json) (each : ∀ part ∈ nodes, ∃ levels, P levels part) :
    ∃ levels, ∀ part ∈ nodes, P levels part := by
  induction nodes with
  | nil => exact ⟨0, fun _ => (nomatch ·)⟩
  | cons first rest ih =>
    obtain ⟨a, here⟩ := each first List.mem_cons_self
    obtain ⟨b, later⟩ := ih fun part member => each part (List.mem_cons_of_mem _ member)
    refine ⟨max a b, List.forall_mem_cons.mpr ⟨?_, fun part member => ?_⟩⟩
    · exact stays a _ first (Nat.le_max_left a b) here
    · exact stays b _ part (Nat.le_max_right a b) (later part member)

/-- What holds of each part from some level on holds of all of them from one level on. -/
theorem Part.exists_level (each : ∀ part, Part node part → ∃ levels, P levels part) :
    ∃ levels, ∀ part, Part node part → P levels part := by
  have items : ∃ levels, ∀ part, node.get? "items" = some part → P levels part := by
    cases found : node.get? "items" with
    | none => exact ⟨0, fun _ => (nomatch ·)⟩
    | some part =>
      obtain ⟨levels, holds⟩ := each part (.items found)
      exact ⟨levels, fun _ same => Option.some.inj same ▸ holds⟩
  have properties : ∃ levels, ∀ properties, node.get? "properties" = some (.object properties) →
      ∀ part ∈ properties.map Prod.snd, P levels part := by
    by_cases object : ∃ properties, node.get? "properties" = some (.object properties)
    · obtain ⟨properties, found⟩ := object
      obtain ⟨levels, holds⟩ := exists_common_level stays (properties.map Prod.snd) <| by
        rw [List.forall_mem_map]
        exact fun field member => each field.2 (.property found member)
      refine ⟨levels, fun other same => ?_⟩
      cases found.symm.trans same
      exact holds
    · exact ⟨0, fun properties found => absurd ⟨properties, found⟩ object⟩
  obtain ⟨a, items⟩ := items
  obtain ⟨b, properties⟩ := properties
  refine ⟨max a b, fun part inside => ?_⟩
  cases inside with
  | items found => exact stays a _ part (Nat.le_max_left a b) (items part found)
  | property found member =>
    exact stays b _ part (Nat.le_max_right a b)
      (properties _ found part (List.mem_map_of_mem member))

end

theorem exists_unfolded? (finite : Finite root node) (resolved : Resolved root node) :
    ∃ levels, (unfolded? root levels node).isSome := by
  induction finite with
  | intro node _ ih =>
    have inner (next : Json) (leads : Leads root node next) :
        ∃ levels, (unfolded? root levels next).isSome :=
      ih next leads fun marker pointer reaches => resolved marker pointer (reaches.head leads)
    have stays (levels more : Nat) (part : Json) (le : levels ≤ more)
        (done : (unfolded? root levels part).isSome) : (unfolded? root more part).isSome := by
      induction le with
      | refl => exact done
      | step _ ih => exact unfolded?_isSome_succ ih
    have sound (pointer : String) := resolved node pointer .refl
    cases marked : pointer? node with
    | some pointer =>
      obtain ⟨target, found⟩ := Option.isSome_iff_exists.mp (sound pointer marked)
      obtain ⟨levels, done⟩ := inner target (.marker marked found)
      refine ⟨levels + 1, unfolded?_isSome_iff.mpr ⟨sound, fun next leads => ?_⟩⟩
      cases leads with
      | marker same other =>
        cases same.symm.trans marked
        cases other.symm.trans found
        exact done
      | part plain => cases plain.symm.trans marked
    | none =>
      obtain ⟨levels, done⟩ := Part.exists_level stays fun part inside =>
        inner part (.part marked inside)
      refine ⟨levels + 1, unfolded?_isSome_iff.mpr ⟨sound, fun next leads => ?_⟩⟩
      cases leads with
      | marker same => cases same.symm.trans marked
      | part _ inside => exact done next inside

theorem unfolded?_marker {levels : Nat} (marked : pointer? node = some pointer)
    (done : unfolded? root (levels + 1) node = some tree) :
    ∃ target, Pointer.lookup? root pointer = some target ∧ unfolded? root levels target = some tree := by
  rw [unfolded?_chain marked] at done
  exact Option.bind_eq_some_iff.mp done

theorem unfolded?_object {levels : Nat} (plain : pointer? (.object schema) = none)
    (done : unfolded? root (levels + 1) (.object schema) = some tree) :
    ∃ unfolded, tree = .object unfolded ∧ Unfolds (unfolded? root levels) schema unfolded := by
  rw [unfolded?_schema plain] at done
  obtain ⟨unfolded, schema, rfl⟩ := Option.map_eq_some_iff.mp done
  exact ⟨unfolded, rfl, unfolds_of_eq_some schema⟩

end

end LoadPlan.Sample
