import LoadPlan.Proofs.Sample.Unfolding

/-! References are transparent. A schema that unfolds into a tree is sampled like the tree, with the
same numbers drawn, wherever its markers stand and however often a pointer is repeated beside itself;
no cycle is found in it. -/
namespace LoadPlan.Sample
open Reference (Part Leads Reaches Ancestors follow pointer?)

theorem unfoldEach_cons {unfold : Json → Option Json} {name : String} {node : Json}
    {rest parts : List (String × Json)} (done : unfoldEach unfold ((name, node) :: rest) = some parts) :
    ∃ part others, unfold node = some part ∧ unfoldEach unfold rest = some others ∧
      parts = (name, part) :: others := by
  simp only [unfoldEach, Option.bind_eq_bind, Option.bind_eq_some_iff, Option.some.injEq] at done
  obtain ⟨part, here, others, later, rfl⟩ := done
  exact ⟨part, others, here, later, rfl⟩

theorem mem_unfoldEach {unfold : Json → Option Json} {properties parts : List (String × Json)}
    (done : unfoldEach unfold properties = some parts) (member : (name, part) ∈ parts) :
    ∃ node, (name, node) ∈ properties ∧ unfold node = some part := by
  induction properties generalizing parts with
  | nil =>
    cases done
    contradiction
  | cons field rest ih =>
    obtain ⟨key, node⟩ := field
    obtain ⟨first, others, here, later, rfl⟩ := unfoldEach_cons done
    rcases List.mem_cons.mp member with same | after
    · cases same
      exact ⟨node, List.mem_cons_self, here⟩
    · obtain ⟨source, among, unfolded⟩ := ih later after
      exact ⟨source, List.mem_cons_of_mem _ among, unfolded⟩

section
variable {unfold : Json → Option Json} {schema tree : Schema} (unfolds : Unfolds unfold schema tree)
include unfolds

theorem Unfolds.plain (plain : pointer? (.object schema) = none) :
    pointer? (.object tree) = none := by
  simpa only [pointer?, Json.get?, unfolds.alike "$ref" (by decide) (by decide)] using plain

theorem Unfolds.part_of_part (inside : Part (.object tree) part) :
    ∃ node, Part (.object schema) node ∧ unfold node = some part := by
  cases inside with
  | items found =>
    rcases unfolds.items with ⟨absent, -⟩ | ⟨node, _, same, other, unfolded⟩
    · cases absent.symm.trans found
    · cases other.symm.trans found
      exact ⟨node, .items same, unfolded⟩
  | property found member =>
    rcases unfolds.properties with ⟨same, other⟩ | ⟨properties, parts, same, found', unfolded⟩
    · exact absurd (same.symm.trans found) (other _)
    · cases found'.symm.trans found
      obtain ⟨node, among, unfolded⟩ := mem_unfoldEach unfolded member
      exact ⟨node, .property same among, unfolded⟩

theorem Unfolds.given? : given? tree = given? schema := by
  simp only [Sample.given?, unfolds.alike "example" (by decide) (by decide),
    unfolds.alike "examples" (by decide) (by decide)]

theorem Unfolds.type? : type? tree = type? schema := by
  simp only [Sample.type?, typeName?, unfolds.alike "type" (by decide) (by decide)]

theorem Unfolds.leafValue (chance : Chance) (property : Option String) (type : LeafType)
    (c : Counters) :
    leafValue chance tree property type c = leafValue chance schema property type c := by
  have bounds (key : String) (other : key ≠ "items") (other' : key ≠ "properties") :
      bound? tree key = bound? schema key := by
    rw [bound?, bound?, unfolds.alike key other other']
  have listed : listed? tree = listed? schema := by
    rw [listed?, listed?, unfolds.alike "enum" (by decide) (by decide)]
  have texts (text : String) : fitted tree text = fitted schema text := by
    simp only [fitted, unfolds.alike "minLength" (by decide) (by decide),
      unfolds.alike "maxLength" (by decide) (by decide)]
  have integers : boundedInteger tree = boundedInteger schema := by
    simp only [boundedInteger, bounds "minimum" (by decide) (by decide),
      bounds "maximum" (by decide) (by decide)]
  have numbers : boundedNumber tree = boundedNumber schema := by
    simp only [boundedNumber, bounds "minimum" (by decide) (by decide),
      bounds "maximum" (by decide) (by decide)]
  cases type <;>
    simp only [Sample.leafValue, listed, leaf, texts, integerValue, integers, numberValue, numbers]

end

section
variable {chance : Chance} {root : Json} {path : List String}

theorem sampleFields_unfoldEach {unfold : Json → Option Json} {properties parts : List (String × Json)}
    {root' : Json} {path' : List String} (done : unfoldEach unfold properties = some parts)
    (each : ∀ name node part, (name, node) ∈ properties → unfold node = some part → ∀ c,
      sample chance root path (some name) node c = sample chance root' path' (some name) part c)
    (c : Counters) :
    sampleFields chance root path properties c = sampleFields chance root' path' parts c := by
  induction properties generalizing parts c with
  | nil =>
    cases done
    rw [sampleFields, sampleFields]
  | cons field rest ih =>
    obtain ⟨name, node⟩ := field
    obtain ⟨part, others, here, later, rfl⟩ := unfoldEach_cons done
    have rest := ih later fun name node part member =>
      each name node part (List.mem_cons_of_mem _ member)
    rw [sampleFields, sampleFields, each name node part List.mem_cons_self here]
    simp only [rest]

/-- Schemas that differ in markers only ask for the same, if their parts have the same samples. -/
theorem sampleForm_unfolds {unfold : Json → Option Json} {schema tree : Schema} {root' : Json}
    {path' : List String} (unfolds : Unfolds unfold schema tree)
    (each : ∀ node part, Part (.object schema) node → unfold node = some part → ∀ property c,
      sample chance root path property node c = sample chance root' path' property part c)
    (property : Option String) (c : Counters) :
    sampleForm chance root path property c (form (.object schema)) =
      sampleForm chance root' path' property c (form (.object tree)) := by
  simp only [form, unfolds.given?, unfolds.type?]
  cases given? schema with
  | some value => rfl
  | none =>
    cases type? schema with
    | none => rfl
    | some type =>
      cases type with
      | leaf type => simp only [typedForm, sampleForm, unfolds.leafValue]
      | array =>
        rcases unfolds.items with ⟨absent, absent'⟩ | ⟨node, part, found, found', unfolded⟩
        · simp only [typedForm, absent, absent', sampleForm]
        · simp only [typedForm, found, found', sampleForm,
            each node part (.items found) unfolded property c]
      | object =>
        rcases unfolds.properties with ⟨same, other⟩ | ⟨properties, parts, found, found', unfolded⟩
        · simp only [typedForm, same]
          rfl
        · have fields := sampleFields_unfoldEach unfolded (fun name node part member unfolded c =>
            each node part (.property found member) unfolded (some name) c) c
          simp only [typedForm, found, found', sampleForm, fields]

/-- A schema and its tree are sampled alike, below pointers that lead to the schema. -/
theorem sample_unfolded? {levels : Nat} (finite : Finite root node)
    (ancestors : Ancestors root path node) (done : unfolded? root levels node = some tree)
    (root' : Json) (path' : List String) (property : Option String) (c : Counters) :
    sample chance root path property node c = sample chance root' path' property tree c := by
  induction levels generalizing path node tree path' property c with
  | zero => contradiction
  | succ levels ih =>
    cases marked : pointer? node with
    | some pointer =>
      obtain ⟨target, found, unfolded⟩ := unfolded?_marker marked done
      have leads : Leads root node target := .marker marked found
      have fresh := finite.not_visited ancestors marked found
      rw [sample_marker chance marked, if_neg fresh, found]
      exact ih (finite.inv leads) (ancestors.hop marked found) unfolded path' property c
    | none =>
      rw [sample_literal chance marked]
      cases node with
      | object schema =>
        obtain ⟨unfolded, rfl, unfolds⟩ := unfolded?_object marked done
        rw [sample_literal chance (unfolds.plain marked)]
        refine sampleForm_unfolds unfolds (fun part tree inside done property c => ?_) property c
        have leads : Leads root (.object schema) part := .part marked inside
        exact ih (finite.inv leads) (ancestors.step leads) done path' property c
      | null | bool | int | float | string | array =>
        simp only [unfolded?, marked, Option.some.injEq] at done
        subst done
        rw [sample_literal chance marked]
        rfl

end

theorem unfolded?_plain {root : Json} {levels : Nat} (done : unfolded? root levels node = some tree)
    (inside : Relation.ReflTransGen Part tree part) : pointer? part = none := by
  induction levels generalizing node tree with
  | zero => contradiction
  | succ levels ih =>
    cases marked : pointer? node with
    | some pointer =>
      obtain ⟨target, -, unfolded⟩ := unfolded?_marker marked done
      exact ih unfolded inside
    | none =>
      cases node with
      | object schema =>
        obtain ⟨unfolded, rfl, unfolds⟩ := unfolded?_object marked done
        rcases Relation.ReflTransGen.cases_head inside with rfl | ⟨first, part, rest⟩
        · exact unfolds.plain marked
        · obtain ⟨source, -, done⟩ := unfolds.part_of_part part
          exact ih done rest
      | null | bool | int | float | string | array =>
        simp only [unfolded?, marked, Option.some.injEq] at done
        subst done
        rcases Relation.ReflTransGen.cases_head inside with rfl | ⟨first, part, -⟩
        · exact marked
        · cases part <;> contradiction

/-- No chain of markers is given up in what a finite schema leads to. -/
theorem Finite.follow_ne_cycle {chance : Chance} {root : Json} {frame called : Frame}
    (finite : Finite root frame.node) (before : Ancestors root frame.path frame.node)
    (calls : Relation.ReflTransGen (Calls chance root) frame called) (pointer : String) :
    follow root called.path called.node ≠ .ok (.cycle pointer) := by
  intro broken
  obtain ⟨target, marker, found, back, marked, reaches⟩ :=
    (ancestors_of_calls calls before).follow_cycle broken
  have reached := finite.reached ((reaches_of_calls calls).trans reaches)
  exact reached.no_return (.marker marked found) back

/-- A schema unfolds if no way from it goes on for ever and all markers it leads to lead somewhere. The
tree has no markers, and whatever is drawn, its samples are those of the schema, with the same numbers
used up; and no marker becomes null for a cycle. -/
theorem sample_eq_sample_unfolded {root node : Json} (finite : Finite root node)
    (resolved : Resolved root node) :
    (∃ levels tree, unfolded? root levels node = some tree) ∧
      (∀ levels tree, unfolded? root levels node = some tree →
        (∀ part, Relation.ReflTransGen Part tree part → pointer? part = none) ∧
        ∀ chance root' path property c,
          sample chance root [] property node c = sample chance root' path property tree c) ∧
      ∀ chance property c called,
        Relation.ReflTransGen (Calls chance root) ⟨[], property, node, c⟩ called →
          ∀ pointer, follow root called.path called.node ≠ .ok (.cycle pointer) := by
  obtain ⟨levels, some⟩ := exists_unfolded? finite resolved
  obtain ⟨tree, done⟩ := Option.isSome_iff_exists.mp some
  refine ⟨⟨levels, tree, done⟩, fun levels tree done => ⟨?_, ?_⟩, ?_⟩
  · exact fun part inside => unfolded?_plain done inside
  · intro chance root' path property c
    exact sample_unfolded? finite .nil done root' path property c
  · intro chance property c called calls pointer
    exact Finite.follow_ne_cycle finite .nil calls pointer

def numberSchema : Json := .object [("type", .string "integer")]

def aliasMarker : Json := .object [("$ref", .string "#/alias")]

/-- A schema under another name, beside it. -/
def aliasRoot : Json :=
  .object [("number", numberSchema), ("alias", .object [("$ref", .string "#/number")])]

def listOf (part : Json) : Json := .object [("type", .string "array"), ("items", part)]

/-- An object with one schema for two of its properties, once as it is and once for a list. -/
def familySchema (part : Json) : Json :=
  .object [("type", .string "object"), ("properties", .object [("id", part), ("others", listOf part)])]

theorem lookup_alias :
    Pointer.lookup? aliasRoot "#/alias" = some (.object [("$ref", .string "#/number")]) := by
  unfold Pointer.lookup? Pointer.segments?
  rw [show String.toList "#/alias" = _ from String.toList_ofList]
  with_unfolding_all rfl

theorem lookup_number : Pointer.lookup? aliasRoot "#/number" = some numberSchema := by
  unfold Pointer.lookup? Pointer.segments?
  rw [show String.toList "#/number" = _ from String.toList_ofList]
  with_unfolding_all rfl

theorem unfolded?_aliasMarker (levels : Nat) :
    unfolded? aliasRoot (levels + 3) aliasMarker = some numberSchema := by
  rw [unfolded?_chain rfl, lookup_alias, Option.bind_some, unfolded?_chain rfl, lookup_number]
  rfl

theorem unfolded?_listOf : unfolded? aliasRoot 4 (listOf aliasMarker) = some (listOf numberSchema) := by
  have items : unfoldItems (unfolded? aliasRoot 3) [("type", .string "array"), ("items", aliasMarker)] =
      some [("type", .string "array"), ("items", numberSchema)] := by
    change (unfolded? aliasRoot 3 aliasMarker).map _ = _
    rw [unfolded?_aliasMarker]
    rfl
  rw [listOf, unfolded?_schema rfl, items]
  rfl

theorem unfolded?_familySchema :
    unfolded? aliasRoot 5 (familySchema aliasMarker) = some (familySchema numberSchema) := by
  have each : unfoldEach (unfolded? aliasRoot 4) [("id", aliasMarker), ("others", listOf aliasMarker)] =
      some [("id", numberSchema), ("others", listOf numberSchema)] := by
    rw [unfoldEach, unfoldEach, unfolded?_aliasMarker, unfolded?_listOf]
    rfl
  have items : unfoldItems (unfolded? aliasRoot 4) [("type", .string "object"),
      ("properties", .object [("id", aliasMarker), ("others", listOf aliasMarker)])] = some _ := rfl
  rw [familySchema, unfolded?_schema rfl, items, Option.bind_some]
  simp only [unfoldProperties, List.lookup_cons, String.reduceBEq, each, Option.map_some]
  rfl

theorem family_sampled_alike :
    Finite aliasRoot (familySchema aliasMarker) ∧ Resolved aliasRoot (familySchema aliasMarker) ∧
      sample ⟨2024, fun _ => 0⟩ aliasRoot [] none (familySchema aliasMarker) .start =
        sample ⟨2024, fun _ => 0⟩ .null [] none (familySchema numberSchema) .start := by
  have done := Option.isSome_of_eq_some unfolded?_familySchema
  have finite := finite_of_unfolded? done
  have resolved := resolved_of_unfolded? done
  obtain ⟨-, alike, -⟩ := sample_eq_sample_unfolded finite resolved
  exact ⟨finite, resolved, (alike 5 _ unfolded?_familySchema).2 _ .null [] none .start⟩

end LoadPlan.Sample
