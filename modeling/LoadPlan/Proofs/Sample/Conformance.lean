import LoadPlan.Proofs.Sample.Body
import LoadPlan.Proofs.Sample.Sound
import LoadPlan.Proofs.Sample.Transparency

/-! Samples conform to the types that schemas declare. Validity of a value for a schema is told apart
from synthesis, through markers, properties and items. Where a schema unfolds into a tree of types
alone, with no value given or listed in it, its samples are valid for it. -/
namespace LoadPlan.Sample
open Reference (Part Leads Reaches Ancestors pointer?)

/-- The names of types that schemas may declare. -/
def typeNames : List String := ["object", "array", "string", "integer", "number", "boolean", "null"]

/-- The types that a schema declares, by one name or by a list of names. -/
def declaredTypes (schema : Schema) : List String :=
  match schema.lookup "type" with
  | some (.string name) => [name]
  | some (.array names) => names.filterMap Json.string?
  | _ => []

def declaredProperties (schema : Schema) : List (String × Json) :=
  ((schema.lookup "properties").bind Json.fields?).getD []

/-- The type of a value without parts; a whole number is a number too. -/
inductive IsScalar : Json → String → Prop where
  | null : IsScalar .null "null"
  | boolean : IsScalar (.bool value) "boolean"
  | integer : IsScalar (.int n) "integer"
  | whole : IsScalar (.int n) "number"
  | number : IsScalar (.float x) "number"
  | string : IsScalar (.string text) "string"

/-- A value is valid for a schema, as to its type: it is of one of the declared types, an object has
just the declared properties in their order, and an array one item if items are declared and else
none. A marker stands for the schema that it leads to. -/
inductive Valid (root : Json) : Json → Json → Prop where
  | marker (marked : pointer? node = some pointer)
      (found : Pointer.lookup? root pointer = some target) (valid : Valid root target value) :
      Valid root node value
  | scalar (plain : pointer? (.object schema) = none) (type : name ∈ declaredTypes schema)
      (scalar : IsScalar value name) : Valid root (.object schema) value
  | object (plain : pointer? (.object schema) = none) (type : "object" ∈ declaredTypes schema)
      (names : fields.map Prod.fst = (declaredProperties schema).map Prod.fst)
      (values : List.Forall₂ (Valid root) ((declaredProperties schema).map Prod.snd)
        (fields.map Prod.snd)) : Valid root (.object schema) (.object fields)
  | array (plain : pointer? (.object schema) = none) (type : "array" ∈ declaredTypes schema)
      (each : List.Forall₂ (Valid root) (schema.lookup "items").toList items) :
      Valid root (.object schema) (.array items)

/-- The name of a known type, or a list of such names that is not empty. -/
inductive NamesTypes : Json → Prop where
  | one (known : name ∈ typeNames) : NamesTypes (.string name)
  | several (some : names ≠ []) (known : ∀ name ∈ names, name ∈ typeNames) :
      NamesTypes (.array (names.map .string))

/-- A schema that declares known types, and gives and lists no values. -/
structure Typed (schema : Schema) : Prop where
  unlisted : ∀ key ∈ ["example", "examples", "enum"], schema.lookup key = none
  types : ∃ entry, schema.lookup "type" = some entry ∧ NamesTypes entry

def LeafType.name : LeafType → String
  | .string => "string"
  | .integer => "integer"
  | .number => "number"
  | .boolean => "boolean"

section
variable {schema : Schema} {property : Option String} {name : String}

/-- The type that is synthesized is one of those declared. -/
theorem Typed.chosen (typed : Typed schema) :
    ∃ name ∈ declaredTypes schema, name ∈ typeNames ∧ type? schema = SchemaType.ofName? name := by
  obtain ⟨entry, declared, names⟩ := typed.types
  cases names with
  | @one name known =>
    refine ⟨name, ?_, known, ?_⟩
    · simp [declaredTypes, declared]
    · simp [type?, typeName?, declared]
  | @several names some known =>
    have listed : (names.map Json.string).filterMap Json.string? = names := by
      simp [List.filterMap_map, Function.comp_def, Json.string?]
    have types : declaredTypes schema = names := by simp only [declaredTypes, declared, listed]
    have chosen : type? schema = (names.find? (· != "null")).bind SchemaType.ofName? := by
      simp only [type?, typeName?, declared, listed]
    rw [types, chosen]
    cases found : names.find? (· != "null") with
    | some name =>
      have member := List.mem_of_find?_eq_some found
      exact ⟨name, member, known name member, rfl⟩
    | none =>
      -- Only null is declared, for which nothing is synthesized.
      obtain ⟨first, member⟩ := List.exists_mem_of_ne_nil names some
      have null : first = "null" := by simpa using List.find?_eq_none.mp found first member
      exact ⟨first, member, known first member, null ▸ rfl⟩

theorem Typed.given? (typed : Typed schema) : given? schema = none := by
  simp [Sample.given?, typed.unlisted]

theorem Typed.listed? (typed : Typed schema) : listed? schema = none := by
  simp [Sample.listed?, typed.unlisted]

theorem ofName?_cases (known : name ∈ typeNames) :
    (name = "null" ∧ SchemaType.ofName? name = none) ∨
      (name = "object" ∧ SchemaType.ofName? name = some .object) ∨
      (name = "array" ∧ SchemaType.ofName? name = some .array) ∨
      ∃ type : LeafType, name = type.name ∧ SchemaType.ofName? name = some (.leaf type) := by
  simp only [typeNames, List.mem_cons, List.not_mem_nil, or_false] at known
  rcases known with rfl | rfl | rfl | rfl | rfl | rfl | rfl
  · exact .inr (.inl ⟨rfl, rfl⟩)
  · exact .inr (.inr (.inl ⟨rfl, rfl⟩))
  · exact .inr (.inr (.inr ⟨.string, rfl, rfl⟩))
  · exact .inr (.inr (.inr ⟨.integer, rfl, rfl⟩))
  · exact .inr (.inr (.inr ⟨.number, rfl, rfl⟩))
  · exact .inr (.inr (.inr ⟨.boolean, rfl, rfl⟩))
  · exact .inl ⟨rfl, rfl⟩

theorem numberHints_finite : ∀ entry ∈ numberHints,
    (Double.ofDecimal? false entry.2.digits entry.2.exponent).isSome := by
  decide +kernel

theorem numberValue_isScalar (schema : Schema) (property : Option String) :
    IsScalar (numberValue schema property) "number" := by
  unfold numberValue
  split
  · rename_i decimal found
    obtain ⟨words, listed⟩ := hint?_mem found
    obtain ⟨x, finite⟩ := Option.isSome_iff_exists.mp (numberHints_finite _ listed)
    rw [finite]
    exact .number
  · exact .number

/-- Whatever the name of the property suggests, the value is of the declared type. -/
theorem Typed.leafValue_isScalar (typed : Typed schema) (chance : Chance) (type : LeafType)
    (c : Counters) : IsScalar (leafValue chance schema property type c).1 type.name := by
  rw [leafValue, typed.listed?]
  cases type with
  | string => exact .string
  | integer => exact .integer
  | number => exact numberValue_isScalar schema property
  | boolean => exact .boolean

end

section
variable {chance : Chance} {root node : Json} {path : List String}

/-- Synthesis gives a value that is valid for the node. -/
def Conforms (root node : Json) (outcome : Outcome Json) : Prop :=
  ∃ value after, outcome = (.ok value, after) ∧ Valid root node value

theorem sampleFields_valid {properties : List (String × Json)}
    (each : ∀ name part, (name, part) ∈ properties → ∀ c,
      Conforms root part (sample chance root path (some name) part c)) (c : Counters) :
    ∃ fields after, sampleFields chance root path properties c = (.ok fields, after) ∧
      fields.map Prod.fst = properties.map Prod.fst ∧
      List.Forall₂ (Valid root) (properties.map Prod.snd) (fields.map Prod.snd) := by
  induction properties generalizing c with
  | nil => exact ⟨[], c, by rw [sampleFields], rfl, .nil⟩
  | cons field rest ih =>
    obtain ⟨name, part⟩ := field
    obtain ⟨value, next, sampled, valid⟩ := each name part List.mem_cons_self c
    obtain ⟨fields, after, others, names, values⟩ :=
      ih (fun name part member => each name part (List.mem_cons_of_mem _ member)) next
    refine ⟨(name, value) :: fields, after, ?_, ?_, .cons valid values⟩
    · rw [sampleFields, sampled]
      simp only [others]
      rfl
    · rw [List.map_cons, List.map_cons, names]

/-- A schema of types is sampled to a valid value, if its parts are. -/
theorem Typed.sampleForm_valid {schema : Schema} (typed : Typed schema)
    (plain : pointer? (.object schema) = none)
    (each : ∀ part, Part (.object schema) part → ∀ property c,
      Conforms root part (sample chance root path property part c))
    (property : Option String) (c : Counters) :
    Conforms root (.object schema)
      (sampleForm chance root path property c (form (.object schema))) := by
  obtain ⟨name, declared, known, chosen⟩ := typed.chosen
  simp only [form, typed.given?, chosen]
  rcases ofName?_cases known with ⟨rfl, type⟩ | ⟨rfl, type⟩ | ⟨rfl, type⟩ | ⟨leaf, rfl, type⟩
  · rw [type]
    exact ⟨.null, c, rfl, .scalar plain declared .null⟩
  · rw [type]
    dsimp only [typedForm]
    split
    · rename_i properties found
      obtain ⟨fields, after, sampled, names, values⟩ := sampleFields_valid
        (fun name part member => each part (.property found member) (some name)) c
      have own : declaredProperties schema = properties := by
        rw [declaredProperties, found]
        rfl
      refine ⟨.object fields, after, ?_, .object plain declared (own ▸ names) (own ▸ values)⟩
      rw [sampleForm, sampled]
      rfl
    · rename_i other
      have none : declaredProperties schema = [] := by
        unfold declaredProperties
        cases found : schema.lookup "properties" with
        | none => rfl
        | some node =>
          cases node with
          | object properties => exact absurd found (other properties)
          | null | bool | int | float | string | array => rfl
      refine ⟨.object [], c, rfl, .object plain declared ?_ ?_⟩ <;> rw [none]
      exact .nil
  · rw [type]
    dsimp only [typedForm]
    split
    · rename_i part found
      obtain ⟨value, after, sampled, valid⟩ := each part (.items found) property c
      refine ⟨.array [value], after, ?_, .array plain declared ?_⟩
      · rw [sampleForm, sampled]
        rfl
      · rw [found]
        exact .cons valid .nil
    · rename_i absent
      refine ⟨.array [], c, rfl, .array plain declared ?_⟩
      rw [absent]
      exact .nil
  · rw [type]
    exact ⟨_, _, rfl, .scalar plain declared (typed.leafValue_isScalar chance leaf c)⟩

/-- All schemas that a node leads to declare types alone. -/
def TypedThroughout (root node : Json) : Prop :=
  ∀ reached, Reaches root node reached → pointer? reached = none →
    ∃ schema, reached = .object schema ∧ Typed schema

theorem sample_valid_below (finite : Finite root node) (resolved : Resolved root node)
    (typed : TypedThroughout root node) (ancestors : Ancestors root path node)
    (property : Option String) (c : Counters) :
    Conforms root node (sample chance root path property node c) := by
  induction finite generalizing path property c with
  | intro node back ih =>
    have onward (next : Json) (leads : Leads root node next) (path : List String)
        (ancestors : Ancestors root path next) (property : Option String) (c : Counters) :
        Conforms root next (sample chance root path property next c) :=
      ih next leads (fun marker pointer reaches => resolved marker pointer (reaches.head leads))
        (fun reached reaches => typed reached (reaches.head leads)) ancestors property c
    have finite : Finite root node := Acc.intro node back
    cases marked : pointer? node with
    | some pointer =>
      obtain ⟨target, found⟩ := Option.isSome_iff_exists.mp (resolved node pointer .refl marked)
      have fresh := finite.not_visited ancestors marked found
      rw [sample_marker chance marked, if_neg fresh, found]
      obtain ⟨value, after, sampled, valid⟩ :=
        onward target (.marker marked found) _ (ancestors.hop marked found) property c
      exact ⟨value, after, sampled, .marker marked found valid⟩
    | none =>
      obtain ⟨schema, rfl, types⟩ := typed node .refl marked
      rw [sample_literal chance marked]
      refine types.sampleForm_valid marked (fun part inside => ?_) property c
      have leads : Leads root (.object schema) part := .part marked inside
      exact onward part leads path (ancestors.step leads)

/-- Samples are valid. Where no way through a schema goes on for ever, its markers all lead somewhere
and what they lead to are schemas of types alone, synthesis gives a value, and the value is valid for
the schema; so does the synthesis of a body that is read from it. -/
theorem samples_valid (finite : Finite root node) (resolved : Resolved root node)
    (typed : TypedThroughout root node) (chance : Chance) :
    (∀ property c, ∃ value after,
      sample chance root [] property node c = (.ok value, after) ∧ Valid root node value) ∧
    ∀ body, Operation.bodySchema root node = .ok body → ∀ c, ∃ value after,
      sampleBody chance root body c = (.ok value, after) ∧ Valid root node value := by
  have direct (property : Option String) (c : Counters) :
      Conforms root node (sample chance root [] property node c) :=
    sample_valid_below finite resolved typed .nil property c
  refine ⟨direct, fun body read c => ?_⟩
  have same := sampleRead_bodySchema chance root node c
  rw [read] at same
  change sampleBody chance root body c = _ at same
  rw [same]
  exact direct none { c with nextId := 1 }

theorem TypedThroughout.marker (marked : pointer? node = some pointer)
    (found : Pointer.lookup? root pointer = some target) (typed : TypedThroughout root target) :
    TypedThroughout root node := by
  intro reached reaches plain
  rcases Relation.ReflTransGen.cases_head reaches with rfl | ⟨next, leads, rest⟩
  · cases plain.symm.trans marked
  · cases leads with
    | marker same other =>
      cases same.symm.trans marked
      cases other.symm.trans found
      exact typed reached rest plain
    | part unmarked => cases unmarked.symm.trans marked

theorem TypedThroughout.schema {schema : Schema} (plain : pointer? (.object schema) = none)
    (typed : Typed schema) (parts : ∀ part, Part (.object schema) part → TypedThroughout root part) :
    TypedThroughout root (.object schema) := by
  intro reached reaches unmarked
  rcases Relation.ReflTransGen.cases_head reaches with rfl | ⟨next, leads, rest⟩
  · exact ⟨schema, rfl, typed⟩
  · cases leads with
    | marker marked => cases plain.symm.trans marked
    | part _ inside => exact parts next inside reached rest unmarked

theorem typed_of_name {schema : Schema} (unlisted : ∀ key ∈ ["example", "examples", "enum"],
    schema.lookup key = none) (declared : schema.lookup "type" = some (.string name))
    (known : name ∈ typeNames) : Typed schema :=
  ⟨unlisted, _, declared, .one known⟩

theorem typedThroughout_aliasMarker : TypedThroughout aliasRoot aliasMarker := by
  refine .marker rfl lookup_alias (.marker rfl lookup_number (.schema rfl ?_ ?_))
  · exact typed_of_name (by decide) rfl (by decide)
  · intro part inside
    cases inside <;> contradiction

theorem typedThroughout_listOf : TypedThroughout aliasRoot (listOf aliasMarker) := by
  refine .schema rfl (typed_of_name (by decide) rfl (by decide)) fun part inside => ?_
  cases inside with
  | items found =>
    cases found
    exact typedThroughout_aliasMarker
  | property found => contradiction

theorem typedThroughout_familySchema : TypedThroughout aliasRoot (familySchema aliasMarker) := by
  refine .schema rfl (typed_of_name (by decide) rfl (by decide)) fun part inside => ?_
  cases inside with
  | items found => contradiction
  | property found member =>
    cases found
    simp only [List.mem_cons, Prod.mk.injEq, List.not_mem_nil, or_false] at member
    rcases member with ⟨-, rfl⟩ | ⟨-, rfl⟩
    · exact typedThroughout_aliasMarker
    · exact typedThroughout_listOf

theorem family_valid :
    Finite aliasRoot (familySchema aliasMarker) ∧ Resolved aliasRoot (familySchema aliasMarker) ∧
      TypedThroughout aliasRoot (familySchema aliasMarker) ∧
      ∃ value after, sample ⟨2024, fun _ => 0⟩ aliasRoot [] none (familySchema aliasMarker) .start =
        (.ok value, after) ∧ Valid aliasRoot (familySchema aliasMarker) value := by
  have done := Option.isSome_of_eq_some unfolded?_familySchema
  have finite := finite_of_unfolded? done
  have resolved := resolved_of_unfolded? done
  have typed := typedThroughout_familySchema
  exact ⟨finite, resolved, typed,
    (samples_valid finite resolved typed ⟨2024, fun _ => 0⟩).1 none .start⟩

end
end LoadPlan.Sample
