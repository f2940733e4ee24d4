import LoadPlan.Proofs.Reference.Trail
import LoadPlan.Sample.Synthesis

/-! Synthesis as it goes from node to node: the chain of markers at a node is followed to its end,
and the literal node found there has parts that are sampled in turn. -/
namespace LoadPlan.Sample
open Reference (Resolution Trail follow chase pointers unvisited)

/-- What a node that is no marker asks for. -/
inductive Form where
  | fixed (value : Json)
  | leaf (schema : Schema) (type : LeafType)
  | items (node : Json)
  | fields (properties : List (String × Json))

/-- The form that a declared type gives to a schema without given values. -/
def typedForm (schema : Schema) : SchemaType → Form
  | .object =>
    match schema.lookup "properties" with
    | some (.object properties) => .fields properties
    | _ => .fixed (.object [])
  | .array =>
    match schema.lookup "items" with
    | some node => .items node
    | none => .fixed (.array [])
  | .leaf type => .leaf schema type

def form : Json → Form
  | .object schema =>
    match given? schema, type? schema with
    | some value, _ => .fixed value
    | none, some type => typedForm schema type
    | none, none => .fixed .null
  | _ => .fixed .null

/-- The nodes that are sampled for the parts of a value. -/
def Form.parts : Form → List Json
  | .fixed _ | .leaf _ _ => []
  | .items node => [node]
  | .fields properties => properties.map Prod.snd

/-- What follows on a value; an error ends it. -/
def Outcome.andThen (outcome : Outcome α) (next : α → Counters → Outcome β) : Outcome β :=
  match outcome with
  | (.error e, c) => (.error e, c)
  | (.ok value, c) => next value c

section
variable (chance : Chance) (root : Json) (path : List String) (property : Option String)

/-- A sample of a form below the pointers being expanded. -/
def sampleForm (c : Counters) : Form → Outcome Json
  | .fixed value => (.ok value, c)
  | .leaf schema type =>
    (.ok (leafValue chance schema property type c).1, (leafValue chance schema property type c).2)
  | .items node => (sample chance root path property node c).map fun value => .array [value]
  | .fields properties => (sampleFields chance root path properties c).map .object

/-- A sample of a node whose chain of markers ends in this way. -/
def sampleResolution (c : Counters) : Except ReferenceError Resolution → Outcome Json
  | .error e => (.error e, c)
  | .ok (.cycle _) => (.ok .null, c)
  | .ok (.literal literal via) => sampleForm chance root (path ++ via) property c (form literal)

variable {root path property}

theorem sample_literal {node : Json} (plain : Reference.pointer? node = none) (c : Counters) :
    sample chance root path property node c = sampleForm chance root path property c (form node) := by
  rw [sample]
  split
  · simp_all
  · cases node with
    | object schema =>
      dsimp only [form]
      cases given? schema with
      | some value => rfl
      | none =>
        cases type? schema with
        | none => rfl
        | some type =>
          cases type with
          | leaf type => rfl
          | object =>
            dsimp only [typedForm]
            split <;> rename_i found <;> simp only [found] <;> rfl
          | array =>
            dsimp only [typedForm]
            split <;> rename_i found <;> simp only [found] <;> rfl
    | null | bool | int | float | string | array => rfl

theorem sample_marker {node : Json} {pointer : String}
    (marker : Reference.pointer? node = some pointer) (c : Counters) :
    sample chance root path property node c =
      if path.contains pointer then (.ok .null, c)
      else match Pointer.lookup? root pointer with
        | none => (.error (.unresolvable pointer), c)
        | some next => sample chance root (path ++ [pointer]) property next c := by
  rw [sample]
  split
  · rename_i other found
    obtain rfl := Option.some.inj (found.symm.trans marker)
    split
    · rfl
    · split <;> rename_i target <;> simp only [target]
  · rename_i plain
    simp [plain] at marker

private theorem sample_chase (via : List String) (node : Json) (c : Counters) :
    sample chance root (path ++ via) property node c =
      sampleResolution chance root path property c (chase root path via node) := by
  fun_induction chase root path via node with
  | case1 via node plain => exact sample_literal chance plain c
  | case2 via node pointer marker visited => rw [sample_marker chance marker, if_pos visited]; rfl
  | case3 via node pointer marker fresh missing =>
    rw [sample_marker chance marker, if_neg fresh, missing]; rfl
  | case4 via node pointer marker fresh next found ih =>
    rw [sample_marker chance marker, if_neg fresh, found, ← ih, List.append_assoc]

/-- Markers are followed first, and what the chain ends in is sampled. -/
theorem sample_follow (node : Json) (c : Counters) :
    sample chance root path property node c =
      sampleResolution chance root path property c (follow root path node) := by
  simpa only [List.append_nil, follow] using sample_chase chance [] node c

/-- So it is for synthesis as a function of the counters. -/
theorem sample_followed (node : Json) :
    sample chance root path property node = fun c =>
      sampleResolution chance root path property c (follow root path node) :=
  funext (sample_follow chance node)

variable (root path) in
theorem sampleFields_cons (name : String) (node : Json) (rest : List (String × Json)) (c : Counters) :
    sampleFields chance root path ((name, node) :: rest) c =
      (sample chance root path (some name) node c).andThen fun value c =>
        (sampleFields chance root path rest c).map ((name, value) :: ·) := by
  rw [sampleFields]
  rcases sample chance root path (some name) node c with ⟨_ | value, d⟩ <;> rfl

end

theorem mem_typedForm_parts {schema : Schema} {type : SchemaType} {part : Json}
    (member : part ∈ (typedForm schema type).parts) :
    schema.lookup "items" = some part ∨
      ∃ properties name, schema.lookup "properties" = some (.object properties) ∧
        (name, part) ∈ properties := by
  cases type with
  | leaf => contradiction
  | array =>
    dsimp only [typedForm] at member
    split at member
    · rename_i found
      cases List.mem_singleton.mp member
      exact .inl found
    · contradiction
  | object =>
    dsimp only [typedForm] at member
    split at member
    · rename_i properties found
      obtain ⟨⟨name, _⟩, inside, rfl⟩ := List.mem_map.mp member
      exact .inr ⟨properties, name, found, inside⟩
    · contradiction

/-- Parts are the items or the values of the properties of a schema. -/
theorem mem_parts {node part : Json} (member : part ∈ (form node).parts) :
    node.get? "items" = some part ∨
      ∃ properties name, node.get? "properties" = some (.object properties) ∧
        (name, part) ∈ properties := by
  cases node with
  | object schema =>
    dsimp only [form] at member
    split at member
    · contradiction
    · exact mem_typedForm_parts member
    · contradiction
  | null | bool | int | float | string | array => contradiction

theorem pointers_part_subset {node part : Json} (member : part ∈ (form node).parts) :
    pointers part ⊆ pointers node := by
  rcases mem_parts member with found | ⟨properties, name, found, inside⟩
  · exact Reference.pointers_get?_subset found
  · refine List.Subset.trans ?_ (Reference.pointers_get?_subset found)
    exact List.Subset.trans (Reference.pointersOfFields_subset inside) (List.subset_append_right _ _)

/-- A call of synthesis: the pointers being expanded, and the node to sample. -/
abbrev Call := List String × Json

/-- Sampling one node calls for a sample of another, a part of the literal node that the first
leads to. -/
inductive Expands (root : Json) : Call → Call → Prop where
  | part : Trail root path node via literal → Reference.pointer? literal = none →
      part ∈ (form literal).parts → Expands root (path, node) (path ++ via, part)

end LoadPlan.Sample
