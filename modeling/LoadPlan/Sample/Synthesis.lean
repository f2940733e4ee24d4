import LoadPlan.Operation
import LoadPlan.Sample.Leaf

/-! Sample values of schemas. A schema is walked into its properties and items with the pointers
followed on the way; a reference marker whose pointer is among them becomes null. Each marker
followed leaves fewer pointers to visit, and each step into a part a smaller schema. -/
namespace LoadPlan.Sample

/-- What a schema's declared type asks for. -/
inductive SchemaType where
  | object
  | array
  | leaf (type : LeafType)
  deriving DecidableEq, Repr

def SchemaType.ofName? (name : String) : Option SchemaType :=
  match name with
  | "object" => some .object
  | "array" => some .array
  | "string" => some (.leaf .string)
  | "integer" => some (.leaf .integer)
  | "number" => some (.leaf .number)
  | "boolean" => some (.leaf .boolean)
  | _ => none

/-- The declared type; of a list of types, the first name other than "null". -/
def typeName? (schema : Schema) : Option String :=
  match schema.lookup "type" with
  | some (.string name) => some name
  | some (.array names) => (names.filterMap Json.string?).find? (· != "null")
  | _ => none

def type? (schema : Schema) : Option SchemaType := (typeName? schema).bind SchemaType.ofName?

/-- A value given by the schema itself: its example, or the first of its examples. -/
def given? (schema : Schema) : Option Json :=
  (schema.lookup "example").or ((schema.lookup "examples").bind Json.first?)

/-- The first of the values that the schema lists. -/
def listed? (schema : Schema) : Option Json := (schema.lookup "enum").bind Json.first?

def leafValue (chance : Chance) (schema : Schema) (property : Option String) (type : LeafType)
    (c : Counters) : Json × Counters :=
  match listed? schema with
  | some value => (value, c)
  | none => leaf chance schema property c type

/-- A value or an error, with the counters after it; numbers drawn before an error stay drawn. -/
abbrev Outcome (α : Type) := Except ReferenceError α × Counters

def Outcome.map (f : α → β) (outcome : Outcome α) : Outcome β := (outcome.1.map f, outcome.2)

private theorem pointers_field_subset {schema : Schema} {key : String} {value : Json}
    (h : schema.lookup key = some value) :
    Reference.pointers value ⊆ Reference.pointers (.object schema) :=
  Reference.pointers_get?_subset (show Json.get? (.object schema) key = some value from h)

private theorem sizeOf_lookup_lt {schema : Schema} {key : String} {value : Json}
    (h : schema.lookup key = some value) :
    sizeOf value < sizeOf schema := by
  have := List.sizeOf_lt_of_mem (Reference.mem_of_lookup h)
  simp only [Prod.mk.sizeOf_spec] at this
  omega

private theorem append_subset {xs ys : List String} (root : Json) (h : xs ⊆ ys) :
    Reference.pointers root ++ xs ⊆ Reference.pointers root ++ ys := fun _ hp =>
  (List.mem_append.1 hp).elim (fun h => List.mem_append_left _ h)
    fun hx => List.mem_append_right _ (h hx)

/-- The order that synthesis descends in: pointers to visit, then size. -/
private theorem descend {known known' path : List String} {size size' : Nat}
    (h : known' ⊆ known) (lt : size' < size) :
    Prod.Lex (· < ·) (· < ·) ((Reference.unvisited known' path).length, size')
      ((Reference.unvisited known path).length, size) := by
  have hle : (Reference.unvisited known' path).length ≤ (Reference.unvisited known path).length :=
    Reference.unvisited_length_le h
  rcases Nat.lt_or_eq_of_le hle with hlt | heq
  · exact .left _ _ hlt
  · rw [heq]
    exact .right _ lt

mutual
/-- A sample of a node under a property name; `path` are the pointers being expanded. -/
def sample (chance : Chance) (root : Json) (path : List String) (property : Option String)
    (node : Json) (c : Counters) : Outcome Json :=
  match _hp : Reference.pointer? node with
  | some pointer =>
    if _hv : path.contains pointer then (.ok .null, c)
    else match _ht : Pointer.lookup? root pointer with
      | none => (.error (.unresolvable pointer), c)
      | some target => sample chance root (path ++ [pointer]) property target c
  | none =>
    match node with
    | .object schema =>
      match given? schema with
      | some value => (.ok value, c)
      | none =>
        match type? schema with
        | some .object =>
          match _h : schema.lookup "properties" with
          | some (.object properties) =>
            (sampleFields chance root path properties c).map .object
          | _ => (.ok (.object []), c)
        | some .array =>
          match _h : schema.lookup "items" with
          | some items =>
            (sample chance root path property items c).map fun value => .array [value]
          | none => (.ok (.array []), c)
        | some (.leaf type) =>
          let (value, c) := leafValue chance schema property type c
          (.ok value, c)
        | none => (.ok .null, c)
    | _ => (.ok .null, c)
termination_by
  ((Reference.unvisited (Reference.pointers root ++ Reference.pointers node) path).length,
    sizeOf node)
decreasing_by
  · exact .left _ _ (Reference.unvisited_length_lt _hp (by simpa using _hv) _ht)
  · refine descend (append_subset root fun p hp => pointers_field_subset _h ?_) ?_
    · exact List.mem_append_right _ hp
    · have := sizeOf_lookup_lt _h
      simp only [Json.object.sizeOf_spec] at *
      omega
  · refine descend (append_subset root (pointers_field_subset _h)) ?_
    have := sizeOf_lookup_lt _h
    simp only [Json.object.sizeOf_spec]
    omega

/-- Samples of properties in the order declared. -/
def sampleFields (chance : Chance) (root : Json) (path : List String)
    (properties : List (String × Json)) (c : Counters) : Outcome (List (String × Json)) :=
  match properties with
  | [] => (.ok [], c)
  | (name, node) :: rest =>
    match sample chance root path (some name) node c with
    | (.error e, c) => (.error e, c)
    | (.ok value, c) => (sampleFields chance root path rest c).map ((name, value) :: ·)
termination_by
  ((Reference.unvisited
      (Reference.pointers root ++ Reference.pointersOfFields properties) path).length,
    sizeOf properties)
decreasing_by
  · refine descend (append_subset root (List.subset_append_left _ _)) ?_
    simp only [List.cons.sizeOf_spec, Prod.mk.sizeOf_spec]
    omega
  · refine descend (append_subset root (List.subset_append_right _ _)) ?_
    simp only [List.cons.sizeOf_spec]
    omega
end

/-- A sample of a request body, whose identifiers begin at one. -/
def sampleBody (chance : Chance) (root : Json) (body : BodySchema) (c : Counters) : Outcome Json :=
  sample chance root body.via none body.schema { c with nextId := 1 }

end LoadPlan.Sample
