import LoadPlan.Proofs.Sample.Cycle

/-! Bodies sampled in two steps. Extraction follows the markers at a body's schema to a literal node
and keeps the pointers that led to it; synthesis goes on at that node, below these pointers. Together
they give the sample of the schema where it stands in the document. -/
namespace LoadPlan
open Reference (follow)

namespace Operation

/-- The schema of the first body parameter that gives one; those before it lead somewhere. -/
inductive ParameterSchema (root : Json) : List Json → Json → Prop where
  | here (leads : Reference.target root parameter = .ok node) (carries : inBody node)
      (found : node.get? "schema" = some schema) : ParameterSchema root (parameter :: rest) schema
  | later (leads : Reference.target root parameter = .ok node)
      (silent : inBody node → node.get? "schema" = none)
      (others : ParameterSchema root rest schema) : ParameterSchema root (parameter :: rest) schema

/-- Where the schema of an operation's body stands: under the JSON content of its request body, or
under a parameter if it has none. -/
inductive SchemaAt (root declared schema : Json) : Prop where
  | content (has : declared.get? "requestBody" = some request)
      (leads : Reference.target root request = .ok node)
      (content : node.get? "content" = some media) (json : media.get? "application/json" = some entry)
      (found : entry.get? "schema" = some schema)
  | parameter (lacks : declared.get? "requestBody" = none)
      (listed : declared.get? "parameters" = some (.array parameters))
      (found : ParameterSchema root parameters schema)

section
variable {root declared schema : Json}

theorem parameterSchema_eq_some {parameters : List Json} :
    parameterSchema root parameters = .ok (some schema) ↔ ParameterSchema root parameters schema := by
  constructor
  · intro read
    induction parameters with
    | nil => cases read
    | cons first rest ih =>
      rw [parameterSchema] at read
      cases resolved : Reference.target root first with
      | error e => simp [resolved] at read
      | ok node =>
        simp only [resolved] at read
        split at read
        · rename_i found chosen
          cases read
          split at chosen
          · rename_i carries
            exact .here resolved carries chosen
          · cases chosen
        · rename_i none
          refine .later resolved (fun carries => ?_) (ih read)
          rwa [if_pos carries] at none
  · intro stands
    induction stands with
    | here leads carries found => simp [parameterSchema, leads, carries, found]
    | @later parameter node rest schema leads silent _ ih =>
      have none : (if inBody node then node.get? "schema" else none) = none := by
        split
        · rename_i carries
          exact silent carries
        · rfl
      simp only [parameterSchema, leads, none, ih]

theorem contentSchema?_eq_some {node : Json} :
    contentSchema? node = some schema ↔ ∃ media entry, node.get? "content" = some media ∧
      media.get? jsonMedia = some entry ∧ entry.get? "schema" = some schema := by
  simp only [contentSchema?, Option.bind_eq_some_iff]
  constructor
  · rintro ⟨entry, ⟨media, content, json⟩, found⟩
    exact ⟨media, entry, content, json, found⟩
  · rintro ⟨media, entry, content, json, found⟩
    exact ⟨entry, ⟨media, content, json⟩, found⟩

/-- The schema node that extraction goes on from is the one that stands there. -/
theorem schemaNode_eq_some :
    schemaNode root declared = .ok (some schema) ↔ SchemaAt root declared schema := by
  unfold schemaNode
  constructor
  · intro read
    split at read
    · rename_i request has
      obtain ⟨node, leads, found⟩ := Result.map_ok read
      obtain ⟨media, entry, content, json, found⟩ := contentSchema?_eq_some.mp found
      exact .content has leads content json found
    · rename_i lacks
      have stands := parameterSchema_eq_some.mp read
      cases listed : declared.get? "parameters" with
      | none =>
        rw [listed] at stands
        cases stands
      | some parameters =>
        rw [listed, Option.bind_some] at stands
        cases parameters with
        | array parameters => exact .parameter lacks listed stands
        | null | bool | int | float | string | object => cases stands
  · intro stands
    cases stands with
    | content has leads content json found =>
      rw [has]
      simp only [leads, Except.map]
      rw [contentSchema?_eq_some.mpr ⟨_, _, content, json, found⟩]
    | parameter lacks listed found =>
      rw [lacks, listed]
      exact parameterSchema_eq_some.mpr found

end
end Operation

namespace Sample
variable {root declared schema : Json}

/-- A body sampled after its schema was read; where that failed there is nothing to sample. -/
def sampleRead (chance : Chance) (root : Json) (c : Counters) :
    Except ReferenceError BodySchema → Outcome Json
  | .error e => (.error e, { c with nextId := 1 })
  | .ok body => sampleBody chance root body c

theorem sampleRead_bodySchema (chance : Chance) (root schema : Json) (c : Counters) :
    sampleRead chance root c (Operation.bodySchema root schema) =
      sample chance root [] none schema { c with nextId := 1 } := by
  rw [sample_follow, Operation.bodySchema]
  rcases ends : follow root [] schema with e | ⟨literal, via⟩ | pointer
  · rfl
  · obtain ⟨-, plain⟩ := Reference.follow_literal ends
    exact sample_literal chance plain _
  · -- A chain without end is kept as a null schema, which has the sample of a broken cycle.
    exact sample_literal chance rfl _

/-- Reading a body's schema and sampling what was read ends as sampling the schema where it stands
does: in the same error, or in the same value with the same numbers used up. -/
theorem sampleBody_requestBody (chance : Chance) (stands : Operation.SchemaAt root declared schema)
    (c : Counters) :
    (∃ e, Operation.requestBody root declared = .error e ∧
      sample chance root [] none schema { c with nextId := 1 } = (.error e, { c with nextId := 1 })) ∨
    ∃ body, Operation.requestBody root declared = .ok (some body) ∧
      sampleBody chance root body c = sample chance root [] none schema { c with nextId := 1 } := by
  have direct := sampleRead_bodySchema chance root schema c
  simp only [Operation.requestBody, Operation.schemaNode_eq_some.mpr stands]
  cases read : Operation.bodySchema root schema with
  | error e =>
    rw [read] at direct
    exact .inl ⟨e, rfl, direct.symm⟩
  | ok body =>
    rw [read] at direct
    exact .inr ⟨body, rfl, direct⟩

/-- The declaration of an operation whose body is a parameter of this schema. -/
def bodyParameter (schema : Json) : Json :=
  .object [("parameters", .array [.object [("in", .string "body"), ("schema", schema)]])]

theorem schemaAt_bodyParameter (root schema : Json) :
    Operation.SchemaAt root (bodyParameter schema) schema :=
  .parameter rfl rfl (.here (Reference.target_plain rfl) rfl rfl)

/-- The list's own pointer is in its items again, below the marker that the body began with. -/
theorem sampleBody_listMarker :
    Operation.SchemaAt listDocument.root (bodyParameter listMarker) listMarker ∧
      ∃ body, Operation.requestBody listDocument.root (bodyParameter listMarker) = .ok (some body) ∧
        sampleBody ⟨2024, fun _ => 0⟩ listDocument.root body .start =
          sample ⟨2024, fun _ => 0⟩ listDocument.root [] none listMarker .start := by
  have stands := schemaAt_bodyParameter listDocument.root listMarker
  refine ⟨stands, ?_⟩
  rcases sampleBody_requestBody ⟨2024, fun _ => 0⟩ stands .start with ⟨e, failed, -⟩ | same
  · simp only [Operation.requestBody, Operation.schemaNode_eq_some.mpr stands, Operation.bodySchema,
      follow_listMarker] at failed
    cases failed
  · exact same

end Sample
end LoadPlan
