import LoadPlan.Proofs.Compile.ReferenceErrors
import LoadPlan.Proofs.Plan.Requests
import LoadPlan.Proofs.Reference.Agreement

/-! What compilation reads of a document besides its paths: the nodes that its markers lead to.
Operations, samples and requests are the same with any root that has these nodes. -/
namespace LoadPlan
open Reference (Inside Agrees)

namespace Operation
variable {root root' declared : Json} (agrees : Agrees root root')
include agrees

theorem parameterSchema_alike {parameters : List Json}
    (within : ∀ parameter ∈ parameters, Inside root parameter) :
    parameterSchema root' parameters = parameterSchema root parameters := by
  induction parameters with
  | nil => rfl
  | cons first rest ih =>
    have later := ih fun parameter member => within parameter (List.mem_cons_of_mem _ member)
    rw [parameterSchema, parameterSchema, agrees.target (within first List.mem_cons_self), later]

theorem schemaNode_alike (within : Inside root declared) :
    schemaNode root' declared = schemaNode root declared := by
  unfold schemaNode
  cases found : declared.get? "requestBody" with
  | some request => simp only [agrees.target (Reference.inside_get? within found)]
  | none => exact parameterSchema_alike agrees (parameters_inside within)

theorem requestBody_alike (within : Inside root declared) :
    requestBody root' declared = requestBody root declared := by
  have inside := schemaNode_yields within
  rw [requestBody, requestBody, schemaNode_alike agrees within]
  generalize schemaNode root declared = found at inside
  rcases found with e | none | node
  · rfl
  · rfl
  · simp only [bodySchema, agrees.follow [] (inside node rfl)]

theorem ofField_alike (path key : String) (within : Inside root declared) :
    ofField root' path key declared = ofField root path key declared := by
  simp only [ofField, requestBody_alike agrees within]

theorem ofFields_alike (path : String) {fields : List (String × Json)}
    (within : ∀ key declared, (key, declared) ∈ fields → Inside root declared) :
    ofFields root' path fields = ofFields root path fields := by
  induction fields with
  | nil => rfl
  | cons field rest ih =>
    obtain ⟨key, declared⟩ := field
    have later := ih fun key declared member => within key declared (List.mem_cons_of_mem _ member)
    rw [ofFields, ofFields, ofField_alike agrees path key (within key declared List.mem_cons_self),
      later]

theorem ofPathItem_alike {item : Json} (path : String) (within : Inside root item) :
    ofPathItem root' path item = ofPathItem root path item := by
  have inside := Reference.target_yields within
  rw [ofPathItem, ofPathItem, agrees.target within]
  generalize Reference.target root item = resolved at inside
  cases resolved with
  | error e => rfl
  | ok item => exact ofFields_alike agrees path (itemFields_inside inside)

theorem ofPaths_alike {paths : List (String × Json)}
    (within : ∀ path item, (path, item) ∈ paths → Inside root item) :
    ofPaths root' paths = ofPaths root paths := by
  induction paths with
  | nil => rfl
  | cons entry rest ih =>
    obtain ⟨path, item⟩ := entry
    have later := ih fun path item member => within path item (List.mem_cons_of_mem _ member)
    rw [ofPaths, ofPaths, ofPathItem_alike agrees path (within path item List.mem_cons_self), later]

end Operation

namespace Sample
variable {chance : Chance} {root root' : Json}

theorem sampleFields_alike {path : List String} {properties : List (String × Json)}
    (each : ∀ name node, (name, node) ∈ properties → ∀ c,
      sample chance root' path (some name) node c = sample chance root path (some name) node c)
    (c : Counters) :
    sampleFields chance root' path properties c = sampleFields chance root path properties c := by
  induction properties generalizing c with
  | nil => rw [sampleFields, sampleFields]
  | cons entry rest ih =>
    obtain ⟨name, node⟩ := entry
    have later := ih fun name node member => each name node (List.mem_cons_of_mem _ member)
    rw [sampleFields, sampleFields, each name node List.mem_cons_self]
    simp only [later]

/-- Synthesis of a node of the document reads nothing else of it than what its markers lead to. -/
theorem sample_alike (agrees : Agrees root root') {node : Json} (within : Inside root node)
    (path : List String) (property : Option String) (c : Counters) :
    sample chance root' path property node c = sample chance root path property node c := by
  induction path, node using sample_induction root generalizing property c with
  | unresolvable path node e ends =>
    rw [sample_follow, sample_follow, agrees.follow path within, ends]
    rfl
  | cycle path node pointer ends =>
    rw [sample_follow, sample_follow, agrees.follow path within, ends]
    rfl
  | literal path node literal via ends parts =>
    have reached : Inside root literal := (Reference.follow_literal ends).1.inside within
    have parts : ∀ part ∈ (form literal).parts, ∀ property c,
        sample chance root' (path ++ via) property part c =
          sample chance root (path ++ via) property part c :=
      fun part member => parts part member (List.Subset.trans (pointers_part_subset member) reached)
    rw [sample_follow, sample_follow, agrees.follow path within, ends]
    simp only [sampleResolution]
    generalize form literal = asked at parts
    cases asked with
    | fixed => rfl
    | leaf => rfl
    | items node => simp only [sampleForm, parts node List.mem_cons_self]
    | fields properties =>
      have fields := sampleFields_alike
        (fun name node member c => parts node (List.mem_map_of_mem member) (some name) c) c
      simp only [sampleForm, fields]

end Sample

namespace Request
open Sample (Chance Counters)

theorem ofOperation_alike (chance : Chance) {root root' : Json} (agrees : Agrees root root')
    {op : Operation} (within : Operation.BodyInside root op.body) (c : Counters) :
    ofOperation chance root' op c = ofOperation chance root op c := by
  unfold ofOperation
  cases asked : bodySchema? op with
  | none => rfl
  | some body =>
    have inside := within body (body_of_asked asked)
    simp only [Sample.sampleBody, Sample.sample_alike agrees inside]

theorem ofOperations_alike (chance : Chance) {root root' : Json} (agrees : Agrees root root')
    {ops : List Operation} (within : ∀ op ∈ ops, Operation.BodyInside root op.body) (c : Counters) :
    ofOperations chance root' ops c = ofOperations chance root ops c := by
  induction ops generalizing c with
  | nil => rfl
  | cons op rest ih =>
    have later := ih fun op member => within op (List.mem_cons_of_mem _ member)
    rw [ofOperations, ofOperations, ofOperation_alike chance agrees (within op List.mem_cons_self)]
    simp only [later]

end Request

namespace Document

theorem requests_alike {d d' : Document} (agrees : Agrees d.root d'.root)
    (samePaths : d'.paths = d.paths) (chance : Sample.Chance) :
    d'.requests chance = d.requests chance := by
  have within := d.operations_yields
  have same : d'.operations = d.operations := by
    rw [operations, operations, samePaths]
    exact Operation.ofPaths_alike agrees d.paths_inside
  rw [requests, requests, same]
  cases extracted : d.operations with
  | error e => rfl
  | ok ops =>
    rw [extracted] at within
    exact congrArg Prod.fst (Request.ofOperations_alike chance agrees within .start)

end Document
end LoadPlan
