import LoadPlan.Proofs.Compile.ReferenceErrors
import LoadPlan.Proofs.Document.Declaration
import LoadPlan.Proofs.Reference.Reach

/-! Where synthesis breaks cycles. The calls that are made below a call are told one by one, with the
pointers being expanded and the counters they are given. All along, these pointers lead to the node
that is sampled, so a marker that becomes null stands where its own pointer leads. -/
namespace LoadPlan.Sample
open Reference (Trail Part Leads Reaches Ancestors follow pointer?)

theorem part_of_mem {node part : Json} (member : part ∈ (form node).parts) : Part node part := by
  rcases mem_parts member with found | ⟨properties, name, found, inside⟩
  · exact .items found
  · exact .property found inside

/-- What a call of synthesis is given. -/
structure Frame where
  path : List String
  property : Option String
  node : Json
  counters : Counters

/-- The call that a request body is sampled by. -/
def Frame.ofBody (body : BodySchema) (c : Counters) : Frame :=
  ⟨body.via, none, body.schema, { c with nextId := 1 }⟩

/-- A property is sampled once those before it are, with the counters that they leave. -/
inductive Calls (chance : Chance) (root : Json) : Frame → Frame → Prop where
  | items (ends : follow root path node = .ok (.literal literal via))
      (asked : form literal = .items part) :
      Calls chance root ⟨path, property, node, c⟩ ⟨path ++ via, property, part, c⟩
  | property (ends : follow root path node = .ok (.literal literal via))
      (asked : form literal = .fields (before ++ (name, part) :: after))
      (sampled : sampleFields chance root (path ++ via) before c = (.ok values, d)) :
      Calls chance root ⟨path, property, node, c⟩ ⟨path ++ via, some name, part, d⟩

namespace Calls
variable {chance : Chance} {root : Json} {frame called : Frame}

/-- A call is made for a part of the literal node that the node leads to. -/
theorem part (calls : Calls chance root frame called) :
    ∃ literal via, Trail root frame.path frame.node via literal ∧ pointer? literal = none ∧
      Part literal called.node ∧ called.path = frame.path ++ via := by
  cases calls with
  | items ends asked =>
    obtain ⟨trail, plain⟩ := Reference.follow_literal ends
    refine ⟨_, _, trail, plain, part_of_mem ?_, rfl⟩
    rw [asked]
    exact List.mem_cons_self
  | property ends asked =>
    obtain ⟨trail, plain⟩ := Reference.follow_literal ends
    refine ⟨_, _, trail, plain, part_of_mem ?_, rfl⟩
    rw [asked]
    exact List.mem_map_of_mem (List.mem_append_right _ List.mem_cons_self)

theorem reaches (calls : Calls chance root frame called) :
    Reaches root frame.node called.node := by
  obtain ⟨literal, via, trail, plain, inside, -⟩ := calls.part
  exact trail.reaches.tail (.part plain inside)

theorem ancestors (calls : Calls chance root frame called)
    (before : Ancestors root frame.path frame.node) :
    Ancestors root called.path called.node := by
  obtain ⟨literal, via, trail, plain, inside, path⟩ := calls.part
  rw [path]
  exact (trail.ancestors before).step (.part plain inside)

end Calls

/-- Samples of properties as they are answered, one after another until there is an error. -/
def replyEach (answer : String → Json → Counters → Outcome Json) :
    List (String × Json) → Counters → Outcome (List (String × Json))
  | [], c => (.ok [], c)
  | (name, part) :: rest, c =>
    (answer name part c).andThen fun value c => (replyEach answer rest c).map ((name, value) :: ·)

namespace Frame

/-- What a call of synthesis gives if the calls it makes are answered so. -/
def reply (chance : Chance) (root : Json) (answer : Frame → Outcome Json) (frame : Frame) :
    Outcome Json :=
  match follow root frame.path frame.node with
  | .error e => (.error e, frame.counters)
  | .ok (.cycle _) => (.ok .null, frame.counters)
  | .ok (.literal literal via) =>
    match form literal with
    | .fixed value => (.ok value, frame.counters)
    | .leaf schema type =>
      let (value, c) := leafValue chance schema frame.property type frame.counters
      (.ok value, c)
    | .items part =>
      (answer ⟨frame.path ++ via, frame.property, part, frame.counters⟩).map fun value =>
        .array [value]
    | .fields properties =>
      (replyEach (fun name part c => answer ⟨frame.path ++ via, some name, part, c⟩) properties
        frame.counters).map .object

def sample (chance : Chance) (root : Json) (frame : Frame) : Outcome Json :=
  Sample.sample chance root frame.path frame.property frame.node frame.counters

end Frame

theorem sampleFields_eq_replyEach {chance : Chance} {root : Json} {path : List String}
    {answer : String → Json → Counters → Outcome Json} {properties : List (String × Json)}
    {c : Counters}
    (each : ∀ before name part after values d, properties = before ++ (name, part) :: after →
      sampleFields chance root path before c = (.ok values, d) →
        answer name part d = sample chance root path (some name) part d) :
    sampleFields chance root path properties c = replyEach answer properties c := by
  induction properties generalizing c with
  | nil => rw [sampleFields, replyEach]
  | cons field rest ih =>
    obtain ⟨name, part⟩ := field
    have first := each [] name part rest [] c rfl (by rw [sampleFields])
    rw [sampleFields_cons, replyEach, first]
    rcases sampled : sample chance root path (some name) part c with ⟨e | value, d⟩
    · rfl
    · have later : sampleFields chance root path rest d = replyEach answer rest d := by
        refine ih fun before other node after values e split done => ?_
        refine each ((name, part) :: before) other node after ((name, value) :: values) e ?_ ?_
        · rw [split, List.cons_append]
        · rw [sampleFields_cons, sampled, Outcome.andThen, done]
          rfl
      simp only [Outcome.andThen, later]

/-- No calls are made but these: the answers to them are all that a call's own sample needs. -/
theorem Frame.sample_eq_reply {chance : Chance} {root : Json} {frame : Frame}
    {answer : Frame → Outcome Json}
    (answered : ∀ called, Calls chance root frame called →
      answer called = called.sample chance root) :
    frame.sample chance root = frame.reply chance root answer := by
  obtain ⟨path, property, node, c⟩ := frame
  rw [Frame.sample, sample_follow, Frame.reply]
  rcases ends : follow root path node with e | ⟨literal, via⟩ | pointer
  · rfl
  · simp only [sampleResolution]
    cases asked : form literal with
    | fixed value => rfl
    | leaf schema type => rfl
    | items part => exact congrArg (Outcome.map _) (answered _ (.items ends asked)).symm
    | fields properties =>
      refine congrArg (Outcome.map _) (sampleFields_eq_replyEach ?_)
      rintro before name part after values d rfl sampled
      exact answered _ (.property ends asked sampled)
  · rfl

section
variable {chance : Chance} {root : Json} {frame called : Frame}

theorem reaches_of_calls (calls : Relation.ReflTransGen (Calls chance root) frame called) :
    Reaches root frame.node called.node := by
  induction calls with
  | refl => exact .refl
  | tail _ last ih => exact ih.trans last.reaches

theorem ancestors_of_calls (calls : Relation.ReflTransGen (Calls chance root) frame called)
    (before : Ancestors root frame.path frame.node) :
    Ancestors root called.path called.node := by
  induction calls with
  | refl => exact before
  | tail _ last ih => exact last.ancestors ih

end

end LoadPlan.Sample

namespace LoadPlan
open Reference (Ancestors)

/-- The pointers of a body's schema lead to it, but for a chain without end, which has no schema. -/
theorem Operation.bodySchema_ancestors {found : BodySchema}
    (read : bodySchema root node = .ok found) :
    Ancestors root found.via found.schema ∨ found.schema = .null := by
  obtain ⟨resolution, ends, rfl⟩ := Result.map_ok read
  cases resolution with
  | literal schema via =>
    obtain ⟨trail, -⟩ := Reference.follow_literal ends
    exact .inl (trail.ancestors .nil)
  | cycle pointer => exact .inr rfl

/-- The schema of an operation's body is read from a node by following its markers. -/
theorem Document.body_read {d : Document} {ops : List Operation} {schema : BodySchema}
    (extracted : d.operations = .ok ops) (member : op ∈ ops) (bodied : op.body = some schema) :
    ∃ node, Operation.bodySchema d.root node = .ok schema := by
  obtain ⟨declared, -, described⟩ := Document.operation_described extracted member
  have requested := described.body
  unfold Operation.requestBody at requested
  split at requested
  · contradiction
  · rw [← Except.ok.inj requested] at bodied
    contradiction
  · obtain ⟨found, read, chosen⟩ := Result.map_ok requested
    cases Option.some.inj (chosen.trans bodied)
    exact ⟨_, read⟩

theorem Document.body_ancestors {d : Document} {ops : List Operation} {schema : BodySchema}
    (extracted : d.operations = .ok ops) (member : op ∈ ops) (bodied : op.body = some schema) :
    Ancestors d.root schema.via schema.schema ∨ schema.schema = .null := by
  obtain ⟨node, read⟩ := Document.body_read extracted member bodied
  exact Operation.bodySchema_ancestors read

end LoadPlan

namespace LoadPlan.Sample
open Reference (Reaches follow pointer?)

theorem Calls.node_ne_null (calls : Calls chance root frame called) : frame.node ≠ .null := by
  rintro null
  cases calls with
  | items ends asked | property ends asked =>
    cases null
    rw [Reference.follow_plain rfl] at ends
    cases ends
    contradiction

/-- Cycles are broken only where there are some. The synthesis of a request body makes these calls and
no others, and if in any of them a chain of markers is given up at a pointer, then from the node that
this pointer names a way through markers, items and properties leads back to a marker that has it. -/
theorem broken_pointer_leads_back {d : Document} {ops : List Operation} {op : Operation}
    {schema : BodySchema} (chance : Chance) (c : Counters) (extracted : d.operations = .ok ops)
    (member : op ∈ ops) (bodied : op.body = some schema) :
    sampleBody chance d.root schema c = (Frame.ofBody schema c).sample chance d.root ∧
      ∀ frame, Relation.ReflTransGen (Calls chance d.root) (.ofBody schema c) frame →
        (∀ answer, (∀ called, Calls chance d.root frame called →
            answer called = called.sample chance d.root) →
          frame.sample chance d.root = frame.reply chance d.root answer) ∧
        ∀ pointer, follow d.root frame.path frame.node = .ok (.cycle pointer) →
          ∃ target marker, Pointer.lookup? d.root pointer = some target ∧
            Reaches d.root target marker ∧ pointer? marker = some pointer := by
  refine ⟨rfl, fun frame calls => ⟨fun answer => Frame.sample_eq_reply, fun pointer broken => ?_⟩⟩
  rcases Document.body_ancestors extracted member bodied with before | null
  · have ancestors := ancestors_of_calls calls before
    obtain ⟨target, marker, found, reaches, marked, -⟩ := ancestors.follow_cycle broken
    exact ⟨target, marker, found, reaches, marked⟩
  · rcases Relation.ReflTransGen.cases_head calls with rfl | ⟨_, first, -⟩
    · rw [Frame.ofBody, null, Reference.follow_plain rfl] at broken
      cases broken
    · exact absurd null first.node_ne_null

def listMarker : Json := .object [("$ref", .string "#/list")]

def listBody : BodySchema := ⟨listSchema, ["#/list"]⟩

def listOperation : Operation := ⟨"/lists", .put, none, none, [], some listBody⟩

theorem follow_listMarker :
    follow listDocument.root [] listMarker = .ok (.literal listSchema ["#/list"]) :=
  Reference.follow_hop rfl List.not_mem_nil lookup_list rfl

/-- The path of an operation with a schema for its body. -/
def putPaths (path : String) (schema : Json) : List (String × Json) :=
  [(path, .object [("put", .object [("parameters", .array [.object
    [("in", .string "body"), ("schema", schema)]])])])]

theorem operations_putPaths {d : Document} {schema : Json} {body : BodySchema}
    (declared : d.paths = putPaths path schema)
    (read : Operation.bodySchema d.root schema = .ok body) :
    d.operations = .ok [⟨path, .put, none, none, [], some body⟩] := by
  let put : Json := .object
    [("parameters", .array [.object [("in", .string "body"), ("schema", schema)]])]
  have node : Operation.schemaNode d.root put = .ok (some schema) := by
    change Operation.parameterSchema _ [_] = _
    rw [Operation.parameterSchema, Reference.target_plain rfl]
    rfl
  have requested : Operation.requestBody d.root put = .ok (some body) := by
    rw [Operation.requestBody, node]
    change (Operation.bodySchema _ _).map some = _
    rw [read]
    rfl
  have field : Operation.ofField d.root path "put" put =
      .ok (some ⟨path, .put, none, none, [], some body⟩) := by
    change (Operation.requestBody _ _).map _ = _
    rw [requested]
    rfl
  have item : Operation.ofPathItem d.root path (.object [("put", put)]) =
      .ok [⟨path, .put, none, none, [], some body⟩] := by
    rw [Operation.ofPathItem, Reference.target_plain rfl]
    change Operation.ofFields d.root path [("put", put)] = _
    rw [Operation.ofFields, field]
    rfl
  rw [Document.operations, declared]
  change Operation.ofPaths d.root [(path, .object [("put", put)])] = _
  rw [Operation.ofPaths, item]
  rfl

theorem operations_listDocument : listDocument.operations = .ok [listOperation] := by
  refine operations_putPaths (show listDocument.paths = putPaths "/lists" listMarker from rfl) ?_
  rw [Operation.bodySchema, follow_listMarker]
  rfl

/-- The items of the list are the list again, and their marker is where its pointer leads. -/
theorem list_leads_back :
    listDocument.operations = .ok [listOperation] ∧
      Relation.ReflTransGen (Calls ⟨2024, fun _ => 0⟩ listDocument.root) (.ofBody listBody .start)
        ⟨["#/list"], none, listMarker, .start⟩ ∧
      follow listDocument.root ["#/list"] listMarker = .ok (.cycle "#/list") ∧
      ∃ target marker, Pointer.lookup? listDocument.root "#/list" = some target ∧
        Reaches listDocument.root target marker ∧ pointer? marker = some "#/list" := by
  have calls : Relation.ReflTransGen (Calls ⟨2024, fun _ => 0⟩ listDocument.root)
      (.ofBody listBody .start) ⟨["#/list"], none, listMarker, .start⟩ :=
    .single (.items (Reference.follow_plain rfl) rfl)
  have broken : follow listDocument.root ["#/list"] listMarker = .ok (.cycle "#/list") :=
    Reference.follow_seen rfl List.mem_cons_self
  obtain ⟨-, each⟩ := broken_pointer_leads_back ⟨2024, fun _ => 0⟩ .start operations_listDocument
    List.mem_cons_self rfl
  exact ⟨operations_listDocument, calls, broken, (each _ calls).2 _ broken⟩

end LoadPlan.Sample
