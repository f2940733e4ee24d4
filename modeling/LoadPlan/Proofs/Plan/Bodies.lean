import LoadPlan.Proofs.Json.Carried
import LoadPlan.Proofs.Plan.Independence
import LoadPlan.Proofs.Plan.Markup
import LoadPlan.Proofs.Plan.Samplers
import LoadPlan.Proofs.Sample.Sound

/-! The bodies that samplers send. A written test plan is read back to its samplers, in the order of
the operations, and the text that a sampler has for its body is read back to the sampled value. -/
namespace LoadPlan

namespace Plan
open Xml (Element carriedText)

section
variable (name property : String)

@[simp] theorem valuesOf_carried_textProperty (value : String) :
    (textProperty property value).carried.valuesOf name =
      if carriedText property = name then [carriedText value] else [] := by
  simp [textProperty, Element.carried, Element.valuesOf, Xml.Tag.carried, Xml.carriedPair]

@[simp] theorem valuesOf_carried_flag (value : Bool) :
    (flag property value).carried.valuesOf name =
      if carriedText property = name then [if value then "true" else "false"] else [] := by
  have kept : carriedText (if value then "true" else "false") = if value then "true" else "false" :=
    Xml.carriedText_allowed (by cases value <;> decide)
  simp [flag, Element.carried, Element.valuesOf, Xml.Tag.carried, Xml.carriedPair, kept]

@[simp] theorem valuesOf_carried_parent (tag : Xml.Tag) (children : List Element) :
    (Element.parent tag children).carried.valuesOf name =
      Element.valuesOfAll name (children.map Element.carried) := by
  simp [Element.carried, Element.valuesOf]

@[simp] theorem valuesOf_carried_collection (items : List Element) :
    (collection property items).carried.valuesOf name =
      Element.valuesOfAll name (items.map Element.carried) := by
  cases items with
  | nil => rfl
  | cons first rest =>
    rw [collection, Element.withChildren_eq_parent, valuesOf_carried_parent]
    rfl

end

theorem sampler_carried_value (basePath : String) (request : Request) :
    (sampler basePath request).carried.valuesOf "Argument.value" =
      request.body.toList.map carriedText := by
  cases body : request.body <;>
    simp (disch := decide) [sampler, component, bodyParts, body, bodyArguments, record, noArguments,
      panelRecord, Xml.carriedText_allowed]

/-- The samplers of a test plan, in its order. -/
def samplers? (plan : Element) : Option (List Element) :=
  (threadGroupTree? plan).map fun group => group.children.filter (·.name == "HTTPSamplerProxy")

theorem samplers?_testPlan (s : Settings) (requests : List Request) :
    samplers? (testPlan s requests) =
      some (requests.map (sampler (BaseUrl.parse s.baseUrl).path)) := by
  have each (requests : List Request) (path : String) :
      ((requests.map (sampler path)).flatMap fun sampler => [sampler, leafTree]).filter
        (·.name == "HTTPSamplerProxy") = requests.map (sampler path) := by
    induction requests with
    | nil => rfl
    | cons request rest ih =>
      rw [List.map_cons, List.flatMap_cons, List.filter_append, ih]
      rfl
  rw [samplers?, threadGroupTree?_testPlan, Option.map_some, children_threadGroupTree,
    List.filter_append, List.filter_append, each]
  simp [requestDefaults, headerManager, leafTree, resultCollector]

theorem under?_carried (name : String) (parts : List Element) :
    under? name (parts.map Element.carried) = (under? name parts).map Element.carried := by
  fun_induction under? name parts with
  | case1 part below rest named => simp [under?, named]
  | case2 part below rest other ih => simp [under?, other, ih]
  | case3 parts short =>
    rcases parts with _ | ⟨part, _ | ⟨below, rest⟩⟩
    · rfl
    · rfl
    · exact (short part below rest rfl).elim

theorem threadGroupTree?_carried (plan : Element) :
    threadGroupTree? plan.carried = (threadGroupTree? plan).map Element.carried := by
  simp only [threadGroupTree?, Element.children_carried, List.head?_map, under?_carried,
    Option.bind_eq_bind, Option.bind_map, Option.map_bind, Function.comp_def]

theorem samplers?_carried (plan : Element) :
    samplers? plan.carried = (samplers? plan).map (List.map Element.carried) := by
  simp [samplers?, threadGroupTree?_carried, List.filter_map, Function.comp_def]

end Plan

/-- The written plan has a sampler for each operation, and an operation that gets a body is sent what
markup keeps of the text of its sampled value. -/
theorem compile_bodies (compiled : compile text hint s chance = .ok out) :
    ∃ d ops plan samplers, Document.read text hint = .ok d ∧ d.operations = .ok ops ∧
      Xml.readDocument? out = some plan ∧ Plan.samplers? plan = some samplers ∧
      samplers.length = ops.length ∧
      ∀ before op after body, ops = before ++ op :: after → Request.bodySchema? op = some body →
        ∃ value sampler,
          (Sample.sampleBody chance d.root body
            (Request.ofOperations chance d.root before .start).2).1 = .ok value ∧
          samplers[before.length]? = some sampler ∧
          sampler.valuesOf "Argument.value" = [Xml.carriedText (Json.bodyText value)] := by
  obtain ⟨d, _, read, planned, rfl⟩ := compile_ok compiled
  obtain ⟨requests, requested, rfl⟩ := Result.map_ok planned
  obtain ⟨ops, extracted, sent⟩ := Result.bind_ok requested
  have written := (Plan.proper_testPlan (s.withDeclaredUrl d) requests).readDocument?_document
  have samplers : Plan.samplers? (Plan.testPlan (s.withDeclaredUrl d) requests).carried =
      some ((requests.map (Plan.sampler (BaseUrl.parse (s.withDeclaredUrl d).baseUrl).path)).map
        Xml.Element.carried) := by
    rw [Plan.samplers?_carried, Plan.samplers?_testPlan]
    rfl
  refine ⟨d, ops, _, _, read, extracted, written, samplers, ?_, ?_⟩
  · rw [List.length_map, List.length_map, Request.ofOperations_length sent]
  · rintro before op after body rfl asked
    obtain ⟨request, there, single⟩ := Request.ofOperations_at sent
    obtain ⟨value, sampled, carries⟩ := Request.ofOperation_body asked single
    refine ⟨value, (Plan.sampler (BaseUrl.parse (s.withDeclaredUrl d).baseUrl).path request).carried,
      sampled, ?_, ?_⟩
    · rw [List.getElem?_map, List.getElem?_map, there]
      rfl
    · rw [Plan.sampler_carried_value, carries]
      rfl

/-- A sampler sends the sampled value: what the plan holds for an operation's body, once entities are
undone, is read as JSON to the very value that synthesis gave for it, fields in their order, as long
as the noncharacters U+FFFE and U+FFFF are in none of its texts and keys. These two are left out when
markup is written, and then of the fields whose keys have become the same the first keeps its place
and the last its value. -/
theorem compile_bodies_read_back (compiled : compile text hint s chance = .ok out) :
    ∃ d ops plan samplers, Document.read text hint = .ok d ∧ d.operations = .ok ops ∧
      Xml.readDocument? out = some plan ∧ Plan.samplers? plan = some samplers ∧
      samplers.length = ops.length ∧
      ∀ before op after body, ops = before ++ op :: after → Request.bodySchema? op = some body →
        ∃ value sampler sent,
          (Sample.sampleBody chance d.root body
            (Request.ofOperations chance d.root before .start).2).1 = .ok value ∧
          samplers[before.length]? = some sampler ∧ sampler.valuesOf "Argument.value" = [sent] ∧
          (value.FloatFree → value.depth ≤ 127 →
            Json.read? sent = some value.carried.joined ∧
              (value.carried = value → Json.read? sent = some value)) := by
  obtain ⟨d, ops, plan, samplers, read, extracted, written, shown, length, each⟩ :=
    compile_bodies compiled
  refine ⟨d, ops, plan, samplers, read, extracted, written, shown, length, ?_⟩
  intro before op after body split asked
  obtain ⟨value, sampler, sampled, there, sends⟩ := each before op after body split asked
  refine ⟨value, sampler, _, sampled, there, sends, fun floatFree shallow => ?_⟩
  have whole := Document.read_sound read
  have member : op ∈ ops := split ▸ List.mem_append_right _ List.mem_cons_self
  have schema := Document.bodies_sound whole extracted member (Request.body_of_asked asked)
  exact Json.read?_carriedText (Sample.sample_sound whole schema none _ sampled) floatFree shallow

theorem list_reads_back :
    ∃ out, compile listText none .default ⟨2024, fun _ => 0⟩ = .ok out ∧
      ∃ plan sampler sent, Xml.readDocument? out = some plan ∧ Plan.samplers? plan = some [sampler] ∧
        sampler.valuesOf "Argument.value" = [sent] ∧ Json.read? sent = some (.array [.null]) := by
  obtain ⟨out, compiled⟩ :=
    compile_exists_ok Settings.default_positive read_listText listDocument_sound
  obtain ⟨d, ops, plan, samplers, read, extracted, written, shown, length, each⟩ :=
    compile_bodies_read_back compiled
  cases read_listText.symm.trans read
  cases Sample.operations_listDocument.symm.trans extracted
  obtain ⟨value, sampler, sent, sampled, there, sends, back⟩ :=
    each [] Sample.listOperation [] Sample.listBody rfl rfl
  obtain ⟨only, rfl⟩ := List.length_eq_one_iff.mp length
  cases there
  rw [Request.sampleBody_listBody] at sampled
  cases sampled
  have floatFree : Json.FloatFree (.array [.null]) :=
    .array (List.forall_mem_singleton.mpr .null)
  exact ⟨out, compiled, plan, sampler, sent, written, shown, sends, (back floatFree (by decide)).2 rfl⟩

/-- A note that has a noncharacter for its example. -/
def noteSchema : Json := .object [("example", .string "\ufffe")]

def noteDocument : Document where
  fields := [("swagger", .string "2.0"),
    ("paths", .object (Sample.putPaths "/notes" noteSchema))]
  paths := Sample.putPaths "/notes" noteSchema
  versioned := .inr rfl
  paths_eq := rfl

def noteText : String :=
  "\x7b\"swagger\":\"2.0\",\"paths\":\x7b\"/notes\":\x7b\"put\":\x7b\"parameters\":[" ++
  "\x7b\"in\":\"body\",\"schema\":\x7b\"example\":\"\ufffe\"\x7d\x7d]\x7d\x7d\x7d\x7d"

def noteOperation : Operation := ⟨"/notes", .put, none, none, [], some ⟨noteSchema, []⟩⟩

set_option maxRecDepth 2000 in
theorem read_noteText : Document.read noteText none = .ok noteDocument := by
  have parsed : Json.read? noteText = some noteDocument.root := by
    unfold Json.read?
    have characters : noteText.toList = _ :=
      String.toList_append.trans (congrArg₂ (· ++ ·) String.toList_ofList String.toList_ofList)
    rw [characters]
    with_unfolding_all rfl
  exact Document.read_of_json parsed

theorem operations_noteDocument : noteDocument.operations = .ok [noteOperation] := by
  refine Sample.operations_putPaths
    (show noteDocument.paths = Sample.putPaths "/notes" noteSchema from rfl) ?_
  rw [Operation.bodySchema, Reference.follow_plain rfl]
  rfl

theorem sampleBody_note (chance : Sample.Chance) (c : Sample.Counters) :
    (Sample.sampleBody chance noteDocument.root ⟨noteSchema, []⟩ c).1 = .ok (.string "\ufffe") := by
  rw [Sample.sampleBody, Sample.sample_literal chance rfl]
  rfl

/-- The sampler of the note sends an empty text, which is not its sample. -/
theorem noncharacter_left_out :
    ∃ out plan sampler sent, compile noteText none .default ⟨2024, fun _ => 0⟩ = .ok out ∧
      Document.read noteText none = .ok noteDocument ∧
      noteDocument.operations = .ok [noteOperation] ∧
      Request.bodySchema? noteOperation = some ⟨noteSchema, []⟩ ∧
      (Sample.sampleBody ⟨2024, fun _ => 0⟩ noteDocument.root ⟨noteSchema, []⟩ .start).1 =
        .ok (.string "\ufffe") ∧
      Json.FloatFree (.string "\ufffe") ∧ Json.depth (.string "\ufffe") ≤ 127 ∧
      Xml.readDocument? out = some plan ∧ Plan.samplers? plan = some [sampler] ∧
      sampler.valuesOf "Argument.value" = [sent] ∧
      Json.read? sent = some (.string "") ∧ Json.read? sent ≠ some (.string "\ufffe") := by
  have unreferenced : ∀ pointer, pointer ∉ Reference.pointers noteDocument.root := by decide
  obtain ⟨out, compiled⟩ : ∃ out, compile noteText none .default ⟨2024, fun _ => 0⟩ = .ok out :=
    compile_exists_ok Settings.default_positive read_noteText
      fun pointer member => absurd member (unreferenced pointer)
  obtain ⟨d, ops, plan, samplers, read, extracted, written, shown, length, each⟩ :=
    compile_bodies compiled
  cases read_noteText.symm.trans read
  cases operations_noteDocument.symm.trans extracted
  obtain ⟨value, sampler, sampled, there, sends⟩ := each [] noteOperation [] ⟨noteSchema, []⟩ rfl rfl
  obtain ⟨only, rfl⟩ := List.length_eq_one_iff.mp length
  cases there
  rw [sampleBody_note] at sampled
  cases sampled
  have kept : Json.carriedText "\ufffe" = "" := by decide
  have back : Json.read? (Xml.carriedText (Json.string "\ufffe").bodyText) = some (.string "") := by
    rw [(Json.read?_carriedText .string .string (Nat.zero_le _)).1, Json.carried, kept]
    rfl
  refine ⟨out, plan, sampler, _, compiled, read, extracted, rfl, sampleBody_note _ _, .string,
    Nat.zero_le _, written, shown, sends, back, fun other => ?_⟩
  have same : "" = "\ufffe" := Json.string.inj (Option.some.inj (back.symm.trans other))
  exact absurd same (by decide)

end LoadPlan
