import LoadPlan.Proofs.Compile.ReferenceErrors
import LoadPlan.Proofs.Document.Declaration
import LoadPlan.Proofs.Plan.Requests
import LoadPlan.Proofs.Xml.Built

/-! Samplers of a compiled test plan. The tree of its thread group has a sampler for each operation
that the document declares, in the document's order and with that operation's own body. -/
namespace LoadPlan

namespace Xml.Element

mutual
/-- The texts of all properties of a name in an element, in the order they are written. -/
def valuesOf (name : String) : Element → List String
  | .bare _ => []
  | .text tag content => if tag.attributes.lookup "name" = some name then [content] else []
  | .parent _ children => valuesOfAll name children

def valuesOfAll (name : String) : List Element → List String
  | [] => []
  | child :: rest => valuesOf name child ++ valuesOfAll name rest
end

end Xml.Element

namespace Plan
open Xml (Element)

section
variable (name property : String)

@[simp] theorem valuesOf_textProperty (value : String) :
    (textProperty property value).valuesOf name = if property = name then [value] else [] := by
  simp [textProperty, Element.valuesOf]

@[simp] theorem valuesOf_flag (value : Bool) :
    (flag property value).valuesOf name =
      if property = name then [if value then "true" else "false"] else [] := by
  simp [flag, Element.valuesOf]

@[simp] theorem valuesOf_collection (items : List Element) :
    (collection property items).valuesOf name = Element.valuesOfAll name items := by
  cases items with
  | nil => rfl
  | cons first rest => rw [collection, Element.withChildren_eq_parent]; rfl

@[simp] theorem valuesOf_record (type : String) (parts : List Element) :
    (record property type parts).valuesOf name = Element.valuesOfAll name parts := rfl

@[simp] theorem valuesOf_panelRecord (type panel title : String) (parts : List Element) :
    (panelRecord property type panel title parts).valuesOf name = Element.valuesOfAll name parts := rfl

@[simp] theorem valuesOf_component (type panel title : String) (parts : List Element) :
    (component type panel title parts).valuesOf name = Element.valuesOfAll name parts := rfl

end

@[simp] theorem name_component (type panel title : String) (parts : List Element) :
    (component type panel title parts).name = type := rfl

@[simp] theorem name_tree (children : List Element) : (tree children).name = "hashTree" :=
  congrArg Xml.Tag.name (Element.tag_withChildren _ children)

@[simp] theorem children_tree (children : List Element) : (tree children).children = children :=
  Element.children_withChildren _ children

@[simp] theorem valuesOfAll_nil : Element.valuesOfAll name [] = [] := rfl

@[simp] theorem valuesOfAll_cons (child : Element) (rest : List Element) :
    Element.valuesOfAll name (child :: rest) =
      child.valuesOf name ++ Element.valuesOfAll name rest := rfl

theorem sampler_method (basePath : String) (request : Request) :
    (sampler basePath request).valuesOf "HTTPSampler.method" = [request.operation.method.name] := by
  cases body : request.body <;> simp [sampler, bodyParts, body, bodyArguments, noArguments]

theorem sampler_path (basePath : String) (request : Request) :
    (sampler basePath request).valuesOf "HTTPSampler.path" =
      [basePath ++ Placeholder.toVariables request.operation.path] := by
  cases body : request.body <;>
    simp [sampler, bodyParts, body, bodyArguments, noArguments, requestPath]

theorem sampler_postBodyRaw (basePath : String) (request : Request) :
    (sampler basePath request).valuesOf "HTTPSampler.postBodyRaw" =
      request.body.toList.map fun _ => "true" := by
  cases body : request.body <;> simp [sampler, bodyParts, body, bodyArguments, noArguments]

theorem sampler_value (basePath : String) (request : Request) :
    (sampler basePath request).valuesOf "Argument.value" = request.body.toList := by
  cases body : request.body <;> simp [sampler, bodyParts, body, bodyArguments, noArguments]

/-- The element that follows the first one of a name, for what is under it. -/
def under? (name : String) : List Element → Option Element
  | part :: below :: rest => if part.name = name then some below else under? name rest
  | _ => none

/-- The tree under the thread group of a test plan. -/
def threadGroupTree? (plan : Element) : Option Element := do
  let top ← plan.children.head?
  let planTree ← under? "TestPlan" top.children
  under? "ThreadGroup" planTree.children

theorem threadGroupTree?_testPlan (s : Settings) (requests : List Request) :
    threadGroupTree? (testPlan s requests) =
      some (threadGroupTree (BaseUrl.parse s.baseUrl) requests) := by
  have top : (testPlan s requests).children.head? =
      some (tree [planComponent s, tree [threadGroup s, threadGroupTree (.parse s.baseUrl) requests]]) :=
    rfl
  simp [threadGroupTree?, top, under?, planComponent, threadGroup]

theorem children_threadGroupTree (url : BaseUrl) (requests : List Request) :
    (threadGroupTree url requests).children =
      [requestDefaults url, leafTree, headerManager, leafTree] ++
        (requests.map (sampler url.path)).flatMap (fun sampler => [sampler, leafTree]) ++
        [resultCollector "ViewResultsFullVisualizer" "View Results Tree", leafTree,
          resultCollector "SummaryReport" "Summary Report", leafTree] := by
  rw [threadGroupTree, children_tree, List.flatMap_append, List.flatMap_append]
  rfl

end Plan

namespace Declaration
open Sample (Chance Counters)

/-- Requests carry a body if their method does and a schema for it is declared. -/
def SendsBody (root : Json) (declared : Declaration) : Prop :=
  declared.methodName ∈ ["POST", "PUT", "PATCH"] ∧ declared.HasJsonSchema root

/-- The text of a sample of the declaration's own schema, with some numbers drawn before. -/
def IsBody (chance : Chance) (root : Json) (declared : Declaration) (text : String) : Prop :=
  ∃ schema before value after, Operation.requestBody root declared.mapping = .ok (some schema) ∧
    Sample.sampleBody chance root schema before = (.ok value, after) ∧ text = Json.bodyText value

/-- What the sampler of a declared operation shows and sends. -/
structure Samples (chance : Chance) (root : Json) (basePath : String) (declared : Declaration)
    (sampler : Xml.Element) : Prop where
  name : sampler.name = "HTTPSamplerProxy"
  title : sampler.attribute? "testname" = some declared.displayName
  method : sampler.valuesOf "HTTPSampler.method" = [declared.methodName]
  path : sampler.valuesOf "HTTPSampler.path" = [basePath ++ Placeholder.toVariables declared.path]
  bodied : declared.SendsBody root → sampler.valuesOf "HTTPSampler.postBodyRaw" = ["true"] ∧
    ∃ text, declared.IsBody chance root text ∧ sampler.valuesOf "Argument.value" = [text]
  bodiless : ¬ declared.SendsBody root →
    sampler.valuesOf "HTTPSampler.postBodyRaw" = [] ∧ sampler.valuesOf "Argument.value" = []

section
variable {chance : Chance} {root : Json} {declared : Declaration} {op : Operation}

theorem carriesBody_iff (method : Method) :
    method.carriesBody ↔ method.name ∈ ["POST", "PUT", "PATCH"] := by
  cases method <;> decide

theorem Describes.bodySchema_isSome (described : Describes root declared op) :
    (Request.bodySchema? op).isSome ↔ declared.SendsBody root := by
  rw [SendsBody, ← described.method, ← carriesBody_iff, ← requestBody_isSome described.body,
    Request.bodySchema?_isSome, Bool.and_eq_true]

/-- The request for an operation has a body if one is to be sent, and then its own. -/
theorem Describes.request_body (described : Describes root declared op) {c : Counters}
    (sent : (Request.ofOperation chance root op c).1 = .ok request) :
    request.operation = op ∧ (request.body.isSome ↔ declared.SendsBody root) ∧
      ∀ text ∈ request.body, declared.IsBody chance root text := by
  obtain ⟨same, carries⟩ := Request.ofOperation_ok sent
  refine ⟨same, carries.trans described.bodySchema_isSome, ?_⟩
  intro text given
  have asked : (Request.bodySchema? op).isSome := carries.mp (Option.isSome_of_mem given)
  obtain ⟨schema, found⟩ := Option.isSome_iff_exists.mp asked
  obtain ⟨value, sampled, written⟩ := Request.ofOperation_body found sent
  have own := Request.body_of_asked found
  exact ⟨schema, c, value, _, own ▸ described.body, Prod.ext sampled rfl,
    Option.mem_unique given written⟩

theorem Describes.samples (described : Describes root declared op) (basePath : String) {c : Counters}
    (sent : (Request.ofOperation chance root op c).1 = .ok request) :
    Samples chance root basePath declared (Plan.sampler basePath request) := by
  obtain ⟨rfl, sends, body⟩ := described.request_body sent
  refine ⟨rfl, ?_, ?_, ?_, ?_, ?_⟩
  · rw [← described.displayName]
    rfl
  · rw [Plan.sampler_method, described.method]
  · rw [Plan.sampler_path, described.path]
  · intro asked
    obtain ⟨text, given⟩ := Option.isSome_iff_exists.mp (sends.mpr asked)
    rw [Plan.sampler_postBodyRaw, Plan.sampler_value, given]
    exact ⟨rfl, text, body text given, rfl⟩
  · intro unasked
    have none : request.body = none := Option.not_isSome_iff_eq_none.mp (mt sends.mp unasked)
    rw [Plan.sampler_postBodyRaw, Plan.sampler_value, none]
    exact ⟨rfl, rfl⟩

theorem samples_all {declarations : List Declaration} {ops : List Operation} (basePath : String)
    {c : Counters} (described : List.Forall₂ (Describes root) declarations ops)
    (sent : (Request.ofOperations chance root ops c).1 = .ok requests) :
    List.Forall₂ (Samples chance root basePath) declarations
      (requests.map (Plan.sampler basePath)) := by
  induction described generalizing c requests with
  | nil => cases sent; exact .nil
  | cons first rest ih =>
    obtain ⟨request, next, later, here, others, rfl⟩ := Request.ofOperations_cons_ok sent
    exact .cons (first.samples basePath (congrArg Prod.fst here)) (ih others)

end

end Declaration

/-- The thread group of a compiled plan has shared parts, then a sampler for each operation that the
document declares, in its order, then collectors of results, each with a tree under it. -/
theorem compile_samplers (compiled : compile text hint s chance = .ok out) :
    ∃ d plan group, Document.read text hint = .ok d ∧ d.testPlan s chance = .ok plan ∧
      out = plan.document ∧
      (∀ entry ∈ d.paths, ∃ node, Reference.target d.root entry.2 = .ok node) ∧
      Plan.threadGroupTree? plan = some group ∧ group.name = "hashTree" ∧
      ∃ defaults headers samplers details summary,
        group.children = [defaults, .named "hashTree", headers, .named "hashTree"] ++
          samplers.flatMap (fun sampler => [sampler, .named "hashTree"]) ++
          [details, .named "hashTree", summary, .named "hashTree"] ∧
        defaults.name = "ConfigTestElement" ∧ headers.name = "HeaderManager" ∧
        details.name = "ResultCollector" ∧ summary.name = "ResultCollector" ∧
        List.Forall₂ (Declaration.Samples chance d.root
          (BaseUrl.parse (s.withDeclaredUrl d).baseUrl).path) d.declarations samplers := by
  obtain ⟨d, _, read, planned, rfl⟩ := compile_ok compiled
  obtain ⟨requests, requested, rfl⟩ := Result.map_ok planned
  obtain ⟨ops, extracted, sent⟩ := Result.bind_ok requested
  have sampled := Declaration.samples_all (BaseUrl.parse (s.withDeclaredUrl d).baseUrl).path
    (Document.operations_describes extracted) sent
  refine ⟨d, _, _, read, planned, rfl, Declaration.ofPaths_resolved extracted,
    Plan.threadGroupTree?_testPlan _ requests, Plan.name_tree _, ?_⟩
  exact ⟨_, _, _, _, _, Plan.children_threadGroupTree _ requests, rfl, rfl, rfl, rfl, sampled⟩

theorem samplers_listText :
    ∃ out, compile listText none .default ⟨2024, fun _ => 0⟩ = .ok out ∧
      ∃ plan group, out = plan.document ∧ Plan.threadGroupTree? plan = some group ∧
        group.children.length = 10 := by
  obtain ⟨out, compiled⟩ :=
    compile_exists_ok Settings.default_positive read_listText listDocument_sound
  obtain ⟨d, plan, group, read, -, written, -, under, -, _, _, samplers, _, _, children, -, -, -, -,
    each⟩ := compile_samplers compiled
  cases read_listText.symm.trans read
  refine ⟨out, compiled, plan, group, written, under, ?_⟩
  have declared : listDocument.declarations.length = 1 := by decide +kernel
  have one : samplers.length = 1 := each.length_eq.symm.trans declared
  simp [children, one]

end LoadPlan
