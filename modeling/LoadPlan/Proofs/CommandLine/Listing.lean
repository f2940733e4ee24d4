import LoadPlan.CommandLine.Outcome
import LoadPlan.Proofs.Plan.Bodies

/-! What a listing shows, beside the plan that is compiled from the same text. Both are made of the
operations of one document: the listing has an entry for each, and the plan a sampler for each. -/
namespace LoadPlan

namespace Listing

/-- What is listed of an operation. -/
structure Entry where
  method : String
  path : String
  name : String
  tags : List String
  bodied : Bool
  deriving DecidableEq, Repr

namespace Entry

/-- The entry of an operation. -/
def ofOperation (op : Operation) : Entry where
  method := op.method.name
  path := op.path
  name := op.displayName
  tags := op.tags
  bodied := op.method.carriesBody && op.body.isSome

/-- The lines of an entry under its number. Tags are listed if there are any, and a body if one is
sent. -/
def lines (entry : Entry) (number : Nat) : List String :=
  ["  " ++ toString number ++ ". " ++ entry.method ++ " " ++ entry.path,
    "     Name: " ++ entry.name] ++
  (if entry.tags.isEmpty then [] else ["     Tags: " ++ String.intercalate ", " entry.tags]) ++
  (if entry.bodied then ["     Body: synthesized JSON"] else [])

end Entry

/-- The lines of entries, which are counted, and numbered from one. -/
def report (entries : List Entry) : List String :=
  if entries.isEmpty then ["No operations found"]
  else ("Operations (" ++ toString entries.length ++ "):") ::
    (entries.zipIdx 1).flatMap fun (entry, number) => entry.lines number

def unlines (lines : List String) : String := String.join (lines.map line)

def heading (spec : String) : String := "Loading spec file...\n  Path: " ++ spec ++ "\n"

/-- What is told of a document before its operations. -/
def summary (d : Document) : String :=
  line "" ++ line "✓ Spec loaded successfully" ++ versionLine d ++ serverLine d ++ line ""

@[simp] theorem unlines_nil : unlines [] = "" := String.join_nil

@[simp] theorem unlines_cons (first : String) (rest : List String) :
    unlines (first :: rest) = line first ++ unlines rest := String.join_cons

@[simp] theorem unlines_append (before after : List String) :
    unlines (before ++ after) = unlines before ++ unlines after := by
  rw [unlines, List.map_append, String.join_append]
  rfl

theorem tagsLine_eq (tags : List String) :
    tagsLine tags =
      unlines (if tags.isEmpty then [] else ["     Tags: " ++ String.intercalate ", " tags]) := by
  cases tags <;> simp [tagsLine]

theorem bodyLine_eq (op : Operation) :
    bodyLine op =
      unlines (if op.method.carriesBody && op.body.isSome then ["     Body: synthesized JSON"]
        else []) := by
  rw [bodyLine]
  split <;> simp

theorem operationLines_eq (op : Operation) (index : Nat) :
    operationLines op index = unlines ((Entry.ofOperation op).lines (index + 1)) := by
  rw [operationLines, tagsLine_eq, bodyLine_eq, Entry.lines, unlines_append, unlines_append]
  simp [Entry.ofOperation, String.append_assoc]

/-- An index counts from zero, and the number that is printed from one. -/
theorem operationLines_all (ops : List Operation) (index : Nat) :
    String.join ((ops.zipIdx index).map fun (op, index) => operationLines op index) =
      unlines (((ops.map Entry.ofOperation).zipIdx (index + 1)).flatMap
        fun (entry, number) => entry.lines number) := by
  induction ops generalizing index with
  | nil => rfl
  | cons op rest ih =>
    rw [List.zipIdx_cons, List.map_cons, String.join_cons, List.map_cons, List.zipIdx_cons,
      List.flatMap_cons, unlines_append, ih (index + 1)]
    exact congrArg (· ++ _) (operationLines_eq op index)

theorem operationsText_eq (ops : List Operation) :
    operationsText ops = unlines (report (ops.map Entry.ofOperation)) := by
  rw [operationsText, report, List.isEmpty_map, List.length_map]
  split
  · simp
  · rw [unlines_cons, operationLines_all]

theorem text_eq (d : Document) (ops : List Operation) :
    text d ops = summary d ++ unlines (report (ops.map Entry.ofOperation)) := by
  rw [text, summary, operationsText_eq]

/-- An entry shows a sampler: its method and name are the sampler's, its path is the sampler's own
without the base URL's and with placeholders where the sampler has variables, and a body is listed
exactly if the sampler sends one. -/
structure Entry.Shows (basePath : String) (entry : Entry) (sampler : Xml.Element) : Prop where
  element : sampler.name = "HTTPSamplerProxy"
  name : sampler.attribute? "testname" = some entry.name
  method : sampler.valuesOf "HTTPSampler.method" = [entry.method]
  path : sampler.valuesOf "HTTPSampler.path" = [basePath ++ Placeholder.toVariables entry.path]
  body : entry.bodied ↔ sampler.valuesOf "HTTPSampler.postBodyRaw" = ["true"] ∧
    ∃ text, sampler.valuesOf "Argument.value" = [text]
  bodiless : ¬ entry.bodied → sampler.valuesOf "HTTPSampler.postBodyRaw" = [] ∧
    sampler.valuesOf "Argument.value" = []

section
open Sample (Chance Counters)
variable {chance : Chance} {root : Json}

theorem Entry.ofOperation_shows (basePath : String) {op : Operation} {c : Counters}
    (sent : (Request.ofOperation chance root op c).1 = .ok request) :
    Shows basePath (ofOperation op) (Plan.sampler basePath request) := by
  obtain ⟨rfl, carries⟩ := Request.ofOperation_ok sent
  rw [Request.bodySchema?_isSome] at carries
  refine ⟨rfl, rfl, Plan.sampler_method _ _, Plan.sampler_path _ _, ?_, ?_⟩
  · rw [Plan.sampler_postBodyRaw, Plan.sampler_value]
    refine carries.symm.trans ?_
    cases request.body <;> simp
  · intro unlisted
    have none : request.body = none := Option.not_isSome_iff_eq_none.mp (mt carries.mp unlisted)
    rw [Plan.sampler_postBodyRaw, Plan.sampler_value, none]
    exact ⟨rfl, rfl⟩

theorem shows_all (basePath : String) {ops : List Operation} {c : Counters}
    (sent : (Request.ofOperations chance root ops c).1 = .ok requests) :
    List.Forall₂ (Entry.Shows basePath) (ops.map Entry.ofOperation)
      (requests.map (Plan.sampler basePath)) := by
  rw [List.forall₂_map_left_iff, List.forall₂_map_right_iff]
  refine (Request.ofOperations_each sent).imp ?_
  rintro op request ⟨c, planned⟩
  exact Entry.ofOperation_shows basePath planned

end
end Listing

namespace Outcome

theorem loaded_ok {files : Files} (found : files.read spec = .ok text)
    (read : Document.read text (Encoding.ofPath? spec) = .ok d) (extracted : d.operations = .ok ops) :
    loaded files spec = .ok (d, ops) := by
  simp only [loaded, found, read, extracted, Except.mapError, bind, Except.bind]

/-- A document whose operations can be told is listed. -/
theorem listing_ok {files : Files} (found : files.read spec = .ok text)
    (read : Document.read text (Encoding.ofPath? spec) = .ok d) (extracted : d.operations = .ok ops) :
    listing files spec =
      ⟨0, Listing.heading spec ++ (Listing.summary d ++
        Listing.unlines (Listing.report (ops.map Listing.Entry.ofOperation))), "", none⟩ := by
  rw [← Listing.text_eq]
  unfold listing
  rw [loaded_ok found read extracted]
  rfl

/-- A text that compiles is also listed, if its file's name hints at the encoding that it was compiled
with. The listing has as many entries as the plan has samplers, and each shows the sampler in its
place. -/
theorem listing_shows_samplers {files : Files} (found : files.read spec = .ok text)
    (hinted : Encoding.ofPath? spec = hint) (compiled : compile text hint s chance = .ok out) :
    ∃ d ops plan samplers, Document.read text hint = .ok d ∧ d.operations = .ok ops ∧
      d.testPlan s chance = .ok plan ∧ out = plan.document ∧
      Plan.samplers? plan = some samplers ∧
      listing files spec =
        ⟨0, Listing.heading spec ++ (Listing.summary d ++
          Listing.unlines (Listing.report (ops.map Listing.Entry.ofOperation))), "", none⟩ ∧
      ops.length = samplers.length ∧
      List.Forall₂ (Listing.Entry.Shows (BaseUrl.parse (s.withDeclaredUrl d).baseUrl).path)
        (ops.map Listing.Entry.ofOperation) samplers := by
  subst hinted
  obtain ⟨d, _, read, planned, rfl⟩ := compile_ok compiled
  obtain ⟨requests, requested, rfl⟩ := Result.map_ok planned
  obtain ⟨ops, extracted, sent⟩ := Result.bind_ok requested
  have shown := Listing.shows_all (BaseUrl.parse (s.withDeclaredUrl d).baseUrl).path sent
  refine ⟨d, ops, _, _, read, extracted, planned, rfl, Plan.samplers?_testPlan _ _,
    listing_ok found read extracted, ?_, shown⟩
  rw [List.length_map, Request.ofOperations_length sent]

/-- Every file holds the lists. -/
def listFiles : Files where
  read _ := .ok listText
  write _ := .ok ()

/-- A name of one letter has no extension. -/
theorem ofPath?_letter : Encoding.ofPath? "a" = none := by
  have whole : ∀ separator ∈ ["/", "."], "a".splitOn separator = ["a"] := by
    intro separator member
    simp only [List.mem_cons, List.not_mem_nil, or_false] at member
    rcases member with rfl | rfl <;>
    · rw [String.splitOn, if_neg (by decide), String.splitOnAux, if_neg (by decide),
        if_neg (by decide), String.splitOnAux, if_pos (by decide)]
      decide
  have name : Encoding.fileName? "a" = some "a" := by
    rw [Encoding.fileName?, whole "/" (by decide)]
    decide
  rw [Encoding.ofPath?, name, Option.bind_some, Encoding.extension?, whole "." (by decide)]
  rfl

theorem lists_listed :
    ∃ out plan sampler, compile listText none .default ⟨2024, fun _ => 0⟩ = .ok out ∧
      listFiles.read "a" = .ok listText ∧ Encoding.ofPath? "a" = none ∧
      out = plan.document ∧ Plan.samplers? plan = some [sampler] ∧
      listing listFiles "a" =
        ⟨0, Listing.heading "a" ++ (Listing.summary listDocument ++
          Listing.unlines ["Operations (1):", "  1. PUT /lists", "     Name: PUT /lists",
            "     Body: synthesized JSON"]), "", none⟩ ∧
      sampler.valuesOf "HTTPSampler.postBodyRaw" = ["true"] := by
  obtain ⟨out, compiled⟩ :=
    compile_exists_ok Settings.default_positive read_listText listDocument_sound
  have found : listFiles.read "a" = .ok listText := rfl
  obtain ⟨d, ops, plan, samplers, read, extracted, -, written, shown, listed, length, each⟩ :=
    listing_shows_samplers found ofPath?_letter compiled
  cases read_listText.symm.trans read
  cases Sample.operations_listDocument.symm.trans extracted
  obtain ⟨sampler, rfl⟩ := List.length_eq_one_iff.mp length.symm
  obtain ⟨first, -⟩ := List.forall₂_cons.mp each
  exact ⟨out, plan, sampler, compiled, found, ofPath?_letter, written, shown, listed,
    (first.body.mp rfl).1⟩

end Outcome
end LoadPlan
