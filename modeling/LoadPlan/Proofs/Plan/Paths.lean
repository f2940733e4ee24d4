import LoadPlan.Proofs.Compile.BaseUrl
import LoadPlan.Proofs.Plan.Bodies
import LoadPlan.Proofs.Plan.Variables

/-! The paths of samplers. A sampler's path is that of the base URL, as it is, and then the operation's
with its dollars put in. What stands before the operation's path does not change where these go, so a
name in braces is without a dollar exactly if it begins in the base URL's path and has none there, be it
that it ends there or only in the operation's path. -/
namespace LoadPlan

namespace Placeholder

/-- A path in braces and dollars behind a base path: as it is in the base path, and with a dollar for each
name that begins after it. -/
structure Expands (basePath path written : String) : Prop where
  joined : written = basePath ++ toVariables path
  bare : ∀ place, BareAt written.toList place ↔
    place < basePath.length ∧ BareAt (basePath ++ path).toList place
  complete : '\x7b' ∉ basePath.toList →
    ∀ place, OccursAt written.toList place → DollarBefore written.toList place

section
variable {c : Char} {before cs name : List Char} {place : Nat}

theorem begins_cons : Begins (c :: cs) ↔ c = '\x7b' ∧
    ∃ name, name ≠ [] ∧ (∀ c ∈ name, Text.isWord c) ∧ ∃ rest, cs = name ++ '\x7d' :: rest := by
  constructor
  · rintro ⟨name, rest, some, words, text⟩
    obtain ⟨rfl, rfl⟩ := List.cons.inj text
    exact ⟨rfl, name, some, words, rest, rfl⟩
  · rintro ⟨rfl, name, some, words, rest, rfl⟩
    exact ⟨name, rest, some, words, rfl⟩

/-- A name that is closed in two texts together is closed in the first, or ends with the first letters
of the second. -/
theorem closed_append : (∃ rest, before ++ cs = name ++ '\x7d' :: rest) ↔
    (∃ rest, before = name ++ '\x7d' :: rest) ∨
      ∃ last, name = before ++ last ∧ ∃ rest, cs = last ++ '\x7d' :: rest := by
  constructor
  · rintro ⟨rest, text⟩
    rcases List.append_eq_append_iff.mp text with ⟨last, rfl, after⟩ | ⟨gap, rfl, after⟩
    · exact .inr ⟨last, rfl, rest, after⟩
    · cases gap with
      | nil => exact .inr ⟨[], by simp, rest, after.symm⟩
      | cons d gap =>
        obtain ⟨rfl, -⟩ := List.cons.inj after
        exact .inl ⟨gap, rfl⟩
  · rintro (⟨rest, rfl⟩ | ⟨last, rfl, rest, rfl⟩)
    · exact ⟨rest ++ cs, by simp⟩
    · exact ⟨rest, by simp⟩

theorem closed_dollared (words : ∀ c ∈ name, Text.isWord c) :
    (∃ rest, dollared false cs = name ++ '\x7d' :: rest) ↔ ∃ rest, cs = name ++ '\x7d' :: rest := by
  constructor
  · rintro ⟨rest, shown⟩
    exact name_of_dollared words shown
  · rintro ⟨rest, rfl⟩
    exact ⟨dollared false rest, dollared_name words false rest⟩

/-- A name that begins before a text ends with it as before when dollars are put in there. -/
theorem begins_append_dollared :
    Begins (c :: (before ++ dollared false cs)) ↔ Begins (c :: (before ++ cs)) := by
  rw [begins_cons, begins_cons]
  refine and_congr_right fun _ => exists_congr fun name => and_congr_right fun _ => ?_
  refine and_congr_right fun words => ?_
  rw [closed_append, closed_append]
  refine or_congr_right (exists_congr fun last => and_congr_right ?_)
  rintro rfl
  exact closed_dollared fun c member => words c (List.mem_append_right _ member)

theorem occursAt_append_dollared (inside : place < before.length) :
    OccursAt (before ++ dollared false cs) place ↔ OccursAt (before ++ cs) place := by
  rw [OccursAt, OccursAt, List.drop_append_of_le_length (Nat.le_of_lt inside),
    List.drop_append_of_le_length (Nat.le_of_lt inside), List.drop_eq_getElem_cons inside]
  exact begins_append_dollared

theorem dollarBefore_append (inside : place ≤ before.length) :
    DollarBefore (before ++ cs) place ↔ DollarBefore before place := by
  refine exists_congr fun last => and_congr_right ?_
  rintro rfl
  rw [List.getElem?_append_left inside]

theorem dollarBefore_append_right (dollar : DollarBefore cs place) :
    DollarBefore (before ++ cs) (before.length + place) := by
  obtain ⟨last, rfl, here⟩ := dollar
  refine ⟨before.length + last, rfl, ?_⟩
  rwa [List.getElem?_append_right (Nat.le_add_right _ _), Nat.add_sub_cancel_left]

/-- Only a name that begins before a text with dollars put in can be without one. -/
theorem bareAt_append_dollared : BareAt (before ++ dollared false cs) place ↔
    place < before.length ∧ BareAt (before ++ cs) place := by
  by_cases inside : place < before.length
  · have within := Nat.le_of_lt inside
    rw [BareAt, BareAt, occursAt_append_dollared inside, dollarBefore_append within,
      dollarBefore_append within]
    exact (and_iff_right inside).symm
  · refine iff_of_false ?_ fun bare => inside bare.1
    obtain ⟨later, rfl⟩ := Nat.exists_eq_add_of_le (Nat.le_of_not_lt inside)
    rintro ⟨occurs, undollared⟩
    rw [OccursAt, List.drop_append, List.drop_of_length_le (Nat.le_add_right _ _),
      Nat.add_sub_cancel_left, List.nil_append] at occurs
    rcases dollared_complete occurs with ⟨-, never⟩ | dollar
    · contradiction
    · exact undollared (dollarBefore_append_right dollar)

end

theorem expands_append (basePath path : String) :
    Expands basePath path (basePath ++ toVariables path) := by
  have bare (place : Nat) : BareAt (basePath ++ toVariables path).toList place ↔
      place < basePath.length ∧ BareAt (basePath ++ path).toList place := by
    rw [String.toList_append, String.toList_append, toVariables, String.toList_ofList,
      addDollars_eq_dollared, ← String.length_toList]
    exact bareAt_append_dollared
  refine ⟨rfl, bare, ?_⟩
  intro unbraced place occurs
  by_contra none
  obtain ⟨inside, within, -⟩ := (bare place).mp ⟨occurs, none⟩
  rw [← String.length_toList] at inside
  rw [OccursAt, String.toList_append, List.drop_append_of_le_length (Nat.le_of_lt inside),
    List.drop_eq_getElem_cons inside, List.cons_append, begins_cons] at within
  exact unbraced (within.1 ▸ List.getElem_mem inside)

theorem mem_of_dollared {c : Char} {cs : List Char} {afterDollar : Bool}
    (member : c ∈ dollared afterDollar cs) : c = '$' ∨ c ∈ cs := by
  induction cs generalizing afterDollar with
  | nil => exact .inr member
  | cons d rest ih =>
    have later (member : c ∈ d :: dollared (d == '$') rest) : c = '$' ∨ c ∈ d :: rest := by
      rcases List.mem_cons.mp member with rfl | inside
      · exact .inr List.mem_cons_self
      · exact (ih inside).imp_right (List.mem_cons_of_mem d)
    rw [dollared] at member
    split at member
    · rcases List.mem_cons.mp member with dollar | inside
      · exact .inl dollar
      · exact later inside
    · exact later member

theorem allowed_toVariables {path : String} (allowed : Xml.Allowed path) :
    Xml.Allowed (toVariables path) := by
  rw [Xml.allowed_iff, toVariables, String.toList_ofList, addDollars_eq_dollared]
  intro c member
  rcases mem_of_dollared member with rfl | own
  · decide
  · exact Xml.allowed_iff.mp allowed c own

end Placeholder

namespace Plan
open Placeholder (Expands)
open Xml (Allowed Element carriedText)

theorem sampler_carried_path (basePath : String) (request : Request) :
    (sampler basePath request).carried.valuesOf "HTTPSampler.path" =
      [carriedText (basePath ++ Placeholder.toVariables request.operation.path)] := by
  cases body : request.body <;>
    simp (disch := decide) [sampler, component, bodyParts, body, bodyArguments, record, noArguments,
      panelRecord, requestPath, Xml.carriedText_allowed]

/-- The path of a sampler: as it is put into the plan, and as it is read from the written plan, which
leaves out characters that XML cannot have. -/
structure HasPath (basePath : String) (op : Operation) (sampler : Element) (path : String) : Prop where
  value : sampler.valuesOf "HTTPSampler.path" = [path]
  expands : Expands basePath op.path path
  written : sampler.carried.valuesOf "HTTPSampler.path" = [carriedText path]
  carried : Allowed op.path → Expands (carriedText basePath) op.path (carriedText path)

theorem sampler_hasPath (basePath : String) (request : Request) :
    HasPath basePath request.operation (sampler basePath request)
      (basePath ++ Placeholder.toVariables request.operation.path) := by
  refine ⟨sampler_path _ _, Placeholder.expands_append _ _, sampler_carried_path _ _, ?_⟩
  intro allowed
  rw [Xml.carriedText_append, Xml.carriedText_allowed (Placeholder.allowed_toVariables allowed)]
  exact Placeholder.expands_append _ _

end Plan

/-- A text that compiles is a plan of requests for the operations of its document. -/
theorem compile_requests (compiled : compile text hint s chance = .ok out) :
    ∃ d ops requests, Document.read text hint = .ok d ∧ d.operations = .ok ops ∧
      (Request.ofOperations chance d.root ops .start).1 = .ok requests ∧
      d.testPlan s chance = .ok (Plan.testPlan (s.withDeclaredUrl d) requests) ∧
      out = (Plan.testPlan (s.withDeclaredUrl d) requests).document := by
  obtain ⟨d, _, read, planned, rfl⟩ := compile_ok compiled
  obtain ⟨requests, requested, rfl⟩ := Result.map_ok planned
  obtain ⟨ops, extracted, sent⟩ := Result.bind_ok requested
  exact ⟨d, ops, requests, read, extracted, sent, planned, rfl⟩

/-- The written plan has a sampler for each operation, whose path is that of the base URL and then the
operation's. A name in braces is without a dollar in it exactly if it begins in the base URL's path, which
is taken as it is, and has no dollar there; so if that has no opening brace, each name has its dollar. The
same holds of the path that is read back, if the operation's path has only characters that XML can have. -/
theorem compile_paths (compiled : compile text hint s chance = .ok out) :
    ∃ d ops plan samplers, Document.read text hint = .ok d ∧ d.operations = .ok ops ∧
      d.testPlan s chance = .ok plan ∧ out = plan.document ∧ Plan.samplers? plan = some samplers ∧
      Xml.readDocument? out = some plan.carried ∧
      Plan.samplers? plan.carried = some (samplers.map Xml.Element.carried) ∧
      List.Forall₂ (fun op sampler =>
        ∃ path, Plan.HasPath (BaseUrl.parse (s.withDeclaredUrl d).baseUrl).path op sampler path)
          ops samplers := by
  obtain ⟨d, ops, requests, read, extracted, sent, planned, rfl⟩ := compile_requests compiled
  have samplers := Plan.samplers?_testPlan (s.withDeclaredUrl d) requests
  refine ⟨d, ops, _, _, read, extracted, planned, rfl, samplers,
    (Plan.proper_testPlan _ _).readDocument?_document, ?_, ?_⟩
  · rw [Plan.samplers?_carried, samplers]
    rfl
  · rw [List.forall₂_map_right_iff]
    refine (Request.ofOperations_each sent).imp ?_
    rintro op request ⟨c, planned⟩
    obtain ⟨rfl, -⟩ := Request.ofOperation_ok planned
    exact ⟨_, Plan.sampler_hasPath _ request⟩

/-- Members with a name in their path. -/
def memberPaths : List (String × Json) := [("/\x7bid\x7d", .object [("get", .object [])])]

def memberDocument : Document where
  fields := [("swagger", .string "2.0"), ("paths", .object memberPaths)]
  paths := memberPaths
  versioned := .inr rfl
  paths_eq := rfl

def memberText : String :=
  "\x7b\"swagger\":\"2.0\",\"paths\":\x7b\"/\x7bid\x7d\":\x7b\"get\":\x7b\x7d\x7d\x7d\x7d"

def memberOperation : Operation := ⟨"/\x7bid\x7d", .get, none, none, [], none⟩

/-- Settings with a name in braces in the base URL. -/
def Settings.tenant : Settings :=
  { Settings.default with baseUrl := "https://api.example.com/\x7btenant\x7d" }

theorem Settings.tenant_basePath (d : Document) :
    (BaseUrl.parse (Settings.tenant.withDeclaredUrl d).baseUrl).path = "/\x7btenant\x7d" := by
  rw [Settings.withDeclaredUrl_given (by decide)]
  decide

set_option maxRecDepth 2000 in
theorem read_memberText : Document.read memberText none = .ok memberDocument := by
  have parsed : Json.read? memberText = some memberDocument.root := by
    unfold Json.read?
    rw [show memberText.toList = _ from String.toList_ofList]
    with_unfolding_all rfl
  exact Document.read_of_json parsed

theorem operations_memberDocument : memberDocument.operations = .ok [memberOperation] := by
  have item : Operation.ofPathItem memberDocument.root "/\x7bid\x7d" (.object [("get", .object [])]) =
      .ok [memberOperation] := by
    rw [Operation.ofPathItem, Reference.target_plain rfl]
    rfl
  change Operation.ofPaths memberDocument.root [(_, _)] = _
  rw [Operation.ofPaths, item]
  rfl

theorem compile_memberText :
    ∃ out, compile memberText none .tenant ⟨2024, fun _ => 0⟩ = .ok out := by
  have unreferenced : ∀ pointer, pointer ∉ Reference.pointers memberDocument.root := by decide
  have positive : ∀ count, Settings.tenant.count count ≠ 0 := by
    intro count
    cases count <;> decide
  exact compile_exists_ok positive read_memberText
    fun pointer member => absurd member (unreferenced pointer)

theorem member_written :
    Xml.carriedText ("/\x7btenant\x7d" ++ Placeholder.toVariables memberOperation.path) =
      "/\x7btenant\x7d/$\x7bid\x7d" := by
  have dollared : Placeholder.toVariables memberOperation.path = "/$\x7bid\x7d" := by
    rw [Placeholder.toVariables, Placeholder.addDollars_eq_dollared]
    decide
  rw [dollared]
  decide

open Placeholder in
/-- The name in the base URL's path is the only one that has no dollar. -/
theorem member_paths :
    ∃ out plan sampler, compile memberText none .tenant ⟨2024, fun _ => 0⟩ = .ok out ∧
      Xml.readDocument? out = some plan ∧ Plan.samplers? plan = some [sampler] ∧
      sampler.valuesOf "HTTPSampler.path" = ["/\x7btenant\x7d/$\x7bid\x7d"] ∧
      ∀ place, BareAt "/\x7btenant\x7d/$\x7bid\x7d".toList place ↔ place = 1 := by
  obtain ⟨out, compiled⟩ := compile_memberText
  obtain ⟨d, ops, plan, samplers, read, extracted, -, -, -, back, shown, each⟩ := compile_paths compiled
  cases read_memberText.symm.trans read
  cases operations_memberDocument.symm.trans extracted
  rw [Settings.tenant_basePath] at each
  obtain ⟨sampler, _, ⟨path, has⟩, rest, rfl⟩ := List.forall₂_cons_left_iff.mp each
  cases rest
  have expands := has.carried (by decide)
  have written := has.written
  rw [has.expands.joined, member_written] at expands written
  have within : ∀ place < 9, BareAt "/\x7btenant\x7d/\x7bid\x7d".toList place ↔ place = 1 := by decide
  refine ⟨out, _, _, compiled, back, shown, written, fun place => ?_⟩
  constructor
  · intro bare
    obtain ⟨inside, before⟩ := (expands.bare place).mp bare
    exact (within place inside).mp before
  · rintro rfl
    exact (expands.bare 1).mpr ⟨by decide, (within 1 (by decide)).mpr rfl⟩

open Placeholder in
/-- A name in the base URL gets no dollar. -/
theorem name_in_baseUrl_kept :
    ∃ out plan sampler path place, compile memberText none .tenant ⟨2024, fun _ => 0⟩ = .ok out ∧
      Xml.readDocument? out = some plan ∧ Plan.samplers? plan = some [sampler] ∧
      sampler.valuesOf "HTTPSampler.path" = [path] ∧
      OccursAt path.toList place ∧ ¬ DollarBefore path.toList place := by
  obtain ⟨out, compiled⟩ := compile_memberText
  obtain ⟨d, ops, requests, read, extracted, sent, -, rfl⟩ := compile_requests compiled
  cases read_memberText.symm.trans read
  cases operations_memberDocument.symm.trans extracted
  obtain ⟨request, _, ⟨c, planned⟩, rest, rfl⟩ :=
    List.forall₂_cons_left_iff.mp (Request.ofOperations_each sent)
  cases rest
  have written := (Plan.sampler_hasPath "/\x7btenant\x7d" request).written
  rw [(Request.ofOperation_ok planned).1, member_written] at written
  refine ⟨_, _, _, _, 1, compiled, (Plan.proper_testPlan _ _).readDocument?_document, ?_, written,
    by decide, by decide⟩
  rw [Plan.samplers?_carried, Plan.samplers?_testPlan, Settings.tenant_basePath]
  rfl

end LoadPlan
