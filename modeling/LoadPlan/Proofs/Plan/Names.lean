import LoadPlan.Proofs.Plan.Paths

/-! The names of samplers. A name is chosen among those that a document gives by what is blank in the
document, and the written plan leaves out characters that XML cannot have. So a sampler shows the name
that should be chosen for it, and is never without one, but for a given name that is made of such
characters and white space only. -/
namespace LoadPlan
open Xml (carriedText)

namespace Operation

/-- Whether a text is blank in a written plan. -/
def isInvisible (text : String) : Bool := Text.allBlank (carriedText text)

/-- The names that a document gives an operation: its identifier, and then its summary. -/
def givenNames (op : Operation) : List String := op.operationId.toList ++ op.summary.toList

/-- The name without one that is given. -/
def plainName (op : Operation) : String := op.method.name ++ " " ++ op.path

/-- The first given name that is not blank in a written plan, or else the method and the path. -/
def visibleName (op : Operation) : String := (op.givenNames.find? (!isInvisible ·)).getD op.plainName

theorem displayName_eq_find? (op : Operation) :
    op.displayName = (op.givenNames.find? (!Text.allBlank ·)).getD op.plainName := by
  have single (given : Option String) :
      given.toList.find? (!Text.allBlank ·) = given.filter (!Text.allBlank ·) := by
    cases given with
    | none => rfl
    | some name => rw [Option.toList_some, List.find?_singleton, Option.filter_some]
  rw [givenNames, List.find?_append, single, single, displayName, plainName]
  generalize Option.or _ _ = chosen
  cases chosen <;> rfl

theorem isInvisible_iff (text : String) :
    isInvisible text ↔ ∀ c ∈ text.toList, Text.isBlank c ∨ Xml.isForbidden c := by
  simp only [isInvisible, Text.allBlank, carriedText, String.toList_ofList, List.all_filter,
    List.all_eq_true, Xml.isAllowed_eq, Bool.or_eq_true, Bool.not_eq_true', Bool.not_eq_false']
  grind

/-- What is blank in a document is blank in a written plan. -/
theorem isInvisible_of_blank {text : String} (blank : Text.allBlank text) : isInvisible text :=
  (isInvisible_iff text).mpr fun c member => .inl (List.all_eq_true.mp blank c member)

theorem plainName_visible (op : Operation) : ¬ isInvisible op.plainName := by
  intro invisible
  have method : isInvisible op.method.name := by
    rw [isInvisible_iff] at invisible ⊢
    intro c member
    refine invisible c ?_
    rw [plainName, String.toList_append, String.toList_append, List.append_assoc]
    exact List.mem_append_left _ member
  exact absurd method (by cases op.method <;> decide)

theorem visibleName_visible (op : Operation) : ¬ isInvisible op.visibleName := by
  unfold visibleName
  cases chosen : op.givenNames.find? (!isInvisible ·) with
  | none => exact op.plainName_visible
  | some given => simpa using List.find?_some chosen

/-- The first visible name is also the first that is not blank, unless a name before it is not blank and
yet invisible. -/
theorem find?_visible {names : List String}
    (visible : ∀ given ∈ names.find? (!Text.allBlank ·), ¬ isInvisible given) :
    names.find? (!isInvisible ·) = names.find? (!Text.allBlank ·) := by
  induction names with
  | nil => rfl
  | cons name rest ih =>
    by_cases blank : Text.allBlank name
    · have later : (name :: rest).find? (!Text.allBlank ·) = rest.find? (!Text.allBlank ·) := by
        simp [blank]
      rw [later] at visible ⊢
      rw [← ih visible]
      simp [isInvisible_of_blank blank]
    · have first : (name :: rest).find? (!Text.allBlank ·) = some name := by simp [blank]
      rw [first] at visible ⊢
      simp [visible name rfl]

/-- A display name that is blank in a written plan is a given name, and not the one that should have been
chosen. -/
theorem displayName_visible_iff (op : Operation) :
    ¬ isInvisible op.displayName ↔ op.displayName = op.visibleName := by
  constructor
  · intro visible
    rw [displayName_eq_find?] at visible ⊢
    rw [visibleName, find?_visible]
    intro given chosen
    rwa [Option.mem_def.mp chosen] at visible
  · intro same
    exact same ▸ op.visibleName_visible

/-- The name of an operation's sampler in a written plan: its display name without the characters that XML
cannot have. It is not blank exactly if it is the name to be chosen for the plan, and that it is exactly
if the given name that is taken, if one is, has a character that is seen. -/
structure NamedBy (op : Operation) (name : String) : Prop where
  written : name = carriedText op.displayName
  visible_iff : ¬ Text.allBlank name ↔ op.displayName = op.visibleName
  chosen_iff : op.displayName = op.visibleName ↔
    ∀ given ∈ op.givenNames.find? (!Text.allBlank ·),
      ∃ c ∈ given.toList, ¬ Text.isBlank c ∧ ¬ Xml.isForbidden c

theorem namedBy_carried (op : Operation) : op.NamedBy (carriedText op.displayName) := by
  refine ⟨rfl, op.displayName_visible_iff, ?_⟩
  have seen (text : String) : (∃ c ∈ text.toList, ¬ Text.isBlank c ∧ ¬ Xml.isForbidden c) ↔
      ¬ isInvisible text := by
    rw [isInvisible_iff]
    push Not
    rfl
  simp only [seen]
  rw [← displayName_visible_iff, displayName_eq_find?]
  cases op.givenNames.find? (!Text.allBlank ·) with
  | none => simpa using op.plainName_visible
  | some given => simp

end Operation

theorem Plan.sampler_carried_name (basePath : String) (request : Request) :
    (Plan.sampler basePath request).carried.attribute? "testname" =
      some (carriedText request.operation.displayName) := rfl

/-- In the written plan the sampler of each operation has its display name, without the characters that
XML cannot have. That is never blank but where a given name is taken that shows nothing. -/
theorem compile_names (compiled : compile text hint s chance = .ok out) :
    ∃ d ops plan samplers, Document.read text hint = .ok d ∧ d.operations = .ok ops ∧
      Xml.readDocument? out = some plan ∧ Plan.samplers? plan = some samplers ∧
      List.Forall₂ (fun op sampler =>
        ∃ name, sampler.attribute? "testname" = some name ∧ op.NamedBy name) ops samplers := by
  obtain ⟨d, ops, requests, read, extracted, sent, planned, rfl⟩ := compile_requests compiled
  have shown := (Plan.samplers?_carried _).trans
    (congrArg (Option.map _) (Plan.samplers?_testPlan (s.withDeclaredUrl d) requests))
  refine ⟨d, ops, _, _, read, extracted, (Plan.proper_testPlan _ _).readDocument?_document, shown, ?_⟩
  rw [List.forall₂_map_right_iff, List.forall₂_map_right_iff]
  refine (Request.ofOperations_each sent).imp ?_
  rintro op request ⟨c, planned⟩
  obtain ⟨rfl, -⟩ := Request.ofOperation_ok planned
  exact ⟨_, Plan.sampler_carried_name _ request, request.operation.namedBy_carried⟩

/-- A path with an operation that has an identifier and a summary. -/
def titledPaths (identifier summary : String) : List (String × Json) :=
  [("/notes", .object [("get", .object [("operationId", .string identifier),
    ("summary", .string summary)])])]

def titledDocument (identifier summary : String) : Document where
  fields := [("swagger", .string "2.0"), ("paths", .object (titledPaths identifier summary))]
  paths := titledPaths identifier summary
  versioned := .inr rfl
  paths_eq := rfl

def titledOperation (identifier summary : String) : Operation :=
  ⟨"/notes", .get, some identifier, some summary, [], none⟩

theorem operations_titledDocument (identifier summary : String) :
    (titledDocument identifier summary).operations = .ok [titledOperation identifier summary] := by
  have item : Operation.ofPathItem (titledDocument identifier summary).root "/notes"
      (.object [("get", .object [("operationId", .string identifier), ("summary", .string summary)])]) =
      .ok [titledOperation identifier summary] := by
    rw [Operation.ofPathItem, Reference.target_plain rfl]
    rfl
  change Operation.ofPaths _ [(_, _)] = _
  rw [Operation.ofPaths, item]
  rfl

theorem compile_titled (read : Document.read text none = .ok (titledDocument identifier summary)) :
    ∃ out, compile text none .default ⟨2024, fun _ => 0⟩ = .ok out := by
  have unreferenced : Reference.pointers (titledDocument identifier summary).root = [] := rfl
  refine compile_exists_ok Settings.default_positive read fun pointer member => ?_
  rw [unreferenced] at member
  cases member

/-- An identifier of a vertical tab, which is blank, and a summary with a control character in it. -/
def tabbedText : String :=
  "\x7b\"swagger\":\"2.0\",\"paths\":\x7b\"/notes\":\x7b\"get\":" ++
  "\x7b\"operationId\":\"\\u000b\",\"summary\":\"List\\u0001 notes\"\x7d\x7d\x7d\x7d"

set_option maxRecDepth 2000 in
theorem read_tabbedText :
    Document.read tabbedText none = .ok (titledDocument "\x0b" "List\x01 notes") := by
  have parsed : Json.read? tabbedText = some (titledDocument "\x0b" "List\x01 notes").root := by
    unfold Json.read?
    have characters : tabbedText.toList = _ :=
      String.toList_append.trans (congrArg₂ (· ++ ·) String.toList_ofList String.toList_ofList)
    rw [characters]
    with_unfolding_all rfl
  exact Document.read_of_json parsed

theorem tabbed_named :
    ∃ out plan sampler, compile tabbedText none .default ⟨2024, fun _ => 0⟩ = .ok out ∧
      Xml.readDocument? out = some plan ∧ Plan.samplers? plan = some [sampler] ∧
      sampler.attribute? "testname" = some "List notes" ∧
      (titledOperation "\x0b" "List\x01 notes").displayName =
        (titledOperation "\x0b" "List\x01 notes").visibleName := by
  obtain ⟨out, compiled⟩ := compile_titled read_tabbedText
  obtain ⟨d, ops, plan, samplers, read, extracted, back, shown, each⟩ := compile_names compiled
  cases read_tabbedText.symm.trans read
  cases (operations_titledDocument _ _).symm.trans extracted
  obtain ⟨sampler, _, ⟨name, titled, named⟩, rest, rfl⟩ := List.forall₂_cons_left_iff.mp each
  cases rest
  have text : name = "List notes" := named.written.trans (by decide)
  cases text
  exact ⟨out, plan, sampler, compiled, back, shown, titled, named.visible_iff.mp (by decide)⟩

/-- An identifier of a control character, which is not blank. -/
def unseenText : String :=
  "\x7b\"swagger\":\"2.0\",\"paths\":\x7b\"/notes\":\x7b\"get\":" ++
  "\x7b\"operationId\":\"\\u0001\",\"summary\":\"List notes\"\x7d\x7d\x7d\x7d"

set_option maxRecDepth 2000 in
theorem read_unseenText :
    Document.read unseenText none = .ok (titledDocument "\x01" "List notes") := by
  have parsed : Json.read? unseenText = some (titledDocument "\x01" "List notes").root := by
    unfold Json.read?
    have characters : unseenText.toList = _ :=
      String.toList_append.trans (congrArg₂ (· ++ ·) String.toList_ofList String.toList_ofList)
    rw [characters]
    with_unfolding_all rfl
  exact Document.read_of_json parsed

/-- The identifier is taken, and nothing of it is left in the plan; the summary would be seen. -/
theorem unseen_unnamed :
    ∃ out plan sampler, compile unseenText none .default ⟨2024, fun _ => 0⟩ = .ok out ∧
      Document.read unseenText none = .ok (titledDocument "\x01" "List notes") ∧
      (titledDocument "\x01" "List notes").operations =
        .ok [titledOperation "\x01" "List notes"] ∧
      Xml.readDocument? out = some plan ∧ Plan.samplers? plan = some [sampler] ∧
      sampler.attribute? "testname" = some "" ∧ Text.allBlank "" ∧
      (titledOperation "\x01" "List notes").visibleName = "List notes" := by
  obtain ⟨out, compiled⟩ := compile_titled read_unseenText
  obtain ⟨d, ops, requests, read, extracted, sent, -, rfl⟩ := compile_requests compiled
  cases read_unseenText.symm.trans read
  cases (operations_titledDocument _ _).symm.trans extracted
  obtain ⟨request, _, ⟨c, planned⟩, rest, rfl⟩ :=
    List.forall₂_cons_left_iff.mp (Request.ofOperations_each sent)
  cases rest
  have nothing : carriedText (titledOperation "\x01" "List notes").displayName = "" := by decide
  have titled (basePath : String) :
      (Plan.sampler basePath request).carried.attribute? "testname" = some "" := by
    rw [Plan.sampler_carried_name, (Request.ofOperation_ok planned).1, nothing]
  have shown := (Plan.samplers?_carried _).trans (congrArg (Option.map _) (Plan.samplers?_testPlan
    (Settings.default.withDeclaredUrl (titledDocument "\x01" "List notes")) [request]))
  exact ⟨_, _, _, compiled, read, extracted, (Plan.proper_testPlan _ _).readDocument?_document, shown,
    titled _, by decide, by decide⟩

end LoadPlan
