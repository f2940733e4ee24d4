import LoadPlan.Proofs.Compile.Agreement

/-! The base URL of a compiled plan. A URL that the document declares acts as one that is given. Where
one is given, compilation reads nothing of what the document declares about its server, as long as no
marker leads there. -/
namespace LoadPlan
open Reference (Agrees)

namespace Pointer

theorem splitSlash_ne_nil (cs : List Char) : splitSlash cs ≠ [] := by
  cases cs with
  | nil => exact List.cons_ne_nil _ _
  | cons c rest =>
    rw [splitSlash]
    split
    · split <;> exact List.cons_ne_nil _ _
    · exact List.cons_ne_nil _ _

/-- Only the pointer to the whole document has no segments. -/
theorem eq_whole_of_segments? {pointer : String} (whole : segments? pointer = some []) :
    pointer = "#" := by
  unfold segments? at whole
  split at whole
  · rename_i characters
    exact String.toList_inj.mp characters
  · rename_i rest characters
    exact absurd (List.map_eq_nil_iff.mp (Option.some.inj whole)) (splitSlash_ne_nil rest)
  · cases whole

end Pointer

namespace Document

/-- What a document declares its server by. -/
def serverKeys : List String := ["servers", "host", "schemes", "basePath"]

/-- Documents with the same entries but for what declares their server. -/
def SameBesidesServer (d d' : Document) : Prop :=
  ∀ key, key ∉ serverKeys → d.fields.lookup key = d'.fields.lookup key

/-- A pointer to the whole document, or into the declaration of its server. -/
def MeetsServer (pointer : String) : Prop :=
  pointer = "#" ∨ ∃ key ∈ serverKeys, ∃ rest, Pointer.segments? pointer = some (key :: rest)

section
variable {d d' : Document} (same : d.SameBesidesServer d')
include same

theorem SameBesidesServer.paths_eq : d'.paths = d.paths := by
  have paths := same "paths" (by decide)
  rw [d.paths_eq, d'.paths_eq] at paths
  exact (Json.object.inj (Option.some.inj paths)).symm

theorem SameBesidesServer.agrees
    (apart : ∀ pointer ∈ Reference.pointers d.root, ¬ MeetsServer pointer) :
    Agrees d.root d'.root := by
  intro pointer member
  have outside := apart pointer member
  rw [Pointer.lookup?, Pointer.lookup?]
  rcases segments : Pointer.segments? pointer with _ | _ | ⟨key, rest⟩
  · rfl
  · exact absurd (.inl (Pointer.eq_whole_of_segments? segments)) outside
  · have other : key ∉ serverKeys := fun among => outside (.inr ⟨key, among, rest, segments⟩)
    change (d'.fields.lookup key).bind _ = (d.fields.lookup key).bind _
    rw [same key other]

end
end Document

namespace Settings
variable {s : Settings} {d : Document}

/-- A declared URL that takes the place of a blank one stays in place, even if it is blank itself. -/
theorem withDeclaredUrl_declared (blank : Text.allBlank s.baseUrl)
    (declared : d.declaredUrl? = some url) :
    ({ s with baseUrl := url } : Settings).withDeclaredUrl d = s.withDeclaredUrl d := by
  simp [withDeclaredUrl, blank, declared]

theorem withDeclaredUrl_given (given : ¬ Text.allBlank s.baseUrl) : s.withDeclaredUrl d = s := by
  rw [withDeclaredUrl, if_neg given]

end Settings

theorem compile_declared (blank : Text.allBlank s.baseUrl) (read : Document.read text hint = .ok d)
    (declared : d.declaredUrl? = some url) :
    compile text hint { s with baseUrl := url } chance = compile text hint s chance := by
  cases zero : s.zeroCount? with
  | some count =>
    have zero' : ({ s with baseUrl := url } : Settings).zeroCount? = some count := zero
    rw [compile_zeroCount zero', compile_zeroCount zero]
  | none =>
    have positive := Settings.zeroCount?_eq_none.mp zero
    have positive' : ∀ count, ({ s with baseUrl := url } : Settings).count count ≠ 0 := positive
    rw [compile_eq positive read, compile_eq positive' read, Document.testPlan, Document.testPlan,
      Settings.withDeclaredUrl_declared blank declared]

theorem compile_given (given : ¬ Text.allBlank s.baseUrl) (read : Document.read text hint = .ok d)
    (read' : Document.read text' hint' = .ok d') (same : d.SameBesidesServer d')
    (apart : ∀ pointer ∈ Reference.pointers d.root, ¬ Document.MeetsServer pointer) :
    compile text' hint' s chance = compile text hint s chance := by
  cases zero : s.zeroCount? with
  | some count => rw [compile_zeroCount zero, compile_zeroCount zero]
  | none =>
    have positive := Settings.zeroCount?_eq_none.mp zero
    have requests := Document.requests_alike (same.agrees apart) same.paths_eq chance
    rw [compile_eq positive read, compile_eq positive read', Document.testPlan, Document.testPlan,
      Settings.withDeclaredUrl_given given, Settings.withDeclaredUrl_given given, requests]

/-- A base URL that the document declares is as good as one that is given: with a blank URL, the
result is that with the declared one in its place. A given URL shields the plan from the declaration:
documents that differ only in their servers, host, schemes and base path compile alike, text or error,
if no marker points to the whole document or into one of these. It is enough to ask this of the markers
of one of the two. -/
theorem compile_baseUrl (s : Settings) (chance : Sample.Chance) :
    (∀ text hint d url, Text.allBlank s.baseUrl → Document.read text hint = .ok d →
      d.declaredUrl? = some url →
        compile text hint s chance = compile text hint { s with baseUrl := url } chance) ∧
    ∀ text hint d text' hint' d', ¬ Text.allBlank s.baseUrl → Document.read text hint = .ok d →
      Document.read text' hint' = .ok d' → d.SameBesidesServer d' →
      (∀ pointer ∈ Reference.pointers d.root, ¬ Document.MeetsServer pointer) →
        compile text hint s chance = compile text' hint' s chance := by
  constructor
  · intro text hint d url blank read declared
    exact (compile_declared blank read declared).symm
  · intro text hint d text' hint' d' given read read' same apart
    exact (compile_given given read read' same apart).symm

/-- The document of lists, with a host. -/
def hostedDocument : Document where
  fields := [("swagger", .string "2.0"), ("host", .string "api.example.com"),
    ("paths", .object listPaths), ("list", listSchema)]
  paths := listPaths
  versioned := .inr rfl
  paths_eq := rfl

def hostedText : String :=
  "\x7b\"swagger\":\"2.0\",\"host\":\"api.example.com\",\"paths\":\x7b\"/lists\":\x7b\"put\":" ++
  "\x7b\"parameters\":[\x7b\"in\":\"body\",\"schema\":\x7b\"$ref\":\"#/list\"\x7d\x7d]\x7d\x7d\x7d," ++
  "\"list\":\x7b\"type\":\"array\",\"items\":\x7b\"$ref\":\"#/list\"\x7d\x7d\x7d"

set_option maxRecDepth 2000 in
theorem read_hostedText : Document.read hostedText none = .ok hostedDocument := by
  have parsed : Json.read? hostedText = some hostedDocument.root := by
    unfold Json.read?
    have characters : hostedText.toList = _ :=
      String.toList_append.trans (congrArg₂ (· ++ ·)
        (String.toList_append.trans (congrArg₂ (· ++ ·) String.toList_ofList String.toList_ofList))
        String.toList_ofList)
    rw [characters]
    with_unfolding_all rfl
  exact Document.read_of_json parsed

theorem listDocument_apart : ∀ pointer ∈ Reference.pointers listDocument.root,
    ¬ Document.MeetsServer pointer := by
  have known : ∀ pointer ∈ Reference.pointers listDocument.root, pointer = "#/list" := by
    decide
  have segments : Pointer.segments? "#/list" = some ["list"] := by
    unfold Pointer.segments?
    rw [show String.toList "#/list" = _ from String.toList_ofList]
    with_unfolding_all rfl
  intro pointer member meets
  cases known pointer member
  rcases meets with whole | ⟨key, among, rest, into⟩
  · exact absurd whole (by decide)
  · cases segments.symm.trans into
    exact absurd among (by decide)

theorem hostedDocument_same : listDocument.SameBesidesServer hostedDocument := by
  intro key other
  have unhosted : key ≠ "host" := fun host => other (host ▸ by decide)
  have differs : (key == "host") = false := beq_eq_false_iff_ne.mpr unhosted
  simp only [listDocument, hostedDocument, List.lookup_cons, differs]

/-- Without a given URL the host decides, and with one it does not matter. -/
theorem compile_hostedText :
    (hostedDocument.declaredUrl? = some "https://api.example.com" ∧
      compile hostedText none .default ⟨2024, fun _ => 0⟩ =
        compile hostedText none { Settings.default with baseUrl := "https://api.example.com" }
          ⟨2024, fun _ => 0⟩) ∧
    compile listText none { Settings.default with baseUrl := "http://localhost" }
        ⟨2024, fun _ => 0⟩ =
      compile hostedText none { Settings.default with baseUrl := "http://localhost" }
        ⟨2024, fun _ => 0⟩ := by
  have declared : hostedDocument.declaredUrl? = some "https://api.example.com" := by
    decide
  exact ⟨⟨declared, (compile_baseUrl .default _).1 _ _ _ _ (by decide) read_hostedText declared⟩,
    (compile_baseUrl _ _).2 _ _ _ _ _ _ (by decide) read_listText read_hostedText
      hostedDocument_same listDocument_apart⟩

end LoadPlan
