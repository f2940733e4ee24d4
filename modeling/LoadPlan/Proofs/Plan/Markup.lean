import LoadPlan.Plan.Assembly
import LoadPlan.Proofs.Xml.RoundTrip

/-! The markup of test plans. Whatever the settings and requests are, all elements of a plan come
from calls that build them, with names that are given here and never taken from data. -/
namespace LoadPlan.Plan
open Xml (Element Proper isName wellNamed_of_names proper_text proper_parent proper_withChildren)

@[simp] theorem proper_textProperty (name value : String) : Proper (textProperty name value) :=
  proper_text (wellNamed_of_names ["name"] (by decide) rfl (by decide) (by decide)) value

@[simp] theorem proper_flag (name : String) (value : Bool) : Proper (flag name value) :=
  proper_text (wellNamed_of_names ["name"] (by decide) rfl (by decide) (by decide)) _

section
variable {parts : List Element} (inner : ∀ part ∈ parts, Proper part)
include inner

theorem proper_collection (name : String) : Proper (collection name parts) :=
  proper_withChildren (wellNamed_of_names ["name"] (by decide) rfl (by decide) (by decide)) inner

theorem proper_tree : Proper (tree parts) :=
  proper_withChildren (wellNamed_of_names [] (by decide) rfl (by decide) (by decide)) inner

variable (some : parts ≠ [])
include some

theorem proper_record (name type : String) : Proper (record name type parts) :=
  proper_parent (wellNamed_of_names ["name", "elementType"] (by decide) rfl (by decide) (by decide))
    some inner

theorem proper_panelRecord (name type panel title : String) :
    Proper (panelRecord name type panel title parts) :=
  proper_parent (wellNamed_of_names
    ["name", "elementType", "guiclass", "testclass", "testname", "enabled"]
    (by decide) rfl (by decide) (by decide)) some inner

theorem proper_component {type : String} (named : isName type) (panel title : String) :
    Proper (component type panel title parts) :=
  proper_parent (wellNamed_of_names ["guiclass", "testclass", "testname", "enabled"]
    named rfl (by decide) (by decide)) some inner

end

@[simp] theorem proper_noArguments : Proper noArguments :=
  proper_panelRecord (by simp [proper_collection]) (by simp) _ _ _ _

theorem proper_planComponent (s : Settings) : Proper (planComponent s) := by
  have address : Proper (baseUrlVariable s.baseUrl) := proper_record (by simp) (by simp) _ _
  have defined : Proper (panelRecord "TestPlan.user_defined_variables" "Arguments" "ArgumentsPanel"
      "User Defined Variables" [collection "Arguments.arguments" [baseUrlVariable s.baseUrl]]) :=
    proper_panelRecord (by simp [proper_collection, address]) (by simp) _ _ _ _
  exact proper_component (by simp [defined]) (by simp) (by decide) _ _

theorem proper_threadGroup (s : Settings) : Proper (threadGroup s) := by
  have loops : Proper (loopController s.loops) := proper_panelRecord (by simp) (by simp) _ _ _ _
  exact proper_component (by simp [loops]) (by simp) (by decide) _ _

theorem proper_requestDefaults (url : BaseUrl) : Proper (requestDefaults url) :=
  proper_component (by simp) (by simp) (by decide) _ _

theorem proper_header (name value : String) : Proper (header name value) :=
  proper_record (by simp) (by simp) _ _

theorem proper_headerManager : Proper headerManager := by
  refine proper_component (List.forall_mem_singleton.mpr (proper_collection ?_ _)) (by simp)
    (by decide) _ _
  exact List.forall_mem_map.mpr fun pair _ => proper_header pair.1 pair.2

theorem proper_bodyParts (body : Option String) : ∀ part ∈ bodyParts body, Proper part := by
  cases body with
  | none => simp [bodyParts]
  | some text =>
    have argument : Proper (record "" "HTTPArgument" [flag "HTTPArgument.always_encode" false,
        textProperty "Argument.value" text, textProperty "Argument.metadata" "="]) :=
      proper_record (by simp) (by simp) _ _
    have arguments : Proper (bodyArguments text) :=
      proper_record (by simp [proper_collection, argument]) (by simp) _ _
    simp [bodyParts, arguments]

theorem proper_sampler (basePath : String) (request : Request) : Proper (sampler basePath request) :=
  proper_component (by
    simp only [List.forall_mem_append]
    exact ⟨proper_bodyParts request.body, by simp⟩) (by simp) (by decide) _ _

theorem proper_recordedFields : Proper recordedFields := by
  have names : ∀ pair ∈ recorded, isName pair.1 := by decide +kernel
  refine proper_parent (wellNamed_of_names ["class"] (by decide) rfl (by decide) (by decide))
    (by simp [recorded]) fun part member => ?_
  obtain ⟨pair, known, rfl⟩ := List.mem_map.mp member
  exact proper_text (wellNamed_of_names [] (names pair known) rfl (by decide) (by decide)) _

theorem proper_resultCollector (panel title : String) : Proper (resultCollector panel title) := by
  have name : Proper (.text ⟨"name", []⟩ "saveConfig") :=
    proper_text (wellNamed_of_names [] (by decide) rfl (by decide) (by decide)) _
  have saved : Proper (.parent ⟨"objProp", []⟩ [.text ⟨"name", []⟩ "saveConfig", recordedFields]) :=
    proper_parent (wellNamed_of_names [] (by decide) rfl (by decide) (by decide)) (by simp)
      (by simp [name, proper_recordedFields])
  exact proper_component (by simp [saved]) (by simp) (by decide) _ _

theorem proper_threadGroupTree (url : BaseUrl) (requests : List Request) :
    Proper (threadGroupTree url requests) := by
  have leaf : Proper leafTree := proper_tree (by simp)
  have samplers : ∀ part ∈ requests.map (sampler url.path), Proper part :=
    List.forall_mem_map.mpr fun request _ => proper_sampler url.path request
  have components : ∀ part ∈ [requestDefaults url, headerManager] ++
      requests.map (sampler url.path) ++
      [resultCollector "ViewResultsFullVisualizer" "View Results Tree",
        resultCollector "SummaryReport" "Summary Report"], Proper part := by
    simp only [List.forall_mem_append]
    exact ⟨⟨by simp [proper_requestDefaults, proper_headerManager], samplers⟩,
      by simp [proper_resultCollector]⟩
  refine proper_tree fun part member => ?_
  obtain ⟨component, among, member⟩ := List.mem_flatMap.mp member
  rcases List.mem_cons.mp member with rfl | member
  · exact components part among
  · cases List.mem_singleton.mp member
    exact leaf

/-- Test plans are built of well-named elements, for all settings and requests. -/
theorem proper_testPlan (s : Settings) (requests : List Request) : Proper (testPlan s requests) := by
  have group : Proper (tree [threadGroup s, threadGroupTree (.parse s.baseUrl) requests]) :=
    proper_tree (by simp [proper_threadGroup, proper_threadGroupTree])
  have top : Proper (tree [planComponent s,
      tree [threadGroup s, threadGroupTree (.parse s.baseUrl) requests]]) :=
    proper_tree (by simp [proper_planComponent, group])
  exact proper_parent (wellNamed_of_names ["version", "properties", "jmeter"]
    (by decide) rfl (by decide) (by decide)) (by simp) (by simp [top])

end LoadPlan.Plan

namespace LoadPlan.Xml

/-- Whatever is built of proper names is written with allowed characters only, and is read back with
all its markup, its attributes, texts and children; and so is every test plan. -/
theorem render_reads_back :
    (∀ e, Built e → WellNamed e → ∀ depth,
      Allowed (e.render depth) ∧ read? (e.render depth) = some e.carried) ∧
    ∀ s requests depth, Allowed ((Plan.testPlan s requests).render depth) ∧
      read? ((Plan.testPlan s requests).render depth) = some (Plan.testPlan s requests).carried :=
  ⟨fun _ built named depth => Proper.reads_back ⟨built, named⟩ depth,
    fun s requests depth => (Plan.proper_testPlan s requests).reads_back depth⟩

/-- Notes whose texts are full of marks, or empty, or not there. -/
def notes : Element :=
  (Element.named "notes").withChildren [
    ((Element.named "note").attr "title" "\"<&>'\x01").withText "</note>\n",
    (Element.named "note").withText "",
    .named "note"]

theorem proper_notes : Proper notes := by
  have title : Proper (((Element.named "note").attr "title" "\"<&>'\x01").withText "</note>\n") :=
    proper_text (wellNamed_of_names ["title"] (by decide) rfl (by decide) (by decide)) _
  have plain : (Tag.mk "note" []).WellNamed :=
    wellNamed_of_names [] (by decide) rfl (by decide) (by decide)
  have empty : Proper ((Element.named "note").withText "") := proper_text plain ""
  have none : Proper (Element.named "note") := ⟨.named "note", .bare plain⟩
  exact proper_withChildren (wellNamed_of_names [] (by decide) rfl (by decide) (by decide))
    (by simp [title, empty, none])

theorem notes_read_back :
    Built notes ∧ WellNamed notes ∧ read? (notes.render 1) = some (.parent ⟨"notes", []⟩ [
      .text ⟨"note", [("title", "\"<&>'")]⟩ "</note>\n",
      .text ⟨"note", []⟩ "",
      .bare ⟨"note", []⟩]) :=
  ⟨proper_notes.built, proper_notes.named,
    (render_reads_back.1 notes proper_notes.built proper_notes.named 1).2⟩

end LoadPlan.Xml
