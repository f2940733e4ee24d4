import LoadPlan.Proofs.Compile.Stages
import LoadPlan.Proofs.Reference.Error
import LoadPlan.Proofs.Sample.Nesting

/-! Errors of compilation. Once a document has been read, only its references can fail, and an
error always names a marker of the document that is at fault. -/
namespace LoadPlan
open Reference (Inside Yields Faulty Loops)

namespace Operation

theorem contentSchema?_inside {root body schema : Json} (within : Inside root body)
    (found : contentSchema? body = some schema) : Inside root schema := by
  obtain ⟨media, has, last⟩ := Option.bind_eq_some_iff.mp found
  obtain ⟨content, first, middle⟩ := Option.bind_eq_some_iff.mp has
  exact Reference.inside_get? (Reference.inside_get? (Reference.inside_get? within first) middle) last

/-- A schema that is found has its markers inside the document. -/
def SchemaInside (root : Json) (found : Option Json) : Prop := ∀ schema ∈ found, Inside root schema

theorem parameterSchema_yields {root : Json} {parameters : List Json}
    (within : ∀ parameter ∈ parameters, Inside root parameter) :
    Yields root (SchemaInside root) (parameterSchema root parameters) := by
  induction parameters with
  | nil => exact fun _ none => nomatch none
  | cons first rest ih =>
    have resolved := Reference.target_yields (within first List.mem_cons_self)
    rw [parameterSchema]
    generalize Reference.target root first = outcome at resolved
    cases outcome with
    | error e => exact resolved
    | ok parameter =>
      dsimp only
      split
      · rename_i schema chosen
        intro found same
        cases same
        split at chosen
        · exact Reference.inside_get? resolved chosen
        · contradiction
      · exact ih fun parameter member => within parameter (List.mem_cons_of_mem _ member)

theorem parameters_inside {root declared : Json} (within : Inside root declared) :
    ∀ parameter ∈ ((declared.get? "parameters").bind Json.items?).getD [], Inside root parameter := by
  intro parameter member
  cases listed : (declared.get? "parameters").bind Json.items? with
  | none => simp [listed] at member
  | some items =>
    obtain ⟨node, found, array⟩ := Option.bind_eq_some_iff.mp listed
    cases node with
    | array =>
      cases array
      exact Reference.inside_item (Reference.inside_get? within found)
        (by simpa [listed] using member)
    | null | bool | int | float | string | object => contradiction

theorem schemaNode_yields {root declared : Json} (within : Inside root declared) :
    Yields root (SchemaInside root) (schemaNode root declared) := by
  unfold schemaNode
  split
  · rename_i body found
    apply (Reference.target_yields (Reference.inside_get? within found)).map
    intro body inside schema chosen
    exact contentSchema?_inside inside chosen
  · exact parameterSchema_yields (parameters_inside within)

theorem bodySchema_yields {root node : Json} (within : Inside root node) :
    Yields root (fun body => Inside root body.schema) (bodySchema root node) := by
  apply (Reference.follow_yields [] within).map
  intro resolution ends
  cases resolution with
  | literal schema via => exact ends schema via rfl
  | cycle pointer => exact List.nil_subset _

def BodyInside (root : Json) (body : Option BodySchema) : Prop :=
  ∀ schema ∈ body, Inside root schema.schema

theorem requestBody_yields {root declared : Json} (within : Inside root declared) :
    Yields root (BodyInside root) (requestBody root declared) := by
  have found := schemaNode_yields within
  unfold requestBody
  generalize schemaNode root declared = outcome at found
  cases outcome with
  | error e => exact found
  | ok node? =>
    cases node? with
    | none => exact fun _ none => nomatch none
    | some node =>
      apply (bodySchema_yields (found node rfl)).map
      intro body inside schema same
      cases same
      exact inside

theorem ofField_yields {root declared : Json} (path key : String) (within : Inside root declared) :
    Yields root (fun found => ∀ op ∈ found, BodyInside root op.body)
      (ofField root path key declared) := by
  unfold ofField
  split
  · apply (requestBody_yields within).map
    intro body inside op same
    cases same
    exact inside
  · exact fun _ none => nomatch none

theorem ofFields_yields {root : Json} (path : String) {fields : List (String × Json)}
    (within : ∀ key declared, (key, declared) ∈ fields → Inside root declared) :
    Yields root (fun ops => ∀ op ∈ ops, BodyInside root op.body) (ofFields root path fields) := by
  induction fields with
  | nil => exact fun _ none => nomatch none
  | cons field rest ih =>
    obtain ⟨key, declared⟩ := field
    apply (ofField_yields path key (within key declared List.mem_cons_self)).bind
    intro found first
    apply (ih fun key declared member => within key declared (List.mem_cons_of_mem _ member)).bind
    intro ops later op member
    rcases List.mem_append.mp member with here | there
    · exact first op (Option.mem_toList.mp here)
    · exact later op there

theorem itemFields_inside {root item : Json} (within : Inside root item) :
    ∀ key declared, (key, declared) ∈ item.fields?.getD [] → Inside root declared := by
  intro key declared member
  cases item with
  | object fields => exact Reference.inside_field within member
  | null | bool | int | float | string | array => contradiction

theorem ofPathItem_yields {root item : Json} (path : String) (within : Inside root item) :
    Yields root (fun ops => ∀ op ∈ ops, BodyInside root op.body) (ofPathItem root path item) := by
  apply (Reference.target_yields within).bind
  intro item inside
  exact ofFields_yields path (itemFields_inside inside)

theorem ofPaths_yields {root : Json} {paths : List (String × Json)}
    (within : ∀ path item, (path, item) ∈ paths → Inside root item) :
    Yields root (fun ops => ∀ op ∈ ops, BodyInside root op.body) (ofPaths root paths) := by
  induction paths with
  | nil => exact fun _ none => nomatch none
  | cons entry rest ih =>
    obtain ⟨path, item⟩ := entry
    apply (ofPathItem_yields path (within path item List.mem_cons_self)).bind
    intro here first
    apply (ih fun path item member => within path item (List.mem_cons_of_mem _ member)).bind
    intro ops later op member
    rcases List.mem_append.mp member with near | far
    · exact first op near
    · exact later op far

end Operation

theorem Document.paths_inside (d : Document) :
    ∀ path item, (path, item) ∈ d.paths → Inside d.root item := by
  intro path item member
  have top : Json.get? d.root "paths" = some (.object d.paths) := d.paths_eq
  exact Reference.inside_field (Reference.inside_get? (List.Subset.refl _) top) member

theorem Document.operations_yields (d : Document) :
    Yields d.root (fun ops => ∀ op ∈ ops, Operation.BodyInside d.root op.body) d.operations :=
  Operation.ofPaths_yields d.paths_inside

namespace Sample
variable {chance : Chance} {root : Json}

theorem sampleFields_yields {path : List String} {properties : List (String × Json)}
    (each : ∀ name node, (name, node) ∈ properties → ∀ c,
      Yields root (fun _ => True) (sample chance root path (some name) node c).1) (c : Counters) :
    Yields root (fun _ => True) (sampleFields chance root path properties c).1 := by
  induction properties generalizing c with
  | nil => rw [sampleFields]; trivial
  | cons entry rest ih =>
    obtain ⟨name, node⟩ := entry
    have first := each name node List.mem_cons_self c
    have later := ih fun name node member => each name node (List.mem_cons_of_mem _ member)
    rw [sampleFields]
    generalize sample chance root path (some name) node c = outcome at first
    obtain ⟨_ | value, c⟩ := outcome
    · exact first
    · exact (later c).map fun _ _ => trivial

/-- Synthesis fails only at a marker that is at fault. -/
theorem sample_yields {node : Json} (within : Inside root node) (path : List String)
    (property : Option String) (c : Counters) :
    Yields root (fun _ => True) (sample chance root path property node c).1 := by
  induction path, node using sample_induction root generalizing property c with
  | unresolvable path node e ends =>
    have faulty := Reference.follow_yields path within
    rw [ends] at faulty
    rw [sample_follow, ends]
    exact faulty
  | cycle path node pointer ends =>
    rw [sample_follow, ends]
    trivial
  | literal path node literal via ends parts =>
    have reached : Inside root literal := (Reference.follow_literal ends).1.inside within
    have parts : ∀ part ∈ (form literal).parts, ∀ property c,
        Yields root (fun _ => True) (sample chance root (path ++ via) property part c).1 :=
      fun part member => parts part member (List.Subset.trans (pointers_part_subset member) reached)
    rw [sample_follow, ends]
    simp only [sampleResolution]
    generalize form literal = asked at parts
    cases asked with
    | fixed => trivial
    | leaf => trivial
    | items node => exact (parts node List.mem_cons_self property c).map fun _ _ => trivial
    | fields properties =>
      have fields := sampleFields_yields
        (fun name node member c => parts node (List.mem_map_of_mem member) (some name) c) c
      exact fields.map fun _ _ => trivial

end Sample

namespace Request
open Sample (Chance Counters)

theorem ofOperations_yields (chance : Chance) {root : Json} {ops : List Operation}
    (within : ∀ op ∈ ops, Operation.BodyInside root op.body) (c : Counters) :
    Yields root (fun _ => True) (ofOperations chance root ops c).1 := by
  induction ops generalizing c with
  | nil => trivial
  | cons op rest ih =>
    have first : Yields root (fun _ => True) (ofOperation chance root op c).1 := by
      unfold ofOperation bodySchema?
      split
      · rename_i body carried
        split at carried
        · have inside := within op List.mem_cons_self body carried
          exact (Sample.sample_yields inside _ _ _).map fun _ _ => trivial
        · contradiction
      · trivial
    have later := ih fun op member => within op (List.mem_cons_of_mem _ member)
    rw [ofOperations]
    generalize ofOperation chance root op c = outcome at first
    obtain ⟨_ | request, c⟩ := outcome
    · exact first
    · exact (later c).map fun _ _ => trivial

end Request

theorem Document.testPlan_yields (d : Document) (s : Settings) (chance : Sample.Chance) :
    Yields d.root (fun _ => True) (d.testPlan s chance) := by
  have requests : Yields d.root (fun _ => True) (d.requests chance) :=
    d.operations_yields.bind fun ops within => Request.ofOperations_yields chance within .start
  exact requests.map fun _ _ => trivial

theorem Document.ofJson_root (d : Document) : ofJson d.root = .ok d := by
  obtain ⟨fields, paths, versioned, paths_eq⟩ := d
  rw [root, ofJson, ofFields, dif_pos versioned]
  split
  · rename_i found same
    cases same.symm.trans paths_eq
    rfl
  · rename_i other
    exact absurd paths_eq (other paths)

/-- Without a hint, a JSON text is read as such. -/
theorem Document.read_of_json {d : Document} (parsed : Json.read? text = some d.root) :
    Document.read text none = .ok d := by
  have value : readJson text none = .ok d.root := by
    simp only [readJson, Option.getD_none, Encoding.read?, parsed]
    rfl
  rw [Document.read, value]
  exact d.ofJson_root

section
variable {text : String} {hint : Option Encoding} {s : Settings} {d : Document}
  {chance : Sample.Chance} (positive : ∀ count, s.count count ≠ 0)
  (read : Document.read text hint = .ok d)
include positive read

/-- Once a document is read, only its markers can be at fault. -/
theorem compile_error (failed : compile text hint s chance = .error e) :
    ∃ cause, e = .reference cause ∧ Faulty d.root cause := by
  have yields := d.testPlan_yields s chance
  rw [compile_eq positive read] at failed
  generalize d.testPlan s chance = outcome at yields failed
  cases outcome with
  | ok plan => contradiction
  | error cause =>
    cases failed
    exact ⟨cause, rfl, yields⟩

/-- A document without markers at fault compiles. -/
theorem compile_exists_ok (sound : ∀ pointer ∈ Reference.pointers d.root,
    (Pointer.lookup? d.root pointer).isSome ∧ ¬ Loops d.root pointer) :
    ∃ plan, compile text hint s chance = .ok plan := by
  cases outcome : compile text hint s chance with
  | ok plan => exact ⟨plan, rfl⟩
  | error e =>
    obtain ⟨cause, -, faulty⟩ := compile_error positive read outcome
    cases cause with
    | unresolvable pointer => simpa [faulty.2] using (sound pointer faulty.1).1
    | cycle pointer => exact absurd faulty.2 (sound pointer faulty.1).2

end

/-- Reference errors are exact: an unresolvable pointer and a pointer of a loop are those of markers
of the document, a document without such markers compiles however its schemas refer to each other,
and after reading nothing else fails. -/
theorem compile_reference_errors (positive : ∀ count, s.count count ≠ 0)
    (read : Document.read text hint = .ok d) :
    (∀ pointer, compile text hint s chance = .error (.reference (.unresolvable pointer)) →
      pointer ∈ Reference.pointers d.root ∧ Pointer.lookup? d.root pointer = none) ∧
    (∀ pointer, compile text hint s chance = .error (.reference (.cycle pointer)) →
      pointer ∈ Reference.pointers d.root ∧ Loops d.root pointer) ∧
    ((∀ pointer ∈ Reference.pointers d.root,
      (Pointer.lookup? d.root pointer).isSome ∧ ¬ Loops d.root pointer) →
        ∃ plan, compile text hint s chance = .ok plan) ∧
    ∀ e, compile text hint s chance = .error e → ∃ cause, e = .reference cause := by
  refine ⟨?_, ?_, compile_exists_ok positive read, ?_⟩
  · intro pointer failed
    obtain ⟨_, ⟨⟩, faulty⟩ := compile_error positive read failed
    exact faulty
  · intro pointer failed
    obtain ⟨_, ⟨⟩, faulty⟩ := compile_error positive read failed
    exact faulty
  · intro e failed
    obtain ⟨cause, same, -⟩ := compile_error positive read failed
    exact ⟨cause, same⟩

/-- A list of lists: a schema that refers to itself. -/
def listSchema : Json :=
  .object [("type", .string "array"), ("items", .object [("$ref", .string "#/list")])]

/-- The path of an operation that is sent a list. -/
def listPaths : List (String × Json) :=
  [("/lists", .object [("put", .object [("parameters", .array [.object [
    ("in", .string "body"), ("schema", .object [("$ref", .string "#/list")])]])])])]

def listDocument : Document where
  fields := [("swagger", .string "2.0"), ("paths", .object listPaths), ("list", listSchema)]
  paths := listPaths
  versioned := .inr rfl
  paths_eq := rfl

def listText : String :=
  "\x7b\"swagger\":\"2.0\",\"paths\":\x7b\"/lists\":\x7b\"put\":\x7b\"parameters\":[" ++
  "\x7b\"in\":\"body\",\"schema\":\x7b\"$ref\":\"#/list\"\x7d\x7d]\x7d\x7d\x7d," ++
  "\"list\":\x7b\"type\":\"array\",\"items\":\x7b\"$ref\":\"#/list\"\x7d\x7d\x7d"

set_option maxRecDepth 2000 in
theorem read_listText : Document.read listText none = .ok listDocument := by
  have parsed : Json.read? listText = some listDocument.root := by
    unfold Json.read?
    have characters : listText.toList = _ :=
      String.toList_append.trans (congrArg₂ (· ++ ·)
        (String.toList_append.trans (congrArg₂ (· ++ ·) String.toList_ofList String.toList_ofList))
        String.toList_ofList)
    rw [characters]
    with_unfolding_all rfl
  exact Document.read_of_json parsed

theorem lookup_list : Pointer.lookup? listDocument.root "#/list" = some listSchema := by
  unfold Pointer.lookup? Pointer.segments?
  rw [show String.toList "#/list" = _ from String.toList_ofList]
  with_unfolding_all rfl

theorem listDocument_sound : ∀ pointer ∈ Reference.pointers listDocument.root,
    (Pointer.lookup? listDocument.root pointer).isSome ∧ ¬ Loops listDocument.root pointer := by
  have known : ∀ pointer ∈ Reference.pointers listDocument.root, pointer = "#/list" := by
    decide
  intro pointer member
  cases known pointer member
  refine ⟨by rw [lookup_list]; rfl, ?_⟩
  intro loops
  obtain ⟨next, hop, _⟩ := Relation.TransGen.head'_iff.mp loops
  rw [Reference.Hop, lookup_list] at hop
  contradiction

theorem compile_listText :
    (∀ count, Settings.default.count count ≠ 0) ∧
      Document.read listText none = .ok listDocument ∧
      ∃ plan, compile listText none .default ⟨2024, fun _ => 0⟩ = .ok plan :=
  ⟨Settings.default_positive, read_listText,
    (compile_reference_errors Settings.default_positive read_listText).2.2.1 listDocument_sound⟩

end LoadPlan
