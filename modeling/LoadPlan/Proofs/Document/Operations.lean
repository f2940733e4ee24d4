import LoadPlan.Proofs.Document.Sound
import LoadPlan.Proofs.Json.Equality
import LoadPlan.Proofs.Sample.Cycle
import Mathlib.Data.List.Nodup

/-! The operations of a document, counted by path and method. Each path item that an entry leads to
gives one operation for each of its fields that declares a method. Fields beside a reference marker
are none of the item's. -/
namespace LoadPlan

/-- A field declares the method if it has a mapping under its name, in any letter case. -/
def Method.isDeclaredBy (method : Method) : String × Json → Bool
  | (key, .object _) => method.name == key.toUpper
  | _ => false

def Operation.isFor (path : String) (method : Method) (op : Operation) : Bool :=
  op.path == path && op.method == method

namespace Declaration

def isFor (path : String) (method : Method) (declared : Declaration) : Bool :=
  declared.path == path && method.name == declared.methodName

variable {root item : Json} {path : String} {method : Method}

theorem name_injective {method other : Method} (same : method.name = other.name) :
    method = other := by
  cases method <;> cases other <;> first | rfl | exact absurd same (by decide)

theorem Describes.isFor_iff {declared : Declaration} {op : Operation}
    (described : Describes root declared op) :
    declared.isFor path method = true ↔ op.isFor path method = true := by
  simp only [isFor, Operation.isFor, Bool.and_eq_true, beq_iff_eq, ← described.path,
    ← described.method]
  exact and_congr_right' ⟨fun same => (name_injective same).symm, fun same => same ▸ rfl⟩

/-- A field that declares a method is a declaration under its own key. -/
theorem ofField?_isDeclaredBy (path : String) {field : String × Json}
    (declares : method.isDeclaredBy field) :
    ∃ fields, field.2 = .object fields ∧ ofField? path field = some ⟨path, field.1, fields⟩ := by
  obtain ⟨key, node⟩ := field
  cases node with
  | object fields =>
    have named : Method.ofKey? key = some method :=
      Method.ofKey?_eq_some_iff.mpr (beq_iff_eq.mp declares)
    exact ⟨fields, rfl, by simp [ofField?, mem_methodNames, named]⟩
  | null | bool | int | float | string | array => cases declares

theorem ofField?_isFor (field : String × Json) :
    (ofField? path field).toList.filter (isFor path method) =
      if method.isDeclaredBy field then (ofField? path field).toList else [] := by
  obtain ⟨key, node⟩ := field
  cases node with
  | object fields =>
    rw [ofField?]
    split
    · simp [List.filter_singleton, isFor, methodName, Method.isDeclaredBy]
    · simp
  | null | bool | int | float | string | array => rfl

theorem filter_filterMap (fields : List (String × Json)) :
    (fields.filterMap (ofField? path)).filter (isFor path method) =
      (fields.filter method.isDeclaredBy).filterMap (ofField? path) := by
  induction fields with
  | nil => rfl
  | cons field rest ih =>
    simp only [List.filterMap_eq_flatMap_toList, List.flatMap_cons, List.filter_append,
      ofField?_isFor] at ih ⊢
    rw [ih, List.filter_cons]
    split <;> simp

theorem path_of_mem {declared : Declaration} {entry : String × Json}
    (member : declared ∈ ofPathItem root entry) : declared.path = entry.1 := by
  obtain ⟨⟨key, node⟩, -, declares⟩ := List.mem_filterMap.mp member
  cases node with
  | object fields =>
    simp only [ofField?] at declares
    split at declares <;> cases declares
    rfl
  | null | bool | int | float | string | array => cases declares

/-- No other entry declares operations for the path. -/
theorem filter_ofPathItem {paths : List (String × Json)} (distinct : (paths.map Prod.fst).Nodup)
    (member : (path, item) ∈ paths) :
    (paths.flatMap (ofPathItem root)).filter (isFor path method) =
      ((itemFields root item).filter method.isDeclaredBy).filterMap (ofField? path) := by
  have foreign {others : List (String × Json)} (unlike : path ∉ others.map Prod.fst) :
      (others.flatMap (ofPathItem root)).filter (isFor path method) = [] := by
    refine List.filter_eq_nil_iff.mpr fun declared listed named => unlike ?_
    obtain ⟨entry, among, inside⟩ := List.mem_flatMap.mp listed
    have same : declared.path = path := beq_iff_eq.mp (Bool.and_eq_true_iff.mp named).1
    exact List.mem_map.mpr ⟨entry, among, (path_of_mem inside).symm.trans same⟩
  induction paths with
  | nil => contradiction
  | cons entry rest ih =>
    obtain ⟨new, others⟩ := List.nodup_cons.mp distinct
    rw [List.flatMap_cons, List.filter_append]
    rcases List.mem_cons.mp member with rfl | later
    · rw [foreign new, List.append_nil]
      exact filter_filterMap _
    · have unlike : path ∉ [entry].map Prod.fst := by
        intro here
        have same : path = entry.1 := List.mem_singleton.mp here
        exact new (List.mem_map.mpr ⟨_, later, same⟩)
      have none := foreign unlike
      rw [List.flatMap_cons, List.flatMap_nil, List.append_nil] at none
      rw [none, List.nil_append, ih others later]

end Declaration

namespace Document
variable {d : Document} {ops : List Operation}

/-- The operations for a path and method are those that the fields of its item declare. -/
theorem operations_for (distinct : (d.paths.map Prod.fst).Nodup) (extracted : d.operations = .ok ops)
    (member : (path, item) ∈ d.paths) (method : Method) :
    List.Forall₂ (fun field op => ∃ fields, field.2 = .object fields ∧
        Declaration.Describes d.root ⟨path, field.1, fields⟩ op)
      ((Declaration.itemFields d.root item).filter method.isDeclaredBy)
      (ops.filter (Operation.isFor path method)) := by
  have described : List.Forall₂ (Declaration.Describes d.root)
      (d.declarations.filter (Declaration.isFor path method))
      (ops.filter (Operation.isFor path method)) :=
    List.rel_filter (fun _ _ described => described.isFor_iff) (operations_describes extracted)
  rw [declarations, Declaration.filter_ofPathItem distinct member] at described
  have all : ∀ field ∈ (Declaration.itemFields d.root item).filter method.isDeclaredBy,
      method.isDeclaredBy field := fun field inside => (List.mem_filter.mp inside).2
  generalize (Declaration.itemFields d.root item).filter method.isDeclaredBy = declaring
    at described all
  generalize ops.filter (Operation.isFor path method) = found at described
  induction declaring generalizing found with
  | nil =>
    cases described
    exact .nil
  | cons field rest ih =>
    obtain ⟨fields, mapping, declares⟩ :=
      Declaration.ofField?_isDeclaredBy path (all field List.mem_cons_self)
    rw [List.filterMap_cons_some declares] at described
    cases described with
    | cons first others =>
      exact .cons ⟨fields, mapping, first⟩
        (ih (fun field inside => all field (List.mem_cons_of_mem _ inside)) _ others)

/-- Each operation stands under a path, in a field that declares its method. -/
theorem operation_declared (extracted : d.operations = .ok ops) (member : op ∈ ops) :
    ∃ entry ∈ d.paths, op.path = entry.1 ∧
      ∃ field ∈ Declaration.itemFields d.root entry.2, op.method.isDeclaredBy field := by
  obtain ⟨declared, listed, described⟩ := operation_described extracted member
  obtain ⟨entry, among, inside⟩ := List.mem_flatMap.mp listed
  refine ⟨entry, among, described.path.trans (Declaration.path_of_mem inside), ?_⟩
  obtain ⟨⟨key, node⟩, here, declares⟩ := List.mem_filterMap.mp inside
  refine ⟨(key, node), here, ?_⟩
  cases node with
  | object fields =>
    simp only [Declaration.ofField?] at declares
    split at declares <;> cases declares
    exact beq_iff_eq.mpr described.method
  | null | bool | int | float | string | array => cases declares

/-- Each declared operation is extracted once: for every entry of the paths and every method, an item
with one field that declares the method gives the one operation for them, which is the one declared
there, an item with any such field gives some, and one without gives none. No operation is for a path
or method that is not declared. The item is the entry's own mapping, or where a marker in its place
leads to. -/
theorem operations_declared_once (read : Document.read text hint = .ok d)
    (extracted : d.operations = .ok ops) :
    (∀ path item, (path, item) ∈ d.paths →
      ∃ node, Reference.target d.root item = .ok node ∧
        (Reference.pointer? item = none → node = item) ∧
        ∀ method : Method,
          (∀ field, (node.fields?.getD []).filter method.isDeclaredBy = [field] →
            ∃ op fields, ops.filter (Operation.isFor path method) = [op] ∧
              field.2 = .object fields ∧ Declaration.Describes d.root ⟨path, field.1, fields⟩ op) ∧
          ((∃ field ∈ node.fields?.getD [], method.isDeclaredBy field) ↔
            ∃ op ∈ ops, op.path = path ∧ op.method = method)) ∧
    ∀ op ∈ ops, ∃ item, (op.path, item) ∈ d.paths := by
  have paths : Json.Sound (.object d.paths) :=
    (Document.read_sound read).field (Reference.mem_of_lookup d.paths_eq)
  refine ⟨fun path item member => ?_, fun op member => ?_⟩
  · obtain ⟨node, resolved⟩ := Declaration.ofPaths_resolved extracted (path, item) member
    have fields : Declaration.itemFields d.root item = node.fields?.getD [] := by
      simp only [Declaration.itemFields, resolved]
    refine ⟨node, resolved, fun plain => ?_, fun method => ?_⟩
    · exact Except.ok.inj (resolved.symm.trans (Reference.target_plain plain))
    · have each := operations_for paths.keys extracted member method
      rw [fields] at each
      refine ⟨fun field single => ?_, ?_⟩
      · rw [single] at each
        generalize ops.filter (Operation.isFor path method) = found at each
        cases each with
        | cons first none =>
          cases none
          obtain ⟨fields, mapping, described⟩ := first
          exact ⟨_, fields, rfl, mapping, described⟩
      · have declared : (∃ field ∈ node.fields?.getD [], method.isDeclaredBy field) ↔
            (node.fields?.getD []).filter method.isDeclaredBy ≠ [] := by
          simp [List.filter_eq_nil_iff]
        have found : (∃ op ∈ ops, op.path = path ∧ op.method = method) ↔
            ops.filter (Operation.isFor path method) ≠ [] := by
          simp [List.filter_eq_nil_iff, Operation.isFor]
        rw [declared, found, ← List.length_pos_iff, ← List.length_pos_iff, each.length_eq]
  · obtain ⟨entry, among, same, -⟩ := operation_declared extracted member
    exact ⟨entry.2, same ▸ among⟩

theorem lists_declared_once :
    Document.read listText none = .ok listDocument ∧
      listDocument.operations = .ok [Sample.listOperation] ∧
      ∃ op, [Sample.listOperation].filter (Operation.isFor "/lists" .put) = [op] ∧
        op.path = "/lists" := by
  obtain ⟨each, -⟩ := operations_declared_once read_listText Sample.operations_listDocument
  obtain ⟨node, -, plain, methods⟩ := each "/lists" _ List.mem_cons_self
  cases plain rfl
  have declares (node : List (String × Json)) : Method.put.isDeclaredBy ("put", .object node) :=
    beq_iff_eq.mpr (Method.ofKey?_eq_some_iff.mp (show Method.ofKey? "put" = some .put from rfl))
  obtain ⟨op, fields, single, -, described⟩ :=
    (methods .put).1 _ (List.filter_eq_self.mpr (List.forall_mem_singleton.mpr (declares _)))
  exact ⟨read_listText, Sample.operations_listDocument, op, single, described.path⟩

/-- A path item that refers to a shared one, with a method of its own beside the reference. -/
def sharedItem : Json := .object [("$ref", .string "#/shared"), ("get", .object [])]

def sharedDocument : Document where
  fields := [("swagger", .string "2.0"), ("paths", .object [("/notes", sharedItem)]),
    ("shared", .object [("post", .object [])])]
  paths := [("/notes", sharedItem)]
  versioned := .inr rfl
  paths_eq := rfl

def sharedText : String :=
  "\x7b\"swagger\":\"2.0\",\"paths\":\x7b\"/notes\":\x7b\"$ref\":\"#/shared\"," ++
  "\"get\":\x7b\x7d\x7d\x7d,\"shared\":\x7b\"post\":\x7b\x7d\x7d\x7d"

def sharedOperation : Operation := ⟨"/notes", .post, none, none, [], none⟩

theorem read_sharedText : Document.read sharedText none = .ok sharedDocument := by
  have parsed : Json.read? sharedText = some sharedDocument.root := by decide +kernel
  exact Document.read_of_json parsed

theorem operations_sharedDocument : sharedDocument.operations = .ok [sharedOperation] := by
  have target : Reference.target sharedDocument.root sharedItem =
      .ok (.object [("post", .object [])]) := by
    have found : Pointer.lookup? sharedDocument.root "#/shared" =
        some (.object [("post", .object [])]) := by
      unfold Pointer.lookup? Pointer.segments?
      rw [show String.toList "#/shared" = _ from String.toList_ofList]
      with_unfolding_all rfl
    rw [Reference.target, Reference.resolve,
      Reference.follow_hop (show _ = some "#/shared" from rfl) (List.not_mem_nil) found rfl]
    rfl
  change Operation.ofPaths _ [_] = _
  rw [Operation.ofPaths, Operation.ofPathItem, target]
  rfl

/-- The method that stands beside the reference is declared by the entry's own mapping, and there is
no operation for it. -/
theorem sibling_of_reference_left_out :
    Document.read sharedText none = .ok sharedDocument ∧
      ("/notes", sharedItem) ∈ sharedDocument.paths ∧
      (∃ fields, sharedItem = .object fields ∧ fields.lookup "get" = some (.object [])) ∧
      sharedDocument.operations = .ok [sharedOperation] ∧
      [sharedOperation].filter (Operation.isFor "/notes" .get) = [] :=
  ⟨read_sharedText, List.mem_cons_self, ⟨_, rfl, rfl⟩, operations_sharedDocument, by decide⟩

end Document
end LoadPlan
