import LoadPlan.Operation
import LoadPlan.Proofs.Result
import Mathlib.Data.List.Basic
import Mathlib.Data.List.Forall2

/-! Operations as a document declares them, read off its paths by keys and values alone. Extraction
turns each declaration into one operation, in the same order. -/
namespace LoadPlan

namespace Method

theorem toUpper_name (method : Method) : method.name.toUpper = method.name := by
  rw [← String.toList_inj, String.toUpper, String.toList_map]
  cases method <;> rfl

theorem sameLetters_name (method : Method) (key : String) :
    sameLetters method.name key = (method.name == key.toUpper) := by
  rw [Bool.eq_iff_iff, beq_iff_eq, sameLetters, beq_iff_eq, ← String.toList_map, ← String.toList_map,
    String.toList_inj]
  exact Eq.congr_left method.toUpper_name

theorem ofKey?_eq_some_iff {key : String} {method : Method} :
    ofKey? key = some method ↔ method.name = key.toUpper := by
  simp only [ofKey?, sameLetters_name]
  constructor
  · intro named
    have same := List.find?_some named
    exact beq_iff_eq.mp same
  · intro named
    rw [← named]
    cases method <;> rfl

end Method

/-- A field of a path item that declares an operation. -/
structure Declaration where
  path : String
  key : String
  fields : List (String × Json)

namespace Declaration

def mapping (declared : Declaration) : Json := .object declared.fields

/-- The key in upper case names the method. -/
def methodName (declared : Declaration) : String := declared.key.toUpper

def methodNames : List String := ["GET", "POST", "PUT", "DELETE", "PATCH", "HEAD", "OPTIONS"]

/-- Identifier and summary, those of them that are there. -/
def givenNames (declared : Declaration) : List String :=
  (Operation.textField? declared.mapping "operationId").toList ++
    (Operation.textField? declared.mapping "summary").toList

/-- The first given name that is not blank, or else the method and the path. -/
def displayName (declared : Declaration) : String :=
  (declared.givenNames.find? (!Text.allBlank ·)).getD (declared.methodName ++ " " ++ declared.path)

/-- A field of a path item declares an operation if its key names a method and it has a mapping. -/
def ofField? (path : String) : String × Json → Option Declaration
  | (key, .object fields) => if key.toUpper ∈ methodNames then some ⟨path, key, fields⟩ else none
  | _ => none

/-- The fields of the path item that a node leads to, which may be a reference marker. -/
def itemFields (root item : Json) : List (String × Json) :=
  match Reference.target root item with
  | .ok node => node.fields?.getD []
  | .error _ => []

def ofPathItem (root : Json) : String × Json → List Declaration
  | (path, item) => (itemFields root item).filterMap (ofField? path)

/-- A JSON schema for the body is declared by the request body, or else by a parameter. -/
def HasJsonSchema (root : Json) (declared : Declaration) : Prop :=
  match declared.mapping.get? "requestBody" with
  | some body => ∃ node, Reference.target root body = .ok node ∧ (Operation.contentSchema? node).isSome
  | none => ∃ parameter ∈ ((declared.mapping.get? "parameters").bind Json.items?).getD [],
      ∃ node, Reference.target root parameter = .ok node ∧ Operation.inBody node ∧
        (node.get? "schema").isSome

/-- An operation is the one declared, with the request body that its mapping asks for. -/
structure Describes (root : Json) (declared : Declaration) (op : Operation) : Prop where
  path : op.path = declared.path
  method : op.method.name = declared.methodName
  displayName : op.displayName = declared.displayName
  body : Operation.requestBody root declared.mapping = .ok op.body

section
variable {root mapping : Json} {path key : String}

theorem mem_methodNames : key.toUpper ∈ methodNames ↔ (Method.ofKey? key).isSome := by
  have names : methodNames = Method.all.map Method.name := rfl
  rw [names, List.mem_map, Option.isSome_iff_exists]
  constructor
  · rintro ⟨method, -, named⟩
    exact ⟨method, Method.ofKey?_eq_some_iff.mpr named⟩
  · rintro ⟨method, named⟩
    exact ⟨method, by cases method <;> decide, Method.ofKey?_eq_some_iff.mp named⟩

theorem parameterSchema_isSome {parameters : List Json} {found : Option Json}
    (read : Operation.parameterSchema root parameters = .ok found) :
    found.isSome ↔ ∃ parameter ∈ parameters, ∃ node, Reference.target root parameter = .ok node ∧
      Operation.inBody node ∧ (node.get? "schema").isSome := by
  induction parameters with
  | nil => cases read; simp
  | cons first rest ih =>
    rw [Operation.parameterSchema] at read
    cases resolved : Reference.target root first with
    | error e => simp [resolved] at read
    | ok node =>
      simp only [resolved, List.exists_mem_cons_iff, Except.ok.injEq, exists_eq_left'] at read ⊢
      split at read
      · rename_i schema chosen
        cases read
        split at chosen
        · rename_i carried
          simp [carried, chosen]
        · contradiction
      · rename_i none
        rw [ih read]
        split at none
        · simp [none]
        · rename_i elsewhere
          simp [elsewhere]

theorem requestBody_isSome {declared : Declaration} {body : Option BodySchema}
    (read : Operation.requestBody root declared.mapping = .ok body) :
    body.isSome ↔ HasJsonSchema root declared := by
  have node? : ∃ found, Operation.schemaNode root declared.mapping = .ok found ∧
      body.isSome = found.isSome := by
    unfold Operation.requestBody at read
    split at read
    · contradiction
    · rename_i absent
      cases read
      exact ⟨none, absent, rfl⟩
    · rename_i node found
      obtain ⟨schema, -, rfl⟩ := Result.map_ok read
      exact ⟨some node, found, rfl⟩
  obtain ⟨found, located, same⟩ := node?
  rw [same]
  unfold Operation.schemaNode at located
  cases asked : declared.mapping.get? "requestBody" with
  | some request =>
    simp only [asked] at located
    obtain ⟨node, resolved, rfl⟩ := Result.map_ok located
    simp [HasJsonSchema, asked, resolved]
  | none =>
    simp only [asked] at located
    rw [HasJsonSchema, asked]
    exact parameterSchema_isSome located

theorem find?_givenNames (declared : Declaration) :
    declared.givenNames.find? (!Text.allBlank ·) =
      ((Operation.textField? declared.mapping "operationId").filter (!Text.allBlank ·)).or
        ((Operation.textField? declared.mapping "summary").filter (!Text.allBlank ·)) := by
  rw [givenNames, List.find?_append]
  cases Operation.textField? declared.mapping "operationId" <;>
    cases Operation.textField? declared.mapping "summary" <;> simp [Option.filter]

theorem displayName_eq (method : Method) (body : Option BodySchema) (fields : List (String × Json))
    (named : method.name = key.toUpper) :
    (⟨path, method, Operation.textField? (.object fields) "operationId",
      Operation.textField? (.object fields) "summary", tags, body⟩ : Operation).displayName =
        displayName ⟨path, key, fields⟩ := by
  rw [displayName, find?_givenNames, Operation.displayName]
  simp only [named, mapping, methodName]
  generalize Option.or _ _ = given
  cases given <;> rfl

theorem ofField_describes {found : Option Operation}
    (read : Operation.ofField root path key mapping = .ok found) :
    List.Forall₂ (Describes root) (ofField? path (key, mapping)).toList found.toList := by
  cases named : Method.ofKey? key with
  | none =>
    simp only [Operation.ofField, named, Except.ok.injEq] at read
    have silent : ofField? path (key, mapping) = none := by
      cases mapping <;> simp [ofField?, mem_methodNames, named]
    rw [silent, ← read]
    exact .nil
  | some method =>
    cases mapping with
    | null | bool | int | float | string | array =>
      simp only [Operation.ofField, named, Except.ok.injEq] at read
      cases read
      exact .nil
    | object fields =>
      simp only [Operation.ofField, named] at read
      obtain ⟨body, asked, rfl⟩ := Result.map_ok read
      have upper := Method.ofKey?_eq_some_iff.mp named
      have declares : ofField? path (key, .object fields) = some ⟨path, key, fields⟩ := by
        simp [ofField?, mem_methodNames, named]
      rw [declares]
      exact .cons ⟨rfl, upper, displayName_eq method body fields upper, asked⟩ .nil

theorem ofFields_describes {fields : List (String × Json)} {ops : List Operation}
    (read : Operation.ofFields root path fields = .ok ops) :
    List.Forall₂ (Describes root) (fields.filterMap (ofField? path)) ops := by
  induction fields generalizing ops with
  | nil => cases read; exact .nil
  | cons field rest ih =>
    obtain ⟨key, mapping⟩ := field
    rw [Operation.ofFields] at read
    obtain ⟨found, first, read⟩ := Result.bind_ok read
    obtain ⟨others, later, read⟩ := Result.bind_ok read
    cases read
    rw [List.filterMap_eq_flatMap_toList, List.flatMap_cons, ← List.filterMap_eq_flatMap_toList]
    exact List.rel_append (ofField_describes first) (ih later)

theorem ofPathItem_describes {item : Json} {ops : List Operation}
    (read : Operation.ofPathItem root path item = .ok ops) :
    List.Forall₂ (Describes root) (ofPathItem root (path, item)) ops := by
  obtain ⟨node, resolved, read⟩ := Result.bind_ok read
  simp only [ofPathItem, itemFields, resolved]
  exact ofFields_describes read

theorem ofPaths_describes {paths : List (String × Json)} {ops : List Operation}
    (read : Operation.ofPaths root paths = .ok ops) :
    List.Forall₂ (Describes root) (paths.flatMap (ofPathItem root)) ops := by
  induction paths generalizing ops with
  | nil => cases read; exact .nil
  | cons entry rest ih =>
    obtain ⟨here, first, read⟩ := Result.bind_ok read
    obtain ⟨others, later, read⟩ := Result.bind_ok read
    cases read
    exact List.rel_append (ofPathItem_describes first) (ih later)

/-- Operations are there only if all path items could be resolved. -/
theorem ofPaths_resolved {paths : List (String × Json)} {ops : List Operation}
    (read : Operation.ofPaths root paths = .ok ops) :
    ∀ entry ∈ paths, ∃ node, Reference.target root entry.2 = .ok node := by
  induction paths generalizing ops with
  | nil => exact fun _ => (nomatch ·)
  | cons entry rest ih =>
    obtain ⟨here, first, read⟩ := Result.bind_ok read
    obtain ⟨others, later, -⟩ := Result.bind_ok read
    obtain ⟨node, resolved, -⟩ := Result.bind_ok first
    exact List.forall_mem_cons.mpr ⟨⟨node, resolved⟩, ih later⟩

end

end Declaration

namespace Document

/-- The operations that the document declares, in its order. -/
def declarations (d : Document) : List Declaration := d.paths.flatMap (Declaration.ofPathItem d.root)

theorem operations_describes {d : Document} (read : d.operations = .ok ops) :
    List.Forall₂ (Declaration.Describes d.root) d.declarations ops :=
  Declaration.ofPaths_describes read

theorem operation_described {d : Document} (read : d.operations = .ok ops) (member : op ∈ ops) :
    ∃ declared ∈ d.declarations, declared.Describes d.root op := by
  obtain ⟨i, rfl⟩ := List.get_of_mem member
  obtain ⟨same, each⟩ := List.forall₂_iff_get.mp (operations_describes read)
  have within : i < d.declarations.length := by
    rw [same]
    exact i.isLt
  exact ⟨d.declarations.get ⟨i, within⟩, List.get_mem _ _, each i within i.isLt⟩

end Document
end LoadPlan
