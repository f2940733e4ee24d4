import LoadPlan.Proofs.Document.Declaration
import LoadPlan.Proofs.Reference.Trail
import LoadPlan.Proofs.Yaml.Sound

/-! Documents are sound, in either encoding, and so is every schema of a request body that they
declare: it stands somewhere in the document, wherever markers lead. -/
namespace LoadPlan
open Json (Sound)

theorem Encoding.read?_sound {encoding : Encoding} (read : encoding.read? text = some value) :
    value.Sound := by
  cases encoding with
  | json => exact Json.read?_sound read
  | yaml => exact Yaml.readJson?_sound read

theorem Document.read_sound {d : Document} (read : Document.read text hint = .ok d) :
    d.root.Sound := by
  obtain ⟨value, parsed, shaped⟩ := Result.bind_ok read
  have sound : value.Sound := by
    dsimp only [readJson] at parsed
    split at parsed <;> cases parsed
    rename_i found
    cases first : (hint.getD .json).read? text with
    | some parsed =>
      rw [first] at found
      cases found
      exact Encoding.read?_sound first
    | none =>
      rw [first] at found
      exact Encoding.read?_sound found
  unfold ofJson at shaped
  split at shaped
  · unfold ofFields at shaped
    split at shaped
    · split at shaped <;> cases shaped
      exact sound
    · cases shaped
  · cases shaped

namespace Reference

theorem Trail.sound {root start node : Json} (trail : Trail root path start via node)
    (whole : Sound root) (before : Sound start) : Sound node := by
  cases trail with
  | start => exact before
  | hop _ _ _ found => exact whole.lookup? found

theorem target_sound {root node last : Json} (whole : Sound root) (before : Sound node)
    (ends : target root node = .ok last) : Sound last := by
  obtain ⟨⟨found, via⟩, resolved, rfl⟩ := Result.map_ok ends
  unfold resolve at resolved
  split at resolved <;> cases resolved
  rename_i followed
  exact (follow_literal followed).1.sound whole before

end Reference

namespace Operation

theorem contentSchema?_sound {body schema : Json} (sound : Sound body)
    (found : contentSchema? body = some schema) : Sound schema := by
  obtain ⟨media, has, last⟩ := Option.bind_eq_some_iff.mp found
  obtain ⟨content, first, middle⟩ := Option.bind_eq_some_iff.mp has
  exact ((sound.get? first).get? middle).get? last

section
variable {root declared : Json} (whole : Sound root)
include whole

theorem parameterSchema_sound {parameters : List Json}
    (each : ∀ parameter ∈ parameters, Sound parameter)
    (found : parameterSchema root parameters = .ok (some schema)) : Sound schema := by
  induction parameters with
  | nil => cases found
  | cons first rest ih =>
    rw [parameterSchema] at found
    cases resolved : Reference.target root first with
    | error e => simp [resolved] at found
    | ok parameter =>
      have sound := Reference.target_sound whole (each first List.mem_cons_self) resolved
      simp only [resolved] at found
      split at found
      · rename_i chosen
        cases found
        split at chosen
        · exact sound.get? chosen
        · cases chosen
      · exact ih (fun parameter member => each parameter (List.mem_cons_of_mem _ member)) found

theorem schemaNode_sound (sound : Sound declared)
    (found : schemaNode root declared = .ok (some schema)) : Sound schema := by
  unfold schemaNode at found
  split at found
  · rename_i body asked
    obtain ⟨node, resolved, chosen⟩ := Result.map_ok found
    exact contentSchema?_sound (Reference.target_sound whole (sound.get? asked) resolved) chosen
  · refine parameterSchema_sound whole (fun parameter member => ?_) found
    cases listed : (declared.get? "parameters").bind Json.items? with
    | none => simp [listed] at member
    | some items =>
      rw [listed, Option.getD_some] at member
      obtain ⟨node, here, array⟩ := Option.bind_eq_some_iff.mp listed
      cases node with
      | array =>
        cases array
        exact (sound.get? here).item member
      | null | bool | int | float | string | object => cases array

theorem requestBody_sound {body : BodySchema} (sound : Sound declared)
    (found : requestBody root declared = .ok (some body)) : Sound body.schema := by
  unfold requestBody at found
  split at found
  · cases found
  · cases found
  · rename_i node located
    obtain ⟨schema, read, same⟩ := Result.map_ok found
    cases same
    obtain ⟨resolution, ends, rfl⟩ := Result.map_ok read
    cases resolution with
    | literal schema via =>
      exact (Reference.follow_literal ends).1.sound whole (schemaNode_sound whole sound located)
    | cycle pointer => exact .null

end

end Operation

namespace Declaration

theorem ofField?_mapping {path : String} {declared : Declaration}
    (declares : ofField? path field = some declared) : field.2 = declared.mapping := by
  obtain ⟨key, node⟩ := field
  cases node with
  | object fields =>
    simp only [ofField?] at declares
    split at declares <;> cases declares
    rfl
  | null | bool | int | float | string | array => cases declares

theorem ofPathItem_sound {root : Json} {declared : Declaration} {item : String × Json}
    (whole : Sound root) (sound : Sound item.2) (member : declared ∈ ofPathItem root item) : declared.mapping.Sound := by
  obtain ⟨path, node⟩ := item
  obtain ⟨field, inside, declares⟩ := List.mem_filterMap.mp member
  rw [← ofField?_mapping declares]
  unfold itemFields at inside
  split at inside
  · rename_i target resolved
    have sound := Reference.target_sound whole sound resolved
    cases target with
    | object fields => exact sound.field inside
    | null | bool | int | float | string | array => cases inside
  · cases inside

end Declaration

/-- The schemas of request bodies are sound in a sound document. -/
theorem Document.bodies_sound {d : Document} {ops : List Operation} {body : BodySchema}
    (whole : d.root.Sound) (extracted : d.operations = .ok ops) (member : op ∈ ops)
    (bodied : op.body = some body) : body.schema.Sound := by
  obtain ⟨declared, listed, described⟩ := Document.operation_described extracted member
  obtain ⟨entry, among, inside⟩ := List.mem_flatMap.mp listed
  have paths : Sound (.object d.paths) := whole.field (Reference.mem_of_lookup d.paths_eq)
  have sound := Declaration.ofPathItem_sound whole (paths.field among) inside
  exact Operation.requestBody_sound whole sound (bodied ▸ described.body)

end LoadPlan
