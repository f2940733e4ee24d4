import LoadPlan.Plan.Request
import LoadPlan.Proofs.Result
import Mathlib.Data.List.Forall2

/-! Requests as they are planned, one after another. Each is made for its own operation, with what
those before it leave, until one cannot be made. -/
namespace LoadPlan.Request
open Sample (Chance Counters)

section
variable {chance : Chance} {root : Json} {op : Operation} {ops : List Operation} {c d : Counters}

theorem ofOperations_error (failed : ofOperation chance root op c = (.error e, d)) :
    ofOperations chance root (op :: ops) c = (.error e, d) := by
  rw [ofOperations, failed]

theorem ofOperations_ok (planned : ofOperation chance root op c = (.ok request, d)) :
    ofOperations chance root (op :: ops) c =
      (ofOperations chance root ops d).map (request :: ·) := by
  rw [ofOperations, planned]

theorem ofOperations_single (chance : Chance) (root : Json) (op : Operation) (c : Counters) :
    ofOperations chance root [op] c = (ofOperation chance root op c).map ([·]) := by
  rw [ofOperations]
  rcases ofOperation chance root op c with ⟨_ | request, d⟩ <;> rfl

/-- The method and the schema decide apart whether a body is asked for. -/
theorem bodySchema?_isSome (op : Operation) :
    (bodySchema? op).isSome = (op.method.carriesBody && op.body.isSome) := by
  rw [bodySchema?]
  cases op.method.carriesBody <;> rfl

theorem body_of_asked {body : BodySchema} (asked : bodySchema? op = some body) :
    op.body = some body := by
  unfold bodySchema? at asked
  split at asked
  · exact asked
  · cases asked

theorem ofOperation_body {body : BodySchema} {request : Request} (asked : bodySchema? op = some body)
    (sent : (ofOperation chance root op c).1 = .ok request) :
    ∃ value, (Sample.sampleBody chance root body c).1 = .ok value ∧
      request.body = some (Json.bodyText value) := by
  rw [ofOperation, asked] at sent
  obtain ⟨value, sampled, rfl⟩ := Result.map_ok sent
  exact ⟨value, sampled, rfl⟩

/-- A request carries a body exactly if one is asked for. -/
theorem ofOperation_ok {request : Request} (sent : (ofOperation chance root op c).1 = .ok request) :
    request.operation = op ∧ (request.body.isSome ↔ (bodySchema? op).isSome) := by
  cases asked : bodySchema? op with
  | none =>
    rw [ofOperation, asked] at sent
    cases sent
    exact ⟨rfl, Iff.rfl⟩
  | some body =>
    rw [ofOperation, asked] at sent
    obtain ⟨value, sampled, rfl⟩ := Result.map_ok sent
    exact ⟨rfl, Iff.rfl⟩

/-- Where all can be planned, the first is, and then the others with what it leaves. -/
theorem ofOperations_cons_ok (sent : (ofOperations chance root (op :: ops) c).1 = .ok requests) :
    ∃ request d later, ofOperation chance root op c = (.ok request, d) ∧
      (ofOperations chance root ops d).1 = .ok later ∧ requests = request :: later := by
  rcases planned : ofOperation chance root op c with ⟨e | request, d⟩
  · rw [ofOperations_error planned] at sent
    cases sent
  · rw [ofOperations_ok planned] at sent
    obtain ⟨later, others, rfl⟩ := Result.map_ok sent
    exact ⟨request, d, later, rfl, others, rfl⟩

/-- Requests are planned one for each operation, each from what those before it leave. -/
theorem ofOperations_each (sent : (ofOperations chance root ops c).1 = .ok requests) :
    List.Forall₂ (fun op request => ∃ c, (ofOperation chance root op c).1 = .ok request)
      ops requests := by
  induction ops generalizing c requests with
  | nil =>
    cases sent
    exact .nil
  | cons op rest ih =>
    obtain ⟨request, d, later, planned, others, rfl⟩ := ofOperations_cons_ok sent
    exact .cons ⟨c, congrArg Prod.fst planned⟩ (ih others)

theorem ofOperations_length (sent : (ofOperations chance root ops c).1 = .ok requests) :
    requests.length = ops.length :=
  (ofOperations_each sent).length_eq.symm

/-- The request in a place is that for the operation there, after those before it. -/
theorem ofOperations_at {before after : List Operation}
    (sent : (ofOperations chance root (before ++ op :: after) c).1 = .ok requests) :
    ∃ request, requests[before.length]? = some request ∧
      (ofOperation chance root op (ofOperations chance root before c).2).1 = .ok request := by
  induction before generalizing c requests with
  | nil =>
    obtain ⟨request, d, later, planned, -, rfl⟩ := ofOperations_cons_ok sent
    exact ⟨request, rfl, congrArg Prod.fst planned⟩
  | cons first rest ih =>
    obtain ⟨request, d, later, planned, others, rfl⟩ := ofOperations_cons_ok sent
    rw [ofOperations_ok planned]
    exact ih others

end

end LoadPlan.Request
