import LoadPlan.Proofs.Plan.Requests
import LoadPlan.Proofs.Sample.Cycle
import LoadPlan.Proofs.Sample.Session

/-! Bodies that are sampled one after another. Only the random words that were drawn are carried
from one to the next, so where none are drawn each operation gets what it would get alone. -/
namespace LoadPlan.Request
open Sample (Chance Counters Session sampleBody listMarker listBody listOperation)

/-- What is planned for an operation that is the only one. -/
def alone (chance : Chance) (root : Json) (op : Operation) : Except ReferenceError (List Request) :=
  (ofOperations chance root [op] .start).1

section
variable {chance chance' : Chance} {root : Json} {op : Operation} {ops : List Operation}
  {c c' : Counters}

theorem alone_eq (chance : Chance) (root : Json) (op : Operation) :
    alone chance root op = (ofOperation chance root op .start).1.map ([·]) := by
  rw [alone, ofOperations_single]
  rfl

theorem ofOperation_drawn_le (chance : Chance) (root : Json) (op : Operation) (c : Counters) :
    c.drawn ≤ (ofOperation chance root op c).2.drawn := by
  unfold ofOperation
  split
  · exact Sample.sampleBody_drawn_le chance root _ c
  · exact Nat.le_refl _

/-- A request for which nothing is drawn is the same after any other requests. -/
theorem ofOperation_agrees (sameYear : chance'.year = chance.year)
    (still : (ofOperation chance root op c).2.drawn = c.drawn) :
    (ofOperation chance' root op c').1 = (ofOperation chance root op c).1 ∧
      (ofOperation chance' root op c').2.drawn = c'.drawn := by
  unfold ofOperation at still ⊢
  split at still
  · rename_i body _
    have agrees := Sample.sampleBody_agrees sameYear body c c' still
    simp only [agrees, Sample.Outcome.map, and_self]
  · exact ⟨rfl, rfl⟩

theorem ofOperations_drawn_le (chance : Chance) (root : Json) (ops : List Operation)
    (c : Counters) : c.drawn ≤ (ofOperations chance root ops c).2.drawn := by
  induction ops generalizing c with
  | nil => exact Nat.le_refl _
  | cons op rest ih =>
    have first := ofOperation_drawn_le chance root op c
    rcases planned : ofOperation chance root op c with ⟨e | request, d⟩
    · rw [ofOperations_error planned]
      rwa [planned] at first
    · rw [ofOperations_ok planned]
      rw [planned] at first
      exact Nat.le_trans first (ih d)

/-- Nothing is drawn in all if nothing is drawn for each alone. -/
theorem ofOperations_still (sameYear : chance'.year = chance.year)
    (each : ∀ op ∈ ops, (ofOperations chance' root [op] .start).2.drawn = 0) (c : Counters) :
    (ofOperations chance root ops c).2.drawn = c.drawn := by
  induction ops generalizing c with
  | nil => rfl
  | cons op rest ih =>
    have still : (ofOperation chance' root op .start).2.drawn = 0 := by
      have single := each op List.mem_cons_self
      rwa [ofOperations_single] at single
    have first : (ofOperation chance root op c).2.drawn = c.drawn :=
      (ofOperation_agrees sameYear.symm still).2
    rcases planned : ofOperation chance root op c with ⟨e | request, d⟩
    · rw [ofOperations_error planned]
      rwa [planned] at first
    · rw [ofOperations_ok planned]
      rw [planned] at first
      have others := ih (fun op member => each op (List.mem_cons_of_mem _ member)) d
      exact others.trans first

/-- The first operation for which nothing can be planned, even alone, with those before it. -/
def FirstFailure (chance : Chance) (root : Json) (ops : List Operation) (e : ReferenceError) : Prop :=
  ∃ before op after, ops = before ++ op :: after ∧
    (∀ earlier ∈ before, ∃ request, alone chance root earlier = .ok [request]) ∧
    alone chance root op = .error e

theorem FirstFailure.later {request : Request} (planned : alone chance root op = .ok [request])
    (failure : FirstFailure chance root ops e) : FirstFailure chance root (op :: ops) e := by
  obtain ⟨before, failing, after, rfl, earlier, failed⟩ := failure
  refine ⟨op :: before, failing, after, rfl, ?_, failed⟩
  intro other member
  rcases List.mem_cons.mp member with rfl | member
  · exact ⟨request, planned⟩
  · exact earlier other member

theorem planned_mem
    (each : List.Forall₂ (fun op request => alone chance root op = .ok [request]) ops requests) :
    ∀ op ∈ ops, ∃ request, alone chance root op = .ok [request] := by
  induction each with
  | nil => exact fun _ member => (nomatch member)
  | cons first _ ih =>
    intro op member
    rcases List.mem_cons.mp member with rfl | member
    · exact ⟨_, first⟩
    · exact ih op member

theorem ofOperations_alone (sameYear : chance'.year = chance.year)
    (still : (ofOperations chance root ops c).2.drawn = c.drawn) :
    (∃ requests, (ofOperations chance root ops c).1 = .ok requests ∧
      List.Forall₂ (fun op request => alone chance' root op = .ok [request]) ops requests) ∨
    ∃ e, (ofOperations chance root ops c).1 = .error e ∧ FirstFailure chance' root ops e := by
  induction ops generalizing c with
  | nil => exact .inl ⟨[], rfl, .nil⟩
  | cons op rest ih =>
    have first := ofOperation_drawn_le chance root op c
    rcases planned : ofOperation chance root op c with ⟨e | request, d⟩
    · rw [ofOperations_error planned] at still ⊢
      have same : (ofOperation chance' root op .start).1 = .error e := by
        rw [(ofOperation_agrees sameYear (by rw [planned]; exact still)).1, planned]
      refine .inr ⟨e, rfl, [], op, rest, rfl, fun _ member => (nomatch member), ?_⟩
      rw [alone_eq, same]
      rfl
    · rw [ofOperations_ok planned] at still ⊢
      rw [planned] at first
      have onward : d.drawn ≤ (ofOperations chance root rest d).2.drawn :=
        ofOperations_drawn_le chance root rest d
      change c.drawn ≤ d.drawn at first
      change (ofOperations chance root rest d).2.drawn = c.drawn at still
      have unmoved : d.drawn = c.drawn := by omega
      have same : alone chance' root op = .ok [request] := by
        rw [alone_eq, (ofOperation_agrees sameYear (by rw [planned]; exact unmoved)).1, planned]
        rfl
      rcases ih (c := d) (by omega) with ⟨requests, others, each⟩ | ⟨e, others, failure⟩
      · exact .inl ⟨request :: requests, by rw [Sample.Outcome.map, others]; rfl, .cons same each⟩
      · exact .inr ⟨e, by rw [Sample.Outcome.map, others]; rfl, failure.later same⟩

end

/-- Nothing is left over from one call to the next but the count of random words: after any calls,
failed ones too, the path is empty, and a body for which nothing is drawn gets the answer of a fresh
session. So, if nothing is drawn, operations that are planned together come out as each one does
alone, up to the first that fails. -/
theorem bodies_apart (chance : Chance) (words : Nat → UInt64) (root : Json) :
    (∀ jobs, ∃ s, Session.fresh.performAll chance root jobs = some s ∧ s.path = [] ∧
      ∀ schema, ∃ answer after, s.perform chance root (.body schema) = some (answer, after) ∧
        after.path = [] ∧ (answer, after.counters) = sampleBody chance root schema s.counters ∧
        (after.counters.drawn = s.counters.drawn →
          ∃ later, Session.fresh.perform ⟨chance.year, words⟩ root (.body schema) =
            some (answer, later))) ∧
    ∀ ops,
      ((∀ op ∈ ops, (ofOperations ⟨chance.year, words⟩ root [op] .start).2.drawn = 0) →
        (ofOperations chance root ops .start).2.drawn = 0) ∧
      ((ofOperations chance root ops .start).2.drawn = 0 →
        ((∃ requests, (ofOperations chance root ops .start).1 = .ok requests) ↔
          ∀ op ∈ ops, ∃ request, alone ⟨chance.year, words⟩ root op = .ok [request]) ∧
        (∀ requests, (ofOperations chance root ops .start).1 = .ok requests →
          List.Forall₂ (fun op request => alone ⟨chance.year, words⟩ root op = .ok [request])
            ops requests) ∧
        ∀ e, (ofOperations chance root ops .start).1 = .error e →
          FirstFailure ⟨chance.year, words⟩ root ops e) := by
  have sameYear : (⟨chance.year, words⟩ : Chance).year = chance.year := rfl
  refine ⟨fun jobs => ?_, fun ops => ⟨fun each => ?_, fun still => ?_⟩⟩
  · obtain ⟨s, performed, clean⟩ := Session.performAll_path chance root jobs .fresh rfl
    refine ⟨s, performed, clean, fun schema => ⟨_, _, Session.perform_body s schema, rfl, rfl, ?_⟩⟩
    intro still
    have agrees := Sample.sampleBody_agrees sameYear schema s.counters .start still
    refine ⟨⟨⟨(sampleBody chance root schema s.counters).2.nextId, 0⟩, []⟩, ?_⟩
    rw [Session.perform_body, Session.fresh, agrees]
    rfl
  · exact ofOperations_still sameYear each .start
  · rcases ofOperations_alone sameYear still with ⟨requests, planned, each⟩ | ⟨e, failed, failure⟩
    · refine ⟨⟨fun _ op member => ?_, fun _ => ⟨requests, planned⟩⟩, ?_, ?_⟩
      · exact planned_mem each op member
      · rintro others again
        cases planned.symm.trans again
        exact each
      · intro e failed
        cases planned.symm.trans failed
    · refine ⟨⟨fun ⟨requests, planned⟩ => ?_, fun every => ?_⟩, ?_, ?_⟩
      · cases failed.symm.trans planned
      · obtain ⟨before, op, after, rfl, -, alone⟩ := failure
        obtain ⟨request, same⟩ := every op (List.mem_append_right _ List.mem_cons_self)
        cases alone.symm.trans same
      · intro requests planned
        cases failed.symm.trans planned
      · intro other again
        cases failed.symm.trans again
        exact failure

/-- A session that has seen a marker of a missing node, and has given away an identifier. -/
def usedJobs : List Session.Job :=
  [.node none (.object [("$ref", .string "#/missing")]),
    .node (some "id") (.object [("type", .string "integer")])]

theorem sampleBody_listBody (chance : Chance) (c : Counters) :
    sampleBody chance listDocument.root listBody c =
      (.ok (.array [.null]), { c with nextId := 1 }) := by
  have marker (c : Counters) :
      Sample.sample chance listDocument.root ["#/list"] none listMarker c = (.ok .null, c) := by
    rw [Sample.sample_follow, Reference.follow_seen rfl List.mem_cons_self]
    rfl
  rw [sampleBody, Sample.sample_literal chance rfl]
  change (Sample.sample _ _ ["#/list"] _ listMarker _).map _ = _
  rw [marker]
  rfl

def listRequest : Request := ⟨listOperation, some (Json.bodyText (.array [.null]))⟩

theorem ofOperation_list (chance : Chance) (c : Counters) :
    ofOperation chance listDocument.root listOperation c =
      (.ok listRequest, { c with nextId := 1 }) := by
  change (sampleBody chance listDocument.root listBody c).map _ = _
  rw [sampleBody_listBody]
  rfl

theorem lists_apart :
    ∃ s, Session.fresh.performAll ⟨2024, fun _ => 0⟩ listDocument.root usedJobs = some s ∧
      s.path = [] ∧
      (∃ later, Session.fresh.perform ⟨2024, fun _ => 1⟩ listDocument.root (.body listBody) =
        some (.ok (.array [.null]), later)) ∧
      ∃ requests, (ofOperations ⟨2024, fun _ => 0⟩ listDocument.root [listOperation, listOperation]
          .start).1 = .ok requests ∧
        List.Forall₂ (fun op request =>
            alone ⟨2024, fun _ => 1⟩ listDocument.root op = .ok [request])
          [listOperation, listOperation] requests := by
  obtain ⟨calls, plans⟩ := bodies_apart ⟨2024, fun _ => 0⟩ (fun _ => 1) listDocument.root
  obtain ⟨s, performed, clean, bodies⟩ := calls usedJobs
  obtain ⟨answer, after, -, -, same, fresh⟩ := bodies listBody
  rw [sampleBody_listBody] at same
  obtain ⟨rfl, counted⟩ := Prod.mk.inj same
  have planned : ofOperations ⟨2024, fun _ => 0⟩ listDocument.root [listOperation, listOperation]
      .start = (.ok [listRequest, listRequest], .start) := by
    rw [ofOperations_ok (ofOperation_list _ _), ofOperations_single, ofOperation_list]
    rfl
  have still : (ofOperations ⟨2024, fun _ => 0⟩ listDocument.root [listOperation, listOperation]
      .start).2.drawn = 0 := by
    rw [planned]
    rfl
  obtain ⟨-, each, -⟩ := (plans [listOperation, listOperation]).2 still
  exact ⟨s, performed, clean, fresh (by rw [counted]), _, by rw [planned], each _ (by rw [planned])⟩

end LoadPlan.Request
