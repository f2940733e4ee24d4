import LoadPlan.Proofs.Compile.Stages
import LoadPlan.Proofs.Plan.Requests
import LoadPlan.Proofs.Sample.Randomness

/-! Compilation with other random words. It ends in the same error, or in test plans whose requests
send bodies of one structure, and in one text where no integer is drawn. -/
namespace LoadPlan
open Sample (Chance InStep Paired)

namespace Request
section
variable (chance chance' : Chance) (root : Json)

/-- The requests that two runs plan for an operation: both without a body, or both with the text of a
sample for its body schema, which differ at most in what is drawn. -/
inductive Alike : Request → Request → Prop where
  | bare : bodySchema? op = none → Alike ⟨op, none⟩ ⟨op, none⟩
  | sent {body : BodySchema} : bodySchema? op = some body →
      (Sample.sampleBody chance root body c).1 = .ok value →
      (Sample.sampleBody chance' root body c').1 = .ok value' →
      Sample.Alike root body.via none body.schema value value' →
      Alike ⟨op, some (Json.bodyText value)⟩ ⟨op, some (Json.bodyText value')⟩

/-- No integer is drawn for the body of an operation. -/
def Settled (op : Operation) : Prop :=
  ∀ body, bodySchema? op = some body → ¬ Sample.Draws root body.via none body.schema

end

section
variable {chance chance' : Chance} {root : Json}

theorem Alike.eq (alike : Alike chance chance' root first second)
    (settled : Settled root first.operation) : first = second := by
  cases alike with
  | bare => rfl
  | sent asked _ _ alike => rw [alike.eq (settled _ asked)]

/-- The operations of planned requests are those asked for, and the bodies are alike. -/
def Planned (chance chance' : Chance) (root : Json) (ops : List Operation)
    (first second : List Request) : Prop :=
  first.map operation = ops ∧ List.Forall₂ (Alike chance chance' root) first second

theorem Planned.eq (planned : Planned chance chance' root ops first second)
    (settled : ∀ op ∈ ops, Settled root op) : first = second := by
  obtain ⟨rfl, alike⟩ := planned
  induction alike with
  | nil => rfl
  | cons here _ ih =>
    obtain ⟨now, later⟩ := List.forall_mem_cons.mp settled
    rw [here.eq now, ih later]

/-- What two runs plan for an operation: the operation is the one asked for. -/
def PlannedOne (chance chance' : Chance) (root : Json) (op : Operation)
    (first second : Request) : Prop :=
  first.operation = op ∧ Alike chance chance' root first second

theorem ofOperation_inStep (sameYear : chance'.year = chance.year) (op : Operation) :
    InStep (PlannedOne chance chance' root op) (ofOperation chance root op)
      (ofOperation chance' root op) := by
  intro c c' same
  unfold ofOperation
  cases asked : bodySchema? op with
  | none => exact ⟨.ok ⟨rfl, .bare asked⟩, same⟩
  | some body =>
    obtain ⟨paired, next⟩ := Sample.sample_inStep sameYear body.via none body.schema
      { c with nextId := 1 } { c' with nextId := 1 } rfl
    refine ⟨?_, next⟩
    dsimp only [Sample.Outcome.map]
    -- Both runs are kept as equations, since a request is alike for the samples of its run.
    generalize ran : (Sample.sampleBody chance root body c).1 = answer
    generalize ran' : (Sample.sampleBody chance' root body c').1 = answer'
    rw [Sample.sampleBody] at ran ran'
    rw [ran, ran'] at paired
    cases paired with
    | error e => exact .error e
    | ok alike => exact .ok ⟨rfl, .sent asked ran ran' alike⟩

theorem ofOperations_inStep (sameYear : chance'.year = chance.year) (ops : List Operation) :
    InStep (Planned chance chance' root ops) (ofOperations chance root ops)
      (ofOperations chance' root ops) := by
  induction ops with
  | nil => exact .pure (.ok ⟨rfl, .nil⟩)
  | cons op rest ih =>
    have first : InStep (PlannedOne chance chance' root op) (ofOperation chance root op)
        (ofOperation chance' root op) := ofOperation_inStep sameYear op
    have cons (chance : Chance) : ofOperations chance root (op :: rest) = fun c =>
        (ofOperation chance root op c).andThen fun request c =>
          (ofOperations chance root rest c).map (request :: ·) := by
      funext c
      rw [ofOperations]
      rcases ofOperation chance root op c with ⟨_ | request, d⟩ <;> rfl
    rw [cons, cons]
    refine first.andThen fun request request' planned => ih.map ?_
    obtain ⟨named, alike⟩ := planned
    rintro later later' ⟨rfl, others⟩
    exact ⟨by rw [List.map_cons, named], .cons alike others⟩

end
end Request

theorem Document.requests_paired (d : Document) (chance chance' : Chance)
    (sameYear : chance'.year = chance.year) (listed : d.operations = .ok ops) :
    Paired (Request.Planned chance chance' d.root ops) (d.requests chance) (d.requests chance') := by
  unfold Document.requests
  rw [listed]
  exact (Request.ofOperations_inStep sameYear ops .start .start rfl).1

/-- Random words decide nothing but the numbers of months and days: whatever they are, compilation
has the same error, or plans requests whose bodies differ at most there. -/
theorem compile_alike (text : String) (hint : Option Encoding) (s : Settings) (year : Int32)
    (words words' : Nat → UInt64) :
    (∃ e, compile text hint s ⟨year, words⟩ = .error e ∧
      compile text hint s ⟨year, words'⟩ = .error e) ∨
    ∃ d ops requests requests', Document.read text hint = .ok d ∧ d.operations = .ok ops ∧
      compile text hint s ⟨year, words⟩ =
        .ok (Plan.testPlan (s.withDeclaredUrl d) requests).document ∧
      compile text hint s ⟨year, words'⟩ =
        .ok (Plan.testPlan (s.withDeclaredUrl d) requests').document ∧
      requests.map Request.operation = ops ∧
      List.Forall₂ (Request.Alike ⟨year, words⟩ ⟨year, words'⟩ d.root) requests requests' ∧
      ((∀ op ∈ ops, Request.Settled d.root op) →
        compile text hint s ⟨year, words⟩ = compile text hint s ⟨year, words'⟩) := by
  cases zero : s.zeroCount? with
  | some count => exact .inl ⟨.zeroCount count, compile_zeroCount zero, compile_zeroCount zero⟩
  | none =>
    have positive := Settings.zeroCount?_eq_none.mp zero
    cases read : Document.read text hint with
    | error e =>
      exact .inl ⟨.document e, compile_unread positive read, compile_unread positive read⟩
    | ok d =>
      rw [compile_eq positive read, compile_eq positive read]
      cases listed : d.operations with
      | error e =>
        refine .inl ⟨.reference e, ?_, ?_⟩ <;>
          simp only [Document.testPlan, Document.requests, listed] <;> rfl
      | ok ops =>
        have paired := d.requests_paired ⟨year, words⟩ ⟨year, words'⟩ rfl listed
        unfold Document.testPlan
        generalize d.requests ⟨year, words⟩ = answer at paired ⊢
        generalize d.requests ⟨year, words'⟩ = answer' at paired ⊢
        cases paired with
        | error e => exact .inl ⟨.reference e, rfl, rfl⟩
        | @ok requests requests' planned =>
          exact .inr ⟨d, ops, requests, requests', rfl, listed, rfl, rfl, planned.1, planned.2,
            fun settled => by rw [planned.eq settled]⟩

end LoadPlan
