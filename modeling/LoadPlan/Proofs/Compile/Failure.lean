import LoadPlan.Proofs.Compile.Stages
import LoadPlan.Proofs.Plan.Requests
import LoadPlan.Proofs.Sample.Failure

/-! Where compilation fails: at a count, in reading the document, or in its operations. These fail as they
are read, or as a body is sampled for one of them, be it the last. -/
namespace LoadPlan
open Reference (follow)
open Relation (ReflTransGen)
open Sample (Calls Chance Counters Frame)

namespace Request
variable {chance : Chance} {root : Json} {op : Operation} {c d : Counters}

theorem ofOperations_eq_inTurn (ops : List Operation) (c : Counters) :
    ofOperations chance root ops c = Sample.inTurn (ofOperation chance root) ops c := by
  induction ops generalizing c with
  | nil => rfl
  | cons op rest ih =>
    rcases planned : ofOperation chance root op c with ⟨cause | request, d⟩
    · rw [ofOperations_error planned, Sample.inTurn_cons_error planned]
    · rw [ofOperations_ok planned, Sample.inTurn_cons_ok planned, ih]

/-- Requests fail with the first of them that does, after those before it. -/
theorem ofOperations_eq_error {ops : List Operation} :
    ofOperations chance root ops c = (.error e, d) ↔
      ∃ before op after earlier d', ops = before ++ op :: after ∧
        ofOperations chance root before c = (.ok earlier, d') ∧
        ofOperation chance root op d' = (.error e, d) := by
  simp only [ofOperations_eq_inTurn, Sample.inTurn_eq_error]

/-- A request fails as the sample of its body does. -/
theorem ofOperation_eq_error :
    ofOperation chance root op c = (.error e, d) ↔
      ∃ body, bodySchema? op = some body ∧
        (Frame.ofBody body c).sample chance root = (.error e, d) := by
  unfold ofOperation
  cases asked : bodySchema? op with
  | none => simp
  | some body =>
    simp only [Option.some.injEq, exists_eq_left', Sample.Outcome.map_eq_error]
    rfl

end Request

/-- A document has no requests if an operation cannot be read, or if a call below the body of one, at any
depth and after all requests before it, comes to a broken chain of markers. -/
inductive Document.Fails (chance : Chance) (d : Document) (e : ReferenceError) : Prop where
  | extraction (failed : d.operations = .error e)
  | synthesis (extracted : d.operations = .ok (before ++ op :: after))
      (done : Request.ofOperations chance d.root before .start = (.ok earlier, c))
      (asked : Request.bodySchema? op = some body)
      (calls : ReflTransGen (Calls chance d.root) (.ofBody body c) deep)
      (broken : follow d.root deep.path deep.node = .error e)

theorem Document.requests_eq_error {d : Document} {chance : Chance} :
    d.requests chance = .error e ↔ d.Fails chance e := by
  unfold Document.requests
  constructor
  · intro failed
    cases extracted : d.operations with
    | error cause =>
      rw [extracted] at failed
      cases failed
      exact .extraction extracted
    | ok ops =>
      rw [extracted] at failed
      have planned : Request.ofOperations chance d.root ops .start =
          (.error e, (Request.ofOperations chance d.root ops .start).2) := Prod.ext failed rfl
      obtain ⟨before, op, after, earlier, c, rfl, done, failed⟩ :=
        Request.ofOperations_eq_error.mp planned
      obtain ⟨body, asked, sampled⟩ := Request.ofOperation_eq_error.mp failed
      obtain ⟨deep, calls, broken, -⟩ := Frame.sample_error_iff.mp sampled
      exact .synthesis extracted done asked calls broken
  · rintro (failed | ⟨extracted, done, asked, calls, broken⟩)
    · rw [failed]
      rfl
    · have sampled := Frame.sample_error_iff.mpr ⟨_, calls, broken, rfl⟩
      have failed := Request.ofOperation_eq_error.mpr ⟨_, asked, sampled⟩
      rw [extracted]
      exact congrArg Prod.fst
        (Request.ofOperations_eq_error.mpr ⟨_, _, _, _, _, rfl, done, failed⟩)

/-- A text compiles exactly if every stage is passed, and then to the plan for all of its operations. -/
theorem compile_eq_ok {chance : Chance} :
    compile text hint s chance = .ok out ↔
      (∀ count, s.count count ≠ 0) ∧ ∃ d requests, Document.read text hint = .ok d ∧
        d.requests chance = .ok requests ∧
        out = (Plan.testPlan (s.withDeclaredUrl d) requests).document := by
  constructor
  · intro compiled
    obtain ⟨valid, passed, -⟩ := Result.bind_ok compiled
    obtain ⟨d, _, read, planned, rfl⟩ := compile_ok compiled
    obtain ⟨requests, requested, rfl⟩ := Result.map_ok planned
    exact ⟨(Settings.checked_ok passed).2, d, requests, read, requested, rfl⟩
  · rintro ⟨positive, d, requests, read, requested, rfl⟩
    rw [compile_eq positive read, Document.testPlan, requested]
    rfl

/-- A text that does not compile is stopped by one of the stages. -/
theorem compile_stopped {chance : Chance} (failed : compile text hint s chance = .error e) :
    (∃ count, s.count count = 0) ∨ (∃ cause, Document.read text hint = .error cause) ∨
      ∃ d cause, Document.read text hint = .ok d ∧ d.Fails chance cause := by
  by_cases zero : ∃ count, s.count count = 0
  · exact .inl zero
  cases read : Document.read text hint with
  | error cause => exact .inr (.inl ⟨cause, rfl⟩)
  | ok d =>
    cases requested : d.requests chance with
    | error cause => exact .inr (.inr ⟨d, cause, rfl, Document.requests_eq_error.mp requested⟩)
    | ok requests =>
      have positive : ∀ count, s.count count ≠ 0 := fun count none => zero ⟨count, none⟩
      cases failed.symm.trans (compile_eq_ok.mpr ⟨positive, d, requests, read, requested, rfl⟩)

end LoadPlan
