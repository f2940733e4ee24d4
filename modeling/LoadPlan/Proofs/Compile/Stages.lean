import LoadPlan.Compile
import LoadPlan.Proofs.Result

/-! The stages of compilation: settings are checked, the document is read, and its test plan is built
and written. -/
namespace LoadPlan

namespace Settings
variable {s : Settings}

theorem zeroCount?_eq_none : s.zeroCount? = none ↔ ∀ count, s.count count ≠ 0 := by
  have all : ∀ count, count ∈ Count.all := by
    intro count
    cases count <;> decide
  simp [zeroCount?, List.find?_eq_none, all]

theorem checked_ok (passed : s.checked = .ok valid) :
    valid = s ∧ ∀ count, s.count count ≠ 0 := by
  unfold checked at passed
  split at passed
  · contradiction
  · rename_i none
    exact ⟨(Except.ok.inj passed).symm, zeroCount?_eq_none.mp none⟩

theorem default_positive : ∀ count, Settings.default.count count ≠ 0 := by
  intro count
  cases count <;> decide

end Settings

theorem compile_zeroCount (zero : s.zeroCount? = some count) :
    compile text hint s chance = .error (.zeroCount count) := by
  simp only [compile, Settings.checked, zero]
  rfl

theorem compile_unread (positive : ∀ count, s.count count ≠ 0)
    (unread : Document.read text hint = .error e) :
    compile text hint s chance = .error (.document e) := by
  simp only [compile, Settings.checked, Settings.zeroCount?_eq_none.mpr positive, unread]
  rfl

/-- With positive counts and a document, only building the test plan is left. -/
theorem compile_eq (positive : ∀ count, s.count count ≠ 0) (read : Document.read text hint = .ok d) :
    compile text hint s chance =
      ((d.testPlan s chance).map Xml.Element.document).mapError .reference := by
  simp only [compile, Settings.checked, Settings.zeroCount?_eq_none.mpr positive, read]
  change ((d.testPlan s chance).mapError CompileError.reference >>= fun plan => .ok plan.document) = _
  cases d.testPlan s chance <;> rfl

/-- A text that compiles was read to a document, and its test plan is what is written. -/
theorem compile_ok (compiled : compile text hint s chance = .ok out) :
    ∃ d plan, Document.read text hint = .ok d ∧ d.testPlan s chance = .ok plan ∧
      out = plan.document := by
  obtain ⟨valid, passed, reading⟩ := Result.bind_ok compiled
  obtain ⟨d, read, planning⟩ := Result.bind_ok reading
  obtain ⟨plan, planned, writing⟩ := Result.bind_ok planning
  obtain ⟨rfl, -⟩ := Settings.checked_ok passed
  exact ⟨d, plan, Result.mapError_ok read, Result.mapError_ok planned, (Except.ok.inj writing).symm⟩

end LoadPlan
