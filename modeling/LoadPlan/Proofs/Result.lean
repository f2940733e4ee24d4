/-! Values of computations that can fail, traced back through the steps that gave them. -/
namespace LoadPlan.Result

theorem bind_ok {x : Except ε α} {f : α → Except ε β} (ended : x >>= f = .ok result) :
    ∃ value, x = .ok value ∧ f value = .ok result := by
  cases x with
  | error e => contradiction
  | ok value => exact ⟨value, rfl, ended⟩

theorem map_ok {x : Except ε α} {f : α → β} (ended : x.map f = .ok result) :
    ∃ value, x = .ok value ∧ f value = result := by
  cases x with
  | error e => contradiction
  | ok value => exact ⟨value, rfl, Except.ok.inj ended⟩

theorem mapError_ok {x : Except ε α} {f : ε → δ} (ended : x.mapError f = .ok result) :
    x = .ok result := by
  cases x with
  | error e => contradiction
  | ok value => exact congrArg Except.ok (Except.ok.inj ended)

end LoadPlan.Result
