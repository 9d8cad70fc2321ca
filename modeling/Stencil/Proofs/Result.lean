/-!
# Results and faults

What is known of a computation that has a result, or a fault.

* `Except.eq_ok_of_toOption`, `Except.exists_eq_ok`: from a result that is evaluated.
* `Except.exists_of_map`, `Except.exists_of_mapError_bind`: to the results before it.
-/

namespace Stencil

variable {ε δ α β : Type} {x : Except ε α}

/-! ## Results that are evaluated -/

theorem Except.eq_ok_of_toOption {a : α} (h : x.toOption = some a) : x = .ok a := by
  cases x with
  | error e => cases h
  | ok b => exact congrArg Except.ok (Option.some.inj h)

/-- What holds of the result, and that there is one, are told apart: the result itself, such as a
search, may be nothing that can be compared. -/
theorem Except.exists_eq_ok {P : α → Prop} (hOk : x.isOk = true) (h : ∀ a ∈ x.toOption, P a) :
    ∃ a, x = .ok a ∧ P a := by
  cases x with
  | error e => cases hOk
  | ok a => exact ⟨a, rfl, h a rfl⟩

/-! ## Results of results -/

theorem Except.exists_of_map {f : α → β} {b : β} (h : x.map f = .ok b) :
    ∃ a, x = .ok a ∧ f a = b := by
  cases x with
  | error e => cases h
  | ok a => exact ⟨a, rfl, Except.ok.inj h⟩

theorem Except.exists_of_mapError_bind {f : ε → δ} {k : α → Except δ β} {b : β}
    (h : (x.mapError f >>= k) = .ok b) : ∃ a, x = .ok a ∧ k a = .ok b := by
  cases x with
  | error e => cases h
  | ok a => exact ⟨a, rfl, h⟩

end Stencil
