import Mathlib.Logic.Basic

/-!
# Computations that may fault

A C function returns, or it stops in a fault: it reads through a null pointer,
or one of its loops never ends. `Except ε` carries the two outcomes, and the
state of the program is passed explicitly.

The lemmas here take such computations apart. A sequence returns exactly when
its first part returns and its second part returns from there (`bind_eq_ok`),
and a Boolean test of an outcome exhibits the state it was made in
(`exists_of_passes`).
-/

set_option autoImplicit false

namespace Machine

universe u v

variable {ε : Type u} {α β : Type v}

@[simp] theorem ok_bind (a : α) (f : α → Except ε β) : (Except.ok a >>= f) = f a := rfl

@[simp] theorem error_bind (e : ε) (f : α → Except ε β) :
    (Except.error e >>= f) = .error e := rfl

@[simp] theorem pure_eq_ok (a : α) : (pure a : Except ε α) = .ok a := rfl

/-- **A sequence returns exactly when both of its parts return.** -/
theorem bind_eq_ok {x : Except ε α} {f : α → Except ε β} {b : β} :
    (x >>= f) = .ok b ↔ ∃ a, x = .ok a ∧ f a = .ok b := by
  cases x with
  | error e => simp
  | ok a => simp

/-- A sequence whose second part always returns does so when its first part does. -/
theorem bind_returns_iff {x : Except ε α} {f : α → β} :
    (∃ b, (x >>= fun a => .ok (f a)) = .ok b) ↔ ∃ a, x = .ok a := by
  constructor
  · rintro ⟨b, returns⟩
    obtain ⟨a, given, -⟩ := bind_eq_ok.mp returns
    exact ⟨a, given⟩
  · rintro ⟨a, given⟩
    exact ⟨f a, bind_eq_ok.mpr ⟨a, given, rfl⟩⟩

/-- Whether a computation returns, with a result that passes the test. -/
def passes (test : α → Bool) : Except ε α → Bool
  | .ok a => test a
  | .error _ => false

/-- A passed test exhibits the result. -/
theorem exists_of_passes {test : α → Bool} {x : Except ε α} (passed : passes test x = true) :
    ∃ a, x = .ok a ∧ test a = true := by
  cases x with
  | error e => cases passed
  | ok a => exact ⟨a, rfl, passed⟩

/-- The fault that a computation stops in, if it does. -/
def fault : Except ε α → Option ε
  | .ok _ => none
  | .error e => some e

theorem fault_eq_some {x : Except ε α} {e : ε} : fault x = some e ↔ x = .error e := by
  cases x <;> simp [fault]

/-- The result of a computation, if it returns. -/
def outcome (otherwise : α) : Except ε α → α
  | .ok a => a
  | .error _ => otherwise

theorem eq_outcome {test : α → Bool} {x : Except ε α} (otherwise : α)
    (passed : passes test x = true) :
    x = .ok (outcome otherwise x) ∧ test (outcome otherwise x) = true := by
  cases x with
  | error e => cases passed
  | ok a => exact ⟨rfl, passed⟩

end Machine
