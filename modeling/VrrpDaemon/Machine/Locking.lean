import Mathlib.Data.List.Induction

/-!
# Lock discipline in a log

A thread logs what it does, and each event acquires a lock, releases it, needs it
or has nothing to do with it. `held` is whether the thread holds the lock after
its events. The log is disciplined when every event met the lock as it should:
free to acquire it, and held to release it or to do what it guards.

Appending an event appends one condition (`disciplined_snoc`).
-/

set_option autoImplicit false

namespace Machine

/-- What an event has to do with the lock. -/
inductive LockUse where
  | acquire
  | release
  | guarded
  | neutral
  deriving DecidableEq

namespace LockUse

/-- The event may happen while the lock is held or free. -/
def Permitted : Bool → LockUse → Prop
  | isHeld, .acquire => isHeld = false
  | isHeld, .release | isHeld, .guarded => isHeld = true
  | _, .neutral => True

/-- Whether the lock is held after the event. -/
def after (isHeld : Bool) : LockUse → Bool
  | .acquire => true
  | .release => false
  | .guarded | .neutral => isHeld

end LockUse

universe u

variable {E : Type u} (use : E → LockUse) {log : List E} {event : E}

/-- The thread holds the lock after its events. -/
def held (log : List E) : Bool := log.foldl (fun isHeld event => (use event).after isHeld) false

/-- Every event met the lock as it should. -/
def Disciplined (log : List E) : Prop :=
  ∀ before event behind, log = before ++ event :: behind →
    (use event).Permitted (held use before)

@[simp] theorem held_nil : held use ([] : List E) = false := rfl

@[simp] theorem held_snoc : held use (log ++ [event]) = (use event).after (held use log) := by
  simp [held]

theorem disciplined_nil : Disciplined use ([] : List E) := by
  intro before event behind split
  simp at split

/-- **An event more** must meet the lock as it should. -/
theorem disciplined_snoc : Disciplined use (log ++ [event]) ↔
    Disciplined use log ∧ (use event).Permitted (held use log) := by
  constructor
  · intro disciplined
    refine ⟨fun before e behind split => ?_, disciplined log event [] rfl⟩
    refine disciplined before e (behind ++ [event]) ?_
    rw [split, List.append_assoc, List.cons_append]
  · rintro ⟨disciplined, permitted⟩ before e behind split
    rcases List.eq_nil_or_concat behind with rfl | ⟨middle, last, rfl⟩
    · obtain ⟨rfl, same⟩ := List.append_inj' split rfl
      cases same
      exact permitted
    · rw [List.concat_eq_append, ← List.cons_append, ← List.append_assoc] at split
      obtain ⟨same, -⟩ := List.append_inj' split rfl
      exact disciplined before e middle same

/-- **Logs one after the other**: after a log that leaves the lock free, the next one
counts as if it were the first. -/
theorem disciplined_append {first : List E} (disciplined : Disciplined use first)
    (free : held use first = false) (log : List E) :
    (Disciplined use (first ++ log) ↔ Disciplined use log) ∧
      held use (first ++ log) = held use log := by
  induction log using List.reverseRecOn with
  | nil =>
      rw [List.append_nil, free]
      exact ⟨iff_of_true disciplined (disciplined_nil use), rfl⟩
  | append_singleton log event ih =>
      rw [← List.append_assoc, disciplined_snoc, disciplined_snoc, held_snoc, held_snoc, ih.1, ih.2]
      exact ⟨Iff.rfl, rfl⟩

end Machine
