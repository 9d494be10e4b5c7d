import VrrpDaemon.Machine.Faults
import Mathlib.Data.List.Induction

/-!
# Runs of a machine

A machine has one step function, from an operation and a state to the next
state or to a fault. A run is a finite list of operations, each of which
returns. A guard restricts the operations a run may take, by the state it
takes them in.

`Run.invariant` is the induction behind every result on reachable states: what
holds at the start and is preserved by each guarded step holds at the end of
each guarded run. A history keeps the operations of the run in view, each with
the states around it; `History.stays` is about what became true on the way.
-/

set_option autoImplicit false

namespace Machine

universe u v w

variable {ε : Type u} {σ : Type v} {ι : Type w}

/-- A run of the machine from a state: every operation meets the guard in the
state it is taken in, and returns. -/
inductive Run (step : ι → σ → Except ε σ) (guard : σ → ι → Prop) (start : σ) :
    List ι → σ → Prop where
  | nil : Run step guard start [] start
  | snoc {ops : List ι} {s s' : σ} {op : ι} (before : Run step guard start ops s)
      (allowed : guard s op) (returns : step op s = .ok s') :
      Run step guard start (ops ++ [op]) s'

/-- No restriction on the operations. -/
def unguarded (_ : σ) (_ : ι) : Prop := True

variable {step : ι → σ → Except ε σ} {guard : σ → ι → Prop} {start : σ}

/-- A run under a stronger guard is a run. -/
theorem Run.mono {weaker : σ → ι → Prop} (implies : ∀ s op, guard s op → weaker s op)
    {ops : List ι} {s : σ} (run : Run step guard start ops s) : Run step weaker start ops s := by
  induction run with
  | nil => exact .nil
  | snoc _ allowed returns ih => exact .snoc ih (implies _ _ allowed) returns

/-- A guarded run is a run. -/
theorem Run.forget {ops : List ι} {s : σ} (run : Run step guard start ops s) :
    Run step unguarded start ops s :=
  run.mono fun _ _ _ => trivial

/-- **What guarded steps preserve holds after every guarded run.** -/
theorem Run.invariant (property : σ → Prop) (initially : property start)
    (preserved : ∀ s op s', property s → guard s op → step op s = .ok s' → property s')
    {ops : List ι} {s : σ} (run : Run step guard start ops s) : property s := by
  induction run with
  | nil => exact initially
  | snoc _ allowed returns ih => exact preserved _ _ _ ih allowed returns

/-- The operations of a run in order, each with the state it was taken in and
the state it returned. -/
inductive History (step : ι → σ → Except ε σ) (guard : σ → ι → Prop) (start : σ) :
    List (σ × ι × σ) → σ → Prop where
  | nil : History step guard start [] start
  | snoc {past : List (σ × ι × σ)} {s s' : σ} {op : ι} (before : History step guard start past s)
      (allowed : guard s op) (returns : step op s = .ok s') :
      History step guard start (past ++ [(s, op, s')]) s'

/-- Every run has a history. -/
theorem Run.history {ops : List ι} {s : σ} (run : Run step guard start ops s) :
    ∃ past, History step guard start past s ∧ past.map (fun entry => entry.2.1) = ops := by
  induction run with
  | nil => exact ⟨[], .nil, rfl⟩
  | snoc _ allowed returns ih =>
      obtain ⟨past, history, same⟩ := ih
      exact ⟨_, .snoc history allowed returns, by simp [same]⟩

/-- A history is a run of its operations. -/
theorem History.guarded {past : List (σ × ι × σ)} {s : σ}
    (history : History step guard start past s) :
    Run step guard start (past.map fun entry => entry.2.1) s := by
  induction history with
  | nil => exact .nil
  | snoc _ allowed returns ih => simpa using Run.snoc ih allowed returns

section Entries

variable (kept : σ → Prop) (initially : kept start)
  (preserved : ∀ s op s', kept s → guard s op → step op s = .ok s' → kept s')
include initially preserved

theorem History.invariant {past : List (σ × ι × σ)} {s : σ}
    (history : History step guard start past s) : kept s :=
  history.guarded.invariant kept initially preserved

/-- What an entry of a history says. -/
theorem History.entry {past : List (σ × ι × σ)} {s : σ}
    (history : History step guard start past s) {s₁ s₂ : σ} {op : ι}
    (member : (s₁, op, s₂) ∈ past) : kept s₁ ∧ guard s₁ op ∧ step op s₁ = .ok s₂ := by
  induction history with
  | nil => cases member
  | snoc before allowed returns ih =>
      rcases List.mem_append.mp member with old | new
      · exact ih old
      · cases List.mem_singleton.mp new
        exact ⟨before.invariant kept initially preserved, allowed, returns⟩

/-- **What became true stays true**, when the steps keep it. -/
theorem History.stays {past : List (σ × ι × σ)} {s : σ}
    (history : History step guard start past s) (property : σ → Prop)
    (stable : ∀ s op s', kept s → guard s op → step op s = .ok s' →
      property s → property s') {s₁ s₂ : σ} {op : ι} (member : (s₁, op, s₂) ∈ past)
    (became : property s₂) : property s := by
  induction history with
  | nil => cases member
  | snoc before allowed returns ih =>
      rcases List.mem_append.mp member with old | new
      · exact stable _ _ _ (before.invariant kept initially preserved) allowed returns
          (ih old)
      · cases List.mem_singleton.mp new
        exact became

end Entries

/-! ## The last entry that tells something -/

/-- The last entry of a list that tells anything tells this. -/
def Last {α : Type u} {β : Type v} (tells : α → β → Prop) (past : List α) (b : β) : Prop :=
  ∃ front a back, past = front ++ a :: back ∧ tells a b ∧ ∀ later ∈ back, ∀ other, ¬ tells later other

theorem Last.now {α : Type u} {β : Type v} {tells : α → β → Prop} {a : α} {b : β} (past : List α)
    (told : tells a b) : Last tells (past ++ [a]) b :=
  ⟨past, a, [], rfl, told, nofun⟩

theorem Last.still {α : Type u} {β : Type v} {tells : α → β → Prop} {past : List α} {a : α} {b : β}
    (last : Last tells past b) (silent : ∀ other, ¬ tells a other) : Last tells (past ++ [a]) b := by
  obtain ⟨front, entry, back, rfl, told, silentBack⟩ := last
  refine ⟨front, entry, back ++ [a], by simp, told, fun later member => ?_⟩
  rcases List.mem_append.mp member with old | new
  · exact silentBack later old
  · rw [List.mem_singleton.mp new]
    exact silent

/-! ## Running lists of operations -/

/-- Run a list of operations. -/
def exec (step : ι → σ → Except ε σ) : List ι → σ → Except ε σ
  | [], s => .ok s
  | op :: ops, s => step op s >>= exec step ops

theorem exec_append (first second : List ι) (s : σ) :
    exec step (first ++ second) s = exec step first s >>= exec step second := by
  induction first generalizing s with
  | nil => rfl
  | cons op ops ih =>
      simp only [List.cons_append, exec]
      cases step op s with
      | error e => rfl
      | ok s' => exact ih s'

/-- **A list of operations that returns is a run.** -/
theorem run_of_exec {ops : List ι} {s : σ} (returns : exec step ops start = .ok s) :
    Run step unguarded start ops s := by
  induction ops using List.reverseRecOn generalizing s with
  | nil =>
      cases returns
      exact .nil
  | append_singleton ops op ih =>
      rw [exec_append] at returns
      obtain ⟨middle, first, last⟩ := bind_eq_ok.mp returns
      obtain ⟨_, stepped, stops⟩ := bind_eq_ok.mp last
      cases stops
      exact .snoc (ih first) trivial stepped

/-- Run a list of operations, each only in a state that allows it. -/
def execWhere (allows : σ → ι → Bool) (step : ι → σ → Except ε σ) : List ι → σ → Option σ
  | [], s => some s
  | op :: ops, s =>
      if allows s op then
        match step op s with
        | .ok s' => execWhere allows step ops s'
        | .error _ => none
      else none

/-- **A list of operations that is allowed and returns has a history.** -/
theorem history_of_execWhere {allows : σ → ι → Bool}
    (sound : ∀ s op, allows s op = true → guard s op) {ops : List ι} {s s' : σ}
    {past : List (σ × ι × σ)} (history : History step guard start past s)
    (ran : execWhere allows step ops s = some s') :
    ∃ past', History step guard start past' s' := by
  induction ops generalizing s past with
  | nil =>
      cases ran
      exact ⟨past, history⟩
  | cons op ops ih =>
      rw [execWhere] at ran
      split at ran
      · rename_i allowed
        cases stepped : step op s with
        | error e => simp [stepped] at ran
        | ok middle =>
            simp only [stepped] at ran
            exact ih (history.snoc (sound s op allowed) stepped) ran
      · cases ran

end Machine
