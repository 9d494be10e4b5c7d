import Mathlib.Data.List.Basic

/-!
# Traces and simulations

A machine with outputs takes an input in a state and gives an output and the next state; more
than one may be possible. A trace is the inputs and outputs of a run.

A relation between the states of two machines is a simulation when the second machine can
follow every step of the first one with the same input and output. Then it can follow every
trace (`Simulation.trace`). Where the second machine leaves no choice for some inputs, two
machines that it follows cannot be told apart by these inputs (`Simulation.same_outputs`).
-/

set_option autoImplicit false

namespace Machine

universe u v w x y

variable {σ : Type u} {τ : Type v} {ι : Type w} {ο : Type x}

/-- The steps of a machine with outputs. -/
abbrev Steps (σ : Type u) (ι : Type w) (ο : Type x) : Type (max u w x) := σ → ι → ο → σ → Prop

/-- The inputs and outputs of a run. -/
inductive Trace (step : Steps σ ι ο) (start : σ) : List (ι × ο) → σ → Prop where
  | nil : Trace step start [] start
  | snoc {trace : List (ι × ο)} {s s' : σ} {input : ι} {output : ο}
      (before : Trace step start trace s) (taken : step s input output s') :
      Trace step start (trace ++ [(input, output)]) s'

/-- The second machine follows every step of the first one. -/
def Simulation (concrete : Steps σ ι ο) (abstract : Steps τ ι ο) (related : σ → τ → Prop) : Prop :=
  ∀ s t input output s', related s t → concrete s input output s' →
    ∃ t', abstract t input output t' ∧ related s' t'

variable {concrete : Steps σ ι ο} {abstract : Steps τ ι ο} {related : σ → τ → Prop}

/-- **A simulation follows traces.** -/
theorem Simulation.trace (simulation : Simulation concrete abstract related) {start s : σ} {t₀ : τ}
    (initially : related start t₀) {trace : List (ι × ο)} (run : Trace concrete start trace s) :
    ∃ t, Trace abstract t₀ trace t ∧ related s t := by
  induction run with
  | nil => exact ⟨t₀, .nil, initially⟩
  | snoc _ taken ih =>
      obtain ⟨t, followed, same⟩ := ih
      obtain ⟨t', step, same'⟩ := simulation _ t _ _ _ same taken
      exact ⟨t', .snoc followed step, same'⟩

/-- The machine leaves no choice for an input. -/
def Settled (step : Steps τ ι ο) (input : ι) : Prop :=
  ∀ t output output' t₁ t₂, step t input output t₁ → step t input output' t₂ →
    output = output' ∧ t₁ = t₂

/-- A machine answers inputs that leave no choice in one way. -/
theorem Trace.unique {t₀ t₁ t₂ : τ} {trace trace' : List (ι × ο)} (run : Trace abstract t₀ trace t₁)
    (other : Trace abstract t₀ trace' t₂) (inputs : trace.map Prod.fst = trace'.map Prod.fst)
    (settled : ∀ input ∈ trace.map Prod.fst, Settled abstract input) :
    trace = trace' ∧ t₁ = t₂ := by
  induction run generalizing trace' t₂ with
  | nil =>
      cases other with
      | nil => exact ⟨rfl, rfl⟩
      | snoc => simp at inputs
  | snoc _ taken ih =>
      cases other with
      | nil => simp at inputs
      | snoc before' taken' =>
          rw [List.map_append, List.map_append] at inputs
          obtain ⟨earlier, last⟩ := List.append_inj' inputs rfl
          cases List.singleton_inj.mp last
          rw [List.map_append] at settled
          obtain ⟨rfl, rfl⟩ := ih before' earlier fun input member =>
            settled input (List.mem_append_left _ member)
          obtain ⟨rfl, rfl⟩ := settled _ (List.mem_append_right _ List.mem_cons_self) _ _ _ _ _
            taken taken'
          exact ⟨rfl, rfl⟩

/-- **Machines that are followed by one machine give the same outputs**, for inputs that leave
it no choice. -/
theorem Simulation.same_outputs {σ' : Type y} {concrete' : Steps σ' ι ο} {related' : σ' → τ → Prop}
    (simulation : Simulation concrete abstract related)
    (simulation' : Simulation concrete' abstract related') {s₀ s : σ} {s₀' s' : σ'} {t₀ : τ}
    (initially : related s₀ t₀) (initially' : related' s₀' t₀) {trace trace' : List (ι × ο)}
    (run : Trace concrete s₀ trace s) (run' : Trace concrete' s₀' trace' s')
    (inputs : trace.map Prod.fst = trace'.map Prod.fst)
    (settled : ∀ input ∈ trace.map Prod.fst, Settled abstract input) :
    trace = trace' ∧ ∃ t, related s t ∧ related' s' t := by
  obtain ⟨t, followed, same⟩ := simulation.trace initially run
  obtain ⟨t', followed', same'⟩ := simulation'.trace initially' run'
  obtain ⟨traces, rfl⟩ := followed.unique followed' inputs settled
  exact ⟨traces, t, same, same'⟩

/-! ## Answering lists of inputs -/

section Answers

variable {ε : Type y} {answer : ι → σ → Except ε (ο × σ)}

/-- The steps of a machine that is given as a function. -/
def stepsOf (answer : ι → σ → Except ε (ο × σ)) : Steps σ ι ο := fun s input output s' =>
  answer input s = .ok (output, s')

/-- Answer a list of inputs. -/
def answers (answer : ι → σ → Except ε (ο × σ)) : List ι → σ → Except ε (List (ι × ο) × σ)
  | [], s => .ok ([], s)
  | input :: later, s =>
      match answer input s with
      | .error e => .error e
      | .ok (output, s₁) =>
          match answers answer later s₁ with
          | .error e => .error e
          | .ok (rest, s₂) => .ok ((input, output) :: rest, s₂)

/-- **A list of inputs that is answered is a trace.** -/
theorem Trace.of_answers {start s s' : σ} {past rest : List (ι × ο)} {inputs : List ι}
    (before : Trace (stepsOf answer) start past s)
    (answered : answers answer inputs s = .ok (rest, s')) :
    Trace (stepsOf answer) start (past ++ rest) s' := by
  induction inputs generalizing s past rest with
  | nil =>
      cases answered
      rw [List.append_nil]
      exact before
  | cons input inputs ih =>
      rw [answers] at answered
      split at answered
      · cases answered
      · rename_i output s₁ taken
        split at answered
        · cases answered
        · rename_i later s₂ followed
          cases answered
          rw [List.append_cons]
          exact ih (before.snoc taken) followed

end Answers

end Machine
