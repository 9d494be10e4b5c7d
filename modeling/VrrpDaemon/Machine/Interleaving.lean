import VrrpDaemon.Machine.Faults
import Mathlib.Logic.Relation

/-!
# Programs that are interrupted between their statements

A program is a sequence of statements. What comes next may depend on the state
in which the last statement was started, which covers both the tests and the
local variables of the program. Something else, such as a signal handler, may
run to completion between two statements.

`Interleave` is an execution of a program with any number of such events at any
of its points; an event is recorded with what was left of the program, and the
state it happened in. Without events it is the plain run (`interleave_nil`), and
with one event it stops at a point of the plain run and goes on from what the
event left behind (`interleave_single`).
-/

set_option autoImplicit false

namespace Machine

universe u

/-- A program, cut into statements. -/
inductive Prog (ε σ : Type u) : Type u where
  | done
  | act (statement : σ → Except ε σ) (next : σ → Prog ε σ)

namespace Prog

variable {ε σ ι : Type u}

/-- A statement that changes the state. -/
def change (f : σ → σ) (rest : Prog ε σ) : Prog ε σ := act (fun s => .ok (f s)) fun _ => rest

/-- A statement that may fault. -/
def attempt (f : σ → Except ε σ) (rest : Prog ε σ) : Prog ε σ := act f fun _ => rest

/-- A test, or a value that is read for later. -/
def look (next : σ → Prog ε σ) : Prog ε σ := act .ok next

/-- A value that is computed for later, which may fault. -/
def fetch {α : Type u} (read : σ → Except ε α) (next : α → Prog ε σ) : Prog ε σ :=
  act (fun s => read s >>= fun _ => .ok s) fun s =>
    match read s with
    | .ok a => next a
    | .error _ => done

/-- A call that changes the state and returns a value. -/
def invoke {α : Type u} (call : σ → Except ε (α × σ)) (next : α → Prog ε σ) : Prog ε σ :=
  act (fun s => call s >>= fun reply => .ok reply.2) fun s =>
    match call s with
    | .ok reply => next reply.1
    | .error _ => done

/-- The program without interruption. -/
def run : Prog ε σ → σ → Except ε σ
  | done, s => .ok s
  | act f next, s => f s >>= (next s).run

/-- The points of a run: what is left of the program, and the state. -/
inductive Reaches : Prog ε σ → σ → Prog ε σ → σ → Prop where
  | here {p : Prog ε σ} {s : σ} : Reaches p s p s
  | later {f : σ → Except ε σ} {next : σ → Prog ε σ} {s s' t : σ} {rest : Prog ε σ}
      (returns : f s = .ok s') (reaches : Reaches (next s) s' rest t) :
      Reaches (act f next) s rest t

/-- What an execution may arrive at when events happen at any of its points: what
is left of the program, and the state. -/
inductive Arrives (env : ι → σ → Except ε σ) : Prog ε σ → σ → Prog ε σ → σ → Prop where
  | here {p : Prog ε σ} {s : σ} : Arrives env p s p s
  | event {p rest : Prog ε σ} {s s' t : σ} {i : ι} (returns : env i s = .ok s')
      (later : Arrives env p s' rest t) : Arrives env p s rest t
  | later {f : σ → Except ε σ} {next : σ → Prog ε σ} {s s' t : σ} {rest : Prog ε σ}
      (returns : f s = .ok s') (arrives : Arrives env (next s) s' rest t) :
      Arrives env (act f next) s rest t

/-- An event at a point: what was left of the program, the state, and what
happened. -/
abbrev Moment (ε σ ι : Type u) : Type u := Prog ε σ × σ × ι

/-- Events at one point of the program, one after the other. -/
inductive Interrupts (env : ι → σ → Except ε σ) (p : Prog ε σ) :
    σ → List (Moment ε σ ι) → σ → Prop where
  | nil {s : σ} : Interrupts env p s [] s
  | cons {s s' t : σ} {i : ι} {trace : List (Moment ε σ ι)} (returns : env i s = .ok s')
      (later : Interrupts env p s' trace t) : Interrupts env p s ((p, s, i) :: trace) t

/-- An execution with events at any of the points, also at the first and the
last. -/
inductive Interleave (env : ι → σ → Except ε σ) :
    Prog ε σ → σ → List (Moment ε σ ι) → σ → Prop where
  | done {s t : σ} {trace : List (Moment ε σ ι)} (events : Interrupts env done s trace t) :
      Interleave env done s trace t
  | act {f : σ → Except ε σ} {next : σ → Prog ε σ} {s s₁ s₂ t : σ}
      {trace trace' : List (Moment ε σ ι)} (events : Interrupts env (act f next) s trace s₁)
      (returns : f s₁ = .ok s₂) (later : Interleave env (next s₁) s₂ trace' t) :
      Interleave env (act f next) s (trace ++ trace') t

variable {env : ι → σ → Except ε σ} {f : σ → Except ε σ} {next : σ → Prog ε σ}
  {p rest : Prog ε σ} {s s₁ t : σ}

-- rewritten with, and not by definition: a statement must not be run to compare two programs
@[simp] theorem run_done : (done : Prog ε σ).run s = .ok s := (rfl)

@[simp] theorem run_act : (act f next).run s = f s >>= (next s).run := (rfl)

@[simp] theorem run_change {g : σ → σ} : (change g rest).run s = rest.run (g s) := (rfl)

@[simp] theorem run_attempt : (attempt f rest).run s = f s >>= rest.run := (rfl)

@[simp] theorem run_look : (look next : Prog ε σ).run s = (next s).run s := (rfl)

@[simp] theorem run_fetch {α : Type u} {read : σ → Except ε α} {next : α → Prog ε σ} :
    (fetch read next).run s = read s >>= fun a => (next a).run s := by
  rw [fetch, run_act]
  cases read s <;> rfl

@[simp] theorem run_invoke {α : Type u} {call : σ → Except ε (α × σ)} {next : α → Prog ε σ} :
    (invoke call next).run s = call s >>= fun reply => (next reply.1).run reply.2 := by
  rw [invoke, run_act]
  cases call s <;> rfl

/-- The program next to something that it does not touch. -/
def beside {ρ : Type u} : Prog ε σ → Prog ε (σ × ρ)
  | done => done
  | act f next => act (fun t => f t.1 >>= fun s => .ok (s, t.2)) fun t => (next t.1).beside

/-- The point behind a number of statements. -/
def point : Nat → Prog ε σ → σ → Except ε (Prog ε σ × σ)
  | 0, p, s => .ok (p, s)
  | _, done, s => .ok (done, s)
  | n + 1, act f next, s => f s >>= point n (next s)

/-! ## Points of a run -/

theorem reaches_done : Reaches done s rest t ↔ rest = done ∧ t = s := by
  constructor
  · intro reaches
    cases reaches
    exact ⟨rfl, rfl⟩
  · rintro ⟨rfl, rfl⟩
    exact .here

/-- The points of a program: its start, and the points behind its first
statement. -/
theorem reaches_act : Reaches (act f next) s rest t ↔
    (rest = act f next ∧ t = s) ∨ ∃ s', f s = .ok s' ∧ Reaches (next s) s' rest t := by
  constructor
  · intro reaches
    cases reaches with
    | here => exact .inl ⟨rfl, rfl⟩
    | later returns reaches => exact .inr ⟨_, returns, reaches⟩
  · rintro (⟨rfl, rfl⟩ | ⟨s', returns, reaches⟩)
    · exact .here
    · exact .later returns reaches

/-- A run that returns ends at a point. -/
theorem reaches_of_run (returns : p.run s = .ok t) : Reaches p s done t := by
  induction p generalizing s with
  | done =>
      cases returns
      exact .here
  | act f next ih =>
      obtain ⟨s', stepped, returns⟩ := bind_eq_ok.mp (run_act ▸ returns)
      exact .later stepped (ih _ returns)

theorem reaches_of_point {n : Nat} (returns : p.point n s = .ok (rest, t)) :
    Reaches p s rest t := by
  induction n generalizing p s with
  | zero =>
      cases returns
      exact .here
  | succ n ih =>
      cases p with
      | done =>
          cases returns
          exact .here
      | act f next =>
          obtain ⟨s', stepped, returns⟩ := bind_eq_ok.mp returns
          exact .later stepped (ih returns)

/-- Without events an execution arrives at the points of the run. -/
theorem Reaches.arrives (reaches : Reaches p s rest t) : Arrives env p s rest t := by
  induction reaches with
  | here => exact .here
  | later returns _ ih => exact .later returns ih

/-! ## What a run returns -/

section Yields

variable {Q : σ → Prop}

/-- If the run returns, then in such a state. -/
def Yields (Q : σ → Prop) (p : Prog ε σ) (s : σ) : Prop := ∀ t, p.run s = .ok t → Q t

theorem yields_done : Yields Q (done : Prog ε σ) s ↔ Q s := by
  simp [Yields]

/-- A program that runs as a call and what is behind it. -/
theorem yields_of_run {x : Except ε σ} (runs : p.run s = x >>= rest.run) :
    Yields Q p s ↔ ∀ s', x = .ok s' → Yields Q rest s' := by
  constructor
  · intro yields s' returns t ran
    exact yields t (by rw [runs, returns, ok_bind, ran])
  · intro yields t ran
    obtain ⟨s', returns, ran⟩ := bind_eq_ok.mp (runs ▸ ran)
    exact yields s' returns t ran

theorem yields_act :
    Yields Q (act f next) s ↔ ∀ s', f s = .ok s' → Yields Q (next s) s' :=
  yields_of_run run_act

theorem yields_change {g : σ → σ} : Yields Q (change g rest) s ↔ Yields Q rest (g s) := by
  rw [change, yields_act]
  simp

theorem yields_look : Yields Q (look next) s ↔ Yields Q (next s) s := by
  rw [look, yields_act]
  simp

theorem yields_fetch {α : Type u} {read : σ → Except ε α} {next : α → Prog ε σ} :
    Yields Q (fetch read next) s ↔ ∀ a, read s = .ok a → Yields Q (next a) s := by
  rw [fetch, yields_act]
  cases read s <;> simp

theorem yields_invoke {α : Type u} {call : σ → Except ε (α × σ)} {next : α → Prog ε σ} :
    Yields Q (invoke call next) s ↔ ∀ a t, call s = .ok (a, t) → Yields Q (next a) t := by
  rw [invoke, yields_act]
  cases call s <;> simp [Prod.ext_iff]

end Yields

/-! ## What holds at every point -/

section Always

variable {P : Prog ε σ → σ → Prop}

/-- Something holds at every point of a run. -/
def Always (P : Prog ε σ → σ → Prop) (p : Prog ε σ) (s : σ) : Prop :=
  ∀ rest t, Reaches p s rest t → P rest t

theorem always_done : Always P done s ↔ P done s := by
  constructor
  · exact fun always => always _ _ .here
  · intro holds rest t reaches
    obtain ⟨rfl, rfl⟩ := reaches_done.mp reaches
    exact holds

theorem always_act : Always P (act f next) s ↔
    P (act f next) s ∧ ∀ s', f s = .ok s' → Always P (next s) s' := by
  constructor
  · intro always
    exact ⟨always _ _ .here, fun s' returns rest t reaches => always _ _ (.later returns reaches)⟩
  · rintro ⟨holds, later⟩ rest t reaches
    rcases reaches_act.mp reaches with ⟨rfl, rfl⟩ | ⟨s', returns, reaches⟩
    · exact holds
    · exact later s' returns rest t reaches

theorem always_change {g : σ → σ} {q : Prog ε σ} :
    Always P (change g q) s ↔ P (change g q) s ∧ Always P q (g s) := by
  rw [change, always_act]
  simp

theorem always_look : Always P (look next) s ↔ P (look next) s ∧ Always P (next s) s := by
  rw [look, always_act]
  simp

theorem always_fetch {α : Type u} {read : σ → Except ε α} {next : α → Prog ε σ} :
    Always P (fetch read next) s ↔
      P (fetch read next) s ∧ ∀ a, read s = .ok a → Always P (next a) s := by
  rw [fetch, always_act]
  cases read s <;> simp

theorem always_invoke {α : Type u} {call : σ → Except ε (α × σ)} {next : α → Prog ε σ} :
    Always P (invoke call next) s ↔
      P (invoke call next) s ∧ ∀ a t, call s = .ok (a, t) → Always P (next a) t := by
  rw [invoke, always_act]
  cases call s <;> simp [Prod.ext_iff]

end Always

/-! ## What holds wherever an execution with events arrives -/

section Throughout

variable {P : Prog ε σ → σ → Prop}

/-- Something holds wherever an execution with events may arrive. -/
def Throughout (env : ι → σ → Except ε σ) (P : Prog ε σ → σ → Prop) (p : Prog ε σ) (s : σ) :
    Prop :=
  ∀ rest t, Arrives env p s rest t → P rest t

/-- The states that events lead to. -/
def Events (env : ι → σ → Except ε σ) : σ → σ → Prop :=
  Relation.ReflTransGen fun s s' => ∃ i, env i s = .ok s'

theorem Throughout.always (throughout : Throughout env P p s) : Always P p s :=
  fun rest t reaches => throughout rest t reaches.arrives

theorem arrives_done : Arrives env done s rest t ↔ rest = done ∧ Events env s t := by
  constructor
  · intro arrives
    generalize same : (done : Prog ε σ) = p at arrives
    induction arrives with
    | here => exact ⟨rfl, .refl⟩
    | event returns _ ih =>
        obtain ⟨rfl, events⟩ := ih same
        exact ⟨rfl, .head ⟨_, returns⟩ events⟩
    | later => cases same
  · rintro ⟨rfl, events⟩
    induction events using Relation.ReflTransGen.head_induction_on with
    | refl => exact .here
    | head returns _ ih =>
        obtain ⟨i, returns⟩ := returns
        exact .event returns ih

/-- Events happen, and the execution is at its first point still, or behind its
first statement. -/
theorem arrives_act : Arrives env (act f next) s rest t ↔ ∃ s₁, Events env s s₁ ∧
    ((rest = act f next ∧ t = s₁) ∨ ∃ s₂, f s₁ = .ok s₂ ∧ Arrives env (next s₁) s₂ rest t) := by
  constructor
  · intro arrives
    generalize same : act f next = p at arrives
    induction arrives with
    | here => exact ⟨_, .refl, .inl ⟨rfl, rfl⟩⟩
    | event returns _ ih =>
        obtain ⟨s₁, events, behind⟩ := ih same
        exact ⟨s₁, .head ⟨_, returns⟩ events, behind⟩
    | later returns arrives _ =>
        cases same
        exact ⟨_, .refl, .inr ⟨_, returns, arrives⟩⟩
  · rintro ⟨s₁, events, behind⟩
    induction events using Relation.ReflTransGen.head_induction_on with
    | refl =>
        rcases behind with ⟨rfl, rfl⟩ | ⟨s₂, returns, arrives⟩
        · exact .here
        · exact .later returns arrives
    | head returns _ ih =>
        obtain ⟨i, returns⟩ := returns
        exact .event returns ih

theorem throughout_done : Throughout env P done s ↔ ∀ s₁, Events env s s₁ → P done s₁ := by
  constructor
  · exact fun throughout s₁ events => throughout _ _ (arrives_done.mpr ⟨rfl, events⟩)
  · intro holds rest t arrives
    obtain ⟨rfl, events⟩ := arrives_done.mp arrives
    exact holds t events

theorem throughout_act : Throughout env P (act f next) s ↔ ∀ s₁, Events env s s₁ →
    P (act f next) s₁ ∧ ∀ s₂, f s₁ = .ok s₂ → Throughout env P (next s₁) s₂ := by
  constructor
  · intro throughout s₁ events
    refine ⟨throughout _ _ (arrives_act.mpr ⟨s₁, events, .inl ⟨rfl, rfl⟩⟩), ?_⟩
    intro s₂ returns rest t arrives
    exact throughout _ _ (arrives_act.mpr ⟨s₁, events, .inr ⟨s₂, returns, arrives⟩⟩)
  · intro holds rest t arrives
    obtain ⟨s₁, events, ⟨rfl, rfl⟩ | ⟨s₂, returns, arrives⟩⟩ := arrives_act.mp arrives
    · exact (holds _ events).1
    · exact (holds s₁ events).2 s₂ returns rest t arrives

end Throughout

/-! ## Executions with no event, and with one -/

theorem interrupts_nil : Interrupts env p s [] t ↔ t = s := by
  constructor
  · intro events
    cases events
    rfl
  · rintro rfl
    exact .nil

theorem interrupts_single {i : ι} :
    Interrupts env p s [(rest, s₁, i)] t ↔ rest = p ∧ s₁ = s ∧ env i s = .ok t := by
  constructor
  · intro events
    cases events with
    | cons returns later =>
        rw [interrupts_nil.mp later]
        exact ⟨rfl, rfl, returns⟩
  · rintro ⟨rfl, rfl, returns⟩
    exact .cons returns .nil

/-- The trace of an execution is that of its first point, and that of the rest. -/
theorem interleave_act {trace : List (Moment ε σ ι)} :
    Interleave env (act f next) s trace t ↔ ∃ first s₁ s₂ later, trace = first ++ later ∧
      Interrupts env (act f next) s first s₁ ∧ f s₁ = .ok s₂ ∧
        Interleave env (next s₁) s₂ later t := by
  constructor
  · intro execution
    cases execution with
    | act events returns later => exact ⟨_, _, _, _, rfl, events, returns, later⟩
  · rintro ⟨first, s₁, s₂, later, rfl, events, returns, execution⟩
    exact .act events returns execution

theorem interleave_done {trace : List (Moment ε σ ι)} :
    Interleave env done s trace t ↔ Interrupts env done s trace t := by
  constructor
  · rintro ⟨events⟩
    exact events
  · exact .done

/-- **Without events** an execution is the run of the program. -/
theorem interleave_nil : Interleave env p s [] t ↔ p.run s = .ok t := by
  induction p generalizing s with
  | done =>
      rw [interleave_done, interrupts_nil, run_done, Except.ok.injEq, eq_comm]
  | act f next ih =>
      rw [interleave_act, run_act, bind_eq_ok]
      constructor
      · rintro ⟨first, s₁, s₂, later, none, events, returns, execution⟩
        obtain ⟨rfl, rfl⟩ := List.append_eq_nil_iff.mp none.symm
        cases interrupts_nil.mp events
        exact ⟨s₂, returns, (ih _).mp execution⟩
      · rintro ⟨s₂, returns, later⟩
        exact ⟨[], s, s₂, [], rfl, .nil, returns, (ih _).mpr later⟩

/-- **With one event** an execution runs to a point of the program, and goes on
from the state that the event left. -/
theorem interleave_single {i : ι} : Interleave env p s [(rest, s₁, i)] t ↔
    Reaches p s rest s₁ ∧ ∃ s₂, env i s₁ = .ok s₂ ∧ rest.run s₂ = .ok t := by
  induction p generalizing s with
  | done =>
      rw [interleave_done, interrupts_single, reaches_done]
      constructor
      · rintro ⟨rfl, rfl, returns⟩
        exact ⟨⟨rfl, rfl⟩, t, returns, rfl⟩
      · rintro ⟨⟨rfl, rfl⟩, s₂, returns, stops⟩
        cases stops
        exact ⟨rfl, rfl, returns⟩
  | act f next ih =>
      rw [interleave_act, reaches_act]
      constructor
      · rintro ⟨first, s₂, s₃, later, split, events, returns, execution⟩
        rcases List.append_eq_singleton_iff.mp split.symm with ⟨rfl, rfl⟩ | ⟨rfl, rfl⟩
        · cases interrupts_nil.mp events
          obtain ⟨reaches, after⟩ := (ih _).mp execution
          exact ⟨.inr ⟨s₃, returns, reaches⟩, after⟩
        · obtain ⟨rfl, rfl, happened⟩ := interrupts_single.mp events
          refine ⟨.inl ⟨rfl, rfl⟩, s₂, happened, ?_⟩
          rw [run_act, returns, ok_bind]
          exact interleave_nil.mp execution
      · rintro ⟨⟨rfl, rfl⟩ | ⟨s₂, returns, reaches⟩, after⟩
        · obtain ⟨s₂, happened, ran⟩ := after
          obtain ⟨s₃, returns, later⟩ := bind_eq_ok.mp (run_act ▸ ran)
          exact ⟨[_], s₂, s₃, [], rfl, interrupts_single.mpr ⟨rfl, rfl, happened⟩, returns,
            interleave_nil.mpr later⟩
        · exact ⟨[], s, s₂, [_], rfl, .nil, returns, (ih _).mpr ⟨reaches, after⟩⟩

/-! ## What every execution ends with -/

section Ensures

variable {Q : List (Moment ε σ ι) → σ → Prop}

/-- Every execution, whatever happens on the way, ends as asked for. -/
def Ensures (env : ι → σ → Except ε σ) (Q : List (Moment ε σ ι) → σ → Prop) (p : Prog ε σ)
    (s : σ) : Prop :=
  ∀ trace t, Interleave env p s trace t → Q trace t

theorem ensures_done :
    Ensures env Q done s ↔ ∀ trace t, Interrupts env done s trace t → Q trace t :=
  forall₂_congr fun _ _ => by rw [interleave_done]

/-- The events before the first statement, and the rest of the execution. -/
theorem ensures_act : Ensures env Q (act f next) s ↔
    ∀ first s₁, Interrupts env (act f next) s first s₁ → ∀ s₂, f s₁ = .ok s₂ →
      Ensures env (fun later => Q (first ++ later)) (next s₁) s₂ := by
  constructor
  · intro ensures first s₁ events s₂ returns later t execution
    exact ensures _ _ (.act events returns execution)
  · intro ensures trace t execution
    obtain ⟨first, s₁, s₂, later, rfl, events, returns, execution⟩ := interleave_act.mp execution
    exact ensures first s₁ events s₂ returns later t execution

end Ensures

end Prog

end Machine
