import VrrpDaemon.Machine.Runs
import Mathlib.Logic.Function.Basic

/-!
# Machines that exchange messages

Nodes act on their own and handle messages. What a node sends goes to each of
its peers, and is in flight until the peer handles it; messages are handled in
any order. The whole is a machine again, so that its runs and histories are
those of `Machine.Run` and `Machine.History`.

`Sound` is local reasoning: a property of each node and one of the messages hold
after every run when every node keeps its own property and sends only such
messages, relying on those it handles (`Sound.step`).
-/

set_option autoImplicit false

namespace Machine

universe u

variable {ε ι α μ σ : Type u}

/-- A message on its way. -/
structure Envelope (ι μ : Type u) where
  source : ι
  target : ι
  message : μ
  deriving DecidableEq

/-- The states of the nodes and the messages in flight. -/
structure Net (ι μ σ : Type u) where
  node : ι → σ
  flight : List (Envelope ι μ)

/-- How nodes behave: their own actions, what they do with a message, what they
have sent between two states, and to whom. -/
structure Protocol (ε ι α μ σ : Type u) where
  act : ι → α → σ → Except ε σ
  receive : ι → μ → σ → Except ε σ
  sent : σ → σ → List μ
  peers : ι → List ι

/-- What happens in a network: a node acts, or handles a message in flight. -/
inductive NetEvent (ι α μ : Type u) where
  | act (i : ι) (a : α)
  | deliver (e : Envelope ι μ)

namespace NetEvent

/-- The node that changes. -/
def node : NetEvent ι α μ → ι
  | .act i _ => i
  | .deliver e => e.target

/-- What is left in flight. -/
def consume [DecidableEq ι] [DecidableEq μ] :
    NetEvent ι α μ → List (Envelope ι μ) → List (Envelope ι μ)
  | .act .., flight => flight
  | .deliver e, flight => flight.erase e

/-- Only messages in flight are handled. -/
def Enabled (n : Net ι μ σ) : NetEvent ι α μ → Prop
  | .act .. => True
  | .deliver e => e ∈ n.flight

end NetEvent

namespace Protocol

variable (p : Protocol ε ι α μ σ)

/-- What the node of the event computes. -/
def perform : NetEvent ι α μ → σ → Except ε σ
  | .act i a => p.act i a
  | .deliver e => p.receive e.target e.message

/-- The messages of a node, to all its peers. -/
def broadcast (i : ι) (messages : List μ) : List (Envelope ι μ) :=
  messages.flatMap fun m => (p.peers i).map fun j => ⟨i, j, m⟩

variable {p} in
theorem mem_broadcast {i : ι} {messages : List μ} {e : Envelope ι μ} :
    e ∈ p.broadcast i messages ↔ e.source = i ∧ e.target ∈ p.peers i ∧ e.message ∈ messages := by
  obtain ⟨source, target, message⟩ := e
  simp only [broadcast, List.mem_flatMap, List.mem_map, Envelope.mk.injEq]
  constructor
  · rintro ⟨m, sent, j, peer, rfl, rfl, rfl⟩
    exact ⟨rfl, peer, sent⟩
  · rintro ⟨rfl, peer, sent⟩
    exact ⟨message, sent, target, peer, rfl, rfl, rfl⟩

variable [DecidableEq ι] [DecidableEq μ]

/-- One event. -/
def step (event : NetEvent ι α μ) (n : Net ι μ σ) : Except ε (Net ι μ σ) := do
  let i := event.node
  let s ← p.perform event (n.node i)
  .ok
    { node := Function.update n.node i s
      flight := event.consume n.flight ++ p.broadcast i (p.sent (n.node i) s) }

variable {p}

theorem step_eq_ok {event : NetEvent ι α μ} {n n' : Net ι μ σ} :
    p.step event n = .ok n' ↔ ∃ s, p.perform event (n.node event.node) = .ok s ∧
      n' =
        { node := Function.update n.node event.node s
          flight := event.consume n.flight ++
            p.broadcast event.node (p.sent (n.node event.node) s) } := by
  unfold step
  rw [bind_eq_ok]
  simp only [Except.ok.injEq, eq_comm]

section Step

variable {event : NetEvent ι α μ} {n n' : Net ι μ σ}

/-- The node of the event does what it computes. -/
theorem step_self (returns : p.step event n = .ok n') :
    p.perform event (n.node event.node) = .ok (n'.node event.node) := by
  obtain ⟨s, performed, rfl⟩ := step_eq_ok.mp returns
  simpa using performed

/-- The other nodes stay as they are. -/
theorem step_other (returns : p.step event n = .ok n') {j : ι} (other : j ≠ event.node) :
    n'.node j = n.node j := by
  obtain ⟨s, -, rfl⟩ := step_eq_ok.mp returns
  exact Function.update_of_ne other ..

/-- A message in flight was in flight before, or has just been sent. -/
theorem mem_flight_step (returns : p.step event n = .ok n') {e : Envelope ι μ}
    (member : e ∈ n'.flight) :
    e ∈ n.flight ∨
      e ∈ p.broadcast event.node (p.sent (n.node event.node) (n'.node event.node)) := by
  obtain ⟨s, -, rfl⟩ := step_eq_ok.mp returns
  rcases List.mem_append.mp member with old | new
  · left
    cases event with
    | act i a => exact old
    | deliver other => exact List.mem_of_mem_erase old
  · right
    simpa using new

/-- What has just been sent is in flight. -/
theorem mem_flight_of_sent (returns : p.step event n = .ok n') {e : Envelope ι μ}
    (sent : e ∈ p.broadcast event.node (p.sent (n.node event.node) (n'.node event.node))) :
    e ∈ n'.flight := by
  obtain ⟨s, -, rfl⟩ := step_eq_ok.mp returns
  exact List.mem_append_right _ (by simpa using sent)

/-- What is in flight stays there until it is handled. -/
theorem mem_flight_of_unhandled (returns : p.step event n = .ok n') {e : Envelope ι μ}
    (member : e ∈ n.flight) (unhandled : event ≠ .deliver e) : e ∈ n'.flight := by
  obtain ⟨s, -, rfl⟩ := step_eq_ok.mp returns
  refine List.mem_append_left _ ?_
  cases event with
  | act i a => exact member
  | deliver other =>
      have different : e ≠ other := fun same => unhandled (by rw [same])
      exact (List.mem_erase_of_ne different).mpr member

end Step

/-- Every node has its property, and every message in flight its own. -/
structure Sound (node : ι → σ → Prop) (message : Envelope ι μ → Prop) (n : Net ι μ σ) :
    Prop where
  nodes : ∀ i, node i (n.node i)
  messages : ∀ e ∈ n.flight, message e

/-- **Local reasoning**: an event keeps the properties when its node, relying on
the message it handles, keeps its own and sends only messages that have theirs. -/
theorem Sound.step {node : ι → σ → Prop} {message : Envelope ι μ → Prop}
    {event : NetEvent ι α μ} {n n' : Net ι μ σ} (sound : Sound node message n)
    (enabled : event.Enabled n)
    (locally : ∀ s, node event.node (n.node event.node) →
      (∀ e, event = .deliver e → message e) → p.perform event (n.node event.node) = .ok s →
        node event.node s ∧
          ∀ e ∈ p.broadcast event.node (p.sent (n.node event.node) s), message e)
    (returns : p.step event n = .ok n') : Sound node message n' := by
  have handled : ∀ e, event = .deliver e → message e := by
    rintro e rfl
    exact sound.messages e enabled
  obtain ⟨kept, sent⟩ := locally _ (sound.nodes _) handled (step_self returns)
  refine ⟨fun j => ?_, fun e member => ?_⟩
  · by_cases here : j = event.node
    · subst here
      exact kept
    · rw [step_other returns here]
      exact sound.nodes j
  · rcases mem_flight_step returns member with old | new
    · exact sound.messages e old
    · exact sent e new

end Protocol

end Machine
