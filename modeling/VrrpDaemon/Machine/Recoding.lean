import VrrpDaemon.Machine.Network
import Mathlib.Data.List.Perm.Basic

/-!
# Messages in another form

Two networks of the same nodes: in one the nodes exchange messages, in the other encodings of
them. Where a node takes an encoding as it takes the message that is decoded from it, and sends
encodings of what it would send, the second network does what the first one does
(`Recodes.run`). The messages in flight correspond up to their order, which does not matter, as
they are handled in any order.

What a node sends may have to be proper for the encoding to be read back. So there is a property
of the nodes and one of the encodings, which the events keep.
-/

set_option autoImplicit false

namespace Machine

universe u

variable {ε ι α μ ν σ : Type u}

/-- An envelope with the message that is decoded. -/
def Envelope.decode (decode : ν → μ) (e : Envelope ι ν) : Envelope ι μ :=
  ⟨e.source, e.target, decode e.message⟩

/-- An event with the message that is decoded. -/
def NetEvent.decode (decode : ν → μ) : NetEvent ι α ν → NetEvent ι α μ
  | .act i a => .act i a
  | .deliver e => .deliver (e.decode decode)

/-- Decoding an element of a list and the others. -/
theorem map_erase_perm {A B : Type u} [DecidableEq A] [DecidableEq B] (f : A → B) {a : A}
    {l : List A} (member : a ∈ l) : ((l.erase a).map f).Perm ((l.map f).erase (f a)) := by
  have whole : (l.map f).Perm (f a :: (l.erase a).map f) := (List.perm_cons_erase member).map f
  have erased := whole.erase (f a)
  rw [List.erase_cons_head] at erased
  exact erased.symm

/-- The first protocol is the second one with encoded messages: a node that is proper takes a
proper encoding as it takes the message, and what it sends decodes to what it would send. `fit`
are the actions that keep a node proper. -/
structure Recodes (encoded : Protocol ε ι α ν σ) (plain : Protocol ε ι α μ σ) (decode : ν → μ)
    (node : σ → Prop) (image : ν → Prop) (fit : α → Prop) : Prop where
  act : ∀ i a s, encoded.act i a s = plain.act i a s
  peers : encoded.peers = plain.peers
  receive : ∀ i x s, node s → image x → encoded.receive i x s = plain.receive i (decode x) s
  acted : ∀ i a s s', node s → fit a → plain.act i a s = .ok s' →
    node s' ∧ (encoded.sent s s').map decode = plain.sent s s' ∧ ∀ x ∈ encoded.sent s s', image x
  received : ∀ i x s s', node s → image x → plain.receive i (decode x) s = .ok s' →
    node s' ∧ (encoded.sent s s').map decode = plain.sent s s' ∧ ∀ x ∈ encoded.sent s s', image x

/-- The nodes are the same and proper, and what is in flight decodes to what is in flight, in
some order. -/
structure Decoded (decode : ν → μ) (node : σ → Prop) (image : ν → Prop) (n : Net ι ν σ)
    (m : Net ι μ σ) : Prop where
  same : n.node = m.node
  nodes : ∀ i, node (n.node i)
  images : ∀ e ∈ n.flight, image e.message
  flight : (n.flight.map (Envelope.decode decode)).Perm m.flight

/-- The actions among the events are fit. -/
def NetEvent.Fit (fit : α → Prop) : NetEvent ι α ν → Prop
  | .act _ a => fit a
  | .deliver _ => True

namespace Recodes

variable {encoded : Protocol ε ι α ν σ} {plain : Protocol ε ι α μ σ} {decode : ν → μ}
  {node : σ → Prop} {image : ν → Prop} {fit : α → Prop} {n n' : Net ι ν σ} {m : Net ι μ σ}

/-- Encodings are broadcast as the messages are. -/
theorem broadcast (recodes : Recodes encoded plain decode node image fit) (i : ι)
    (messages : List ν) :
    (encoded.broadcast i messages).map (Envelope.decode decode) =
      plain.broadcast i (messages.map decode) := by
  rw [Protocol.broadcast, Protocol.broadcast, recodes.peers, List.map_flatMap, List.flatMap_map]
  refine congrArg (List.flatMap · messages) (funext fun message => ?_)
  rw [List.map_map]
  rfl

/-- What a node computes, and what it sends. -/
theorem performed (recodes : Recodes encoded plain decode node image fit) {event : NetEvent ι α ν}
    {s s' : σ} (proper : node s) (fits : event.Fit fit)
    (images : ∀ e, event = .deliver e → image e.message)
    (returns : encoded.perform event s = .ok s') :
    plain.perform (event.decode decode) s = .ok s' ∧ node s' ∧
      (encoded.sent s s').map decode = plain.sent s s' ∧ ∀ x ∈ encoded.sent s s', image x := by
  cases event with
  | act i a =>
      have acts : plain.act i a s = .ok s' := (recodes.act i a s).symm.trans returns
      exact ⟨acts, recodes.acted i a s s' proper fits acts⟩
  | deliver e =>
      have proof := images e rfl
      have takes : plain.receive e.target (decode e.message) s = .ok s' :=
        (recodes.receive e.target e.message s proper proof).symm.trans returns
      exact ⟨takes, recodes.received e.target e.message s s' proper proof takes⟩

variable [DecidableEq ι] [DecidableEq μ] [DecidableEq ν]

/-- **The step lemma.** -/
theorem step (recodes : Recodes encoded plain decode node image fit)
    {event : NetEvent ι α ν} (decoded : Decoded decode node image n m) (enabled : event.Enabled n)
    (fits : event.Fit fit) (returns : encoded.step event n = .ok n') :
    ∃ m', (event.decode decode).Enabled m ∧ plain.step (event.decode decode) m = .ok m' ∧
      Decoded decode node image n' m' := by
  obtain ⟨same, nodes, images, flight⟩ := decoded
  obtain ⟨s', performs, rfl⟩ := Protocol.step_eq_ok.mp returns
  have handled : ∀ e, event = .deliver e → image e.message := by
    rintro e rfl
    exact images e enabled
  obtain ⟨computes, proper, sends, sent⟩ :=
    recodes.performed (nodes event.node) fits handled performs
  have here : (event.decode decode).node = event.node := by cases event <;> rfl
  have possible : (event.decode decode).Enabled m := by
    cases event with
    | act => trivial
    | deliver e => exact flight.mem_iff.mp (List.mem_map_of_mem enabled)
  have left : ((event.consume n.flight).map (Envelope.decode decode)).Perm
      ((event.decode decode).consume m.flight) := by
    cases event with
    | act => exact flight
    | deliver e => exact (map_erase_perm (Envelope.decode decode) enabled).trans (flight.erase _)
  refine ⟨_, possible, Protocol.step_eq_ok.mpr ⟨s', ?_, rfl⟩, ?_, fun i => ?_, fun e member => ?_,
    ?_⟩
  · rw [here, ← same]
    exact computes
  · rw [here, same]
  · by_cases self : i = event.node
    · rw [self]
      show node (Function.update n.node event.node s' event.node)
      rw [Function.update_self]
      exact proper
    · show node (Function.update n.node event.node s' i)
      rw [Function.update_of_ne self]
      exact nodes i
  · rcases List.mem_append.mp member with old | new
    · refine images e ?_
      cases event with
      | act => exact old
      | deliver => exact List.mem_of_mem_erase old
    · exact sent _ (Protocol.mem_broadcast.mp new).2.2
  · rw [List.map_append, recodes.broadcast, sends, here, ← same]
    exact left.append_right _

/-- **The network with encodings does what the plain one does.** What is allowed may depend on
the states of the nodes. -/
theorem run (recodes : Recodes encoded plain decode node image fit)
    {allows : (ι → σ) → NetEvent ι α μ → Prop} {events : List (NetEvent ι α ν)}
    (decoded : Decoded decode node image n m)
    (runs : Run encoded.step
      (fun n event => (event.Enabled n ∧ event.Fit fit) ∧ allows n.node (event.decode decode))
      n events n') :
    ∃ m', Run plain.step (fun m event => event.Enabled m ∧ allows m.node event) m
        (events.map (NetEvent.decode decode)) m' ∧
      Decoded decode node image n' m' := by
  induction runs with
  | nil => exact ⟨m, .nil, decoded⟩
  | snoc _ allowed returns ih =>
      obtain ⟨m₁, followed, decoded₁⟩ := ih
      obtain ⟨⟨enabled, fits⟩, asked⟩ := allowed
      obtain ⟨m₂, possible, stepped, decoded₂⟩ := recodes.step decoded₁ enabled fits returns
      rw [decoded₁.same] at asked
      refine ⟨m₂, ?_, decoded₂⟩
      rw [List.map_append]
      exact .snoc followed ⟨possible, asked⟩ stepped

end Recodes

end Machine
