import VrrpDaemon.Behaviour.Timers

/-!
# A queue of one VR

As long as the calls of `vrrp_rmqueue_impl` and `vrrp_enqueue_impl` are for one VR,
and no other is queued, the queue is in one of three places: the VR is out, or it is
the only one queued, or it is its own successor and predecessor. `Place.after` moves
between these places. It is an abstraction of the two functions: a queue stays in the
place that its calls lead to (`Edits.stands`).
-/

set_option autoImplicit false

namespace VrrpDaemon

/-- Where a VR stands that no other is queued with. -/
inductive Place where
  | out
  | queued
  | looped
  deriving DecidableEq

/-- The place after a call for the VR. -/
def Place.after (place : Place) (event : TimerEvent) : Place :=
  match event with
  | .enqueue _ _ =>
      match place with
      | .out => .queued
      | .queued | .looped => .looped
  | .rmqueue _ =>
      match place with
      | .out | .queued => .out
      | .looped => .queued
  | .lock | .unlock | .ualarm _ | .alarm _ | .sleep _ => place

namespace TimerQueue

variable {w : World} {vrs : Nat} {entry c : VrPtr} {place : Place} {q q' : TimerQueue}

/-- The head of the queue and the links of the VR, in each of the places. -/
def Stands (entry : VrPtr) (q : TimerQueue) : Place → Prop
  | .out => q.advQ = none ∧ q.qnext entry = none ∧ q.qprev entry = none
  | .queued => q.advQ = some entry ∧ q.qnext entry = none ∧ q.qprev entry = none
  | .looped => q.advQ = some entry ∧ q.qnext entry = some entry ∧ q.qprev entry = some entry

theorem Stands.rmqueue (stands : q.Stands entry place)
    (returns : q.vrrpRmqueueImpl entry = .ok q') :
    q'.Stands entry (place.after (.rmqueue entry)) := by
  rw [vrrpRmqueueImpl_eq (vrrpRmqueueImpl_returns_iff.mp ⟨q', returns⟩)] at returns
  cases returns
  cases place with
  | out | queued =>
      obtain ⟨-, last, first⟩ := stands
      simp [Place.after, Stands, without, first, last]
  | looped =>
      obtain ⟨head, next, itself⟩ := stands
      simp [Place.after, Stands, without, head, next, itself]

/-- Behind a VR that is followed by no other the walk meets no other. -/
theorem scan_own (own : ∀ n, q.qnext entry = some n → n = entry) {timeout : UInt32} {fuel : Nat}
    {start : Option VrPtr} {sum last : UInt32} (starts : ∀ n, start = some n → n = entry)
    (stops : q.scan timeout fuel start sum = .ok (some c, last)) : c = entry := by
  induction fuel generalizing start sum with
  | zero =>
      cases start with
      | none => cases stops
      | some curr =>
          simp only [scan] at stops
          split at stops
          · cases stops
          · cases stops
            exact starts c rfl
  | succ fuel ih =>
      cases start with
      | none => cases stops
      | some curr =>
          simp only [scan] at stops
          split at stops
          · obtain rfl := starts curr rfl
            exact ih own stops
          · cases stops
            exact starts c rfl

/-- A VR at the head that is followed by no other is entered before itself. -/
theorem enqueue_own (queued : q.advQ = some entry)
    (own : ∀ n, q.qnext entry = some n → n = entry)
    (returns : q.vrrpEnqueueImpl w vrs entry = .ok q') : q'.Stands entry .looped := by
  obtain ⟨c, sum, covers, qprev, advQ, qnext⟩ := vrrpEnqueueImpl_occupied queued returns
  obtain rfl : c = entry := scan_own own (fun n same => by cases queued.symm.trans same; rfl) covers
  rw [if_pos rfl] at advQ qnext
  exact ⟨advQ, by rw [qnext, Function.update_self], by rw [qprev, Function.update_self]⟩

theorem Stands.enqueue (stands : q.Stands entry place)
    (returns : q.vrrpEnqueueImpl w vrs entry = .ok q') (t : UInt32) :
    q'.Stands entry (place.after (.enqueue entry t)) := by
  cases place with
  | out =>
      obtain ⟨empty, last, -⟩ := stands
      rw [vrrpEnqueueImpl_empty empty] at returns
      cases returns
      simp [Place.after, Stands, last]
  | queued =>
      obtain ⟨queued, last, -⟩ := stands
      exact enqueue_own queued (fun n next => by cases last.symm.trans next) returns
  | looped =>
      obtain ⟨queued, itself, -⟩ := stands
      refine enqueue_own queued (fun n next => ?_) returns
      exact (Option.some.inj (itself.symm.trans next)).symm

/-- Stored timeouts and logged events do not move a VR. -/
theorem Stands.congr (stands : q.Stands entry place) (advQ : q'.advQ = q.advQ)
    (qnext : q'.qnext = q.qnext) (qprev : q'.qprev = q.qprev) : q'.Stands entry place := by
  cases place <;> simpa only [Stands, advQ, qnext, qprev] using stands

/-- **The queue is in the place that its calls lead to.** -/
theorem Edits.stands {done : List TimerEvent} (edits : Edits w vrs q done q')
    (one : ∀ event ∈ done, event.entry = some entry) (stands : q.Stands entry place) :
    q'.Stands entry (done.foldl Place.after place) := by
  induction edits with
  | refl => exact stands
  | note _ event other ih => exact (ih one).congr rfl rfl rfl
  | setTimeout _ p t ih => exact (ih one).congr rfl rfl rfl
  | rmqueue _ returns ih =>
      have before := ih fun event member => one event (List.mem_append_left _ member)
      cases one _ (List.mem_append_right _ List.mem_cons_self)
      rw [List.foldl_append, List.foldl_cons, List.foldl_nil]
      exact before.rmqueue returns
  | enqueue _ returns ih =>
      have before := ih fun event member => one event (List.mem_append_left _ member)
      cases one _ (List.mem_append_right _ List.mem_cons_self)
      rw [List.foldl_append, List.foldl_cons, List.foldl_nil]
      exact before.enqueue returns _

/-- Taken out, the head of a queue is out, or at the head without links. -/
theorem rmqueue_head (queued : q.advQ = some entry) (returns : q.vrrpRmqueueImpl entry = .ok q') :
    q'.Stands entry (if q.qprev entry = none then .out else .queued) := by
  have removable := vrrpRmqueueImpl_returns_iff.mp ⟨q', returns⟩
  rw [vrrpRmqueueImpl_eq removable] at returns
  cases returns
  cases before : q.qprev entry with
  | none => simp [Stands, without, before, removable before]
  | some p =>
      cases after : q.qnext entry with
      | none => simp [Stands, without, before, after, queued]
      | some n => simp [Stands, without, before, after, queued]

end TimerQueue

namespace Daemon

variable {w : World} {s s' : Daemon} {h : VrPtr}

/-- **The handler moves the VR at the head** as its calls do, and leaves no other VR
behind it. -/
theorem signalAlarm_place (queued : s.q.advQ = some h) (own : (s.ds (s.vrs h).parent).vr = h)
    (returns : s.signalAlarm w = .ok s') :
    s'.q.Stands h
      ((s.servedEdits h).foldl Place.after (if s.q.qprev h = none then .out else .queued)) := by
  rcases signalAlarm_outcome returns with ⟨idle, -⟩ | ⟨entry, q, s₁, head, removed, served, rfl⟩
  · cases idle.symm.trans queued
  · cases head.symm.trans queued
    have taken := @TimerQueue.rmqueue_head h s.q.lock q queued removed
    have edits := serveEntry_edits served
    have one : ∀ event ∈ s.servedEdits h, event.entry = some h :=
      fun event member => servedEdits_entry own member
    exact (edits.stands one taken).congr rfl rfl rfl

/-- The handler cannot take a head with nothing before it and something behind it. -/
theorem not_signalAlarm_of_stuck (queued : s.q.advQ = some h) (first : s.q.qprev h = none)
    (after : s.q.qnext h ≠ none) : s.signalAlarm w ≠ .ok s' := by
  intro returns
  rcases signalAlarm_outcome returns with ⟨idle, -⟩ | ⟨entry, q, s₁, head, removed, -, -⟩
  · cases idle.symm.trans queued
  · cases head.symm.trans queued
    have alone : s.q.lock.qprev h = none → s.q.lock.qnext h = none :=
      TimerQueue.vrrpRmqueueImpl_returns_iff.mp ⟨q, removed⟩
    exact after (alone first)

/-- With nothing queued the handler changes no link. -/
theorem signalAlarm_empty (empty : s.q.advQ = none) (returns : s.signalAlarm w = .ok s') :
    s'.q.advQ = none ∧ s'.q.qnext = s.q.qnext ∧ s'.q.qprev = s.q.qprev := by
  rcases signalAlarm_outcome returns with ⟨-, rfl⟩ | ⟨p, q, s₁, head, -, -, -⟩
  · exact ⟨empty, rfl, rfl⟩
  · cases empty.symm.trans head

/-- The handler takes out a head whose instance does not run. -/
theorem signalAlarm_idle (queued : s.q.advQ = some h) (first : s.q.qprev h = none)
    (idle : (s.ds (s.vrs h).parent).state.running = false) (returns : s.signalAlarm w = .ok s') :
    s'.q.qnext = Function.update s.q.qnext h none := by
  rcases signalAlarm_outcome returns with ⟨empty, -⟩ | ⟨p, q, s₁, head, removed, served, rfl⟩
  · cases empty.symm.trans queued
  · cases head.symm.trans queued
    rw [TimerQueue.vrrpRmqueueImpl_eq (TimerQueue.vrrpRmqueueImpl_returns_iff.mp ⟨q, removed⟩)]
      at removed
    cases removed
    simp only [serveEntry] at served
    cases state : (s.ds (s.vrs h).parent).state with
    | mast | back =>
        rw [state] at idle
        cases idle
    | none | init =>
        simp only [state] at served
        cases served
        have before : s.q.lock.qprev h = none := first
        show (s.q.lock.without h).qnext = _
        simp only [TimerQueue.without, before]
        rfl

end Daemon

end VrrpDaemon
