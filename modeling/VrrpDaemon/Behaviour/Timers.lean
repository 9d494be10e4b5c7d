import VrrpDaemon.Behaviour.Returns
import VrrpDaemon.Behaviour.Timeouts

/-!
# Which VRs an operation takes out and enters

`Edits` says that a queue came from another by calls of `vrrp_rmqueue_impl` and
`vrrp_enqueue_impl`, which ones in which order, and with which timeouts; stored
timeouts and logged events may stand between them. There is one statement for
each function of the daemon. What the two calls keep, every function keeps
(`Edits.inside`), and the calls show in the log (`Edits.log`).
-/

set_option autoImplicit false

namespace VrrpDaemon

open Machine

/-- The event is a call that takes a VR out or enters one. -/
def TimerEvent.edits : TimerEvent → Bool
  | .enqueue _ _ | .rmqueue _ => true
  | .lock | .unlock | .ualarm _ | .alarm _ | .sleep _ => false

/-- The VR of such a call. -/
def TimerEvent.entry : TimerEvent → Option VrPtr
  | .enqueue p _ | .rmqueue p => some p
  | .lock | .unlock | .ualarm _ | .alarm _ | .sleep _ => none

namespace TimerQueue

variable {w : World} {vrs : Nat} {done more : List TimerEvent} {q q' q'' : TimerQueue}

/-- The second queue came from the first by these calls. -/
inductive Edits (w : World) (vrs : Nat) (q : TimerQueue) : List TimerEvent → TimerQueue → Prop where
  | refl : Edits w vrs q [] q
  | note {done : List TimerEvent} {q' : TimerQueue} (before : Edits w vrs q done q')
      (event : TimerEvent) (other : event.edits = false) : Edits w vrs q done (q'.note event)
  | setTimeout {done : List TimerEvent} {q' : TimerQueue} (before : Edits w vrs q done q')
      (p : VrPtr) (t : UInt32) : Edits w vrs q done (q'.setTimeout p t)
  | rmqueue {done : List TimerEvent} {q' q'' : TimerQueue} {p : VrPtr}
      (before : Edits w vrs q done q') (returns : q'.vrrpRmqueueImpl p = .ok q'') :
      Edits w vrs q (done ++ [.rmqueue p]) q''
  | enqueue {done : List TimerEvent} {q' q'' : TimerQueue} {p : VrPtr}
      (before : Edits w vrs q done q') (returns : q'.vrrpEnqueueImpl w vrs p = .ok q'') :
      Edits w vrs q (done ++ [.enqueue p (q'.timeout p)]) q''

namespace Edits

theorem trans (first : Edits w vrs q done q') (second : Edits w vrs q' more q'') :
    Edits w vrs q (done ++ more) q'' := by
  induction second with
  | refl => simpa using first
  | note _ event other ih => exact ih.note event other
  | setTimeout _ p t ih => exact ih.setTimeout p t
  | rmqueue _ returns ih =>
      rw [← List.append_assoc]
      exact ih.rmqueue returns
  | enqueue _ returns ih =>
      rw [← List.append_assoc]
      exact ih.enqueue returns

/-- **The calls show in the log**, among events that are none. -/
theorem log (edits : Edits w vrs q done q') :
    ∃ events, q'.log = q.log ++ events ∧ events.filter TimerEvent.edits = done := by
  induction edits with
  | refl => exact ⟨[], by simp, rfl⟩
  | note _ event other ih =>
      obtain ⟨events, logged, calls⟩ := ih
      exact ⟨events ++ [event], by simp [TimerQueue.note, logged], by simp [calls, other]⟩
  | setTimeout _ p t ih => exact ih
  | rmqueue _ returns ih =>
      rename_i p _
      obtain ⟨events, logged, calls⟩ := ih
      refine ⟨events ++ [.rmqueue p], ?_, by simp [calls, TimerEvent.edits]⟩
      rw [vrrpRmqueueImpl_log returns, logged, List.append_assoc]
  | enqueue _ returns ih =>
      rename_i before _ p _
      obtain ⟨events, logged, calls⟩ := ih
      obtain ⟨later, entered, alarms⟩ := vrrpEnqueueImpl_log returns
      have silent : later.filter TimerEvent.edits = [] := by
        rw [List.filter_eq_nil_iff]
        intro event member
        obtain ⟨usec, rfl⟩ := alarms event member
        exact Bool.false_ne_true
      refine ⟨events ++ .enqueue p (before.timeout p) :: later, ?_, ?_⟩
      · rw [entered, logged, List.append_assoc]
      · rw [List.filter_append, calls, List.filter_cons_of_pos rfl, silent]

/-- The log tells the calls. -/
theorem calls_eq (edits : Edits w vrs q done q') {events : List TimerEvent}
    (logged : q'.log = q.log ++ events) : events.filter TimerEvent.edits = done := by
  obtain ⟨own, same, calls⟩ := edits.log
  rw [← calls, List.append_cancel_left (logged.symm.trans same)]

end Edits

/-! ## Queues of allocated VRs -/

/-- The queue points to VRs below a bound only. -/
structure Inside (top : VrPtr) (q : TimerQueue) : Prop where
  advQ : ∀ p, q.advQ = some p → p < top
  qnext : ∀ p n, q.qnext p = some n → n < top

variable {top : VrPtr} {entry : VrPtr}

theorem Inside.rmqueue (inside : q.Inside top) (returns : q.vrrpRmqueueImpl entry = .ok q') :
    q'.Inside top := by
  rw [vrrpRmqueueImpl_eq (vrrpRmqueueImpl_returns_iff.mp ⟨q', returns⟩)] at returns
  cases returns
  constructor
  · intro p head
    simp only [without] at head
    split at head
    · exact inside.qnext entry p head
    · exact inside.advQ p head
  · intro p n next
    simp only [without] at next
    cases before : q.qprev entry with
    | none =>
        simp only [before, Function.update_apply] at next
        split at next
        · cases next
        · exact inside.qnext p n next
    | some b =>
        simp only [before, Function.update_apply] at next
        split at next
        · cases next
        · split at next
          · exact inside.qnext entry n next
          · exact inside.qnext p n next

theorem Inside.enqueue (inside : q.Inside top) (below : entry < top)
    (returns : q.vrrpEnqueueImpl w vrs entry = .ok q') : q'.Inside top := by
  cases head : q.advQ with
  | none =>
      rw [vrrpEnqueueImpl_empty head] at returns
      cases returns
      refine ⟨fun p first => ?_, fun p n next => inside.qnext p n next⟩
      cases first
      exact below
  | some first =>
      obtain ⟨c, sum, -, -, advQ, qnext⟩ := vrrpEnqueueImpl_occupied head returns
      constructor
      · intro p points
        rw [advQ] at points
        split at points
        · cases points
          exact below
        · cases points
          exact inside.advQ first head
      · intro p n next
        rw [qnext, Function.update_apply] at next
        split at next
        · split at next
          · rename_i here
            cases next
            exact inside.advQ c (here ▸ head)
          · cases next
            exact below
        · exact inside.qnext p n next

/-- **Calls for allocated VRs** leave the queue inside. -/
theorem Edits.inside (edits : Edits w vrs q done q') (inside : q.Inside top)
    (below : ∀ event ∈ done, ∀ p, event.entry = some p → p < top) : q'.Inside top := by
  induction edits with
  | refl => exact inside
  | note _ event other ih =>
      have before := ih below
      exact ⟨before.advQ, before.qnext⟩
  | setTimeout _ p t ih =>
      have before := ih below
      exact ⟨before.advQ, before.qnext⟩
  | rmqueue _ returns ih =>
      have before := ih fun event member => below event (List.mem_append_left _ member)
      exact before.rmqueue returns
  | enqueue _ returns ih =>
      have before := ih fun event member => below event (List.mem_append_left _ member)
      have last := below _ (List.mem_append_right _ List.mem_cons_self) _ rfl
      exact before.enqueue last returns

@[simp] theorem setTimeout_self (p : VrPtr) (t : UInt32) : (q.setTimeout p t).timeout p = t :=
  Function.update_self ..

/-- A VR entered with a timeout. -/
theorem Edits.enter {p : VrPtr} {t : UInt32} (before : Edits w vrs q done q')
    (returns : (q'.setTimeout p t).vrrpEnqueueImpl w vrs p = .ok q'') :
    Edits w vrs q (done ++ [.enqueue p t]) q'' := by
  have entered := (before.setTimeout p t).enqueue returns
  rwa [setTimeout_self] at entered

/-- A VR taken out, and entered again with a timeout. -/
theorem Edits.retime {p : VrPtr} {t : UInt32} {q₁ : TimerQueue} (before : Edits w vrs q done q')
    (removed : q'.vrrpRmqueueImpl p = .ok q₁)
    (entered : (q₁.setTimeout p t).vrrpEnqueueImpl w vrs p = .ok q'') :
    Edits w vrs q (done ++ [.rmqueue p, .enqueue p t]) q'' := by
  have edits := (before.rmqueue removed).enter entered
  rwa [List.append_assoc] at edits

end TimerQueue

namespace Daemon

open TimerQueue

variable {w : World} {s s' : Daemon} {nodes : List DsPtr} {v : DsPtr} {key : Key}

/-- The operation edited the queue by these calls. -/
def Edits (w : World) (done : List TimerEvent) (s s' : Daemon) : Prop :=
  TimerQueue.Edits w s.vrTop s.q done s'.q

/-! ## The transitions -/

/-- The calls of a requeue of an instance's VR for an advertisement interval. -/
def retimed (s : Daemon) (v : DsPtr) : List TimerEvent :=
  [.rmqueue (s.ds v).vr, .enqueue (s.ds v).vr (s.advTimeout v)]

theorem vrrpStateB2m_edits (returns : s.vrrpStateB2m w v = .ok s') :
    Edits w (s.retimed v) s s' := by
  simp only [vrrpStateB2m, vrrpStateExecution_backToMast, ok_bind] at returns
  obtain ⟨s₁, removed, returns⟩ := bind_eq_ok.mp returns
  obtain ⟨s₂, entered, returns⟩ := bind_eq_ok.mp returns
  obtain ⟨q₁, out, rfl⟩ := tryQueue_eq_ok.mp removed
  obtain ⟨q₂, back, rfl⟩ := tryQueue_eq_ok.mp entered
  cases returns
  rw [Edits, q_onQueue, q_execution, q_setState]
  exact (TimerQueue.Edits.refl.retime out back).note _ rfl

theorem vrrpStateI2m_edits {ret : Int} (returns : s.vrrpStateI2m w v = .ok (ret, s')) :
    Edits w [.enqueue (s.ds v).vr (s.advTimeout v)] s s' := by
  simp only [vrrpStateI2m, vrrpStateExecution_initToMast, ok_bind] at returns
  obtain ⟨s₁, entered, returns⟩ := bind_eq_ok.mp returns
  obtain ⟨q₁, inserted, rfl⟩ := tryQueue_eq_ok.mp entered
  cases returns
  rw [Edits, q_execution, q_setState, q_onQueue]
  have edits := (((TimerQueue.Edits.refl).setTimeout (s.ds v).vr (s.advTimeout v)).note .lock
    rfl).enqueue inserted
  rw [note_timeout, setTimeout_self] at edits
  exact edits.note _ rfl

/-- Which VR an instance has and with which timeout it is requeued does not show in
states, effects and the queue. -/
theorem retimed_congr (ds : (s'.ds v).vr = (s.ds v).vr) (vrs : s'.vrs = s.vrs) :
    s'.retimed v = s.retimed v := by
  simp only [retimed, advTimeout, vrrpDelay, vr, ds, vrs]

/-- The end of `vrrp_state_i2b` and `vrrp_state_m2b`, where the transition before it
is `t`. -/
theorem retry_edits {done : List TimerEvent} {t : Daemon} {delay : Int} (edits : Edits w done s t)
    (shape : t.shape = s.shape) (vrs : t.vrs = s.vrs) (flag : t.flag = s.flag)
    (returns : (if (t.onQueue (·.sleep delay)).anyMasterUp = 0 then
        (t.onQueue (·.sleep delay)).vrrpStateB2m w v
      else .ok (t.onQueue (·.sleep delay))) = .ok s') :
    Edits w (done ++ if s.anyMasterUp = 0 then s.retimed v else []) s s' := by
  have up : (t.onQueue (·.sleep delay)).anyMasterUp = s.anyMasterUp := anyMasterUp_congr flag
  have quiet : Edits w done s (t.onQueue (·.sleep delay)) := edits.note _ rfl
  rw [up] at returns
  split
  · rename_i none
    rw [if_pos none] at returns
    have promoted := vrrpStateB2m_edits returns
    have calls : (t.onQueue (·.sleep delay)).retimed v = s.retimed v :=
      retimed_congr (vr_of_shape shape v) vrs
    have top : t.vrTop = s.vrTop := congrArg Shape.vrTop shape
    rw [calls] at promoted
    exact quiet.trans (top ▸ promoted)
  · rename_i some
    rw [if_neg some] at returns
    cases returns
    simpa using quiet

theorem vrrpStateI2b_edits (returns : s.vrrpStateI2b w v = .ok s') :
    Edits w (.enqueue (s.ds v).vr (s.advTimeout v) ::
      if s.anyMasterUp = 0 then s.retimed v else []) s s' := by
  simp only [vrrpStateI2b] at returns
  obtain ⟨s₁, entered, returns⟩ := bind_eq_ok.mp returns
  obtain ⟨q₁, inserted, rfl⟩ := tryQueue_eq_ok.mp entered
  have edits := (((TimerQueue.Edits.refl).setTimeout (s.ds v).vr (s.advTimeout v)).note .lock
    rfl).enqueue inserted
  rw [note_timeout, setTimeout_self] at edits
  have started : Edits w [.enqueue (s.ds v).vr (s.advTimeout v)] s
      ((({ s with q := q₁ } : Daemon).onQueue (·.unlock)).setState v .back) := edits.note _ rfl
  refine retry_edits started ?_ rfl rfl returns
  rw [shape_setState]
  rfl

theorem vrrpStateM2b_edits (returns : s.vrrpStateM2b w v = .ok s') :
    Edits w (s.retimed v ++ if s.anyMasterUp = 0 then s.retimed v else []) s s' := by
  simp only [vrrpStateM2b] at returns
  obtain ⟨s₁, removed, returns⟩ := bind_eq_ok.mp returns
  obtain ⟨s₂, entered, returns⟩ := bind_eq_ok.mp returns
  obtain ⟨s₃, executed, returns⟩ := bind_eq_ok.mp returns
  obtain rfl := eq_executed executed
  obtain ⟨q₁, out, rfl⟩ := tryQueue_eq_ok.mp removed
  obtain ⟨q₂, back, rfl⟩ := tryQueue_eq_ok.mp entered
  refine retry_edits ?_ ?_ ?_ ?_ returns
  · rw [Edits, q_execution, q_setState, q_onQueue]
    exact ((TimerQueue.Edits.refl.note .lock rfl).retime out back).note _ rfl
  · rw [shape_execution, shape_setState]
    rfl
  · rw [vrs_stable.execution]
    rfl
  · rw [flag_execution]
    rfl

theorem vrrpStateM2i_edits (returns : s.vrrpStateM2i w v = .ok s') :
    Edits w [.rmqueue (s.ds v).vr] s s' := by
  simp only [vrrpStateM2i] at returns
  obtain ⟨s₁, removed, returns⟩ := bind_eq_ok.mp returns
  obtain ⟨q₁, out, rfl⟩ := tryQueue_eq_ok.mp removed
  obtain rfl := eq_executed returns
  rw [Edits, q_execution, q_setState, q_onQueue]
  exact ((TimerQueue.Edits.refl.note .lock rfl).rmqueue out).note _ rfl

theorem vrrpStateB2i_edits (returns : s.vrrpStateB2i v = .ok s') :
    Edits w [.rmqueue (s.ds v).vr] s s' := by
  simp only [vrrpStateB2i] at returns
  obtain ⟨s₁, removed, returns⟩ := bind_eq_ok.mp returns
  obtain ⟨q₁, out, rfl⟩ := tryQueue_eq_ok.mp removed
  cases returns
  rw [Edits, q_setState, q_onQueue]
  exact (((TimerQueue.Edits.refl.setTimeout _ _).note .lock rfl).rmqueue out).note _ rfl

theorem rearm_edits {p : VrPtr} {timeout : UInt32} (returns : s.rearm w p timeout = .ok s') :
    Edits w [.rmqueue p, .enqueue p timeout] s s' := by
  obtain ⟨s₁, removed, returns⟩ := bind_eq_ok.mp returns
  obtain ⟨s₂, entered, returns⟩ := bind_eq_ok.mp returns
  obtain ⟨q₁, out, rfl⟩ := tryQueue_eq_ok.mp removed
  obtain ⟨q₂, back, rfl⟩ := tryQueue_eq_ok.mp entered
  cases returns
  rw [Edits, q_onQueue]
  exact ((TimerQueue.Edits.refl.note .lock rfl).retime out back).note _ rfl

/-! ## The queue by key -/

/-- The VR of the instance that a key selects is taken out and entered with the
timeout that the state of the instance asks for, if the queue functions accept the
key and the VR has a link. -/
def Requeued (w : World) (key : Key) (v : DsPtr) (s s' : Daemon) : Prop :=
  (QueueGiven key ∧ ¬ (s.q.qnext (s.ds v).vr = none ∧ s.q.qprev (s.ds v).vr = none) ∧
    ∃ stored, Edits w [.rmqueue (s.ds v).vr,
      .enqueue (s.ds v).vr (s.enqueueTimeout v stored)] s s') ∨
  (¬ (QueueGiven key ∧ ¬ (s.q.qnext (s.ds v).vr = none ∧ s.q.qprev (s.ds v).vr = none)) ∧
    Edits w [] s s')

/-- A requeue takes the VR out and enters it, or does nothing. -/
theorem Linked.requeue_cases (linked : s.Linked nodes)
    (searched : s.vrrpSearchInst key = .ok (some v)) (returns : s.requeue w key = .ok s') :
    (QueueGiven key ∧ ¬ (s.q.qnext (s.ds v).vr = none ∧ s.q.qprev (s.ds v).vr = none) ∧
      ∃ q₁ q₂, s.q.vrrpRmqueueImpl (s.ds v).vr = .ok q₁ ∧
        (q₁.setTimeout (s.ds v).vr (s.enqueueTimeout v (q₁.timeout (s.ds v).vr))).vrrpEnqueueImpl w
          s.vrTop (s.ds v).vr = .ok q₂ ∧ s' = { s with q := q₂ }) ∨
    (¬ (QueueGiven key ∧ ¬ (s.q.qnext (s.ds v).vr = none ∧ s.q.qprev (s.ds v).vr = none)) ∧
      s' = s) := by
  obtain ⟨⟨ret, s₁⟩, removed, returns⟩ := bind_eq_ok.mp returns
  by_cases given : QueueGiven key
  · rw [vrrpRmqueue_found given searched] at removed
    by_cases alone : s.q.qnext (s.ds v).vr = none ∧ s.q.qprev (s.ds v).vr = none
    · rw [if_pos alone] at removed
      cases removed
      cases returns
      exact .inr ⟨fun both => both.2 alone, rfl⟩
    · rw [if_neg alone] at removed
      obtain ⟨s₂, removed, same⟩ := bind_eq_ok.mp removed
      cases same
      obtain ⟨q₁, out, rfl⟩ := tryQueue_eq_ok.mp removed
      obtain ⟨⟨status, s₃⟩, entered, returns⟩ := bind_eq_ok.mp returns
      cases returns
      have shape : ({ s with q := q₁ } : Daemon).shape = s.shape := rfl
      rw [vrrpEnqueue_found given ((linked.search_congr shape key).trans searched)] at entered
      obtain ⟨s₄, inserted, same⟩ := bind_eq_ok.mp entered
      cases same
      obtain ⟨q₂, back, rfl⟩ := tryQueue_eq_ok.mp inserted
      have parent : (s.vrs (s.ds v).vr).parent = v :=
        linked.parent v (linked.mem_of_search searched)
      simp only [parent] at back
      exact .inl ⟨given, alone, q₁, q₂, out, back, rfl⟩
  · rw [vrrpRmqueue_refused given] at removed
    cases removed
    cases returns
    exact .inr ⟨fun both => given both.1, rfl⟩

theorem Linked.requeue_edits (linked : s.Linked nodes)
    (searched : s.vrrpSearchInst key = .ok (some v)) (returns : s.requeue w key = .ok s') :
    s.Requeued w key v s' := by
  rcases linked.requeue_cases searched returns with
    ⟨given, link, q₁, q₂, out, back, rfl⟩ | ⟨refused, rfl⟩
  · exact .inl ⟨given, link, _, TimerQueue.Edits.refl.retime out back⟩
  · exact .inr ⟨refused, .refl⟩

/-- A change of the priority and the interval is a requeue with the new attributes, under the
lock. -/
theorem changeDelay_requeue {pri delay : Int} (given : delay ≠ vrPropUnchange)
    (returns : (s.changePri (s.ds v).vr pri).changeDelay w key (s.ds v).vr delay = .ok s') :
    ∃ s₁, ((s.setAttr (s.ds v).vr (withDelay (withPri (s.vr v).attr pri) delay)).onQueue
        (·.lock)).requeue w key = .ok s₁ ∧ s' = s₁.onQueue (·.unlock) := by
  unfold changeDelay at returns
  rw [if_pos given, changePri_eq, setAttr_setAttr, setAttr_vrs] at returns
  obtain ⟨s₁, requeued, returns⟩ := bind_eq_ok.mp returns
  cases returns
  rw [withDelay, if_pos given, vr]
  exact ⟨s₁, requeued, rfl⟩

/-- A change of the priority and the interval requeues the VR with the new
attributes. -/
theorem Linked.changeDelay_edits {pri delay : Int} (linked : s.Linked nodes)
    (searched : s.vrrpSearchInst key = .ok (some v)) (given : delay ≠ vrPropUnchange)
    (returns : (s.changePri (s.ds v).vr pri).changeDelay w key (s.ds v).vr delay = .ok s') :
    (s.setAttr (s.ds v).vr (withDelay (withPri (s.vr v).attr pri) delay)).Requeued w key v s' := by
  obtain ⟨s₁, requeued, rfl⟩ := changeDelay_requeue given returns
  have shape (attr : VrrpAttr) : ((s.setAttr (s.ds v).vr attr).onQueue (·.lock)).shape = s.shape :=
    (shape_onQueue _ _).trans (shape_setAttr _ _ _)
  rcases (linked.of_shape (shape _)).requeue_edits
    ((linked.search_congr (shape _) key).trans searched) requeued with
      ⟨accepted, link, stored, edits⟩ | ⟨refused, edits⟩
  · exact .inl ⟨accepted, link, stored,
      ((TimerQueue.Edits.refl.note .lock rfl).trans edits).note _ rfl⟩
  · exact .inr ⟨refused, ((TimerQueue.Edits.refl.note .lock rfl).trans edits).note _ rfl⟩

/-! ## The alarm -/

/-- The calls with which a VR is served, by the state of its instance. -/
def servedEdits (s : Daemon) (entry : VrPtr) : List TimerEvent :=
  let timeout := toTimeout (vrrpSec2usec (s.vrs entry).attr.delay)
  match (s.ds (s.vrs entry).parent).state with
  | .mast => [.enqueue entry timeout]
  | .back => s.retimed (s.vrs entry).parent ++ [.enqueue entry timeout]
  | .none | .init => []

/-- These calls are for that VR. -/
theorem servedEdits_entry {entry : VrPtr} (own : (s.ds (s.vrs entry).parent).vr = entry)
    {event : TimerEvent} (member : event ∈ s.servedEdits entry) : event.entry = some entry := by
  simp only [servedEdits, retimed, own] at member
  split at member
  · rw [List.mem_singleton.mp member]
    rfl
  · simp only [List.cons_append, List.nil_append, List.mem_cons, List.not_mem_nil, or_false]
      at member
    rcases member with rfl | rfl | rfl <;> rfl
  · cases member
  · cases member

theorem serveEntry_edits {entry : VrPtr} {nextEntry : Option VrPtr}
    (returns : s.serveEntry w entry nextEntry = .ok s') :
    Edits w (s.servedEdits entry) s s' := by
  simp only [serveEntry] at returns
  simp only [servedEdits]
  cases state : (s.ds (s.vrs entry).parent).state with
  | mast =>
      simp only [state] at returns
      obtain ⟨s₁, entered, returns⟩ := bind_eq_ok.mp returns
      obtain ⟨q₁, inserted, rfl⟩ := tryQueue_eq_ok.mp entered
      cases returns
      exact (TimerQueue.Edits.refl.enter inserted).note _ rfl
  | back =>
      simp only [state] at returns
      obtain ⟨s₁, promoted, returns⟩ := bind_eq_ok.mp returns
      obtain ⟨s₂, entered, returns⟩ := bind_eq_ok.mp returns
      obtain ⟨q₁, inserted, rfl⟩ := tryQueue_eq_ok.mp entered
      cases returns
      have core := vrrpStateB2m_core promoted
      have top : s₁.vrTop = s.vrTop :=
        congrArg Shape.vrTop ((shape_of_core core).trans (shape_promote _ _))
      have vrs : s₁.vrs = s.vrs := (vrs_of_core core).trans (vrs_stable.promote _ _)
      have inserted : (s₁.q.setTimeout entry (toTimeout (vrrpSec2usec (s₁.vrs entry).attr.delay))
          ).vrrpEnqueueImpl w s₁.vrTop entry = .ok q₁ := inserted
      rw [top, vrs] at inserted
      exact ((vrrpStateB2m_edits promoted).enter inserted).note _ rfl
  | none | init =>
      simp only [state] at returns
      cases returns
      exact .refl

theorem signalAlarm_edits (returns : s.signalAlarm w = .ok s') :
    (s.q.advQ = none ∧ Edits w [] s s') ∨
      ∃ entry, s.q.advQ = some entry ∧
        Edits w (.rmqueue entry :: s.servedEdits entry) s s' := by
  rcases signalAlarm_outcome returns with ⟨idle, rfl⟩ | ⟨entry, q, s₁, queued, out, served, rfl⟩
  · exact .inl ⟨idle, (TimerQueue.Edits.refl.note .lock rfl).note _ rfl⟩
  · refine .inr ⟨entry, queued, ?_⟩
    have edits := serveEntry_edits served
    exact (((TimerQueue.Edits.refl.note .lock rfl).rmqueue out).trans edits).note _ rfl

end Daemon

end VrrpDaemon
