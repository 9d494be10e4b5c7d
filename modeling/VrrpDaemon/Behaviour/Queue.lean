import VrrpDaemon.Behaviour.Steps

/-!
# What the queue functions do

`vrrp_rmqueue_impl` goes wrong at a VR that has a successor but no predecessor:
it reads through the null predecessor (`vrrpRmqueueImpl_returns_iff`).
`vrrp_enqueue_impl` is right for an empty queue. In a queue that is not empty
it returns only when the walk stops at a VR, and then the entry's `qprev` is the
entry itself (`vrrpEnqueueImpl_occupied`).

A queue of at most one VR has no links at all (`Single`), and every function
that leaves such a queue behind is described by the VR it holds.
-/

set_option autoImplicit false

namespace VrrpDaemon

open Machine

namespace TimerQueue

variable {q q' : TimerQueue} {w : World} {vrs : Nat} {entry : VrPtr}

/-! ## Fields -/

@[simp] theorem note_advQ (event : TimerEvent) : (q.note event).advQ = q.advQ := rfl
@[simp] theorem note_qnext (event : TimerEvent) : (q.note event).qnext = q.qnext := rfl
@[simp] theorem note_qprev (event : TimerEvent) : (q.note event).qprev = q.qprev := rfl
@[simp] theorem note_timeout (event : TimerEvent) : (q.note event).timeout = q.timeout := rfl

@[simp] theorem setTimeout_advQ (p : VrPtr) (t : UInt32) : (q.setTimeout p t).advQ = q.advQ := rfl
@[simp] theorem setTimeout_qnext (p : VrPtr) (t : UInt32) :
    (q.setTimeout p t).qnext = q.qnext := rfl
@[simp] theorem setTimeout_qprev (p : VrPtr) (t : UInt32) :
    (q.setTimeout p t).qprev = q.qprev := rfl

@[simp] theorem setQnext_advQ (p : VrPtr) (x : Option VrPtr) : (q.setQnext p x).advQ = q.advQ := rfl
@[simp] theorem setQnext_qnext (p : VrPtr) (x : Option VrPtr) :
    (q.setQnext p x).qnext = Function.update q.qnext p x := rfl
@[simp] theorem setQnext_qprev (p : VrPtr) (x : Option VrPtr) :
    (q.setQnext p x).qprev = q.qprev := rfl

@[simp] theorem setQprev_advQ (p : VrPtr) (x : Option VrPtr) : (q.setQprev p x).advQ = q.advQ := rfl
@[simp] theorem setQprev_qnext (p : VrPtr) (x : Option VrPtr) :
    (q.setQprev p x).qnext = q.qnext := rfl
@[simp] theorem setQprev_qprev (p : VrPtr) (x : Option VrPtr) :
    (q.setQprev p x).qprev = Function.update q.qprev p x := rfl

/-! ## Taking a VR out -/

/-- The queue without a VR: its neighbours are linked to each other, and the one
before it takes over its timeout if there is one behind it. -/
def without (entry : VrPtr) (q : TimerQueue) : TimerQueue where
  advQ := if q.qprev entry = none then q.qnext entry else q.advQ
  timeout :=
    match q.qprev entry, q.qnext entry with
    | some before, some _ =>
        Function.update q.timeout before (q.timeout before + q.timeout entry)
    | _, _ => q.timeout
  qnext :=
    match q.qprev entry with
    | none => Function.update q.qnext entry none
    | some before =>
        Function.update (Function.update q.qnext before (q.qnext entry)) entry none
  qprev :=
    match q.qnext entry with
    | none => Function.update q.qprev entry none
    | some after =>
        Function.update (Function.update q.qprev after (q.qprev entry)) entry none
  ualarmCalls := q.ualarmCalls
  log := q.log ++ [.rmqueue entry]

/-- **`vrrp_rmqueue_impl` takes the VR out**, unless it has a successor and no
predecessor. -/
theorem vrrpRmqueueImpl_eq (removable : q.qprev entry = none → q.qnext entry = none) :
    q.vrrpRmqueueImpl entry = .ok (q.without entry) := by
  simp only [vrrpRmqueueImpl, unhookForward, note_qprev, without]
  cases before : q.qprev entry with
  | none =>
      have last := removable before
      simp [unhookBackward, note, last, isolate, setQnext, setQprev]
  | some r =>
      have next : Function.update q.qnext r (q.qnext entry) entry = q.qnext entry := by
        by_cases here : entry = r
        · rw [here, Function.update_self]
        · rw [Function.update_of_ne here]
      simp only [unhookBackward, setQnext_qnext, note_qnext, next]
      cases after : q.qnext entry with
      | none => simp [note, isolate, setQnext, setQprev]
      | some n =>
          have prev : Function.update q.qprev n (some r) entry = some r := by
            by_cases here : entry = n
            · rw [here, Function.update_self]
            · rw [Function.update_of_ne here, before]
          simp [note, isolate, setQnext, setQprev, setTimeout, before, prev]

/-- **`vrrp_rmqueue_impl` returns** unless the VR has a successor and no
predecessor. -/
theorem vrrpRmqueueImpl_returns_iff :
    (∃ q', q.vrrpRmqueueImpl entry = .ok q') ↔
      (q.qprev entry = none → q.qnext entry = none) := by
  constructor
  · rintro ⟨q', returns⟩ first
    simp only [vrrpRmqueueImpl, unhookForward, note_qprev, first, unhookBackward, note_qnext]
      at returns
    cases after : q.qnext entry with
    | none => rfl
    | some n =>
        have prev : Function.update q.qprev n none entry = none := by
          by_cases here : entry = n
          · rw [here, Function.update_self]
          · rw [Function.update_of_ne here, first]
        simp [after, prev] at returns
  · exact fun removable => ⟨_, vrrpRmqueueImpl_eq removable⟩

/-! ## Entering a VR -/

/-- The queue once `vrrp_enqueue_impl` has armed the alarm. -/
def armed (w : World) (entry : VrPtr) (q : TimerQueue) : TimerQueue :=
  ((q.note (.enqueue entry (q.timeout entry))).ualarm w (q.timeout entry)).2

@[simp] theorem armed_advQ : (q.armed w entry).advQ = q.advQ := rfl
@[simp] theorem armed_qnext : (q.armed w entry).qnext = q.qnext := rfl
@[simp] theorem armed_qprev : (q.armed w entry).qprev = q.qprev := rfl
@[simp] theorem armed_timeout : (q.armed w entry).timeout = q.timeout := rfl

/-- **Into an empty queue** a VR is entered as the head. -/
theorem vrrpEnqueueImpl_empty (empty : q.advQ = none) :
    q.vrrpEnqueueImpl w vrs entry = .ok
      ((({ q.armed w entry with advQ := some entry } : TimerQueue).setQprev entry none).setTimeout
        entry 0) :=
  if_pos empty

theorem vrrpEnqueueImpl_walk (occupied : q.advQ ≠ none) :
    q.vrrpEnqueueImpl w vrs entry =
      (q.armed w entry).enqueueWalk w vrs entry q.advQ (w.ualarm q.ualarmCalls) :=
  if_neg occupied

/-- The walk reaches a VR from which the accumulated time covers the timeout of
the entry, when `remain` is left of the alarm before. -/
def Covers (q : TimerQueue) (vrs : Nat) (entry : VrPtr) (remain : UInt32) (c : VrPtr)
    (sum : UInt32) : Prop :=
  q.scan (q.timeout entry) (scanFuel vrs) q.advQ remain = .ok (some c, sum)

/-- The walk reads links and timeouts only. -/
theorem scan_congr {q₁ q₂ : TimerQueue} (next : q₁.qnext = q₂.qnext)
    (times : q₁.timeout = q₂.timeout) (timeout : UInt32) (fuel : Nat) (start : Option VrPtr)
    (sum : UInt32) : q₁.scan timeout fuel start sum = q₂.scan timeout fuel start sum := by
  induction fuel generalizing start sum with
  | zero =>
      cases start with
      | none => rfl
      | some curr => rfl
  | succ fuel ih =>
      cases start with
      | none => rfl
      | some curr =>
          simp only [scan, next, times]
          split
          · exact ih ..
          · rfl

theorem scan_armed (timeout : UInt32) (fuel : Nat) (start : Option VrPtr) (sum : UInt32) :
    (q.armed w entry).scan timeout fuel start sum = q.scan timeout fuel start sum :=
  scan_congr armed_qnext armed_timeout timeout fuel start sum

/-- The walk stops at a VR only when the sum is large enough. -/
theorem scan_stops {timeout : UInt32} {fuel : Nat} {start : Option VrPtr} {sum last : UInt32}
    {c : VrPtr} (stops : q.scan timeout fuel start sum = .ok (some c, last)) :
    ¬ last < timeout := by
  induction fuel generalizing start sum with
  | zero =>
      cases start with
      | none => cases stops
      | some curr =>
          simp only [scan] at stops
          split at stops
          · cases stops
          · rename_i enough
            cases stops
            exact enough
  | succ fuel ih =>
      cases start with
      | none => cases stops
      | some curr =>
          simp only [scan] at stops
          split at stops
          · exact ih stops
          · rename_i enough
            cases stops
            exact enough

/-- The insertion before a VR: the entry points to it, and it back to the entry.
The entry's own `qprev` is read where it was just stored. -/
theorem insertBefore_some (q : TimerQueue) (entry c : VrPtr) (sum : UInt32) :
    ∃ q', q.insertBefore (some c) sum entry = .ok q' ∧
      q'.qprev = Function.update (Function.update q.qprev c (some entry)) entry (some entry) ∧
      q'.advQ = (if some c = q.advQ then some entry else q.advQ) ∧
      q'.qnext = Function.update q.qnext entry (if some c = q.advQ then some c else some entry) := by
  simp only [insertBefore, deref_some, ok_bind, hookBefore, setQprev_advQ, setQnext_advQ,
    setTimeout_advQ]
  by_cases head : some c = q.advQ
  · refine ⟨_, if_pos head, ?_, ?_, ?_⟩
    · simp
    · exact (if_pos head).symm
    · simp [head]
  · simp only [setQprev_qprev, Function.update_self, deref_some, ok_bind, setQnext_qprev]
    refine ⟨_, if_neg head, ?_, ?_, ?_⟩
    · simp
    · exact (if_neg head).symm
    · simp [head]

theorem insertAt_none (sum : UInt32) : q.insertAt none sum entry = .error .nullDeref := by
  unfold insertAt
  split <;> rfl

theorem insertAt_some {c : VrPtr} {sum : UInt32} (enough : ¬ sum < q.timeout entry) :
    (q.armed w entry).insertAt (some c) sum entry =
      (q.armed w entry).insertBefore (some c) sum entry :=
  if_neg enough

/-- **Into a queue that is not empty** a VR is entered only before the VR where
the walk stops, and its `qprev` is then itself. -/
theorem vrrpEnqueueImpl_occupied {head : VrPtr} (occupied : q.advQ = some head)
    (returns : q.vrrpEnqueueImpl w vrs entry = .ok q') :
    ∃ c sum, q.Covers vrs entry (w.ualarm q.ualarmCalls) c sum ∧
      q'.qprev = Function.update (Function.update q.qprev c (some entry)) entry (some entry) ∧
      q'.advQ = (if c = head then some entry else some head) ∧
      q'.qnext = Function.update q.qnext entry (if c = head then some c else some entry) := by
  rw [vrrpEnqueueImpl_walk (by simp [occupied])] at returns
  obtain ⟨⟨curr, sum⟩, walked, returns⟩ := bind_eq_ok.mp returns
  obtain ⟨q₁, inserted, returns⟩ := bind_eq_ok.mp returns
  obtain ⟨first, -, returns⟩ := bind_eq_ok.mp returns
  cases returns
  cases curr with
  | none =>
      rw [insertAt_none] at inserted
      cases inserted
  | some c =>
      rw [scan_armed, armed_timeout] at walked
      rw [insertAt_some (scan_stops walked)] at inserted
      obtain ⟨q₂, same, qprev, advQ, qnext⟩ := insertBefore_some (q.armed w entry) entry c sum
      rw [inserted] at same
      cases same
      simp only [armed_advQ, occupied, Option.some.injEq] at advQ qnext
      exact ⟨c, sum, walked, qprev, advQ, qnext⟩

/-- The insertion before a VR changes no timeout but that of the entry. -/
theorem insertBefore_others {c : VrPtr} {sum : UInt32}
    (returns : q.insertBefore (some c) sum entry = .ok q') :
    q'.ualarmCalls = q.ualarmCalls ∧ ∀ p, p ≠ entry → q'.timeout p = q.timeout p := by
  simp only [insertBefore, deref_some, ok_bind, hookBefore, setQprev_qprev,
    Function.update_self] at returns
  split at returns
  · cases returns
    exact ⟨rfl, fun p other => Function.update_of_ne other ..⟩
  · -- the VR that is read back as the one before is the entry itself
    obtain ⟨before, itself, returns⟩ := bind_eq_ok.mp returns
    rw [setQnext_qprev, setQprev_qprev, Function.update_self] at itself
    cases itself
    cases returns
    refine ⟨rfl, fun p other => ?_⟩
    exact (Function.update_of_ne other ..).trans (Function.update_of_ne other ..)

/-- Entering a VR into a queue that is not empty arms the alarm twice, and changes no timeout
but its own. -/
theorem vrrpEnqueueImpl_others (occupied : q.advQ ≠ none)
    (returns : q.vrrpEnqueueImpl w vrs entry = .ok q') :
    q'.ualarmCalls = q.ualarmCalls + 2 ∧ ∀ p, p ≠ entry → q'.timeout p = q.timeout p := by
  rw [vrrpEnqueueImpl_walk occupied] at returns
  obtain ⟨⟨curr, sum⟩, walked, returns⟩ := bind_eq_ok.mp returns
  obtain ⟨q₁, inserted, returns⟩ := bind_eq_ok.mp returns
  obtain ⟨first, -, returns⟩ := bind_eq_ok.mp returns
  cases returns
  cases curr with
  | none =>
      rw [insertAt_none] at inserted
      cases inserted
  | some c =>
      rw [armed_timeout] at walked
      rw [insertAt_some (scan_stops walked)] at inserted
      obtain ⟨calls, others⟩ := insertBefore_others inserted
      exact ⟨congrArg (· + 1) calls, others⟩

/-- The insertion into such a queue returns when the walk stops at a VR. -/
theorem vrrpEnqueueImpl_returns {head c : VrPtr} {sum : UInt32} (occupied : q.advQ = some head)
    (covers : q.Covers vrs entry (w.ualarm q.ualarmCalls) c sum) :
    ∃ q', q.vrrpEnqueueImpl w vrs entry = .ok q' := by
  rw [vrrpEnqueueImpl_walk (by simp [occupied]), enqueueWalk, scan_armed, armed_timeout, covers]
  simp only [ok_bind]
  obtain ⟨q₂, same, -, advQ, -⟩ := insertBefore_some (q.armed w entry) entry c sum
  rw [insertAt_some (scan_stops covers), same, ok_bind, advQ, armed_advQ, occupied]
  split <;> simp

/-- The queue can take the VR: it is empty, or the walk stops at a VR. -/
def Admits (w : World) (vrs : Nat) (entry : VrPtr) (q : TimerQueue) : Prop :=
  q.advQ = none ∨ ∃ c sum, q.Covers vrs entry (w.ualarm q.ualarmCalls) c sum

/-- **`vrrp_enqueue_impl` returns** exactly when the queue can take the VR. -/
theorem vrrpEnqueueImpl_returns_iff :
    (∃ q', q.vrrpEnqueueImpl w vrs entry = .ok q') ↔ q.Admits w vrs entry := by
  constructor
  · rintro ⟨q', returns⟩
    cases head : q.advQ with
    | none => exact .inl head
    | some first =>
        obtain ⟨c, sum, covers, -⟩ := vrrpEnqueueImpl_occupied head returns
        exact .inr ⟨c, sum, covers⟩
  · intro admits
    cases head : q.advQ with
    | none => exact ⟨_, vrrpEnqueueImpl_empty head⟩
    | some first =>
        rcases admits with empty | ⟨c, sum, covers⟩
        · cases empty.symm.trans head
        · exact vrrpEnqueueImpl_returns head covers

/-! ## What is logged -/

theorem vrrpRmqueueImpl_log (returns : q.vrrpRmqueueImpl entry = .ok q') :
    q'.log = q.log ++ [.rmqueue entry] := by
  rw [vrrpRmqueueImpl_eq (vrrpRmqueueImpl_returns_iff.mp ⟨q', returns⟩)] at returns
  cases returns
  rfl

/-- The insertion logs nothing. -/
theorem insertAt_log {curr : Option VrPtr} {sum : UInt32}
    (returns : q.insertAt curr sum entry = .ok q') : q'.log = q.log := by
  cases curr with
  | none =>
      rw [insertAt_none] at returns
      cases returns
  | some c =>
      simp only [insertAt, appendAfter, insertBefore, hookBefore, deref_some, ok_bind,
        setQprev_qprev, Function.update_self] at returns
      split at returns
      · cases returns
        rfl
      · split at returns
        · cases returns
          rfl
        · obtain ⟨before, -, returns⟩ := bind_eq_ok.mp returns
          cases returns
          rfl

/-- `vrrp_enqueue_impl` logs its call, and how it arms the alarm. -/
theorem vrrpEnqueueImpl_log (returns : q.vrrpEnqueueImpl w vrs entry = .ok q') :
    ∃ later, q'.log = q.log ++ .enqueue entry (q.timeout entry) :: later ∧
      ∀ event ∈ later, ∃ usec, event = .ualarm usec := by
  have armedLog : (q.armed w entry).log =
      q.log ++ [.enqueue entry (q.timeout entry), .ualarm (q.timeout entry)] := by
    simp [armed, ualarm, note]
  by_cases empty : q.advQ = none
  · rw [vrrpEnqueueImpl_empty empty] at returns
    cases returns
    exact ⟨[.ualarm (q.timeout entry)], armedLog, by simp⟩
  · rw [vrrpEnqueueImpl_walk empty] at returns
    obtain ⟨⟨curr, sum⟩, -, returns⟩ := bind_eq_ok.mp returns
    obtain ⟨q₁, inserted, returns⟩ := bind_eq_ok.mp returns
    obtain ⟨first, -, returns⟩ := bind_eq_ok.mp returns
    cases returns
    refine ⟨[.ualarm (q.timeout entry), .ualarm (q₁.timeout first)], ?_, by simp⟩
    simp [ualarm, note, insertAt_log inserted, armedLog]

/-- A VR can be taken out and entered again with a timeout. -/
def Requeues (w : World) (vrs : Nat) (entry : VrPtr) (timeout : UInt32) (q : TimerQueue) : Prop :=
  (q.qprev entry = none → q.qnext entry = none) ∧
    ((q.without entry).setTimeout entry timeout).Admits w vrs entry

/-- The log plays no part in it. -/
theorem requeues_note (event : TimerEvent) (timeout : UInt32) :
    (q.note event).Requeues w vrs entry timeout ↔ q.Requeues w vrs entry timeout := by
  have scans : ∀ t fuel start sum,
      (((q.note event).without entry).setTimeout entry timeout).scan t fuel start sum =
        ((q.without entry).setTimeout entry timeout).scan t fuel start sum :=
    scan_congr rfl rfl
  simp only [Requeues, Admits, Covers, scans]
  exact Iff.rfl

/-! ## A queue of at most one VR -/

/-- The queue holds the VR `x`, or none, and no VR has a link. -/
structure Single (q : TimerQueue) (x : Option VrPtr) : Prop where
  advQ : q.advQ = x
  qnext : ∀ p, q.qnext p = none
  qprev : ∀ p, q.qprev p = none

namespace Single

variable {x : Option VrPtr}

theorem note (single : q.Single x) (event : TimerEvent) : (q.note event).Single x :=
  ⟨single.advQ, single.qnext, single.qprev⟩

theorem setTimeout (single : q.Single x) (p : VrPtr) (t : UInt32) : (q.setTimeout p t).Single x :=
  ⟨single.advQ, single.qnext, single.qprev⟩

/-- Taking out any VR empties such a queue. -/
theorem rmqueue (single : q.Single x) (returns : q.vrrpRmqueueImpl entry = .ok q') :
    q'.Single none := by
  simp only [vrrpRmqueueImpl, unhookForward, note_qprev, single.qprev, unhookBackward, note_qnext,
    single.qnext, ok_bind] at returns
  cases returns
  refine ⟨rfl, fun p => ?_, fun p => ?_⟩
  · by_cases here : p = entry
    · simp [isolate, here]
    · simp [isolate, Function.update_of_ne here, single.qnext]
  · by_cases here : p = entry
    · simp [isolate, here]
    · simp [isolate, Function.update_of_ne here, single.qprev]

/-- Entering a VR into an empty queue makes a queue of this one. -/
theorem enqueue (single : q.Single none) (returns : q.vrrpEnqueueImpl w vrs entry = .ok q') :
    q'.Single (some entry) := by
  rw [vrrpEnqueueImpl_empty single.advQ] at returns
  cases returns
  refine ⟨rfl, fun p => single.qnext p, fun p => ?_⟩
  by_cases here : p = entry
  · simp [here]
  · simp [Function.update_of_ne here, single.qprev]

end Single

end TimerQueue

namespace Daemon

variable {w : World} {v : DsPtr} {s s' : Daemon} {x : Option VrPtr}

/-! ## The transitions on such a queue -/

@[simp] theorem q_setState (state : VrrpState) : (s.setState v state).q = s.q := rfl

@[simp] theorem q_onQueue (act : TimerQueue → TimerQueue) : (s.onQueue act).q = act s.q := rfl

@[simp] theorem flag_setState (state : VrrpState) : (s.setState v state).flag = s.flag := rfl

@[simp] theorem flag_onQueue (act : TimerQueue → TimerQueue) : (s.onQueue act).flag = s.flag := rfl

@[simp] theorem flag_execution (trans : VrrpStateTrans) :
    (s.executed w trans v).flag = s.flag := by
  cases trans <;> simp only [executed]
  case initToMast | backToMast => cases w.fork s.forkCalls <;> rfl
  all_goals rfl

@[simp] theorem flag_promote (trans : VrrpStateTrans) : (s.promote w trans v).flag = s.flag :=
  flag_execution trans

@[simp] theorem flag_leave (trans : VrrpStateTrans) (state : VrrpState) :
    (s.leave w trans state v).flag = s.flag :=
  flag_execution trans

@[simp] theorem q_execution (trans : VrrpStateTrans) :
    (s.executed w trans v).q = s.q := by
  cases trans <;> simp only [executed]
  case initToMast | backToMast => cases w.fork s.forkCalls <;> rfl
  all_goals rfl

/-- Taking out a VR on a queue of at most one. -/
theorem single_rmqueue {p : VrPtr} (single : s.q.Single x)
    (returns : s.tryQueue (·.vrrpRmqueueImpl p) = .ok s') : s'.q.Single none := by
  obtain ⟨q, removed, rfl⟩ := tryQueue_eq_ok.mp returns
  exact single.rmqueue removed

/-- Entering a VR into an empty queue. -/
theorem single_enqueue {p : VrPtr} {vrs : Nat} (single : s.q.Single none)
    (returns : s.tryQueue (·.vrrpEnqueueImpl w vrs p) = .ok s') : s'.q.Single (some p) := by
  obtain ⟨q, entered, rfl⟩ := tryQueue_eq_ok.mp returns
  exact single.enqueue entered

theorem vrrpStateB2m_single (single : s.q.Single x) (returns : s.vrrpStateB2m w v = .ok s') :
    s'.q.Single (some (s.ds v).vr) := by
  simp only [vrrpStateB2m, vrrpStateExecution_backToMast, ok_bind] at returns
  obtain ⟨s₁, removed, returns⟩ := bind_eq_ok.mp returns
  obtain ⟨s₂, entered, returns⟩ := bind_eq_ok.mp returns
  cases returns
  have alone := single_enqueue ((single_rmqueue single removed).setTimeout ..) entered
  rw [q_onQueue, q_execution, q_setState]
  exact alone.note _

theorem vrrpStateI2m_single {ret : Int} (single : s.q.Single none)
    (returns : s.vrrpStateI2m w v = .ok (ret, s')) : s'.q.Single (some (s.ds v).vr) := by
  simp only [vrrpStateI2m, vrrpStateExecution_initToMast, ok_bind] at returns
  obtain ⟨s₁, entered, returns⟩ := bind_eq_ok.mp returns
  cases returns
  have alone := single_enqueue ((single.setTimeout ..).note .lock) entered
  rw [q_execution, q_setState, q_onQueue]
  exact alone.note _

/-- The end of a demotion or a startup keeps the VR in the queue. -/
theorem retry_single {t : Daemon} {p : VrPtr} {delay : Int} (single : t.q.Single (some p))
    (own : (t.ds v).vr = p)
    (returns : (if (t.onQueue (·.sleep delay)).anyMasterUp = 0 then
        (t.onQueue (·.sleep delay)).vrrpStateB2m w v
      else .ok (t.onQueue (·.sleep delay))) = .ok s') : s'.q.Single (some p) := by
  have quiet : (t.onQueue (·.sleep delay)).q.Single (some p) := single.note _
  split at returns
  · have promoted := vrrpStateB2m_single quiet returns
    rw [← own]
    exact promoted
  · cases returns
    exact quiet

theorem vrrpStateI2b_single (single : s.q.Single none) (returns : s.vrrpStateI2b w v = .ok s') :
    s'.q.Single (some (s.ds v).vr) := by
  simp only [vrrpStateI2b] at returns
  obtain ⟨s₁, entered, returns⟩ := bind_eq_ok.mp returns
  have alone := single_enqueue ((single.setTimeout ..).note .lock) entered
  refine retry_single ?_ (vr_of_shape ?_ v) returns
  · rw [q_setState, q_onQueue]
    exact alone.note _
  · rw [shape_setState, shape_onQueue, shape_of_core (core_tryQueue entered), shape_onQueue,
      shape_onQueue]

theorem vrrpStateM2i_single (single : s.q.Single x) (returns : s.vrrpStateM2i w v = .ok s') :
    s'.q.Single none := by
  simp only [vrrpStateM2i] at returns
  obtain ⟨s₁, removed, returns⟩ := bind_eq_ok.mp returns
  obtain rfl := eq_executed returns
  rw [q_execution, q_setState, q_onQueue]
  exact (single_rmqueue (single.note .lock) removed).note _

theorem vrrpStateB2i_single (single : s.q.Single x) (returns : s.vrrpStateB2i v = .ok s') :
    s'.q.Single none := by
  simp only [vrrpStateB2i] at returns
  obtain ⟨s₁, removed, returns⟩ := bind_eq_ok.mp returns
  cases returns
  rw [q_setState, q_onQueue]
  exact (single_rmqueue ((single.setTimeout ..).note .lock) removed).note _

theorem vrrpStateM2b_single (single : s.q.Single x) (returns : s.vrrpStateM2b w v = .ok s') :
    s'.q.Single (some (s.ds v).vr) := by
  simp only [vrrpStateM2b] at returns
  obtain ⟨s₁, removed, returns⟩ := bind_eq_ok.mp returns
  obtain ⟨s₂, entered, returns⟩ := bind_eq_ok.mp returns
  obtain ⟨s₃, executed, returns⟩ := bind_eq_ok.mp returns
  obtain rfl := eq_executed executed
  have alone := single_enqueue ((single_rmqueue (single.note .lock) removed).setTimeout ..) entered
  refine retry_single ?_ (vr_of_shape ?_ v) returns
  · rw [q_execution, q_setState, q_onQueue]
    exact alone.note _
  · rw [shape_execution, shape_setState, shape_onQueue, shape_of_core (core_tryQueue entered),
      shape_onQueue, shape_of_core (core_tryQueue removed), shape_onQueue]

theorem rearm_single {p : VrPtr} {timeout : UInt32} (single : s.q.Single x)
    (returns : s.rearm w p timeout = .ok s') : s'.q.Single (some p) := by
  obtain ⟨s₁, removed, returns⟩ := bind_eq_ok.mp returns
  obtain ⟨s₂, entered, returns⟩ := bind_eq_ok.mp returns
  cases returns
  exact (single_enqueue ((single_rmqueue (single.note .lock) removed).setTimeout ..) entered).note _

/-- Rearming a timer shows in the log. -/
theorem rearm_q_ne {p : VrPtr} {timeout : UInt32} (returns : s.rearm w p timeout = .ok s') :
    s'.q ≠ s.q := by
  obtain ⟨s₁, removed, returns⟩ := bind_eq_ok.mp returns
  obtain ⟨s₂, entered, returns⟩ := bind_eq_ok.mp returns
  cases returns
  obtain ⟨q₁, out, rfl⟩ := tryQueue_eq_ok.mp removed
  obtain ⟨q₂, back, rfl⟩ := tryQueue_eq_ok.mp entered
  obtain ⟨later, logged, -⟩ := TimerQueue.vrrpEnqueueImpl_log back
  intro same
  have lengths := congrArg (fun q => q.log.length) same
  have locked : s.q.lock.log = s.q.log ++ [.lock] := rfl
  simp [TimerQueue.unlock, TimerQueue.note, logged, TimerQueue.setTimeout,
    TimerQueue.vrrpRmqueueImpl_log out, locked] at lengths

/-! ## When the transitions return -/

/-- The two steps that every transition of a running instance takes. -/
theorem requeue_returns_iff {p : VrPtr} {timeout : UInt32} :
    (∃ s₁ s₂, s.tryQueue (·.vrrpRmqueueImpl p) = .ok s₁ ∧
      (s₁.onQueue (·.setTimeout p timeout)).tryQueue (·.vrrpEnqueueImpl w s.vrTop p) = .ok s₂) ↔
      s.q.Requeues w s.vrTop p timeout := by
  constructor
  · rintro ⟨s₁, s₂, removed, entered⟩
    obtain ⟨q, out, rfl⟩ := tryQueue_eq_ok.mp removed
    obtain ⟨q', back, rfl⟩ := tryQueue_eq_ok.mp entered
    have removable := TimerQueue.vrrpRmqueueImpl_returns_iff.mp ⟨q, out⟩
    rw [TimerQueue.vrrpRmqueueImpl_eq removable] at out
    cases out
    exact ⟨removable, TimerQueue.vrrpEnqueueImpl_returns_iff.mp ⟨q', back⟩⟩
  · rintro ⟨removable, admits⟩
    obtain ⟨q', entered⟩ := TimerQueue.vrrpEnqueueImpl_returns_iff.mpr admits
    exact ⟨_, _, tryQueue_eq_ok.mpr ⟨_, TimerQueue.vrrpRmqueueImpl_eq removable, rfl⟩,
      tryQueue_eq_ok.mpr ⟨q', entered, rfl⟩⟩

/-- A function that takes the two steps, with a timeout that does not depend on the queue, and
returns after them under a condition that does not either. -/
theorem requeue_then_iff {p : VrPtr} {timeout : Daemon → UInt32} {survives : Prop}
    {next : Daemon → Result Daemon} (steady : ∀ q, timeout { s with q := q } = timeout s)
    (ends : ∀ q, (∃ s', next { s with q := q } = .ok s') ↔ survives) :
    (∃ s', (do
        let s₁ ← s.tryQueue (·.vrrpRmqueueImpl p)
        let s₁ := s₁.onQueue (·.setTimeout p (timeout s₁))
        let s₂ ← s₁.tryQueue (·.vrrpEnqueueImpl w s₁.vrTop p)
        next s₂) = .ok s') ↔ s.q.Requeues w s.vrTop p (timeout s) ∧ survives := by
  constructor
  · rintro ⟨s', returns⟩
    obtain ⟨s₁, removed, returns⟩ := bind_eq_ok.mp returns
    obtain ⟨s₂, entered, ended⟩ := bind_eq_ok.mp returns
    have same := tryQueue_eq_ok.mp removed
    obtain ⟨q, -, rfl⟩ := same
    rw [steady q] at entered
    have after := tryQueue_eq_ok.mp entered
    obtain ⟨q', -, rfl⟩ := after
    exact ⟨requeue_returns_iff.mp ⟨_, _, removed, entered⟩, (ends q').mp ⟨s', ended⟩⟩
  · rintro ⟨requeues, survived⟩
    obtain ⟨s₁, s₂, removed, entered⟩ := requeue_returns_iff.mpr requeues
    have same := tryQueue_eq_ok.mp removed
    obtain ⟨q, -, rfl⟩ := same
    rw [← steady q] at entered
    have same := tryQueue_eq_ok.mp entered
    obtain ⟨q', -, rfl⟩ := same
    obtain ⟨s', ended⟩ := (ends q').mpr survived
    exact ⟨s', bind_eq_ok.mpr ⟨_, removed, bind_eq_ok.mpr ⟨_, entered, ended⟩⟩⟩

/-- The same for a function that always returns after them. -/
theorem requeue_then_returns_iff {p : VrPtr} {timeout : Daemon → UInt32}
    {next : Daemon → Result Daemon} (steady : ∀ q, timeout { s with q := q } = timeout s)
    (ends : ∀ q, ∃ s', next { s with q := q } = .ok s') :
    (∃ s', (do
        let s₁ ← s.tryQueue (·.vrrpRmqueueImpl p)
        let s₁ := s₁.onQueue (·.setTimeout p (timeout s₁))
        let s₂ ← s₁.tryQueue (·.vrrpEnqueueImpl w s₁.vrTop p)
        next s₂) = .ok s') ↔ s.q.Requeues w s.vrTop p (timeout s) :=
  (requeue_then_iff steady fun q => iff_true_intro (ends q)).trans (iff_of_eq (and_true _))

theorem rearm_returns_iff {p : VrPtr} {timeout : UInt32} :
    (∃ s', s.rearm w p timeout = .ok s') ↔ s.q.Requeues w s.vrTop p timeout := by
  rw [← TimerQueue.requeues_note .lock]
  have locked := @requeue_then_returns_iff w (s.onQueue (·.lock)) p (fun _ => timeout)
    (fun t => .ok (t.onQueue (·.unlock))) (fun _ => rfl) fun q => ⟨_, rfl⟩
  exact locked

theorem vrrpStateB2m_returns_iff :
    (∃ s', s.vrrpStateB2m w v = .ok s') ↔
      s.q.Requeues w s.vrTop (s.ds v).vr (s.advTimeout v) := by
  simp only [vrrpStateB2m, vrrpStateExecution_backToMast, ok_bind]
  exact requeue_then_returns_iff (fun _ => rfl) fun q => ⟨_, rfl⟩

/-- With a flag set, a demotion returns when its VR can be requeued and there is a child to
signal. -/
theorem vrrpStateM2b_returns_iff (up : s.anyMasterUp ≠ 0) :
    (∃ s', s.vrrpStateM2b w v = .ok s') ↔
      s.q.Requeues w s.vrTop (s.ds v).vr (s.advTimeout v) ∧ (s.ds v).pid ≠ 0 := by
  rw [← TimerQueue.requeues_note .lock]
  simp only [vrrpStateM2b]
  refine requeue_then_iff (fun _ => rfl) fun q => ?_
  constructor
  · rintro ⟨s', returns⟩
    obtain ⟨t, executed, -⟩ := bind_eq_ok.mp returns
    exact ((execution_leave (.inl rfl)).mp executed).1
  · intro alive
    have executed := (@execution_leave w .mastToBack v ({ s with q := q.unlock } : Daemon) _ .back
      (.inl rfl)).mpr ⟨alive, rfl⟩
    refine ⟨_, bind_eq_ok.mpr ⟨_, executed, if_neg fun none => ?_⟩⟩
    refine up ((anyMasterUp_congr ?_).trans none)
    simp only [flag_onQueue, flag_leave]

/-- A key finds nothing to take out of a queue of at most one. -/
theorem vrrpRmqueue_single {key : Key} {ret : Int} (single : s.q.Single x)
    (returns : s.vrrpRmqueue key = .ok (ret, s')) : ret ≠ VrrpRet.success.code ∧ s' = s := by
  rcases vrrpRmqueue_outcome returns with refused | ⟨v, -, linked, -⟩
  · exact refused
  · exact absurd ⟨single.qnext _, single.qprev _⟩ linked

end Daemon

end VrrpDaemon
