import VrrpDaemon.Behaviour.Queue

/-!
# When the operations return

The functions on the list of instances return whenever the list is linked. The
transitions call the queue functions, so they return exactly when those do: when
a VR that is taken out does not have a successor only (`Removable`), and when a
queue that is entered is empty or can take the VR (`Admits`). A master that steps down
also needs a child to signal.
-/

set_option autoImplicit false

namespace VrrpDaemon

open Machine

/-! ## The queue -/

namespace TimerQueue

variable {q : TimerQueue} {w : World} {vrs : Nat} {entry : VrPtr}

/-- `vrrp_rmqueue_impl` can take the VR out. -/
def Removable (q : TimerQueue) (entry : VrPtr) : Prop :=
  q.qprev entry = none → q.qnext entry = none

/-- The log plays no part in whether a queue can take a VR. -/
theorem admits_note (event : TimerEvent) :
    (q.note event).Admits w vrs entry ↔ q.Admits w vrs entry := by
  have scans : ∀ t fuel start sum, (q.note event).scan t fuel start sum = q.scan t fuel start sum :=
    scan_congr rfl rfl
  simp only [Admits, Covers, scans]
  exact Iff.rfl

/-- A VR can enter the queue with a timeout and, if so asked, be taken out and entered again.
The queue is empty, and the VR has no successor left over. Or a walk stops at a VR; then a
second one must do so, which the VR itself is on if it has become the head. -/
def Enters (w : World) (vrs : Nat) (entry : VrPtr) (timeout : UInt32) (again : Prop)
    (q : TimerQueue) : Prop :=
  (q.advQ = none ∧ (again → q.qnext entry = none)) ∨
  ∃ head c sum, q.advQ = some head ∧
    (q.setTimeout entry timeout).Covers vrs entry (w.ualarm q.ualarmCalls) c sum ∧
    (again → if c = head then ¬ w.ualarm (q.ualarmCalls + 2) < timeout
      else ∃ c' sum', ((q.setTimeout entry timeout).setQnext entry none).Covers vrs entry
        (w.ualarm (q.ualarmCalls + 2)) c' sum')

/-- The walk from a VR without a successor stops there or not at all. -/
theorem scan_last_iff {timeout : UInt32} {fuel : Nat} {curr : VrPtr} {sum : UInt32}
    (last : q.qnext curr = none) :
    (∃ c sum', q.scan timeout fuel (some curr) sum = .ok (some c, sum')) ↔ ¬ sum < timeout := by
  by_cases short : sum < timeout
  · cases fuel with
    | zero => simp [scan, short]
    | succ fuel => cases fuel <;> simp [scan, short, last]
  · cases fuel <;> simp [scan, short]

/-- The queue that a VR has entered while it was empty. -/
theorem requeues_entered_empty {q' : TimerQueue} {timeout : UInt32} (empty : q.advQ = none)
    (entered : q.vrrpEnqueueImpl w vrs entry = .ok q') :
    q'.Requeues w vrs entry timeout ↔ q.qnext entry = none := by
  rw [vrrpEnqueueImpl_empty empty] at entered
  cases entered
  have alone : ((({ q.armed w entry with advQ := some entry } : TimerQueue).setQprev entry
      none).setTimeout entry 0).qprev entry = none := Function.update_self ..
  constructor
  · rintro ⟨removable, -⟩
    exact removable alone
  · intro last
    exact ⟨fun _ => last, .inl ((if_pos alone).trans last)⟩

/-- The queue that a VR has entered in front of another one: its `qprev` is itself, so it can be
taken out, and is the last one then if it was the head. -/
theorem requeues_entered_occupied {q' : TimerQueue} {timeout : UInt32} {head : VrPtr}
    (occupied : q.advQ = some head) (own : q.timeout entry = timeout)
    (entered : q.vrrpEnqueueImpl w vrs entry = .ok q') :
    ∃ c sum, q.Covers vrs entry (w.ualarm q.ualarmCalls) c sum ∧
      (q'.Requeues w vrs entry timeout ↔
        if c = head then ¬ w.ualarm (q.ualarmCalls + 2) < timeout
        else ∃ c' sum', (q.setQnext entry none).Covers vrs entry
          (w.ualarm (q.ualarmCalls + 2)) c' sum') := by
  obtain ⟨c, sum, covers, qprev, advQ, qnext⟩ := vrrpEnqueueImpl_occupied occupied entered
  obtain ⟨calls, others⟩ := vrrpEnqueueImpl_others (by simp [occupied]) entered
  refine ⟨c, sum, covers, ?_⟩
  have itself : q'.qprev entry = some entry := by rw [qprev, Function.update_self]
  have start : (q'.without entry).advQ = q'.advQ := if_neg (by simp [itself])
  have links : (q'.without entry).qnext = (q.setQnext entry none).qnext := by
    simp [without, itself, qnext, setQnext]
  -- no timeout but its own has changed, and that one is stored again
  have times : Function.update (q'.without entry).timeout entry timeout = q.timeout := by
    funext p
    by_cases here : p = entry
    · rw [here, Function.update_self, own]
    · rw [Function.update_of_ne here, ← others p here]
      cases behind : q'.qnext entry with
      | none => simp [without, itself, behind]
      | some n => simp [without, itself, behind, Function.update_of_ne here]
  have walk : ∀ c' sum', ((q'.without entry).setTimeout entry timeout).Covers vrs entry
      (w.ualarm (q.ualarmCalls + 2)) c' sum' ↔
        (q.setQnext entry none).scan timeout (scanFuel vrs)
          (if c = head then some entry else some head) (w.ualarm (q.ualarmCalls + 2)) =
            .ok (some c', sum') := by
    intro c' sum'
    have scans := @scan_congr ((q'.without entry).setTimeout entry timeout) (q.setQnext entry none)
      links times timeout (scanFuel vrs) (if c = head then some entry else some head)
      (w.ualarm (q.ualarmCalls + 2))
    rw [Covers, setTimeout_advQ, start, advQ, ← scans]
    simp [setTimeout]
  have admits : q'.Requeues w vrs entry timeout ↔ ∃ c' sum',
      (q.setQnext entry none).scan timeout (scanFuel vrs)
        (if c = head then some entry else some head) (w.ualarm (q.ualarmCalls + 2)) =
          .ok (some c', sum') := by
    have occupied' : ((q'.without entry).setTimeout entry timeout).advQ ≠ none := by
      rw [setTimeout_advQ, start, advQ]
      split <;> exact Option.some_ne_none _
    have remains : ((q'.without entry).setTimeout entry timeout).ualarmCalls = q.ualarmCalls + 2 :=
      calls
    simp only [Requeues, Admits, occupied', false_or, remains, walk]
    exact and_iff_right (by simp [itself])
  rw [admits]
  split
  · have last : (q.setQnext entry none).qnext entry = none := Function.update_self ..
    exact scan_last_iff last
  · have stored : (q.setQnext entry none).timeout entry = timeout := own
    simp only [Covers, stored, setQnext_advQ, occupied]

/-- **The two calls return** exactly when the VR can enter. -/
theorem enters_iff {timeout : UInt32} {again : Prop} :
    (∃ q', (q.setTimeout entry timeout).lock.vrrpEnqueueImpl w vrs entry = .ok q' ∧
      (again → q'.Requeues w vrs entry timeout)) ↔ q.Enters w vrs entry timeout again := by
  have own : (q.setTimeout entry timeout).lock.timeout entry = timeout := Function.update_self ..
  -- the lock only goes to the log
  have same := @scan_congr (q.setTimeout entry timeout).lock (q.setTimeout entry timeout) rfl rfl
  have same' := @scan_congr ((q.setTimeout entry timeout).lock.setQnext entry none)
    ((q.setTimeout entry timeout).setQnext entry none) rfl rfl
  have locked : ∀ remain c sum, (q.setTimeout entry timeout).lock.Covers vrs entry remain c sum ↔
      (q.setTimeout entry timeout).Covers vrs entry remain c sum := by
    intro remain c sum
    unfold Covers
    rw [same]
    exact Iff.rfl
  have unlinked : ∀ remain c sum,
      ((q.setTimeout entry timeout).lock.setQnext entry none).Covers vrs entry remain c sum ↔
        ((q.setTimeout entry timeout).setQnext entry none).Covers vrs entry remain c sum := by
    intro remain c sum
    unfold Covers
    rw [same']
    exact Iff.rfl
  cases queued : q.advQ with
  | none =>
      have first := @requeues_entered_empty (q.setTimeout entry timeout).lock w vrs entry
      simp only [Enters, queued, true_and, reduceCtorEq, false_and, exists_false, or_false]
      constructor
      · rintro ⟨q', entered, requeues⟩ asked
        exact (first queued entered).mp (requeues asked)
      · intro last
        have entered := @vrrpEnqueueImpl_empty (q.setTimeout entry timeout).lock w vrs entry queued
        exact ⟨_, entered, fun asked => (first queued entered).mpr (last asked)⟩
  | some head =>
      have later := @requeues_entered_occupied (q.setTimeout entry timeout).lock w vrs entry
      simp only [Enters, queued, reduceCtorEq, false_and, false_or, Option.some.injEq,
        exists_and_left, exists_eq_left']
      constructor
      · rintro ⟨q', entered, requeues⟩
        obtain ⟨c, sum, covers, iff⟩ := later queued own entered
        simp only [unlinked] at iff
        exact ⟨c, sum, (locked ..).mp covers, fun asked => iff.mp (requeues asked)⟩
      · rintro ⟨c, sum, covers, again⟩
        obtain ⟨q', entered⟩ := @vrrpEnqueueImpl_returns (q.setTimeout entry timeout).lock w vrs
          entry head c sum queued ((locked ..).mpr covers)
        obtain ⟨c', sum', covers', iff⟩ := later queued own entered
        simp only [unlinked] at iff
        cases covers.symm.trans ((locked ..).mp covers')
        exact ⟨q', entered, fun asked => iff.mpr (again asked)⟩

end TimerQueue

namespace Daemon

variable {w : World} {v : DsPtr} {s s' : Daemon} {nodes : List DsPtr}

theorem tryQueue_rmqueue_iff {p : VrPtr} :
    (∃ s', s.tryQueue (·.vrrpRmqueueImpl p) = .ok s') ↔ s.q.Removable p := by
  rw [TimerQueue.Removable, ← TimerQueue.vrrpRmqueueImpl_returns_iff]
  constructor
  · rintro ⟨s', returns⟩
    obtain ⟨q, out, -⟩ := tryQueue_eq_ok.mp returns
    exact ⟨q, out⟩
  · rintro ⟨q, out⟩
    exact ⟨_, tryQueue_eq_ok.mpr ⟨q, out, rfl⟩⟩

theorem tryQueue_enqueue_iff {p : VrPtr} {vrs : Nat} :
    (∃ s', s.tryQueue (·.vrrpEnqueueImpl w vrs p) = .ok s') ↔ s.q.Admits w vrs p := by
  rw [← TimerQueue.vrrpEnqueueImpl_returns_iff]
  constructor
  · rintro ⟨s', returns⟩
    obtain ⟨q, entered, -⟩ := tryQueue_eq_ok.mp returns
    exact ⟨q, entered⟩
  · rintro ⟨q, entered⟩
    exact ⟨_, tryQueue_eq_ok.mpr ⟨q, entered, rfl⟩⟩

/-! ## The list of instances -/

/-- The loop for the place of a VRID stops along a list that ends. -/
theorem exists_placeLoop (vid : UInt8) {first : DsPtr} {fuel : Nat}
    (segment : Segment s.next (some first) nodes none) (enough : nodes.length ≤ fuel + 1) :
    ∃ curr, s.placeLoop vid fuel first = .ok curr := by
  induction nodes generalizing first fuel with
  | nil => cases segment
  | cons u nodes ih =>
      obtain ⟨start, rest⟩ := segment
      cases start
      unfold placeLoop
      split
      · split
        · exact ⟨_, rfl⟩
        · rename_i after more
          rw [more] at rest
          cases fuel with
          | zero =>
              cases nodes with
              | nil => cases rest
              | cons u' nodes => simp at enough
          | succ fuel => exact ih rest (Nat.le_of_succ_le_succ enough)
      · exact ⟨_, rfl⟩

/-- A listed instance has a predecessor. -/
theorem Linked.exists_prev (linked : s.Linked nodes) (member : v ∈ nodes) :
    ∃ before, s.prev v = some before := by
  obtain ⟨before, after, rfl⟩ := List.append_of_mem member
  obtain ⟨-, a, -, -, prev⟩ := linked.doubly.seam
  exact ⟨a, prev⟩

/-- **A new instance can be linked** into a linked list. -/
theorem Linked.exists_linkInst {new : DsPtr} (linked : s.Linked nodes) (fresh : new ∉ nodes) :
    ∃ s', s.linkInst new = .ok s' := by
  cases first : s.next instRuntimeList with
  | none =>
      simp only [linkInst, first]
      exact ⟨_, rfl⟩
  | some start =>
      have segment := linked.doubly.1
      rw [first] at segment
      obtain ⟨curr, placed⟩ := exists_placeLoop (s.vrrpId new) segment
        (Nat.le_succ_of_le linked.length_le)
      obtain ⟨before, after, rfl, -, -⟩ := placeLoop_outcome segment placed
      have member : curr ∈ before ++ curr :: after := by simp
      have currNew : curr ≠ new := fun same => fresh (same ▸ member)
      obtain ⟨a, prevCurr⟩ := linked.exists_prev member
      simp only [linkInst, first, placed, ok_bind, Function.update_of_ne currNew, prevCurr,
        deref_some]
      split <;> exact ⟨_, rfl⟩

/-- **A listed instance can be unlinked.** -/
theorem Linked.exists_unlinkInst (linked : s.Linked nodes) (member : v ∈ nodes) :
    ∃ s', s.unlinkInst v = .ok s' := by
  obtain ⟨a, prev⟩ := linked.exists_prev member
  simp only [unlinkInst, prev, deref_some, ok_bind]
  split <;> exact ⟨_, rfl⟩

/-! ## The transitions -/

/-- A master stops when its VR can be taken out and there is a child to signal. -/
theorem vrrpStateM2i_returns_iff :
    (∃ s', s.vrrpStateM2i w v = .ok s') ↔ s.q.Removable (s.ds v).vr ∧ (s.ds v).pid ≠ 0 := by
  have locked : (∃ s₁, (s.onQueue (·.lock)).tryQueue (·.vrrpRmqueueImpl (s.ds v).vr) = .ok s₁) ↔
      s.q.Removable (s.ds v).vr := tryQueue_rmqueue_iff
  rw [← locked]
  simp only [vrrpStateM2i]
  constructor
  · rintro ⟨s', returns⟩
    obtain ⟨s₁, removed, executed⟩ := bind_eq_ok.mp returns
    have alive := ((execution_leave (.inr rfl)).mp executed).1
    have same : s₁.core = (s.onQueue (·.lock)).core := core_tryQueue removed
    exact ⟨⟨s₁, removed⟩, (pid_of_core same v).symm.trans_ne alive⟩
  · rintro ⟨⟨s₁, removed⟩, alive⟩
    have same : s₁.core = (s.onQueue (·.lock)).core := core_tryQueue removed
    have executed := (@execution_leave w .mastToInit v (s₁.onQueue (·.unlock)) _ .init
      (.inr rfl)).mpr ⟨(pid_of_core same v).trans_ne alive, rfl⟩
    exact ⟨_, bind_eq_ok.mpr ⟨s₁, removed, executed⟩⟩

theorem vrrpStateB2i_returns_iff :
    (∃ s', s.vrrpStateB2i v = .ok s') ↔ s.q.Removable (s.ds v).vr := by
  have locked : (∃ s₁, ((s.onQueue (·.setTimeout (s.ds v).vr (s.advTimeout v))).onQueue
      (·.lock)).tryQueue (·.vrrpRmqueueImpl (s.ds v).vr) = .ok s₁) ↔
        s.q.Removable (s.ds v).vr := tryQueue_rmqueue_iff
  simp only [vrrpStateB2i]
  exact bind_returns_iff.trans locked

theorem vrrpStateI2m_returns_iff :
    (∃ reply, s.vrrpStateI2m w v = .ok reply) ↔
      (s.q.setTimeout (s.ds v).vr (s.advTimeout v)).Admits w s.vrTop (s.ds v).vr := by
  rw [← TimerQueue.admits_note .lock]
  have entering : (∃ s₁, ((s.onQueue (·.setTimeout (s.ds v).vr (s.advTimeout v))).onQueue
      (·.lock)).tryQueue (·.vrrpEnqueueImpl w s.vrTop (s.ds v).vr) = .ok s₁) ↔
        ((s.q.setTimeout (s.ds v).vr (s.advTimeout v)).note .lock).Admits w s.vrTop (s.ds v).vr :=
    tryQueue_enqueue_iff
  simp only [vrrpStateI2m, vrrpStateExecution_initToMast, ok_bind]
  exact bind_returns_iff.trans entering

/-- The promotion at the end of a startup, with the queue that the startup has
left. -/
theorem vrrpStateB2m_waiting_iff {state : VrrpState} {delay : Int} {q : TimerQueue} :
    (∃ s', ((({ s with q := q.unlock } : Daemon).setState v state).onQueue
        (·.sleep delay)).vrrpStateB2m w v = .ok s') ↔
      q.Requeues w s.vrTop (s.ds v).vr (s.advTimeout v) := by
  have vr : (({ s with q := q.unlock } : Daemon).setState v state).ds v =
      { s.ds v with state := state } := setState_ds_self ..
  have timeout : (({ s with q := q.unlock } : Daemon).setState v state).advTimeout v =
      s.advTimeout v := by
    simp only [advTimeout, vrrpDelay, Daemon.vr, vr]
    rfl
  refine vrrpStateB2m_returns_iff.trans ?_
  show (q.unlock.note (.sleep delay)).Requeues w s.vrTop
    ((({ s with q := q.unlock } : Daemon).setState v state).ds v).vr
    ((({ s with q := q.unlock } : Daemon).setState v state).advTimeout v) ↔ _
  rw [vr, timeout, TimerQueue.requeues_note, TimerQueue.unlock, TimerQueue.requeues_note]

/-- A startup, from the queue that the VR has entered on. -/
theorem vrrpStateI2b_eq : s.vrrpStateI2b w v =
    (s.q.setTimeout (s.ds v).vr (s.advTimeout v)).lock.vrrpEnqueueImpl w s.vrTop (s.ds v).vr >>=
      fun q =>
        let t := ({ s with q := q.unlock } : Daemon).setState v .back
        let t := t.onQueue (·.sleep (t.vrrpDelay v))
        if s.anyMasterUp = 0 then t.vrrpStateB2m w v else .ok t := by
  have entering : ((s.onQueue (·.setTimeout (s.ds v).vr (s.advTimeout v))).onQueue
      (·.lock)).tryQueue (·.vrrpEnqueueImpl w s.vrTop (s.ds v).vr) =
        (s.q.setTimeout (s.ds v).vr (s.advTimeout v)).lock.vrrpEnqueueImpl w s.vrTop
          (s.ds v).vr >>= fun q => .ok { s with q := q } := rfl
  show ((s.onQueue (·.setTimeout (s.ds v).vr (s.advTimeout v))).onQueue (·.lock)).tryQueue
    (·.vrrpEnqueueImpl w s.vrTop (s.ds v).vr) >>= _ = _
  rw [entering, bind_assoc]
  rfl

/-- A startup enters the VR, and requeues it at once when no flag is set. -/
theorem vrrpStateI2b_returns_iff :
    (∃ s', s.vrrpStateI2b w v = .ok s') ↔
      s.q.Enters w s.vrTop (s.ds v).vr (s.advTimeout v) (s.anyMasterUp = 0) := by
  rw [vrrpStateI2b_eq, ← TimerQueue.enters_iff]
  constructor
  · rintro ⟨s', returns⟩
    obtain ⟨q, inserted, returns⟩ := bind_eq_ok.mp returns
    refine ⟨q, inserted, fun none => ?_⟩
    simp only [none, reduceIte] at returns
    exact vrrpStateB2m_waiting_iff.mp ⟨s', returns⟩
  · rintro ⟨q, inserted, again⟩
    by_cases none : s.anyMasterUp = 0
    · obtain ⟨s', promoted⟩ := vrrpStateB2m_waiting_iff.mpr (again none)
      refine ⟨s', bind_eq_ok.mpr ⟨q, inserted, ?_⟩⟩
      simp only [none, reduceIte]
      exact promoted
    · rw [inserted, ok_bind]
      simp only [none, reduceIte]
      exact ⟨_, rfl⟩

/-! ## The queue by key -/

variable {key : Key}

/-- `vrrp_rmqueue` and `vrrp_enqueue` accept the key. -/
def QueueGiven (key : Key) : Prop := key.vid ≠ 0 ∧ queueFamily key.af = true

theorem vrrpRmqueue_refused (refused : ¬ QueueGiven key) :
    s.vrrpRmqueue key = .ok (errnoEinval, s) := by
  by_cases given : key.vid = 0
  · simp [vrrpRmqueue, given]
  · have family : queueFamily key.af = false := by
      cases family : queueFamily key.af with
      | false => rfl
      | true => exact absurd ⟨given, family⟩ refused
    simp [vrrpRmqueue, family]

theorem vrrpRmqueue_missing (given : QueueGiven key) (missing : s.vrrpSearchInst key = .ok none) :
    s.vrrpRmqueue key = .ok (-1, s) := by
  have positive : key.vid > 0 := UInt8.pos_iff_ne_zero.mpr given.1
  simp [vrrpRmqueue, positive, given.2, vrrpSearchVr, missing]

theorem vrrpRmqueue_found (given : QueueGiven key) (found : s.vrrpSearchInst key = .ok (some v)) :
    s.vrrpRmqueue key =
      if s.q.qnext (s.ds v).vr = none ∧ s.q.qprev (s.ds v).vr = none then .ok (-1, s)
      else do
        let s ← s.tryQueue (·.vrrpRmqueueImpl (s.ds v).vr)
        return (VrrpRet.success.code, s) := by
  have positive : key.vid > 0 := UInt8.pos_iff_ne_zero.mpr given.1
  simp only [vrrpRmqueue, positive, given.2, vrrpSearchVr, found, ok_bind, Option.map_some,
    not_true_eq_false, reduceIte, Bool.not_true, Bool.false_eq_true]
  rfl

theorem vrrpEnqueue_found (given : QueueGiven key) (found : s.vrrpSearchInst key = .ok (some v)) :
    s.vrrpEnqueue w key = do
      let parent := (s.vrs (s.ds v).vr).parent
      let t := s.onQueue
        (·.setTimeout (s.ds v).vr (s.enqueueTimeout parent (s.q.timeout (s.ds v).vr)))
      let s ← t.tryQueue (·.vrrpEnqueueImpl w t.vrTop (s.ds v).vr)
      return (VrrpRet.success.code, s) := by
  have positive : key.vid > 0 := UInt8.pos_iff_ne_zero.mpr given.1
  simp only [vrrpEnqueue, positive, given.2, vrrpSearchVr, found, ok_bind, Option.map_some,
    not_true_eq_false, reduceIte, Bool.not_true, Bool.false_eq_true]

theorem vrrpEnqueue_returns_iff (given : QueueGiven key)
    (found : s.vrrpSearchInst key = .ok (some v)) (parent : (s.vrs (s.ds v).vr).parent = v) :
    (∃ reply, s.vrrpEnqueue w key = .ok reply) ↔
      (s.q.setTimeout (s.ds v).vr (s.enqueueTimeout v (s.q.timeout (s.ds v).vr))).Admits w s.vrTop
        (s.ds v).vr := by
  have entering : (∃ s₁, (s.onQueue (·.setTimeout (s.ds v).vr
      (s.enqueueTimeout v (s.q.timeout (s.ds v).vr)))).tryQueue
        (·.vrrpEnqueueImpl w s.vrTop (s.ds v).vr) = .ok s₁) ↔ _ := tryQueue_enqueue_iff
  rw [vrrpEnqueue_found given found]
  simp only [parent]
  exact bind_returns_iff.trans entering

/-- `vrrp_rmqueue` returns unless the VR of the instance that its key selects has a
successor only. -/
theorem Linked.vrrpRmqueue_returns_iff (linked : s.Linked nodes) :
    (∃ reply, s.vrrpRmqueue key = .ok reply) ↔
      (QueueGiven key → ∀ v, s.vrrpSearchInst key = .ok (some v) → s.q.Removable (s.ds v).vr) := by
  by_cases given : QueueGiven key
  · cases selected : s.select key nodes with
    | none =>
        have searched := linked.search key
        rw [selected] at searched
        rw [vrrpRmqueue_missing given searched, searched]
        simp
    | some v =>
        have searched := linked.search key
        rw [selected] at searched
        rw [vrrpRmqueue_found given searched, searched]
        simp only [given, forall_const, Except.ok.injEq, Option.some.injEq, forall_eq']
        by_cases alone : s.q.qnext (s.ds v).vr = none ∧ s.q.qprev (s.ds v).vr = none
        · simp only [alone, and_self, reduceIte, Except.ok.injEq, exists_eq', true_iff]
          exact fun _ => alone.1
        · rw [if_neg alone, ← tryQueue_rmqueue_iff]
          exact bind_returns_iff
  · rw [vrrpRmqueue_refused given]
    simp [given]

/-- The queue can take the VR of an instance out and, with the timeout that the
state of the instance asks for, in again. -/
def Retimes (w : World) (s : Daemon) (v : DsPtr) : Prop :=
  s.q.Requeues w s.vrTop (s.ds v).vr
    (s.enqueueTimeout v ((s.q.without (s.ds v).vr).timeout (s.ds v).vr))

/-- A requeue returns when the VR of the instance that its key selects has no link,
or can be taken out and in. -/
theorem Linked.requeue_returns_iff (linked : s.Linked nodes) :
    (∃ s', s.requeue w key = .ok s') ↔
      (QueueGiven key → ∀ v, s.vrrpSearchInst key = .ok (some v) →
        ¬ (s.q.qnext (s.ds v).vr = none ∧ s.q.qprev (s.ds v).vr = none) → s.Retimes w v) := by
  by_cases given : QueueGiven key
  · cases selected : s.select key nodes with
    | none =>
        have searched := linked.search key
        rw [selected] at searched
        rw [requeue, vrrpRmqueue_missing given searched, searched]
        simp [VrrpRet.code]
    | some v =>
        have searched := linked.search key
        rw [selected] at searched
        have parent := linked.parent v (select_mem selected)
        have entering : (∃ reply, ({ s with q := s.q.without (s.ds v).vr } : Daemon).vrrpEnqueue w
            key = .ok reply) ↔
              ((s.q.without (s.ds v).vr).setTimeout (s.ds v).vr (s.enqueueTimeout v
                ((s.q.without (s.ds v).vr).timeout (s.ds v).vr))).Admits w s.vrTop (s.ds v).vr := by
          have same : ({ s with q := s.q.without (s.ds v).vr } : Daemon).shape = s.shape := rfl
          exact vrrpEnqueue_returns_iff given ((linked.search_congr same key).trans searched) parent
        rw [requeue, vrrpRmqueue_found given searched, searched]
        simp only [given, forall_const, Except.ok.injEq, Option.some.injEq, forall_eq']
        by_cases alone : s.q.qnext (s.ds v).vr = none ∧ s.q.qprev (s.ds v).vr = none
        · simp [alone, VrrpRet.code]
        · rw [if_neg alone]
          simp only [alone, not_false_eq_true, forall_const]
          constructor
          · rintro ⟨s', returns⟩
            obtain ⟨⟨ret, s₁⟩, removed, returns⟩ := bind_eq_ok.mp returns
            obtain ⟨s₂, removed, same⟩ := bind_eq_ok.mp removed
            cases same
            obtain ⟨q, out, rfl⟩ := tryQueue_eq_ok.mp removed
            have removable := TimerQueue.vrrpRmqueueImpl_returns_iff.mp ⟨q, out⟩
            rw [TimerQueue.vrrpRmqueueImpl_eq removable] at out
            cases out
            obtain ⟨reply, entered, -⟩ := bind_eq_ok.mp returns
            exact ⟨removable, entering.mp ⟨reply, entered⟩⟩
          · rintro ⟨removable, admits⟩
            obtain ⟨reply, entered⟩ := entering.mpr admits
            refine ⟨reply.2, bind_eq_ok.mpr ⟨_, bind_eq_ok.mpr ⟨_, tryQueue_eq_ok.mpr
              ⟨_, TimerQueue.vrrpRmqueueImpl_eq removable, rfl⟩, rfl⟩, ?_⟩⟩
            exact bind_eq_ok.mpr ⟨reply, entered, rfl⟩
  · rw [requeue, vrrpRmqueue_refused given]
    simp [given, errnoEinval, VrrpRet.code]

end Daemon

end VrrpDaemon
