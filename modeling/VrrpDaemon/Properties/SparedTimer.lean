import VrrpDaemon.Behaviour.Allocation
import VrrpDaemon.Behaviour.QueueRoom
import VrrpDaemon.Properties.AlarmService
import VrrpDaemon.Properties.LockDiscipline
import VrrpDaemon.Properties.StartupWindow

/-!
# What an alarm leaves of a starting instance

An alarm that comes while an instance is started finds its VR at the head of the queue,
or not. `Spared` says in which of these cases the instance keeps its timer. This module
has what the handler leaves of the queue then (`Waits.fit`, `Waits.alarm`), and what the
statements behind the alarm lead to from there.
-/

set_option autoImplicit false

namespace VrrpDaemon

open Machine

namespace TimerQueue

variable {w : World} {vrs : Nat} {entry : VrPtr} {queue : List VrPtr} {q q' : TimerQueue}

theorem Holds.enqueue_hooked (holds : q.Holds queue) (occupied : q.advQ ≠ none)
    (returns : q.vrrpEnqueueImpl w vrs entry = .ok q') : q'.Hooked entry := by
  cases queue with
  | nil => exact absurd (holds.empty_iff.mpr rfl) occupied
  | cons h behind =>
      have queued : q.advQ = some h := holds.1.1
      obtain ⟨c, sum, covers, qprev, advQ, qnext⟩ := vrrpEnqueueImpl_occupied queued returns
      refine ⟨by rw [qprev, Function.update_self], ?_⟩
      by_cases first : c = h
      · rw [if_pos first] at advQ
        exact .inl advQ
      · rw [if_neg first] at advQ qnext
        by_cases here : h = entry
        · exact .inl (here ▸ advQ)
        · refine .inr ⟨by rw [qnext, Function.update_self], h, here, advQ, ?_, ?_⟩
          · rw [qprev, Function.update_of_ne here, Function.update_of_ne (Ne.symm first)]
            exact holds.2.1
          · rw [qnext, Function.update_of_ne here]
            intro last
            refine first (scan_own (fun n next => ?_) (fun n same => ?_) covers)
            · cases last.symm.trans next
            · cases queued.symm.trans same
              rfl

end TimerQueue

namespace Daemon

/-- The VR at the head of the queue is that of the instance. -/
def Heads (v : DsPtr) (s : Daemon) : Prop :=
  ∃ entry, s.q.advQ = some entry ∧ (s.vrs entry).parent = v

/-- The queue is empty, or an alarm empties it: the instance of its head does not run. -/
def Empties (s : Daemon) : Prop :=
  ∀ h, s.q.advQ = some h → (s.ds (s.vrs h).parent).state.running = false

/-- The instance runs, and its VR is met in the queue exactly once. -/
def Pending (v : DsPtr) (s : Daemon) : Prop :=
  (s.ds v).state.running = true ∧ Once s.q.qnext s.q.advQ (s.ds v).vr

/-- Since the first state as many locks as unlocks were logged: the lock is free. -/
def LockFree (s t : Daemon) : Prop :=
  ∃ log, t.q.log = s.q.log ++ log ∧ held lockUse log = false

/-- The command starts the instance: a create with priority 255 that is granted, or a
startup that finds it in `INIT`. -/
def Starts (w : World) (s : Daemon) (v : DsPtr) : Command → Prop
  | .create inst => inst.viVa.pri = 255 ∧
      ∃ t, s.vrrpCreateInst w inst = .ok (VrrpRet.success.code, some v, t)
  | .startup key => key.af = afInet ∧ key.vid ≠ 0 ∧ s.vrrpSearchInst key = .ok (some v) ∧
      (s.ds v).state = .init
  | .remove _ | .shutdown _ | .modify _ _ _ _ _ => False

/-- The command goes on to `vrrp_state_b2m`. -/
def TakesOver (s : Daemon) : Command → Prop
  | .startup _ => s.anyMasterUp = 0
  | .create _ | .remove _ | .shutdown _ | .modify _ _ _ _ _ => False

/-- The links that the VR of the instance has kept do not lead back to it. A new VR has
none. -/
def LinksAway (s : Daemon) (v : DsPtr) : Command → Prop
  | .startup _ => s.q.Leaves (s.ds v).vr
  | .create _ | .remove _ | .shutdown _ | .modify _ _ _ _ _ => True

/-- The state at the alarm, when the command began in `s`. If the alarm finds the VR at
the head, its instance is in `MAST` and the queue was empty, or it is in `INIT` and is
entered again later or stays at the head of a queue that had members. If it does not,
the VR is entered into an empty queue, or the command does not requeue it. -/
structure Spared (s : Daemon) (takes away : Prop) (v : DsPtr) (t : Daemon) : Prop where
  head : t.Heads v → ((t.ds v).state = .mast ∧ s.q.advQ = none) ∨
    ((t.ds v).state = .init ∧ (s.q.advQ ≠ none ∨ takes))
  emptied : ¬ t.Heads v → s.Empties → takes ∨ away
  occupied : ¬ t.Heads v → ¬ s.Empties → ¬ takes

/-- The alarm spares the timer of the instance that the command starts. -/
def Spares (s : Daemon) (command : Command) (v : DsPtr) (t : Daemon) : Prop :=
  s.Spared (s.TakesOver command) (s.LinksAway v command) v t

variable {w : World} {b t t₁ : Daemon} {v : DsPtr} {entry h : VrPtr} {queue : List VrPtr}
  {takes away : Prop} {rest : Program}

/-! ## What the alarm leaves -/

/-- A queue of allocated VRs, well formed, and an instance in `INIT` with its VR. -/
structure Waits (b : Daemon) (queue : List VrPtr) (v : DsPtr) (entry : VrPtr) : Prop where
  allocated : b.Allocated
  holds : b.q.Holds queue
  vr : (b.ds v).vr = entry
  below : entry < b.vrTop
  parent : (b.vrs entry).parent = v
  idle : (b.ds v).state = .init

/-- The queue is fit for the VR to be entered: it is empty if the command requeues the
VR, and otherwise has room for it. -/
structure Fit (takes : Prop) (entry : VrPtr) (q : TimerQueue) : Prop where
  empty : takes → q.advQ = none
  room : ¬ takes → q.Room entry
  away : ¬ takes → q.advQ = none → q.Leaves entry

/-- The VR has been entered: alone, or before others. -/
structure Entered (b : Daemon) (entry : VrPtr) (q : TimerQueue) : Prop where
  alone : b.q.advQ = none → q.advQ = some entry ∧ q.qprev entry = none
  hooked : b.q.advQ ≠ none → q.Hooked entry

/-- An alarm for another VR leaves room. -/
theorem Allocated.signalAlarm_room (allocated : b.Allocated) (shape : t.shape = b.shape)
    (other : ∀ h, t.q.advQ = some h → h < b.vrTop ∧ h ≠ entry)
    (returns : t.signalAlarm w = .ok t₁) : t₁.q.Room entry := by
  cases head : t.q.advQ with
  | none => exact .inl (signalAlarm_empty head returns).1
  | some h =>
      obtain ⟨below, ne⟩ := other h head
      exact (signalAlarm_place head (allocated.own shape below) returns).room ne

namespace Waits

variable (waits : b.Waits queue v entry) (shape : t.shape = b.shape)
include waits shape

theorem heads_iff (queued : t.q.advQ = some h) (below : h < b.vrTop) : t.Heads v ↔ h = entry := by
  constructor
  · rintro ⟨p, head, parent⟩
    cases queued.symm.trans head
    have own := waits.allocated.own shape below
    rw [parent, vr_of_shape shape, waits.vr] at own
    exact own.symm
  · rintro rfl
    exact ⟨h, queued, (parent_of_shape shape h).trans waits.parent⟩

theorem heads (queued : t.q.advQ = some entry) : t.Heads v :=
  ⟨entry, queued, (parent_of_shape shape entry).trans waits.parent⟩

/-- An alarm that finds the VR at the head. -/
theorem place (queued : t.q.advQ = some entry) (returns : t.signalAlarm w = .ok t₁) :
    t₁.q.Stands entry
      ((t.servedEdits entry).foldl Place.after (if t.q.qprev entry = none then .out else .queued)) := by
  refine signalAlarm_place queued ?_ returns
  rw [(parent_of_shape shape entry).trans waits.parent, vr_of_shape shape]
  exact waits.vr

/-- **An alarm after the VR was entered.** -/
theorem alarm (entered : Entered b entry t.q) (spared : b.Spared takes away v t)
    (returns : t.signalAlarm w = .ok t₁) :
    ((t.ds v).state = .mast ∧ t₁.q.Stands entry .queued) ∨
      ((t.ds v).state = .init ∧
        (t₁.q.Stands entry .queued ∨ takes ∧ t₁.q.Stands entry .out)) := by
  have parent : (t.vrs entry).parent = v := (parent_of_shape shape entry).trans waits.parent
  by_cases empty : b.q.advQ = none
  · obtain ⟨queued, first⟩ := entered.alone empty
    have placed := waits.place shape queued returns
    rw [if_pos first] at placed
    simp only [servedEdits, parent] at placed
    rcases spared.head (waits.heads shape queued) with ⟨master, -⟩ | ⟨idle, occupied | requeued⟩
    · rw [master] at placed
      exact .inl ⟨master, placed⟩
    · exact absurd empty occupied
    · rw [idle] at placed
      exact .inr ⟨idle, .inr ⟨requeued, placed⟩⟩
  · obtain ⟨itself, queued | ⟨-, stuck⟩⟩ := entered.hooked empty
    · have placed := waits.place shape queued returns
      rw [if_neg (by simp [itself])] at placed
      simp only [servedEdits, parent] at placed
      rcases spared.head (waits.heads shape queued) with ⟨-, none⟩ | ⟨idle, -⟩
      · exact absurd none empty
      · rw [idle] at placed
        exact .inr ⟨idle, .inl placed⟩
    · obtain ⟨h, -, head, before, after⟩ := stuck
      exact absurd returns (not_signalAlarm_of_stuck head before after)

end Waits

/-- The links of two queues are the same. -/
structure SameLinks (q q' : TimerQueue) : Prop where
  advQ : q'.advQ = q.advQ
  qnext : q'.qnext = q.qnext
  qprev : q'.qprev = q.qprev

theorem SameLinks.holds {q q' : TimerQueue} (same : SameLinks q q') (holds : q.Holds queue) :
    q'.Holds queue := by
  rw [TimerQueue.Holds, same.advQ, same.qnext, same.qprev]
  exact holds

namespace Waits

/-- An alarm that finds the queue empty. -/
theorem fit_empty (empty : b.q.advQ = none) (same : SameLinks b.q t.q)
    (spared : b.Spared takes away v t) (leaves : away → b.q.Leaves entry)
    (returns : t.signalAlarm w = .ok t₁) : Fit takes entry t₁.q := by
  have unheaded : ¬ t.Heads v := fun ⟨p, head, _⟩ => by
    cases (same.advQ.trans empty).symm.trans head
  have empties : b.Empties := fun h head => by cases empty.symm.trans head
  obtain ⟨none, qnext, -⟩ := signalAlarm_empty (same.advQ.trans empty) returns
  refine ⟨fun _ => none, fun _ => .inl none, fun stays _ => ?_⟩
  have away := leaves ((spared.emptied unheaded empties).resolve_left stays)
  rwa [TimerQueue.Leaves, qnext, same.qnext]

/-- An alarm that finds one VR, of an instance that runs: the VR is the head again. -/
theorem fit_running (waits : b.Waits [h] v entry) (core : t.core = b.core)
    (same : SameLinks b.q t.q) (spared : b.Spared takes away v t)
    (runs : (b.ds (b.vrs h).parent).state.running = true)
    (placed : t₁.q.Stands h (servedPlace (b.ds (b.vrs h).parent).state)) : Fit takes entry t₁.q := by
  have shape := shape_of_core core
  have queued : b.q.advQ = some h := waits.holds.1.1
  have below := waits.allocated.queue.advQ h queued
  have other : h ≠ entry := fun here => by
    rw [here, waits.parent, waits.idle] at runs
    cases runs
  have unheaded : ¬ t.Heads v := fun here =>
    other ((waits.heads_iff shape (same.advQ.trans queued) below).mp here)
  have stays := spared.occupied unheaded fun empties => by
    rw [empties h queued] at runs
    cases runs
  refine ⟨fun requeued => absurd requeued stays, fun _ => placed.room other, fun _ none => ?_⟩
  cases state : (b.ds (b.vrs h).parent).state with
  | mast | back =>
      rw [state] at placed
      cases none.symm.trans placed.1
  | none | init =>
      rw [state] at runs
      cases runs

/-- An alarm that finds one VR, of an instance that does not run: the VR is taken out. -/
theorem fit_idle (waits : b.Waits [h] v entry) (core : t.core = b.core)
    (same : SameLinks b.q t.q) (spared : b.Spared takes away v t)
    (leaves : away → b.q.Leaves entry)
    (runs : (b.ds (b.vrs h).parent).state.running = false)
    (placed : t₁.q.Stands h (servedPlace (b.ds (b.vrs h).parent).state))
    (returns : t.signalAlarm w = .ok t₁) : Fit takes entry t₁.q := by
  have shape := shape_of_core core
  have queued : b.q.advQ = some h := waits.holds.1.1
  have below := waits.allocated.queue.advQ h queued
  have placed : t₁.q.Stands h .out := by
    cases state : (b.ds (b.vrs h).parent).state with
    | mast | back =>
        rw [state] at runs
        cases runs
    | none | init =>
        rw [state] at placed
        exact placed
  refine ⟨fun _ => placed.1, fun _ => .inl placed.1, fun stays _ => ?_⟩
  by_cases here : h = entry
  · exact TimerQueue.leaves_last (here ▸ placed.2.1)
  · have unheaded : ¬ t.Heads v := fun heading =>
      here ((waits.heads_iff shape (same.advQ.trans queued) below).mp heading)
    have empties : b.Empties := fun p head => by
      cases queued.symm.trans head
      exact runs
    have away := leaves ((spared.emptied unheaded empties).resolve_left stays)
    have holds := same.holds waits.holds
    have last : t.q.qnext h = none := holds.1.2
    have idle : (t.ds (t.vrs h).parent).state.running = false := by
      rwa [parent_of_shape shape, ds_of_core core]
    have qnext := signalAlarm_idle (same.advQ.trans queued) holds.2.1 idle returns
    rwa [TimerQueue.Leaves, qnext, Function.update_eq_self_iff.mpr last.symm, same.qnext]

/-- **An alarm before the VR is entered.** -/
theorem fit (waits : b.Waits queue v entry) (core : t.core = b.core) (same : SameLinks b.q t.q)
    (spared : b.Spared takes away v t) (leaves : away → b.q.Leaves entry)
    (returns : t.signalAlarm w = .ok t₁) : Fit takes entry t₁.q := by
  have holds := same.holds waits.holds
  cases queue with
  | nil => exact fit_empty (waits.holds.empty_iff.mpr rfl) same spared leaves returns
  | cons h behind =>
      cases behind with
      | cons n behind => exact absurd returns (not_signalAlarm_of_two holds)
      | nil =>
          have shape := shape_of_core core
          have own := waits.allocated.own shape
            (waits.allocated.queue.advQ h waits.holds.1.1)
          have placed := signalAlarm_stands (TimerQueue.holds_single_iff.mp holds) own returns
          rw [parent_of_shape shape, ds_of_core core] at placed
          cases runs : (b.ds (b.vrs h).parent).state.running with
          | true => exact waits.fit_running core same spared runs placed
          | false => exact waits.fit_idle core same spared leaves runs placed returns

variable (waits : b.Waits queue v entry)
include waits

/-- The queue once the VR is entered. -/
theorem inserted {vrs : Nat} {q q' : TimerQueue}
    (returns : q.vrrpEnqueueImpl w vrs entry = .ok q') (same : SameLinks b.q q) :
    Entered b entry q' := by
  constructor
  · intro empty
    rw [TimerQueue.vrrpEnqueueImpl_empty (same.advQ.trans empty)] at returns
    cases returns
    exact ⟨rfl, Function.update_self ..⟩
  · intro occupied
    have holds := same.holds waits.holds
    exact holds.enqueue_hooked (fun none => occupied (same.advQ.symm.trans none)) returns

end Waits

/-! ## What the statements behind the alarm lead to -/

theorem yields_rmqueue {Q : Daemon → Prop} : Prog.Yields Q (rmqueueProgram entry rest) t ↔
    ∀ t', t.tryQueue (·.vrrpRmqueueImpl entry) = .ok t' → Prog.Yields Q rest t' :=
  Prog.yields_of_run run_rmqueue

theorem yields_enqueue {Q : Daemon → Prop} : Prog.Yields Q (enqueueProgram w entry rest) t ↔
    ∀ t', t.tryQueue (·.vrrpEnqueueImpl w t.vrTop entry) = .ok t' → Prog.Yields Q rest t' :=
  Prog.yields_of_run run_enqueue

theorem Pending.execution (pending : Pending v t) {trans : VrrpStateTrans} {t' : Daemon}
    (returns : t.vrrpStateExecution w trans v = .ok t') : Pending v t' := by
  obtain ⟨running, once⟩ := pending
  obtain rfl := eq_executed returns
  refine ⟨?_, ?_⟩
  · rwa [state_execution]
  · rwa [q_execution, vr_of_shape (shape_execution _ _)]

/-- The end of a transition to `MAST`. -/
theorem yields_master {trans : VrrpStateTrans} {delay : Daemon → Int} (own : (t.ds v).vr = entry)
    (once : Once t.q.qnext t.q.advQ entry) :
    Prog.Yields (Pending v) (.change (·.setState v .mast) <|
      .attempt (·.vrrpStateExecution w trans v) <|
      .change (fun s => s.onQueue (·.alarm (delay s))) (.done : Program)) t := by
  have pending : Pending v (t.setState v .mast) := by
    refine ⟨?_, ?_⟩
    · rw [setState_ds_self]
      rfl
    · rw [vr_of_shape (shape_setState _ _ _), own]
      exact once
  refine Prog.yields_change.mpr (Prog.yields_act.mpr fun t' executed => ?_)
  have still : Pending v t' := pending.execution executed
  exact Prog.yields_change.mpr (Prog.yields_done.mpr still)

/-- `vrrp_state_b2m` for a VR that is out, or at the head with nothing before it. -/
theorem yields_requeued (own : (t.ds v).vr = entry)
    (alone : t.q.Stands entry .out ∨ (t.q.advQ = some entry ∧ t.q.qprev entry = none)) :
    Prog.Yields (Pending v) (vrrpStateB2mProgram w v .done) t := by
  rw [vrrpStateB2mProgram, Prog.yields_look, own, yields_rmqueue]
  intro t₁ removed
  rw [Prog.yields_change, yields_enqueue]
  intro t₂ entered
  obtain ⟨q₁, out, rfl⟩ := tryQueue_eq_ok.mp removed
  obtain ⟨q₂, back, rfl⟩ := tryQueue_eq_ok.mp entered
  have empty : q₁.Stands entry .out := by
    rcases alone with gone | ⟨queued, first⟩
    · exact gone.rmqueue out
    · have taken := TimerQueue.rmqueue_head queued out
      rwa [if_pos first] at taken
  have timed : (q₁.setTimeout entry (t.advTimeout v)).Stands entry .out := empty
  exact yields_master own (timed.enqueue back 0).once

/-- The sleep and the test. -/
theorem yields_retry (own : (t.ds v).vr = entry) (running : (t.ds v).state.running = true)
    (requeued : t.anyMasterUp = 0 →
      t.q.Stands entry .out ∨ (t.q.advQ = some entry ∧ t.q.qprev entry = none))
    (stays : t.anyMasterUp ≠ 0 → Once t.q.qnext t.q.advQ entry) :
    Prog.Yields (Pending v) (retryProgram w v .done) t := by
  rw [retryProgram, Prog.yields_change, Prog.yields_look]
  have up : (t.onQueue (·.sleep (t.vrrpDelay v))).anyMasterUp = t.anyMasterUp :=
    anyMasterUp_congr rfl
  split
  · rename_i none
    exact yields_requeued own (requeued (up ▸ none))
  · rename_i some
    rw [up] at some
    exact Prog.yields_done.mpr ⟨running, own ▸ stays some⟩

/-- **The starting transition to `BACK`** from a queue that is fit. -/
theorem yields_i2b (own : (t.ds v).vr = entry) (fit : Fit takes entry t.q)
    (up : takes ↔ t.anyMasterUp = 0) :
    Prog.Yields (Pending v) (lockProgram <| enqueueProgram w entry <| unlockProgram <|
      .change (·.setState v .back) <| retryProgram w v .done) t := by
  rw [lockProgram, Prog.yields_change, yields_enqueue]
  intro t₁ entered
  obtain ⟨q₁, inserted, rfl⟩ := tryQueue_eq_ok.mp entered
  rw [unlockProgram, Prog.yields_change, Prog.yields_change]
  have flags : ((({ t.onQueue (·.lock) with q := q₁ } : Daemon).onQueue (·.unlock)).setState v
      .back).anyMasterUp = t.anyMasterUp := anyMasterUp_congr rfl
  have vr : (((({ t.onQueue (·.lock) with q := q₁ } : Daemon).onQueue (·.unlock)).setState v
      .back).ds v).vr = entry := by
    rw [vr_of_shape (shape_setState _ _ _)]
    exact own
  refine yields_retry vr ?_ ?_ ?_
  · rw [setState_ds_self]
    rfl
  · intro none
    rw [flags] at none
    have empty : t.q.lock.advQ = Option.none := fit.empty (up.mpr none)
    rw [q_onQueue, TimerQueue.vrrpEnqueueImpl_empty empty] at inserted
    cases inserted
    exact .inr ⟨rfl, Function.update_self ..⟩
  · intro some
    rw [flags] at some
    have stays : ¬ takes := fun requeued => some (up.mp requeued)
    have room : t.q.lock.Room entry := fit.room stays
    have once : Once q₁.qnext q₁.advQ entry := room.enqueue (fit.away stays) inserted
    exact once

/-- **The starting transition to `MAST`** from a queue that is fit. -/
theorem yields_i2m {delay : Int} (own : (t.ds v).vr = entry) (fit : Fit False entry t.q) :
    Prog.Yields (Pending v) (lockProgram <| enqueueProgram w entry <| unlockProgram <|
      .change (·.setState v .mast) <| .attempt (·.vrrpStateExecution w .initToMast v) <|
      .change (·.onQueue (·.alarm delay)) .done) t := by
  rw [lockProgram, Prog.yields_change, yields_enqueue]
  intro t₁ entered
  obtain ⟨q₁, inserted, rfl⟩ := tryQueue_eq_ok.mp entered
  rw [unlockProgram, Prog.yields_change]
  have room : t.q.lock.Room entry := fit.room not_false
  have once : Once q₁.qnext q₁.advQ entry := room.enqueue (fit.away not_false) inserted
  exact yields_master own once

end Daemon

end VrrpDaemon
