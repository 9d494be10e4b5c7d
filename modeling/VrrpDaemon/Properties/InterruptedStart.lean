import VrrpDaemon.Properties.SparedTimer

/-!
# An alarm while an instance is started

`vrrp_state_i2b` and `vrrp_state_i2m` enter the VR under `adv_q_lock` and store the
new state after they have released it. An alarm in between takes the VR out for an
instance that is still in `INIT`, and does not enter it again: the instance then runs
without a timer. An alarm after the state of a backup is stored enters the VR twice.

The points of the two commands are gone through one by one (`Waits.always_startup`,
`always_create`). At each of them an alarm that spares the timer leaves it pending
(`started_pending`).
-/

set_option autoImplicit false

namespace VrrpDaemon

open Machine

namespace Daemon

variable {w : World} {b s t t' t₁ : Daemon} {v : DsPtr} {entry : VrPtr} {queue : List VrPtr}
  {nodes : List DsPtr} {takes away : Prop} {rest : Program} {key : Key}

/-! ## A blocked queue -/

/-- The queue is blocked, and the instance has left `INIT`. -/
def Halted (b : Daemon) (v : DsPtr) (entry : VrPtr) (t : Daemon) : Prop :=
  t.q.Blocked entry ∧ (t.ds v).state ≠ .init ∧ t.shape = b.shape

theorem Halted.of_core (halted : b.Halted v entry t) (core : t'.core = t.core)
    (blocked : t'.q.Blocked entry) : b.Halted v entry t' := by
  obtain ⟨-, left, shape⟩ := halted
  refine ⟨blocked, ?_, (shape_of_core core).trans shape⟩
  rwa [ds_of_core core]

theorem always_enqueue_halted (halted : b.Halted v entry t)
    (behind : ∀ t', b.Halted v entry t' → Prog.Always (fun _ => b.Halted v entry) rest t') :
    Prog.Always (fun _ => b.Halted v entry) (enqueueProgram w entry rest) t := by
  rw [enqueueProgram, Prog.always_act]
  refine ⟨halted, fun t₁ started => ?_⟩
  cases started
  have armed : b.Halted v entry (t.onQueue (·.armed w entry)) := halted.of_core rfl halted.1
  refine Prog.always_look.mpr ⟨armed, ?_⟩
  split
  · rename_i empty
    rcases armed.1 with head | ⟨h, -, queued, -⟩
    · cases empty.symm.trans head
    · cases empty.symm.trans queued
  · refine Prog.always_fetch.mpr ⟨armed, fun found _ => ?_⟩
    refine Prog.always_act.mpr ⟨armed, fun t₂ inserted => ?_⟩
    obtain ⟨q₂, placed, rfl⟩ := tryQueue_eq_ok.mp inserted
    have entered : b.Halted v entry { t.onQueue (·.armed w entry) with q := q₂ } :=
      armed.of_core rfl (armed.1.insertAt placed)
    refine Prog.always_act.mpr ⟨entered, fun t₃ rearmed => behind t₃ ?_⟩
    obtain ⟨q₃, acted, rfl⟩ := tryQueue_eq_ok.mp rearmed
    obtain ⟨first, -, same⟩ := bind_eq_ok.mp acted
    cases same
    exact entered.of_core rfl entered.1

/-- **While a VR is requeued that was hooked**, the queue stays blocked. -/
theorem always_b2m_halted (hooked : t.q.Hooked entry) (own : (t.ds v).vr = entry)
    (left : (t.ds v).state ≠ .init) (shape : t.shape = b.shape) :
    Prog.Always (fun _ => b.Halted v entry) (vrrpStateB2mProgram w v .done) t := by
  have halted : b.Halted v entry t := ⟨hooked.blocked, left, shape⟩
  refine Prog.always_look.mpr ⟨halted, ?_⟩
  rw [own, rmqueueProgram]
  refine Prog.always_change.mpr ⟨halted, ?_⟩
  have kept : (t.q.note (.rmqueue entry)).unhookForward entry = t.q.note (.rmqueue entry) :=
    TimerQueue.unhookForward_self hooked.1
  have noted : (t.onQueue fun q => (q.note (.rmqueue entry)).unhookForward entry).q.Hooked entry := by
    rw [q_onQueue, kept]
    exact hooked
  refine Prog.always_act.mpr ⟨halted.of_core rfl noted.blocked, fun t₂ unhooked => ?_⟩
  obtain ⟨q₂, unlinked, rfl⟩ := tryQueue_eq_ok.mp unhooked
  have blocked := noted.unhookBackward unlinked
  refine Prog.always_change.mpr ⟨halted.of_core rfl blocked, ?_⟩
  refine Prog.always_change.mpr ⟨halted.of_core rfl blocked.isolate, ?_⟩
  refine always_enqueue_halted (halted.of_core rfl blocked.isolate) fun t₃ entered => ?_
  refine Prog.always_change.mpr ⟨entered, ?_⟩
  have master : b.Halted v entry (t₃.setState v .mast) := by
    refine ⟨entered.1, ?_, (shape_setState _ _ _).trans entered.2.2⟩
    rw [setState_ds_self]
    intro same
    cases same
  refine Prog.always_act.mpr ⟨master, fun t₄ returned => ?_⟩
  have executed : b.Halted v entry t₄ := by
    obtain rfl := eq_executed returned
    refine ⟨?_, ?_, (shape_execution _ _).trans master.2.2⟩
    · rw [q_execution]
      exact master.1
    · rw [state_execution]
      exact master.2.1
  refine Prog.always_change.mpr ⟨executed, Prog.always_done.mpr ?_⟩
  exact executed.of_core rfl executed.1

theorem Waits.not_halted (waits : b.Waits queue v entry) (occupied : b.q.advQ ≠ none)
    (halted : b.Halted v entry t) (spared : b.Spared takes away v t) :
    t.signalAlarm w ≠ .ok t₁ := by
  obtain ⟨queued | ⟨h, -, queued, first, after⟩, left, shape⟩ := halted
  · rcases spared.head (waits.heads shape queued) with ⟨-, none⟩ | ⟨idle, -⟩
    · exact absurd none occupied
    · exact absurd idle left
  · exact not_signalAlarm_of_stuck queued first after

/-! ## The points of the two commands -/

/-- At this point, if the lock is free and the alarm spares the timer, the timer is
pending when both have finished. -/
def Survives (w : World) (b : Daemon) (takes away : Prop) (v : DsPtr) (rest : Program) (t : Daemon) :
    Prop :=
  b.LockFree t → b.Spared takes away v t → ∀ t₁, t.signalAlarm w = .ok t₁ →
    Prog.Yields (Pending v) rest t₁

theorem Stands.survives (stands : b.Stands true t) : b.Survives w takes away v rest t := by
  rintro ⟨log, split, free⟩
  obtain ⟨log', split', -, isHeld⟩ := stands
  rw [split] at split'
  rw [List.append_cancel_left split'] at free
  cases free.symm.trans isHeld

/-- The program while it holds the lock: the VR is entered. -/
theorem always_locked (stands : b.Stands true t)
    (behind : ∀ t', t.tryQueue (·.vrrpEnqueueImpl w t.vrTop entry) = .ok t' →
      Prog.Always (b.Survives w takes away v) rest (t'.onQueue (·.unlock))) :
    Prog.Always (b.Survives w takes away v) (enqueueProgram w entry (unlockProgram rest)) t :=
  always_enqueue_of (fun _ _ _ stands => stands.survives) stands fun t' stands entered =>
    Prog.always_change.mpr ⟨stands.survives, behind t' entered⟩

namespace Waits

variable (waits : b.Waits queue v entry)
include waits

/-- A point behind the insertion at which the instance has left `INIT`. -/
theorem survives_master (shape : t.shape = b.shape) (entered : Entered b entry t.q)
    (left : (t.ds v).state ≠ .init)
    (behind : ∀ t₁, (t₁.ds v).vr = entry → (t₁.ds v).state = .mast → Pending v t₁ →
      Prog.Yields (Pending v) rest t₁) :
    b.Survives w takes away v rest t := by
  intro _ spared t₁ returns
  rcases waits.alarm shape entered spared returns with ⟨master, queued⟩ | ⟨idle, -⟩
  · have own : (t₁.ds v).vr = entry := by
      rw [vr_of_shape ((shape_stable.alarm returns).trans shape)]
      exact waits.vr
    have stays := (@signalAlarm_state w v _ _ returns).2.mpr (.inl master)
    refine behind t₁ own stays ⟨?_, own ▸ queued.once⟩
    rw [stays]
    rfl
  · exact absurd idle left

/-- No alarm is spared that finds the VR of a backup at the head. -/
theorem not_spared_backup (shape : t.shape = b.shape) (backup : (t.ds v).state = .back)
    (queued : t.q.advQ = some entry) : ¬ b.Spared takes away v t := by
  intro spared
  rcases spared.head (waits.heads shape queued) with ⟨master, -⟩ | ⟨idle, -⟩
  · cases backup.symm.trans master
  · cases backup.symm.trans idle

theorem survives_backup (shape : t.shape = b.shape) (backup : (t.ds v).state = .back)
    (queued : t.q.advQ = some entry) : b.Survives w takes away v rest t :=
  fun _ spared => absurd spared (waits.not_spared_backup shape backup queued)

/-- A point before the insertion. -/
theorem survives_before (core : t.core = b.core) (same : SameLinks b.q t.q)
    (leaves : away → b.q.Leaves entry)
    (behind : ∀ t₁, t₁.shape = b.shape → t₁.anyMasterUp = b.anyMasterUp →
      (t₁.ds v).state = .init → Fit takes entry t₁.q → Prog.Yields (Pending v) rest t₁) :
    b.Survives w takes away v rest t := by
  intro _ spared t₁ returns
  have like := (@signalAlarm_state w v _ _ returns).1
  refine behind t₁ (like.shape.trans (shape_of_core core)) ?_ ?_
    (waits.fit core same spared leaves returns)
  · exact like.up.trans (anyMasterUp_congr (flag_of_core core))
  · refine like.init.mpr ?_
    rw [ds_of_core core]
    exact waits.idle

/-- The points behind the insertion of a VR that stays where it is: the instance is put
into `MAST`. -/
theorem always_master {trans : VrrpStateTrans} {delay : Daemon → Int} (shape : t.shape = b.shape)
    (entered : Entered b entry t.q)
    (first : b.Survives w takes away v (.change (·.setState v .mast) <|
      .attempt (·.vrrpStateExecution w trans v) <|
      .change (fun s => s.onQueue (·.alarm (delay s))) .done) t) :
    Prog.Always (b.Survives w takes away v) (.change (·.setState v .mast) <|
      .attempt (·.vrrpStateExecution w trans v) <|
      .change (fun s => s.onQueue (·.alarm (delay s))) .done) t := by
  have left {t : Daemon} : ((t.setState v .mast).ds v).state ≠ .init := by
    rw [setState_ds_self]
    intro same
    cases same
  have stored : (t.setState v .mast).shape = b.shape := (shape_setState _ _ _).trans shape
  refine Prog.always_change.mpr ⟨first, Prog.always_act.mpr ⟨?_, fun t₂ returned => ?_⟩⟩
  · refine waits.survives_master stored entered left fun t₁ _ _ pending => ?_
    refine Prog.yields_act.mpr fun t₂ returned => ?_
    have still : Pending v t₂ := pending.execution returned
    exact Prog.yields_change.mpr (Prog.yields_done.mpr still)
  obtain rfl := eq_executed returned
  have executed := (shape_execution (w := w) trans v).trans stored
  have entered' : Entered b entry ((t.setState v .mast).executed w trans v).q := by
    rw [q_execution]
    exact entered
  have left' : (((t.setState v .mast).executed w trans v).ds v).state ≠ .init := by
    rw [state_execution]
    exact left
  refine Prog.always_change.mpr ⟨?_, Prog.always_done.mpr ?_⟩
  · refine waits.survives_master executed entered' left' fun t₁ _ _ pending => ?_
    rw [Prog.yields_change, Prog.yields_done]
    exact pending
  · refine waits.survives_master executed ⟨entered'.alone, entered'.hooked⟩ left' ?_
    exact fun t₁ _ _ pending => Prog.yields_done.mpr pending

/-- The points at which the VR is entered under the lock. -/
theorem always_start (leaves : away → b.q.Leaves entry)
    (enters : ∀ t, t.shape = b.shape → t.anyMasterUp = b.anyMasterUp → Fit takes entry t.q →
      Prog.Yields (Pending v) (lockProgram <| enqueueProgram w entry <| unlockProgram rest) t)
    (behind : ∀ t, t.core = b.core → t.q.Inside b.vrTop → Entered b entry t.q →
      Prog.Always (b.Survives w takes away v) rest t) :
    Prog.Always (b.Survives w takes away v)
      (.look fun s =>
        .change (fun t => t.onQueue (·.setTimeout (s.ds v).vr (t.advTimeout v))) <|
        lockProgram <| enqueueProgram w (s.ds v).vr <| unlockProgram rest) b := by
  refine Prog.always_look.mpr ⟨?_, ?_⟩
  · refine waits.survives_before rfl ⟨rfl, rfl, rfl⟩ leaves fun t₁ shape up _ fit => ?_
    rw [Prog.yields_look, (vr_of_shape shape v).trans waits.vr, Prog.yields_change]
    exact enters _ shape up ⟨fit.empty, fit.room, fit.away⟩
  rw [waits.vr]
  refine Prog.always_change.mpr ⟨?_, Prog.always_change.mpr ⟨?_, ?_⟩⟩
  · refine waits.survives_before rfl ⟨rfl, rfl, rfl⟩ leaves fun t₁ shape up _ fit => ?_
    rw [Prog.yields_change]
    exact enters _ shape up ⟨fit.empty, fit.room, fit.away⟩
  · refine waits.survives_before rfl ⟨rfl, rfl, rfl⟩ leaves fun t₁ shape up _ fit => ?_
    exact enters t₁ shape up fit
  have locked : b.Stands true
      ((b.onQueue (·.setTimeout entry (b.advTimeout v))).onQueue (·.lock)) :=
    (stands_self b).snoc .lock rfl rfl
  refine always_locked locked fun t₁ entered => ?_
  have core : t₁.core = b.core := (core_tryQueue entered).trans rfl
  obtain ⟨q₁, placed, rfl⟩ := tryQueue_eq_ok.mp entered
  have inserted : Entered b entry q₁ := waits.inserted placed ⟨rfl, rfl, rfl⟩
  have inside : q₁.Inside b.vrTop := by
    have before : ((b.q.setTimeout entry (b.advTimeout v)).lock).Inside b.vrTop :=
      ⟨waits.allocated.queue.advQ, waits.allocated.queue.qnext⟩
    exact before.enqueue waits.below placed
  exact behind _ core ⟨inside.advQ, inside.qnext⟩ ⟨inserted.alone, inserted.hooked⟩

/-- The points of `vrrp_state_i2m`. -/
theorem always_i2m {delay : Int} (leaves : away → b.q.Leaves entry) :
    Prog.Always (b.Survives w False away v)
      (vrrpStateI2mProgram w v (.change (·.onQueue (·.alarm delay)) .done)) b := by
  refine waits.always_start leaves (fun t shape _ fit => ?_) fun t core _ entered => ?_
  · exact yields_i2m ((vr_of_shape shape v).trans waits.vr) fit
  have shape := shape_of_core core
  refine waits.always_master shape entered ?_
  intro _ spared t₁ returns
  rcases waits.alarm shape entered spared returns with ⟨master, -⟩ | ⟨-, queued | ⟨never, -⟩⟩
  · rw [ds_of_core core, waits.idle] at master
    cases master
  · have own := (vr_of_shape ((shape_stable.alarm returns).trans shape) v).trans waits.vr
    exact yields_master own queued.once
  · exact absurd never not_false

/-! ### The startup -/

/-- An alarm that finds nothing queued. -/
theorem survives_empty (shape : t.shape = b.shape) (empty : t.q.advQ = none)
    (behind : ∀ t₁, (t₁.ds v).vr = entry → t₁.q.advQ = none → t₁.q.qnext = t.q.qnext →
      Prog.Yields (Pending v) rest t₁) :
    b.Survives w takes away v rest t := by
  intro _ _ t₁ returns
  obtain ⟨none, qnext, -⟩ := signalAlarm_empty empty returns
  refine behind t₁ ?_ none qnext
  rw [vr_of_shape ((shape_stable.alarm returns).trans shape)]
  exact waits.vr

/-- A backup whose VR has been entered. -/
theorem survives_entered (shape : t.shape = b.shape) (entered : Entered b entry t.q)
    (backup : (t.ds v).state = .back) : b.Survives w takes away v rest t := by
  intro _ spared t₁ returns
  rcases waits.alarm shape entered spared returns with ⟨master, -⟩ | ⟨idle, -⟩
  · cases backup.symm.trans master
  · cases backup.symm.trans idle

/-- The VR of a backup is entered into the empty queue, without the lock. -/
theorem always_enqueue_alone (shape : t.shape = b.shape) (backup : (t.ds v).state = .back)
    (empty : t.q.advQ = none) (leaves : t.q.Leaves entry)
    (tail : ∀ t', (t'.ds v).vr = entry → Once t'.q.qnext t'.q.advQ entry →
      Prog.Yields (Pending v) rest t')
    (behind : ∀ t', t'.core = t.core → t'.q.advQ = some entry → t'.q.qprev entry = none →
      Prog.Always (b.Survives w takes away v) rest t') :
    Prog.Always (b.Survives w takes away v) (enqueueProgram w entry rest) t := by
  have heads : ∀ t', (t'.ds v).vr = entry → t'.q.qnext = t.q.qnext →
      Prog.Yields (Pending v) (enterHeadProgram entry rest) t' := by
    intro t' own qnext
    rw [enterHeadProgram, Prog.yields_change, Prog.yields_change, Prog.yields_change]
    refine tail _ own (once_head_iff.mpr ?_)
    rwa [TimerQueue.Leaves, ← qnext] at leaves
  rw [enqueueProgram, Prog.always_act]
  refine ⟨waits.survives_empty shape empty fun t₁ own none qnext => ?_, fun t₁ started => ?_⟩
  · refine yields_enqueue.mpr fun t₂ entered => ?_
    obtain ⟨q₂, inserted, rfl⟩ := tryQueue_eq_ok.mp entered
    have room : t₁.q.Room entry := .inl none
    refine tail _ own (room.enqueue (fun _ => ?_) inserted)
    rwa [TimerQueue.Leaves, qnext]
  · cases started
    refine Prog.always_look.mpr ⟨waits.survives_empty shape empty fun t₁ own none qnext => ?_, ?_⟩
    · rw [Prog.yields_look, if_pos none]
      exact heads t₁ own qnext
    split
    · refine Prog.always_change.mpr ⟨waits.survives_empty shape empty fun t₁ own none qnext => ?_, ?_⟩
      · exact heads t₁ own qnext
      refine Prog.always_change.mpr ⟨waits.survives_backup shape backup rfl, ?_⟩
      refine Prog.always_change.mpr ⟨waits.survives_backup shape backup rfl, ?_⟩
      refine behind _ ?_ ?_ ?_
      · simp only [core_onQueue]
      · rfl
      · exact Function.update_self ..
    · rename_i queued
      exact absurd empty queued

/-- `vrrp_state_b2m` without the lock, for a VR that is alone in the queue. -/
theorem always_b2m_alone (shape : t.shape = b.shape) (backup : (t.ds v).state = .back)
    (inside : t.q.Inside b.vrTop) (queued : t.q.advQ = some entry) (first : t.q.qprev entry = none)
    (alone : b.q.advQ = none) :
    Prog.Always (b.Survives w takes away v) (vrrpStateB2mProgram w v .done) t := by
  have vr : (t.ds v).vr = entry := (vr_of_shape shape v).trans waits.vr
  -- what is left once the VR is out
  have enters : ∀ t', (t'.ds v).vr = entry → t'.q.Room entry →
      (t'.q.advQ = none → t'.q.Leaves entry) →
      Prog.Yields (Pending v) (.change (fun s => s.onQueue (·.setTimeout entry (s.advTimeout v))) <|
        enqueueProgram w entry <| .change (·.setState v .mast) <|
        .attempt (·.vrrpStateExecution w .backToMast v) <|
        .change (fun s => s.onQueue (·.alarm (s.vrrpDelay v))) .done) t' := by
    intro t' own room leaves
    refine (Prog.yields_change.trans yields_enqueue).mpr fun t₂ entered => ?_
    obtain ⟨q₂, inserted, rfl⟩ := tryQueue_eq_ok.mp entered
    have timed : (t'.q.setTimeout entry (t'.advTimeout v)).Room entry := room
    exact yields_master own (timed.enqueue leaves inserted)
  refine Prog.always_look.mpr ⟨waits.survives_backup shape backup queued, ?_⟩
  rw [vr, rmqueueProgram]
  refine Prog.always_change.mpr ⟨waits.survives_backup shape backup queued, ?_⟩
  have unhooked : (t.q.note (.rmqueue entry)).unhookForward entry =
      { t.q.note (.rmqueue entry) with advQ := t.q.qnext entry } := by
    simp only [TimerQueue.unhookForward, TimerQueue.note_qprev, first, TimerQueue.note_qnext]
  obtain ⟨t', same⟩ : ∃ t', t' = t.onQueue fun q => (q.note (.rmqueue entry)).unhookForward entry :=
    ⟨_, rfl⟩
  have core : t'.core = t.core := same ▸ rfl
  have links : t'.q.advQ = t.q.qnext entry ∧ t'.q.qnext = t.q.qnext ∧ t'.q.qprev = t.q.qprev := by
    rw [same, q_onQueue, unhooked]
    exact ⟨rfl, rfl, rfl⟩
  obtain ⟨advQ, qnext, qprev⟩ := links
  have shape' : t'.shape = b.shape := (shape_of_core core).trans shape
  have backup' : (t'.ds v).state = .back := by rwa [ds_of_core core]
  rw [← same]
  refine Prog.always_act.mpr ⟨?_, fun t₂ unlinked => ?_⟩
  · -- a link that the VR has kept may be the head now
    intro _ spared t₁ returns
    have own : (t₁.ds v).vr = entry :=
      (vr_of_shape ((shape_stable.alarm returns).trans shape') v).trans waits.vr
    have room : t₁.q.Room entry := by
      refine waits.allocated.signalAlarm_room shape' (fun h head => ?_) returns
      refine ⟨inside.qnext entry h (advQ.symm.trans head), fun here => ?_⟩
      exact waits.not_spared_backup shape' backup' (here ▸ head) spared
    refine Prog.yields_act.mpr fun t₂ unlinked => ?_
    obtain ⟨q₂, returned, rfl⟩ := tryQueue_eq_ok.mp unlinked
    obtain ⟨isolated, leaves⟩ := (room.unhookBackward returned).isolate
    exact Prog.yields_change.mpr (enters _ own isolated fun _ => leaves)
  obtain ⟨q₂, returned, rfl⟩ := tryQueue_eq_ok.mp unlinked
  obtain ⟨last, rfl⟩ := TimerQueue.unhookBackward_first (qprev ▸ first) returned
  have none : t'.q.advQ = none := by rw [advQ, ← qnext, last]
  have room : t'.q.Room entry := .inl none
  refine Prog.always_change.mpr ⟨waits.survives_empty shape' none fun t₁ own none _ => ?_, ?_⟩
  · have room : t₁.q.Room entry := .inl none
    exact Prog.yields_change.mpr (enters _ own room.isolate.1 fun _ => room.isolate.2)
  have leaves : (t'.q.isolate entry).Leaves entry := room.isolate.2
  refine Prog.always_change.mpr ⟨waits.survives_empty shape' none fun t₁ own none qnext => ?_, ?_⟩
  · exact enters t₁ own (.inl none) fun _ => by rwa [TimerQueue.Leaves, qnext]
  refine waits.always_enqueue_alone shape' backup' none leaves ?_ fun t₃ entered queued before => ?_
  · exact fun t₃ own once => yields_master own once
  have core₃ : t₃.core = t'.core := entered
  have shape₃ := (shape_of_core core₃).trans shape'
  refine waits.always_master shape₃ ⟨fun _ => ⟨queued, before⟩, fun some => absurd alone some⟩ ?_
  refine waits.survives_backup shape₃ ?_ queued
  rwa [ds_of_core core₃]

/-- The points of the sleep and the test. -/
theorem always_retry (shape : t.shape = b.shape) (backup : (t.ds v).state = .back)
    (inside : t.q.Inside b.vrTop) (entered : Entered b entry t.q) :
    Prog.Always (b.Survives w takes away v) (retryProgram w v .done) t := by
  have asleep : Entered b entry (t.onQueue (·.sleep (t.vrrpDelay v))).q :=
    ⟨entered.alone, entered.hooked⟩
  refine Prog.always_change.mpr ⟨waits.survives_entered shape entered backup, ?_⟩
  refine Prog.always_look.mpr ⟨waits.survives_entered shape asleep backup, ?_⟩
  split
  · by_cases empty : b.q.advQ = none
    · obtain ⟨queued, first⟩ := asleep.alone empty
      exact waits.always_b2m_alone shape backup ⟨inside.advQ, inside.qnext⟩ queued first empty
    · have own : (t.ds v).vr = entry := (vr_of_shape shape v).trans waits.vr
      have left : (t.ds v).state ≠ .init := fun idle => by cases backup.symm.trans idle
      intro rest t' reaches _ spared t₁ returns
      have halted := always_b2m_halted (asleep.hooked empty) own left shape rest t' reaches
      exact absurd returns (waits.not_halted empty halted spared)
  · exact Prog.always_done.mpr (waits.survives_entered shape asleep backup)

/-- The points of `vrrp_state_i2b`. -/
theorem always_i2b (leaves : away → b.q.Leaves entry) (up : takes ↔ b.anyMasterUp = 0) :
    Prog.Always (b.Survives w takes away v) (vrrpStateI2bProgram w v .done) b := by
  refine waits.always_start leaves (fun t shape flags fit => ?_) fun t core inside entered => ?_
  · exact yields_i2b ((vr_of_shape shape v).trans waits.vr) fit (flags ▸ up)
  have shape := shape_of_core core
  have stored : (t.setState v .back).shape = b.shape := (shape_setState _ _ _).trans shape
  refine Prog.always_change.mpr ⟨?_, waits.always_retry stored ?_ inside entered⟩
  · intro _ spared t₁ returns
    have like := (@signalAlarm_state w v _ _ returns).1
    have own : ((t₁.setState v .back).ds v).vr = entry := by
      rw [vr_of_shape ((shape_setState _ _ _).trans (like.shape.trans shape))]
      exact waits.vr
    have flags : (t₁.setState v .back).anyMasterUp = b.anyMasterUp :=
      (anyMasterUp_congr rfl).trans (like.up.trans (anyMasterUp_congr (flag_of_core core)))
    have running : ((t₁.setState v .back).ds v).state.running = true := by
      rw [setState_ds_self]
      rfl
    rw [Prog.yields_change]
    rcases waits.alarm shape entered spared returns with ⟨master, -⟩ | ⟨-, queued | ⟨requeued, out⟩⟩
    · rw [ds_of_core core, waits.idle] at master
      cases master
    · exact yields_retry own running (fun _ => .inr ⟨queued.1, queued.2.2⟩) fun _ => queued.once
    · refine yields_retry own running (fun _ => .inl out) fun some => ?_
      exact absurd (flags.trans (up.mp requeued)) some
  · rw [setState_ds_self]

/-- The points of a startup that finds the instance. -/
theorem always_startup (linked : b.Linked nodes) (family : key.af = afInet) (given : key.vid ≠ 0)
    (searched : b.vrrpSearchInst key = .ok (some v)) (leaves : away → b.q.Leaves entry)
    (up : takes ↔ b.anyMasterUp = 0) :
    Prog.Always (b.Survives w takes away v) (startupProgram w key) b := by
  have starts : ∀ t, t.shape = b.shape → t.anyMasterUp = b.anyMasterUp → Fit takes entry t.q →
      Prog.Yields (Pending v) (vrrpStateI2bProgram w v .done) t := by
    intro t shape flags fit
    rw [vrrpStateI2bProgram, Prog.yields_look, (vr_of_shape shape v).trans waits.vr,
      Prog.yields_change]
    exact yields_i2b ((vr_of_shape shape v).trans waits.vr) ⟨fit.empty, fit.room, fit.away⟩
      (flags ▸ up)
  unfold startupProgram
  rw [if_neg (not_not.mpr family), if_neg (not_not.mpr (UInt8.pos_iff_ne_zero.mpr given))]
  refine Prog.always_fetch.mpr ⟨?_, fun found selected => ?_⟩
  · refine waits.survives_before rfl ⟨rfl, rfl, rfl⟩ leaves fun t₁ shape flags idle fit => ?_
    refine Prog.yields_fetch.mpr fun found selected => ?_
    rw [linked.search_congr shape, searched] at selected
    cases selected
    rw [Prog.yields_look, if_neg (not_not.mpr idle)]
    exact starts t₁ shape flags fit
  rw [searched] at selected
  cases selected
  refine Prog.always_look.mpr ⟨?_, ?_⟩
  · refine waits.survives_before rfl ⟨rfl, rfl, rfl⟩ leaves fun t₁ shape flags idle fit => ?_
    rw [Prog.yields_look, if_neg (not_not.mpr idle)]
    exact starts t₁ shape flags fit
  rw [if_neg (not_not.mpr waits.idle)]
  exact waits.always_i2b leaves up

end Waits

/-! ### The create -/

/-- A new instance, and the queue that the others are in. -/
theorem waits_created {inst : VrrpInst} (allocated : s.Allocated) (linked : s.Linked nodes)
    (holds : s.q.Holds queue) (link : (s.withInst inst).linkInst s.dsTop = .ok b) :
    b.Waits queue s.dsTop s.vrTop ∧ b.q.qnext s.vrTop = none ∧
      b.q.advQ = s.q.advQ ∧ b.q.log = s.q.log ∧ (b.Empties ↔ s.Empties) := by
  obtain ⟨next, prev, before, after, rfl, -, inserted⟩ := linked.link link
  have below : ∀ p ∈ queue, p < s.vrTop :=
    holds.1.closed (fun p => allocated.queue.advQ p) fun p n _ => allocated.queue.qnext p n
  have old : ∀ p ∈ queue, p ≠ s.vrTop := fun p member => Nat.ne_of_lt (below p member)
  have grows := grows_withInst inst s
  have state : ∀ h, s.q.advQ = some h →
      ((s.withInst inst).ds ((s.withInst inst).vrs h).parent).state =
        (s.ds (s.vrs h).parent).state := by
    intro h head
    have known := allocated.queue.advQ h head
    rw [grows.vrs h known, grows.ds _ (allocated.parent h known).1]
  refine ⟨⟨(allocated.withInst inst).withLinks next prev, ⟨?_, ?_⟩, ?_, Nat.lt_succ_self _, ?_, ?_⟩,
    Function.update_self .., rfl, rfl, ?_⟩
  · exact holds.1.congr fun p member => Function.update_of_ne (old p member) ..
  · exact holds.2.congr fun p member => Function.update_of_ne (old p member) ..
  · simp [withLinks, withInst]
  · simp [withLinks, withInst]
  · simp [withLinks, withInst]
  · exact forall₂_congr fun h head => by
      show ((s.withInst inst).ds ((s.withInst inst).vrs h).parent).state.running = false ↔ _
      rw [state h head]

theorem yields_i2mProgram {delay : Int} (own : (t.ds v).vr = entry) (fit : Fit False entry t.q) :
    Prog.Yields (Pending v)
      (vrrpStateI2mProgram w v (.change (·.onQueue (·.alarm delay)) .done)) t := by
  rw [vrrpStateI2mProgram, Prog.yields_look, own, Prog.yields_change]
  exact yields_i2m own ⟨fit.empty, fit.room, fit.away⟩

/-- What a create that is granted leads to, also after an alarm. -/
theorem yields_create {inst : VrrpInst} (linked : t.Linked nodes) (top : inst.viVa.pri = 255)
    (copies : t.copiesVrIp w inst = true) (room : t.q.Room t.vrTop) :
    Prog.Yields (Pending t.dsTop) (createProgram w inst) t := by
  rw [createProgram, Prog.yields_invoke, vrrpCreateInst_copies copies]
  rintro ⟨ret, made⟩ t₁ returns
  obtain ⟨⟨_, _, _⟩, created, same⟩ := bind_eq_ok.mp returns
  obtain ⟨t₂, link, same'⟩ := bind_eq_ok.mp created
  cases same'
  cases same
  obtain ⟨-, -, -, -, own, queue, -⟩ := created_effect linked link
  dsimp only
  rw [if_neg (not_not.mpr rfl), Prog.yields_fetch]
  intro temp given
  cases given
  rw [if_pos top]
  refine yields_i2mProgram own ⟨fun never => never.elim, fun _ => ?_, fun _ _ => ?_⟩
  · rw [queue]
    rcases room with empty | ⟨h, other, queued, itself⟩
    · exact .inl empty
    · refine .inr ⟨h, other, queued, fun n next => itself n ?_⟩
      rwa [← show (t.withInst inst).q.qnext h = t.q.qnext h from Function.update_of_ne other ..]
  · rw [queue]
    exact TimerQueue.leaves_last (Function.update_self ..)

/-- The points of a create with priority 255 that is granted. -/
theorem always_create {inst : VrrpInst} (allocated : s.Allocated) (linked : s.Linked nodes)
    (holds : s.q.Holds queue) (top : inst.viVa.pri = 255)
    (created : s.vrrpCreateInst w inst = .ok (VrrpRet.success.code, some v, b)) :
    Prog.Always (s.Survives w False True v) (createProgram w inst) s := by
  have copies := (vrrpCreateInst_effect created).1 rfl
  rw [vrrpCreateInst_copies copies] at created
  obtain ⟨s₁, link, same⟩ := bind_eq_ok.mp created
  cases same
  obtain ⟨waits, last, advQ, log, empties⟩ := waits_created allocated linked holds link
  refine Prog.always_invoke.mpr ⟨?_, fun reply t returns => ?_⟩
  · intro _ _ t₁ handled
    have later := Later.of_alarm handled
    have dsTop : t₁.dsTop = s.dsTop := dsTop_of_shape later.shape
    have vrTop : t₁.vrTop = s.vrTop := congrArg Shape.vrTop later.shape
    rw [← dsTop]
    refine yields_create (linked.of_shape later.shape) top
      ((later.copiesVrIp linked inst).trans copies) ?_
    rw [vrTop]
    refine allocated.signalAlarm_room rfl (fun h head => ?_) handled
    have below := allocated.queue.advQ h head
    exact ⟨below, Nat.ne_of_lt below⟩
  · rw [vrrpCreateInst_copies copies, link] at returns
    cases returns
    have transfer : ∀ rest t, b.Survives w False True s.dsTop rest t →
        s.Survives w False True s.dsTop rest t := by
      rintro rest t survives ⟨events, split, free⟩ spared
      refine survives ⟨events, log ▸ split, free⟩ ⟨?_, ?_, ?_⟩
      · rw [advQ]
        exact spared.head
      · rw [empties]
        exact spared.emptied
      · rw [empties]
        exact spared.occupied
    have leaves : True → b.q.Leaves s.vrTop := fun _ => TimerQueue.leaves_last last
    intro rest t reaches
    dsimp only at reaches
    rw [if_neg (not_not.mpr rfl)] at reaches
    refine transfer rest t (Prog.always_fetch.mpr ⟨?_, fun temp given => ?_⟩ rest t reaches)
    · refine waits.survives_before rfl ⟨rfl, rfl, rfl⟩ leaves fun t₁ shape _ _ fit => ?_
      refine Prog.yields_fetch.mpr fun temp given => ?_
      cases given
      rw [if_pos top]
      exact yields_i2mProgram ((vr_of_shape shape _).trans waits.vr) fit
    · cases given
      rw [if_pos top]
      exact waits.always_i2m leaves

/-- **When an alarm leaves a started instance its timer.** For every reachable state
with a well-formed queue, every startup or create with priority 255 that starts an
instance, and every point of its execution at which the lock is free and the handler
runs to completion: if the alarm spares the timer, the instance is in `BACK` or `MAST`
when both have finished, and its VR is met in the queue exactly once. -/
theorem started_pending (w : World) (s : Daemon) (reachable : Reachable w s) (queue : List VrPtr)
    (holds : s.q.Holds queue) (command : Command) (v : DsPtr) (starts : s.Starts w v command)
    (rest : Program) (s₁ t : Daemon)
    (execution :
      Prog.Interleave (alarms w) (operate w (.command command)) s [(rest, s₁, ())] t)
    (free : s.LockFree s₁) (spares : s.Spares command v s₁) : Pending v t := by
  obtain ⟨nodes, linked⟩ := reachable.linked
  have allocated := reachable.allocated
  obtain ⟨reaches, s₂, handled, ran⟩ := Prog.interleave_single.mp execution
  cases command with
  | create inst =>
      obtain ⟨top, b, created⟩ := starts
      exact always_create allocated linked holds top created rest s₁ reaches free spares s₂ handled
        t ran
  | startup key =>
      obtain ⟨family, given, searched, idle⟩ := starts
      have member := linked.mem_of_search searched
      have waits : s.Waits queue v (s.ds v).vr :=
        ⟨allocated, holds, rfl, linked.vrAllocated v member, linked.parent v member, idle⟩
      exact waits.always_startup linked family given searched id Iff.rfl rest s₁ reaches free spares
        s₂ handled t ran
  | remove _ | shutdown _ | modify _ _ _ _ _ => exact starts.elim

/-- An alarm once a new master has its state. -/
theorem started_pending_master :
    ∃ rest s₁ t, Prog.Interleave (alarms .plain) (operate .plain (.create 7 255)) initial
      [(rest, s₁, ())] t ∧ (s₁.ds 1).state = .mast ∧ Pending 1 t := by
  have ran : passes (fun here => here.2.q.advQ == some 0 && (here.2.vrs 0).parent == 1 &&
      (here.2.ds 1).state == .mast && held lockUse here.2.q.log == false &&
        passes (fun s₂ => passes (fun _ => true) (here.1.run s₂)) (here.2.signalAlarm .plain))
      ((operate .plain (.create 7 255)).point 12 initial) = true := by decide +kernel
  have granted : passes (fun reply => reply.1 == VrrpRet.success.code && reply.2.1 == some 1)
      (initial.vrrpCreateInst .plain (.sample 7 255)) = true := by decide +kernel
  obtain ⟨⟨rest, s₁⟩, reached, tested⟩ := exists_of_passes ran
  simp only [Bool.and_eq_true, beq_iff_eq] at tested
  obtain ⟨⟨⟨⟨head, parent⟩, master⟩, free⟩, handled⟩ := tested
  obtain ⟨s₂, handled, ended⟩ := exists_of_passes handled
  obtain ⟨t, ran, -⟩ := exists_of_passes ended
  obtain ⟨⟨ret, made, b⟩, created, answered⟩ := exists_of_passes granted
  simp only [Bool.and_eq_true, beq_iff_eq] at answered
  obtain ⟨rfl, rfl⟩ := answered
  have execution : Prog.Interleave (alarms .plain) (operate .plain (.create 7 255)) initial
      [(rest, s₁, ())] t :=
    Prog.interleave_single.mpr ⟨Prog.reaches_of_point reached, s₂, handled, ran⟩
  have heads : Heads 1 s₁ := ⟨0, head, parent⟩
  have spares : initial.Spares (.create (.sample 7 255)) 1 s₁ :=
    ⟨fun _ => .inl ⟨master, rfl⟩, fun other => absurd heads other, fun other => absurd heads other⟩
  exact ⟨rest, s₁, t, execution, master, started_pending .plain initial ⟨[], .nil⟩ []
    ⟨rfl, trivial⟩ (.create (.sample 7 255)) 1 ⟨rfl, b, created⟩ rest s₁ t execution
    ⟨s₁.q.log, rfl, free⟩ spares⟩

/-- **A backup without a timer.** An instance is started while the flag of another VRID is
set, and the alarm comes between the unlock and the new state: the instance is in `BACK`,
and nothing is queued. -/
theorem started_lost :
    ∃ s rest s₁ t, Reachable .plain s ∧ s.q.Holds [] ∧
      s.Starts .plain 1 (.startup (.sample 7)) ∧
      Prog.Interleave (alarms .plain) (operate .plain (.startup 7)) s [(rest, s₁, ())] t ∧
      s.LockFree s₁ ∧ (t.ds 1).state = .back ∧ t.q.advQ = none ∧ ¬ Pending 1 t := by
  have ran : passes (fun s => passes (· == some 1) (s.vrrpSearchInst (.sample 7)) &&
      (s.ds 1).state == .init && s.q.advQ == none && s.q.log == [] &&
        passes (fun here => held lockUse here.2.q.log == false &&
          passes (fun s₂ => passes (fun t => (t.ds 1).state == .back && t.q.advQ == none)
            (here.1.run s₂)) (here.2.signalAlarm .plain))
          ((operate .plain (.startup 7)).point 11 s))
      (exec (step .plain) [.create 7 100, .hear 9 50] initial) = true := by decide +kernel
  obtain ⟨s, returns, tested⟩ := exists_of_passes ran
  simp only [Bool.and_eq_true, beq_iff_eq] at tested
  obtain ⟨⟨⟨⟨found, idle⟩, empty⟩, silent⟩, point⟩ := tested
  obtain ⟨v, searched, one⟩ := exists_of_passes found
  rw [beq_iff_eq.mp one] at searched
  obtain ⟨⟨rest, s₁⟩, reached, tested⟩ := exists_of_passes point
  simp only [Bool.and_eq_true, beq_iff_eq] at tested
  obtain ⟨free, handled⟩ := tested
  obtain ⟨s₂, handled, ended⟩ := exists_of_passes handled
  obtain ⟨t, ran, lost⟩ := exists_of_passes ended
  simp only [Bool.and_eq_true, beq_iff_eq] at lost
  obtain ⟨back, none⟩ := lost
  refine ⟨s, rest, s₁, t, ⟨_, run_of_exec returns⟩, ⟨empty, trivial⟩, ⟨rfl, by decide, searched, idle⟩,
    ?_, ⟨s₁.q.log, ?_, free⟩, back, none, ?_⟩
  · exact Prog.interleave_single.mpr ⟨Prog.reaches_of_point reached, s₂, handled, ran⟩
  · rw [silent]
    rfl
  · rintro ⟨-, once⟩
    rw [none] at once
    exact not_once_none once

end Daemon

end VrrpDaemon
