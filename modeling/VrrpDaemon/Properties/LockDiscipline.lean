import VrrpDaemon.Machine.Locking
import VrrpDaemon.Behaviour.Programs
import VrrpDaemon.Properties.MalformedFrames
import VrrpDaemon.Properties.TruthfulStatus

/-!
# The lock of the timer queue

The handler of `SIGALRM` takes `adv_q_lock` and edits the queue under it, as it
should. It runs with the signal blocked, but the commands and the handling of
frames do not block it: wherever one of them holds the lock, the handler may come
and acquire it a second time in the same thread. And `vrrp_state_b2m`, which
relies on its caller to hold the lock, is called without it for a frame of
priority 0.

So an operation keeps the discipline exactly when it is an alarm, or comes
neither to the lock nor to the queue (`keepsLock_iff`).
-/

set_option autoImplicit false

namespace VrrpDaemon

open Machine

/-- What an event has to do with `adv_q_lock`. -/
def lockUse : TimerEvent → LockUse
  | .lock => .acquire
  | .unlock => .release
  | .enqueue _ _ | .rmqueue _ => .guarded
  | .ualarm _ | .alarm _ | .sleep _ => .neutral

namespace Daemon

/-- Since the first state every event met the lock as it should, and the lock is
held now, or is not. -/
def Stands (s : Daemon) (isHeld : Bool) (t : Daemon) : Prop :=
  ∃ log, t.q.log = s.q.log ++ log ∧ Disciplined lockUse log ∧ held lockUse log = isHeld

/-- At a point of an operation that started in the first state: every event met the
lock as it should, and at the end of the operation it is released. -/
def Meets (s : Daemon) (rest : Program) (t : Daemon) : Prop :=
  ∃ isHeld, s.Stands isHeld t ∧ (rest = .done → isHeld = false)

/-- The same holds at this point and, if the signal is handled now, at every point
of the handler. -/
def MeetsInterrupted (w : World) (s : Daemon) (rest : Program) (t : Daemon) : Prop :=
  s.Meets rest t ∧ Prog.Always s.Meets (alarmProgram w) t

/-- Alarms that are handled to their end. -/
def alarms (w : World) (_ : Unit) (s : Daemon) : Result Daemon := s.signalAlarm w

/-- The operation keeps the lock discipline, at every point, whenever and however
often it is interrupted. The handler itself is not interrupted. -/
def KeepsLock (w : World) (s : Daemon) : Op → Prop
  | .alarm => Prog.Always s.Meets (alarmProgram w) s
  | op => Prog.Throughout (alarms w) (s.MeetsInterrupted w) (operate w op) s

/-- The operation comes neither to the lock nor to the queue: a create that is
refused or has no priority of 255; a destroy that finds nothing; a startup or a
shutdown that is refused; a modification that is refused or does not touch the
interval; a frame that is dropped, or ignored by the instance it is for. -/
def Quiet (w : World) (s : Daemon) : Op → Prop
  | .command (.create inst) => inst.viVa.pri = 255 → s.copiesVrIp w inst = false
  | .command (.remove key) => key.af = afInet → ∀ v, s.vrrpSearchInst key ≠ .ok (some v)
  | .command (.startup key) => key.af = afInet → key.vid ≠ 0 → ∀ v,
      s.vrrpSearchInst key = .ok (some v) → (s.ds v).state ≠ .init
  | .command (.shutdown key) => key.af = afInet → key.vid ≠ 0 → ∀ v,
      s.vrrpSearchInst key = .ok (some v) → (s.ds v).state.running = false
  | .command (.modify key _ delay preeMode acptMode) =>
      modeGiven preeMode = true → modeGiven acptMode = true → delay ≠ vrPropUnchange →
        ∀ v, s.vrrpSearchInst key ≠ .ok (some v)
  | .frame af ifname frame => frame.accepted = true →
      if frame.inst.viVa.pri = 0 then
        ∀ first, s.next instRuntimeList = some first → (s.ds first).state ≠ .back
      else frame.inst.viVr.vrId ≠ 0 → ∀ v,
        s.vrrpSearchInst ⟨frame.inst.viVr.vrId, some ifname, af⟩ = .ok (some v) →
          s.Ignores frame.inst.viVa.pri v
  | .alarm => True

variable {w : World} {s t t' : Daemon} {rest : Program} {isHeld : Bool} {entry : VrPtr}

/-! ## Events one by one -/

theorem Stands.of_log (stands : s.Stands isHeld t) (same : t'.q.log = t.q.log) :
    s.Stands isHeld t' := by
  obtain ⟨log, split, kept⟩ := stands
  exact ⟨log, same.trans split, kept⟩

theorem stands_self (s : Daemon) : s.Stands false s :=
  ⟨[], (List.append_nil _).symm, disciplined_nil _, rfl⟩

/-- A step of the queue that logs nothing. -/
theorem Stands.tryQueue {act : TimerQueue → Result TimerQueue} (stands : s.Stands isHeld t)
    (silent : ∀ q q', act q = .ok q' → q'.log = q.log) (returns : t.tryQueue act = .ok t') :
    s.Stands isHeld t' := by
  obtain ⟨q, acted, rfl⟩ := tryQueue_eq_ok.mp returns
  exact stands.of_log (silent _ _ acted)

theorem Stands.snoc (event : TimerEvent) (stands : s.Stands isHeld t)
    (permitted : (lockUse event).Permitted isHeld) (logged : t'.q.log = t.q.log ++ [event]) :
    s.Stands ((lockUse event).after isHeld) t' := by
  obtain ⟨log, split, disciplined, rfl⟩ := stands
  refine ⟨log ++ [event], ?_, (disciplined_snoc _).mpr ⟨disciplined, permitted⟩, held_snoc _⟩
  rw [logged, split, List.append_assoc]

theorem Stands.trans (first : s.Stands false t) (second : t.Stands isHeld t') :
    s.Stands isHeld t' := by
  obtain ⟨log, split, disciplined, free⟩ := first
  obtain ⟨log', split', disciplined', rfl⟩ := second
  obtain ⟨whole, same⟩ := disciplined_append lockUse disciplined free log'
  refine ⟨log ++ log', ?_, whole.mpr disciplined', same⟩
  rw [split', split, List.append_assoc]

/-- An event that does not meet the lock as it should spoils every log it ends. -/
theorem not_stands (event : TimerEvent) (stands : s.Stands isHeld t)
    (refused : ¬ (lockUse event).Permitted isHeld) (logged : t'.q.log = t.q.log ++ [event])
    (other : Bool) : ¬ s.Stands other t' := by
  rintro ⟨log', split', disciplined, -⟩
  obtain ⟨log, split, -, rfl⟩ := stands
  rw [logged, split, List.append_assoc] at split'
  rw [← List.append_cancel_left split', disciplined_snoc] at disciplined
  exact refused disciplined.2

theorem Stands.meets_act {f : Daemon → Result Daemon} {next : Daemon → Program}
    (stands : s.Stands isHeld t) : s.Meets (.act f next) t :=
  ⟨isHeld, stands, fun ended => by cases ended⟩

theorem Stands.meets_done (stands : s.Stands false t) : s.Meets rest t :=
  ⟨false, stands, fun _ => rfl⟩

/-! ## Under the lock -/

theorem unhookForward_log (q : TimerQueue) : (q.unhookForward entry).log = q.log := by
  unfold TimerQueue.unhookForward
  split <;> rfl

theorem unhookBackward_log {q q' : TimerQueue} (returns : q.unhookBackward entry = .ok q') :
    q'.log = q.log := by
  unfold TimerQueue.unhookBackward at returns
  split at returns
  · cases returns
    rfl
  · obtain ⟨before, -, returns⟩ := bind_eq_ok.mp returns
    cases returns
    rfl

/-- `vrrp_rmqueue_impl` under the lock. -/
theorem always_rmqueue (stands : s.Stands true t)
    (behind : ∀ t', s.Stands true t' → Prog.Always s.Meets rest t') :
    Prog.Always s.Meets (rmqueueProgram entry rest) t := by
  have noted : s.Stands true (t.onQueue fun q => (q.note (.rmqueue entry)).unhookForward entry) :=
    stands.snoc (.rmqueue entry) rfl (unhookForward_log _)
  rw [rmqueueProgram, Prog.always_change]
  refine ⟨stands.meets_act, Prog.always_act.mpr ⟨noted.meets_act, fun t₁ unhooked => ?_⟩⟩
  have kept := noted.tryQueue (fun _ _ => unhookBackward_log) unhooked
  exact Prog.always_change.mpr ⟨kept.meets_act, behind _ (kept.of_log rfl)⟩

/-- `vrrp_enqueue_impl` under the lock, for whatever holds at all points at which the
lock is held. -/
theorem always_enqueue_of {P : Program → Daemon → Prop}
    (holds : ∀ f next t, s.Stands true t → P (.act f next) t) (stands : s.Stands true t)
    (behind : ∀ t', s.Stands true t' → t.tryQueue (·.vrrpEnqueueImpl w t.vrTop entry) = .ok t' →
      Prog.Always P rest t') :
    Prog.Always P (enqueueProgram w entry rest) t := by
  have armed : s.Stands true (t.onQueue (·.armed w entry)) := by
    have noted : s.Stands true (t.onQueue (·.note (.enqueue entry (t.q.timeout entry)))) :=
      stands.snoc (.enqueue entry (t.q.timeout entry)) rfl rfl
    exact noted.snoc (.ualarm (t.q.timeout entry)) trivial rfl
  rw [enqueueProgram, Prog.always_act]
  refine ⟨holds _ _ _ stands, fun t₁ started => ?_⟩
  cases started
  refine Prog.always_look.mpr ⟨holds _ _ _ armed, ?_⟩
  split
  · rename_i empty
    have unqueued : t.q.advQ = none := empty
    refine Prog.always_change.mpr ⟨holds _ _ _ (armed.of_log rfl), ?_⟩
    refine Prog.always_change.mpr ⟨holds _ _ _ (armed.of_log rfl), ?_⟩
    refine Prog.always_change.mpr ⟨holds _ _ _ (armed.of_log rfl), behind _ (armed.of_log rfl) ?_⟩
    rw [tryQueue, TimerQueue.vrrpEnqueueImpl_empty unqueued]
    rfl
  · rename_i queued
    have occupied : t.q.advQ ≠ none := queued
    refine Prog.always_fetch.mpr ⟨holds _ _ _ armed, fun found walked => ?_⟩
    refine Prog.always_act.mpr ⟨holds _ _ _ armed, fun t₂ inserted => ?_⟩
    have kept := armed.tryQueue (fun _ _ => TimerQueue.insertAt_log) inserted
    refine Prog.always_act.mpr ⟨holds _ _ _ kept, fun t₃ rearmed => ?_⟩
    obtain ⟨q₂, placed, rfl⟩ := tryQueue_eq_ok.mp inserted
    obtain ⟨q₃, acted, rfl⟩ := tryQueue_eq_ok.mp rearmed
    obtain ⟨first, given, same⟩ := bind_eq_ok.mp acted
    cases same
    refine behind _ (kept.snoc (.ualarm _) trivial rfl) (tryQueue_eq_ok.mpr ⟨_, ?_, rfl⟩)
    rw [TimerQueue.vrrpEnqueueImpl_walk occupied]
    refine bind_eq_ok.mpr ⟨found, walked, bind_eq_ok.mpr ⟨q₂, placed, ?_⟩⟩
    exact bind_eq_ok.mpr ⟨first, given, rfl⟩

theorem always_enqueue (stands : s.Stands true t)
    (behind : ∀ t', s.Stands true t' → Prog.Always s.Meets rest t') :
    Prog.Always s.Meets (enqueueProgram w entry rest) t :=
  always_enqueue_of (fun _ _ _ stands => stands.meets_act) stands fun t' stands _ => behind t' stands

/-- `vrrp_state_execution`, which leaves the lock as it is. -/
theorem always_execution {isHeld : Bool} {trans : VrrpStateTrans} {v : DsPtr}
    (stands : s.Stands isHeld t)
    (behind : ∀ t', s.Stands isHeld t' → Prog.Always s.Meets rest t') :
    Prog.Always s.Meets (.attempt (·.vrrpStateExecution w trans v) rest) t := by
  refine Prog.always_act.mpr ⟨stands.meets_act, fun t₁ executed => behind t₁ ?_⟩
  obtain rfl := eq_executed executed
  exact stands.of_log (congrArg TimerQueue.log (q_execution _))

/-- `vrrp_state_b2m` under the lock. -/
theorem always_b2m {v : DsPtr} (stands : s.Stands true t)
    (behind : ∀ t', s.Stands true t' → Prog.Always s.Meets rest t') :
    Prog.Always s.Meets (vrrpStateB2mProgram w v rest) t := by
  refine Prog.always_look.mpr ⟨stands.meets_act, always_rmqueue stands fun t₁ stands => ?_⟩
  refine Prog.always_change.mpr ⟨stands.meets_act, ?_⟩
  refine always_enqueue (stands.of_log rfl) fun t₂ stands => ?_
  refine Prog.always_change.mpr ⟨stands.meets_act, ?_⟩
  refine always_execution (stands.of_log rfl) fun t₃ stands => ?_
  refine Prog.always_change.mpr ⟨stands.meets_act, behind _ ?_⟩
  exact stands.snoc (.alarm _) trivial rfl

/-- The handler's work on one VR. -/
theorem always_serveEntry {nextEntry : Option VrPtr} (stands : s.Stands true t)
    (behind : ∀ t', s.Stands true t' → Prog.Always s.Meets rest t') :
    Prog.Always s.Meets (serveEntryProgram w entry nextEntry rest) t := by
  -- the end of both branches, which enters the VR again
  have enters : ∀ t', s.Stands true t' → Prog.Always s.Meets
      (.change (fun s => s.onQueue
          (·.setTimeout entry (toTimeout (vrrpSec2usec (s.vrs entry).attr.delay)))) <|
        enqueueProgram w entry <|
        .change (fun s => s.onQueue (·.alarm (s.alarmDelay entry nextEntry))) rest) t' := by
    intro t' stands
    refine Prog.always_change.mpr ⟨stands.meets_act, ?_⟩
    refine always_enqueue (stands.of_log rfl) fun t₁ stands => ?_
    exact Prog.always_change.mpr ⟨stands.meets_act, behind _ (stands.snoc (.alarm _) trivial rfl)⟩
  refine Prog.always_look.mpr ⟨stands.meets_act, ?_⟩
  dsimp only
  cases (t.ds (t.vrs entry).parent).state with
  | mast =>
      have sent : s.Stands true (t.vrrpSendAdv (t.vrs entry).parent 1) := stands.of_log rfl
      exact Prog.always_change.mpr ⟨stands.meets_act, enters _ sent⟩
  | back => exact always_b2m stands enters
  | none | init => exact behind t stands

theorem always_dequeue {next : Option VrPtr → Program} (stands : s.Stands true t)
    (behind : ∀ taken t', s.Stands true t' → Prog.Always s.Meets (next taken) t') :
    Prog.Always s.Meets (dequeueProgram next) t := by
  refine Prog.always_look.mpr ⟨stands.meets_act, ?_⟩
  cases t.q.advQ with
  | none => exact behind none t stands
  | some curr => exact always_rmqueue stands (behind (some curr))

theorem always_alarmLoop {fuel : Nat} {nextEntry : Option VrPtr} (stands : s.Stands true t)
    (behind : ∀ t', s.Stands true t' → Prog.Always s.Meets rest t') :
    Prog.Always s.Meets (alarmLoopProgram w rest fuel nextEntry) t := by
  induction fuel generalizing nextEntry t with
  | zero => exact Prog.always_act.mpr ⟨stands.meets_act, nofun⟩
  | succ fuel ih =>
      refine always_dequeue stands fun taken t₁ stands => ?_
      cases taken with
      | none => exact behind t₁ stands
      | some entry =>
          refine Prog.always_look.mpr ⟨stands.meets_act, ?_⟩
          refine always_serveEntry stands fun t₂ stands => ?_
          split
          · exact ih stands
          · exact behind t₂ stands

/-- **The handler keeps the discipline** in every state in which the lock is free. -/
theorem always_alarm (w : World) (stands : s.Stands false t) :
    Prog.Always s.Meets (alarmProgram w) t := by
  have locked : s.Stands true (t.onQueue (·.lock)) := stands.snoc .lock rfl rfl
  refine Prog.always_change.mpr ⟨stands.meets_act, ?_⟩
  refine Prog.always_look.mpr ⟨locked.meets_act, always_alarmLoop locked fun t₁ stands => ?_⟩
  have released : s.Stands false (t₁.onQueue (·.unlock)) := stands.snoc .unlock rfl rfl
  exact Prog.always_change.mpr ⟨stands.meets_act, Prog.always_done.mpr released.meets_done⟩

/-! ## Alarms between the statements -/

/-- What alarms may have done meanwhile: instances in `BACK` became `MAST`. -/
structure Later (s t : Daemon) : Prop where
  shape : t.shape = s.shape
  vrs : t.vrs = s.vrs
  mallocCalls : t.mallocCalls = s.mallocCalls
  state : ∀ v, (t.ds v).state = (s.ds v).state ∨
    ((s.ds v).state = .back ∧ (t.ds v).state = .mast)

theorem mallocCalls_stable : Stable mallocCalls where
  core _ := rfl
  state _ _ _ := rfl
  pid _ _ _ := rfl
  flag _ _ _ := rfl
  emit _ _ := rfl
  forks _ _ := rfl

namespace Later

theorem refl (s : Daemon) : s.Later s := ⟨rfl, rfl, rfl, fun _ => .inl rfl⟩

theorem trans {t₁ t₂ : Daemon} (first : s.Later t₁) (second : t₁.Later t₂) : s.Later t₂ where
  shape := second.shape.trans first.shape
  vrs := second.vrs.trans first.vrs
  mallocCalls := second.mallocCalls.trans first.mallocCalls
  state v := by
    rcases second.state v with same | ⟨back, mast⟩
    · rw [same]
      exact first.state v
    · rcases first.state v with same | ⟨-, already⟩
      · exact .inr ⟨same.symm.trans back, mast⟩
      · rw [already] at back
        cases back

theorem of_alarm (returns : t.signalAlarm w = .ok t') : t.Later t' where
  shape := shape_stable.alarm returns
  vrs := vrs_stable.alarm returns
  mallocCalls := mallocCalls_stable.alarm returns
  state v := by
    rcases signalAlarm_core returns with ⟨-, core⟩ | ⟨entry, -, core⟩
    · exact .inl (by rw [ds_of_core core])
    · rw [ds_of_core core]
      unfold served
      dsimp only
      cases state : (t.ds (t.vrs entry).parent).state with
      | back =>
          by_cases here : v = (t.vrs entry).parent
          · subst here
            exact .inr ⟨state, state_promote_self ..⟩
          · exact .inl (state_promote_other _ _ _ _ here)
      | mast | none | init => exact .inl rfl

theorem running (later : s.Later t) {v : DsPtr} :
    (t.ds v).state.running = (s.ds v).state.running := by
  rcases later.state v with same | ⟨back, mast⟩
  · rw [same]
  · rw [back, mast]
    rfl

theorem vr (later : s.Later t) (v : DsPtr) : t.vr v = s.vr v := by
  have vrOf : (t.ds v).vr = (s.ds v).vr := congrFun (congrArg Shape.vrOf later.shape) v
  rw [Daemon.vr, Daemon.vr, later.vrs, vrOf]

/-- An instance that ignores a priority as a backup ignores it as a master. -/
theorem ignores (later : s.Later t) {pri : UInt8} {v : DsPtr} (ignores : s.Ignores pri v) :
    t.Ignores pri v := by
  obtain ⟨asBackup, asMaster⟩ := ignores
  rw [Ignores, vrrpPri, later.vr]
  rcases later.state v with same | ⟨back, mast⟩
  · rw [same]
    exact ⟨asBackup, asMaster⟩
  · rw [mast]
    refine ⟨fun never => ?_, fun _ => UInt8.le_of_lt (asBackup back).2⟩
    cases never

end Later

/-- An alarm that is handled to its end. -/
theorem Stands.alarm (stands : s.Stands false t) (returns : t.signalAlarm w = .ok t') :
    s.Stands false t' := by
  have returned : (alarmProgram w).run t = .ok t' := run_alarm.trans returns
  obtain ⟨isHeld, stands', released⟩ := always_alarm w stands _ _ (Prog.reaches_of_run returned)
  exact released rfl ▸ stands'

theorem Stands.events (stands : s.Stands false t) (events : Prog.Events (alarms w) t t') :
    s.Stands false t' ∧ t.Later t' := by
  induction events with
  | refl => exact ⟨stands, .refl t⟩
  | tail _ returns ih =>
      obtain ⟨⟨⟩, returns⟩ := returns
      exact ⟨ih.1.alarm returns, ih.2.trans (.of_alarm returns)⟩

theorem Stands.interrupted (stands : s.Stands false t) : s.MeetsInterrupted w rest t :=
  ⟨stands.meets_done, always_alarm w stands⟩

/-! While the lock is free, any number of alarms may come before each statement. -/

theorem throughout_done (stands : s.Stands false t) :
    Prog.Throughout (alarms w) (s.MeetsInterrupted w) .done t :=
  Prog.throughout_done.mpr fun _ events => (stands.events events).1.interrupted

theorem throughout_act {f : Daemon → Result Daemon} {next : Daemon → Program}
    (stands : s.Stands false t)
    (behind : ∀ t₁ t₂, s.Stands false t₁ → t.Later t₁ → f t₁ = .ok t₂ →
      Prog.Throughout (alarms w) (s.MeetsInterrupted w) (next t₁) t₂) :
    Prog.Throughout (alarms w) (s.MeetsInterrupted w) (.act f next) t := by
  refine Prog.throughout_act.mpr fun t₁ events => ?_
  obtain ⟨stands, later⟩ := stands.events events
  exact ⟨stands.interrupted, fun t₂ => behind t₁ t₂ stands later⟩

theorem throughout_change {f : Daemon → Daemon} (stands : s.Stands false t)
    (behind : ∀ t₁, s.Stands false t₁ → t.Later t₁ →
      Prog.Throughout (alarms w) (s.MeetsInterrupted w) rest (f t₁)) :
    Prog.Throughout (alarms w) (s.MeetsInterrupted w) (.change f rest) t :=
  throughout_act stands fun t₁ _ stands later returns =>
    Except.ok.inj returns ▸ behind t₁ stands later

theorem throughout_look {next : Daemon → Program} (stands : s.Stands false t)
    (behind : ∀ t₁, s.Stands false t₁ → t.Later t₁ →
      Prog.Throughout (alarms w) (s.MeetsInterrupted w) (next t₁) t₁) :
    Prog.Throughout (alarms w) (s.MeetsInterrupted w) (.look next) t :=
  throughout_act stands fun t₁ _ stands later returns => by
    cases returns
    exact behind t₁ stands later

theorem throughout_fetch {α : Type} {read : Daemon → Result α} {next : α → Program}
    (stands : s.Stands false t)
    (behind : ∀ t₁ a, s.Stands false t₁ → t.Later t₁ → read t₁ = .ok a →
      Prog.Throughout (alarms w) (s.MeetsInterrupted w) (next a) t₁) :
    Prog.Throughout (alarms w) (s.MeetsInterrupted w) (.fetch read next) t := by
  refine throughout_act stands fun t₁ t₂ stands later returns => ?_
  obtain ⟨a, found, stays⟩ := bind_eq_ok.mp returns
  cases stays
  rw [found]
  exact behind t₁ a stands later found

theorem throughout_invoke {α : Type} {call : Daemon → Result (α × Daemon)} {next : α → Program}
    (stands : s.Stands false t)
    (behind : ∀ t₁ a t₂, s.Stands false t₁ → t.Later t₁ → call t₁ = .ok (a, t₂) →
      Prog.Throughout (alarms w) (s.MeetsInterrupted w) (next a) t₂) :
    Prog.Throughout (alarms w) (s.MeetsInterrupted w) (.invoke call next) t := by
  refine throughout_act stands fun t₁ t₂ stands later returns => ?_
  obtain ⟨⟨a, t₃⟩, called, stays⟩ := bind_eq_ok.mp returns
  cases stays
  rw [called]
  exact behind t₁ a t₃ stands later called

/-! ## Creation -/

/-- An alarm has no influence on a create. -/
theorem Later.copiesVrIp {nodes : List DsPtr} (linked : s.Linked nodes) (later : s.Later t)
    (inst : VrrpInst) : t.copiesVrIp w inst = s.copiesVrIp w inst := by
  have conflict : t.vrrpCheckConflict inst.key = s.vrrpCheckConflict inst.key := by
    simp only [vrrpCheckConflict, vrrpSearchVr, linked.search_congr later.shape, linked.search]
    cases s.select inst.key nodes <;> rfl
  simp only [Daemon.copiesVrIp, conflict, allocInst_isSome, later.mallocCalls]

/-! ## Operations that come neither to the lock nor to the queue -/

section Quiet

variable {nodes : List DsPtr} {key : Key}

theorem throughout_create {inst : VrrpInst} (linked : s.Linked nodes)
    (quiet : s.Quiet w (.command (.create inst))) :
    Prog.Throughout (alarms w) (s.MeetsInterrupted w) (createProgram w inst) s := by
  refine throughout_invoke (stands_self s) fun t₁ reply t₂ stands later created => ?_
  obtain ⟨ret, made⟩ := reply
  obtain ⟨⟨_, _, _⟩, created, same⟩ := bind_eq_ok.mp created
  cases same
  obtain ⟨copies, logged⟩ := vrrpCreateInst_effect created
  have stands : s.Stands false t₂ := stands.of_log logged
  dsimp only
  split
  · exact throughout_done stands
  · rename_i success
    refine throughout_fetch stands fun t₃ temp stands _ _ => ?_
    split
    · rename_i top
      have refused : t₁.copiesVrIp w inst = s.copiesVrIp w inst := later.copiesVrIp linked inst
      rw [quiet top, copies (not_not.mp success)] at refused
      cases refused
    · exact throughout_done stands

theorem throughout_destroy (linked : s.Linked nodes)
    (quiet : s.Quiet w (.command (.remove key))) :
    Prog.Throughout (alarms w) (s.MeetsInterrupted w) (destroyProgram w key) s := by
  unfold destroyProgram
  split
  · exact throughout_done (stands_self s)
  · rename_i family
    refine throughout_fetch (stands_self s) fun t₁ found stands later searched => ?_
    refine throughout_fetch stands fun t₂ curr _ _ given => ?_
    rw [linked.search_congr later.shape] at searched
    cases found with
    | none => cases given
    | some v => exact absurd searched (quiet (not_not.mp family) v)

/-- A program that checks its key, searches for the instance, and looks at it: what comes then
runs only for a key that passes the checks and selects an instance. -/
theorem throughout_keyed {branches : Option DsPtr → Program} {next : DsPtr → Daemon → Program}
    (linked : s.Linked nodes) (missing : branches none = .done)
    (found : ∀ v, branches (some v) = .look (next v))
    (runs : key.af = afInet → key.vid ≠ 0 → ∀ v t, s.vrrpSearchInst key = .ok (some v) →
      s.Stands false t → s.Later t → Prog.Throughout (alarms w) (s.MeetsInterrupted w) (next v t) t) :
    Prog.Throughout (alarms w) (s.MeetsInterrupted w)
      (if ¬ key.af = afInet then .done
        else if ¬ key.vid > 0 then .done
        else .fetch (·.vrrpSearchInst key) branches) s := by
  split
  · exact throughout_done (stands_self s)
  · rename_i family
    split
    · exact throughout_done (stands_self s)
    · rename_i vid
      refine throughout_fetch (stands_self s) fun t₁ selected stands later searched => ?_
      rw [linked.search_congr later.shape] at searched
      cases selected with
      | none =>
          rw [missing]
          exact throughout_done stands
      | some v =>
          rw [found]
          refine throughout_look stands fun t₂ stands later' => ?_
          exact runs (not_not.mp family) (UInt8.pos_iff_ne_zero.mp (not_not.mp vid)) v t₂ searched
            stands (later.trans later')

theorem throughout_startup (linked : s.Linked nodes)
    (quiet : s.Quiet w (.command (.startup key))) :
    Prog.Throughout (alarms w) (s.MeetsInterrupted w) (startupProgram w key) s := by
  refine throughout_keyed linked rfl (fun _ => rfl) fun family vid v t searched stands later => ?_
  have started := quiet family vid v searched
  rw [if_pos]
  · exact throughout_done stands
  · rcases later.state v with same | ⟨-, mast⟩
    · rwa [same]
    · rw [mast]
      decide

theorem throughout_shutdown (linked : s.Linked nodes)
    (quiet : s.Quiet w (.command (.shutdown key))) :
    Prog.Throughout (alarms w) (s.MeetsInterrupted w) (shutdownProgram w key .done) s := by
  refine throughout_keyed linked rfl (fun _ => rfl) fun family vid v t searched stands later => ?_
  have stopped := quiet family vid v searched
  rw [← later.running] at stopped
  cases state : (t.ds v).state with
  | mast | back => rw [state] at stopped; cases stopped
  | none | init => exact throughout_done stands

theorem throughout_modify {pri delay preeMode acptMode : Int} (linked : s.Linked nodes)
    (quiet : s.Quiet w (.command (.modify key pri delay preeMode acptMode))) :
    Prog.Throughout (alarms w) (s.MeetsInterrupted w)
      (modifyProgram w key pri delay preeMode acptMode) s := by
  unfold modifyProgram
  cases preempt : modeGiven preeMode with
  | false => exact throughout_done (stands_self s)
  | true =>
      cases accept : modeGiven acptMode with
      | false => exact throughout_done (stands_self s)
      | true =>
          refine throughout_fetch (stands_self s) fun t₁ found stands later searched => ?_
          rw [linked.search_congr later.shape] at searched
          cases found with
          | none => exact throughout_done stands
          | some v =>
              have keeps : delay = vrPropUnchange := by
                by_contra changes
                exact quiet preempt accept changes v searched
              refine throughout_look stands fun t₂ stands _ => ?_
              refine throughout_change stands fun t₃ stands _ => ?_
              have logged : ∀ p, (t₃.changePri p pri).q.log = t₃.q.log := by
                intro p
                unfold changePri
                split <;> rfl
              rw [changeDelayProgram, if_neg (not_not.mpr keeps)]
              refine throughout_change (stands.of_log (logged _)) fun t₄ stands _ => ?_
              exact throughout_done (stands.of_log rfl)

/-- A frame with the priority 0, which is for the first instance of the list. -/
theorem throughout_frame_stop {af : Int} {ifname : Ifname} {frame : Frame}
    (accepted : frame.accepted = true) (stop : frame.inst.viVa.pri = 0)
    (calm : ∀ first, s.next instRuntimeList = some first → (s.ds first).state ≠ .back) :
    Prog.Throughout (alarms w) (s.MeetsInterrupted w) (frameProgram w af ifname frame) s := by
  unfold frameProgram
  rw [accepted]
  refine throughout_change (stands_self s) fun t₁ stands later => ?_
  have stands : s.Stands false (t₁.setFlag frame.inst.viVr.vrId true) := stands.of_log rfl
  have later : s.Later (t₁.setFlag frame.inst.viVr.vrId true) := { later with }
  rw [if_pos stop]
  refine throughout_look stands fun t₂ stands later₂ => ?_
  refine throughout_change stands fun t₃ stands later₃ => ?_
  have stands : s.Stands false (t₃.setFlag frame.inst.viVr.vrId false) := stands.of_log rfl
  refine throughout_fetch stands fun t₄ first stands later₄ given => ?_
  refine throughout_look stands fun t₅ stands later₅ => ?_
  have later₃ : t₂.Later (t₃.setFlag frame.inst.viVr.vrId false) := { later₃ with }
  have reached : s.Later t₅ := (((later.trans later₂).trans later₃).trans later₄).trans later₅
  have listed : s.next instRuntimeList = some first := by
    have same : t₂.next instRuntimeList = s.next instRuntimeList :=
      congrFun (congrArg Shape.next (later.trans later₂).shape) _
    rw [same] at given
    cases found : s.next instRuntimeList with
    | none => rw [found] at given; cases given
    | some other => rw [found] at given; cases given; rfl
  rw [if_neg]
  · exact throughout_done stands
  · rcases reached.state first with same | ⟨back, -⟩
    · rw [same]
      exact calm first listed
    · exact absurd back (calm first listed)

/-- A frame that the instance it is for ignores. -/
theorem throughout_incoming {inst : VrrpInst} {v : DsPtr} (linked : s.Linked nodes)
    (listed : v ∈ nodes) (stands : s.Stands false t) (later : s.Later t)
    (regular : inst.viVa.pri ≠ 0) (ignores : s.Ignores inst.viVa.pri v) :
    Prog.Throughout (alarms w) (s.MeetsInterrupted w) (incomingProgram w v inst) t := by
  refine throughout_look stands fun t₁ stands later₁ => ?_
  have reached := later.trans later₁
  obtain ⟨asBackup, asMaster⟩ := reached.ignores ignores
  have parent : (t₁.vrs (t₁.ds v).vr).parent = v :=
    (linked.of_shape reached.shape).parent v listed
  dsimp only
  rw [parent]
  cases state : (t₁.ds v).state with
  | none | init => exact throughout_done stands
  | back =>
      obtain ⟨preempts, lower⟩ := asBackup state
      dsimp only
      rw [if_neg]
      · exact throughout_done stands
      · rintro (never | greater)
        · exact preempts never
        · exact UInt8.not_le.mpr lower greater
  | mast =>
      dsimp only
      rw [if_neg regular, if_neg]
      · exact throughout_done stands
      · exact UInt8.not_lt.mpr (asMaster state)

/-- A frame with another priority, which is for the instance found by its key. -/
theorem throughout_frame_regular {af : Int} {ifname : Ifname} {frame : Frame}
    (linked : s.Linked nodes) (accepted : frame.accepted = true)
    (regular : frame.inst.viVa.pri ≠ 0)
    (calm : frame.inst.viVr.vrId ≠ 0 → ∀ v,
      s.vrrpSearchInst ⟨frame.inst.viVr.vrId, some ifname, af⟩ = .ok (some v) →
        s.Ignores frame.inst.viVa.pri v) :
    Prog.Throughout (alarms w) (s.MeetsInterrupted w) (frameProgram w af ifname frame) s := by
  unfold frameProgram
  rw [accepted]
  refine throughout_change (stands_self s) fun t₁ stands later => ?_
  have stands : s.Stands false (t₁.setFlag frame.inst.viVr.vrId true) := stands.of_log rfl
  have later : s.Later (t₁.setFlag frame.inst.viVr.vrId true) := { later with }
  rw [if_neg regular]
  refine throughout_fetch stands fun t₂ found stands later₂ searched => ?_
  rw [linked.search_congr (later.trans later₂).shape] at searched
  cases found with
  | none => exact throughout_done stands
  | some v =>
      dsimp only
      split
      · exact throughout_done stands
      · rename_i vid
        exact throughout_incoming linked (linked.mem_of_search searched) stands
          (later.trans later₂) regular (calm vid v searched)

theorem throughout_frame {af : Int} {ifname : Ifname} {frame : Frame} (linked : s.Linked nodes)
    (quiet : s.Quiet w (.frame af ifname frame)) :
    Prog.Throughout (alarms w) (s.MeetsInterrupted w) (frameProgram w af ifname frame) s := by
  cases accepted : frame.accepted with
  | false =>
      unfold frameProgram
      rw [accepted]
      exact throughout_done (stands_self s)
  | true =>
      have calm := quiet accepted
      split at calm
      · rename_i stop
        exact throughout_frame_stop accepted stop calm
      · rename_i regular
        exact throughout_frame_regular linked accepted regular calm

end Quiet

/-! ## Operations that come to the lock or to the queue -/

/-- Where an operation acquires the lock, the handler may come while it holds it
and acquire it again. -/
theorem not_always_lock (stands : s.Stands false t) :
    ¬ Prog.Always (s.MeetsInterrupted w) (lockProgram rest) t := by
  intro always
  have locked : s.Stands true (t.onQueue (·.lock)) := stands.snoc .lock rfl rfl
  have handler := ((Prog.always_change.mp always).2 _ _ .here).2
  obtain ⟨isHeld, twice, -⟩ := (Prog.always_change.mp handler).2 _ _ .here
  exact not_stands .lock locked Bool.noConfusion rfl isHeld twice

theorem not_always_change {f : Daemon → Daemon} (stands : s.Stands false t)
    (silent : (f t).q.log = t.q.log) :
    ¬ Prog.Always (s.MeetsInterrupted w) (.change f (lockProgram rest)) t :=
  fun always => not_always_lock (stands.of_log silent) (Prog.always_change.mp always).2

/-- A VR must not be taken out of the queue while the lock is free. -/
theorem not_always_b2m {v : DsPtr} (stands : s.Stands false t) :
    ¬ Prog.Always s.Meets (vrrpStateB2mProgram w v rest) t := by
  intro always
  have removes := (Prog.always_look.mp always).2
  obtain ⟨isHeld, removed, -⟩ := (Prog.always_change.mp removes).2 _ _ .here
  exact not_stands (.rmqueue _) stands Bool.noConfusion (unhookForward_log _) isHeld removed

theorem not_always_m2i {v : DsPtr} (stands : s.Stands false t) :
    ¬ Prog.Always (s.MeetsInterrupted w) (vrrpStateM2iProgram w v rest) t :=
  fun always => not_always_lock stands (Prog.always_look.mp always).2

theorem not_always_m2b {v : DsPtr} (stands : s.Stands false t) :
    ¬ Prog.Always (s.MeetsInterrupted w) (vrrpStateM2bProgram w v rest) t :=
  fun always => not_always_lock stands (Prog.always_look.mp always).2

theorem not_always_b2i {v : DsPtr} (stands : s.Stands false t) :
    ¬ Prog.Always (s.MeetsInterrupted w) (vrrpStateB2iProgram v rest) t :=
  fun always => not_always_change stands rfl (Prog.always_look.mp always).2

theorem not_always_i2b {v : DsPtr} (stands : s.Stands false t) :
    ¬ Prog.Always (s.MeetsInterrupted w) (vrrpStateI2bProgram w v rest) t :=
  fun always => not_always_change stands rfl (Prog.always_look.mp always).2

theorem not_always_i2m {v : DsPtr} (stands : s.Stands false t) :
    ¬ Prog.Always (s.MeetsInterrupted w) (vrrpStateI2mProgram w v rest) t :=
  fun always => not_always_change stands rfl (Prog.always_look.mp always).2

section Reached

variable {nodes : List DsPtr} {key : Key}

theorem quiet_of_create {inst : VrrpInst} (linked : s.Linked nodes)
    (always : Prog.Always (s.MeetsInterrupted w) (createProgram w inst) s) :
    s.Quiet w (.command (.create inst)) := by
  intro top
  by_contra copies
  obtain ⟨s₁, link⟩ := (linked.of_grows (grows_withInst inst s)).exists_linkInst
    (fun member => Nat.lt_irrefl _ (linked.allocated _ member))
  have created : s.vrrpCreateInst w inst = .ok (VrrpRet.success.code, some s.dsTop, s₁) := by
    rw [vrrpCreateInst_copies (Bool.not_eq_false _ ▸ copies), link]
    rfl
  have stands : s.Stands false s₁ := (stands_self s).of_log (vrrpCreateInst_effect created).2
  have made := (Prog.always_invoke.mp always).2 (VrrpRet.success.code, some s.dsTop) s₁ (by
    rw [created]
    rfl)
  dsimp only at made
  rw [if_neg (not_not.mpr rfl)] at made
  have started := (Prog.always_fetch.mp made).2 s.dsTop rfl
  rw [if_pos top] at started
  exact not_always_i2m stands started

theorem quiet_of_destroy (always : Prog.Always (s.MeetsInterrupted w) (destroyProgram w key) s) :
    s.Quiet w (.command (.remove key)) := by
  intro family v searched
  unfold destroyProgram at always
  rw [if_neg (not_not.mpr family)] at always
  have given := (Prog.always_fetch.mp always).2 _ searched
  have branches := (Prog.always_look.mp ((Prog.always_fetch.mp given).2 v rfl)).2
  split at branches
  · rename_i master
    unfold shutdownProgram at branches
    rw [if_neg (not_not.mpr family)] at branches
    split at branches
    · exact not_always_lock (stands_self s) branches
    · have again := (Prog.always_look.mp ((Prog.always_fetch.mp branches).2 _ searched)).2
      rw [master] at again
      exact not_always_m2i (stands_self s) again
  · exact not_always_lock (stands_self s) branches

theorem quiet_of_startup (always : Prog.Always (s.MeetsInterrupted w) (startupProgram w key) s) :
    s.Quiet w (.command (.startup key)) := by
  intro family vid v searched init
  unfold startupProgram at always
  rw [if_neg (not_not.mpr family), if_neg (not_not.mpr (UInt8.pos_iff_ne_zero.mpr vid))] at always
  have found := (Prog.always_look.mp ((Prog.always_fetch.mp always).2 _ searched)).2
  rw [if_neg (not_not.mpr init)] at found
  exact not_always_i2b (stands_self s) found

theorem quiet_of_shutdown
    (always : Prog.Always (s.MeetsInterrupted w) (shutdownProgram w key .done) s) :
    s.Quiet w (.command (.shutdown key)) := by
  intro family vid v searched
  unfold shutdownProgram at always
  rw [if_neg (not_not.mpr family), if_neg (not_not.mpr (UInt8.pos_iff_ne_zero.mpr vid))] at always
  have found := (Prog.always_look.mp ((Prog.always_fetch.mp always).2 _ searched)).2
  cases state : (s.ds v).state with
  | none | init => rfl
  | mast =>
      rw [state] at found
      exact absurd found (not_always_m2i (stands_self s))
  | back =>
      rw [state] at found
      exact absurd found (not_always_b2i (stands_self s))

theorem quiet_of_modify {pri delay preeMode acptMode : Int}
    (always : Prog.Always (s.MeetsInterrupted w)
      (modifyProgram w key pri delay preeMode acptMode) s) :
    s.Quiet w (.command (.modify key pri delay preeMode acptMode)) := by
  intro preempt accept changes v searched
  unfold modifyProgram at always
  rw [preempt, accept] at always
  have found := (Prog.always_look.mp ((Prog.always_fetch.mp always).2 _ searched)).2
  have priority := (Prog.always_change.mp found).2
  rw [changeDelayProgram, if_pos changes] at priority
  refine not_always_change (Stands.of_log (stands_self s) ?_) rfl priority
  unfold changePri
  split <;> rfl

/-- An instance that does not ignore the priority rearms, or is demoted. -/
theorem ignores_of_incoming {v : DsPtr} {received : VrrpInst} (stands : s.Stands false t)
    (parent : (t.vrs (t.ds v).vr).parent = v) (regular : received.viVa.pri ≠ 0)
    (always : Prog.Always (s.MeetsInterrupted w) (incomingProgram w v received) t) :
    t.Ignores received.viVa.pri v := by
  have handled := (Prog.always_look.mp always).2
  dsimp only at handled
  rw [parent] at handled
  refine ⟨fun back => ?_, fun mast => ?_⟩
  · rw [back] at handled
    by_contra attends
    dsimp only at handled
    rw [if_pos] at handled
    · exact not_always_lock stands handled
    · by_contra ignores
      rw [not_or] at ignores
      exact attends ⟨ignores.1, UInt8.not_le.mp ignores.2⟩
  · rw [mast] at handled
    by_contra higher
    dsimp only at handled
    rw [if_neg regular, if_pos] at handled
    · exact not_always_m2b stands handled
    · exact UInt8.not_le.mp higher

/-- A frame of priority 0 promotes the first instance, if it is in `BACK`, without
the lock: no alarm is needed. -/
theorem not_always_stop {af : Int} {ifname : Ifname} {frame : Frame} {first : DsPtr}
    (accepted : frame.accepted = true) (stop : frame.inst.viVa.pri = 0)
    (listed : s.next instRuntimeList = some first) (back : (s.ds first).state = .back) :
    ¬ Prog.Always s.Meets (frameProgram w af ifname frame) s := by
  intro always
  unfold frameProgram at always
  rw [accepted] at always
  have heard := (Prog.always_change.mp always).2
  rw [if_pos stop] at heard
  have cleared := (Prog.always_change.mp (Prog.always_look.mp heard).2).2
  have given := (Prog.always_look.mp ((Prog.always_fetch.mp cleared).2 first
    (congrArg deref listed))).2
  rw [if_pos] at given
  · have stands : s.Stands false ((s.setFlag frame.inst.viVr.vrId true).setFlag
        frame.inst.viVr.vrId false) := (stands_self s).of_log rfl
    exact not_always_b2m stands given
  · exact back

theorem quiet_of_frame {af : Int} {ifname : Ifname} {frame : Frame} (linked : s.Linked nodes)
    (always : Prog.Always (s.MeetsInterrupted w) (frameProgram w af ifname frame) s) :
    s.Quiet w (.frame af ifname frame) := by
  intro accepted
  split
  · rename_i stop
    intro first listed back
    exact not_always_stop accepted stop listed back fun _ _ reaches => (always _ _ reaches).1
  · rename_i regular
    unfold frameProgram at always
    rw [accepted] at always
    have heard := (Prog.always_change.mp always).2
    rw [if_neg regular] at heard
    intro vid v searched
    have same : (s.setFlag frame.inst.viVr.vrId true).shape = s.shape := rfl
    have stands : s.Stands false (s.setFlag frame.inst.viVr.vrId true) :=
      (stands_self s).of_log rfl
    have found := (Prog.always_fetch.mp heard).2 _ ((linked.search_congr same _).trans searched)
    dsimp only at found
    rw [if_neg vid] at found
    have ignores : (s.setFlag frame.inst.viVr.vrId true).Ignores frame.inst.viVa.pri v :=
      ignores_of_incoming stands (linked.parent v (linked.mem_of_search searched)) regular found
    exact ignores

end Reached

theorem keepsLock_of_quiet {nodes : List DsPtr} {op : Op} (linked : s.Linked nodes)
    (quiet : s.Quiet w op) : s.KeepsLock w op := by
  cases op with
  | alarm => exact always_alarm w (stands_self s)
  | frame af ifname frame => exact throughout_frame linked quiet
  | command command =>
      cases command with
      | create inst => exact throughout_create linked quiet
      | remove key => exact throughout_destroy linked quiet
      | startup key => exact throughout_startup linked quiet
      | shutdown key => exact throughout_shutdown linked quiet
      | modify key pri delay preeMode acptMode => exact throughout_modify linked quiet

theorem quiet_of_keepsLock {nodes : List DsPtr} {op : Op} (linked : s.Linked nodes)
    (keeps : s.KeepsLock w op) : s.Quiet w op := by
  cases op with
  | alarm => trivial
  | frame af ifname frame => exact quiet_of_frame linked keeps.always
  | command command =>
      cases command with
      | create inst => exact quiet_of_create linked keeps.always
      | remove key => exact quiet_of_destroy keeps.always
      | startup key => exact quiet_of_startup keeps.always
      | shutdown key => exact quiet_of_shutdown keeps.always
      | modify key pri delay preeMode acptMode => exact quiet_of_modify keeps.always

/-- The end of an operation that keeps the discipline. -/
theorem KeepsLock.stands {op : Op} (keeps : s.KeepsLock w op) (returns : s.step w op = .ok t) :
    s.Stands false t := by
  have ends := Prog.reaches_of_run ((operate_run w op s).trans returns)
  have meets : s.Meets .done t := by
    cases op with
    | alarm => exact keeps _ _ ends
    | frame | command => exact (keeps.always _ _ ends).1
  obtain ⟨isHeld, stands, released⟩ := meets
  exact released rfl ▸ stands

/-- **The lock discipline, exactly.** In every reachable state an operation keeps
it, whenever and however often it is interrupted, if and only if it is an alarm or
comes neither to the lock nor to the queue. A run of such operations keeps it from
its start to its end. -/
theorem keepsLock_iff (w : World) (s : Daemon) (reachable : Reachable w s) :
    (∀ op, s.KeepsLock w op ↔ s.Quiet w op) ∧
      ∀ ops t, Run (step w) (fun s op => s.Quiet w op) s ops t → s.Stands false t := by
  obtain ⟨nodes, linked⟩ := reachable.linked
  refine ⟨fun op => ⟨quiet_of_keepsLock linked, keepsLock_of_quiet linked⟩, fun ops t run => ?_⟩
  have kept : (∃ nodes, t.Linked nodes) ∧ s.Stands false t := by
    refine run.invariant (fun t : Daemon => (∃ nodes, t.Linked nodes) ∧ s.Stands false t)
      ⟨⟨nodes, linked⟩, stands_self s⟩ ?_
    rintro t op t' ⟨⟨nodes, linked⟩, stands⟩ quiet returns
    obtain ⟨nodes', outcome⟩ := step_list linked returns
    exact ⟨⟨nodes', outcome.linked⟩, stands.trans ((keepsLock_of_quiet linked quiet).stands returns)⟩
  exact kept.2

/-- An alarm that finds a master queued keeps the discipline, whatever interrupts it: it takes the
lock, enters the VR again, and gives the lock back. -/
theorem keepsLock_alarm : ∃ s t, Reachable .plain s ∧ s.q.advQ = some 0 ∧ (s.ds 1).state = .mast ∧
    s.step .plain .alarm = .ok t ∧ t.q.log.length > s.q.log.length + 2 ∧
      s.KeepsLock .plain .alarm ∧ s.Stands false t := by
  have ran : passes (fun s => s.q.advQ == some 0 && (s.ds 1).state == .mast &&
      passes (fun t => decide (t.q.log.length > s.q.log.length + 2)) (s.step .plain .alarm))
      (exec (step .plain) [.create 7 255] initial) = true := by decide +kernel
  obtain ⟨s, created, tested⟩ := exists_of_passes ran
  simp only [Bool.and_eq_true, beq_iff_eq] at tested
  obtain ⟨t, served, logged⟩ := exists_of_passes tested.2
  have reachable : Reachable .plain s := ⟨_, run_of_exec created⟩
  have exact := keepsLock_iff .plain s reachable
  exact ⟨s, t, reachable, tested.1.1, tested.1.2, served, of_decide_eq_true logged,
    (exact.1 .alarm).mpr trivial, exact.2 [.alarm] t (Run.nil.snoc trivial served)⟩

/-- **Operations that break the discipline.** A startup of an instance in `INIT` may
be interrupted while it holds the lock. An advertisement of priority 0 takes the VR
of an instance in `BACK` out of the queue without the lock, also if nothing
interrupts it. -/
theorem keepsLock_startup :
    (∃ s, Reachable .plain s ∧ ¬ s.KeepsLock .plain (.startup 7)) ∧
      ∃ s, Reachable .plain s ∧
        ¬ Prog.Always s.Meets (operate .plain (.hear 7 0)) s := by
  have created : passes (fun s => passes (· == some 1) (s.vrrpSearchInst (.sample 7)) &&
      (s.ds 1).state == .init) (exec (step .plain) [.create 7 100] initial) = true := by
    decide +kernel
  have started : passes (fun s => s.next instRuntimeList == some 1 && (s.ds 1).state == .back)
      (exec (step .plain) [.create 7 100, .hear 7 50, .startup 7] initial) = true := by
    decide +kernel
  constructor
  · obtain ⟨s, returns, tested⟩ := exists_of_passes created
    simp only [Bool.and_eq_true, beq_iff_eq] at tested
    obtain ⟨found, searched, first⟩ := exists_of_passes tested.1
    refine ⟨s, ⟨_, run_of_exec returns⟩, fun keeps => ?_⟩
    rw [beq_iff_eq.mp first] at searched
    exact quiet_of_startup keeps.always rfl (by decide) 1 searched tested.2
  · obtain ⟨s, returns, tested⟩ := exists_of_passes started
    simp only [Bool.and_eq_true, beq_iff_eq] at tested
    refine ⟨s, ⟨_, run_of_exec returns⟩, ?_⟩
    exact not_always_stop (by decide +kernel) rfl tested.1 tested.2

end Daemon

end VrrpDaemon
