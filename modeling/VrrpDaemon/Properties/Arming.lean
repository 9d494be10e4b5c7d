import VrrpDaemon.Behaviour.Allocation
import VrrpDaemon.Properties.Demotion
import VrrpDaemon.Properties.Modification

/-!
# With which timeouts the timers are armed

The VR of a backup is to be queued for the Master_Down_Interval, and that of a master
for the advertisement interval, whichever function enters it (`ArmsRight`).

`vrrp_state_i2b` and `vrrp_state_m2b` enter the VR of the backup they make for the
advertisement interval. Where they promote it at once that is right after all. All
other sites ask for the right interval. That of a backup is longer than that of a
master as long as both fit a timeout (`longer_of_delay`). So a step arms right exactly
when it leaves no backup behind that it has just made, and rearms none of too great a
delay (`armsRight_iff`).
-/

set_option autoImplicit false

namespace VrrpDaemon

open Machine

/-- The Master_Down_Interval of the attributes is longer than the advertisement
interval. -/
def Longer (attr : VrrpAttr) : Prop := advInterval attr < masterDown attr

/-- The timeout is right for an instance in this state with these attributes. -/
def Fits (state : VrrpState) (attr : VrrpAttr) (t : UInt32) : Prop :=
  (state = .back → t = masterDown attr ∧ advInterval attr < t) ∧
    (state = .mast → t = advInterval attr)

section Fits

variable {attr : VrrpAttr} {state : VrrpState} {t : UInt32}

theorem fits_mast : Fits .mast attr t ↔ t = advInterval attr := by simp [Fits]

theorem fits_back : Fits .back attr t ↔ t = masterDown attr ∧ advInterval attr < t := by
  simp [Fits]

theorem fits_idle (idle : state.running = false) : Fits state attr t := by
  cases state with
  | none | init => simp [Fits]
  | mast | back => cases idle

/-- The advertisement interval is not for a backup. -/
theorem not_fits_back : ¬ Fits .back attr (advInterval attr) := fun fits =>
  UInt32.lt_irrefl _ (fits.1 rfl).2

theorem fits_back_masterDown : Fits .back attr (masterDown attr) ↔ Longer attr := by
  simp [fits_back, Longer]

/-- **Up to 715 seconds** the interval of a backup is the longer one. -/
theorem longer_of_delay (positive : 0 < attr.delay) (small : attr.delay ≤ 715) : Longer attr := by
  have skew := skewOf_eq attr.pri
  have adv : ((advInterval attr).toNat : Int) = attr.delay * 1000000 := by
    rw [advInterval, vrrpSec2usec]
    exact toNat_toTimeout_iff.mpr (by omega)
  have down : ((masterDown attr).toNat : Int) = 3 * (attr.delay * 1000000) + skewOf attr.pri := by
    rw [masterDown, vrrpSec2usec]
    refine toNat_toTimeout_iff.mpr ?_
    rw [skew]
    split <;> omega
  rw [Longer, UInt32.lt_iff_toNat_lt]
  rw [skew] at down
  split at down <;> omega

end Fits

namespace Daemon

variable {w : World} {s s' : Daemon} {nodes : List DsPtr} {v : DsPtr} {key : Key}

/-- **A right step.** Every timeout with which the VR of a listed instance was entered
between the two states is right for the instance as it is then. -/
def ArmsRight (s s' : Daemon) : Prop :=
  ∃ events, s'.q.log = s.q.log ++ events ∧
    ∀ v, s'.Listed v → ∀ t, .enqueue (s'.ds v).vr t ∈ events →
      Fits (s'.ds v).state (s'.vr v).attr t

/-! ## Which calls count -/

section Calls

variable {done : List TimerEvent} {vrs : Nat} {q : TimerQueue}

/-- The log shows the calls that entered a VR. -/
theorem armsRight_iff_calls (listed : s'.Linked nodes) (log : q.log = s.q.log)
    (edits : TimerQueue.Edits w vrs q done s'.q) :
    s.ArmsRight s' ↔ ∀ v ∈ nodes, ∀ t, .enqueue (s'.ds v).vr t ∈ done →
      Fits (s'.ds v).state (s'.vr v).attr t := by
  obtain ⟨events, logged, calls⟩ := edits.log
  rw [log] at logged
  have entered : ∀ p t, .enqueue p t ∈ done ↔ .enqueue p t ∈ events := by
    intro p t
    rw [← calls, List.mem_filter]
    exact and_iff_left rfl
  simp only [entered, ← listed.listed_iff]
  constructor
  · rintro ⟨own, logged', right⟩
    rwa [List.append_cancel_left (logged.symm.trans logged')]
  · exact fun right => ⟨events, logged, right⟩

/-- A step that enters no VR is right. -/
theorem armsRight_of_quiet (listed : s'.Linked nodes) (log : q.log = s.q.log)
    (edits : TimerQueue.Edits w vrs q done s'.q) (quiet : ∀ p t, .enqueue p t ∉ done) :
    s.ArmsRight s' :=
  (armsRight_iff_calls listed log edits).mpr fun _ _ _ entered => absurd entered (quiet _ _)

/-- A step that logs nothing is right. -/
theorem armsRight_of_log (log : s'.q.log = s.q.log) : s.ArmsRight s' :=
  ⟨[], by rw [log, List.append_nil], fun _ _ _ entered => by cases entered⟩

/-- Only the log matters of the state before. -/
theorem ArmsRight.of_log {t : Daemon} (right : t.ArmsRight s') (log : t.q.log = s.q.log) :
    s.ArmsRight s' := by
  rw [ArmsRight, ← log]
  exact right

/-- A step that enters the VR of one listed instance, with one timeout. -/
theorem armsRight_iff_fits {t : UInt32} (listed : s'.Linked nodes) (log : q.log = s.q.log)
    (edits : TimerQueue.Edits w vrs q done s'.q) (member : v ∈ nodes)
    (one : ∀ p x, .enqueue p x ∈ done ↔ p = (s'.ds v).vr ∧ x = t) :
    s.ArmsRight s' ↔ Fits (s'.ds v).state (s'.vr v).attr t := by
  rw [armsRight_iff_calls listed log edits]
  simp only [one]
  constructor
  · exact fun right => right v member t ⟨rfl, rfl⟩
  · rintro fits u memberU x ⟨same, rfl⟩
    rwa [listed.vr_inj memberU member same]

end Calls

/-! ## The transitions -/

/-- The record of an instance is that of before, as far as the shape and the VRs are. -/
theorem vr_of_stable (shape : s'.shape = s.shape) (vrs : s'.vrs = s.vrs) (v : DsPtr) :
    s'.vr v = s.vr v := by
  rw [vr, vr, vrs, vr_of_shape shape]

theorem mem_retimed (p : VrPtr) (x : UInt32) :
    .enqueue p x ∈ s.retimed v ↔ p = (s.ds v).vr ∧ x = s.advTimeout v := by
  simp [retimed]

theorem mem_requeued (r p : VrPtr) (t x : UInt32) :
    .enqueue p x ∈ [TimerEvent.rmqueue r, .enqueue r t] ↔ p = r ∧ x = t := by
  simp

theorem b2m_armsRight (linked : s.Linked nodes) (member : v ∈ nodes)
    (returns : s.vrrpStateB2m w v = .ok s') : s.ArmsRight s' := by
  have core := vrrpStateB2m_core returns
  have shape : s'.shape = s.shape := by rw [shape_of_core core, shape_promote]
  have vrs : s'.vrs = s.vrs := by rw [vrs_of_core core, vrs_stable.promote]
  have one : ∀ p x, .enqueue p x ∈ s.retimed v ↔ p = (s'.ds v).vr ∧ x = s.advTimeout v := by
    intro p x
    rw [vr_of_shape shape]
    exact mem_retimed p x
  rw [armsRight_iff_fits (linked.of_shape shape) rfl (vrrpStateB2m_edits returns) member one,
    vr_of_stable shape vrs, ds_of_core core, state_promote_self]
  exact fits_mast.mpr rfl

/-- A backup that was entered for the advertisement interval, and promoted at once if no
flag is set, is right exactly then. -/
theorem armsRight_iff_promoted {t : Daemon} {done : List TimerEvent} (listed : s'.Linked nodes)
    (member : v ∈ nodes) (edits : Edits w done s s')
    (one : ∀ p x, .enqueue p x ∈ done ↔ p = (s'.ds v).vr ∧ x = s.advTimeout v)
    (same : s'.vr v = s.vr v) (backup : (t.ds v).state = .back)
    (core : s'.core =
      if s.anyMasterUp = 0 then (t.promote w .backToMast v).core else t.core) :
    s.ArmsRight s' ↔ s.anyMasterUp = 0 := by
  rw [armsRight_iff_fits listed rfl edits member one, same]
  by_cases up : s.anyMasterUp = 0
  · rw [if_pos up] at core
    rw [ds_of_core core, state_promote_self]
    exact iff_of_true (fits_mast.mpr rfl) up
  · rw [if_neg up] at core
    rw [ds_of_core core, backup]
    exact iff_of_false not_fits_back up

/-- **A start arms right** if it leaves a master. -/
theorem i2b_armsRight_iff (linked : s.Linked nodes) (member : v ∈ nodes)
    (returns : s.vrrpStateI2b w v = .ok s') : s.ArmsRight s' ↔ s.anyMasterUp = 0 := by
  have shape := shape_stable.i2b returns
  refine armsRight_iff_promoted (linked.of_shape shape) member (vrrpStateI2b_edits returns) ?_
    (vr_of_stable shape (vrs_stable.i2b returns) v) (by rw [setState_ds_self])
    (vrrpStateI2b_core returns)
  intro p x
  rw [vr_of_shape shape]
  split <;> simp [mem_retimed]

/-- **A demotion arms right** if the backup is promoted again. -/
theorem m2b_armsRight_iff (linked : s.Linked nodes) (member : v ∈ nodes)
    (returns : s.vrrpStateM2b w v = .ok s') : s.ArmsRight s' ↔ s.anyMasterUp = 0 := by
  have shape := shape_stable.m2b returns
  refine armsRight_iff_promoted (linked.of_shape shape) member (vrrpStateM2b_edits returns) ?_
    (vr_of_stable shape (vrs_stable.m2b returns) v) (state_leave_self ..)
    (vrrpStateM2b_core returns)
  intro p x
  rw [vr_of_shape shape]
  split <;> simp [mem_retimed]

/-- A backup that hears another is rearmed for its own Master_Down_Interval. -/
theorem rearm_armsRight_iff (linked : s.Linked nodes) (member : v ∈ nodes)
    (backup : (s.ds v).state = .back) {received : UInt8} (regular : received ≠ 0)
    (returns : s.rearm w (s.ds v).vr (s.skewTimeout (s.ds v).vr received) = .ok s') :
    s.ArmsRight s' ↔ Longer (s.vr v).attr := by
  have core := rearm_core returns
  have shape := shape_of_core core
  rw [skewTimeout_regular regular] at returns
  have one : ∀ p x, .enqueue p x ∈ [TimerEvent.rmqueue (s.ds v).vr,
      .enqueue (s.ds v).vr (masterDown (s.vr v).attr)] ↔
        p = (s'.ds v).vr ∧ x = masterDown (s.vr v).attr := by
    intro p x
    rw [vr_of_shape shape]
    simp
  rw [armsRight_iff_fits (linked.of_shape shape) rfl (rearm_edits returns) member one,
    vr_of_stable shape (vrs_of_core core), ds_of_core core, backup]
  exact fits_back_masterDown

/-! ## Operations that arm right -/

/-- Calls that take VRs out only. -/
def Dequeues (w : World) (s s' : Daemon) : Prop :=
  ∃ done, Edits w done s s' ∧ ∀ p t, .enqueue p t ∉ done

theorem Dequeues.of_removed {p : VrPtr} (edits : Edits w [.rmqueue p] s s') : s.Dequeues w s' :=
  ⟨_, edits, by simp⟩

theorem Dequeues.of_quiet (edits : Edits w [] s s') : s.Dequeues w s' := ⟨_, edits, by simp⟩

theorem Dequeues.trans {t : Daemon} (first : s.Dequeues w t) (second : t.Dequeues w s')
    (top : t.vrTop = s.vrTop) : s.Dequeues w s' := by
  obtain ⟨done, edits, quiet⟩ := first
  obtain ⟨more, later, silent⟩ := second
  rw [Edits, top] at later
  refine ⟨done ++ more, TimerQueue.Edits.trans edits later, fun p t member => ?_⟩
  rcases List.mem_append.mp member with early | late
  · exact quiet p t early
  · exact silent p t late

theorem shutdown_dequeues {ret : Int} (returns : s.vrrpShutdownInst w key = .ok (ret, s')) :
    s.Dequeues w s' := by
  rcases vrrpShutdownInst_outcome returns with rfl | ⟨v, -, -, -, ⟨-, stopped⟩ | ⟨-, stopped⟩⟩
  · exact .of_quiet .refl
  · exact .of_removed (vrrpStateM2i_edits stopped)
  · exact .of_removed (vrrpStateB2i_edits stopped)

theorem rmqueue_dequeues {ret : Int} (returns : s.vrrpRmqueue key = .ok (ret, s')) :
    s.Dequeues w s' := by
  rcases vrrpRmqueue_outcome returns with ⟨-, rfl⟩ | ⟨v, -, -, removed⟩
  · exact .of_quiet .refl
  · obtain ⟨q, out, rfl⟩ := tryQueue_eq_ok.mp removed
    exact .of_removed (TimerQueue.Edits.refl.rmqueue out)

theorem leaveQueue_dequeues (returns : s.leaveQueue w key v = .ok s') : s.Dequeues w s' := by
  have noted : ∀ (t : Daemon) (event : TimerEvent), event.edits = false →
      t.Dequeues w (t.onQueue (·.note event)) := fun t event other =>
    .of_quiet (TimerQueue.Edits.refl.note event other)
  have dequeues : ∀ {t t' : Daemon} {removed : Int},
      (t.onQueue (·.lock)).vrrpRmqueue key = .ok (removed, t') →
        t.Dequeues w (t'.onQueue (·.unlock)) := fun {t t' removed} dequeued => by
    have top : t'.vrTop = t.vrTop :=
      congrArg Shape.vrTop (shape_of_core (vrrpRmqueue_core dequeued))
    exact ((noted t .lock rfl).trans (rmqueue_dequeues dequeued) rfl).trans
      (noted t' .unlock rfl) top
  obtain ⟨-, status, s₁, removed, s₂, stopped, dequeued, rfl⟩ |
    ⟨-, removed, s₁, dequeued, -, rfl⟩ := leaveQueue_cases returns
  · exact (shutdown_dequeues stopped).trans (dequeues dequeued)
      (congrArg Shape.vrTop (shape_stable.shutdown stopped))
  · obtain ⟨done, edits, quiet⟩ := dequeues dequeued
    refine ⟨done, ?_, quiet⟩
    rw [Edits, q_execution]
    exact edits

/-- Taking VRs out is right. -/
theorem Dequeues.armsRight (dequeues : s.Dequeues w s') (listed : s'.Linked nodes) :
    s.ArmsRight s' := by
  obtain ⟨done, edits, quiet⟩ := dequeues
  exact armsRight_of_quiet listed rfl edits quiet

theorem destroy_armsRight {ret : Int} (linked : s.Linked nodes)
    (returns : s.vrrpDestroyInst w key = .ok (ret, s')) : s.ArmsRight s' := by
  rcases vrrpDestroyInst_core returns with ⟨-, rfl⟩ | ⟨family, v, -, searched, -, -⟩
  · exact armsRight_of_log rfl
  · obtain ⟨-, s₁, left, unlinked⟩ := destroy_left family searched returns
    obtain ⟨next, prev, before, after, rfl, -, shorter⟩ :=
      (linked.of_shape (leaveQueue_shape left)).unlink (linked.mem_of_search searched) unlinked
    obtain ⟨done, edits, quiet⟩ := leaveQueue_dequeues left
    exact armsRight_of_quiet shorter rfl edits quiet

/-- A master that starts is entered for the advertisement interval. -/
theorem i2m_armsRight {ret sec : Int} (linked : s.Linked nodes) (member : v ∈ nodes)
    (returns : s.vrrpStateI2m w v = .ok (ret, s')) :
    s.ArmsRight (s'.onQueue (·.alarm sec)) := by
  have core := (vrrpStateI2m_core returns).2
  have shape : s'.shape = s.shape := by rw [shape_of_core core, shape_promote]
  have vrs : s'.vrs = s.vrs := by rw [vrs_of_core core, vrs_stable.promote]
  have listed : (s'.onQueue (·.alarm sec)).Linked nodes := linked.of_shape shape
  have edits := (vrrpStateI2m_edits returns).note (.alarm sec) rfl
  have one : ∀ p x, .enqueue p x ∈ [TimerEvent.enqueue (s.ds v).vr (s.advTimeout v)] ↔
      p = ((s'.onQueue (·.alarm sec)).ds v).vr ∧ x = s.advTimeout v := by
    intro p x
    show _ ↔ p = (s'.ds v).vr ∧ _
    rw [vr_of_shape shape]
    simp
  have state : ((s'.onQueue (·.alarm sec)).ds v).state = .mast := by
    show (s'.ds v).state = .mast
    rw [ds_of_core core, state_promote_self]
  have same : (s'.onQueue (·.alarm sec)).vr v = s.vr v := vr_of_stable shape vrs v
  rw [armsRight_iff_fits listed rfl edits member one, state, same]
  exact fits_mast.mpr rfl

theorem create_armsRight {inst : VrrpInst} {ret : Int} (linked : s.Linked nodes)
    (returns : s.createCommand w inst = .ok (ret, s')) : s.ArmsRight s' := by
  rcases createCommand_outcome returns with
    ⟨status, -, failed, grows⟩ | ⟨s₁, -, link, ⟨-, rfl⟩ | ⟨-, status, s₂, started, rfl⟩⟩
  · rcases vrrpCreateInst_failed failed with rfl | failed
    · exact armsRight_of_log rfl
    · exact armsRight_of_log (allocInst_failed (fun t => t.q.log = s.q.log) failed rfl rfl rfl)
  · have log : s'.q.log = (s.withInst inst).q.log := congrArg TimerQueue.log (linkInst_q link)
    exact armsRight_of_log log
  · obtain ⟨next, prev, before, after, rfl, -, listed⟩ := linked.link link
    have member : s.dsTop ∈ before ++ s.dsTop :: after := by simp
    exact (i2m_armsRight listed member started).of_log rfl

/-- The handler enters VRs of masters only, for the advertisement interval. -/
theorem alarm_armsRight (linked : s.Linked nodes) (allocated : s.Allocated)
    (returns : s.signalAlarm w = .ok s') : s.ArmsRight s' := by
  have shape := shape_stable.alarm returns
  have listed := linked.of_shape shape
  rcases signalAlarm_edits returns with ⟨-, edits⟩ | ⟨entry, queued, edits⟩
  · exact armsRight_of_quiet listed rfl edits (by simp)
  · have own := (allocated.parent entry (allocated.queue.advQ entry queued)).2
    have core : s'.core = (s.served w entry).core := by
      rcases signalAlarm_core returns with ⟨idle, -⟩ | ⟨head, first, core⟩
      · cases idle.symm.trans queued
      · cases first.symm.trans queued
        exact core
    refine (armsRight_iff_calls listed rfl edits).mpr fun u member t entered => ?_
    rw [vr_of_shape shape] at entered
    rw [vr_of_stable shape (vrs_stable.alarm returns), ds_of_core core]
    -- the instance of the VR served is the one that is listed
    have parent : (s.ds u).vr = entry → (s.vrs entry).parent = u := fun same =>
      same ▸ linked.parent u member
    cases state : (s.ds (s.vrs entry).parent).state with
    | mast =>
        simp only [servedEdits, state, List.mem_cons, reduceCtorEq, TimerEvent.enqueue.injEq,
          List.not_mem_nil, or_false, false_or] at entered
        obtain ⟨same, rfl⟩ := entered
        obtain rfl := parent same
        simp only [served, state]
        have kept : ((s.vrrpSendAdv (s.vrs entry).parent 1).ds (s.vrs entry).parent).state =
            .mast := state
        rw [kept, fits_mast, advInterval, vr, own]
    | back =>
        simp only [servedEdits, state, List.mem_cons, reduceCtorEq, List.mem_append, mem_retimed,
          own, TimerEvent.enqueue.injEq, List.not_mem_nil, or_false, false_or] at entered
        have both : (s.ds u).vr = entry ∧ t = advInterval (s.vrs entry).attr := by
          rcases entered with ⟨same, rfl⟩ | entered
          · refine ⟨same, ?_⟩
            rw [advTimeout, vrrpDelay, vr, own, advInterval]
          · exact entered
        obtain ⟨same, rfl⟩ := both
        obtain rfl := parent same
        simp only [served, state]
        rw [state_promote_self, fits_mast, vr, own]
    | none | init =>
        simp [servedEdits, state] at entered

/-! ## Operations that may arm wrong -/

/-- A startup arms right if it starts no backup that stays one. -/
theorem startup_armsRight_iff {ret : Int} (linked : s.Linked nodes)
    (returns : s.vrrpStartupInst w key = .ok (ret, s')) :
    s.ArmsRight s' ↔ ∀ v, key.af = afInet → key.vid ≠ 0 → s.vrrpSearchInst key = .ok (some v) →
      (s.ds v).state = .init → s.anyMasterUp = 0 := by
  by_cases starts : ∃ v, key.af = afInet ∧ key.vid ≠ 0 ∧
      s.vrrpSearchInst key = .ok (some v) ∧ (s.ds v).state = .init
  · obtain ⟨v, family, given, searched, idle⟩ := starts
    rw [vrrpStartupInst_idle family given searched idle] at returns
    obtain ⟨s₁, started, same⟩ := bind_eq_ok.mp returns
    cases same
    rw [i2b_armsRight_iff linked (linked.mem_of_search searched) started]
    exact ⟨fun up _ _ _ _ _ => up, fun right => right v family given searched idle⟩
  · rcases vrrpStartupInst_outcome returns with rfl | ⟨v, family, given, searched, idle, -⟩
    · refine iff_of_true (armsRight_of_log rfl) fun v family given searched idle => ?_
      exact absurd ⟨v, family, given, searched, idle⟩ starts
    · exact absurd ⟨v, family, given, searched, idle⟩ starts

/-- The modes do not matter to an interval. -/
theorem runningInterval_withModes (state : VrrpState) (attr : VrrpAttr) (preeMode acptMode : Int) :
    runningInterval state (withModes attr preeMode acptMode) = runningInterval state attr := by
  cases state <;> rfl

/-- The interval of a running instance is right, except for a backup where it is too
long. -/
theorem fits_runningInterval {state : VrrpState} {attr : VrrpAttr}
    (running : state.running = true) :
    Fits state attr (runningInterval state attr) ↔ (state = .back → Longer attr) := by
  cases state with
  | mast => simp [fits_mast, runningInterval]
  | back => simpa [runningInterval] using fits_back_masterDown
  | none | init => cases running

/-- The VR of a running instance is requeued for the interval of its new attributes. -/
theorem enqueueTimeout_modified {stored : UInt32} {pri delay preeMode acptMode : Int}
    (running : (s.ds v).state.running = true) :
    (s.setAttr (s.ds v).vr (withDelay (withPri (s.vr v).attr pri) delay)).enqueueTimeout v stored =
      runningInterval (s.ds v).state (modifiedAttr (s.vr v).attr pri delay preeMode acptMode) := by
  rw [modifiedAttr, runningInterval_withModes]
  refine (@enqueueTimeout_running (s.setAttr (s.ds v).vr _) v stored running).trans ?_
  exact congrArg (runningInterval (s.ds v).state) (setAttr_vrs ..)

/-- A modification that requeues the VR arms right, except for a backup of too great a
delay. -/
theorem requeued_armsRight_iff {ret pri delay preeMode acptMode : Int} {stored : UInt32}
    (linked : s.Linked nodes) (modifies : s.Modifies key preeMode acptMode v)
    (returns : s.vrrpSetInstProp w key pri delay preeMode acptMode = .ok (ret, s'))
    (edits : TimerQueue.Edits w s.vrTop s.q [.rmqueue (s.ds v).vr, .enqueue (s.ds v).vr
      ((s.setAttr (s.ds v).vr (withDelay (withPri (s.vr v).attr pri) delay)).enqueueTimeout
        v stored)] s'.q) :
    s.ArmsRight s' ↔ ((s.ds v).state = .back →
      Longer (modifiedAttr (s.vr v).attr pri delay preeMode acptMode)) := by
  have listed := linked.of_shape (vrrpSetInstProp_shape returns)
  have ds := vrrpSetInstProp_ds returns
  have one := mem_requeued (s.ds v).vr
  rw [← ds] at one edits
  rw [armsRight_iff_fits listed rfl edits (linked.mem_of_search modifies.2.2)
    fun p x => one p _ x, vrrpSetInstProp_attr modifies returns, ds]
  cases running : (s.ds v).state.running with
  | false =>
      refine iff_of_true (fits_idle running) fun backup => ?_
      rw [backup] at running
      cases running
  | true =>
      rw [enqueueTimeout_modified running]
      exact fits_runningInterval running

/-- A modification arms right if it restarts no timer of a backup of too great a delay. -/
theorem modify_armsRight_iff {ret pri delay preeMode acptMode : Int} (linked : s.Linked nodes)
    (returns : s.vrrpSetInstProp w key pri delay preeMode acptMode = .ok (ret, s')) :
    s.ArmsRight s' ↔ ∀ v, s.Modifies key preeMode acptMode v → delay ≠ vrPropUnchange →
      QueueGiven key → ¬ (s.q.qnext (s.ds v).vr = none ∧ s.q.qprev (s.ds v).vr = none) →
        (s.ds v).state = .back → Longer (modifiedAttr (s.vr v).attr pri delay preeMode acptMode) := by
  have listed := linked.of_shape (vrrpSetInstProp_shape returns)
  rcases vrrpSetInstProp_outcome returns with
    ⟨-, rfl, none⟩ | ⟨-, v, modifies, s₁, changed, changes⟩
  · exact iff_of_true (armsRight_of_log rfl) fun v modifies => absurd modifies (none v)
  · have only : ∀ u, s.Modifies key preeMode acptMode u → u = v := fun u other =>
      Option.some.inj (Except.ok.inj (other.2.2.symm.trans modifies.2.2))
    have queue : s'.q = s₁.q := by
      rw [changes, changeModes_eq]
      rfl
    by_cases given : delay = vrPropUnchange
    · rw [changeDelay, if_neg (not_not.mpr given), changePri_eq] at changed
      cases changed
      exact iff_of_true (armsRight_of_log (congrArg TimerQueue.log queue))
        fun _ _ asked => absurd given asked
    · rcases linked.changeDelay_edits modifies.2.2 given changed with
        ⟨accepted, link, stored, edits⟩ | ⟨refused, edits⟩
      · rw [Edits, ← queue] at edits
        rw [requeued_armsRight_iff linked modifies returns edits]
        constructor
        · intro right u other _ _ _ backup
          obtain rfl := only u other
          exact right backup
        · exact fun right => right v modifies given accepted link
      · refine iff_of_true ?_ fun u other _ accepted link => ?_
        · rw [Edits, ← queue] at edits
          exact armsRight_of_quiet listed rfl edits (by simp)
        · obtain rfl := only u other
          exact absurd ⟨accepted, link⟩ refused

/-- A regular frame arms right if it demotes no master, and rearms no backup of too great
a delay. -/
theorem incoming_armsRight_iff {frame : Frame} (linked : s.Linked nodes) (member : v ∈ nodes)
    (regular : frame.inst.viVa.pri ≠ 0) (vid : frame.inst.viVr.vrId ≠ 0)
    (returns : (s.heard frame).vrrpProcessIncomingAdv w v frame.inst = .ok s') :
    s.ArmsRight s' ↔
      ((s.ds v).state = .mast → ¬ s.vrrpPri v < frame.inst.viVa.pri) ∧
      ((s.ds v).state = .back →
        (s.vr v).attr.preeMode = 0 ∨ frame.inst.viVa.pri ≥ s.vrrpPri v → Longer (s.vr v).attr) := by
  have heard : (s.heard frame).Linked nodes := linked.of_shape rfl
  have handed : (s.heard frame).vrrpProcessIncomingAdv w v frame.inst = _ :=
    vrrpProcessIncomingAdv_regular (heard.parent v member) regular
  rw [handed] at returns
  have state : ((s.heard frame).ds v).state = (s.ds v).state := rfl
  rw [state] at returns
  cases here : (s.ds v).state with
  | mast =>
      simp only [here] at returns
      simp only [reduceCtorEq, true_implies, false_implies, and_true]
      split at returns
      · rename_i greater
        have wrong : ¬ (s.heard frame).ArmsRight s' := fun right =>
          heard_anyMasterUp vid ((m2b_armsRight_iff heard member returns).mp right)
        exact iff_of_false wrong (not_not.mpr greater)
      · rename_i enough
        cases returns
        exact iff_of_true (armsRight_of_log rfl) enough
  | back =>
      simp only [here] at returns
      simp only [reduceCtorEq, true_implies, false_implies, true_and]
      split at returns
      · rename_i listens
        have rearmed : (s.heard frame).ArmsRight s' ↔ Longer (s.vr v).attr :=
          rearm_armsRight_iff heard member here regular returns
        exact rearmed.trans ⟨fun longer _ => longer, fun right => right listens⟩
      · rename_i ignores
        cases returns
        exact iff_of_true (armsRight_of_log rfl) fun listens => absurd listens ignores
  | none | init =>
      simp only [here] at returns
      cases returns
      exact iff_of_true (armsRight_of_log rfl) (by simp)

theorem frame_armsRight_iff {af : Int} {ifname : Ifname} {frame : Frame} (linked : s.Linked nodes)
    (returns : s.processVrrpdSock w af ifname frame = .ok s') :
    s.ArmsRight s' ↔ ∀ v, frame.accepted = true → frame.inst.viVa.pri ≠ 0 →
      frame.inst.viVr.vrId ≠ 0 →
      s.vrrpSearchInst ⟨frame.inst.viVr.vrId, some ifname, af⟩ = .ok (some v) →
        ((s.ds v).state = .mast → ¬ s.vrrpPri v < frame.inst.viVa.pri) ∧
        ((s.ds v).state = .back →
          (s.vr v).attr.preeMode = 0 ∨ frame.inst.viVa.pri ≥ s.vrrpPri v →
            Longer (s.vr v).attr) := by
  have shape : (s.heard frame).shape = s.shape := rfl
  by_cases heeded : frame.accepted = true ∧ frame.inst.viVa.pri ≠ 0
  rotate_left
  · refine iff_of_true ?_ fun v accepted regular => absurd ⟨accepted, regular⟩ heeded
    rcases processVrrpdSock_outcome returns with
      rfl | ⟨-, -, first, found, rfl | ⟨-, promoted⟩⟩ | ⟨accepted, regular, -⟩
    · exact armsRight_of_log rfl
    · exact armsRight_of_log rfl
    · have cleared : (s.cleared frame).Linked nodes := linked.of_shape rfl
      exact (b2m_armsRight cleared (linked.first_mem found) promoted).of_log rfl
    · exact absurd ⟨accepted, regular⟩ heeded
  · obtain ⟨accepted, regular⟩ := heeded
    rw [processVrrpdSock_regular accepted regular] at returns
    obtain ⟨found, searched, returns⟩ := bind_eq_ok.mp returns
    rw [linked.search_congr shape] at searched
    cases found with
    | none =>
        cases returns
        refine iff_of_true (armsRight_of_log rfl) fun v _ _ _ selected => ?_
        cases searched.symm.trans selected
    | some u =>
        dsimp only at returns
        split at returns
        · rename_i vid
          cases returns
          exact iff_of_true (armsRight_of_log rfl) fun v _ _ given => absurd vid given
        · rename_i vid
          rw [incoming_armsRight_iff linked (linked.mem_of_search searched) regular vid returns]
          constructor
          · intro right v _ _ _ selected
            cases searched.symm.trans selected
            exact right
          · exact fun right => right u accepted regular vid searched

/-! ## Every step -/

/-- The operations after which every timer armed is right: a startup leaves no backup
that it has just started, a frame demotes no master, and no backup is rearmed for a
Master_Down_Interval that is not the longer one. -/
def ArmingSafe (s : Daemon) : Op → Prop
  | .command (.startup key) =>
      ∀ v, key.af = afInet → key.vid ≠ 0 → s.vrrpSearchInst key = .ok (some v) →
        (s.ds v).state = .init → s.anyMasterUp = 0
  | .command (.modify key pri delay preeMode acptMode) =>
      ∀ v, s.Modifies key preeMode acptMode v → delay ≠ vrPropUnchange → QueueGiven key →
        ¬ (s.q.qnext (s.ds v).vr = none ∧ s.q.qprev (s.ds v).vr = none) →
          (s.ds v).state = .back →
            Longer (modifiedAttr (s.vr v).attr pri delay preeMode acptMode)
  | .frame af ifname frame =>
      ∀ v, frame.accepted = true → frame.inst.viVa.pri ≠ 0 → frame.inst.viVr.vrId ≠ 0 →
        s.vrrpSearchInst ⟨frame.inst.viVr.vrId, some ifname, af⟩ = .ok (some v) →
          ((s.ds v).state = .mast → ¬ s.vrrpPri v < frame.inst.viVa.pri) ∧
          ((s.ds v).state = .back →
            (s.vr v).attr.preeMode = 0 ∨ frame.inst.viVa.pri ≥ s.vrrpPri v →
              Longer (s.vr v).attr)
  | .command (.create _) | .command (.remove _) | .command (.shutdown _) | .alarm => True

/-- **When all arming sites agree.** In every reachable state and for every operation
that returns: the timers it armed are right for the instances as it leaves them if and
only if the operation is safe. -/
theorem armsRight_iff (w : World) (s s' : Daemon) (reachable : Reachable w s) (op : Op)
    (returns : step w op s = .ok s') : s.ArmsRight s' ↔ s.ArmingSafe op := by
  obtain ⟨nodes, linked⟩ := reachable.linked
  cases op with
  | frame af ifname frame => exact frame_armsRight_iff linked returns
  | alarm => exact iff_of_true (alarm_armsRight linked reachable.allocated returns) trivial
  | command command =>
      obtain ⟨⟨status, s₁⟩, processed, returns⟩ := bind_eq_ok.mp returns
      cases returns
      cases command with
      | create inst => exact iff_of_true (create_armsRight linked processed) trivial
      | remove key => exact iff_of_true (destroy_armsRight linked processed) trivial
      | startup key => exact startup_armsRight_iff linked processed
      | shutdown key =>
          have listed := linked.of_shape (shape_stable.shutdown processed)
          exact iff_of_true ((shutdown_dequeues processed).armsRight listed) trivial
      | modify key pri delay preeMode acptMode => exact modify_armsRight_iff linked processed

/-- A backup hears its VRID with a greater priority, and is rearmed for three seconds. -/
theorem armsRight_heard :
    ∃ s s', Run (step .plain) unguarded initial [.hear 9 50, .create 7 100, .startup 7] s ∧
      step .plain (.hear 7 200) s = .ok s' ∧ s.ArmsRight s' ∧
      (s'.ds 1).state = .back ∧ .enqueue 0 3000000 ∈ s'.q.log := by
  have ran : passes (fun s => (s.ds 1).state == .back && (s.vr 1).attr.delay == 1 &&
      passes (· == some 1) (s.vrrpSearchInst (.sample 7)) &&
      passes (fun s' => (s'.ds 1).state == .back &&
        s'.q.log.contains (TimerEvent.enqueue 0 3000000)) (step .plain (.hear 7 200) s))
      (exec (step .plain) [.hear 9 50, .create 7 100, .startup 7] initial) = true := by
    decide +kernel
  obtain ⟨s, returns, tested⟩ := exists_of_passes ran
  simp only [Bool.and_eq_true, beq_iff_eq] at tested
  obtain ⟨⟨⟨backup, delay⟩, found⟩, handled⟩ := tested
  obtain ⟨v, searched, one⟩ := exists_of_passes found
  obtain rfl := beq_iff_eq.mp one
  obtain ⟨s', answer, after⟩ := exists_of_passes handled
  simp only [Bool.and_eq_true, beq_iff_eq, List.contains_iff_mem] at after
  have run := run_of_exec returns
  refine ⟨s, s', run, answer, ?_, after.1, after.2⟩
  refine (armsRight_iff .plain s s' ⟨_, run⟩ (.hear 7 200) answer).mpr ?_
  intro u _ _ _ selected
  cases searched.symm.trans selected
  refine ⟨fun master => ?_, fun _ _ => longer_of_delay ?_ ?_⟩
  · cases backup.symm.trans master
  · rw [delay]
    decide
  · rw [delay]
    decide

/-- **A start arms a backup like a master**: its VR is queued for one second, where the
Master_Down_Interval is three. -/
theorem armsRight_started :
    ∃ s s', Run (step .plain) unguarded initial [.hear 9 50, .create 7 100] s ∧
      step .plain (.startup 7) s = .ok s' ∧ (s'.ds 1).state = .back ∧
      masterDown (s'.vr 1).attr = 3000000 ∧
      s'.q.log = s.q.log ++ [.lock, .enqueue 0 1000000, .ualarm 1000000, .unlock, .sleep 1] ∧
      ¬ s.ArmsRight s' := by
  have ran : passes (fun s => passes (fun s' => (s'.ds 1).state == .back && (s'.ds 1).vr == 0 &&
        masterDown (s'.vr 1).attr == 3000000 && s'.next instRuntimeList == some 1 &&
        s'.next 1 == none && s'.q.log == s.q.log ++
          [.lock, .enqueue 0 1000000, .ualarm 1000000, .unlock, .sleep 1])
        (step .plain (.startup 7) s))
      (exec (step .plain) [.hear 9 50, .create 7 100] initial) = true := by decide +kernel
  obtain ⟨s, returns, tested⟩ := exists_of_passes ran
  obtain ⟨s', answer, after⟩ := exists_of_passes tested
  simp only [Bool.and_eq_true, beq_iff_eq] at after
  obtain ⟨⟨⟨⟨⟨backup, own⟩, down⟩, first⟩, last⟩, log⟩ := after
  refine ⟨s, s', run_of_exec returns, answer, backup, down, log, ?_⟩
  rintro ⟨events, logged, right⟩
  obtain rfl := List.append_cancel_left (logged.symm.trans log)
  have listed : s'.Listed 1 := ⟨[1], ⟨first, last⟩, List.mem_cons_self⟩
  have fits := right 1 listed 1000000 (by simp [own])
  rw [backup, fits_back, down] at fits
  exact absurd fits.1 (by decide)

end Daemon

end VrrpDaemon
