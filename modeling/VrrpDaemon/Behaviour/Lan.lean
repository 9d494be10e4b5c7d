import VrrpDaemon.Model.Lan
import VrrpDaemon.Behaviour.Steps

/-!
# What a router with one instance does with a frame

A router serves a key when the instance of the key is its only one. Then every
frame is dealt with at that instance, if at all (`Hearing`). Two things change
its state: a backup is promoted by priority 0, and a master yields to a greater
priority.
-/

set_option autoImplicit false

namespace VrrpDaemon

open Machine

namespace Daemon

variable {w : World} {v : DsPtr} {key : Key} {frame : Frame} {s s' : Daemon}

/-- The instance `v` is the only one, and has the key. -/
structure Serves (s : Daemon) (v : DsPtr) (key : Key) : Prop where
  linked : s.Linked [v]
  own : s.key v = key

namespace Serves

theorem of_shape (serves : s.Serves v key) (same : s'.shape = s.shape) : s'.Serves v key :=
  ⟨serves.linked.of_shape same, (key_of_shape same v).trans serves.own⟩

theorem first (serves : s.Serves v key) : s.next instRuntimeList = some v :=
  serves.linked.doubly.1.1

theorem parent (serves : s.Serves v key) : (s.vrs (s.ds v).vr).parent = v :=
  serves.linked.parent v List.mem_cons_self

theorem vid (serves : s.Serves v key) : s.vrrpId v = key.vid := by
  rw [← serves.own]
  rfl

end Serves

/-- In a reachable state with one instance, it serves its own key. -/
theorem Reachable.serves (reachable : Reachable w s) (first : s.next instRuntimeList = some v)
    (last : s.next v = none) : s.Serves v (s.key v) := by
  obtain ⟨nodes, linked⟩ := reachable.linked
  have one : Segment s.next (s.next instRuntimeList) [v] none := ⟨first, last⟩
  obtain rfl : nodes = [v] := linked.doubly.1.unique one
  exact ⟨linked, rfl⟩

/-- An instance is compatible with its own key. -/
theorem matchesPart_self (s : Daemon) (v : DsPtr) : s.matchesPart (s.key v) v = true := by
  have name : sameName (some (s.vrrpIfname v)) (s.vrrpIfname v) = true :=
    decide_eq_true ((Ifname.strncmp_iff _ _).mpr rfl)
  simp [matchesPart, Daemon.key, name]

/-- Its key selects the only instance. -/
theorem Serves.search (serves : s.Serves v key) : s.vrrpSearchInst key = .ok (some v) := by
  rw [serves.linked.search, ← serves.own, select]
  have compatible := matchesPart_self s v
  cases full : (s.key v).isFull with
  | true =>
      rw [matchesPart_of_full full] at compatible
      simp [compatible]
  | false => simp [compatible, onlyOne]

/-! ## Frames -/

/-- What a router with one instance does with a frame. -/
inductive Hearing (w : World) (v : DsPtr) (frame : Frame) (s s' : Daemon) : Prop where
  | ignored (rejected : frame.accepted = false) (same : s' = s)
  /-- Priority 0 does not concern an instance outside `BACK`. -/
  | stopped (stop : frame.inst.viVa.pri = 0) (notBackup : (s.ds v).state ≠ .back)
      (same : s' = s.cleared frame)
  /-- Priority 0 promotes a backup. -/
  | promoted (stop : frame.inst.viVa.pri = 0) (backup : (s.ds v).state = .back)
      (core : s'.core = ((s.cleared frame).promote w .backToMast v).core)
  /-- A master yields to a greater priority, and stays in `BACK` as a flag is set. -/
  | yielded (master : (s.ds v).state = .mast) (greater : s.vrrpPri v < frame.inst.viVa.pri)
      (core : s'.core = ((s.heard frame).leave w .mastToBack .back v).core)
  /-- Any other frame sets a flag, and may rearm the timer. -/
  | noted (regular : frame.inst.viVa.pri ≠ 0) (core : s'.core = (s.heard frame).core)

theorem Serves.heard (serves : s.Serves v key) (frame : Frame) : (s.heard frame).Serves v key :=
  serves.of_shape rfl

/-- A demotion that a frame causes ends in `BACK`. -/
theorem yielded_core (given : frame.inst.viVr.vrId ≠ 0)
    (returns : (s.heard frame).vrrpStateM2b w v = .ok s') :
    s'.core = ((s.heard frame).leave w .mastToBack .back v).core := by
  have up : (s.heard frame).anyMasterUp ≠ 0 := anyMasterUp_ne_zero given (Function.update_self ..)
  have core := vrrpStateM2b_core returns
  rwa [if_neg up] at core

/-- **What a router with one instance does with a frame.** -/
theorem Serves.hearing {af : Int} {ifname : Ifname} (serves : s.Serves v key)
    (returns : s.processVrrpdSock w af ifname frame = .ok s') : Hearing w v frame s s' := by
  cases accepted : frame.accepted with
  | false =>
      rw [processVrrpdSock_rejected accepted] at returns
      exact .ignored accepted (Except.ok.inj returns).symm
  | true =>
      by_cases stop : frame.inst.viVa.pri = 0
      · rw [processVrrpdSock_stop accepted stop, serves.first] at returns
        dsimp only at returns
        split at returns
        · exact .promoted stop ‹_› (vrrpStateB2m_core returns)
        · exact .stopped stop ‹_› (Except.ok.inj returns).symm
      · rw [processVrrpdSock_regular accepted stop] at returns
        obtain ⟨found, searched, returns⟩ := bind_eq_ok.mp returns
        cases found with
        | none =>
            cases returns
            exact .noted stop rfl
        | some curr =>
            obtain rfl : curr = v :=
              List.mem_singleton.mp ((serves.heard frame).linked.mem_of_search searched)
            dsimp only at returns
            split at returns
            · cases returns
              exact .noted stop rfl
            · rename_i given
              have parent := (serves.heard frame).parent
              rcases vrrpProcessIncomingAdv_outcome returns with
                rfl | ⟨-, timeout, rearmed⟩ | ⟨master, greater, demoted⟩
              · exact .noted stop rfl
              · exact .noted stop (rearm_core rearmed)
              · rw [parent] at master demoted
                exact .yielded master greater (yielded_core given demoted)

/-- **A master yields** to a frame of its key with a greater priority. -/
theorem Serves.yields {ifname : Ifname} (serves : s.Serves v key)
    (accepted : frame.accepted = true) (own : key = frame.own ifname)
    (given : frame.inst.viVr.vrId ≠ 0) (master : (s.ds v).state = .mast)
    (greater : s.vrrpPri v < frame.inst.viVa.pri)
    (returns : s.processVrrpdSock w afInet ifname frame = .ok s') :
    (s'.ds v).state = .back := by
  have regular : frame.inst.viVa.pri ≠ 0 := fun stop => by
    rw [stop] at greater
    exact absurd greater (UInt8.not_lt.mpr UInt8.zero_le)
  have searched := (serves.heard frame).search
  have masterHeard : ((s.heard frame).ds v).state = .mast := master
  have lower : (s.heard frame).vrrpPri v < frame.inst.viVa.pri := greater
  rw [own, Frame.own] at searched
  rw [processVrrpdSock_regular accepted regular, searched, ok_bind] at returns
  dsimp only at returns
  rw [if_neg given, vrrpProcessIncomingAdv_regular (serves.heard frame).parent regular] at returns
  simp only [masterHeard, lower, reduceIte] at returns
  rw [ds_of_core (yielded_core given returns), state_leave_self]

/-- A frame that no master yields to is handled. -/
theorem Serves.hears_master {ifname : Ifname} (serves : s.Serves v key)
    (accepted : frame.accepted = true) (own : key = frame.own ifname)
    (regular : frame.inst.viVa.pri ≠ 0) (master : (s.ds v).state = .mast)
    (stays : frame.inst.viVr.vrId ≠ 0 → ¬ s.vrrpPri v < frame.inst.viVa.pri) :
    s.processVrrpdSock w afInet ifname frame = .ok (s.heard frame) := by
  have searched := (serves.heard frame).search
  rw [own, Frame.own] at searched
  rw [processVrrpdSock_regular accepted regular, searched, ok_bind]
  dsimp only
  split
  · rfl
  · rename_i given
    have masterHeard : ((s.heard frame).ds v).state = .mast := master
    have notLower : ¬ (s.heard frame).vrrpPri v < frame.inst.viVa.pri := stays given
    rw [vrrpProcessIncomingAdv_regular (serves.heard frame).parent regular]
    simp only [masterHeard, notLower, reduceIte]

/-! ## A router's own operations -/

/-- The operations that leave the list of instances as it is, other than frames. -/
def KeepsInstances : Op → Prop
  | .command (.create _) | .command (.remove _) | .frame .. => False
  | .command (.startup _) | .command (.shutdown _) | .command (.modify ..) | .alarm => True

theorem step_shape {op : Op} (keeps : KeepsInstances op) (returns : step w op s = .ok s') :
    s'.shape = s.shape := by
  cases op with
  | alarm => exact shape_stable.alarm returns
  | frame => exact keeps.elim
  | command command =>
      obtain ⟨⟨status, s₁⟩, processed, returns⟩ := bind_eq_ok.mp returns
      cases returns
      cases command with
      | create | remove => exact keeps.elim
      | startup => exact shape_stable.startup processed
      | shutdown => exact shape_stable.shutdown processed
      | modify => exact vrrpSetInstProp_shape processed

theorem advertise_shape : (s.advertise v).shape = s.shape := by
  unfold advertise
  split <;> rfl

/-! ## What is written -/

theorem accepted_vrrpBuildPkt (s : Daemon) (v : DsPtr) (priority : Int) :
    (s.vrrpBuildPkt v priority).accepted = true := rfl

theorem pri_vrrpBuildPkt_stop (s : Daemon) (v : DsPtr) :
    (s.vrrpBuildPkt v 0).inst.viVa.pri = 0 := rfl

theorem written_append {block : List Effect} (appended : s'.effects = s.effects ++ block) :
    s.written s' = framesOf block := by
  simp [written, appended]

theorem written_self (same : s'.effects = s.effects) : s.written s' = [] := by
  have none : s.written s' = framesOf [] := written_append (by simp [same])
  rw [none]
  rfl

/-- A master writes its advertisement, any other router nothing. -/
theorem written_advertise :
    s.written (s.advertise v) =
      if (s.ds v).state = .mast then [s.vrrpBuildPkt v 1] else [] := by
  unfold advertise
  split
  · have appended : (s.vrrpSendAdv v 1).effects =
        s.effects ++ [.advert v (s.vrrpBuildPkt v 1)] := rfl
    rw [written_append appended]
    rfl
  · exact written_self rfl

/-! ## What a frame changes -/

section Hearing

variable (hearing : Hearing w v frame s s')
include hearing

theorem Hearing.shape : s'.shape = s.shape := by
  cases hearing with
  | ignored _ same => rw [same]
  | stopped _ _ same =>
      rw [same]
      rfl
  | promoted _ _ core =>
      rw [shape_of_core core, shape_promote]
      rfl
  | yielded _ _ core =>
      rw [shape_of_core core, shape_leave]
      rfl
  | noted _ core => exact (shape_of_core core).trans rfl

/-- A frame changes no attribute. -/
theorem Hearing.pri : s'.vrrpPri v = s.vrrpPri v := by
  have vrs : s'.vrs = s.vrs := by
    cases hearing with
    | ignored _ same => rw [same]
    | stopped _ _ same =>
        rw [same]
        rfl
    | promoted _ _ core =>
        rw [vrs_of_core core, promote_eq _ _ _ (.inr rfl)]
        rfl
    | yielded _ _ core =>
        rw [vrs_of_core core, leave_eq _ _ _ (.inl rfl)]
        rfl
    | noted _ core => exact (vrs_of_core core).trans rfl
  rw [vrrpPri, vrrpPri, vr, vr, vrs, vr_of_shape hearing.shape]

/-- Priority 0 promotes a backup. -/
theorem Hearing.state_stop (accepted : frame.accepted = true) (stop : frame.inst.viVa.pri = 0)
    (backup : (s.ds v).state = .back) : (s'.ds v).state = .mast := by
  cases hearing with
  | ignored rejected => simp [accepted] at rejected
  | stopped _ notBackup => exact absurd backup notBackup
  | promoted _ _ core => rw [ds_of_core core, state_promote_self]
  | yielded master =>
      rw [backup] at master
      cases master
  | noted regular => exact absurd stop regular

/-- What else changes the state is a master that yields. -/
theorem Hearing.state :
    (s'.ds v).state = (s.ds v).state ∨
      (frame.inst.viVa.pri = 0 ∧ (s.ds v).state = .back) ∨
      ((s.ds v).state = .mast ∧ s.vrrpPri v < frame.inst.viVa.pri) := by
  cases hearing with
  | ignored _ same => exact .inl (by rw [same])
  | stopped _ _ same =>
      left
      rw [same]
      rfl
  | promoted stop backup => exact .inr (.inl ⟨stop, backup⟩)
  | yielded master greater => exact .inr (.inr ⟨master, greater⟩)
  | noted _ core =>
      left
      rw [ds_of_core core]
      rfl

/-- A frame stops no instance. -/
theorem Hearing.running (runs : (s.ds v).state.running = true) :
    (s'.ds v).state.running = true := by
  cases hearing with
  | ignored _ same => rwa [same]
  | stopped _ _ same =>
      rw [same]
      exact runs
  | promoted _ _ core =>
      rw [ds_of_core core, state_promote_self]
      rfl
  | yielded _ _ core =>
      rw [ds_of_core core, state_leave_self]
      rfl
  | noted _ core =>
      rw [ds_of_core core]
      exact runs

/-- Only a master that yields writes a frame, of priority 0. -/
theorem Hearing.written {sent : Frame} (member : sent ∈ s.written s') :
    (s.ds v).state = .mast ∧ s.vrrpPri v < frame.inst.viVa.pri ∧ sent.accepted = true ∧
      sent.inst.viVr.vrId = s.vrrpId v ∧ sent.inst.viVa.pri = 0 := by
  cases hearing with
  | ignored _ same =>
      rw [written_self (by rw [same])] at member
      cases member
  | stopped _ _ same =>
      rw [written_self (by rw [same]; rfl)] at member
      cases member
  | promoted _ _ core =>
      have effects := effects_of_core core
      rw [promote_eq _ _ _ (.inr rfl)] at effects
      have none : s.written s' = [] := written_append effects
      rw [none] at member
      cases member
  | yielded master greater core =>
      have effects := effects_of_core core
      rw [leave_eq _ _ _ (.inl rfl)] at effects
      have one : s.written s' = [((s.heard frame).setState v .back).vrrpBuildPkt v 0] :=
        written_append effects
      rw [one, List.mem_singleton] at member
      subst member
      refine ⟨master, greater, accepted_vrrpBuildPkt .., ?_, pri_vrrpBuildPkt_stop ..⟩
      have key := key_of_shape (shape_setState (s.heard frame) v .back) v
      exact congrArg Key.vid key
  | noted _ core =>
      rw [written_self (by rw [effects_of_core core]; rfl)] at member
      cases member

/-- A master that a frame makes leave `MAST` writes a frame of priority 0. -/
theorem Hearing.written_stop (master : (s.ds v).state = .mast) (left : (s'.ds v).state ≠ .mast) :
    ∃ sent ∈ s.written s', sent.accepted = true ∧ sent.inst.viVa.pri = 0 := by
  cases hearing with
  | ignored _ same =>
      rw [same] at left
      exact absurd master left
  | stopped _ _ same =>
      rw [same] at left
      exact absurd master left
  | promoted _ backup =>
      rw [master] at backup
      cases backup
  | yielded _ _ core =>
      have effects := effects_of_core core
      rw [leave_eq _ _ _ (.inl rfl)] at effects
      have one : s.written s' = [((s.heard frame).setState v .back).vrrpBuildPkt v 0] :=
        written_append effects
      rw [one]
      exact ⟨_, List.mem_singleton_self _, accepted_vrrpBuildPkt .., pri_vrrpBuildPkt_stop ..⟩
  | noted _ core =>
      rw [ds_of_core core] at left
      exact absurd master left

end Hearing

end Daemon

end VrrpDaemon
