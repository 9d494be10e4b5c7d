import VrrpDaemon.Behaviour.Core

/-!
# What a received frame and an alarm do

The outcomes of the two operations that no command triggers. An accepted frame
either only sets flags, or promotes the first instance of the list (priority
0), or demotes the instance its key selects (`processVrrpdSock_outcome`). An
alarm serves one VR: it sends the advertisement of a master, or promotes a
backup (`signalAlarm_outcome`).
-/

set_option autoImplicit false

namespace VrrpDaemon

open Machine

/-- The key of the instance that a frame received on the interface is meant for. -/
def Frame.own (frame : Frame) (ifname : Ifname) : Key :=
  ⟨frame.inst.viVr.vrId, some ifname, afInet⟩

namespace Daemon

variable {w : World} {s s' : Daemon}

/-! ## Frames -/

/-- The flags after a frame of priority 0: its VRID's flag is set, and cleared
again. -/
def cleared (s : Daemon) (frame : Frame) : Daemon :=
  (s.setFlag frame.inst.viVr.vrId true).setFlag frame.inst.viVr.vrId false

/-- The flags after any other frame. -/
def heard (s : Daemon) (frame : Frame) : Daemon := s.setFlag frame.inst.viVr.vrId true

theorem vrrpAdvCheck_rejected {frame : Frame} (rejected : frame.accepted = false) :
    s.vrrpAdvCheck w frame = .ok (none, s) := by
  simp [vrrpAdvCheck, rejected]

theorem vrrpAdvCheck_regular {frame : Frame} (accepted : frame.accepted = true)
    (regular : frame.inst.viVa.pri ≠ 0) :
    s.vrrpAdvCheck w frame = .ok (some frame.inst, s.heard frame) := by
  simp [vrrpAdvCheck, accepted, regular, heard]

theorem vrrpAdvCheck_stop {frame : Frame} (accepted : frame.accepted = true)
    (stop : frame.inst.viVa.pri = 0) :
    s.vrrpAdvCheck w frame = (do
      let first ← deref (s.next instRuntimeList)
      if (s.ds first).state = .back then
        let s ← (s.cleared frame).vrrpStateB2m w first
        return (none, s)
      else return (none, s.cleared frame)) := by
  simp only [vrrpAdvCheck, accepted, stop, Bool.not_true, Bool.false_eq_true, reduceIte]
  rfl

theorem rearm_core {vri : VrPtr} {timeout : UInt32} (returns : s.rearm w vri timeout = .ok s') :
    s'.core = s.core := by
  obtain ⟨s₁, removed, returns⟩ := bind_eq_ok.mp returns
  obtain ⟨s₂, entered, returns⟩ := bind_eq_ok.mp returns
  cases returns
  rw [core_onQueue, core_tryQueue entered, core_onQueue, core_tryQueue removed, core_onQueue]

/-- An advertisement for a running instance leaves it as it is, or rearms its
timer, or demotes it when it is a master with a smaller priority. -/
theorem vrrpProcessIncomingAdv_outcome {curr : DsPtr} {received : VrrpInst}
    (returns : s.vrrpProcessIncomingAdv w curr received = .ok s') :
    s' = s ∨
      ((s.ds (s.vrs (s.ds curr).vr).parent).state.running = true ∧
        ∃ timeout, s.rearm w (s.ds curr).vr timeout = .ok s') ∨
      ((s.ds (s.vrs (s.ds curr).vr).parent).state = .mast ∧
        (s.vrs (s.ds curr).vr).attr.pri < received.viVa.pri ∧
        s.vrrpStateM2b w (s.vrs (s.ds curr).vr).parent = .ok s') := by
  simp only [vrrpProcessIncomingAdv] at returns
  split at returns
  · rename_i backup
    split at returns
    · exact .inr (.inl ⟨by rw [backup]; rfl, _, returns⟩)
    · cases returns
      exact .inl rfl
  · rename_i master
    split at returns
    · exact .inr (.inl ⟨by rw [master]; rfl, _, returns⟩)
    · split at returns
      · rename_i greater
        exact .inr (.inr ⟨master, greater, returns⟩)
      · cases returns
        exact .inl rfl
  · cases returns
    exact .inl rfl
  · cases returns
    exact .inl rfl

/-- A regular advertisement at an instance, by its state. -/
theorem vrrpProcessIncomingAdv_regular {v : DsPtr} {received : VrrpInst}
    (parent : (s.vrs (s.ds v).vr).parent = v) (regular : received.viVa.pri ≠ 0) :
    s.vrrpProcessIncomingAdv w v received =
      match (s.ds v).state with
      | .back =>
          if (s.vr v).attr.preeMode = 0 ∨ received.viVa.pri ≥ s.vrrpPri v then
            s.rearm w (s.ds v).vr (s.skewTimeout (s.ds v).vr received.viVa.pri)
          else .ok s
      | .mast => if s.vrrpPri v < received.viVa.pri then s.vrrpStateM2b w v else .ok s
      | .none | .init => .ok s := by
  simp only [vrrpProcessIncomingAdv, parent, regular, reduceIte]
  rfl

theorem processVrrpdSock_rejected {af : Int} {ifname : Ifname} {frame : Frame}
    (rejected : frame.accepted = false) : s.processVrrpdSock w af ifname frame = .ok s := by
  simp [processVrrpdSock, vrrpAdvCheck_rejected rejected]

/-- A frame of priority 0 reads the state of the first instance, also when there
is none. -/
theorem processVrrpdSock_stop {af : Int} {ifname : Ifname} {frame : Frame}
    (accepted : frame.accepted = true) (stop : frame.inst.viVa.pri = 0) :
    s.processVrrpdSock w af ifname frame =
      match s.next instRuntimeList with
      | none => .error .nullDeref
      | some first =>
          if (s.ds first).state = .back then (s.cleared frame).vrrpStateB2m w first
          else .ok (s.cleared frame) := by
  simp only [processVrrpdSock, vrrpAdvCheck_stop accepted stop]
  cases s.next instRuntimeList with
  | none => rfl
  | some first =>
      simp only [deref_some, ok_bind]
      split
      · cases (s.cleared frame).vrrpStateB2m w first <;> rfl
      · rfl

/-- Any other frame is for the instance that its key selects. -/
theorem processVrrpdSock_regular {af : Int} {ifname : Ifname} {frame : Frame}
    (accepted : frame.accepted = true) (regular : frame.inst.viVa.pri ≠ 0) :
    s.processVrrpdSock w af ifname frame = (do
      let found ← (s.heard frame).vrrpSearchInst ⟨frame.inst.viVr.vrId, some ifname, af⟩
      match found with
      | none => .ok (s.heard frame)
      | some curr =>
          if frame.inst.viVr.vrId = 0 then .ok (s.heard frame)
          else (s.heard frame).vrrpProcessIncomingAdv w curr frame.inst) := by
  simp only [processVrrpdSock, vrrpAdvCheck_regular accepted regular, ok_bind]
  rfl

/-- **What a received frame does**: nothing, when the header is not accepted; a
promotion of the first instance, when it is in `BACK` and the priority is 0; or
it sets a flag, and may rearm or demote the instance that its key selects. -/
theorem processVrrpdSock_outcome {af : Int} {ifname : Ifname} {frame : Frame}
    (returns : s.processVrrpdSock w af ifname frame = .ok s') :
    s' = s ∨
      (frame.accepted = true ∧ frame.inst.viVa.pri = 0 ∧
        ∃ first, s.next instRuntimeList = some first ∧
          (s' = s.cleared frame ∨
            ((s.ds first).state = .back ∧ (s.cleared frame).vrrpStateB2m w first = .ok s'))) ∨
      (frame.accepted = true ∧ frame.inst.viVa.pri ≠ 0 ∧
        (s' = s.heard frame ∨
          ∃ curr, (s.heard frame).vrrpSearchInst ⟨frame.inst.viVr.vrId, some ifname, af⟩ =
              .ok (some curr) ∧
            frame.inst.viVr.vrId ≠ 0 ∧
            (s.heard frame).vrrpProcessIncomingAdv w curr frame.inst = .ok s')) := by
  cases accepted : frame.accepted with
  | false =>
      rw [processVrrpdSock_rejected accepted] at returns
      exact .inl (Except.ok.inj returns).symm
  | true =>
      by_cases stop : frame.inst.viVa.pri = 0
      · rw [processVrrpdSock_stop accepted stop] at returns
        refine .inr (.inl ⟨rfl, stop, ?_⟩)
        cases found : s.next instRuntimeList with
        | none => simp [found] at returns
        | some first =>
            refine ⟨first, rfl, ?_⟩
            simp only [found] at returns
            split at returns
            · exact .inr ⟨‹_›, returns⟩
            · exact .inl (Except.ok.inj returns).symm
      · refine .inr (.inr ⟨rfl, stop, ?_⟩)
        rw [processVrrpdSock_regular accepted stop] at returns
        obtain ⟨found, searched, returns⟩ := bind_eq_ok.mp returns
        cases found with
        | none => exact .inl (Except.ok.inj returns).symm
        | some curr =>
            dsimp only at returns
            split at returns
            · exact .inl (Except.ok.inj returns).symm
            · exact .inr ⟨curr, searched, ‹_›, returns⟩

/-! ## Alarms -/

theorem vrrpRmqueueImpl_links {q q' : TimerQueue} {entry : VrPtr}
    (returns : q.vrrpRmqueueImpl entry = .ok q') :
    q'.qnext entry = none ∧ q'.qprev entry = none := by
  obtain ⟨q₁, -, returns⟩ := bind_eq_ok.mp returns
  cases returns
  simp [TimerQueue.isolate, TimerQueue.setQnext, TimerQueue.setQprev]

/-- **The handler serves one VR**: the loop tests the links of a VR that was just
taken out of the queue. -/
theorem alarmLoop_succ (w : World) (fuel : Nat) (nextEntry : Option VrPtr) (s : Daemon) :
    s.alarmLoop w (fuel + 1) nextEntry = (do
      let (taken, q) ← s.q.vrrpDequeue
      match taken with
      | none => return { s with q := q }
      | some entry => ({ s with q := q } : Daemon).serveEntry w entry nextEntry) := by
  simp only [alarmLoop]
  cases dequeued : s.q.vrrpDequeue with
  | error fault => rfl
  | ok pair =>
      obtain ⟨taken, q⟩ := pair
      cases taken with
      | none => rfl
      | some entry =>
          have alone : q.qnext entry = none := by
            simp only [TimerQueue.vrrpDequeue] at dequeued
            split at dequeued
            · cases dequeued
            · obtain ⟨q', removed, dequeued⟩ := bind_eq_ok.mp dequeued
              cases dequeued
              exact (vrrpRmqueueImpl_links removed).1
          simp only [ok_bind, alone, Option.isSome_none, Bool.false_and, Bool.false_eq_true,
            reduceIte, pure_eq_ok]
          cases ({ s with q := q } : Daemon).serveEntry w entry nextEntry <;> rfl

/-- What serving a VR does to the rest of the daemon, by the state of its
instance. -/
def served (w : World) (entry : VrPtr) (s : Daemon) : Daemon :=
  let p := (s.vrs entry).parent
  match (s.ds p).state with
  | .mast => s.vrrpSendAdv p 1
  | .back => s.promote w .backToMast p
  | .none | .init => s

theorem core_served (w : World) (entry : VrPtr) (s : Daemon) :
    (s.served w entry).core = s.core.served w entry := by
  have state : (s.core.ds (s.core.vrs entry).parent).state = (s.ds (s.vrs entry).parent).state := rfl
  simp only [served, state]
  cases (s.ds (s.vrs entry).parent).state with
  | back => exact core_promote w .backToMast (s.vrs entry).parent s
  | mast | none | init => rfl

theorem serveEntry_core {entry : VrPtr} {nextEntry : Option VrPtr}
    (returns : s.serveEntry w entry nextEntry = .ok s') : s'.core = (s.served w entry).core := by
  simp only [serveEntry] at returns
  split at returns
  · rename_i master
    obtain ⟨s₁, entered, returns⟩ := bind_eq_ok.mp returns
    cases returns
    rw [core_onQueue, core_tryQueue entered, core_onQueue, served, master]
  · rename_i backup
    obtain ⟨s₁, promoted, returns⟩ := bind_eq_ok.mp returns
    obtain ⟨s₂, entered, returns⟩ := bind_eq_ok.mp returns
    cases returns
    rw [core_onQueue, core_tryQueue entered, core_onQueue, vrrpStateB2m_core promoted, served,
      backup]
  · rename_i idle
    cases returns
    rw [served, idle]
  · rename_i idle
    cases returns
    rw [served, idle]

/-- **What an alarm does**: nothing, or it takes out the VR at the head of the
queue and serves it. -/
theorem signalAlarm_outcome (returns : s.signalAlarm w = .ok s') :
    (s.q.advQ = none ∧ s' = (s.onQueue (·.lock)).onQueue (·.unlock)) ∨
      ∃ entry q s₁, s.q.advQ = some entry ∧ s.q.lock.vrrpRmqueueImpl entry = .ok q ∧
        ({ s with q := q } : Daemon).serveEntry w entry none = .ok s₁ ∧
        s' = s₁.onQueue (·.unlock) := by
  simp only [signalAlarm, alarmLoop_succ] at returns
  obtain ⟨s₁, looped, returns⟩ := bind_eq_ok.mp returns
  obtain ⟨⟨taken, q⟩, dequeued, served⟩ := bind_eq_ok.mp looped
  cases returns
  simp only [TimerQueue.vrrpDequeue] at dequeued
  split at dequeued
  · rename_i idle
    cases dequeued
    cases served
    exact .inl ⟨idle, rfl⟩
  · rename_i entry queued
    obtain ⟨q', removed, dequeued⟩ := bind_eq_ok.mp dequeued
    cases dequeued
    exact .inr ⟨entry, q, s₁, queued, removed, served, rfl⟩

theorem signalAlarm_core (returns : s.signalAlarm w = .ok s') :
    (s.q.advQ = none ∧ s'.core = s.core) ∨
      ∃ entry, s.q.advQ = some entry ∧ s'.core = (s.served w entry).core := by
  rcases signalAlarm_outcome returns with ⟨idle, rfl⟩ | ⟨entry, q, s₁, queued, -, served, rfl⟩
  · exact .inl ⟨idle, rfl⟩
  · refine .inr ⟨entry, queued, ?_⟩
    rw [core_onQueue, serveEntry_core served, core_served, core_served, core_withQueue]

end Daemon

end VrrpDaemon
