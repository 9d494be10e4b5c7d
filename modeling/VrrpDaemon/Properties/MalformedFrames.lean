import VrrpDaemon.Model.Wire
import VrrpDaemon.Behaviour.Queue

/-!
# Malformed frames

The receiver decodes a cleared buffer at fixed offsets and looks neither at the
number of bytes received nor at the length of the IP header. A frame whose
version, protocol or time to live is wrong is dropped. A frame that is only too
short is not: what is missing reads as 0, and a frame without a payload is an
advertisement of priority 0 for VRID 0.

Such a frame still has no effect in some states
(`malformed_undisturbed_iff`): the flag of its VRID must already be as the frame
leaves it, and the instance it turns to must ignore it.
-/

set_option autoImplicit false

namespace VrrpDaemon

open Machine

/-- The frame is shorter than an Ethernet header, the IP header it announces and
a record, or its version, protocol or time to live is wrong. -/
def Malformed (datagram : List UInt8) : Prop :=
  datagram.length < sizeofEthhdr + 4 * ipIhl (vrrpRecvAdv4 datagram) + sizeofVrrpInst ∨
    ipVersion (vrrpRecvAdv4 datagram) ≠ 4 ∨ ipProtocol (vrrpRecvAdv4 datagram) ≠ 112 ∨
      ipTtl (vrrpRecvAdv4 datagram) ≠ 255

instance (datagram : List UInt8) : Decidable (Malformed datagram) :=
  inferInstanceAs (Decidable (_ ∨ _ ∨ _ ∨ _))

namespace Daemon

variable {w : World} {s s' : Daemon} {nodes : List DsPtr}

/-- The list, the states, the flags and the timer queue are as before; the queue
includes the alarm that drives it, which is not armed anew. -/
structure Unchanged (s s' : Daemon) : Prop where
  next : s'.next = s.next
  prev : s'.prev = s.prev
  state : ∀ v, (s'.ds v).state = (s.ds v).state
  q : s'.q = s.q
  flag : s'.flag = s.flag

/-- Handling the frame returns and has no effect. -/
def Undisturbed (w : World) (af : Int) (ifname : Ifname) (datagram : List UInt8) (s : Daemon) :
    Prop :=
  ∃ s', s.processVrrpdSockBytes w af ifname datagram = .ok s' ∧ Unchanged s s'

/-- The instance does nothing about a regular advertisement of this priority: a
backup that preempts has a greater one, and a master one at least as great. -/
def Ignores (s : Daemon) (pri : UInt8) (v : DsPtr) : Prop :=
  ((s.ds v).state = .back → (s.vr v).attr.preeMode ≠ 0 ∧ pri < s.vrrpPri v) ∧
    ((s.ds v).state = .mast → pri ≤ s.vrrpPri v)

/-- The condition on a frame, as it is read from the buffer. If its header is
accepted: for priority 0, the flag of its VRID is clear, and there is a first
instance, not in `BACK`; for another one, a NUL ends its name, the flag of its
VRID is set, and the instance that it selects ignores it. -/
def Harmless (af : Int) (ifname : Ifname) (frame : Frame) (s : Daemon) : Prop :=
  frame.accepted = true →
    if frame.inst.viVa.pri = 0 then
      s.flag frame.inst.viVr.vrId = false ∧
        ∃ first, s.next instRuntimeList = some first ∧ (s.ds first).state ≠ .back
    else
      frame.inst.viVr.vrIfname.bytes.length < lifnamsiz ∧
        s.flag frame.inst.viVr.vrId = true ∧
          (frame.inst.viVr.vrId ≠ 0 → ∀ v,
            s.vrrpSearchInst ⟨frame.inst.viVr.vrId, some ifname, af⟩ = .ok (some v) →
              s.Ignores frame.inst.viVa.pri v)

/-! ## From the bytes to the fields -/

/-- The check of a frame whose name need not be copied, or is ended by a NUL. -/
theorem vrrpAdvCheckBytes_eq {datagram : List UInt8} {frame : Frame}
    (read : Frame.load (vrrpRecvAdv4 datagram) = frame)
    (terminated : frame.accepted = true → frame.inst.viVa.pri ≠ 0 →
      frame.inst.viVr.vrIfname.bytes.length < lifnamsiz) :
    s.vrrpAdvCheckBytes w (vrrpRecvAdv4 datagram) = s.vrrpAdvCheck w frame := by
  rw [vrrpAdvCheckBytes, read]
  cases accepted : frame.accepted with
  | false =>
      rw [vrrpAdvCheck_rejected accepted]
      rfl
  | true =>
      by_cases stop : frame.inst.viVa.pri = 0
      · rw [vrrpAdvCheck_stop accepted stop]
        cases s.next instRuntimeList with
        | none => rfl
        | some first =>
            simp only [deref_some, ok_bind]
            split
            · cases (s.cleared frame).vrrpStateB2m w first <;> rfl
            · rfl
      · have copied : frame.inst.viVr.vrIfname.strcpy = .ok frame.inst.viVr.vrIfname :=
          if_pos (terminated accepted stop)
        rw [vrrpAdvCheck_regular accepted stop, ok_bind]
        dsimp only
        rw [copied]
        rfl

/-- Such a frame is handled as its fields say. -/
theorem processVrrpdSockBytes_eq {af : Int} {ifname : Ifname} {datagram : List UInt8}
    {frame : Frame} (read : Frame.load (vrrpRecvAdv4 datagram) = frame)
    (terminated : frame.accepted = true → frame.inst.viVa.pri ≠ 0 →
      frame.inst.viVr.vrIfname.bytes.length < lifnamsiz) :
    s.processVrrpdSockBytes w af ifname datagram = s.processVrrpdSock w af ifname frame := by
  rw [processVrrpdSockBytes, vrrpAdvCheckBytes_eq read terminated]
  rfl

/-- The copy of any other name runs past its field. -/
theorem processVrrpdSockBytes_overflow {af : Int} {ifname : Ifname} {datagram : List UInt8}
    {frame : Frame} (read : Frame.load (vrrpRecvAdv4 datagram) = frame)
    (accepted : frame.accepted = true) (regular : frame.inst.viVa.pri ≠ 0)
    (overlong : ¬ frame.inst.viVr.vrIfname.bytes.length < lifnamsiz) :
    s.processVrrpdSockBytes w af ifname datagram = .error .overflow := by
  simp only [processVrrpdSockBytes, vrrpAdvCheckBytes, read, vrrpAdvCheck_regular accepted regular,
    ok_bind, Ifname.strcpy, overlong, reduceIte]
  rfl

/-! ## The flags -/

theorem Unchanged.refl (s : Daemon) : Unchanged s s := ⟨rfl, rfl, fun _ => rfl, rfl, rfl⟩

/-- What sets one flag changes nothing else, and this flag if it was not so. -/
theorem unchanged_setFlag_iff {vid : UInt8} {up : Bool} :
    Unchanged s (s.setFlag vid up) ↔ s.flag vid = up := by
  constructor
  · intro unchanged
    rw [← congrFun unchanged.flag vid]
    exact Function.update_self ..
  · intro already
    refine ⟨rfl, rfl, fun _ => rfl, rfl, ?_⟩
    show Function.update s.flag vid up = s.flag
    rw [Function.update_eq_self_iff]
    exact already.symm

/-- A frame of priority 0 leaves the flag of its VRID clear. -/
theorem unchanged_cleared_iff {frame : Frame} :
    Unchanged s (s.cleared frame) ↔ s.flag frame.inst.viVr.vrId = false := by
  have twice : s.cleared frame = s.setFlag frame.inst.viVr.vrId false := by
    simp only [cleared, setFlag, Function.update_idem]
  rw [twice]
  exact unchanged_setFlag_iff

/-- Any other frame leaves it set. -/
theorem unchanged_heard_iff {frame : Frame} :
    Unchanged s (s.heard frame) ↔ s.flag frame.inst.viVr.vrId = true :=
  unchanged_setFlag_iff

/-- Nothing more is done than to set the flag. -/
theorem still_heard_iff {frame : Frame} :
    (∃ s', (.ok (s.heard frame) : Result Daemon) = .ok s' ∧ Unchanged s s') ↔
      s.flag frame.inst.viVr.vrId = true := by
  rw [← unchanged_heard_iff]
  simp

/-! ## The branches -/

theorem undisturbed_stop {af : Int} {ifname : Ifname} {frame : Frame}
    (accepted : frame.accepted = true) (stop : frame.inst.viVa.pri = 0) :
    (∃ s', s.processVrrpdSock w af ifname frame = .ok s' ∧ Unchanged s s') ↔
      s.flag frame.inst.viVr.vrId = false ∧
        ∃ first, s.next instRuntimeList = some first ∧ (s.ds first).state ≠ .back := by
  rw [processVrrpdSock_stop accepted stop]
  cases s.next instRuntimeList with
  | none => simp
  | some first =>
      simp only [Option.some.injEq, exists_eq_left']
      by_cases backup : (s.ds first).state = .back
      · simp only [backup, reduceIte, ne_eq, not_true_eq_false, and_false, iff_false]
        rintro ⟨s', returns, unchanged⟩
        have promoted := unchanged.state first
        rw [ds_of_core (vrrpStateB2m_core returns), state_promote_self, backup] at promoted
        cases promoted
      · simp only [backup, reduceIte, ne_eq, not_false_eq_true, and_true, Except.ok.injEq,
          exists_eq_left']
        exact unchanged_cleared_iff

/-- A regular advertisement at the instance that it selects. -/
theorem undisturbed_selected {frame : Frame} {v : DsPtr}
    (parent : (s.vrs (s.ds v).vr).parent = v) (given : frame.inst.viVr.vrId ≠ 0)
    (regular : frame.inst.viVa.pri ≠ 0) :
    (∃ s', (s.heard frame).vrrpProcessIncomingAdv w v frame.inst = .ok s' ∧ Unchanged s s') ↔
      s.flag frame.inst.viVr.vrId = true ∧ s.Ignores frame.inst.viVa.pri v := by
  have heardParent : ((s.heard frame).vrs ((s.heard frame).ds v).vr).parent = v := parent
  have kept : ((s.heard frame).ds v).state = (s.ds v).state := rfl
  have mode : ((s.heard frame).vr v).attr.preeMode = (s.vr v).attr.preeMode := rfl
  have pri : (s.heard frame).vrrpPri v = s.vrrpPri v := rfl
  have still := @still_heard_iff s frame
  rw [vrrpProcessIncomingAdv_regular heardParent regular, Ignores, kept]
  cases state : (s.ds v).state with
  | none | init => simpa using still
  | back =>
      by_cases listens : (s.vr v).attr.preeMode = 0 ∨ frame.inst.viVa.pri ≥ s.vrrpPri v
      · have attends : ¬ ((s.vr v).attr.preeMode ≠ 0 ∧ frame.inst.viVa.pri < s.vrrpPri v) := by
          rintro ⟨preempts, greater⟩
          exact listens.elim preempts (UInt8.not_le.mpr greater)
        simp only [mode, pri, listens, reduceIte, forall_const, attends, false_and, and_false,
          iff_false]
        rintro ⟨s', returns, unchanged⟩
        exact rearm_q_ne returns unchanged.q
      · have ignores : (s.vr v).attr.preeMode ≠ 0 ∧ frame.inst.viVa.pri < s.vrrpPri v := by
          rw [not_or] at listens
          exact ⟨listens.1, UInt8.not_le.mp listens.2⟩
        have quiet : ¬ (((s.heard frame).vr v).attr.preeMode = 0 ∨
            frame.inst.viVa.pri ≥ (s.heard frame).vrrpPri v) := listens
        simpa [if_neg quiet, ignores] using still
  | mast =>
      by_cases yields : s.vrrpPri v < frame.inst.viVa.pri
      · have up : (s.heard frame).anyMasterUp ≠ 0 :=
          anyMasterUp_ne_zero given (Function.update_self ..)
        have greater : ¬ frame.inst.viVa.pri ≤ s.vrrpPri v := UInt8.not_le.mpr yields
        simp only [pri, yields, reduceIte, forall_const, greater, and_false, iff_false]
        rintro ⟨s', returns, unchanged⟩
        have core := vrrpStateM2b_core returns
        rw [if_neg up] at core
        have left := unchanged.state v
        rw [ds_of_core core, state_leave_self, state] at left
        cases left
      · have ignores : frame.inst.viVa.pri ≤ s.vrrpPri v := UInt8.not_lt.mp yields
        simpa [pri, yields, ignores] using still

theorem undisturbed_regular {af : Int} {ifname : Ifname} {frame : Frame} (linked : s.Linked nodes)
    (accepted : frame.accepted = true) (regular : frame.inst.viVa.pri ≠ 0) :
    (∃ s', s.processVrrpdSock w af ifname frame = .ok s' ∧ Unchanged s s') ↔
      s.flag frame.inst.viVr.vrId = true ∧
        (frame.inst.viVr.vrId ≠ 0 → ∀ v,
          s.vrrpSearchInst ⟨frame.inst.viVr.vrId, some ifname, af⟩ = .ok (some v) →
            s.Ignores frame.inst.viVa.pri v) := by
  have heard : (s.heard frame).shape = s.shape := rfl
  have searched := linked.search_congr heard ⟨frame.inst.viVr.vrId, some ifname, af⟩
  have still := @still_heard_iff s frame
  rw [processVrrpdSock_regular accepted regular, searched, linked.search, ok_bind]
  cases selected : s.select ⟨frame.inst.viVr.vrId, some ifname, af⟩ nodes with
  | none => simpa using still
  | some v =>
      by_cases given : frame.inst.viVr.vrId = 0
      · simpa [given] using still
      · have member := select_mem selected
        simpa [given] using undisturbed_selected (linked.parent v member) given regular

/-! ## The law -/

/-- **When malformed frames have no effect.** In every reachable state and for
every datagram: if it is malformed, handling it returns and leaves the list, the
states, the timer queue and the flags as they were, if and only if the frame
found in the buffer is `Harmless`. -/
theorem malformed_undisturbed_iff (w : World) (s : Daemon) (reachable : Reachable w s) (af : Int)
    (ifname : Ifname) (datagram : List UInt8) :
    (Malformed datagram → s.Undisturbed w af ifname datagram) ↔
      (Malformed datagram → s.Harmless af ifname (.load (vrrpRecvAdv4 datagram))) := by
  refine imp_congr_right fun _ => ?_
  obtain ⟨nodes, linked⟩ := reachable.linked
  unfold Undisturbed
  generalize read : Frame.load (vrrpRecvAdv4 datagram) = frame
  unfold Harmless
  cases accepted : frame.accepted with
  | false =>
      have bytes : s.processVrrpdSockBytes w af ifname datagram =
          s.processVrrpdSock w af ifname frame :=
        processVrrpdSockBytes_eq read fun impossible =>
          absurd (accepted.symm.trans impossible) Bool.false_ne_true
      rw [bytes, processVrrpdSock_rejected accepted]
      simpa using Unchanged.refl s
  | true =>
      simp only [forall_const]
      by_cases stop : frame.inst.viVa.pri = 0
      · rw [if_pos stop, processVrrpdSockBytes_eq read fun _ regular => absurd stop regular]
        exact undisturbed_stop accepted stop
      · rw [if_neg stop]
        by_cases terminated : frame.inst.viVr.vrIfname.bytes.length < lifnamsiz
        · rw [processVrrpdSockBytes_eq read fun _ _ => terminated]
          simp only [terminated, true_and]
          exact undisturbed_regular linked accepted stop
        · rw [processVrrpdSockBytes_overflow read accepted stop terminated]
          simp [terminated]

end Daemon

/-- An Ethernet header and the start of an IP header that is accepted. -/
def headerOnly : List UInt8 :=
  List.replicate 14 0 ++ [0x45, 0, 0, 20, 0, 0, 0, 0, 255, 112]

namespace Daemon

/-- A frame without a payload, while the only instance is in `INIT`. -/
theorem malformed_undisturbed_idle :
    ∃ s, Reachable .plain s ∧ s.Undisturbed .plain afInet .eth0 headerOnly := by
  have ran : passes (fun s => s.next instRuntimeList == some 1 && (s.ds 1).state == .init &&
      s.flag 0 == false) (exec (step .plain) [.create 7 100] initial) = true := by decide +kernel
  obtain ⟨s, returns, tested⟩ := exists_of_passes ran
  simp only [Bool.and_eq_true, beq_iff_eq] at tested
  obtain ⟨⟨first, idle⟩, clear⟩ := tested
  have reachable : Reachable .plain s := ⟨_, run_of_exec returns⟩
  refine ⟨s, reachable, (malformed_undisturbed_iff .plain s reachable afInet .eth0 headerOnly).mpr
    (fun _ _ => ?_) (by decide +kernel)⟩
  refine (if_pos (by decide +kernel)).mpr ⟨?_, 1, first, ?_⟩
  · exact clear
  · rw [idle]
    exact nofun

/-- **A frame without a payload is taken for an advertisement of priority 0.**
With no instance, it makes the daemon read a null pointer; with a backup, it
promotes it. -/
theorem malformed_promotes :
    Malformed headerOnly ∧ ¬ initial.Undisturbed .plain afInet .eth0 headerOnly ∧
    ∃ s, Run (step .plain) unguarded initial [.create 7 100, .hear 9 100, .startup 7] s ∧
      (s.ds 1).state = .back ∧
      (∃ s', s.processVrrpdSockBytes .plain afInet .eth0 headerOnly = .ok s' ∧
        (s'.ds 1).state = .mast) ∧
      ¬ s.Undisturbed .plain afInet .eth0 headerOnly := by
  have fails : (initial.processVrrpdSockBytes .plain afInet .eth0 headerOnly).isOk = false := by
    decide +kernel
  refine ⟨by decide +kernel, ?_, ?_⟩
  · rintro ⟨s', returns, -⟩
    rw [returns] at fails
    cases fails
  have ran : passes (fun s => (s.ds 1).state == .back &&
      passes (fun s' => (s'.ds 1).state == .mast)
        (s.processVrrpdSockBytes .plain afInet .eth0 headerOnly))
      (exec (step .plain) [.create 7 100, .hear 9 100, .startup 7] initial) = true := by
    decide +kernel
  obtain ⟨s, returns, tested⟩ := exists_of_passes ran
  simp only [Bool.and_eq_true, beq_iff_eq] at tested
  obtain ⟨backup, answered⟩ := tested
  obtain ⟨s', handled, master⟩ := exists_of_passes answered
  simp only [beq_iff_eq] at master
  refine ⟨s, run_of_exec returns, backup, ⟨s', handled, master⟩, ?_⟩
  rintro ⟨t, same, unchanged⟩
  rw [handled] at same
  cases same
  have kept := unchanged.state 1
  rw [master, backup] at kept
  cases kept

end Daemon

end VrrpDaemon
