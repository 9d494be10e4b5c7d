import VrrpDaemon.Model.Wire
import VrrpDaemon.Behaviour.Events

/-!
# An advertisement is received as it was sent

`vrrp_build_pkt` writes three headers with a priority override, and
`vrrp_adv_check` reads them back at fixed offsets. Every receiver accepts the
regular advertisement of an instance whose priority is not 0, finds the
instance's data in it, and sets the flag of its VRID
(`vrrpAdvCheckBytes_pktBytes`).
-/

set_option autoImplicit false

namespace VrrpDaemon

open Machine

namespace Daemon

/-- The record has the data of the instance, but for its addresses. -/
structure Describes (inst : VrrpInst) (s : Daemon) (p : DsPtr) : Prop where
  attr : inst.viVa = (s.vr p).attr
  vrId : inst.viVr.vrId = s.vrrpId p
  vrAf : inst.viVr.vrAf = s.vrrpAf p
  in4 : inst.viVr.in4 = (s.vr p).vr.in4
  vrIfname : inst.viVr.vrIfname = s.vrrpIfname p
  viState : inst.viState = (s.ds p).state.code
  viActive : inst.viActive = (s.ds p).active

/-- Only the flag of the VRID may have changed, and it is set. -/
structure FlagRaised (vid : UInt8) (s s' : Daemon) : Prop where
  flag : s'.flag = Function.update s.flag vid true
  next : s'.next = s.next
  prev : s'.prev = s.prev
  ds : s'.ds = s.ds
  vrs : s'.vrs = s.vrs
  q : s'.q = s.q

variable {w : World} {s : Daemon} {p : DsPtr}

theorem describes_createVrrpHeader {priority : Int} (regular : priority ≠ 0) :
    Describes (s.createVrrpHeader p priority) s p where
  attr := by
    rw [createVrrpHeader, if_neg regular]
    rfl
  vrId := rfl
  vrAf := rfl
  in4 := rfl
  vrIfname := rfl
  viState := rfl
  viActive := rfl

theorem flagRaised_heard (receiver : Daemon) (frame : Frame) :
    FlagRaised frame.inst.viVr.vrId receiver (receiver.heard frame) :=
  ⟨rfl, rfl, rfl, rfl, rfl, rfl⟩

/-- A record with a terminated name is handed on from the bytes. -/
theorem vrrpAdvCheckBytes_regular {b : Buffer} {receiver : Daemon}
    (accepted : (Frame.load b).accepted = true) (regular : (Frame.load b).inst.viVa.pri ≠ 0)
    (terminated : (Frame.load b).inst.viVr.vrIfname.bytes.length < lifnamsiz) :
    receiver.vrrpAdvCheckBytes w b =
      .ok (some (Frame.load b).inst, receiver.heard (Frame.load b)) := by
  simp only [vrrpAdvCheckBytes, vrrpAdvCheck_regular accepted regular, ok_bind, Ifname.strcpy,
    terminated, reduceIte, pure_eq_ok]

/-- **Advertisements are received as they were sent.** Every receiver accepts
the regular advertisement of an instance with a priority other than 0 and a name
that a NUL ends, finds the instance's data in it, and changes nothing but the
flag of its VRID. What the sender's heap and the receiver's buffer held before
does not matter. -/
theorem vrrpAdvCheckBytes_pktBytes (w : World) (s : Daemon) (p : DsPtr) (heap residue : Buffer)
    (receiver : Daemon) (given : s.vrrpPri p ≠ 0)
    (terminated : (s.vrrpIfname p).bytes.length < lifnamsiz)
    (fits : (s.createVrrpHeader p 1).Fits) :
    ∃ received receiver',
      receiver.vrrpAdvCheckBytes w (.holding (s.pktBytes p 1 heap) residue) =
        .ok (some received, receiver') ∧
      Describes received s p ∧ FlagRaised (s.vrrpId p) receiver receiver' := by
  have frame : Frame.load (.holding (s.pktBytes p 1 heap) residue) = s.vrrpBuildPkt p 1 :=
    Frame.load_pktBytes fits terminated heap residue
  refine ⟨(s.vrrpBuildPkt p 1).inst, receiver.heard (s.vrrpBuildPkt p 1), ?_,
    describes_createVrrpHeader (by decide), flagRaised_heard receiver (s.vrrpBuildPkt p 1)⟩
  rw [← frame]
  refine vrrpAdvCheckBytes_regular ?_ ?_ ?_
  · rw [frame]
    rfl
  · rw [frame]
    exact given
  · rw [frame]
    exact terminated

/-- An instance on `eth0` with priority 100, in a heap and a buffer of zeros. -/
theorem vrrpAdvCheckBytes_pktBytes_sample :
    ∃ received receiver',
      initial.vrrpAdvCheckBytes .plain (.holding
        (({ initial with vrs := fun _ => ⟨(VrrpInst.sample 7 100).viVa,
          (VrrpInst.sample 7 100).viVr, 1⟩ } : Daemon).pktBytes 1 1 fun _ => 0) fun _ => 0) =
        .ok (some received, receiver') ∧
      received.viVa = (VrrpInst.sample 7 100).viVa ∧ receiver'.flag 7 = true := by
  obtain ⟨received, receiver', checked, describes, raised⟩ :=
    vrrpAdvCheckBytes_pktBytes .plain
      { initial with vrs := fun _ => ⟨(VrrpInst.sample 7 100).viVa, (VrrpInst.sample 7 100).viVr, 1⟩ }
      1 (fun _ => 0) (fun _ => 0) initial (by decide) (by decide)
      ⟨⟨by decide, by decide⟩, ⟨by decide, by decide⟩, ⟨by decide, by decide⟩,
        ⟨by decide, by decide⟩, ⟨by decide, by decide⟩⟩
  refine ⟨received, receiver', checked, describes.attr, ?_⟩
  rw [raised.flag]
  rfl

end Daemon

end VrrpDaemon
