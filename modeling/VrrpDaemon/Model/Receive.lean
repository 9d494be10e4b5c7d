import VrrpDaemon.Model.Commands

/-!
# Received advertisements

`process_vrrpd_sock`, `vrrp_adv_check` and `vrrp_process_incoming_adv` of
`vrrpd.c`, on the fields of a frame that they read. A frame with priority 0 is
dealt with inside `vrrp_adv_check`, at the first instance of the list; every
other accepted frame goes through a search by its VRID and by the interface and
family its socket was registered with.
-/

set_option autoImplicit false

namespace VrrpDaemon

open Machine

/-- The header tests of `vrrp_adv_check`. -/
def Frame.accepted (frame : Frame) : Bool :=
  frame.version = 4 && frame.protocol = ipprotoVrrp && frame.ttl = vrrpIpTtl

/-- A frame, read from a socket that was registered with the interface and the family. -/
structure Receipt where
  af : Int
  ifname : Ifname
  frame : Frame
  deriving DecidableEq

namespace Daemon

/-- `vrrp_adv_check`: the record handed on, if there is one. -/
def vrrpAdvCheck (w : World) (frame : Frame) (s : Daemon) :
    Result (Option VrrpInst × Daemon) := do
  if !frame.accepted then return (none, s)
  let vrId := frame.inst.viVr.vrId
  let s := s.setFlag vrId true
  if frame.inst.viVa.pri = 0 then
    let found := s.next instRuntimeList
    let s := s.setFlag vrId false
    let first ← deref found
    if (s.ds first).state = .back then
      let s ← s.vrrpStateB2m w first
      return (none, s)
    else return (none, s)
  else return (some frame.inst, s)

/-- The timeout the `BACK` branch of `vrrp_process_incoming_adv` gives a VR. -/
def skewTimeout (s : Daemon) (vri : VrPtr) (received : UInt8) : UInt32 :=
  let own := (s.vrs vri).attr
  let skew := toTimeout (vrrpSec2usec (Int.tdiv (256 - own.pri.toNat) 256))
  if received ≠ 0 then skew + toTimeout (3 * vrrpSec2usec own.delay) else skew

/-- The locked statements of both branches that rearm the timer of a VR. -/
def rearm (w : World) (vri : VrPtr) (timeout : UInt32) (s : Daemon) : Result Daemon := do
  let s := s.onQueue (·.lock)
  let s ← s.tryQueue (·.vrrpRmqueueImpl vri)
  let s := s.onQueue (·.setTimeout vri timeout)
  let s ← s.tryQueue (·.vrrpEnqueueImpl w s.vrTop vri)
  .ok (s.onQueue (·.unlock))

/-- `vrrp_process_incoming_adv`. -/
def vrrpProcessIncomingAdv (w : World) (curr : DsPtr) (received : VrrpInst) (s : Daemon) :
    Result Daemon :=
  let vri := (s.ds curr).vr
  let parent := (s.vrs vri).parent
  match (s.ds parent).state with
  | .back =>
      if (s.vrs vri).attr.preeMode = 0 ∨ received.viVa.pri ≥ (s.vrs vri).attr.pri then
        s.rearm w vri (s.skewTimeout vri received.viVa.pri)
      else .ok s
  | .mast =>
      if received.viVa.pri = 0 then
        s.rearm w vri (toTimeout (vrrpSec2usec (s.vrs vri).attr.delay))
      else if received.viVa.pri > (s.vrs vri).attr.pri then s.vrrpStateM2b w parent
      else .ok s
  | .none | .init => .ok s

/-- `process_vrrpd_sock`, for a frame read from a socket that was registered
with the interface and the family. -/
def processVrrpdSock (w : World) (af : Int) (ifname : Ifname) (frame : Frame) (s : Daemon) :
    Result Daemon := do
  let (received, s) ← s.vrrpAdvCheck w frame
  match received with
  | none => return s
  | some inst =>
      let vidRcv := inst.viVr.vrId
      let found ← s.vrrpSearchInst ⟨vidRcv, some ifname, af⟩
      match found with
      | none => return s
      | some curr => if vidRcv = 0 then return s else s.vrrpProcessIncomingAdv w curr inst

/-- `process_vrrpd_sock` for a receipt. -/
def receive (w : World) (r : Receipt) (s : Daemon) : Result Daemon :=
  s.processVrrpdSock w r.af r.ifname r.frame

end Daemon

end VrrpDaemon
