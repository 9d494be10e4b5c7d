import VrrpDaemon.Model.Search

/-!
# State transitions

The functions of `state.c`, and the advertisement that `vrrp_send_adv` of
`vrrpd.c` builds for them.

The six transitions loop over the VRs of an instance, of which there is one,
and test the results of `vrrp_master` and `vrrp_unmaster`, whose bodies only
return `VRRP_SUCCESS`; the branch for another result is dead. Their own results
are `VRRP_SUCCESS`, except that `vrrp_state_i2m` returns a local that it never
assigns. The status of `vrrp_state_execution` and of `vrrp_send_adv` is ignored
by every caller and left out.
-/

set_option autoImplicit false

namespace VrrpDaemon

open Machine

/-- `vrrp_state_trans_t`. -/
inductive VrrpStateTrans where
  | backToMast
  | mastToBack
  | initToMast
  | initToBack
  | mastToInit
  | backToInit
  deriving DecidableEq, Repr

namespace Daemon

/-! ## Sending an advertisement -/

/-- `CreateVRRPHeader`. The pointer `vr_ip` is not copied. -/
def createVrrpHeader (s : Daemon) (p : DsPtr) (priority : Int) : VrrpInst where
  viVa :=
    { pri := if priority = 0 then 0 else s.vrrpPri p
      delay := s.vrrpDelay p
      preeMode := (s.vr p).attr.preeMode
      acceptMode := (s.vr p).attr.acceptMode }
  viVr :=
    { vrId := s.vrrpId p
      vrAf := s.vrrpAf p
      in4 := (s.vr p).vr.in4
      vrIpnum := (s.vr p).vr.vrIpnum
      vrIp := []
      vrIfname := s.vrrpIfname p }
  viState := (s.ds p).state.code
  viActive := (s.ds p).active

/-- `vrrp_build_pkt`, with the fields of the IP header that `CreateIPHeader`
sets and a receiver checks. -/
def vrrpBuildPkt (s : Daemon) (p : DsPtr) (priority : Int) : Frame where
  version := 4
  protocol := ipprotoVrrp
  ttl := vrrpIpTtl
  inst := s.createVrrpHeader p priority

/-- `vrrp_send_adv`. -/
def vrrpSendAdv (p : DsPtr) (priority : Int) (s : Daemon) : Daemon :=
  s.emit (.advert p (s.vrrpBuildPkt p priority))

/-! ## The transitions -/

/-- `any_master_up`: the first VRID in 1..255 whose flag is set, or 0. -/
def anyMasterUp (s : Daemon) : Nat :=
  ((List.range' 1 255).find? fun i => s.flag (UInt8.ofNat i)).getD 0

/-- `kill(v->pid, SIGINT)`. A pid of 0, which an instance has until its first fork, stands for
the process group that the daemon leads; it does not catch the signal. -/
def kill (v : DsPtr) (s : Daemon) : Result Daemon :=
  if (s.ds v).pid = 0 then .error .killed else .ok (s.emit (.sigint v (s.ds v).pid))

/-- `vrrp_state_execution`. -/
def vrrpStateExecution (w : World) (trans : VrrpStateTrans) (v : DsPtr) (s : Daemon) :
    Result Daemon :=
  match trans with
  | .initToMast | .backToMast =>
      let child := w.fork s.forkCalls
      let s := { s with forkCalls := s.forkCalls + 1 }.emit (.fork v child)
      match child with
      | none => .ok s
      | some pid => .ok (s.setPid v pid)
  | .mastToBack | .mastToInit => (s.vrrpSendAdv v 0).kill v
  | .initToBack | .backToInit => .ok s

/-- The advertisement interval of an instance as a timeout. -/
def advTimeout (s : Daemon) (v : DsPtr) : UInt32 :=
  toTimeout (vrrpSec2usec (s.vrrpDelay v))

/-- `vrrp_state_b2m`. -/
def vrrpStateB2m (w : World) (v : DsPtr) (s : Daemon) : Result Daemon := do
  let vri := (s.ds v).vr
  let s ← s.tryQueue (·.vrrpRmqueueImpl vri)
  let s := s.onQueue (·.setTimeout vri (s.advTimeout v))
  let s ← s.tryQueue (·.vrrpEnqueueImpl w s.vrTop vri)
  let s := s.setState v .mast
  let s ← s.vrrpStateExecution w .backToMast v
  .ok (s.onQueue (·.alarm (s.vrrpDelay v)))

/-- `vrrp_state_i2m`, with the value it returns. -/
def vrrpStateI2m (w : World) (v : DsPtr) (s : Daemon) : Result (Int × Daemon) := do
  let vri := (s.ds v).vr
  let s := s.onQueue (·.setTimeout vri (s.advTimeout v))
  let s := s.onQueue (·.lock)
  let s ← s.tryQueue (·.vrrpEnqueueImpl w s.vrTop vri)
  let s := s.onQueue (·.unlock)
  let s := s.setState v .mast
  let s ← s.vrrpStateExecution w .initToMast v
  .ok (w.uninitialised, s)

/-- `vrrp_state_i2b`. -/
def vrrpStateI2b (w : World) (v : DsPtr) (s : Daemon) : Result Daemon := do
  let vri := (s.ds v).vr
  let s := s.onQueue (·.setTimeout vri (s.advTimeout v))
  let s := s.onQueue (·.lock)
  let s ← s.tryQueue (·.vrrpEnqueueImpl w s.vrTop vri)
  let s := s.onQueue (·.unlock)
  let s := s.setState v .back
  let s := s.onQueue (·.sleep (s.vrrpDelay v))
  if s.anyMasterUp = 0 then s.vrrpStateB2m w v else .ok s

/-- `vrrp_state_m2i`. -/
def vrrpStateM2i (w : World) (v : DsPtr) (s : Daemon) : Result Daemon := do
  let vri := (s.ds v).vr
  let s := s.onQueue (·.lock)
  let s ← s.tryQueue (·.vrrpRmqueueImpl vri)
  let s := s.onQueue (·.unlock)
  let s := s.setState v .init
  s.vrrpStateExecution w .mastToInit v

/-- `vrrp_state_b2i`. -/
def vrrpStateB2i (v : DsPtr) (s : Daemon) : Result Daemon := do
  let vri := (s.ds v).vr
  let s := s.onQueue (·.setTimeout vri (s.advTimeout v))
  let s := s.onQueue (·.lock)
  let s ← s.tryQueue (·.vrrpRmqueueImpl vri)
  let s := s.onQueue (·.unlock)
  .ok (s.setState v .init)

/-- `vrrp_state_m2b`. -/
def vrrpStateM2b (w : World) (v : DsPtr) (s : Daemon) : Result Daemon := do
  let vri := (s.ds v).vr
  let s := s.onQueue (·.lock)
  let s ← s.tryQueue (·.vrrpRmqueueImpl vri)
  let s := s.onQueue (·.setTimeout vri (s.advTimeout v))
  let s ← s.tryQueue (·.vrrpEnqueueImpl w s.vrTop vri)
  let s := s.onQueue (·.unlock)
  let s := s.setState v .back
  let s ← s.vrrpStateExecution w .mastToBack v
  let s := s.onQueue (·.sleep (s.vrrpDelay v))
  if s.anyMasterUp = 0 then s.vrrpStateB2m w v else .ok s

end Daemon

end VrrpDaemon
