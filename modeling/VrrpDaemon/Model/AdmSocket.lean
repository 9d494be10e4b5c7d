import VrrpDaemon.Model.CommandCodec
import VrrpDaemon.Model.System

/-!
# The administration socket

`process_adm_sock` of `vrrpd.c`: a datagram is received into a buffer that is not
cleared, the command in it is parsed and carried out, and its status is sent
back. The length of the datagram is compared with that of a command, and not
looked at again.

`inputEnd` is the end of the bytes that are taken as input: those the parser
moves over, and the addresses of a create once `vrrp_create_vr` copies them.

The administrator's side are `issue_vrrp_cmd` and `vrrp_all_cmd` of `libvrrp.c`.
The length of a request is an `int` that is read as a `size_t`, and the reply is
received over the request, in the same buffer. The name of the status is printed, from a
table that has nine.
-/

set_option autoImplicit false

namespace VrrpDaemon

open Machine

/-- The size of the buffer of `process_adm_sock`. -/
def admBufSize : Nat := 65535 + 1

/-- The key of a target: an empty name is passed on as a null pointer. -/
def Target.key (target : Target) : Key where
  vid := target.vid
  ifname := if target.intf.bytes = [] then none else some target.intf
  af := target.af

/-- What is received of a datagram. -/
def admReceived (datagram : List UInt8) : List UInt8 := datagram.take admBufSize

/-- The buffer with a datagram in it, over what it held before. -/
def admBuffer (datagram : List UInt8) (residue : Buffer) : Buffer :=
  .holding (admReceived datagram) residue

/-- `build_vrrp_ret`. -/
def buildVrrpRet (rval : Int) : List UInt8 :=
  Cell.uint.encode VrrpCmd.returnVal.code ++ Cell.uint.encode rval

namespace Daemon

/-- The case `CMD_GET_INSTX` of `process_adm_sock`. The key of the next instance
is stored in the local variables, its name with `strcpy`. -/
def getInstxCommand (target : Target) (s : Daemon) : Result (Int × Daemon) := do
  let ((ret, _), cursor) ← s.vrrpGetInstx ⟨target.vid, some target.intf, target.af⟩
  match cursor.ifname with
  | none => return (ret, s)
  | some name =>
      let _ ← name.strcpy
      return (ret, s)

/-- The `switch` of `process_adm_sock`, with the value that `ret` has behind it. -/
def admCommand (w : World) (buf : Buffer) (s : Daemon) : Result (Int × Daemon) :=
  match VrrpCmd.ofCode (getVrrpCmd buf) with
  | some .createInst => do
      let (vi, vrIp) ← scanInst.run buf sizeofVrrpCmd
      let (addresses, _) ← (scanVrIp vi.viVr.vrIpnum).run buf vrIp
      s.createCommand w (vi.withVrIp addresses)
  | some .removeInst => do
      let (target, _) ← scanTarget.run buf sizeofVrrpCmd
      s.vrrpDestroyInst w target.key
  | some .startupInst => do
      let (target, _) ← scanTarget.run buf sizeofVrrpCmd
      s.vrrpStartupInst w target.key
  | some .shutdownInst => do
      let (target, _) ← scanTarget.run buf sizeofVrrpCmd
      s.vrrpShutdownInst w target.key
  | some .modifyInst => do
      let ((target, changes), _) ← (parseVrrpCmd .modifyInst).run buf sizeofVrrpCmd
      s.vrrpSetInstProp w target.key changes.pri changes.delay changes.preeMode changes.acptMode
  | some .getInstx => do
      let (target, _) ← scanTarget.run buf sizeofVrrpCmd
      s.getInstxCommand target
  | some .returnVal | some .showAll | none => .ok (VrrpRet.evrip.code, s)

/-- `process_adm_sock` up to its `sendto`: the reply, unless the datagram is too short for a
command. What is displayed behind it changes nothing, but may end the daemon (`dumpVr`). -/
def processAdmSock (w : World) (datagram : List UInt8) (residue : Buffer) (s : Daemon) :
    Result (Option (List UInt8) × Daemon) :=
  if (admReceived datagram).length < sizeofVrrpCmd then .ok (none, s)
  else do
    let (ret, s) ← s.admCommand w (admBuffer datagram residue)
    return (some (buildVrrpRet ret), s)

/-! ## Requests -/

/-- What a buffer asks for: a command that changes the daemon, the enumeration of
its instances, or nothing that it knows. -/
inductive Request where
  | command (command : Command)
  | getInstx (target : Target)
  | other

/-- The request in a buffer, with its arguments parsed. -/
def parseRequest (buf : Buffer) : Result Request :=
  match VrrpCmd.ofCode (getVrrpCmd buf) with
  | some .createInst => do
      let (vi, vrIp) ← scanInst.run buf sizeofVrrpCmd
      let (addresses, _) ← (scanVrIp vi.viVr.vrIpnum).run buf vrIp
      return .command (.create (vi.withVrIp addresses))
  | some .removeInst => do
      let (target, _) ← scanTarget.run buf sizeofVrrpCmd
      return .command (.remove target.key)
  | some .startupInst => do
      let (target, _) ← scanTarget.run buf sizeofVrrpCmd
      return .command (.startup target.key)
  | some .shutdownInst => do
      let (target, _) ← scanTarget.run buf sizeofVrrpCmd
      return .command (.shutdown target.key)
  | some .modifyInst => do
      let ((target, changes), _) ← (parseVrrpCmd .modifyInst).run buf sizeofVrrpCmd
      return .command (.modify target.key changes.pri changes.delay changes.preeMode
        changes.acptMode)
  | some .getInstx => do
      let (target, _) ← scanTarget.run buf sizeofVrrpCmd
      return .getInstx target
  | some .returnVal | some .showAll | none => .ok .other

/-- What a request is answered with. -/
def respond (w : World) (request : Request) (s : Daemon) : Result (Int × Daemon) :=
  match request with
  | .command command => s.processCommand w command
  | .getInstx target => s.getInstxCommand target
  | .other => .ok (VrrpRet.evrip.code, s)

/-- **A datagram is a request that is carried out.** -/
theorem admCommand_eq (w : World) (buf : Buffer) (s : Daemon) :
    s.admCommand w buf = (do
      let request ← parseRequest buf
      s.respond w request) := by
  unfold admCommand parseRequest
  cases VrrpCmd.ofCode (getVrrpCmd buf) with
  | none => rfl
  | some cmd =>
      cases cmd with
      | returnVal | showAll => rfl
      | createInst =>
          obtain ⟨addresses, run⟩ := scanVrIp_returns
            (VrrpInst.load buf sizeofVrrpCmd).viVr.vrIpnum buf (sizeofVrrpCmd + sizeofVrrpInst)
          simp only [scanInst_run, ok_bind, run]
          rfl
      | removeInst | startupInst | shutdownInst | getInstx =>
          cases scanTarget.run buf sizeofVrrpCmd <;> rfl
      | modifyInst => cases (parseVrrpCmd .modifyInst).run buf sizeofVrrpCmd <;> rfl

/-! ## The bytes that are taken as input -/

/-- `vrrp_create_inst` gets as far as the copy of the addresses. -/
def copiesVrIp (w : World) (inst : VrrpInst) (s : Daemon) : Bool :=
  inst.viVa.delay > 0 && inst.viVr.vrIpnum > 0 &&
    (match s.vrrpCheckConflict inst.key with
      | .ok conflict => conflict = VrrpRet.success.code
      | .error _ => false) &&
    (s.allocInst w inst).1.isSome

/-- The end of the bytes of the buffer that are taken as input. -/
def inputEnd (w : World) (buf : Buffer) (s : Daemon) : Result Nat :=
  match VrrpCmd.ofCode (getVrrpCmd buf) with
  | some .createInst => do
      let (vi, vrIp) ← scanInst.run buf sizeofVrrpCmd
      if s.copiesVrIp w vi then
        let (_, after) ← (scanVrIp vi.viVr.vrIpnum).run buf vrIp
        return after
      else return vrIp
  | some .removeInst | some .startupInst | some .shutdownInst | some .getInstx => do
      let (_, after) ← scanTarget.run buf sizeofVrrpCmd
      return after
  | some .modifyInst => do
      let (_, after) ← (parseVrrpCmd .modifyInst).run buf sizeofVrrpCmd
      return after
  | some .returnVal | some .showAll | none => .ok sizeofVrrpCmd

end Daemon

/-! ## The administrator's side -/

/-- `sizeof(vrrp_ret_t)`. -/
def sizeofVrrpRet : Nat := 4

/-- The number of entries of `vrrp_rets`. -/
def vrrpRetsLength : Nat := 9

/-- What the administrator's side does not decide: the four bytes behind `cmd_len`, whether
what is found as entry `i` of `vrrp_rets`, where it has none, points to a text, and the value
of a function that ends without a `return`. -/
structure Client where
  behindLen : UInt32
  readable : Int → Bool
  undefined : Int

/-- `sendto` sends a request: `plen` points to `cmd_len` and to what lies behind it, which is
the upper half of the length. -/
def Client.sends (c : Client) : Bool := c.behindLen = 0

/-- `vrrp_rets[i]` is printed without a fault. -/
def Client.prints (c : Client) (i : Int) : Bool :=
  (0 ≤ i && i < vrrpRetsLength) || c.readable i

/-- Where `issue_vrrp_cmd` looks for the status: it adds `sizeof(vrrp_cmd_t)` to a
pointer to `vrrp_ret_t`, which counts words. -/
def statusOffset : Nat := sizeofVrrpCmd * sizeofVrrpRet

/-- `issue_vrrp_cmd`, with the reply, if the request was sent: the status it decodes, if it
does, and what it returns. The name of that status is printed. -/
def issueVrrpCmd (c : Client) (request : Buffer) (reply : Option (List UInt8)) :
    Result (Option Int × Int) :=
  match reply with
  -- `sendto` failed
  | none => .ok (none, -1)
  | some reply =>
      let buf := Buffer.holding reply request
      if getVrrpCmd buf ≠ VrrpCmd.returnVal.code then .ok (none, -1)
      else if reply.length = sizeofVrrpCmd + sizeofVrrpRet then
        let ret := Cell.uint.load buf statusOffset
        if c.prints ret then .ok (some ret, reply.length) else .error .wildPointer
      else .ok (none, reply.length)

/-- The buffer of `vrrp_all_cmd` with a request in it. -/
def requestBuffer (heap residue : Buffer) (cmd : VrrpCmd) (args : cmd.Args) : Buffer :=
  .holding (buildVrrpCmd heap cmd args) residue

/-- `vrrp_all_cmd`, which returns nothing definite when `issue_vrrp_cmd` fails. -/
def vrrpAllCmd (c : Client) (request : Buffer) (reply : Option (List UInt8)) : Result Int := do
  let (_, ret) ← issueVrrpCmd c request reply
  return if ret ≠ -1 then VrrpRet.success.code else c.undefined

end VrrpDaemon
