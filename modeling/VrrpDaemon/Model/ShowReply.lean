import VrrpDaemon.Model.AdmSocket

/-!
# The reply to a show request

A successful `CMD_GET_INSTX` is answered with the status, the records of the instance and
of its VR as they lie in memory, the VR's addresses, and the cursor for the next request.
`build_vrrp_ret`, `build_vrrp_ret_get_instx` and `build_vrrp_vr_buf` of `vrrpd.c` write one
behind the other, and return how many bytes they wrote.

How much of the buffer is sent is not that number: `process_adm_sock` passes
`sizeof(p - buf)`, the size of a pointer difference. So a reply is the start of the buffer,
which is the status alone (`Daemon.processAdmSock_eq`).
-/

set_option autoImplicit false

namespace VrrpDaemon

open Machine

/-- `sizeof(vrrpd_ds_t)`. -/
def sizeofVrrpdDs : Nat := 56

/-- `sizeof(vrrpd_vr_ds_t)`. -/
def sizeofVrrpdVrDs : Nat := 160

/-- `sizeof(p - buf)`, for two pointers. -/
def sizeofPtrdiff : Nat := 8

/-- What memory holds of the records besides the fields that are modelled: the pointers,
the times, what was retrieved from advertisements, and the gaps. -/
structure RecordMemory where
  ds : DsPtr → Buffer
  vr : VrPtr → Buffer

/-! ## Records as they lie in memory -/

/-- A `vrrpd_ds_t`. -/
def VrrpdDs.store (record : VrrpdDs) (b : Buffer) : Buffer :=
  let b := Cell.uint.store 8 record.active b
  let b := Cell.byte.store 12 record.state.code b
  Cell.int.store 16 record.pid b

/-- A `vrrpd_vr_ds_t`. -/
def VrrpdVrDs.store (record : VrrpdVrDs) (timeout : UInt32) (b : Buffer) : Buffer :=
  let b := Cell.byte.store 0 record.attr.pri b
  let b := Cell.int.store 4 record.attr.delay b
  let b := Cell.uint.store 8 record.attr.preeMode b
  let b := Cell.uint.store 12 record.attr.acceptMode b
  let b := Cell.byte.store 16 record.vr.vrId b
  let b := Cell.int.store 20 record.vr.vrAf b
  let b := Cell.word.store 24 record.vr.in4 b
  let b := Cell.byte.store 28 record.vr.vrIpnum b
  let b := b.put 40 record.vr.vrIfname.field
  Cell.word.store 80 timeout b

namespace Daemon

/-- The bytes of an instance's record. -/
def dsBytes (m : RecordMemory) (s : Daemon) (v : DsPtr) : List UInt8 :=
  ((s.ds v).store (m.ds v)).slice 0 sizeofVrrpdDs

/-- The bytes of a VR's record. -/
def vrBytes (m : RecordMemory) (s : Daemon) (p : VrPtr) : List UInt8 :=
  ((s.vrs p).store (s.q.timeout p) (m.vr p)).slice 0 sizeofVrrpdVrDs

/-- The addresses that `vr_ip` of a VR designates, as many as `vr_ipnum` says. -/
def vrAddresses (s : Daemon) (p : VrPtr) : List UInt32 :=
  (s.vrs p).vr.vrIp.take (s.vrs p).vr.vrIpnum.toNat

/-! ## Building the reply -/

/-- `build_vrrp_vr_buf`, for a list of VRs in which none has a `next`. -/
def buildVrrpVrBuf (m : RecordMemory) (s : Daemon) : Option VrPtr → Nat → Result (List UInt8)
  | _, 0 => .ok []
  | curr, num + 1 => do
      let p ← deref curr
      let later ← buildVrrpVrBuf m s none num
      return s.vrBytes m p ++ (s.vrAddresses p).flatMap Cell.word.encode ++ later

/-- `build_vrrp_ret_get_instx`. -/
def buildVrrpRetGetInstx (m : RecordMemory) (s : Daemon) (v : DsPtr) (next : Target) :
    Result (List UInt8) := do
  let vrBuf ← s.buildVrrpVrBuf m (some (s.ds v).vr) 1
  return s.dsBytes m v ++ (vrBuf ++ next.bytes)

/-- The case `CMD_GET_INSTX` of `process_adm_sock`, with the local variables behind it: the
instance, and the cursor that took the place of the target. -/
def getInstxLocals (target : Target) (s : Daemon) : Result ((Int × Option DsPtr) × Target) := do
  let ((ret, implp), cursor) ← s.vrrpGetInstx ⟨target.vid, some target.intf, target.af⟩
  match cursor.ifname with
  | none => return ((ret, implp), ⟨cursor.vid, target.intf, cursor.af⟩)
  | some name =>
      let intf ← name.strcpy
      return ((ret, implp), ⟨cursor.vid, intf, cursor.af⟩)

/-- What `process_adm_sock` builds in its buffer behind the case `CMD_GET_INSTX`. -/
def instxReply (m : RecordMemory) (ret : Int) (implp : Option DsPtr) (next : Target) (s : Daemon) :
    Result (List UInt8) :=
  if ret = VrrpRet.success.code then do
    let v ← deref implp
    let instx ← s.buildVrrpRetGetInstx m v next
    return buildVrrpRet ret ++ instx
  else .ok (buildVrrpRet ret)

/-- What `process_adm_sock` builds in its buffer: the status, and behind it the instance of a
successful show request. -/
def admReply (m : RecordMemory) (w : World) (buf : Buffer) (s : Daemon) :
    Result (List UInt8 × Daemon) :=
  match VrrpCmd.ofCode (getVrrpCmd buf) with
  | some .getInstx => do
      let (target, _) ← scanTarget.run buf sizeofVrrpCmd
      let ((ret, implp), next) ← s.getInstxLocals target
      let reply ← s.instxReply m ret implp next
      return (reply, s)
  | _ => do
      let (ret, s) ← s.admCommand w buf
      return (buildVrrpRet ret, s)

/-- What `sendto` sends of it. -/
def sentReply (reply : List UInt8) : List UInt8 := reply.take sizeofPtrdiff

end Daemon

end VrrpDaemon
