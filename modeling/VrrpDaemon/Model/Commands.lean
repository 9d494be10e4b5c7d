import VrrpDaemon.Model.Transitions

/-!
# Commands on instances

The functions of `vrrpd_impl.c` behind the commands of the administrator, with
the queue functions that find their VR by key. A command returns a status next
to the new state; `vrrp_check` returns the `EINVAL` of `errno.h`, which is not a
`vrrp_ret_t`.
-/

set_option autoImplicit false

namespace VrrpDaemon

open Machine

namespace Daemon

/-! ## Creating an instance -/

/-- `malloc`, which the world lets succeed or fail. -/
def malloc (w : World) (s : Daemon) : Bool × Daemon :=
  (w.malloc s.mallocCalls, { s with mallocCalls := s.mallocCalls + 1 })

/-- `malloc` and `bzero` of a `vrrpd_ds_t`. -/
def newDs (s : Daemon) : DsPtr × Daemon :=
  (s.dsTop,
    { s with
      dsTop := s.dsTop + 1
      ds := Function.update s.ds s.dsTop blankDs
      next := Function.update s.next s.dsTop none
      prev := Function.update s.prev s.dsTop none })

/-- `malloc` and `bzero` of a `vrrpd_vr_ds_t`. -/
def newVr (s : Daemon) : VrPtr × Daemon :=
  (s.vrTop,
    { s with
      vrTop := s.vrTop + 1
      vrs := Function.update s.vrs s.vrTop blankVr
      q := ((s.q.setTimeout s.vrTop 0).setQnext s.vrTop none).setQprev s.vrTop none })

/-- `vrrp_create_vr`: copies the attributes, the key and the addresses, these to a block of
their own (`Memory.copyVrIp`). -/
def vrrpCreateVr (w : World) (va : VrrpAttr) (vr : VrrpVr) (p : VrPtr) (s : Daemon) :
    Int × Daemon :=
  let s := { s with vrs := Function.update s.vrs p { s.vrs p with attr := va, vr := vr } }
  let (got, s) := s.malloc w
  if !got then
    (VrrpRet.enomem.code,
      { s with vrs := Function.update s.vrs p { s.vrs p with vr := { vr with vrIp := [] } } })
  else
    let copied := { vr with vrIp := vr.vrIp.take vr.vrIpnum.toNat }
    (VrrpRet.success.code,
      { s with vrs := Function.update s.vrs p { s.vrs p with vr := copied } })

/-- The loop of `vrrp_create_inst` that looks for the place of a VRID. -/
def placeLoop (s : Daemon) (vid : UInt8) : Nat → DsPtr → Result DsPtr
  | fuel, curr =>
      if s.vrrpId curr < vid then
        match s.next curr with
        | none => .ok curr
        | some after =>
            match fuel with
            | 0 => .error .diverges
            | fuel + 1 => placeLoop s vid fuel after
      else .ok curr

/-- The end of `vrrp_create_inst`, which links the new instance. -/
def linkInst (new : DsPtr) (s : Daemon) : Result Daemon := do
  match s.next instRuntimeList with
  | none =>
      .ok
        { s with
          next := Function.update (Function.update s.next instRuntimeList (some new)) new none
          prev := Function.update s.prev new (some instRuntimeList) }
  | some first =>
      let curr ← s.placeLoop (s.vrrpId new) s.dsTop first
      if s.vrrpId curr < s.vrrpId new then
        .ok
          { s with
            next := Function.update (Function.update s.next curr (some new)) new none
            prev := Function.update s.prev new (some curr) }
      else do
        let s := { s with prev := Function.update s.prev new (s.prev curr) }
        let s := { s with next := Function.update s.next new (some curr) }
        let before ← deref (s.prev curr)
        let s := { s with next := Function.update s.next before (some new) }
        .ok { s with prev := Function.update s.prev curr (some new) }

/-- The allocations of `vrrp_create_inst`: the records of the instance and of
its VR, filled in, or none when `malloc` fails on the way. -/
def allocInst (w : World) (inst : VrrpInst) (s : Daemon) : Option DsPtr × Daemon :=
  let (gotInst, s) := s.malloc w
  if !gotInst then (none, s)
  else
    let (new, s) := s.newDs
    let (gotVr, s) := s.malloc w
    if !gotVr then (none, s)
    else
      let (vr, s) := s.newVr
      let s := s.setDs new { s.ds new with vr := vr, state := .init, active := inst.viActive }
      let s := { s with vrs := Function.update s.vrs vr { s.vrs vr with parent := new } }
      let (made, s) := s.vrrpCreateVr w inst.viVa inst.viVr vr
      if made = VrrpRet.enomem.code then (none, s) else (some new, s)

/-- `vrrp_create_inst`: the status, the instance handed out through `vim`, and
the state. -/
def vrrpCreateInst (w : World) (inst : VrrpInst) (s : Daemon) :
    Result (Int × Option DsPtr × Daemon) := do
  if ¬ inst.viVa.delay > 0 then return (errnoEinval, none, s)
  if ¬ inst.viVr.vrIpnum > 0 then return (errnoEinval, none, s)
  let conflict ← s.vrrpCheckConflict inst.key
  if conflict ≠ VrrpRet.success.code then return (VrrpRet.evrexist.code, none, s)
  match s.allocInst w inst with
  | (none, s) => return (VrrpRet.enomem.code, none, s)
  | (some new, s) =>
      let s ← s.linkInst new
      return (VrrpRet.success.code, some new, s)

/-! ## The queue by key -/

/-- The families that `vrrp_enqueue` and `vrrp_rmqueue` accept. -/
def queueFamily (af : Int) : Bool := af = afInet || af = afInet6 || af = 0

/-- `vrrp_rmqueue`. -/
def vrrpRmqueue (key : Key) (s : Daemon) : Result (Int × Daemon) := do
  if ¬ key.vid > 0 then return (errnoEinval, s)
  if !queueFamily key.af then return (errnoEinval, s)
  match ← s.vrrpSearchVr key with
  | none => return (-1, s)
  | some curr =>
      if s.q.qnext curr = none ∧ s.q.qprev curr = none then return (-1, s)
      let s ← s.tryQueue (·.vrrpRmqueueImpl curr)
      return (VrrpRet.success.code, s)

/-- The timeout `vrrp_enqueue` gives a VR, by the state of its instance. -/
def enqueueTimeout (s : Daemon) (parent : DsPtr) (stored : UInt32) : UInt32 :=
  match (s.ds parent).state with
  | .mast => s.advTimeout parent
  | .back =>
      toTimeout (3 * vrrpSec2usec (s.vrrpDelay parent) +
        vrrpSec2usec (Int.tdiv (256 - (s.vrrpPri parent).toNat) 256))
  | .none | .init => stored

/-- `vrrp_enqueue`. -/
def vrrpEnqueue (w : World) (key : Key) (s : Daemon) : Result (Int × Daemon) := do
  if ¬ key.vid > 0 then return (errnoEinval, s)
  if !queueFamily key.af then return (errnoEinval, s)
  match ← s.vrrpSearchVr key with
  | none => return (-1, s)
  | some curr =>
      let parent := (s.vrs curr).parent
      let s := s.onQueue (·.setTimeout curr (s.enqueueTimeout parent (s.q.timeout curr)))
      let s ← s.tryQueue (·.vrrpEnqueueImpl w s.vrTop curr)
      return (VrrpRet.success.code, s)

/-! ## Startup, shutdown, destruction -/

/-- `vrrp_startup_inst`. -/
def vrrpStartupInst (w : World) (key : Key) (s : Daemon) : Result (Int × Daemon) := do
  if ¬ key.af = afInet then return (errnoEinval, s)
  if ¬ key.vid > 0 then return (errnoEinval, s)
  match ← s.vrrpSearchInst key with
  | none => return (VrrpRet.enoinst.code, s)
  | some v =>
      if (s.ds v).state ≠ .init then return (VrrpRet.einval.code, s)
      let s ← s.vrrpStateI2b w v
      return (VrrpRet.success.code, s)

/-- `vrrp_shutdown_inst`. -/
def vrrpShutdownInst (w : World) (key : Key) (s : Daemon) : Result (Int × Daemon) := do
  if ¬ key.af = afInet then return (errnoEinval, s)
  if ¬ key.vid > 0 then return (errnoEinval, s)
  match ← s.vrrpSearchInst key with
  | none => return (VrrpRet.enoinst.code, s)
  | some v =>
      match (s.ds v).state with
      | .mast =>
          let s ← s.vrrpStateM2i w v
          return (VrrpRet.success.code, s)
      | .back =>
          let s ← s.vrrpStateB2i v
          return (VrrpRet.success.code, s)
      | .none | .init => return (VrrpRet.einval.code, s)

/-- The end of both branches of `vrrp_destroy_inst`, which unlinks the instance. -/
def unlinkInst (curr : DsPtr) (s : Daemon) : Result Daemon := do
  let before ← deref (s.prev curr)
  let s := { s with next := Function.update s.next before (s.next curr) }
  match s.next curr with
  | none => .ok s
  | some after => .ok { s with prev := Function.update s.prev after (s.prev curr) }

/-- `vrrp_destroy_inst`. The state of the instance is read before the test that
one was found. -/
def vrrpDestroyInst (w : World) (key : Key) (s : Daemon) : Result (Int × Daemon) := do
  if ¬ key.af = afInet then return (errnoEinval, s)
  let found ← s.vrrpSearchInst key
  let curr ← deref found
  if (s.ds curr).state = .mast then
    let (_, s) ← s.vrrpShutdownInst w key
    let s := s.onQueue (·.lock)
    let (_, s) ← s.vrrpRmqueue key
    let s := s.onQueue (·.unlock)
    let s ← s.unlinkInst curr
    return (VrrpRet.success.code, s)
  else
    let s := s.onQueue (·.lock)
    let (_, s) ← s.vrrpRmqueue key
    let s := s.onQueue (·.unlock)
    let s ← s.vrrpStateExecution w .mastToInit curr
    let s ← s.unlinkInst curr
    return (VrrpRet.success.code, s)

/-! ## Modification -/

/-- `VR_PROP_UNCHANGE`. -/
def vrPropUnchange : Int := -1

/-- What `vrrp_check` admits as a preempt or accept mode. -/
def modeGiven (mode : Int) : Bool := mode = 0 || mode = 1 || mode = vrPropUnchange

/-- The preempt and accept mode after a modification. -/
def newMode (old mode : Int) : Int :=
  if mode ≠ vrPropUnchange then
    if mode = 1 then 1 else if mode = 0 then 0 else old
  else old

/-- The priority, unless it is to stay. -/
def changePri (p : VrPtr) (pri : Int) (s : Daemon) : Daemon :=
  if pri ≠ vrPropUnchange then s.setAttr p { (s.vrs p).attr with pri := UInt8.ofInt pri } else s

/-- Take a VR out of the queue and, if it was there, enter it again. -/
def requeue (w : World) (key : Key) (s : Daemon) : Result Daemon := do
  let (removed, s) ← s.vrrpRmqueue key
  if removed = VrrpRet.success.code then
    let (_, s) ← s.vrrpEnqueue w key
    .ok s
  else .ok s

/-- The advertisement interval, unless it is to stay; a queued VR is requeued. -/
def changeDelay (w : World) (key : Key) (p : VrPtr) (delay : Int) (s : Daemon) : Result Daemon :=
  if delay ≠ vrPropUnchange then do
    let s := s.setAttr p { (s.vrs p).attr with delay := delay }
    let s := s.onQueue (·.lock)
    let s ← s.requeue w key
    .ok (s.onQueue (·.unlock))
  else .ok s

/-- The preempt and the accept mode. -/
def changeModes (p : VrPtr) (preeMode acptMode : Int) (s : Daemon) : Daemon :=
  let s := s.setAttr p
    { (s.vrs p).attr with preeMode := newMode (s.vrs p).attr.preeMode preeMode }
  s.setAttr p
    { (s.vrs p).attr with acceptMode := newMode (s.vrs p).attr.acceptMode acptMode }

/-- `vrrp_set_inst_prop`. -/
def vrrpSetInstProp (w : World) (key : Key) (pri delay preeMode acptMode : Int) (s : Daemon) :
    Result (Int × Daemon) := do
  if !modeGiven preeMode then return (errnoEinval, s)
  if !modeGiven acptMode then return (errnoEinval, s)
  match ← s.vrrpSearchInst key with
  | none => return (VrrpRet.enoinst.code, s)
  | some curr =>
      let p := (s.ds curr).vr
      let s ← (s.changePri p pri).changeDelay w key p delay
      return (VrrpRet.success.code, s.changeModes p preeMode acptMode)

/-! ## Enumeration -/

/-- The instance of a cursor: the first one, or the one that a search finds. -/
def cursorInst (cursor : Key) (s : Daemon) : Result (Option DsPtr) :=
  if cursor.isWildcard then .ok (s.next instRuntimeList) else s.vrrpSearchInst cursor

/-- `vrrp_get_instx`: the status, the instance handed out through `vix`, and the
cursor with the key of the next instance, or with wildcards behind the last one.
The name is stored through the caller's pointer. -/
def vrrpGetInstx (cursor : Key) (s : Daemon) : Result ((Int × Option DsPtr) × Key) := do
  match ← s.cursorInst cursor with
  | none => return ((VrrpRet.enoinst.code, none), cursor)
  | some v =>
      let _ ← deref cursor.ifname
      match s.next v with
      | none => return ((VrrpRet.success.code, some v), .wildcard)
      | some n => return ((VrrpRet.success.code, some v), s.key n)

end Daemon

end VrrpDaemon
