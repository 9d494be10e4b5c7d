import VrrpDaemon.Model.System
import Mathlib.Data.List.Sort

/-!
# The daemon as a table of virtual routers

What the daemon is for, apart from how it does it: it keeps a table of virtual routers in the
order of their VRIDs, answers requests to change it, and moves routers between their states as
masters are heard and timers expire. There are no records in memory here, no links, no queue
of timers and no processes.

Whether there is memory for a new router, and which timer expires, is not up to the table. A
`Choice` says it, and the value of the local that a create for priority 255 answers with.
-/

set_option autoImplicit false

namespace VrrpDaemon

/-- A virtual router. -/
structure VirtualRouter where
  vr : VrrpVr
  attr : VrrpAttr
  state : VrrpState
  active : Int
  deriving DecidableEq

namespace VirtualRouter

/-- A key fits a router when each part that is given is the router's own. -/
def fits (key : Key) (r : VirtualRouter) : Bool :=
  (key.vid = 0 || r.vr.vrId = key.vid) && (key.af = afUnspec || r.vr.vrAf = key.af) &&
    (nameMissing key.ifname || sameName key.ifname r.vr.vrIfname)

/-- The router in another state. -/
def enter (state : VrrpState) (r : VirtualRouter) : VirtualRouter := { r with state := state }

/-- A backup whose timer expires, or to whom a master resigns, is a master. -/
def elect (r : VirtualRouter) : VirtualRouter := if r.state = .back then r.enter .mast else r

/-- The router of a request. One of priority 255 owns the addresses and is a master at once. -/
def made (inst : VrrpInst) : VirtualRouter where
  vr := { inst.viVr with vrIp := inst.viVr.vrIp.take inst.viVr.vrIpnum.toNat }
  attr := inst.viVa
  state := if inst.viVa.pri = 255 then .mast else .init
  active := inst.viActive

end VirtualRouter

/-- Each attribute that is given replaces the old one. -/
def VrrpAttr.modified (old : VrrpAttr) (pri delay preeMode acptMode : Int) : VrrpAttr where
  pri := if pri = Daemon.vrPropUnchange then old.pri else UInt8.ofInt pri
  delay := if delay = Daemon.vrPropUnchange then old.delay else delay
  preeMode := if preeMode = Daemon.vrPropUnchange then old.preeMode else preeMode
  acceptMode := if acptMode = Daemon.vrPropUnchange then old.acceptMode else acptMode

/-- What the table does not decide: whether there is memory, which timer expires, and what an
unassigned local holds. -/
structure Choice where
  memory : Bool
  due : Option Nat
  unassigned : Int

/-- The routers, and the VRIDs for which a master was heard. -/
structure Table where
  routers : List VirtualRouter
  heard : UInt8 → Bool

namespace Table

/-- The table at the start. -/
def empty : Table := ⟨[], fun _ => false⟩

/-- The only router that the key fits. -/
def find (key : Key) (t : Table) : Option VirtualRouter :=
  Daemon.onlyOne (t.routers.filter (VirtualRouter.fits key))

/-- Change the routers that the key fits. -/
def change (key : Key) (f : VirtualRouter → VirtualRouter) (t : Table) : Table :=
  { t with routers := t.routers.map fun r => if r.fits key then f r else r }

/-- Take out the routers that the key fits. -/
def erase (key : Key) (t : Table) : Table :=
  { t with routers := t.routers.filter fun r => !r.fits key }

/-- The new router stands in front of the first one whose VRID is not smaller. -/
def insert (r : VirtualRouter) (t : Table) : Table :=
  { t with routers := t.routers.orderedInsert (fun a b => a.vr.vrId ≤ b.vr.vrId) r }

/-- A master was heard, or has resigned. -/
def mark (vid : UInt8) (up : Bool) (t : Table) : Table :=
  { t with heard := Function.update t.heard vid up }

/-- No master was heard for any VRID. -/
def Quiet (t : Table) : Prop := ∀ vid, vid ≠ 0 → t.heard vid = false

theorem quiet_iff (t : Table) :
    (∀ i ∈ List.range 256, UInt8.ofNat i ≠ 0 → t.heard (UInt8.ofNat i) = false) ↔ t.Quiet := by
  constructor
  · intro below vid given
    have own := below vid.toNat (List.mem_range.mpr vid.toNat_lt)
    rw [UInt8.ofNat_toNat] at own
    exact own given
  · exact fun quiet i _ given => quiet _ given

instance (t : Table) : Decidable t.Quiet :=
  decidable_of_iff (∀ i ∈ List.range 256, UInt8.ofNat i ≠ 0 → t.heard (UInt8.ofNat i) = false)
    (quiet_iff t)

/-! ## Requests -/

/-- The status that answers a request, and the table behind it. Only a request to destroy
needs a router that it fits. -/
def answer (c : Choice) (command : Command) (t : Table) : Option (Int × Table) :=
  match command with
  | .create inst =>
      if ¬ (inst.viVa.delay > 0 ∧ inst.viVr.vrIpnum > 0) then some (errnoEinval, t)
      else if (t.find inst.key).isSome then some (VrrpRet.evrexist.code, t)
      else if !c.memory then some (VrrpRet.enomem.code, t)
      else
        some (if inst.viVa.pri = 255 then c.unassigned else VrrpRet.success.code,
          t.insert (.made inst))
  | .remove key =>
      if key.af ≠ afInet then some (errnoEinval, t)
      else (t.find key).map fun _ => (VrrpRet.success.code, t.erase key)
  | .startup key =>
      if ¬ (key.af = afInet ∧ key.vid ≠ 0) then some (errnoEinval, t)
      else
        match t.find key with
        | none => some (VrrpRet.enoinst.code, t)
        | some r =>
            if r.state ≠ .init then some (VrrpRet.einval.code, t)
            else
              some (VrrpRet.success.code, t.change key (·.enter (if t.Quiet then .mast else .back)))
  | .shutdown key =>
      if ¬ (key.af = afInet ∧ key.vid ≠ 0) then some (errnoEinval, t)
      else
        match t.find key with
        | none => some (VrrpRet.enoinst.code, t)
        | some r =>
            if r.state.running then some (VrrpRet.success.code, t.change key (·.enter .init))
            else some (VrrpRet.einval.code, t)
  | .modify key pri delay preeMode acptMode =>
      if ¬ (Daemon.modeGiven preeMode ∧ Daemon.modeGiven acptMode) then some (errnoEinval, t)
      else
        match t.find key with
        | none => some (VrrpRet.enoinst.code, t)
        | some _ =>
            some (VrrpRet.success.code, t.change key fun r =>
              { r with attr := r.attr.modified pri delay preeMode acptMode })

/-- The status that answers a request for an instance: the table has the router that the cursor
stands for, the first one if it is a wildcard. -/
def lookup (cursor : Key) (t : Table) : Int :=
  if (if cursor.isWildcard then t.routers.head? else t.find cursor).isSome then
    VrrpRet.success.code
  else VrrpRet.enoinst.code

/-! ## Advertisements and timers -/

/-- An advertisement. A master that resigns hands over to the first router of the table, which
there has to be; any other takes precedence over a master of its VRID with less priority. -/
def hear (af : Int) (ifname : Ifname) (frame : Frame) (t : Table) : Option Table :=
  let vid := frame.inst.viVr.vrId
  let key : Key := ⟨vid, some ifname, af⟩
  if !frame.accepted then some t
  else if frame.inst.viVa.pri = 0 then
    match t.routers with
    | [] => none
    | first :: later => some { t.mark vid false with routers := first.elect :: later }
  else
    let t := t.mark vid true
    match t.find key with
    | none => some t
    | some r =>
        if vid ≠ 0 ∧ r.state = .mast ∧ r.attr.pri < frame.inst.viVa.pri then
          some (t.change key (·.enter .back))
        else some t

/-- The timer of a router expires, or of none in the table. -/
def expire (due : Option Nat) (t : Table) : Table :=
  match due with
  | none => t
  | some i => { t with routers := t.routers.modify i VirtualRouter.elect }

/-- One operation: the status, for a request, and the table behind it. -/
def step (c : Choice) (op : Op) (t : Table) : Option (Option Int × Table) :=
  match op with
  | .command command => (t.answer c command).map fun (status, t) => (some status, t)
  | .frame af ifname frame => (t.hear af ifname frame).map fun t => (none, t)
  | .alarm => some (none, t.expire c.due)

end Table

end VrrpDaemon
