import VrrpDaemon.Machine.Bytes
import VrrpDaemon.Machine.SlotTable
import VrrpDaemon.Model.Types

/-!
# The tables of polled descriptors

`poll_add` of `vrrpd.c` and the tables it keeps: `pollfds`, which grows by `realloc`, and
next to it the families `poll_afs` and the names `poll_intfs`, which have 32 entries. The
entries of one descriptor have the same index in all three.
-/

set_option autoImplicit false

namespace VrrpDaemon

open Machine

/-- `POLLIN`. -/
def pollin : Int := 1

/-- The number of entries of `poll_afs` and `poll_intfs`, and how many `pollfds` grows by. -/
def pollSlots : Nat := 32

/-- `struct pollfd`, but for what `poll` returns. -/
structure Pollfd where
  fd : Int
  events : Int
  deriving DecidableEq

/-- An entry of `pollfds` without a descriptor. -/
def Pollfd.empty : Pollfd := ⟨-1, pollin⟩

/-- `pollfds`, of `pollfd_num` entries, with `poll_afs` and `poll_intfs`. -/
structure PollTable where
  pollfds : List Pollfd
  pollAfs : List Int
  pollIntfs : List (List UInt8)
  deriving DecidableEq

/-- The arguments of a call of `poll_add`; the name may be a null pointer. -/
structure PollCall where
  fd : Int
  af : Int
  intf : Option CString
  deriving DecidableEq

/-- The name of a call, with no name for a null pointer. -/
def PollCall.name (c : PollCall) : List UInt8 := (c.intf.map Subtype.val).getD []

namespace PollTable

/-- The tables as the daemon starts. -/
def initial : PollTable where
  pollfds := []
  pollAfs := List.replicate pollSlots afUnspec
  pollIntfs := List.replicate pollSlots []

/-- `strcpy(poll_intfs[i], intf)`, unless `intf` is a null pointer. -/
def copyIntf (i : Nat) (intf : Option CString) (t : PollTable) : Result PollTable :=
  match intf with
  | none => .ok t
  | some name =>
      if name.val.length < lifnamsiz then do
        let pollIntfs ← storeAt Fault.overflow t.pollIntfs i name.val
        return { t with pollIntfs }
      else .error .overflow

/-- The end of `poll_add`: `pollfds` grows by 32 entries, and the first of them is used. -/
def growPollfds (realloc : Bool) (c : PollCall) (t : PollTable) : Result (Int × PollTable) :=
  if !realloc then .ok (-1, t)
  else do
    let t ← t.copyIntf t.pollfds.length c.intf
    let newfds := ⟨c.fd, pollin⟩ :: List.replicate (pollSlots - 1) Pollfd.empty
    return (0, { t with pollfds := t.pollfds ++ newfds })

/-- `poll_add`, where `realloc` succeeds or fails. -/
def pollAdd (realloc : Bool) (c : PollCall) (t : PollTable) : Result (Int × PollTable) :=
  if t.pollfds.any (·.fd = c.fd) then .ok (0, t)
  else
    match t.pollfds.findIdx? (·.fd = -1) with
    | some i => do
        let t := { t with pollfds := t.pollfds.modify i fun entry => { entry with fd := c.fd } }
        let pollAfs ← storeAt Fault.overflow t.pollAfs i c.af
        let t ← { t with pollAfs }.copyIntf i c.intf
        return (0, t)
    | none => t.growPollfds realloc c

/-- Calls of `poll_add`, one after the other, for which `realloc` succeeds. -/
def pollAdds : List PollCall → PollTable → Result PollTable
  | [], t => .ok t
  | c :: calls, t => do
      let (_, t) ← t.pollAdd true c
      pollAdds calls t

end PollTable

end VrrpDaemon
