import VrrpDaemon.Machine.Bytes
import VrrpDaemon.Machine.SlotTable
import VrrpDaemon.Model.Types

/-!
# The sockets of the interfaces

`vrrpd_setup_netfd_vr` and `init_netfd` of `vrrpd.c`, with the table `netfds` of 16 slots. A
slot holds an interface and the two sockets opened for it; a slot with an empty name is not
in use. `init_netfd` is called for the first unused slot, and for the slot of the interface
when there is one: the test that would have kept its sockets is commented out.
-/

set_option autoImplicit false

namespace VrrpDaemon

open Machine

/-- The number of slots of `netfds`. -/
def netfdSlots : Nat := 16

/-- `vrrp_intf_fd_t`. -/
structure VrrpIntfFd where
  intf : List UInt8
  sSend : Int
  sRcv : Int
  deriving DecidableEq

/-- A cleared `vrrp_intf_fd_t`. -/
def VrrpIntfFd.blank : VrrpIntfFd := ⟨[], 0, 0⟩

/-- What the calls do not decide: the descriptor that the `k`-th `CreateSock` returns, and
the value that `init_netfd`, which has no `return`, has once `k` sockets are open. Binding a
socket and joining the group succeed. -/
structure NetWorld where
  createSock : Nat → Int
  undefined : Nat → Int

/-- `netfds`, with the number of sockets opened. -/
structure NetTable where
  netfds : List VrrpIntfFd
  opened : Nat
  deriving DecidableEq

namespace NetTable

/-- `netfds` as the daemon starts. -/
def initial : NetTable where
  netfds := List.replicate netfdSlots .blank
  opened := 0

/-- The loop of `vrrpd_setup_netfd_vr`, from index `i` on, with the variable `n1`; and
whether the interface was found. -/
def scanNetfds (intf : CString) : List VrrpIntfFd → Nat → Nat → Nat × Bool
  | [], _, n1 => (n1, false)
  | slot :: later, i, n1 =>
      if slot.intf = [] then scanNetfds intf later (i + 1) (if i < n1 then i else n1)
      else if slot.intf = intf.val then (i, true)
      else scanNetfds intf later (i + 1) n1

/-- `init_netfd`. -/
def initNetfd (w : NetWorld) (i : Nat) (intf : CString) (t : NetTable) : Result NetTable :=
  if intf.val.length < lifnamsiz then do
    let slot := ⟨intf.val, w.createSock t.opened, w.createSock (t.opened + 1)⟩
    let netfds ← storeAt Fault.overflow t.netfds i slot
    return { netfds, opened := t.opened + 2 }
  else .error .overflow

/-- `vrrpd_setup_netfd_vr`: what it returns, and the slot that `*fp` points to behind it. -/
def vrrpdSetupNetfdVr (w : NetWorld) (fp : Option Nat) (intf : CString) (t : NetTable) :
    Result ((Int × Option Nat) × NetTable) := do
  let (n1, found) := scanNetfds intf t.netfds 0 netfdSlots
  let fp := if found then some n1 else fp
  let t' ← t.initNetfd w n1 intf
  if w.undefined t'.opened < 0 then return ((-1, fp), t')
  else return ((0, some n1), t')

/-- Calls for some interfaces, one after the other; `vfd` of a new VR is a null pointer. -/
def setups (w : NetWorld) : List CString → NetTable → Result NetTable
  | [], t => .ok t
  | intf :: intfs, t => do
      let (_, t) ← t.vrrpdSetupNetfdVr w none intf
      setups w intfs t

end NetTable

end VrrpDaemon
