import VrrpDaemon.Model.AdmSocket

/-!
# Showing all instances

`cmd_show_all` of `libvrrp.c`, which `vrrpadm` runs for `show`. It asks for one VRID
after the other, with a counter of 8 bits. The request has no place for the instance
that is to come back: the pointer `imp` is passed through the variable arguments of
`vrrp_all_cmd`, and nobody stores through it. It is displayed and freed as it is.
-/

set_option autoImplicit false

namespace VrrpDaemon

open Machine

/-- What `cmd_show_all` does not decide: the reply to the `k`-th request, what the buffer
of the `k`-th request holds before and what `vrrp_all_cmd` finds around it, and whether
displaying and freeing through `imp` returns in the `k`-th round. -/
structure ShowWorld where
  answer : Nat → List UInt8
  residue : Nat → Buffer
  client : Nat → Client
  usable : Nat → Bool

/-- How far `cmd_show_all` has come after some rounds: it is still in the loop, it stopped in
a fault, or it returned. -/
inductive ShowState where
  | running
  | faulted
  | returned
  deriving DecidableEq

/-- The target of a request of `cmd_show_all`: an empty name and `AF_UNSPEC`. -/
def showTarget (vid : UInt8) : Target where
  vid := vid
  intf := ⟨[], Ifname.zero_notMem_nil, Nat.zero_le _⟩
  af := afUnspec

/-- `cmd_get_instx`, as the `k`-th request, which is sent and answered. -/
def cmdGetInstx (w : ShowWorld) (k : Nat) (vid : UInt8) : Result Int :=
  vrrpAllCmd (w.client k)
    (requestBuffer (fun _ => 0) (w.residue k) .getInstx (showTarget vid)) (some (w.answer k))

/-- The loop of `cmd_show_all`, for a number of rounds: the VRIDs it asks for. -/
def showAllLoop (w : ShowWorld) : Nat → Nat → UInt8 → List UInt8 × ShowState
  | 0, _, _ => ([], .running)
  | rounds + 1, k, vid =>
      match cmdGetInstx w k vid with
      | .error _ => ([vid], .faulted)
      | .ok ret =>
          if ret ≠ VrrpRet.success.code then ([vid], .returned)
          -- display_vrrp_instx(imp); free_vrrp(imp)
          else if !w.usable k then ([vid], .faulted)
          else if (vid + 1).toNat < 256 then
            let (later, state) := showAllLoop w rounds (k + 1) (vid + 1)
            (vid :: later, state)
          else ([vid], .returned)

/-- `cmd_show_all`, after a number of rounds. -/
def cmdShowAll (w : ShowWorld) (rounds : Nat) : List UInt8 × ShowState := showAllLoop w rounds 0 0

end VrrpDaemon
