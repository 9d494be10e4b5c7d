import VrrpDaemon.Behaviour.Core
import Mathlib.Algebra.Order.Ring.Int

/-!
# The timeouts that the daemon computes

The daemon knows two intervals. The advertisement interval is that of an
instance's attributes, in microseconds; the transitions and the handler of the
alarm ask for it (`advTimeout`). The Master_Down_Interval is three of them and a
skew; `vrrp_enqueue` and `vrrp_process_incoming_adv` ask for it where the
instance is in `BACK`, one with an addition of integers and the other with an
addition of timeouts. Modulo the width of a timeout both are `masterDown`.
-/

set_option autoImplicit false

namespace VrrpDaemon

/-- The skew as the daemon computes it: the division comes before the scaling. -/
def skewOf (pri : UInt8) : Int := vrrpSec2usec (Int.tdiv (256 - pri.toNat) 256)

/-- The Master_Down_Interval of some attributes, as it is stored. -/
def masterDown (attr : VrrpAttr) : UInt32 :=
  toTimeout (3 * vrrpSec2usec attr.delay + skewOf attr.pri)

/-- The advertisement interval of some attributes, as it is stored. -/
def advInterval (attr : VrrpAttr) : UInt32 := toTimeout (vrrpSec2usec attr.delay)

/-- The interval that the timer of a running instance is for, by its state. -/
def runningInterval (state : VrrpState) (attr : VrrpAttr) : UInt32 :=
  match state with
  | .back => masterDown attr
  | .none | .init | .mast => advInterval attr

/-- A stored timeout is the number modulo the width of a timeout. -/
theorem toNat_toTimeout (t : Int) : ((toTimeout t).toNat : Int) = t % 2 ^ 32 := by
  have small : (t % 2 ^ 32).toNat < 2 ^ 32 := by omega
  rw [toTimeout, UInt32.ofInt, UInt32.toNat_ofNat', Nat.mod_eq_of_lt small]
  omega

/-- A number that fits is stored as it is. -/
theorem toNat_toTimeout_iff {t : Int} : ((toTimeout t).toNat : Int) = t ↔ 0 ≤ t ∧ t < 2 ^ 32 := by
  rw [toNat_toTimeout]
  omega

theorem toTimeout_add (a b : Int) : toTimeout (a + b) = toTimeout a + toTimeout b :=
  UInt32.ofInt_add a b

/-- The skew of every priority but 0 is 0. -/
theorem skewOf_eq (pri : UInt8) : skewOf pri = if pri = 0 then 1000000 else 0 := by
  have bound := pri.toNat_lt
  by_cases zero : pri = 0
  · subst zero
    rfl
  · have positive : pri.toNat ≠ 0 := fun same => zero (UInt8.toNat_inj.mp same)
    have quotient : Int.tdiv (256 - (pri.toNat : Int)) 256 = 0 :=
      Int.tdiv_eq_zero_of_lt (by omega) (by omega)
    rw [if_neg zero, skewOf, quotient, vrrpSec2usec, Int.zero_mul]

namespace Daemon

variable {s : Daemon} {v : DsPtr} {stored : UInt32}

theorem enqueueTimeout_back (backup : (s.ds v).state = .back) :
    s.enqueueTimeout v stored = masterDown (s.vr v).attr := by
  simp only [enqueueTimeout, backup]
  rfl

theorem enqueueTimeout_mast (master : (s.ds v).state = .mast) :
    s.enqueueTimeout v stored = s.advTimeout v := by
  simp only [enqueueTimeout, master]

/-- `vrrp_enqueue` asks for the interval of a running instance. -/
theorem enqueueTimeout_running (running : (s.ds v).state.running = true) :
    s.enqueueTimeout v stored = runningInterval (s.ds v).state (s.vr v).attr := by
  cases state : (s.ds v).state with
  | mast => exact enqueueTimeout_mast state
  | back => exact enqueueTimeout_back state
  | none | init =>
      rw [state] at running
      cases running

/-- **Both sites compute the same interval** when an advertisement of another
priority than 0 came. -/
theorem skewTimeout_regular {received : UInt8} (regular : received ≠ 0) :
    s.skewTimeout (s.ds v).vr received = masterDown (s.vr v).attr := by
  simp only [skewTimeout, regular, ne_eq, not_false_eq_true, reduceIte, masterDown, toTimeout_add]
  exact UInt32.add_comm ..

end Daemon

end VrrpDaemon
