import Mathlib.Algebra.Order.Ring.Int
import Mathlib.Algebra.Order.Ring.Nat
import Mathlib.Data.Nat.Size
import Mathlib.Tactic.Common

/-!
# Machine numbers

Signed integers of some width, where a result that has no room is undefined, and integers in
double precision, of which the most significant 53 bits are kept: rounded to the nearest, or
to the even one of two that are equally near.

Small integers are doubles themselves (`double_of_small`), and a large one is not rounded to
a small one (`le_double`).
-/

set_option autoImplicit false

namespace Machine

/-! ## Signed integers -/

/-- The value in two's complement of some width, if it has room there. -/
def signed (width : Nat) (n : Int) : Option Int :=
  if -2 ^ (width - 1) ≤ n ∧ n < 2 ^ (width - 1) then some n else none

theorem signed_of_fits {width : Nat} {n : Int} (low : -2 ^ (width - 1) ≤ n)
    (high : n < 2 ^ (width - 1)) : signed width n = some n :=
  if_pos ⟨low, high⟩

theorem signed_of_large {width : Nat} {n : Int} (large : 2 ^ (width - 1) ≤ n) :
    signed width n = none :=
  if_neg fun fits => absurd fits.2 (Int.not_lt.mpr large)

theorem signed_eq_some {width : Nat} {n m : Int} (given : signed width n = some m) : n = m := by
  rw [signed] at given
  split at given
  · exact Option.some.inj given
  · cases given

/-! ## Doubles -/

/-- A number with its most significant bits only, rounded to nearest, ties to even. -/
def roundBits (bits n : Nat) : Nat :=
  let unit := 2 ^ (n.size - bits)
  let below := n / unit * unit
  if 2 * (n % unit) < unit ∨ 2 * (n % unit) = unit ∧ n / unit % 2 = 0 then below
  else below + unit

/-- The double that stands for an integer. -/
def double (n : Int) : Int := n.sign * roundBits 53 n.natAbs

theorem roundBits_of_small {bits n : Nat} (small : n < 2 ^ bits) : roundBits bits n = n := by
  have exact : n.size - bits = 0 := Nat.sub_eq_zero_of_le (Nat.size_le.mpr small)
  simp [roundBits, exact, Nat.mod_one]

/-- A number that is rounded has the bits it is rounded to. -/
theorem le_roundBits {bits n : Nat} (large : 2 ^ bits ≤ n) : 2 ^ bits ≤ roundBits (bits + 1) n := by
  have below : 2 ^ bits ≤ n / 2 ^ (n.size - (bits + 1)) * 2 ^ (n.size - (bits + 1)) := by
    have positive : 0 < 2 ^ (n.size - (bits + 1)) := Nat.two_pow_pos _
    have wide : bits < n.size := Nat.lt_size.mpr large
    have whole : 2 ^ bits * 2 ^ (n.size - (bits + 1)) ≤ n := by
      rw [← Nat.pow_add]
      exact Nat.lt_size.mp (by omega)
    calc 2 ^ bits ≤ n / 2 ^ (n.size - (bits + 1)) := (Nat.le_div_iff_mul_le positive).mpr whole
      _ ≤ _ := Nat.le_mul_of_pos_right _ positive
  simp only [roundBits]
  split
  · exact below
  · exact Nat.le_trans below (Nat.le_add_right ..)

/-- **A small integer is a double.** -/
theorem double_of_small {n : Int} (small : n.natAbs < 2 ^ 53) : double n = n := by
  rw [double, roundBits_of_small small, Int.sign_mul_natAbs]

/-- **A large integer stays large.** -/
theorem le_double {n : Int} (large : 2 ^ 52 ≤ n) : 2 ^ 52 ≤ double n := by
  have positive : 0 < n := by omega
  have rounded : 2 ^ 52 ≤ roundBits (52 + 1) n.natAbs := le_roundBits (by omega)
  rw [double, Int.sign_eq_one_of_pos positive, Int.one_mul]
  exact_mod_cast rounded

end Machine
