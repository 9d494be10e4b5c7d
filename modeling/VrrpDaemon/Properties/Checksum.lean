import VrrpDaemon.Model.Checksum
import VrrpDaemon.Machine.EndAroundCarry
import Mathlib.Data.Nat.Bitwise
import Mathlib.Algebra.Group.Nat.Even

/-!
# The Internet checksum

`ComputeChecksum` returns the complement of the end-around-carry sum of the 16-bit
words, however its folds fall, and the variable `sum` stays below 2^32 on the way
(`computeChecksum_eq`). The invariant of both loops is that `sum` has the residue of
the words added so far (`Accumulator.Stands`). A checksum that is stored in a field
that was 0 makes the whole add up to 0 (`computeChecksum_carrySum`).
-/

set_option autoImplicit false

namespace VrrpDaemon

open Machine

/-- The 16-bit words of a message, the least significant byte first. An odd last byte
counts as a word with a zero high byte. -/
def leWords : List UInt8 → List Nat
  | low :: high :: data => ofLe [low, high] :: leWords data
  | [byte] => [byte.toNat]
  | [] => []

theorem ofLe_pair_le (low high : UInt8) : ofLe [low, high] ≤ 65535 := by
  have boundLow := low.toNat_lt
  have boundHigh := high.toNat_lt
  simp only [ofLe]
  omega

theorem leWords_le (data : List UInt8) : ∀ word ∈ leWords data, word ≤ 65535 := by
  induction data using leWords.induct with
  | case1 low high data ih =>
      intro word member
      rcases List.mem_cons.mp member with rfl | later
      · exact ofLe_pair_le low high
      · exact ih word later
  | case2 byte =>
      have bound := byte.toNat_lt
      simp only [leWords, List.mem_singleton, forall_eq]
      omega
  | case3 => simp [leWords]

/-- Words do not reach over an even offset. -/
theorem leWords_append {front : List UInt8} (even : Even front.length) (back : List UInt8) :
    leWords (front ++ back) = leWords front ++ leWords back := by
  induction front using leWords.induct with
  | case1 low high front ih =>
      have shorter : Even front.length := by
        rw [List.length_cons, List.length_cons, Nat.even_add_one, Nat.even_add_one, not_not] at even
        exact even
      simp only [List.cons_append, leWords, ih shorter]
  | case2 byte => simp at even
  | case3 => rfl

/-! ## The operations on `sum` -/

theorem toNat_fold {x : BitVec 64} (small : x.toNat < 2 ^ 32) :
    ((x &&& 0xFFFF#64) + x.sshiftRight 16).toNat = x.toNat % 65536 + x.toNat / 65536 := by
  have positive : x.msb = false := BitVec.msb_eq_false_iff_two_mul_lt.mpr (by omega)
  have low : (x &&& 0xFFFF#64).toNat = x.toNat % 65536 := by
    rw [BitVec.toNat_and]
    exact Nat.and_two_pow_sub_one_eq_mod x.toNat 16
  have high : (x.sshiftRight 16).toNat = x.toNat / 65536 := by
    rw [BitVec.sshiftRight_eq_of_msb_false positive, BitVec.toNat_ushiftRight,
      Nat.shiftRight_eq_div_pow]
  rw [BitVec.toNat_add, low, high]
  omega

theorem sshiftRight_ne_zero_iff {x : BitVec 64} (small : x.toNat < 2 ^ 32) :
    x.sshiftRight 16 ≠ 0 ↔ 65536 ≤ x.toNat := by
  have positive : x.msb = false := BitVec.msb_eq_false_iff_two_mul_lt.mpr (by omega)
  rw [BitVec.sshiftRight_eq_of_msb_false positive, ne_eq, ← BitVec.toNat_inj,
    BitVec.toNat_ushiftRight, Nat.shiftRight_eq_div_pow]
  simp only [BitVec.ofNat_eq_ofNat, BitVec.toNat_ofNat, Nat.zero_mod]
  omega

/-- The test of the high order bit. -/
theorem highBit_ne_zero_iff {x : BitVec 64} (small : x.toNat < 2 ^ 32) :
    x &&& 0x80000000#64 ≠ 0 ↔ 2 ^ 31 ≤ x.toNat := by
  have bit : x.toNat.testBit 31 = decide (2 ^ 31 ≤ x.toNat) := by
    rw [Nat.testBit_eq_decide_div_mod_eq]
    exact decide_eq_decide.mpr (by omega)
  rw [ne_eq, ← BitVec.toNat_inj, BitVec.toNat_and]
  have mask : (0x80000000#64).toNat = 2 ^ 31 := rfl
  rw [mask, Nat.and_two_pow, bit]
  simp

theorem toNat_complement {x : BitVec 64} (small : x.toNat ≤ 65535) :
    (UInt16.ofBitVec ((~~~ x).setWidth 16)).toNat = 65535 - x.toNat := by
  show ((~~~ x).setWidth 16).toNat = _
  rw [BitVec.toNat_setWidth, BitVec.toNat_not]
  omega

/-! ## The invariant of the loops -/

/-- The value is neither negative nor greater than 2^32. -/
def Moderate (x : BitVec 64) : Prop := 0 ≤ x.toInt ∧ x.toInt ≤ 2 ^ 32

theorem moderate_of_lt {x : BitVec 64} (small : x.toNat < 2 ^ 32) : Moderate x := by
  have value : x.toInt = x.toNat := BitVec.toInt_eq_toNat_of_lt (by omega)
  rw [Moderate, value]
  omega

namespace Accumulator

variable {a : Accumulator} {n bound : Nat}

/-- The accumulator stands for a number: `sum` has its residue and is below a bound, and
no value that it was given was out of range. -/
structure Stands (bound n : Nat) (a : Accumulator) : Prop where
  below : a.sum.toNat < bound
  residue : SameResidue 65535 a.sum.toNat n
  moderate : ∀ x ∈ a.assigned, Moderate x

theorem stands_start : start.Stands (2 ^ 31) 0 where
  below := by decide
  residue := .refl 65535 0
  moderate x member := by
    obtain rfl := List.mem_singleton.mp member
    exact moderate_of_lt (by decide)

theorem Stands.assign {x : BitVec 64} {bound' k : Nat} (stands : a.Stands bound n)
    (below : x.toNat < bound') (small : bound' ≤ 2 ^ 32) (residue : SameResidue 65535 x.toNat k) :
    (a.assign x).Stands bound' k where
  below := below
  residue := residue
  moderate y member := by
    rcases List.mem_append.mp member with old | new
    · exact stands.moderate y old
    · rw [List.mem_singleton.mp new]
      exact moderate_of_lt (Nat.lt_of_lt_of_le below small)

theorem Stands.plus {k : Nat} (stands : a.Stands bound n) (small : bound + k ≤ 2 ^ 32) :
    (a.plus k).Stands (bound + k) (n + k) := by
  have below := stands.below
  have sum : (a.sum + BitVec.ofNat 64 k).toNat = a.sum.toNat + k := by
    rw [BitVec.toNat_add, BitVec.toNat_ofNat]
    omega
  refine stands.assign ?_ small ?_
  · rw [sum]
    omega
  · rw [sum]
    exact stands.residue.add (.refl 65535 k)

theorem Stands.fold {bound' : Nat} (stands : a.Stands bound n) (small : bound ≤ 2 ^ 32)
    (below : a.sum.toNat % 65536 + a.sum.toNat / 65536 < bound') (small' : bound' ≤ 2 ^ 32) :
    a.fold.Stands bound' n := by
  have value := toNat_fold (Nat.lt_of_lt_of_le stands.below small)
  refine stands.assign ?_ small' ?_
  · rwa [value]
  · rw [value]
    exact (sameResidue_fold 65535 a.sum.toNat).trans stands.residue

/-- One round of the loop over the words. -/
theorem Stands.word {k : Nat} (stands : a.Stands (2 ^ 31) n) (fits : k ≤ 65535) :
    (if (a.plus k).sum &&& 0x80000000#64 ≠ 0 then (a.plus k).fold else a.plus k).Stands
      (2 ^ 31) (n + k) := by
  have added := stands.plus (k := k) (by omega)
  have below := added.below
  have high := highBit_ne_zero_iff (x := (a.plus k).sum) (by omega)
  split
  · exact added.fold (by omega) (by omega) (by omega)
  · rename_i clear
    have under : ¬ 2 ^ 31 ≤ (a.plus k).sum.toNat := fun set => clear (high.mpr set)
    exact ⟨by omega, added.residue, added.moderate⟩

end Accumulator

/-- **The loop over the words** keeps the invariant, and leaves at most one byte. -/
theorem stands_sumWords {n : Nat} (data : List UInt8) {a : Accumulator}
    (stands : a.Stands (2 ^ 31) n) :
    ∃ k, (sumWords data a).1.Stands (2 ^ 31) k ∧
      k + (leWords (sumWords data a).2).sum = n + (leWords data).sum ∧
        (sumWords data a).2.length ≤ 1 := by
  induction data using leWords.induct generalizing n a with
  | case1 low high data ih =>
      obtain ⟨k, later, total, short⟩ := ih (stands.word (ofLe_pair_le low high))
      refine ⟨k, later, total.trans ?_, short⟩
      simp only [leWords, List.sum_cons, Nat.add_assoc]
  | case2 byte => exact ⟨n, stands, rfl, Nat.le_refl 1⟩
  | case3 => exact ⟨n, stands, rfl, Nat.zero_le 1⟩

/-- The byte that is left over is added as a word. -/
theorem stands_sumLast {n : Nat} {data : List UInt8} {a : Accumulator}
    (stands : a.Stands (2 ^ 31) n) (short : data.length ≤ 1) :
    (sumLast data a).Stands (2 ^ 31 + 256) (n + (leWords data).sum) := by
  cases data using leWords.induct with
  | case1 low high data => simp at short
  | case3 => exact ⟨Nat.lt_add_right 256 stands.below, stands.residue, stands.moderate⟩
  | case2 byte =>
      have bound := byte.toNat_lt
      have added := stands.plus (k := byte.toNat) (by omega)
      have below := added.below
      refine ⟨?_, added.residue, added.moderate⟩
      show (a.plus byte.toNat).sum.toNat < _
      omega

/-- A word without a carry ends the loop. -/
theorem foldCarries_done {fuel : Nat} {a : Accumulator} (done : a.sum.toNat < 65536) :
    foldCarries fuel a = .ok a := by
  have clear := sshiftRight_ne_zero_iff (x := a.sum) (by omega)
  have none : ¬ a.sum.sshiftRight 16 ≠ 0 := fun carry => absurd (clear.mp carry) (by omega)
  unfold foldCarries
  exact if_neg none

/-- A carry is folded in. -/
theorem foldCarries_carry {fuel : Nat} {a : Accumulator} (carry : 65536 ≤ a.sum.toNat)
    (small : a.sum.toNat < 2 ^ 32) : foldCarries (fuel + 1) a = foldCarries fuel a.fold := by
  conv_lhs => unfold foldCarries
  rw [if_pos ((sshiftRight_ne_zero_iff small).mpr carry)]

/-- **Two folds leave no carry.** -/
theorem stands_foldCarries (fuel : Nat) {n : Nat} {a : Accumulator}
    (stands : a.Stands (2 ^ 31 + 256) n) :
    ∃ a', foldCarries (fuel + 2) a = .ok a' ∧ a'.Stands 65536 n := by
  have below := stands.below
  by_cases carry : 65536 ≤ a.sum.toNat
  · have first : a.fold.Stands 131071 n := stands.fold (by omega) (by omega) (by omega)
    have belowFirst := first.below
    rw [foldCarries_carry carry (by omega)]
    by_cases again : 65536 ≤ a.fold.sum.toNat
    · have second : a.fold.fold.Stands 65536 n := first.fold (by omega) (by omega) (by omega)
      rw [foldCarries_carry again (by omega)]
      exact ⟨_, foldCarries_done second.below, second⟩
    · exact ⟨_, foldCarries_done (by omega), ⟨by omega, first.residue, first.moderate⟩⟩
  · exact ⟨a, foldCarries_done (by omega), ⟨by omega, stands.residue, stands.moderate⟩⟩

/-- **What `ComputeChecksum` returns**: the complement of the end-around-carry sum. -/
theorem computeChecksum_eq (fuel : Nat) (data : List UInt8) :
    ∃ sum a, computeChecksum (fuel + 2) data = .ok (sum, a) ∧
      sum.toNat = 65535 - carrySum 65535 (leWords data) ∧ ∀ x ∈ a.assigned, Moderate x := by
  obtain ⟨k, words, total, short⟩ := stands_sumWords data Accumulator.stands_start
  have last := stands_sumLast words short
  rw [total, Nat.zero_add] at last
  obtain ⟨a, folded, stands⟩ := stands_foldCarries fuel last
  have below := stands.below
  have value : a.sum.toNat = carrySum 65535 (leWords data) :=
    Residue.unique ⟨stands.residue, by omega⟩ (residue_carrySum (by decide) (leWords_le data))
  refine ⟨.ofBitVec ((~~~ a.sum).setWidth 16), a, ?_, ?_, stands.moderate⟩
  · simp only [computeChecksum, folded, ok_bind]
    rfl
  · rw [toNat_complement (by omega), value]

/-! ## Verification -/

/-- The words of a message with a field at an even offset. -/
theorem leWords_field {front : List UInt8} (even : Even front.length) (field : UInt16)
    (back : List UInt8) : leWords (front ++ (leBytes 2 field.toNat ++ back)) =
      leWords front ++ field.toNat :: leWords back := by
  have small := field.toNat_lt
  have word : ofLe (leBytes 2 field.toNat) = field.toNat := by
    rw [ofLe_leBytes]
    exact Nat.mod_eq_of_lt small
  rw [leWords_append even]
  exact congrArg (fun value => leWords front ++ value :: leWords back) word

/-- **A stored checksum verifies**: with it in the field that was 0, the words add up to
65535. -/
theorem carrySum_stored {front back : List UInt8} (even : Even front.length) {sum : UInt16}
    (stored : sum.toNat =
      65535 - carrySum 65535 (leWords (front ++ (leBytes 2 (0 : UInt16).toNat ++ back)))) :
    carrySum 65535 (leWords (front ++ (leBytes 2 sum.toNat ++ back))) = 65535 := by
  have before := residue_carrySum (by decide)
    (leWords_le (front ++ (leBytes 2 (0 : UInt16).toNat ++ back)))
  have after := residue_carrySum (by decide)
    (leWords_le (front ++ (leBytes 2 sum.toNat ++ back)))
  have completed := before.complement (by decide)
  rw [← stored] at completed
  have total : (leWords (front ++ (leBytes 2 sum.toNat ++ back))).sum =
      (leWords (front ++ (leBytes 2 (0 : UInt16).toNat ++ back))).sum + sum.toNat := by
    rw [leWords_field even, leWords_field even]
    simp only [List.sum_append, List.sum_cons, UInt16.toNat_zero]
    omega
  rw [total] at after
  exact after.unique completed

/-- **`ComputeChecksum` is the Internet checksum.** On every message both loops end. No value
of `sum` is negative or greater than 2^32, and the result is the complement of the
end-around-carry sum of the 16-bit words. For every message, of even or odd length, with a
field at an even offset that is 0, storing the result there makes the checksum 0. -/
theorem computeChecksum_carrySum (fuel : Nat) :
    (∀ data : List UInt8, ∃ sum a, computeChecksum (fuel + 2) data = .ok (sum, a) ∧
      sum.toNat = 65535 - carrySum 65535 (leWords data) ∧
        ∀ x ∈ a.assigned, 0 ≤ x.toInt ∧ x.toInt ≤ 2 ^ 32) ∧
    ∀ (front back : List UInt8) (sum : UInt16) (a : Accumulator),
      Even front.length →
        computeChecksum (fuel + 2) (front ++ ([0, 0] ++ back)) = .ok (sum, a) →
          ∃ a', computeChecksum (fuel + 2) (front ++ (leBytes 2 sum.toNat ++ back)) =
            .ok (0, a') := by
  refine ⟨computeChecksum_eq fuel, fun front back sum a evenFront computed => ?_⟩
  obtain ⟨_, _, cleared, stored, -⟩ := computeChecksum_eq fuel (front ++ ([0, 0] ++ back))
  cases computed.symm.trans cleared
  obtain ⟨zero, a', again, value, -⟩ :=
    computeChecksum_eq fuel (front ++ (leBytes 2 sum.toNat ++ back))
  rw [carrySum_stored evenFront stored, Nat.sub_self] at value
  obtain rfl : zero = 0 := UInt16.toNat_inj.mp value
  exact ⟨a', again⟩

/-- A message of six bytes with its checksum in the middle. -/
theorem computeChecksum_verified : ∃ a, computeChecksum 2
    ([0x45, 0x01] ++ (leBytes 2 (0xe1b7 : UInt16).toNat ++ [0x03, 0x1d])) = .ok (0, a) := by
  have computed : passes (fun result => result.1 == 0xe1b7)
      (computeChecksum 2 ([0x45, 0x01] ++ ([0, 0] ++ [0x03, 0x1d]))) = true := by decide +kernel
  obtain ⟨⟨sum, a⟩, returns, value⟩ := exists_of_passes computed
  obtain rfl : sum = 0xe1b7 := by simpa using value
  exact (computeChecksum_carrySum 0).2 [0x45, 0x01] [0x03, 0x1d] 0xe1b7 a (by decide) returns

end VrrpDaemon
