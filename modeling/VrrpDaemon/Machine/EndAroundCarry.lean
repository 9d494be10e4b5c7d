import Mathlib.Data.Nat.ModEq
import Mathlib.Tactic.Common
import Mathlib.Algebra.BigOperators.Group.List.Basic

/-!
# End-around carry

Addition of words where a carry out of the top is added in again at the bottom.
With words up to `m` it is addition modulo `m`, but for the two zeros: 0 comes out
only if every summand is 0, and otherwise `m` stands for a multiple of `m`.

Numbers have the `SameResidue` when they are congruent and both or neither are 0.
That survives an addition (`SameResidue.add`) and a fold, which adds the part above
the word to the word (`sameResidue_fold`). A word that has the residue of a number is
determined by it (`Residue.unique`). So a sum may be folded at any point on the way:
what is left in the end is the end-around-carry sum (`residue_carrySum`).
-/

set_option autoImplicit false

namespace Machine

/-- Add two words; a carry is added in at the bottom. -/
def carryAdd (m a b : Nat) : Nat := if a + b ≤ m then a + b else a + b - m

/-- Add up words. -/
def carrySum (m : Nat) (words : List Nat) : Nat := words.foldl (carryAdd m) 0

/-- Congruent numbers, of which both or neither are 0. -/
structure SameResidue (m n k : Nat) : Prop where
  modEq : n ≡ k [MOD m]
  zero : n = 0 ↔ k = 0

/-- The word that stands for a number. -/
structure Residue (m n r : Nat) : Prop extends SameResidue m r n where
  le : r ≤ m

variable {m n k r s : Nat}

namespace SameResidue

theorem refl (m n : Nat) : SameResidue m n n := ⟨rfl, Iff.rfl⟩

theorem symm (same : SameResidue m n k) : SameResidue m k n := ⟨same.modEq.symm, same.zero.symm⟩

theorem trans (one : SameResidue m n k) (two : SameResidue m k r) : SameResidue m n r :=
  ⟨one.modEq.trans two.modEq, one.zero.trans two.zero⟩

theorem add (one : SameResidue m n k) (two : SameResidue m r s) :
    SameResidue m (n + r) (k + s) := by
  refine ⟨one.modEq.add two.modEq, ?_⟩
  rw [Nat.add_eq_zero_iff, Nat.add_eq_zero_iff, one.zero, two.zero]

end SameResidue

/-- **What is above the word is folded into the word.** -/
theorem sameResidue_fold (m n : Nat) : SameResidue m (n % (m + 1) + n / (m + 1)) n := by
  have split : (m + 1) * (n / (m + 1)) + n % (m + 1) = n := Nat.div_add_mod ..
  generalize n / (m + 1) = high at split ⊢
  generalize n % (m + 1) = low at split ⊢
  have expand : (m + 1) * high = m * high + high := Nat.succ_mul ..
  refine ⟨(Nat.modEq_iff_dvd' (by omega)).mpr ⟨high, by omega⟩, ?_⟩
  constructor
  · intro none
    obtain rfl : high = 0 := by omega
    simp only [Nat.mul_zero] at split
    omega
  · omega

/-- One carry is added in at the bottom. -/
theorem sameResidue_carryAdd (positive : 0 < m) (leR : r ≤ m) (leS : s ≤ m) :
    SameResidue m (carryAdd m r s) (r + s) := by
  unfold carryAdd
  split
  · exact .refl m _
  · exact ⟨(Nat.modEq_iff_dvd' (by omega)).mpr ⟨1, by omega⟩, by omega⟩

namespace Residue

/-- **A number has one residue.** -/
theorem unique (one : Residue m n r) (two : Residue m n s) : r = s := by
  obtain ⟨same, zeros⟩ := one.toSameResidue.trans two.symm
  rcases Nat.lt_or_eq_of_le one.le with below | rfl
  · rcases Nat.lt_or_eq_of_le two.le with belowS | rfl
    · exact same.eq_of_lt_of_lt below belowS
    · -- a multiple of the modulus that is below it is 0
      have none : r = 0 := by
        have rest : r % s = s % s := same
        rwa [Nat.mod_self, Nat.mod_eq_of_lt below] at rest
      rw [none, zeros.mp none]
  · rcases Nat.lt_or_eq_of_le two.le with belowS | rfl
    · have none : s = 0 := by
        have rest : r % r = s % r := same
        rw [Nat.mod_self, Nat.mod_eq_of_lt belowS] at rest
        exact rest.symm
      rw [none, zeros.mpr none]
    · rfl

/-- A word stands for itself. -/
theorem self (le : n ≤ m) : Residue m n n := ⟨.refl m n, le⟩

/-- **Residues are added with the carry.** -/
theorem add (positive : 0 < m) (one : Residue m n r) (two : Residue m k s) :
    Residue m (n + k) (carryAdd m r s) := by
  refine ⟨(sameResidue_carryAdd positive one.le two.le).trans
    (one.toSameResidue.add two.toSameResidue), ?_⟩
  have leR := one.le
  have leS := two.le
  unfold carryAdd
  split <;> omega

/-- **A sum that is completed by the complement of its residue** has the residue `m`. -/
theorem complement (positive : 0 < m) (residue : Residue m n r) :
    Residue m (n + (m - r)) m := by
  have le := residue.le
  have zero := residue.zero
  refine ⟨⟨?_, by omega⟩, Nat.le_refl m⟩
  have whole : r + (m - r) ≡ n + (m - r) [MOD m] := residue.modEq.add_right _
  rwa [Nat.add_sub_cancel' le] at whole

end Residue

/-- **The end-around-carry sum** is the residue of the sum. -/
theorem residue_carrySum (positive : 0 < m) {words : List Nat}
    (fit : ∀ word ∈ words, word ≤ m) : Residue m words.sum (carrySum m words) := by
  have started : ∀ n r : Nat, Residue m n r →
      Residue m (n + words.sum) (words.foldl (carryAdd m) r) := by
    induction words with
    | nil => exact fun n r residue => residue
    | cons word words ih =>
        intro n r residue
        have first := residue.add positive (.self (fit word List.mem_cons_self))
        have later := ih (fun other member => fit other (List.mem_cons_of_mem _ member)) _ _ first
        rwa [List.sum_cons, ← Nat.add_assoc]
  simpa [carrySum] using started 0 0 (.self (Nat.zero_le m))

end Machine
