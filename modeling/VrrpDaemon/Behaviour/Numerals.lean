import VrrpDaemon.Model.Administrator
import Mathlib.Data.Nat.Digits.Lemmas

/-!
# Numbers that are typed in decimal

`strtol` finds out the base by itself. A number that is written in decimal has no zero in
front, unless it is zero, so it is read as it was written (`strtol_numeral`).
-/

set_option autoImplicit false

namespace VrrpDaemon

open Machine

/-- The byte of a decimal digit. -/
def digitByte (digit : Nat) : UInt8 := UInt8.ofNat (48 + digit)

/-- A number in decimal, without leading zeros. -/
def numeral (n : Nat) : List UInt8 :=
  if n = 0 then [digitByte 0] else (Nat.digits 10 n).reverse.map digitByte

theorem toNat_digitByte {digit : Nat} (small : digit < 10) : (digitByte digit).toNat = 48 + digit := by
  rw [digitByte, UInt8.toNat_ofNat']
  omega

/-- The bytes of a number in decimal are digits. -/
theorem exists_digit {n : Nat} {c : UInt8} (member : c ∈ numeral n) :
    ∃ digit, digit < 10 ∧ c = digitByte digit := by
  rw [numeral] at member
  split at member
  · exact ⟨0, by decide, List.mem_singleton.mp member⟩
  · obtain ⟨digit, inside, same⟩ := List.mem_map.mp member
    exact ⟨digit, Nat.digits_lt_base (by decide) (List.mem_reverse.mp inside), same.symm⟩

theorem numeral_range {n : Nat} {c : UInt8} (member : c ∈ numeral n) :
    48 ≤ c.toNat ∧ c.toNat ≤ 57 := by
  obtain ⟨digit, small, rfl⟩ := exists_digit member
  rw [toNat_digitByte small]
  omega

theorem numeral_ne_nil (n : Nat) : numeral n ≠ [] := by
  rw [numeral]
  split
  · exact List.cons_ne_nil _ _
  · rename_i positive
    simpa [Nat.digits_eq_nil_iff_eq_zero] using positive

/-- A byte that is no digit is not in a number. -/
theorem notMem_numeral {c : UInt8} (other : c.toNat < 48 ∨ 57 < c.toNat) (n : Nat) :
    c ∉ numeral n := fun member => by
  have range := numeral_range member
  omega

theorem hexDigit_digit : ∀ {digit : Nat}, digit < 10 →
    (hexDigit (digitByte digit)).filter (· < 10) = some digit := by
  decide

/-- Digits are read. -/
theorem frontDigits_digits {digits : List Nat} (small : ∀ digit ∈ digits, digit < 10) :
    frontDigits 10 (digits.map digitByte) = digits := by
  induction digits with
  | nil => rfl
  | cons digit digits ih =>
      have here := small digit List.mem_cons_self
      have read : (hexDigit (digitByte digit)).filter (· < 10) = some digit := hexDigit_digit here
      have rest := ih fun digit member => small digit (List.mem_cons_of_mem _ member)
      rw [List.map_cons, frontDigits, read, rest]

/-- The value of the digits of a number. -/
theorem digitsValue_digits (n : Nat) : digitsValue 10 (Nat.digits 10 n).reverse = n := by
  have fold : digitsValue 10 (Nat.digits 10 n).reverse = Nat.ofDigits 10 (Nat.digits 10 n) := by
    rw [digitsValue, List.foldl_reverse, Nat.ofDigits_eq_foldr]
    refine List.foldr_ext _ _ _ fun digit _ value => ?_
    rw [Nat.mul_comm, Nat.add_comm]
    rfl
  rw [fold, Nat.ofDigits_digits]

/-- The first digit is no zero. -/
theorem head_numeral {n : Nat} (positive : n ≠ 0) : (numeral n).head? ≠ some 48 := by
  intro zero
  have nonempty : Nat.digits 10 n ≠ [] := Nat.digits_ne_nil_iff_ne_zero.mpr positive
  rw [numeral, if_neg positive, List.head?_map, List.head?_reverse,
    List.getLast?_eq_some_getLast nonempty] at zero
  have small : (Nat.digits 10 n).getLast nonempty < 10 :=
    Nat.digits_lt_base (by decide) (List.getLast_mem nonempty)
  have value := congrArg UInt8.toNat (Option.some.inj zero)
  rw [toNat_digitByte small] at value
  exact Nat.getLast_digit_ne_zero 10 positive (by simpa using value)

theorem magnitude_numeral (n : Nat) : magnitude (numeral n) = n := by
  by_cases zero : n = 0
  · subst zero
    decide
  · rw [magnitude, if_neg (head_numeral zero), numeral, if_neg zero, frontDigits_digits,
      digitsValue_digits]
    exact fun digit member =>
      Nat.digits_lt_base (by decide) (List.mem_reverse.mp member)

/-- **A number in decimal is read as it was written.** -/
theorem strtol_numeral {n : Nat} (small : (n : Int) ≤ longMax) : strtol (numeral n) = n := by
  obtain ⟨c, rest, text⟩ := List.exists_cons_of_ne_nil (numeral_ne_nil n)
  have range := numeral_range (n := n) (c := c) (by rw [text]; exact List.mem_cons_self)
  have other : ∀ d : UInt8, d.toNat < 48 → c ≠ d := by
    rintro d before rfl
    omega
  have noSpace : isspace c = false := by
    simp only [isspace, UInt8.le_iff_toNat_le, Bool.or_eq_false_iff, decide_eq_false_iff_not,
      Bool.and_eq_false_iff]
    exact ⟨other 32 (by decide), .inr (by simpa using by omega)⟩
  have start : (numeral n).dropWhile isspace = numeral n := by
    rw [text, List.dropWhile_cons_of_neg (by simp [noSpace])]
  have noMinus : (numeral n).head? ≠ some 45 := by
    rw [text]
    exact fun same => other 45 (by decide) (Option.some.inj same)
  have noPlus : (numeral n).head? ≠ some 43 := by
    rw [text]
    exact fun same => other 43 (by decide) (Option.some.inj same)
  simp only [strtol, start, noMinus, noPlus, reduceIte, magnitude_numeral]
  exact min_eq_right small

end VrrpDaemon
