import VrrpDaemon.Model.Notation
import Mathlib.Algebra.Order.BigOperators.Group.List

/-!
# How long the texts of addresses are

An IPv4 address is written with the decimal digits of its bytes, and a point between two of
them (`length_inetNtoa`). The text of an IPv6 address fits the field that its caller has for
it (`length_inetNtop6`). Neither has a NUL in it.
-/

set_option autoImplicit false

namespace VrrpDaemon

open Machine

/-- How many decimal digits a byte has. -/
def decimalDigits (byte : UInt8) : Nat := if byte < 10 then 1 else if byte < 100 then 2 else 3

theorem decimalDigits_le (byte : UInt8) : decimalDigits byte ≤ 3 := by
  unfold decimalDigits
  split
  · omega
  · split <;> omega

theorem decimalDigits_pos (byte : UInt8) : 1 ≤ decimalDigits byte := by
  unfold decimalDigits
  split
  · omega
  · split <;> omega

/-- Some bytes, each with a separator, take two to four characters a byte. -/
theorem sum_decimalDigits_le (bytes : List UInt8) :
    (bytes.map fun byte => decimalDigits byte + 1).sum ≤ bytes.length * 4 := by
  rw [← List.length_map (fun byte => decimalDigits byte + 1)]
  refine List.sum_le_card_nsmul _ 4 fun width member => ?_
  obtain ⟨byte, -, rfl⟩ := List.mem_map.mp member
  exact Nat.succ_le_succ (decimalDigits_le byte)

theorem le_sum_decimalDigits (bytes : List UInt8) :
    bytes.length * 2 ≤ (bytes.map fun byte => decimalDigits byte + 1).sum := by
  rw [← List.length_map (fun byte => decimalDigits byte + 1)]
  refine List.card_nsmul_le_sum _ 2 fun width member => ?_
  obtain ⟨byte, -, rfl⟩ := List.mem_map.mp member
  exact Nat.succ_le_succ (decimalDigits_pos byte)

/-- The code of a character other than NUL. -/
theorem ofNat_ne_zero {code : Nat} (low : 0 < code) (high : code < 256) :
    UInt8.ofNat code ≠ 0 := by
  intro zero
  have same := congrArg UInt8.toNat zero
  rw [UInt8.toNat_ofNat', UInt8.toNat_zero] at same
  omega

/-! ## IPv4 addresses -/

theorem length_decimal (byte : UInt8) : (decimal byte).length = decimalDigits byte := by
  simp only [decimal, decimalDigits, UInt8.lt_iff_toNat_lt]
  have ten : (10 : UInt8).toNat = 10 := rfl
  have hundred : (100 : UInt8).toNat = 100 := rfl
  rw [ten, hundred]
  split
  · rfl
  · split <;> rfl

theorem zero_notMem_decimal (byte : UInt8) : (0 : UInt8) ∉ decimal byte := by
  have digit : ∀ n, n < 10 → (0 : UInt8) ≠ UInt8.ofNat (48 + n) := fun n small =>
    (ofNat_ne_zero (by omega) (by omega)).symm
  have small := byte.toNat_lt
  simp only [decimal]
  split
  · simp only [List.mem_singleton]
    exact digit _ (by omega)
  · split
    · simp only [List.mem_cons, List.not_mem_nil, or_false, not_or]
      exact ⟨digit _ (by omega), digit _ (by omega)⟩
    · simp only [List.mem_cons, List.not_mem_nil, or_false, not_or]
      exact ⟨digit _ (by omega), digit _ (by omega), digit _ (by omega)⟩

/-- **An address as a text**, with a byte behind it: each of its bytes with a separator. -/
theorem length_inetNtoa {address : List UInt8} (some : address ≠ []) :
    (inetNtoa address).length + 1 = (address.map fun byte => decimalDigits byte + 1).sum := by
  induction address with
  | nil => exact absurd rfl some
  | cons byte rest ih =>
      cases rest with
      | nil => simp [inetNtoa, length_decimal]
      | cons next rest =>
          have later := ih (List.cons_ne_nil next rest)
          simp only [inetNtoa, List.map_cons, List.intercalate_cons_cons, List.length_append,
            List.length_singleton, length_decimal, List.sum_cons] at later ⊢
          omega

theorem length_inetNtoa_le {address : List UInt8} (four : address.length = 4) :
    (inetNtoa address).length ≤ 15 := by
  have some : address ≠ [] := fun nothing => by
    rw [nothing] at four
    cases four
  have bound := sum_decimalDigits_le address
  rw [← length_inetNtoa some, four] at bound
  omega

theorem zero_notMem_inetNtoa (address : List UInt8) : (0 : UInt8) ∉ inetNtoa address := by
  induction address with
  | nil => exact List.not_mem_nil
  | cons byte rest ih =>
      cases rest with
      | nil =>
          rw [inetNtoa, List.map_singleton, List.intercalate_singleton]
          exact zero_notMem_decimal byte
      | cons next rest =>
          rw [inetNtoa, List.map_cons, List.map_cons, List.intercalate_cons_cons,
            ← List.map_cons, ← inetNtoa]
          simp only [List.mem_append, List.mem_singleton, not_or]
          exact ⟨⟨zero_notMem_decimal byte, by decide⟩, ih⟩

/-! ## IPv6 addresses -/

theorem length_hexadecimal_le (word : Nat) : (hexadecimal word).length ≤ 4 := by
  simp only [hexadecimal]
  split
  · simp
  · split
    · simp
    · split <;> simp

theorem zero_notMem_hexadecimal {word : Nat} (short : word < 65536) :
    (0 : UInt8) ∉ hexadecimal word := by
  have digit : ∀ n, n < 16 → (0 : UInt8) ≠ UInt8.ofNat (if n < 10 then 48 + n else 87 + n) := by
    intro n small
    split
    · exact (ofNat_ne_zero (by omega) (by omega)).symm
    · exact (ofNat_ne_zero (by omega) (by omega)).symm
  simp only [hexadecimal]
  split
  · simp only [List.mem_singleton]
    exact digit _ (by omega)
  · split
    · simp only [List.mem_cons, List.not_mem_nil, or_false, not_or]
      exact ⟨digit _ (by omega), digit _ (by omega)⟩
    · split
      · simp only [List.mem_cons, List.not_mem_nil, or_false, not_or]
        exact ⟨digit _ (by omega), digit _ (by omega), digit _ (by omega)⟩
      · simp only [List.mem_cons, List.not_mem_nil, or_false, not_or]
        exact ⟨digit _ (by omega), digit _ (by omega), digit _ (by omega), digit _ (by omega)⟩

theorem length_addressWords (address : List UInt8) :
    (addressWords address).length = address.length / 2 := by
  fun_induction addressWords address with
  | case1 high low rest ih =>
      simp only [List.length_cons, ih]
      omega
  | case2 address short =>
      cases address with
      | nil => rfl
      | cons byte rest =>
          cases rest with
          | nil => simp
          | cons next rest => exact absurd rfl (short byte next rest)

theorem addressWords_lt (address : List UInt8) : ∀ word ∈ addressWords address, word < 65536 := by
  fun_induction addressWords address with
  | case1 high low rest ih =>
      rw [List.forall_mem_cons]
      have big := high.toNat_lt
      have small := low.toNat_lt
      exact ⟨by omega, ih⟩
  | case2 => exact fun word member => absurd member List.not_mem_nil

/-- A colon that is written only under a condition. -/
theorem length_separator_le (p : Prop) [Decidable p] :
    (if p then [colon] else []).length ≤ 1 := by
  split
  · exact Nat.le_refl 1
  · exact Nat.zero_le 1

theorem zero_notMem_separator (p : Prop) [Decidable p] :
    (0 : UInt8) ∉ if p then [colon] else [] := by
  split
  · decide
  · exact List.not_mem_nil

section Loop

variable {best : Option ZeroRun} {tail : Option (List UInt8)}

/-- A number of the longest run of zeros. -/
theorem inetNtop6Loop_covered {i word : Nat} {words : List Nat}
    (covered : best.any (·.covers i) = true) :
    inetNtop6Loop best tail i (word :: words) =
      (if best.any (·.base = i) then [colon] else []) ++
        inetNtop6Loop best tail (i + 1) words := by
  rw [inetNtop6Loop, if_pos covered]

/-- The numbers that are written as an IPv4 address. -/
theorem inetNtop6Loop_quad {quad : List UInt8} {word : Nat} {words : List Nat}
    (written : ¬ best.any (·.covers 6) = true) :
    inetNtop6Loop best (some quad) 6 (word :: words) = colon :: quad := by
  rw [inetNtop6Loop, if_neg written]
  rfl

/-- A number that is written in hexadecimal. -/
theorem inetNtop6Loop_word {i word : Nat} {words : List Nat}
    (written : ¬ best.any (·.covers i) = true) (alone : (if i = 6 then tail else none) = none) :
    inetNtop6Loop best tail i (word :: words) =
      (if i ≠ 0 then [colon] else []) ++
        (hexadecimal word ++ inetNtop6Loop best tail (i + 1) words) := by
  rw [inetNtop6Loop, if_neg written, alone]

/-- Which of the three a number is. -/
theorem inetNtop6Loop_cases (best : Option ZeroRun) (tail : Option (List UInt8)) (i : Nat) :
    best.any (·.covers i) = true ∨
      ¬ best.any (·.covers i) = true ∧
        ((∃ quad, i = 6 ∧ tail = some quad) ∨ (if i = 6 then tail else none) = none) := by
  by_cases covered : best.any (·.covers i) = true
  · exact .inl covered
  · refine .inr ⟨covered, ?_⟩
    by_cases here : i = 6
    · rw [if_pos here]
      cases tail with
      | none => exact .inr rfl
      | some quad => exact .inl ⟨quad, here, rfl⟩
    · exact .inr (if_neg here)

theorem zero_notMem_inetNtop6Loop {words : List Nat} (short : ∀ word ∈ words, word < 65536)
    (clean : ∀ quad, tail = some quad → (0 : UInt8) ∉ quad) (i : Nat) :
    (0 : UInt8) ∉ inetNtop6Loop best tail i words := by
  induction words generalizing i with
  | nil => exact List.not_mem_nil
  | cons word words ih =>
      obtain ⟨here, later⟩ := List.forall_mem_cons.mp short
      rcases inetNtop6Loop_cases best tail i with
        covered | ⟨written, ⟨quad, rfl, rfl⟩ | alone⟩
      · rw [inetNtop6Loop_covered covered, List.mem_append, not_or]
        exact ⟨zero_notMem_separator _, ih later (i + 1)⟩
      · rw [inetNtop6Loop_quad written, List.mem_cons, not_or]
        exact ⟨by decide, clean quad rfl⟩
      · rw [inetNtop6Loop_word written alone, List.mem_append, List.mem_append, not_or, not_or]
        exact ⟨zero_notMem_separator _, zero_notMem_hexadecimal here, ih later (i + 1)⟩

/-- What the IPv4 address takes beyond the numbers it stands for. -/
def quadExcess (tail : Option (List UInt8)) : Nat := if tail.isSome then 6 else 0

/-- Each number takes a colon and four digits at most. -/
theorem length_inetNtop6Loop_le (short : ∀ quad, tail = some quad → quad.length ≤ 15)
    {words : List Nat} {i : Nat} (eight : i + words.length = 8) :
    (inetNtop6Loop best tail i words).length ≤ 5 * words.length + quadExcess tail := by
  induction words generalizing i with
  | nil => exact Nat.zero_le _
  | cons word words ih =>
      rw [List.length_cons] at eight ⊢
      have later := ih (by omega : i + 1 + words.length = 8)
      rcases inetNtop6Loop_cases best tail i with
        covered | ⟨written, ⟨quad, rfl, rfl⟩ | alone⟩
      · rw [inetNtop6Loop_covered covered, List.length_append]
        have colons := length_separator_le (best.any (·.base = i))
        omega
      · rw [inetNtop6Loop_quad written, List.length_cons]
        have dotted := short quad rfl
        simp only [quadExcess, Option.isSome_some, reduceIte]
        omega
      · rw [inetNtop6Loop_word written alone, List.length_append, List.length_append]
        have colons := length_separator_le (i ≠ 0)
        have digits := length_hexadecimal_le word
        omega

/-- The first number has no colon before it. -/
theorem length_inetNtop6Loop_zero_le (short : ∀ quad, tail = some quad → quad.length ≤ 15)
    {words : List Nat} (eight : words.length = 8) :
    (inetNtop6Loop best tail 0 words).length ≤ 39 + quadExcess tail := by
  obtain ⟨word, words, rfl⟩ := List.exists_cons_of_length_eq_add_one eight
  rw [List.length_cons] at eight
  have later : (inetNtop6Loop best tail (0 + 1) words).length ≤ _ :=
    length_inetNtop6Loop_le short (by omega : 0 + 1 + words.length = 8)
  rcases inetNtop6Loop_cases best tail 0 with
    covered | ⟨written, ⟨quad, impossible, -⟩ | alone⟩
  · rw [inetNtop6Loop_covered covered, List.length_append]
    have colons := length_separator_le (best.any (·.base = 0))
    omega
  · cases impossible
  · rw [inetNtop6Loop_word written alone, if_neg (not_not.mpr rfl), List.nil_append,
      List.length_append]
    have digits := length_hexadecimal_le word
    omega

end Loop

/-- An IPv4 address is written only behind zeros at the start. -/
theorem embedsIpv4_end {best : Option ZeroRun} {words : List Nat}
    (embeds : embedsIpv4 best words = true) :
    best.any (fun run => run.base + run.len = 8) = false := by
  cases best with
  | none => rfl
  | some run =>
      simp only [embedsIpv4, Bool.and_eq_true, Bool.or_eq_true, decide_eq_true_eq] at embeds
      simp only [Option.any_some, decide_eq_false_iff_not]
      omega

/-- The IPv4 address that is written, if any. -/
theorem inetNtop6_quad {address quad : List UInt8} {best : Option ZeroRun} {words : List Nat}
    (written : (if embedsIpv4 best words then some (inetNtoa (address.drop 12)) else none) =
      some quad) : quad = inetNtoa (address.drop 12) := by
  split at written
  · exact (Option.some.inj written).symm
  · cases written

theorem zero_notMem_inetNtop6 (address : List UInt8) : (0 : UInt8) ∉ inetNtop6 address := by
  have loop : ∀ best, (0 : UInt8) ∉ inetNtop6Loop best
      (if embedsIpv4 best (addressWords address) then some (inetNtoa (address.drop 12)) else none)
      0 (addressWords address) := fun best =>
    zero_notMem_inetNtop6Loop (addressWords_lt address)
      (fun quad written => inetNtop6_quad written ▸ zero_notMem_inetNtoa _) 0
  simp only [inetNtop6, List.mem_append, not_or]
  exact ⟨loop _, zero_notMem_separator _⟩

/-- **An IPv6 address as a text** fits a field of `INET6_ADDRSTRLEN` bytes. -/
theorem length_inetNtop6 {address : List UInt8} (sixteen : address.length = 16) :
    (inetNtop6 address).length < 46 := by
  have eight : (addressWords address).length = 8 := by rw [length_addressWords, sixteen]
  have four : (address.drop 12).length = 4 := by rw [List.length_drop, sixteen]
  simp only [inetNtop6, List.length_append]
  generalize zeroRun (addressWords address) = best
  have loop : (inetNtop6Loop best
      (if embedsIpv4 best (addressWords address) then some (inetNtoa (address.drop 12)) else none)
      0 (addressWords address)).length ≤ _ :=
    length_inetNtop6Loop_zero_le
      (fun quad written => inetNtop6_quad written ▸ length_inetNtoa_le four) eight
  cases embeds : embedsIpv4 best (addressWords address) with
  | true =>
      simp only [embeds, quadExcess, reduceIte, Option.isSome_some, embedsIpv4_end embeds,
        Bool.false_eq_true, List.length_nil] at loop ⊢
      omega
  | false =>
      simp only [embeds, quadExcess, reduceIte, Option.isSome_none, Bool.false_eq_true] at loop ⊢
      have colons := length_separator_le (best.any fun run => run.base + run.len = 8)
      omega

end VrrpDaemon
