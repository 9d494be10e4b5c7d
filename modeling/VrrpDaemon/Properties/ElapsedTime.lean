import VrrpDaemon.Model.ElapsedTime
import Mathlib.Algebra.Order.Field.Rat
import Mathlib.Tactic.FieldSimp
import Mathlib.Tactic.Linarith
import Mathlib.Tactic.NormNum
import Mathlib.Tactic.Positivity
import Mathlib.Tactic.Ring

/-!
# How elapsed time is measured

`timeval_delta` is exact where the seconds do not overflow. `timeval_to_centi` divides the
microseconds by a million, where a hundredth of a second has ten thousand of them: it counts
whole seconds, times 100 (`advAge_eq`). So it is right to a hundredth exactly for times that
are less than a hundredth longer than whole seconds (`advAge_iff`).
-/

set_option autoImplicit false

namespace VrrpDaemon

open Machine

/-- The exact time between two others, in seconds. -/
def elapsedSeconds (t1 t2 : Timeval) : ℚ := ((t1.micros - t2.micros : Int) : ℚ) / 1000000

/-- The difference is exact and normalised, and in hundredths of a second the result is less
than one off. -/
def MeasuresElapsed (t1 t2 : Timeval) : Prop :=
  ∃ delta centi, timevalDelta t1 t2 = some delta ∧ delta.Normalised ∧
    delta.micros = t1.micros - t2.micros ∧ timevalToCenti delta = some centi ∧
    |(centi : ℚ) - 100 * elapsedSeconds t1 t2| < 1

/-- The time is less than a hundredth of a second longer than whole seconds, and an `int` has
room for these in hundredths. -/
def NearWholeSeconds (t1 t2 : Timeval) : Prop :=
  (t1.micros - t2.micros) % 1000000 < 10000 ∧ (t1.micros - t2.micros) / 1000000 ≤ 21474836

variable {t1 t2 t1' : Timeval}

/-! ## The difference -/

/-- **The difference of two times** is exact and normalised, unless the seconds overflow. -/
theorem timevalDelta_eq (norm1 : t1.Normalised) (norm2 : t2.Normalised)
    (later : t2.micros ≤ t1.micros) :
    timevalDelta t1 t2 =
      if t1.tvSec - t2.tvSec < 2 ^ 63 then
        some ⟨(t1.micros - t2.micros) / 1000000, (t1.micros - t2.micros) % 1000000⟩
      else none := by
  obtain ⟨low1, high1⟩ := norm1
  obtain ⟨low2, high2⟩ := norm2
  unfold Timeval.micros at later ⊢
  unfold timevalDelta
  split
  · rename_i room
    rw [signed_of_fits (by omega) room, signed_of_fits (by omega) (by omega)]
    simp only [Option.bind_eq_bind, Option.bind_some]
    split
    · rw [signed_of_fits (by omega) (by omega), signed_of_fits (by omega) (by omega)]
      simp only [Option.bind_some, Option.pure_def, Option.some.injEq, Timeval.mk.injEq]
      omega
    · simp only [Option.pure_def, Option.some.injEq, Timeval.mk.injEq]
      omega
  · rename_i overflow
    rw [signed_of_large (Int.not_lt.mp overflow)]
    rfl

/-- The parts of a difference are those of a normalised time. -/
theorem normalised_parts (micros : Int) :
    Timeval.Normalised ⟨micros / 1000000, micros % 1000000⟩ :=
  ⟨Int.emod_nonneg _ (by decide), Int.emod_lt_of_pos _ (by decide)⟩

theorem micros_parts (micros : Int) :
    Timeval.micros ⟨micros / 1000000, micros % 1000000⟩ = micros :=
  Int.ediv_mul_add_emod ..

/-! ## Hundredths of a second -/

/-- A natural number, with `0.5` added as a double and truncated to an `int`, is itself. -/
theorem signed_halves {n : Int} (natural : 0 ≤ n) :
    signed 32 (Int.tdiv (double (2 * double n + 1)) 2) = if n < 2 ^ 31 then some n else none := by
  by_cases exact : n < 2 ^ 51
  · rw [double_of_small (n := n) (by omega), double_of_small (by omega),
      Int.tdiv_eq_ediv_of_nonneg (by omega), (by omega : (2 * n + 1) / 2 = n)]
    split
    · rename_i small
      exact signed_of_fits (by omega) small
    · rename_i large
      exact signed_of_large (Int.not_lt.mp large)
  · -- a sum that is rounded is no `int`
    have whole : 2 ^ 51 ≤ double n := by
      by_cases small : n < 2 ^ 53
      · rw [double_of_small (by omega)]
        omega
      · have large := le_double (n := n) (by omega)
        omega
    have sum := le_double (n := 2 * double n + 1) (by omega)
    rw [if_neg (by omega), Int.tdiv_eq_ediv_of_nonneg (by omega)]
    exact signed_of_large (by omega)

/-- **The result of `timeval_to_centi`** has the seconds only. -/
theorem timevalToCenti_eq {tv : Timeval} (norm : tv.Normalised) (positive : 0 ≤ tv.tvSec) :
    timevalToCenti tv = if tv.tvSec ≤ 21474836 then some (100 * tv.tvSec) else none := by
  have dropped : Int.tdiv tv.tvUsec 1000000 = 0 := Int.tdiv_eq_zero_of_lt norm.1 norm.2
  unfold timevalToCenti
  rw [dropped]
  by_cases room : tv.tvSec * 100 < 2 ^ 63
  · have fits : signed 64 (tv.tvSec * 100) = some (tv.tvSec * 100) :=
      signed_of_fits (by omega) room
    simp only [fits, Int.add_zero, Option.bind_eq_bind, Option.bind_some]
    rw [signed_halves (by omega), Int.mul_comm]
    by_cases small : tv.tvSec ≤ 21474836
    · rw [if_pos small, if_pos (by omega)]
    · rw [if_neg small, if_neg (by omega)]
  · rw [signed_of_large (Int.not_lt.mp room), if_neg (by omega)]
    rfl

/-- **The age** is that of the whole seconds, where an `int` has room for it. -/
theorem advAge_eq (norm1 : t1.Normalised) (norm2 : t2.Normalised)
    (later : t2.micros ≤ t1.micros) :
    advAge t1 t2 =
      if (t1.micros - t2.micros) / 1000000 ≤ 21474836 then
        some (100 * ((t1.micros - t2.micros) / 1000000))
      else none := by
  have positive : 0 ≤ (t1.micros - t2.micros) / 1000000 := by omega
  have centi := timevalToCenti_eq (normalised_parts (t1.micros - t2.micros)) positive
  rw [advAge, timevalDelta_eq norm1 norm2 later]
  split
  · exact centi
  · rename_i overflow
    have large : ¬ (t1.micros - t2.micros) / 1000000 ≤ 21474836 := by
      obtain ⟨low1, high1⟩ := norm1
      obtain ⟨low2, high2⟩ := norm2
      unfold Timeval.micros
      omega
    rw [if_neg large]
    rfl

/-- How far the result is from the exact time: by the microseconds, in hundredths. -/
theorem centi_error (t1 t2 : Timeval) :
    |((100 * ((t1.micros - t2.micros) / 1000000) : Int) : ℚ) - 100 * elapsedSeconds t1 t2| < 1 ↔
      (t1.micros - t2.micros) % 1000000 < 10000 := by
  have split : (t1.micros - t2.micros) / 1000000 * 1000000 +
      (t1.micros - t2.micros) % 1000000 = t1.micros - t2.micros := Int.ediv_mul_add_emod ..
  have natural : 0 ≤ (t1.micros - t2.micros) % 1000000 := Int.emod_nonneg _ (by decide)
  unfold elapsedSeconds
  generalize (t1.micros - t2.micros) / 1000000 = seconds at split
  generalize (t1.micros - t2.micros) % 1000000 = rest at split natural ⊢
  rw [← split]
  have error : ((100 * seconds : Int) : ℚ) -
      100 * (((seconds * 1000000 + rest : Int) : ℚ) / 1000000) = -((rest : ℚ) / 10000) := by
    push_cast
    ring
  have below : (0 : ℚ) ≤ (rest : ℚ) / 10000 := by
    have : (0 : ℚ) ≤ (rest : ℚ) := by exact_mod_cast natural
    positivity
  rw [error, abs_neg, abs_of_nonneg below, div_lt_one (by norm_num)]
  norm_cast

/-- **Which times are measured** to a hundredth of a second. -/
theorem measuresElapsed_iff (norm1 : t1.Normalised) (norm2 : t2.Normalised)
    (later : t2.micros ≤ t1.micros) : MeasuresElapsed t1 t2 ↔ NearWholeSeconds t1 t2 := by
  have age := advAge_eq norm1 norm2 later
  constructor
  · rintro ⟨delta, centi, difference, -, -, result, near⟩
    rw [advAge, difference] at age
    have computed := result.symm.trans age
    split at computed
    · rename_i room
      rw [Option.some.inj computed] at near
      exact ⟨(centi_error t1 t2).mp near, room⟩
    · cases computed
  · rintro ⟨short, room⟩
    have seconds : t1.tvSec - t2.tvSec < 2 ^ 63 := by
      obtain ⟨low1, high1⟩ := norm1
      obtain ⟨low2, high2⟩ := norm2
      unfold Timeval.micros at room
      omega
    have difference := timevalDelta_eq norm1 norm2 later
    rw [if_pos seconds] at difference
    rw [advAge, difference, if_pos room] at age
    exact ⟨_, _, difference, normalised_parts _, micros_parts _, age, (centi_error t1 t2).mpr short⟩

/-! ## Times that go on -/

/-- **Advertisements do not become younger.** -/
theorem advAge_mono (norm1 : t1.Normalised) (norm2 : t2.Normalised)
    (norm1' : t1'.Normalised) (later : t2.micros ≤ t1.micros) (on : t1.micros ≤ t1'.micros)
    {centi centi' : Int} (age : advAge t1 t2 = some centi) (age' : advAge t1' t2 = some centi') :
    centi = 100 * ((t1.micros - t2.micros) / 1000000) ∧
      centi' = 100 * ((t1'.micros - t2.micros) / 1000000) ∧ centi ≤ centi' := by
  rw [advAge_eq norm1 norm2 later] at age
  rw [advAge_eq norm1' norm2 (later.trans on)] at age'
  split at age
  · split at age'
    · cases age
      cases age'
      exact ⟨rfl, rfl, by omega⟩
    · cases age'
  · cases age

/-- What the times of `dump_vrrp_vr` have to do with the age. -/
theorem advTimes_some {now : Timeval} {advinfo : VrrpVrAdvinfo} {pri : UInt8} {times : AdvTimes}
    (computed : advTimes now advinfo pri = some times) :
    advAge now advinfo.timestamp = some times.aage ∧
      times.skew = Int.tdiv (advinfo.interval * (256 - pri.toNat)) 256 ∧
      times.mdi = advinfo.interval * 3 + times.skew ∧ times.mdt = times.mdi - times.aage := by
  obtain ⟨aage, age, computed⟩ := Option.bind_eq_some_iff.mp computed
  obtain ⟨scaled, skew, computed⟩ := Option.bind_eq_some_iff.mp computed
  obtain ⟨tripled, three, computed⟩ := Option.bind_eq_some_iff.mp computed
  obtain ⟨mdi, sum, computed⟩ := Option.bind_eq_some_iff.mp computed
  obtain ⟨mdt, rest, computed⟩ := Option.bind_eq_some_iff.mp computed
  cases computed
  cases signed_eq_some skew
  cases signed_eq_some three
  cases signed_eq_some sum
  cases signed_eq_some rest
  exact ⟨age, rfl, rfl, rfl⟩

/-- **The master-down timer runs down** as time goes on, from the same interval. -/
theorem advTimes_run {now now' : Timeval} {advinfo : VrrpVrAdvinfo} {pri : UInt8}
    {times times' : AdvTimes} (norm : now.Normalised) (norm' : now'.Normalised)
    (heard : advinfo.timestamp.Normalised) (later : advinfo.timestamp.micros ≤ now.micros)
    (on : now.micros ≤ now'.micros) (computed : advTimes now advinfo pri = some times)
    (computed' : advTimes now' advinfo pri = some times') :
    times.mdi = times'.mdi ∧ times'.mdt ≤ times.mdt := by
  obtain ⟨age, skew, mdi, mdt⟩ := advTimes_some computed
  obtain ⟨age', skew', mdi', mdt'⟩ := advTimes_some computed'
  have older := (advAge_mono norm heard norm' later on age age').2.2
  have same : times.mdi = times'.mdi := by rw [mdi, mdi', skew, skew']
  refine ⟨same, ?_⟩
  rw [mdt, mdt', same]
  omega

/-- **Without an advertisement the age is undefined.** `ai_timestamp` is cleared with the record
of the VR, and nobody stores to it: since the 21474837th second of the epoch there is no
`int` for the age. -/
theorem advTimes_cleared {now : Timeval} (norm : now.Normalised) (late : 21474837 ≤ now.tvSec)
    (interval : Int) (pri : UInt8) : advTimes now ⟨⟨0, 0⟩, interval⟩ pri = none := by
  have cleared : Timeval.Normalised ⟨0, 0⟩ := by decide
  have zero : Timeval.micros ⟨0, 0⟩ = 0 := by decide
  obtain ⟨low, high⟩ := norm
  have age : advAge now ⟨0, 0⟩ = none := by
    have whole : ¬ (now.micros - Timeval.micros ⟨0, 0⟩) / 1000000 ≤ 21474836 := by
      rw [zero, Timeval.micros]
      omega
    rw [advAge_eq ⟨low, high⟩ cleared (by rw [zero, Timeval.micros]; omega), if_neg whole]
  rw [advTimes, age]
  rfl

/-- **Elapsed time in hundredths of a second.** For every two normalised times, the first no
earlier: the difference is exact and normalised, and its hundredths are less than one off, if
and only if the time between is less than a hundredth longer than whole seconds, which an
`int` has room for. In every case the result does not decrease as time goes on, where there is
one; where the times before and after are measured right, it increases with a hundredth of a
second. -/
theorem advAge_iff (norm1 : t1.Normalised) (norm2 : t2.Normalised)
    (later : t2.micros ≤ t1.micros) :
    (MeasuresElapsed t1 t2 ↔ NearWholeSeconds t1 t2) ∧
      ∀ t1' : Timeval, t1'.Normalised → t1.micros ≤ t1'.micros →
        ∀ centi centi', advAge t1 t2 = some centi → advAge t1' t2 = some centi' →
          centi ≤ centi' ∧
            (MeasuresElapsed t1 t2 → MeasuresElapsed t1' t2 →
              t1.micros + 10000 ≤ t1'.micros → centi < centi') := by
  refine ⟨measuresElapsed_iff norm1 norm2 later, ?_⟩
  intro t1' norm1' on centi centi' age age'
  obtain ⟨here, there, ordered⟩ := advAge_mono norm1 norm2 norm1' later on age age'
  refine ⟨ordered, fun right right' apart => ?_⟩
  have short := ((measuresElapsed_iff norm1 norm2 later).mp right).1
  have short' := ((measuresElapsed_iff norm1' norm2 (later.trans on)).mp right').1
  omega

/-- Two seconds are measured right, and three after them. -/
theorem advAge_iff_two :
    MeasuresElapsed ⟨2, 0⟩ ⟨0, 0⟩ ∧ ∃ centi centi', advAge ⟨2, 0⟩ ⟨0, 0⟩ = some centi ∧
      advAge ⟨3, 0⟩ ⟨0, 0⟩ = some centi' ∧ centi ≤ centi' := by
  have both := @advAge_iff ⟨2, 0⟩ ⟨0, 0⟩ (by decide) (by decide) (by decide)
  have two : advAge ⟨2, 0⟩ ⟨0, 0⟩ = some 200 := by decide +kernel
  have three : advAge ⟨3, 0⟩ ⟨0, 0⟩ = some 300 := by decide +kernel
  exact ⟨both.1.mpr ⟨by decide, by decide⟩, 200, 300, two, three,
    (both.2 ⟨3, 0⟩ (by decide) (by decide) 200 300 two three).1⟩

/-- **Half a second is no time at all**: its microseconds are dropped. -/
theorem advAge_half :
    advAge ⟨0, 500000⟩ ⟨0, 0⟩ = some 0 ∧ ¬ MeasuresElapsed ⟨0, 500000⟩ ⟨0, 0⟩ := by
  refine ⟨by decide +kernel, ?_⟩
  rw [measuresElapsed_iff (by decide) (by decide) (by decide)]
  exact fun near => absurd near.1 (by decide)

end VrrpDaemon
