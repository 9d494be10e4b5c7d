import VrrpDaemon.Behaviour.Timeouts
import VrrpDaemon.Model.System

/-!
# The arithmetic of the timeouts

The interval of an instance is any positive number of seconds. Its product with
1000000 is computed in `int`, and three times the product where a backup is
armed; both are stored in 32 bits. The first leaves `int` from 2148 seconds on
(`IntervalExact`), the second from 716 (`MasterDownExact`), and nothing in
`vrrp_create_inst` keeps an interval below that.

The skew is to order the backups by priority (`SkewOrders`). It is divided before
it is scaled, so that it is 0 for every priority that an instance can have, and
never orders anything.
-/

set_option autoImplicit false

namespace VrrpDaemon

open Machine

/-- A value of the type `int`. -/
def InInt (x : Int) : Prop := -2 ^ 31 ≤ x ∧ x < 2 ^ 31

namespace Daemon

/-! ## Overflow -/

/-- An advertisement interval as its sites compute it: the transitions, from the instance, and
`signal_alarm` (like `vrrp_process_incoming_adv` for priority 0), from the VR. -/
def IntervalTimeout (s : Daemon) (v : DsPtr) (timeout : UInt32) : Prop :=
  timeout = s.advTimeout v ∨
    timeout = toTimeout (vrrpSec2usec (s.vrs (s.ds v).vr).attr.delay)

/-- The product is a value of `int`, wherever an instance has this interval it is
the timeout that is stored at each site, and shorter intervals have smaller timeouts. -/
structure IntervalExact (delay : Int) : Prop where
  fits : InInt (vrrpSec2usec delay)
  stored : ∀ (s : Daemon) v timeout, s.vrrpDelay v = delay → s.IntervalTimeout v timeout →
    (timeout.toNat : Int) = vrrpSec2usec delay
  grows : ∀ (s t : Daemon) v u long brief, s.vrrpDelay v = delay → 0 < t.vrrpDelay u →
    t.vrrpDelay u < delay → s.IntervalTimeout v long → t.IntervalTimeout u brief → brief < long

/-- A timeout of a backup as both of its sites compute it: that of `vrrp_enqueue`,
and that of `vrrp_process_incoming_adv` for an advertisement of another priority
than 0. -/
def BackupTimeout (s : Daemon) (v : DsPtr) (timeout : UInt32) : Prop :=
  ((s.ds v).state = .back ∧ ∃ stored, timeout = s.enqueueTimeout v stored) ∨
    ∃ received, received ≠ 0 ∧ timeout = s.skewTimeout (s.ds v).vr received

/-- The products and the sum are values of `int`, at both sites the sum is the
timeout that is stored, and shorter intervals have smaller timeouts. -/
structure MasterDownExact (delay : Int) (pri : UInt8) : Prop where
  fits : InInt (vrrpSec2usec delay) ∧ InInt (3 * vrrpSec2usec delay) ∧
    InInt (3 * vrrpSec2usec delay + skewOf pri)
  stored : ∀ (s : Daemon) v timeout, s.vrrpDelay v = delay → s.vrrpPri v = pri →
    s.BackupTimeout v timeout → (timeout.toNat : Int) = 3 * vrrpSec2usec delay + skewOf pri
  grows : ∀ (s t : Daemon) v u timeout shorter, s.vrrpDelay v = delay → s.vrrpPri v = pri →
    t.vrrpPri u = pri → 0 < t.vrrpDelay u → t.vrrpDelay u < delay →
    s.BackupTimeout v timeout → t.BackupTimeout u shorter → shorter < timeout

variable {s t : Daemon} {v u : DsPtr} {delay : Int} {pri : UInt8} {timeout : UInt32}

theorem BackupTimeout.eq (backup : s.BackupTimeout v timeout) :
    timeout = masterDown (s.vr v).attr := by
  rcases backup with ⟨backup, stored, rfl⟩ | ⟨received, regular, rfl⟩
  · exact enqueueTimeout_back backup
  · exact skewTimeout_regular regular

/-- All sites agree. -/
theorem IntervalTimeout.eq (interval : s.IntervalTimeout v timeout) : timeout = s.advTimeout v := by
  rcases interval with rfl | rfl <;> rfl

/-- Up to 2147 seconds the product is stored as it is. -/
theorem toNat_interval (positive : 0 < delay) (short : delay ≤ 2147) :
    ((toTimeout (vrrpSec2usec delay)).toNat : Int) = delay * 1000000 := by
  apply toNat_toTimeout_iff.mpr
  rw [vrrpSec2usec]
  omega

theorem intervalExact_of_le (positive : 0 < delay) (short : delay ≤ 2147) :
    IntervalExact delay where
  fits := by
    rw [InInt, vrrpSec2usec]
    omega
  stored s v timeout same interval := by
    rw [interval.eq, advTimeout, same]
    exact toNat_interval positive short
  grows s t v u longer shorter same least less ofLonger ofShorter := by
    rw [ofLonger.eq, ofShorter.eq]
    have long := toNat_interval positive short
    have brief := toNat_interval least (by omega : t.vrrpDelay u ≤ 2147)
    rw [UInt32.lt_iff_toNat_lt, advTimeout, advTimeout, same]
    omega

theorem skewOf_bounds (pri : UInt8) : 0 ≤ skewOf pri ∧ skewOf pri ≤ 1000000 := by
  rw [skewOf_eq]
  split <;> omega

/-- Up to 715 seconds the Master_Down_Interval is stored as it is. -/
theorem toNat_masterDown {attr : VrrpAttr} (positive : 0 < attr.delay) (short : attr.delay ≤ 715) :
    ((masterDown attr).toNat : Int) = 3 * (attr.delay * 1000000) + skewOf attr.pri := by
  have bounds := skewOf_bounds attr.pri
  apply toNat_toTimeout_iff.mpr
  rw [vrrpSec2usec]
  omega

theorem masterDownExact_of_le (positive : 0 < delay) (short : delay ≤ 715) :
    MasterDownExact delay pri where
  fits := by
    have bounds := skewOf_bounds pri
    simp only [InInt, vrrpSec2usec]
    omega
  stored s v timeout same samePri backup := by
    subst same
    subst samePri
    rw [backup.eq]
    exact toNat_masterDown positive short
  grows s t v u timeout shorter same samePri otherPri least less long brief := by
    subst same
    have longer := toNat_masterDown positive short
    have briefer := toNat_masterDown least (by omega : t.vrrpDelay u ≤ 715)
    have alike : skewOf (s.vr v).attr.pri = skewOf (t.vr u).attr.pri :=
      congrArg skewOf (samePri.trans otherPri.symm)
    rw [UInt32.lt_iff_toNat_lt, long.eq, brief.eq]
    simp only [vrrpDelay] at less
    omega

/-- **The timeouts are exact up to a bound of each site.** For every positive
interval and every priority: the advertisement interval is computed without
overflow if and only if it has at most 2147 seconds, and the Master_Down_Interval
if and only if the interval has at most 715. -/
theorem timeouts_exact_iff (delay : Int) (pri : UInt8) (positive : 0 < delay) :
    (IntervalExact delay ↔ delay ≤ 2147) ∧ (MasterDownExact delay pri ↔ delay ≤ 715) := by
  refine ⟨⟨fun exact => ?_, intervalExact_of_le positive⟩,
    ⟨fun exact => ?_, masterDownExact_of_le positive⟩⟩
  · have fits := exact.fits
    simp only [InInt, vrrpSec2usec] at fits
    omega
  · have fits := exact.fits.2.1
    simp only [InInt, vrrpSec2usec] at fits
    omega

/-- An interval of one second. -/
theorem timeouts_exact_second :
    (0 : Int) < 1 ∧ IntervalExact 1 ∧ MasterDownExact 1 100 :=
  have exact := timeouts_exact_iff 1 100 (by decide)
  ⟨by decide, exact.1.mpr (by decide), exact.2.mpr (by decide)⟩

/-- A request for an instance with this interval. -/
def VrrpInst.every (delay : Int) : VrrpInst :=
  { VrrpInst.sample 7 100 with viVa := ⟨100, delay, 1, 0⟩ }

/-- **An interval of 4295 seconds is admitted**, and its timeout comes out as less
than a second; that of a backup with 716 seconds overflows as well. -/
theorem timeouts_inexact :
    (∃ s : Daemon, initial.vrrpCreateInst .plain (VrrpInst.every 4295) =
        .ok (VrrpRet.success.code, some 1, s) ∧
      s.vrrpDelay 1 = 4295 ∧ (s.advTimeout 1).toNat = 32704 ∧ ¬ IntervalExact 4295) ∧
      (∃ s : Daemon, initial.vrrpCreateInst .plain (VrrpInst.every 716) =
          .ok (VrrpRet.success.code, some 1, s) ∧ s.vrrpDelay 1 = 716 ∧
        ¬ MasterDownExact 716 100) := by
  refine ⟨⟨_, rfl, rfl, rfl, fun exact => ?_⟩, ⟨_, rfl, rfl, fun exact => ?_⟩⟩
  · exact absurd exact.fits.2 (by decide)
  · exact absurd exact.fits.2.1.2 (by decide)

/-! ## The skew -/

/-- To within one microsecond the timeout is three intervals and a skew of
`(256 - pri) / 256` seconds. -/
def NearMasterDown (delay : Int) (pri : UInt8) (timeout : UInt32) : Prop :=
  (256 * (timeout.toNat : Int) -
    (256 * (3 * vrrpSec2usec delay) + vrrpSec2usec (256 - pri.toNat))).natAbs ≤ 256

/-- Of two backups with this interval, the one of the higher priority is armed for
the shorter time, and each for its Master_Down_Interval. -/
structure SkewOrders (delay : Int) (high low : UInt8) (ofHigh ofLow : UInt32) : Prop where
  order : ofHigh < ofLow
  nearHigh : NearMasterDown delay high ofHigh
  nearLow : NearMasterDown delay low ofLow

theorem masterDown_eq {attr : VrrpAttr} (real : attr.pri ≠ 0) :
    masterDown attr = toTimeout (3 * vrrpSec2usec attr.delay) := by
  rw [masterDown, skewOf_eq, if_neg real, Int.add_zero]

/-- Without overflow the timeout misses its interval by the whole skew. -/
theorem not_nearMasterDown {attr : VrrpAttr} (positive : 0 < attr.delay)
    (noOverflow : InInt (3 * vrrpSec2usec attr.delay)) (real : attr.pri ≠ 0) :
    ¬ NearMasterDown attr.delay attr.pri (masterDown attr) := by
  have bound := attr.pri.toNat_lt
  simp only [InInt, vrrpSec2usec] at noOverflow
  rw [masterDown_eq real, NearMasterDown, toNat_toTimeout]
  simp only [vrrpSec2usec]
  omega

/-- **The skew never orders backups.** For every two backups of one interval
without overflow, whatever their priorities from 1 on: at neither site does the
one of the higher priority get a shorter timeout, and at neither site is either
timeout the Master_Down_Interval. -/
theorem skew_never_orders (s t : Daemon) (v u : DsPtr) (ofHigh ofLow : UInt32)
    (high : s.BackupTimeout v ofHigh) (low : t.BackupTimeout u ofLow)
    (positive : 0 < s.vrrpDelay v) (same : t.vrrpDelay u = s.vrrpDelay v)
    (noOverflow : InInt (3 * vrrpSec2usec (s.vrrpDelay v)))
    (real : t.vrrpPri u ≠ 0) (greater : t.vrrpPri u < s.vrrpPri v) :
    ¬ SkewOrders (s.vrrpDelay v) (s.vrrpPri v) (t.vrrpPri u) ofHigh ofLow ∧
      ¬ ofHigh < ofLow ∧ ¬ NearMasterDown (s.vrrpDelay v) (s.vrrpPri v) ofHigh ∧
      ¬ NearMasterDown (t.vrrpDelay u) (t.vrrpPri u) ofLow := by
  have realHigh : s.vrrpPri v ≠ 0 := fun zero => by
    rw [zero] at greater
    exact UInt8.not_lt_zero greater
  have alike : ofHigh = ofLow := by
    rw [high.eq, low.eq, masterDown_eq realHigh, masterDown_eq real]
    exact congrArg (fun delay => toTimeout (3 * vrrpSec2usec delay)) same.symm
  have unordered : ¬ ofHigh < ofLow := alike ▸ UInt32.lt_irrefl ofLow
  refine ⟨fun orders => unordered orders.order, unordered, ?_, ?_⟩
  · rw [high.eq]
    exact not_nearMasterDown positive noOverflow realHigh
  · rw [low.eq]
    rw [← same] at positive noOverflow
    exact not_nearMasterDown positive noOverflow real

/-- The instance is a backup of this priority, with an interval of one second. -/
def isBackup (s : Daemon) (v : DsPtr) (pri : UInt8) : Bool :=
  (s.ds v).state == .back && s.vrrpDelay v == 1 && s.vrrpPri v == pri

/-- A run that leaves an instance of this priority in `BACK`, because another VRID is
up. -/
def backupRun (pri : UInt8) : List Op := [.create 7 pri, .hear 9 50, .startup 7]

theorem exists_backup {pri : UInt8} (ran : passes (fun s => s.isBackup 1 pri)
    (exec (step .plain) (backupRun pri) initial) = true) :
    ∃ s : Daemon, Reachable .plain s ∧ (s.ds 1).state = .back ∧ s.vrrpDelay 1 = 1 ∧
      s.vrrpPri 1 = pri := by
  obtain ⟨s, returns, tested⟩ := exists_of_passes ran
  simp only [isBackup, Bool.and_eq_true, beq_iff_eq] at tested
  exact ⟨s, ⟨_, run_of_exec returns⟩, tested.1.1, tested.1.2, tested.2⟩

/-- Two backups of the priorities 200 and 100. -/
theorem skew_never_orders_pair : ∃ s t : Daemon, Reachable .plain s ∧ Reachable .plain t ∧
    ¬ SkewOrders (s.vrrpDelay 1) (s.vrrpPri 1) (t.vrrpPri 1) (s.enqueueTimeout 1 0)
      (t.enqueueTimeout 1 0) := by
  obtain ⟨s, reachable, backup, delay, pri⟩ := @exists_backup 200 (by decide +kernel)
  obtain ⟨t, reachable', backup', delay', pri'⟩ := @exists_backup 100 (by decide +kernel)
  refine ⟨s, t, reachable, reachable', (skew_never_orders s t 1 1 _ _ (.inl ⟨backup, 0, rfl⟩)
    (.inl ⟨backup', 0, rfl⟩) ?_ ?_ ?_ ?_ ?_).1⟩
  · rw [delay]
    decide
  · rw [delay, delay']
  · rw [delay]
    exact ⟨by decide, by decide⟩
  · rw [pri']
    decide
  · rw [pri, pri']
    decide

/-- **The backup of priority 200 waits as long as the one of priority 100**, three
seconds, at both sites. -/
theorem skew_lost : ∃ s t : Daemon, Reachable .plain s ∧ Reachable .plain t ∧
    (s.ds 1).state = .back ∧ (t.ds 1).state = .back ∧ s.vrrpPri 1 = 200 ∧ t.vrrpPri 1 = 100 ∧
    s.vrrpDelay 1 = 1 ∧ t.vrrpDelay 1 = 1 ∧
    s.enqueueTimeout 1 0 = 3000000 ∧ t.enqueueTimeout 1 0 = 3000000 ∧
    s.skewTimeout (s.ds 1).vr 1 = 3000000 ∧ t.skewTimeout (t.ds 1).vr 1 = 3000000 ∧
    ¬ SkewOrders 1 200 100 3000000 3000000 := by
  obtain ⟨s, reachable, backup, delay, pri⟩ := @exists_backup 200 (by decide +kernel)
  obtain ⟨t, reachable', backup', delay', pri'⟩ := @exists_backup 100 (by decide +kernel)
  have computed : ∀ attr : VrrpAttr, attr.delay = 1 → attr.pri ≠ 0 → masterDown attr = 3000000 :=
    fun attr second real => by
      rw [masterDown_eq real, second]
      rfl
  have first : masterDown (s.vr 1).attr = 3000000 :=
    computed _ delay (by rw [show (s.vr 1).attr.pri = 200 from pri]; decide)
  have second : masterDown (t.vr 1).attr = 3000000 :=
    computed _ delay' (by rw [show (t.vr 1).attr.pri = 100 from pri']; decide)
  refine ⟨s, t, reachable, reachable', backup, backup', pri, pri', delay, delay', ?_, ?_, ?_, ?_,
    fun orders => absurd orders.order (by decide)⟩
  · exact (enqueueTimeout_back backup).trans first
  · exact (enqueueTimeout_back backup').trans second
  · exact (skewTimeout_regular (by decide)).trans first
  · exact (skewTimeout_regular (by decide)).trans second

end Daemon

end VrrpDaemon
