import VrrpDaemon.Machine.Numbers

/-!
# Elapsed time

`timeval_delta` and `timeval_to_centi` of `libvrrp.c`, and the times that `dump_vrrp_vr`
computes with them: how old the last advertisement is, and when the master counts as down.

`tv_sec` and `tv_usec` are of type `long`. A result is none where C leaves it undefined: a
signed overflow, or a double outside of `int`.
-/

set_option autoImplicit false

namespace VrrpDaemon

open Machine

/-- `struct timeval`. -/
structure Timeval where
  tvSec : Int
  tvUsec : Int
  deriving DecidableEq

/-- The time in microseconds. -/
def Timeval.micros (t : Timeval) : Int := t.tvSec * 1000000 + t.tvUsec

/-- The microseconds are less than a second. -/
def Timeval.Normalised (t : Timeval) : Prop := 0 ≤ t.tvUsec ∧ t.tvUsec < 1000000

instance (t : Timeval) : Decidable t.Normalised := inferInstanceAs (Decidable (_ ∧ _))

/-- `timeval_delta`. -/
def timevalDelta (t1 t2 : Timeval) : Option Timeval := do
  let sec ← signed 64 (t1.tvSec - t2.tvSec)
  let usec ← signed 64 (t1.tvUsec - t2.tvUsec)
  if usec < 0 then
    let usec ← signed 64 (usec + 1000000)
    let sec ← signed 64 (sec - 1)
    return ⟨sec, usec⟩
  else return ⟨sec, usec⟩

/-- `timeval_to_centi`. The `long` becomes a double when `0.5` is added to it, and the sum an
`int` when it is returned. -/
def timevalToCenti (tv : Timeval) : Option Int := do
  let hundredths ← signed 64 (tv.tvSec * 100)
  let n ← signed 64 (hundredths + Int.tdiv tv.tvUsec 1000000)
  -- counted in halves, the sum is an integer; it has as many significant bits
  let halves := double (2 * double n + 1)
  signed 32 (Int.tdiv halves 2)

/-- `aage`, the age of an advertisement. -/
def advAge (now timestamp : Timeval) : Option Int := do
  let delta ← timevalDelta now timestamp
  timevalToCenti delta

/-- What `dump_vrrp_vr` reads of the last advertisement: `ai_timestamp` and `ai_interval`. -/
structure VrrpVrAdvinfo where
  timestamp : Timeval
  interval : Int
  deriving DecidableEq

/-- The times that `dump_vrrp_vr` computes: `aage`, `skew`, `mdi`, and the `master_down_timer`
that is left of `mdi`. -/
structure AdvTimes where
  aage : Int
  skew : Int
  mdi : Int
  mdt : Int
  deriving DecidableEq

/-- The computation of `dump_vrrp_vr`. -/
def advTimes (now : Timeval) (advinfo : VrrpVrAdvinfo) (pri : UInt8) : Option AdvTimes := do
  let aage ← advAge now advinfo.timestamp
  let scaled ← signed 32 (advinfo.interval * (256 - pri.toNat))
  let skew := Int.tdiv scaled 256
  let tripled ← signed 32 (advinfo.interval * 3)
  let mdi ← signed 32 (tripled + skew)
  let mdt ← signed 32 (mdi - aage)
  return ⟨aage, skew, mdi, mdt⟩

end VrrpDaemon
