import VrrpDaemon.Model.Types
import VrrpDaemon.Machine.Bytes

/-!
# The checksum

`ComputeChecksum` of `vrrpd_adv.c`, which `sender.c` and `router.c` repeat. The
variable `sum` is a `long` of 64 bits; the words are `unsigned short`, read in the
order of a little-endian machine. An accumulator keeps, next to the value of `sum`,
the values that were assigned to it.
-/

set_option autoImplicit false

namespace VrrpDaemon

open Machine

/-- The variable `sum`, with the values that it was given. -/
structure Accumulator where
  sum : BitVec 64
  assigned : List (BitVec 64)

namespace Accumulator

/-- An assignment to `sum`. -/
def assign (a : Accumulator) (value : BitVec 64) : Accumulator where
  sum := value
  assigned := a.assigned ++ [value]

/-- `long sum = 0`. -/
def start : Accumulator := ⟨0, [0]⟩

/-- `sum += x`. -/
def plus (a : Accumulator) (x : Nat) : Accumulator := a.assign (a.sum + BitVec.ofNat 64 x)

/-- `sum = (sum & 0xFFFF) + (sum >> 16)`. -/
def fold (a : Accumulator) : Accumulator :=
  a.assign ((a.sum &&& 0xFFFF#64) + a.sum.sshiftRight 16)

end Accumulator

/-- The loop `while (len > 1)`, with what is left of the data. -/
def sumWords : List UInt8 → Accumulator → Accumulator × List UInt8
  | low :: high :: data, a =>
      let a := a.plus (ofLe [low, high])
      -- if high order bit set, fold
      sumWords data (if a.sum &&& 0x80000000#64 ≠ 0 then a.fold else a)
  | data, a => (a, data)

/-- The byte that is left over. -/
def sumLast : List UInt8 → Accumulator → Accumulator
  | [], a => a
  | byte :: _, a => a.plus byte.toNat

/-- The loop `while (sum >> 16)`. -/
def foldCarries : Nat → Accumulator → Result Accumulator
  | fuel, a =>
      if a.sum.sshiftRight 16 ≠ 0 then
        match fuel with
        | 0 => .error .diverges
        | fuel + 1 => foldCarries fuel a.fold
      else .ok a

/-- `ComputeChecksum`: what it returns, with the accumulator at its end. The fuel bounds the
loop that folds the carries. -/
def computeChecksum (fuel : Nat) (data : List UInt8) : Result (UInt16 × Accumulator) := do
  let (a, data) := sumWords data .start
  let a ← foldCarries fuel (sumLast data a)
  return (.ofBitVec ((~~~ a.sum).setWidth 16), a)

end VrrpDaemon
