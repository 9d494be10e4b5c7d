import VrrpDaemon.Model.CommandCodec

/-!
# The memory of the addresses

A VR's record holds the addresses themselves, where the program holds a pointer
`vr_ip` to them. The pointer of a request designates an array in the buffer that
the request was received into. `vrrp_create_vr` allocates a block of its own and
copies the array there (`Memory.copyVrIp`): the new VR's pointer designates the
same addresses (`Memory.vrIp_copyVrIp`), whatever is written later to memory that
was in use before (`Memory.vrIp_copyVrIp_apart`).
-/

set_option autoImplicit false

namespace VrrpDaemon

open Machine

/-- The memory of the daemon: its bytes, and the end of what is in use. -/
structure Memory where
  bytes : Buffer
  top : Nat

namespace Memory

/-- `malloc`, where it succeeds: a block that is not in use. -/
def malloc (m : Memory) (size : Nat) : Nat × Memory := (m.top, { m with top := m.top + size })

/-- `memcpy`. -/
def memcpy (m : Memory) (dest src len : Nat) : Memory :=
  { m with bytes := m.bytes.put dest (m.bytes.slice src len) }

/-- The addresses that a pointer `vr_ip` designates. -/
def vrIp (m : Memory) (p : Nat) (vrIpnum : UInt8) : List UInt32 :=
  Cell.word.loads m.bytes p vrIpnum.toNat

/-- The end of `vrrp_create_vr`, where `malloc` succeeds: the pointer that is stored
in the new VR. -/
def copyVrIp (m : Memory) (vrIp : Nat) (vrIpnum : UInt8) : Nat × Memory :=
  let ipLength := vrIpnum.toNat * 4
  let (block, m) := m.malloc ipLength
  (block, m.memcpy block vrIp ipLength)

variable {m m' : Memory} {p : Nat} {vrIpnum : UInt8}

/-- The parser of a request reads the addresses at its pointer. -/
theorem scanVrIp_run :
    (scanVrIp vrIpnum).run m.bytes p = .ok (m.vrIp p vrIpnum, p + vrIpnum.toNat * 4) :=
  Scan.cells_run ..

/-- The new pointer designates the addresses of the request. -/
theorem vrIp_copyVrIp :
    (m.copyVrIp p vrIpnum).2.vrIp (m.copyVrIp p vrIpnum).1 vrIpnum = m.vrIp p vrIpnum :=
  Cell.loads_put_slice

/-- **The addresses are stored apart**: they do not change with memory that was in
use before. -/
theorem vrIp_copyVrIp_apart
    (same : ∀ i, m.top ≤ i → m'.bytes i = (m.copyVrIp p vrIpnum).2.bytes i) :
    m'.vrIp (m.copyVrIp p vrIpnum).1 vrIpnum = m.vrIp p vrIpnum :=
  (Cell.loads_congr fun i low _ => same i low).trans vrIp_copyVrIp

end Memory

end VrrpDaemon
