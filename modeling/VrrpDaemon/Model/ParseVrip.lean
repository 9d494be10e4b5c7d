import VrrpDaemon.Machine.Items
import VrrpDaemon.Model.AddressBlock

/-!
# Parsing a list of addresses

`parse_vrip` of `vrrpadm.c` counts the commas of its argument for the number of addresses,
and stores the tokens of `strtok`, which passes over empty items. The block for the
addresses is allocated with the first one, once that is seen to be valid.

`inet_pton` is a parameter: which texts are IPv4 addresses, as words in memory, where the
empty text is none.
-/

set_option autoImplicit false

namespace VrrpDaemon

open Machine

/-- `inet_pton` for `AF_INET`. -/
structure InetPton where
  parse : List UInt8 → Option UInt32
  empty : parse [] = none

/-- `,`. -/
def comma : UInt8 := 44

/-- The size of the array `str` of `parse_vrip`. -/
def vripStrSize : Nat := 256

/-- The fields of a `vrrp_vr_t` that `parse_vrip` stores, with the pointer `vr_ip`. -/
structure VripFields where
  vrAf : Int
  vrIpnum : UInt8
  vrIp : Option Nat
  deriving DecidableEq

/-- The record and the memory that its pointer designates. -/
structure VripState where
  v : VripFields
  m : Memory

namespace VripState

/-- What is done for the first token: the family, and a block for `num` addresses, unless
`malloc` fails. The result is none where the token is no address. -/
def allocVrIp (pton : InetPton) (got : Bool) (num : Nat) (p : List UInt8) (s : VripState) :
    Option VripState :=
  match pton.parse p with
  | none => none
  | some _ =>
      let v := { s.v with vrAf := afInet }
      if got then
        let (block, m) := s.m.malloc (num * 4)
        some { v := { v with vrIp := some block }, m }
      else some { s with v := { v with vrIp := none } }

/-- The loop over the tokens, from the `i`-th one on. -/
def vripLoop (pton : InetPton) (got : Bool) (num : Nat) :
    List (List UInt8) → Nat → VripState → Result (Int × VripState)
  | [], _, s => .ok (0, { s with v := { s.v with vrIpnum := UInt8.ofNat num } })
  | p :: later, i, s =>
      match if i = 0 then s.allocVrIp pton got num p else some s with
      | none => .ok (-1, s)
      | some s =>
          match pton.parse p with
          | none => .ok (-1, s)
          | some address => do
              let block ← deref s.v.vrIp
              let bytes := Cell.word.store (block + i * 4) address s.m.bytes
              vripLoop pton got num later (i + 1) { s with m := { s.m with bytes } }

/-- `parse_vrip`. -/
def parseVrip (pton : InetPton) (got : Bool) (addrStr : CString) (s : VripState) :
    Result (Int × VripState) :=
  if addrStr.val.length < vripStrSize then
    let str := addrStr.val
    let num := 1 + str.count comma
    vripLoop pton got num (strtoks comma (str.length + 1) str) 0 s
  else .error .overflow

end VripState

end VrrpDaemon
