import VrrpDaemon.Machine.TextField
import VrrpDaemon.Model.Notation
import VrrpDaemon.Model.Types

/-!
# Displaying a virtual router

`dump_vr` of `libvrrp.c`, which the daemon comes to after each command, for the VR of the
first instance of its list. It joins the texts of the VR's addresses in the field `s_ip`, and
prints some lines.

`inet_ntop` looks at as many bytes as the family asks for. The array `vr_ip` has four bytes
for each address, so with `AF_INET6` the last addresses are read beyond it, and the primary
address beyond its field. What memory holds there is a parameter.
-/

set_option autoImplicit false

namespace VrrpDaemon

open Machine

/-- What memory holds behind the array `vr_ip` of a VR, and behind its field `in4`. -/
structure VrSurroundings where
  vrIp : Buffer
  in4 : Buffer

/-- The memory from `vr_ip` on. -/
def VrrpVr.vrIpArray (m : VrSurroundings) (vr : VrrpVr) : Buffer :=
  .holding (vr.vrIp.flatMap Cell.word.encode) m.vrIp

/-- The memory from `in4` on. -/
def VrrpVr.in4Field (m : VrSurroundings) (vr : VrrpVr) : Buffer :=
  .holding (Cell.word.encode vr.in4) m.in4

/-- `INET6_ADDRSTRLEN`, the size of the field `ap`. -/
def inet6Addrstrlen : Nat := 46

/-- The size of the field `s_ip`. -/
def sIpSize : Nat := 256

/-- The size of the field `s_vrid`. -/
def sVridSize : Nat := 8

/-- `inet_ntop`, into a field of some size. The null pointer, for another family or a text
that does not fit, is none. -/
def inetNtop (af : Int) (src : Buffer) (off size : Nat) : Option (List UInt8) :=
  if af = afInet then some (inetNtoa (src.slice off 4)) |>.filter (·.length < size)
  else if af = afInet6 then some (inetNtop6 (src.slice off 16)) |>.filter (·.length < size)
  else none

/-- `af_str`. -/
def afStr (af : Int) : List UInt8 :=
  if af = 4 ∨ af = afInet then ascii "AF_INET"
  else if af = 6 ∨ af = afInet6 then ascii "AF_INET6"
  else if af = afUnspec then ascii "AF_UNSPEC"
  else ascii "AF_error"

/-- `sprintf` of a text into a field. -/
def sprintf (size : Nat) (text : List UInt8) : Result (List UInt8) :=
  if text.length < size then .ok text else .error .overflow

/-- One round of the loop of `dump_vr`: the text of the `i`-th address, and a comma. -/
def dumpAddress (m : VrSurroundings) (vr : VrrpVr) (sIp : Buffer) (i : Nat) : Result Buffer := do
  let ap ← deref (inetNtop vr.vrAf (vr.vrIpArray m) (i * 4) inet6Addrstrlen)
  let sIp ← strcat .overflow sIpSize ap sIp
  strcat .overflow sIpSize (ascii ",") sIp

/-- The loop of `dump_vr`. -/
def dumpAddresses (m : VrSurroundings) (vr : VrrpVr) : Result Buffer :=
  (List.range vr.vrIpnum.toNat).foldlM (dumpAddress m vr) (fun _ => 0)

/-- `dump_vr`: the lines it prints. `printf` writes a null pointer as `(null)`. -/
def dumpVr (m : VrSurroundings) (vr : VrrpVr) : Result (List (List UInt8)) := do
  let sIp ← dumpAddresses m vr
  let _ ← chop .overflow sIpSize sIp
  let sVrid ← sprintf sVridSize (decimal vr.vrId)
  let pip := inetNtop vr.vrAf (vr.in4Field m) 0 inet6Addrstrlen
  return [ascii "INSTANCE VRID: " ++ sVrid, ascii "addr_family: " ++ afStr vr.vrAf,
    ascii "ifname: " ++ vr.vrIfname.bytes, ascii "vr_pip: " ++ pip.getD (ascii "(null)")]

end VrrpDaemon
