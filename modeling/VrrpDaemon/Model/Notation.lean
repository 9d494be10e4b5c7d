import VrrpDaemon.Machine.Bytes

/-!
# Addresses as texts

IPv4 addresses in decimal, with points, and Ethernet addresses in hexadecimal, with colons,
as `inet_ntoa`, `inet_addr`, `inet_pton` and `ether_aton` of the C library write and read
them, and IPv6 addresses as `inet_ntop` writes them. An address is the list of its bytes, in
the order of the network.
-/

set_option autoImplicit false

namespace VrrpDaemon

open Machine

/-! ## Numbers -/

/-- A decimal digit. -/
def decimalDigit (digit : UInt8) : Option Nat :=
  if 48 ≤ digit ∧ digit ≤ 57 then some (digit.toNat - 48) else none

/-- A hexadecimal digit, of either case. -/
def hexDigit (digit : UInt8) : Option Nat :=
  if 97 ≤ digit ∧ digit ≤ 102 then some (digit.toNat - 87)
  else if 65 ≤ digit ∧ digit ≤ 70 then some (digit.toNat - 55)
  else decimalDigit digit

/-- The value of some digits. -/
def digitsValue (base : Nat) (digits : List Nat) : Nat :=
  digits.foldl (fun value digit => value * base + digit) 0

/-- A number of a byte in decimal, without leading zeros. -/
def octet (text : List UInt8) : Option UInt8 := do
  let digits ← text.mapM decimalDigit
  let value := digitsValue 10 digits
  if digits = [] ∨ (digits.head? = some 0 ∧ digits.length > 1) ∨ value > 255 then none
  else some (UInt8.ofNat value)

/-- A number of a byte in hexadecimal, of one or two digits. -/
def hexOctet (text : List UInt8) : Option UInt8 := do
  let digits ← text.mapM hexDigit
  if digits = [] ∨ digits.length > 2 then none else some (UInt8.ofNat (digitsValue 16 digits))

/-- A byte in decimal. -/
def decimal (byte : UInt8) : List UInt8 :=
  let digit n := UInt8.ofNat (48 + n)
  let n := byte.toNat
  if n < 10 then [digit n]
  else if n < 100 then [digit (n / 10), digit (n % 10)]
  else [digit (n / 100), digit (n / 10 % 10), digit (n % 10)]

/-! ## Addresses -/

/-- `.`. -/
def point : UInt8 := 46

/-- `:`. -/
def colon : UInt8 := 58

/-- The bytes of an IPv4 address. -/
def quad (text : List UInt8) : Option (List UInt8) := do
  let octets ← (text.splitOn point).mapM octet
  if octets.length = 4 then some octets else none

/-- `inet_ntoa`. -/
def inetNtoa (address : List UInt8) : List UInt8 := [point].intercalate (address.map decimal)

/-- `inet_addr` of a text in four decimal parts; other texts have the value `INADDR_NONE` here,
also those in fewer parts, octal or hexadecimal, which `inet_addr` knows. -/
def inetAddr (text : List UInt8) : List UInt8 := (quad text).getD [255, 255, 255, 255]

/-- `ether_aton`; the null pointer for a text that is no address is none. -/
def etherAton (text : List UInt8) : Option (List UInt8) := do
  let octets ← (text.splitOn colon).mapM hexOctet
  if octets.length = 6 then some octets else none

/-! ## IPv6 addresses -/

/-- The 16-bit numbers of an address. -/
def addressWords : List UInt8 → List Nat
  | high :: low :: rest => (high.toNat * 256 + low.toNat) :: addressWords rest
  | _ => []

/-- A 16-bit number in hexadecimal, without leading zeros. -/
def hexadecimal (word : Nat) : List UInt8 :=
  let digit n := UInt8.ofNat (if n < 10 then 48 + n else 87 + n)
  if word < 16 then [digit word]
  else if word < 256 then [digit (word / 16), digit (word % 16)]
  else if word < 4096 then [digit (word / 256), digit (word / 16 % 16), digit (word % 16)]
  else [digit (word / 4096), digit (word / 256 % 16), digit (word / 16 % 16), digit (word % 16)]

/-- A run of zeros in an address. -/
structure ZeroRun where
  base : Nat
  len : Nat
  deriving DecidableEq

/-- The longer one of two runs, the first of two that are equally long. -/
def longerRun : Option ZeroRun → Option ZeroRun → Option ZeroRun
  | best, none => best
  | none, some cur => some cur
  | some best, some cur => if cur.len > best.len then some cur else some best

/-- The search for the longest run of zeros, from the `i`-th number on. -/
def zeroRunLoop : Nat → List Nat → Option ZeroRun → Option ZeroRun → Option ZeroRun
  | _, [], cur, best => longerRun best cur
  | i, 0 :: words, none, best => zeroRunLoop (i + 1) words (some ⟨i, 1⟩) best
  | i, 0 :: words, some cur, best => zeroRunLoop (i + 1) words (some ⟨cur.base, cur.len + 1⟩) best
  | i, (_ + 1) :: words, cur, best => zeroRunLoop (i + 1) words none (longerRun best cur)

/-- The zeros that are written as `::`, which are two at least. -/
def zeroRun (words : List Nat) : Option ZeroRun :=
  (zeroRunLoop 0 words none none).filter (·.len ≥ 2)

/-- The `i`-th number is one of the run. -/
def ZeroRun.covers (run : ZeroRun) (i : Nat) : Bool := run.base ≤ i && i < run.base + run.len

/-- The address has an IPv4 address in it, which is written with points. -/
def embedsIpv4 (best : Option ZeroRun) (words : List Nat) : Bool :=
  match best with
  | some run => run.base = 0 && (run.len = 6 || run.len = 5 && words[5]? = some 65535)
  | none => false

/-- The texts of the numbers, from the `i`-th one on, each with the colon before it; `tail`
has the text of the IPv4 address if there is one. -/
def inetNtop6Loop (best : Option ZeroRun) (tail : Option (List UInt8)) :
    Nat → List Nat → List UInt8
  | _, [] => []
  | i, word :: words =>
      if best.any (·.covers i) then
        (if best.any (·.base = i) then [colon] else []) ++ inetNtop6Loop best tail (i + 1) words
      else
        (if i ≠ 0 then [colon] else []) ++
          match if i = 6 then tail else none with
          | some quad => quad
          | none => hexadecimal word ++ inetNtop6Loop best tail (i + 1) words

/-- `inet_ntop` for `AF_INET6`: lower case, the longest run of zeros as `::`. -/
def inetNtop6 (address : List UInt8) : List UInt8 :=
  let words := addressWords address
  let best := zeroRun words
  let tail := if embedsIpv4 best words then some (inetNtoa (address.drop 12)) else none
  inetNtop6Loop best tail 0 words ++
    if best.any (fun run => run.base + run.len = 8) then [colon] else []

example : inetNtoa [192, 168, 1, 6] = ascii "192.168.1.6" := by decide

example : etherAton (ascii "00:15:F2:3B:1F:13") = some [0, 21, 242, 59, 31, 19] := by decide

example : inetNtop6 [32, 1, 13, 184, 0, 0, 0, 0, 0, 0, 0, 0, 0, 10, 255, 1] =
    ascii "2001:db8::a:ff01" := by decide

example : inetNtop6 [0, 0, 0, 0, 0, 0, 0, 0, 0, 0, 255, 255, 192, 168, 1, 6] =
    ascii "::ffff:192.168.1.6" := by decide

end VrrpDaemon
