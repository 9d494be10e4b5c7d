import VrrpDaemon.Machine.SlotTable
import VrrpDaemon.Model.Notation

/-!
# The forwarding loop of the router

The loop of `main` in `router.c`, with the functions it calls. Each frame is received into
a buffer that was cleared; its payload is what `strlen` finds behind the headers. The
Ethernet address of its destination is looked up in `IP_MAC` and kept in `phy_dst`, which
is not cleared from one frame to the next. The loop of the lookup goes to index 19, and
`IP_MAC` has 10 entries.

What memory holds behind `packet_buffer` and behind `IP_MAC` is left open. So is what becomes of
the heap when a packet is copied beyond its block: `malloc` works on after it, or the program
ends at the next one, which is in `ParseIpHeader`, before the lookup. The copy beyond `in` in
`ParseIpHeader` is taken to have no effect.
-/

set_option autoImplicit false

namespace VrrpDaemon.Router

open Machine

/-! ## The table -/

/-- `struct ip_mac`. -/
structure IpMac where
  mac : List UInt8
  ip : List UInt8
  deriving DecidableEq

/-- `IP_MAC`. -/
def ipMac : List IpMac :=
  [⟨ascii "00:15:f2:3b:20:47", ascii "172.16.101.6"⟩,
    ⟨ascii "00:15:f2:3b:20:9c", ascii "172.16.103.64"⟩,
    ⟨ascii "00:15:f2:3b:1f:65", ascii "172.16.101.7"⟩,
    ⟨ascii "00:15:f2:3b:20:43", ascii "172.16.101.5"⟩,
    ⟨ascii "00:15:F2:3B:1F:13", ascii "172.16.102.17"⟩,
    ⟨ascii "ff:ff:ff:ff:ff:ff", ascii "255.255.255.255"⟩,
    ⟨ascii "00:e0:4d:84:84:c8", ascii "192.168.1.6"⟩,
    ⟨ascii "00:23:4d:4e:96:1c", ascii "192.168.1.4"⟩,
    ⟨ascii "00:1b:77:a7:86:f7", ascii "192.168.1.3"⟩,
    ⟨ascii "00:23:8b:08:1f:15", ascii "192.168.1.10"⟩]

/-- The bound of the loop that looks an address up. -/
def lookupBound : Nat := 20

/-- What the router does not decide: the texts that are read as entry `i` of `IP_MAC` where
it has none, what lies behind `packet_buffer` up to a NUL, `phy_src`, which is an argument of
the program, and whether `malloc` still works after packet `k`, if that is copied beyond its
block. -/
structure RouterWorld where
  beyond : Nat → IpMac
  behind : CString
  phySrc : List UInt8
  survives : Nat → Bool

/-- What is read as entry `i` of `IP_MAC`. -/
def RouterWorld.entry (w : RouterWorld) (i : Nat) : IpMac := (ipMac[i]?).getD (w.beyond i)

/-- The loop that looks up an address, from index `i` on, for a number of rounds: the entry
it finds, and the indices it reads. -/
def lookupLoop (w : RouterWorld) (ipDst : List UInt8) : Nat → Nat → Option IpMac × List Nat
  | 0, _ => (none, [])
  | rounds + 1, i =>
      if (w.entry i).ip = ipDst then (some (w.entry i), [i])
      else
        let (found, reads) := lookupLoop w ipDst rounds (i + 1)
        (found, i :: reads)

/-! ## Frames -/

/-- The size of `packet_buffer`. -/
def packetBufferSize : Nat := 2048

/-- `sizeof(struct ethhdr)`. -/
def sizeofEthhdr : Nat := 14

/-- `sizeof(struct iphdr)`. -/
def sizeofIphdr : Nat := 20

/-- What is received of a frame. -/
def received (frame : List UInt8) : List UInt8 := frame.take packetBufferSize

/-- `packet_buffer` with a frame in it. -/
def packetBuffer (frame : List UInt8) : List UInt8 := fill packetBufferSize 0 (received frame)

/-- `ParseIpHeader`: the text of the destination of a VRRP packet, none for other frames. -/
def parseIpHeader (frame : List UInt8) : Option (List UInt8) :=
  let packet := packetBuffer frame
  -- h_proto
  if (packet.drop 12).take 2 ≠ [8, 0] then none
  else if (received frame).length < sizeofEthhdr + sizeofIphdr then none
  -- protocol
  else if (packet.drop 23).take 1 ≠ [112] then none
  -- daddr
  else some (inetNtoa ((packet.drop 30).take 4))

/-- The bytes from `data` on, up to a NUL. -/
def payloadText (w : RouterWorld) (frame : List UInt8) : List UInt8 :=
  text ((packetBuffer frame).drop (sizeofEthhdr + sizeofIphdr) ++ w.behind.val)

/-! ## Packets -/

/-- `CreateEthernetHeader`; an address that `ether_aton` does not know is a null pointer that
is read through. -/
def createEthernetHeader (srcMac dstMac : List UInt8) : Option (List UInt8) := do
  let source ← etherAton srcMac
  let dest ← etherAton dstMac
  return dest ++ source ++ [8, 0]

/-- `CreateIPHeader`. -/
def createIpHeader (srcIp dstIp : List UInt8) : List UInt8 :=
  -- version and ihl, tos, tot_len, id, frag_off, ttl, protocol, check
  [0x45, 0] ++ [0, 20] ++ [0, 111] ++ [0, 0] ++ [111, 112] ++ [0, 0] ++
    inetAddr srcIp ++ inetAddr dstIp

/-- `SRC1_IP`. -/
def src1Ip : List UInt8 := ascii "192.168.100.22"

/-- `sizeof(pktlen)`, the size of the block that a packet is put together in. -/
def sizeofPktlen : Nat := 4

/-- A packet: the size of its block, and the bytes that are copied there and written. -/
structure Packet where
  allocated : Nat
  bytes : List UInt8

/-- The packet lies inside its block. -/
def Packet.fits (packet : Packet) : Bool := decide (packet.bytes.length ≤ packet.allocated)

/-! ## The loop -/

/-- The variable `phy_dst`, whether the loop still goes on, whether `malloc` still works, and
the number of packets so far. -/
structure RouterState where
  phyDst : List UInt8
  running : Bool
  heap : Bool
  packets : Nat

/-- The start of the loop, with what the stack holds in `phy_dst`. -/
def RouterState.start (phyDst : List UInt8) : RouterState := ⟨phyDst, true, true, 0⟩

/-- What is done for a frame with a destination: the entries of the table that are read, and
the packet that is written. -/
structure Forward where
  frame : List UInt8
  reads : List Nat
  packet : Option Packet

/-- The size of `phy_dst`. -/
def phyDstSize : Nat := 20

/-- `strcpy(phy_dst, IP_MAC[i].mac)` for the entry that was found, if one was; a longer text
overruns the variable. -/
def copyMac (found : Option IpMac) (phyDst : List UInt8) : Option (List UInt8) :=
  match found with
  | none => some phyDst
  | some entry => if entry.mac.length < phyDstSize then some entry.mac else none

/-- The loop body, for a frame with a destination. -/
def forwardFrame (w : RouterWorld) (s : RouterState) (frame ipDst : List UInt8) :
    RouterState × Forward :=
  let (found, reads) := lookupLoop w ipDst lookupBound 0
  match copyMac found s.phyDst with
  | none => ({ s with running := false }, ⟨frame, reads, none⟩)
  | some phyDst =>
      match createEthernetHeader w.phySrc phyDst with
      | none => ({ s with phyDst := phyDst, running := false }, ⟨frame, reads, none⟩)
      | some eth1 =>
          let packet : Packet :=
            ⟨sizeofPktlen, eth1 ++ createIpHeader src1Ip ipDst ++ payloadText w frame⟩
          (⟨phyDst, true, packet.fits || w.survives s.packets, s.packets + 1⟩,
            ⟨frame, reads, some packet⟩)

/-- The loop of `main`, over the frames it receives: what is done for those with a
destination. -/
def routerLoop (w : RouterWorld) : RouterState → List (List UInt8) → List Forward
  | _, [] => []
  | s, frame :: later =>
      if !s.running then []
      else
        match parseIpHeader frame with
        | none => routerLoop w s later
        | some ipDst =>
            -- `ParseIpHeader` allocates the text of the destination
            if !s.heap then []
            else
              let (s, forward) := forwardFrame w s frame ipDst
              forward :: routerLoop w s later

end VrrpDaemon.Router
