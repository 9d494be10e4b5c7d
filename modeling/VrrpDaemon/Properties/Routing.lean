import VrrpDaemon.Model.Router

/-!
# Where the router sends its packets

An address of `IP_MAC` is found among its entries, and the packet goes to the Ethernet
address that stands next to it. An address that is not there is looked for behind the table,
and the packet, if there is one, goes wherever `phy_dst` points to. So the router forwards
right exactly as long as it knows the destination of every VRRP packet, up to where the
program ends (`routerLoop_iff`).
-/

set_option autoImplicit false

namespace VrrpDaemon.Router

open Machine

/-- The text of a frame's IP destination. -/
def frameDst (frame : List UInt8) : List UInt8 := inetNtoa (((received frame).drop 30).take 4)

/-- The Ethernet destination of a packet. -/
def etherDst (packet : Packet) : List UInt8 := packet.bytes.take 6

/-- `IP_MAC` has an entry for an address. -/
def KnownIp (ip : List UInt8) : Prop := ∃ entry ∈ ipMac, entry.ip = ip

/-- A frame is forwarded right: a packet for it goes to the Ethernet address of its IP
destination; without an entry for that there is no packet; and the lookup stays in the
table. -/
structure Forward.Right (forward : Forward) : Prop where
  mac : ∀ packet, forward.packet = some packet →
    ∃ entry ∈ ipMac, entry.ip = frameDst forward.frame ∧
      etherAton entry.mac = some (etherDst packet)
  unknown : ¬ KnownIp (frameDst forward.frame) → forward.packet = none
  reads : ∀ i ∈ forward.reads, i < ipMac.length

/-- There is another packet after packet `k`: `phy_src` is an Ethernet address, and `malloc`
works on although the packet was copied beyond its block. -/
def RouterWorld.GoesOn (w : RouterWorld) (k : Nat) : Prop :=
  (etherAton w.phySrc).isSome = true ∧ w.survives k = true

/-- The destinations that matter are in the table: those of the VRRP packets, from packet `k`
on up to the one that the program ends at. -/
def Known (w : RouterWorld) : Nat → List (List UInt8) → Prop
  | _, [] => True
  | k, frame :: later =>
      if (parseIpHeader frame).isSome then
        KnownIp (frameDst frame) ∧ (w.GoesOn k → Known w (k + 1) later)
      else Known w k later

/-! ## The lookup -/

variable {w : RouterWorld}

/-- **An address that the next entries do not have** is looked for behind them. -/
theorem lookupLoop_skip {ipDst : List UInt8} {rounds : Nat} {i : Nat}
    (others : ∀ k, i ≤ k → k < i + rounds → (w.entry k).ip ≠ ipDst) (more : Nat) :
    (lookupLoop w ipDst (rounds + more) i).2 =
      List.range' i rounds ++ (lookupLoop w ipDst more (i + rounds)).2 := by
  induction rounds generalizing i with
  | zero => rw [Nat.zero_add, Nat.add_zero, List.range'_zero, List.nil_append]
  | succ rounds ih =>
      have here := others i (Nat.le_refl i) (by omega)
      have later := ih (i := i + 1) fun k low high => others k (by omega) (by omega)
      have place : i + 1 + rounds = i + (rounds + 1) := by omega
      rw [Nat.succ_add, lookupLoop, if_neg here, List.range'_succ, List.cons_append, ← place,
        ← later]

/-- **An address that an entry has** is found, and nothing is read behind that entry. -/
theorem lookupLoop_found {ipDst : List UInt8} {k : Nat} (here : (w.entry k).ip = ipDst)
    {rounds i : Nat} (low : i ≤ k) (high : k < i + rounds) :
    (∃ j, j ≤ k ∧ (w.entry j).ip = ipDst ∧
      (lookupLoop w ipDst rounds i).1 = some (w.entry j)) ∧
      ∀ r ∈ (lookupLoop w ipDst rounds i).2, r ≤ k := by
  induction rounds generalizing i with
  | zero => omega
  | succ rounds ih =>
      by_cases same : (w.entry i).ip = ipDst
      · rw [lookupLoop, if_pos same]
        refine ⟨⟨i, low, same, rfl⟩, fun r member => ?_⟩
        rwa [List.mem_singleton.mp member]
      · have next : i + 1 ≤ k := by
          rcases Nat.eq_or_lt_of_le low with rfl | less
          · exact absurd here same
          · exact less
        obtain ⟨found, reads⟩ := ih next (by omega)
        rw [lookupLoop, if_neg same]
        refine ⟨found, fun r member => ?_⟩
        rcases List.mem_cons.mp member with rfl | member
        · exact low
        · exact reads r member

theorem entry_of_lt {i : Nat} (inside : i < ipMac.length) : w.entry i ∈ ipMac := by
  rw [RouterWorld.entry, List.getElem?_eq_getElem inside, Option.getD_some]
  exact List.getElem_mem inside

/-- The lookup of an address that is in the table. -/
theorem lookup_known {ip : List UInt8} (known : KnownIp ip) :
    (∃ entry ∈ ipMac, entry.ip = ip ∧ (lookupLoop w ip lookupBound 0).1 = some entry) ∧
      ∀ i ∈ (lookupLoop w ip lookupBound 0).2, i < ipMac.length := by
  obtain ⟨entry, member, named⟩ := known
  obtain ⟨k, inside, rfl⟩ := List.mem_iff_getElem.mp member
  have here : (w.entry k).ip = ip := by
    rw [RouterWorld.entry, List.getElem?_eq_getElem inside, Option.getD_some, named]
  have bound : k < 0 + lookupBound := Nat.lt_trans inside (by decide)
  obtain ⟨⟨j, near, same, found⟩, reads⟩ := lookupLoop_found here (Nat.zero_le k) bound
  exact ⟨⟨w.entry j, entry_of_lt (Nat.lt_of_le_of_lt near inside), same, found⟩,
    fun i read => Nat.lt_of_le_of_lt (reads i read) inside⟩

/-- The lookup of any other address leaves the table. -/
theorem lookup_unknown {ip : List UInt8} (unknown : ¬ KnownIp ip) :
    ipMac.length ∈ (lookupLoop w ip lookupBound 0).2 := by
  have others : ∀ k, 0 ≤ k → k < 0 + ipMac.length → (w.entry k).ip ≠ ip := by
    intro k _ inside same
    rw [Nat.zero_add] at inside
    exact unknown ⟨w.entry k, entry_of_lt inside, same⟩
  have reads := lookupLoop_skip others (lookupBound - ipMac.length)
  have behind : ipMac.length ∈ (lookupLoop w ip (lookupBound - ipMac.length)
      (0 + ipMac.length)).2 := by
    show ipMac.length ∈ (lookupLoop w ip (9 + 1) ipMac.length).2
    rw [lookupLoop]
    split
    · exact List.mem_singleton_self _
    · exact List.mem_cons_self
  show ipMac.length ∈ (lookupLoop w ip (ipMac.length + (lookupBound - ipMac.length)) 0).2
  rw [reads]
  exact List.mem_append_right _ behind

/-! ## One packet -/

theorem etherAton_length {text address : List UInt8} (read : etherAton text = some address) :
    address.length = 6 := by
  obtain ⟨octets, -, whole⟩ := Option.bind_eq_some_iff.mp read
  split at whole
  · cases whole
    assumption
  · cases whole

theorem createEthernetHeader_length {srcMac dstMac header : List UInt8}
    (created : createEthernetHeader srcMac dstMac = some header) :
    header.length = sizeofEthhdr := by
  obtain ⟨source, src, rest⟩ := Option.bind_eq_some_iff.mp created
  obtain ⟨dest, dst, whole⟩ := Option.bind_eq_some_iff.mp rest
  cases whole
  rw [List.length_append, List.length_append, etherAton_length src, etherAton_length dst]
  rfl

theorem quad_length {text address : List UInt8} (read : quad text = some address) :
    address.length = 4 := by
  obtain ⟨octets, -, whole⟩ := Option.bind_eq_some_iff.mp read
  split at whole
  · cases whole
    assumption
  · cases whole

theorem inetAddr_length (text : List UInt8) : (inetAddr text).length = 4 := by
  rw [inetAddr]
  cases read : quad text with
  | none => rfl
  | some address => exact quad_length read

theorem createIpHeader_length (srcIp dstIp : List UInt8) :
    (createIpHeader srcIp dstIp).length = sizeofIphdr := by
  simp only [createIpHeader, List.length_append, inetAddr_length, List.length_cons,
    List.length_nil]
  rfl

/-- The packet that is written for a frame. -/
theorem forwardFrame_packet {s : RouterState} {frame ipDst : List UInt8} {packet : Packet}
    (written : (forwardFrame w s frame ipDst).2.packet = some packet) :
    ∃ header, header.length = sizeofEthhdr ∧ packet.allocated = sizeofPktlen ∧
      packet.bytes = header ++ createIpHeader src1Ip ipDst ++ payloadText w frame := by
  unfold forwardFrame at written
  dsimp only at written
  split at written
  · cases written
  · split at written
    · cases written
    · rename_i header created
      cases written
      exact ⟨header, createEthernetHeader_length created, rfl, rfl⟩

theorem packet_overruns {header : List UInt8} (length : header.length = sizeofEthhdr)
    (ipDst payload : List UInt8) :
    34 ≤ (header ++ createIpHeader src1Ip ipDst ++ payload).length := by
  rw [List.length_append, List.length_append, length, createIpHeader_length]
  exact Nat.le_add_right ..

/-- **A packet overruns its block**, which has the size of an integer. -/
theorem forwardFrame_overruns {s : RouterState} {frame ipDst : List UInt8} {packet : Packet}
    (written : (forwardFrame w s frame ipDst).2.packet = some packet) :
    packet.allocated = 4 ∧ 34 ≤ packet.bytes.length := by
  obtain ⟨header, length, allocated, bytes⟩ := forwardFrame_packet written
  exact ⟨allocated, bytes ▸ packet_overruns length ipDst (payloadText w frame)⟩

/-! ## One frame -/

/-- The Ethernet addresses of the table are well-formed, and fit `phy_dst`. -/
theorem ipMac_mac {entry : IpMac} (member : entry ∈ ipMac) :
    entry.mac.length < phyDstSize ∧ (etherAton entry.mac).isSome := by
  have all : ∀ entry ∈ ipMac, entry.mac.length < phyDstSize ∧ (etherAton entry.mac).isSome := by
    decide +kernel
  exact all entry member

/-- **A frame with a destination** has both headers, and the text is that of its own
destination. -/
theorem parseIpHeader_some {frame ipDst : List UInt8} (parsed : parseIpHeader frame = some ipDst) :
    sizeofEthhdr + sizeofIphdr ≤ (received frame).length ∧ ipDst = frameDst frame := by
  rw [parseIpHeader] at parsed
  split at parsed
  · cases parsed
  · split at parsed
    · cases parsed
    · rename_i long
      split at parsed
      · cases parsed
      · cases parsed
        refine ⟨Nat.not_lt.mp long, ?_⟩
        rw [Nat.not_lt, sizeofEthhdr, sizeofIphdr] at long
        have inside : 4 ≤ ((received frame).drop 30).length := by
          rw [List.length_drop]
          omega
        rw [frameDst, packetBuffer, fill, List.drop_append_of_le_length (by omega),
          List.take_append_of_le_length inside]

/-- What is left of the loop after a frame: it ended, or one more packet was copied beyond its
block. -/
theorem forwardFrame_state (s : RouterState) (frame ipDst : List UInt8) :
    (forwardFrame w s frame ipDst).1.running = true →
      (forwardFrame w s frame ipDst).1.heap = w.survives s.packets ∧
        (forwardFrame w s frame ipDst).1.packets = s.packets + 1 := by
  unfold forwardFrame
  dsimp only
  split
  · intro goes
    cases goes
  · split
    · intro goes
      cases goes
    · rename_i header created
      have beyond : Packet.fits ⟨sizeofPktlen,
          header ++ createIpHeader src1Ip ipDst ++ payloadText w frame⟩ = false := by
        have long := packet_overruns (createEthernetHeader_length created) ipDst
          (payloadText w frame)
        have small : sizeofPktlen < 34 := by decide
        exact decide_eq_false (Nat.not_le.mpr (Nat.lt_of_lt_of_le small long))
      rw [beyond]
      exact fun _ => ⟨Bool.false_or _, rfl⟩

/-- **A frame for a known destination**: the loop goes on if `phy_src` is an Ethernet
address, and the frame is forwarded right. -/
theorem forwardFrame_known {frame ipDst : List UInt8} (parsed : parseIpHeader frame = some ipDst)
    (known : KnownIp (frameDst frame)) (s : RouterState) :
    (forwardFrame w s frame ipDst).2.Right ∧
      (forwardFrame w s frame ipDst).1.running = (etherAton w.phySrc).isSome := by
  obtain ⟨-, rfl⟩ := parseIpHeader_some parsed
  obtain ⟨⟨entry, member, named, found⟩, reads⟩ := lookup_known (w := w) known
  obtain ⟨short, wellFormed⟩ := ipMac_mac member
  obtain ⟨dest, ether⟩ := Option.isSome_iff_exists.mp wellFormed
  have copied : copyMac (some entry) s.phyDst = some entry.mac := if_pos short
  cases source : etherAton w.phySrc with
  | none =>
      have header : createEthernetHeader w.phySrc entry.mac = none := by
        rw [createEthernetHeader, source]
        rfl
      rw [forwardFrame]
      simp only [found, copied, header]
      exact ⟨⟨fun packet none => (by cases none), fun _ => rfl, reads⟩, rfl⟩
  | some src =>
      have header : createEthernetHeader w.phySrc entry.mac = some (dest ++ src ++ [8, 0]) := by
        rw [createEthernetHeader, source, ether]
        rfl
      rw [forwardFrame]
      simp only [found, copied, header]
      refine ⟨⟨?_, fun unknown => absurd known unknown, reads⟩, rfl⟩
      rintro packet written
      cases written
      refine ⟨entry, member, named, ?_⟩
      simp only [ether, etherDst, List.append_assoc, List.take_left' (etherAton_length ether)]

/-- **A frame for an unknown destination** is not forwarded right. -/
theorem forwardFrame_unknown {frame ipDst : List UInt8}
    (parsed : parseIpHeader frame = some ipDst) (s : RouterState)
    (right : (forwardFrame w s frame ipDst).2.Right) : KnownIp (frameDst frame) := by
  obtain ⟨-, rfl⟩ := parseIpHeader_some parsed
  by_contra unknown
  have read := lookup_unknown (w := w) unknown
  have same : (forwardFrame w s frame (frameDst frame)).2.reads =
      (lookupLoop w (frameDst frame) lookupBound 0).2 := by
    unfold forwardFrame
    dsimp only
    split
    · rfl
    · split
      · rfl
      · rfl
  rw [← same] at read
  exact Nat.lt_irrefl _ (right.reads _ read)

/-! ## Runs -/

theorem routerLoop_stopped {s : RouterState} (stopped : s.running = false)
    (frames : List (List UInt8)) : routerLoop w s frames = [] := by
  cases frames with
  | nil => rfl
  | cons frame later => rw [routerLoop, stopped]; rfl

/-- A frame without a destination is passed over. -/
theorem routerLoop_none {s : RouterState} (running : s.running = true) {frame : List UInt8}
    (parsed : parseIpHeader frame = none) (later : List (List UInt8)) :
    routerLoop w s (frame :: later) = routerLoop w s later := by
  rw [routerLoop, running, parsed]
  rfl

theorem routerLoop_some {s : RouterState} (running : s.running = true) (heap : s.heap = true)
    {frame ipDst : List UInt8} (parsed : parseIpHeader frame = some ipDst)
    (later : List (List UInt8)) :
    routerLoop w s (frame :: later) =
      (forwardFrame w s frame ipDst).2 ::
        routerLoop w (forwardFrame w s frame ipDst).1 later := by
  rw [routerLoop, running, parsed]
  simp only [heap]
  rfl

/-- Nothing is forwarded any more when `malloc` does not work. -/
theorem routerLoop_exhausted {s : RouterState} (running : s.running = true)
    (heap : s.heap = false) (frames : List (List UInt8)) : routerLoop w s frames = [] := by
  induction frames with
  | nil => rfl
  | cons frame later ih =>
      cases parsed : parseIpHeader frame with
      | none => rw [routerLoop_none running parsed, ih]
      | some ipDst =>
          rw [routerLoop, running, parsed]
          simp only [heap]
          rfl

/-- After a frame for a known destination the rest is forwarded right if and only if there is
no other packet or the rest is, one packet later. -/
theorem forwardFrame_later {frame ipDst : List UInt8}
    (parsed : parseIpHeader frame = some ipDst) (known : KnownIp (frameDst frame))
    (s : RouterState) (rest : List (List UInt8)) (next : Prop)
    (goes : ∀ phyDst, (∀ forward ∈ routerLoop w ⟨phyDst, true, true, s.packets + 1⟩ rest,
      forward.Right) ↔ next) :
    (∀ forward ∈ routerLoop w (forwardFrame w s frame ipDst).1 rest, forward.Right) ↔
      (w.GoesOn s.packets → next) := by
  obtain ⟨-, running⟩ := forwardFrame_known (w := w) parsed known s
  have left := forwardFrame_state (w := w) s frame ipDst
  cases after : (forwardFrame w s frame ipDst).1 with
  | mk phyDst' running' heap packets =>
      rw [after] at running left
      cases valid : (etherAton w.phySrc).isSome with
      | false =>
          rw [valid] at running
          rw [routerLoop_stopped running]
          simp [RouterWorld.GoesOn, valid]
      | true =>
          rw [valid] at running
          obtain ⟨heap, packets⟩ := left running
          dsimp only at running heap packets
          subst running heap packets
          cases works : w.survives s.packets with
          | false =>
              rw [routerLoop_exhausted rfl rfl]
              simp [RouterWorld.GoesOn, works]
          | true =>
              rw [goes phyDst']
              simp [RouterWorld.GoesOn, valid, works]

/-- The loop forwards right, with any number of packets before, exactly when the destinations
that matter are known. -/
theorem routerLoop_known (w : RouterWorld) (phyDst : List UInt8) (k : Nat)
    (frames : List (List UInt8)) :
    (∀ forward ∈ routerLoop w ⟨phyDst, true, true, k⟩ frames, forward.Right) ↔
      Known w k frames := by
  induction frames generalizing phyDst k with
  | nil =>
      constructor
      · exact fun _ => trivial
      · intro _ forward member
        cases member
  | cons frame later ih =>
      cases parsed : parseIpHeader frame with
      | none =>
          rw [routerLoop_none rfl parsed, Known, parsed]
          exact ih phyDst k
      | some ipDst =>
          rw [routerLoop_some rfl rfl parsed, Known, parsed, List.forall_mem_cons,
            Option.isSome_some, if_pos rfl]
          have rest (known : KnownIp (frameDst frame)) := forwardFrame_later (w := w) parsed known
            ⟨phyDst, true, true, k⟩ later (Known w (k + 1) later) fun phyDst' => ih phyDst' (k + 1)
          constructor
          · rintro ⟨right, others⟩
            have known := forwardFrame_unknown parsed ⟨phyDst, true, true, k⟩ right
            exact ⟨known, (rest known).mp others⟩
          · rintro ⟨known, others⟩
            exact ⟨(forwardFrame_known parsed known ⟨phyDst, true, true, k⟩).1,
              (rest known).mpr others⟩

/-- **When the router forwards right.** For every sequence of frames, whatever `phy_dst`
holds at the start and memory holds behind `IP_MAC`, and after whichever packets `malloc`
still works: each packet goes to the Ethernet address that `IP_MAC` has for the frame's own
destination, no packet is written for a destination that is not there, and the lookups stay
in the table, if and only if the destinations of the VRRP packets are in `IP_MAC`, up to the
one that the program ends at. -/
theorem routerLoop_iff (w : RouterWorld) (phyDst : List UInt8) (frames : List (List UInt8)) :
    (∀ forward ∈ routerLoop w (.start phyDst) frames, forward.Right) ↔ Known w 0 frames :=
  routerLoop_known w phyDst 0 frames

/-- A VRRP packet in a frame, for some destination. -/
def vrrpFrame (daddr : List UInt8) : List UInt8 :=
  List.replicate 12 0 ++ [8, 0] ++ List.replicate 9 0 ++ [112] ++ List.replicate 6 0 ++ daddr

theorem zero_notMem_behind : (0 : UInt8) ∉ ([] : List UInt8) := List.not_mem_nil

/-- Zeros behind the table, the address that `phy_src` has without an argument, and a `malloc`
that ends the program after the first packet. -/
def plainRouter : RouterWorld where
  beyond _ := ⟨[], []⟩
  behind := ⟨[], zero_notMem_behind⟩
  phySrc := ascii "aa:aa:aa:aa:aa:aa"
  survives _ := false

/-- A `malloc` that does not look at what lies behind a block. -/
def patientRouter : RouterWorld := { plainRouter with survives := fun _ => true }

/-- A frame for a known destination, and one for an unknown destination. -/
def twoFrames : List (List UInt8) := [vrrpFrame [192, 168, 1, 6], vrrpFrame [10, 0, 0, 1]]

theorem not_right_of_reads {w : RouterWorld} {s : RouterState} {frames : List (List UInt8)}
    (leaves : (routerLoop w s frames).any (fun f => f.reads.contains ipMac.length) = true) :
    ¬ ∀ forward ∈ routerLoop w s frames, forward.Right := by
  intro right
  obtain ⟨forward, member, read⟩ := List.any_eq_true.mp leaves
  have inside := (right forward member).reads ipMac.length (by simpa using read)
  exact Nat.lt_irrefl _ inside

/-- **An unknown destination** is looked up behind the table, already in the first frame; the
packet goes to the Ethernet address that was left in `phy_dst`. Where `malloc` works on after
a packet, that is the address of the frame before. -/
theorem routerLoop_unknown :
    (¬ (∀ forward ∈ routerLoop plainRouter (.start (ascii "00:23:4d:4e:96:1c"))
        [vrrpFrame [10, 0, 0, 1]], forward.Right) ∧
      (routerLoop plainRouter (.start (ascii "00:23:4d:4e:96:1c"))
        [vrrpFrame [10, 0, 0, 1]]).map (fun f => (f.reads, f.packet.map etherDst)) =
          [(List.range 20, some [0x00, 0x23, 0x4d, 0x4e, 0x96, 0x1c])]) ∧
      ¬ (∀ forward ∈ routerLoop patientRouter (.start []) twoFrames, forward.Right) ∧
      (routerLoop patientRouter (.start []) twoFrames).map (fun f => f.packet.map etherDst) =
        [some [0x00, 0xe0, 0x4d, 0x84, 0x84, 0xc8], some [0x00, 0xe0, 0x4d, 0x84, 0x84, 0xc8]] :=
  ⟨⟨not_right_of_reads (by decide +kernel), by decide +kernel⟩,
    not_right_of_reads (by decide +kernel), by decide +kernel⟩

end VrrpDaemon.Router
