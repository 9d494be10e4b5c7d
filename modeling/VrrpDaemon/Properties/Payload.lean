import VrrpDaemon.Properties.Routing

/-!
# What the router does to a payload

The block of a packet has the size of the variable that holds the packet's length, so no
packet fits it. Besides, the length in the IP header is that of a header alone, and the
payload ends at its first NUL (`routerLoop_payload`).
-/

set_option autoImplicit false

namespace VrrpDaemon.Router

open Machine

/-- What lies behind the headers of a frame. -/
def framePayload (frame : List UInt8) : List UInt8 :=
  (received frame).drop (sizeofEthhdr + sizeofIphdr)

/-- The field `tot_len` of the IP header of a packet. -/
def ipTotLen (packet : Packet) : Nat := ofLe ((packet.bytes.drop 16).take 2).reverse

/-- What lies behind the headers of a packet. -/
def packetPayload (packet : Packet) : List UInt8 := packet.bytes.drop (sizeofEthhdr + sizeofIphdr)

/-- A packet carries the payload of a frame: its IP header has the length of both, the
payload is the same, and the packet lies inside its block. -/
structure Packet.Carries (packet : Packet) (frame : List UInt8) : Prop where
  totLen : ipTotLen packet = sizeofIphdr + (framePayload frame).length
  payload : packetPayload packet = framePayload frame
  inside : packet.bytes.length ≤ packet.allocated

/-! ## The payload -/

variable {w : RouterWorld}

theorem drop_packetBuffer {frame : List UInt8} (long : 34 ≤ (received frame).length) :
    (packetBuffer frame).drop (sizeofEthhdr + sizeofIphdr) =
      framePayload frame ++
        List.replicate (packetBufferSize - (received frame).length) 0 :=
  List.drop_append_of_le_length long

/-- **The payload stays as it is** if it has no NUL, and none is missing behind it. -/
theorem payloadText_iff {frame : List UInt8} (long : 34 ≤ (received frame).length) :
    payloadText w frame = framePayload frame ↔
      (0 : UInt8) ∉ framePayload frame ∧
        ((received frame).length = packetBufferSize → w.behind.val = []) := by
  have short : (received frame).length ≤ packetBufferSize := List.length_take_le _ _
  have whole : payloadText w frame = text (framePayload frame ++
      (List.replicate (packetBufferSize - (received frame).length) 0 ++ w.behind.val)) := by
    rw [payloadText, drop_packetBuffer long, List.append_assoc]
  constructor
  · intro same
    have noNul : (0 : UInt8) ∉ framePayload frame := same ▸ zero_notMem_text _
    refine ⟨noNul, fun full => ?_⟩
    rw [whole, text_append_text noNul, full, Nat.sub_self, List.replicate_zero, List.nil_append,
      text_self w.behind.property] at same
    exact List.append_right_eq_self.mp same
  · rintro ⟨noNul, ends⟩
    rw [whole, text_append_text noNul]
    rcases Nat.lt_or_eq_of_le short with less | full
    · obtain ⟨zeros, more⟩ : ∃ zeros, packetBufferSize - (received frame).length = zeros + 1 :=
        Nat.exists_eq_add_one.mpr (by omega)
      rw [more, List.replicate_succ, List.cons_append]
      exact List.append_nil _
    · rw [full, Nat.sub_self, ends full]
      exact List.append_nil _

/-! ## The packet -/

theorem forwardFrame_frame (w : RouterWorld) (s : RouterState) (frame ipDst : List UInt8) :
    (forwardFrame w s frame ipDst).2.frame = frame := by
  unfold forwardFrame
  dsimp only
  split
  · rfl
  · split
    · rfl
    · rfl

/-- What was done in the loop was done for a frame with a destination. -/
theorem routerLoop_forward {s : RouterState} {frames : List (List UInt8)} {forward : Forward}
    (member : forward ∈ routerLoop w s frames) :
    ∃ s' ipDst, parseIpHeader forward.frame = some ipDst ∧
      forward = (forwardFrame w s' forward.frame ipDst).2 := by
  induction frames generalizing s with
  | nil => cases member
  | cons frame later ih =>
      cases running : s.running with
      | false =>
          rw [routerLoop_stopped running] at member
          cases member
      | true =>
          cases parsed : parseIpHeader frame with
          | none =>
              rw [routerLoop_none running parsed] at member
              exact ih member
          | some ipDst =>
              cases heap : s.heap with
              | false =>
                  rw [routerLoop_exhausted running heap] at member
                  cases member
              | true =>
                  rw [routerLoop_some running heap parsed] at member
                  rcases List.mem_cons.mp member with here | member
                  · refine ⟨s, ipDst, ?_, ?_⟩
                    · rw [here, forwardFrame_frame, parsed]
                    · rw [here, forwardFrame_frame]
                  · exact ih member

/-- `tot_len` is the length of an IP header, whatever the payload is. -/
theorem forwardFrame_totLen {s : RouterState} {frame ipDst : List UInt8} {packet : Packet}
    (written : (forwardFrame w s frame ipDst).2.packet = some packet) :
    ipTotLen packet = sizeofIphdr := by
  obtain ⟨header, length, -, bytes⟩ := forwardFrame_packet written
  have field : (packet.bytes.drop 16).take 2 = [0, 20] := by
    have front : 16 = header.length + 2 := by rw [length]; rfl
    rw [bytes, List.append_assoc, front, List.drop_append, List.drop_of_length_le (by omega),
      Nat.add_sub_cancel_left, List.nil_append]
    rfl
  rw [ipTotLen, field]
  rfl

/-- Behind its headers a packet has the text of the payload. -/
theorem forwardFrame_payload {s : RouterState} {frame ipDst : List UInt8} {packet : Packet}
    (written : (forwardFrame w s frame ipDst).2.packet = some packet) :
    packetPayload packet = payloadText w frame := by
  obtain ⟨header, length, -, bytes⟩ := forwardFrame_packet written
  have headers : (header ++ createIpHeader src1Ip ipDst).length = sizeofEthhdr + sizeofIphdr := by
    rw [List.length_append, length, createIpHeader_length]
  rw [packetPayload, bytes]
  exact List.drop_left' headers

/-- **No payload is forwarded right.** For every run of the router and every packet that is
written in it: the packet does not carry the payload of its frame. Its block has 4 bytes and
is written beyond, since the headers alone have 34; `tot_len` is the length of a header; and
the payload of the packet is that of the frame if and only if this has no NUL, and one is
behind it, in the buffer or right after. -/
theorem routerLoop_payload (w : RouterWorld) (s : RouterState) (frames : List (List UInt8))
    (forward : Forward) (member : forward ∈ routerLoop w s frames) (packet : Packet)
    (written : forward.packet = some packet) :
    ¬ packet.Carries forward.frame ∧
      packet.allocated = 4 ∧ 34 ≤ packet.bytes.length ∧
      ipTotLen packet = sizeofIphdr ∧
      (packetPayload packet = framePayload forward.frame ↔
        (0 : UInt8) ∉ framePayload forward.frame ∧
          ((received forward.frame).length = packetBufferSize → w.behind.val = [])) := by
  obtain ⟨s', ipDst, parsed, whole⟩ := routerLoop_forward member
  rw [whole] at written
  obtain ⟨allocated, length⟩ := forwardFrame_overruns written
  refine ⟨fun carries => ?_, allocated, length, forwardFrame_totLen written, ?_⟩
  · have inside := carries.inside
    omega
  · rw [forwardFrame_payload written]
    exact payloadText_iff (parseIpHeader_some parsed).1

/-- A frame with two bytes behind its headers. -/
def shortFrame : List UInt8 := vrrpFrame [192, 168, 1, 6] ++ [97, 98]

theorem shortFrame_forwarded : ∃ forward packet,
    forward ∈ routerLoop plainRouter (.start []) [shortFrame] ∧ forward.packet = some packet := by
  have written : (routerLoop plainRouter (.start []) [shortFrame]).any
      (fun forward => forward.packet.isSome) = true := by decide +kernel
  obtain ⟨forward, member, some⟩ := List.any_eq_true.mp written
  obtain ⟨packet, written⟩ := Option.isSome_iff_exists.mp some
  exact ⟨forward, packet, member, written⟩

/-- The packet for a frame with two bytes of payload. -/
theorem routerLoop_payload_two : ∃ forward packet,
    forward ∈ routerLoop plainRouter (.start []) [shortFrame] ∧ forward.packet = some packet ∧
      ¬ packet.Carries forward.frame := by
  obtain ⟨forward, packet, member, written⟩ := shortFrame_forwarded
  exact ⟨forward, packet, member, written,
    (routerLoop_payload plainRouter (.start []) [shortFrame] forward member packet written).1⟩

/-- **A packet of 36 bytes in a block of 4.** -/
theorem routerLoop_overrun : ∃ forward packet,
    forward ∈ routerLoop plainRouter (.start []) [shortFrame] ∧ forward.packet = some packet ∧
      packet.allocated = 4 ∧ ¬ packet.Carries forward.frame := by
  obtain ⟨forward, packet, member, written⟩ := shortFrame_forwarded
  obtain ⟨s', ipDst, -, whole⟩ := routerLoop_forward member
  have packed := written
  rw [whole] at packed
  obtain ⟨allocated, length⟩ := forwardFrame_overruns packed
  refine ⟨forward, packet, member, written, allocated, fun carries => ?_⟩
  have inside := carries.inside
  omega

end VrrpDaemon.Router
