import VrrpDaemon.Model.Layout
import VrrpDaemon.Model.Receive

/-!
# Advertisements on the wire

The bytes that `vrrp_build_pkt` writes and the buffer that `process_vrrpd_sock`
reads a frame from: an Ethernet header, an IP header, and a `vrrp_inst_t` as it
lies in memory.

The receiver clears a buffer of 4096 bytes, and looks at fixed offsets in it
whatever was received. The rest of the handling is that of
`VrrpDaemon.Model.Receive`, on the fields found there, but for the copy of the
name in a record that is handed on: `strcpy` runs past the end of its field when
no NUL ends the name.
-/

set_option autoImplicit false

namespace VrrpDaemon

open Machine

/-- `sizeof(struct ethhdr)`. -/
def sizeofEthhdr : Nat := 14

/-- `sizeof(struct iphdr)`. -/
def sizeofIphdr : Nat := 20

/-! ## Building a frame -/

/-- `phy_dst`. -/
def phyDst : List UInt8 := [0x01, 0x00, 0x5e, 0x00, 0x00, 0x12]

/-- `vrrp_vr_vmac`. -/
def vrrpVrVmac (vrid : UInt8) : List UInt8 := [0x00, 0x00, 0x5e, 0x00, 0x01, vrid]

/-- `CreateEthernetHeader` for `ETH_P_IP`. -/
def createEthernetHeader (vrid : UInt8) : List UInt8 := phyDst ++ vrrpVrVmac vrid ++ [0x08, 0x00]

/-- `CreateIPHeader`: version and header length, type of service, total length,
identification, fragment offset, time to live, protocol, checksum, and the
source and destination address. -/
def createIpHeader (in4 : UInt32) : List UInt8 :=
  [0x45, 0, 0, 20, 0x0b, 0x35, 0, 0, UInt8.ofNat vrrpIpTtl, UInt8.ofNat ipprotoVrrp, 0, 0] ++
    leBytes 4 in4.toNat ++ [224, 0, 0, 18]

/-- The bytes that `CreateVRRPHeader` copies: a record that it fills in, in
memory that held something before. -/
def VrrpInst.headerBytes (inst : VrrpInst) (heap : Buffer) : List UInt8 :=
  (inst.storeWith (inst.viVr.vrIfname.bytes ++ [0]) 0 heap).slice 0 sizeofVrrpInst

/-- The bytes that `vrrp_build_pkt` writes, and that `vrrp_send_adv` sends. -/
def Daemon.pktBytes (s : Daemon) (p : DsPtr) (priority : Int) (heap : Buffer) : List UInt8 :=
  createEthernetHeader (s.vrrpId p) ++ createIpHeader (s.vr p).vr.in4 ++
    (s.createVrrpHeader p priority).headerBytes heap

/-! ## Receiving a frame -/

/-- The size of the buffer of `process_vrrpd_sock`. -/
def recvSize : Nat := 4096

/-- `vrrp_recv_adv4` into the buffer, which was cleared before. -/
def vrrpRecvAdv4 (datagram : List UInt8) : Buffer := .holding (datagram.take recvSize) fun _ => 0

/-- The IP header in the buffer: `version` and `ihl` share its first byte. -/
def ipVersion (b : Buffer) : Nat := (b sizeofEthhdr).toNat / 16
def ipIhl (b : Buffer) : Nat := (b sizeofEthhdr).toNat % 16
def ipTtl (b : Buffer) : Nat := (b (sizeofEthhdr + 8)).toNat
def ipProtocol (b : Buffer) : Nat := (b (sizeofEthhdr + 9)).toNat

/-- What `vrrp_adv_check` looks at in the buffer. -/
def Frame.load (b : Buffer) : Frame where
  version := ipVersion b
  protocol := ipProtocol b
  ttl := ipTtl b
  inst := .load b (sizeofEthhdr + sizeofIphdr)

namespace Daemon

/-- `vrrp_adv_check` on the bytes in the buffer: the record handed on, if there
is one, with its name copied. The number of addresses is not copied. -/
def vrrpAdvCheckBytes (w : World) (b : Buffer) (s : Daemon) :
    Result (Option VrrpInst × Daemon) := do
  let (received, s) ← s.vrrpAdvCheck w (.load b)
  match received with
  | none => return (none, s)
  | some inst =>
      let _ ← inst.viVr.vrIfname.strcpy
      return (some inst, s)

/-- `process_vrrpd_sock`, for the bytes of a datagram. -/
def processVrrpdSockBytes (w : World) (af : Int) (ifname : Ifname) (datagram : List UInt8)
    (s : Daemon) : Result Daemon := do
  let (received, s) ← s.vrrpAdvCheckBytes w (vrrpRecvAdv4 datagram)
  match received with
  | none => return s
  | some inst =>
      let vidRcv := inst.viVr.vrId
      let found ← s.vrrpSearchInst ⟨vidRcv, some ifname, af⟩
      match found with
      | none => return s
      | some curr => if vidRcv = 0 then return s else s.vrrpProcessIncomingAdv w curr inst

end Daemon

/-! ## What was sent is received -/

/-- **The receiver finds in a frame what its sender put there**, whatever lies
behind it. -/
theorem Frame.load_pktBytes {s : Daemon} {p : DsPtr} {priority : Int}
    (fits : (s.createVrrpHeader p priority).Fits)
    (terminated : (s.vrrpIfname p).bytes.length < lifnamsiz) (heap residue : Buffer) :
    Frame.load (.holding (s.pktBytes p priority heap) residue) = s.vrrpBuildPkt p priority := by
  have header : (createEthernetHeader (s.vrrpId p) ++ createIpHeader (s.vr p).vr.in4).length =
      sizeofEthhdr + sizeofIphdr := by
    simp [createEthernetHeader, createIpHeader, phyDst, vrrpVrVmac, sizeofEthhdr, sizeofIphdr]
  have inst : VrrpInst.load (.holding (s.pktBytes p priority heap) residue)
      (sizeofEthhdr + sizeofIphdr) = s.createVrrpHeader p priority := by
    rw [Buffer.holding, Daemon.pktBytes, Buffer.put_append, header, Nat.zero_add,
      VrrpInst.headerBytes, VrrpInst.load_put_slice,
      VrrpInst.load_storeWith fits (Ifname.image_strcpy terminated)]
    rfl
  have version : ipVersion (.holding (s.pktBytes p priority heap) residue) = 4 := by
    simp [ipVersion, Buffer.holding, Buffer.put, Daemon.pktBytes, createEthernetHeader,
      createIpHeader, phyDst, vrrpVrVmac, sizeofEthhdr]
  have protocol : ipProtocol (.holding (s.pktBytes p priority heap) residue) = ipprotoVrrp := by
    simp [ipProtocol, Buffer.holding, Buffer.put, Daemon.pktBytes, createEthernetHeader,
      createIpHeader, phyDst, vrrpVrVmac, sizeofEthhdr, ipprotoVrrp]
  have ttl : ipTtl (.holding (s.pktBytes p priority heap) residue) = vrrpIpTtl := by
    simp [ipTtl, Buffer.holding, Buffer.put, Daemon.pktBytes, createEthernetHeader,
      createIpHeader, phyDst, vrrpVrVmac, sizeofEthhdr, vrrpIpTtl]
  rw [Frame.load, inst, version, protocol, ttl]
  rfl

end VrrpDaemon
