import VrrpDaemon.Model.AdmSocket
import VrrpDaemon.Model.NetTable
import VrrpDaemon.Model.PollTable

/-!
# The daemon with its sockets

`vrrpd_adm_thread` of `vrrpd.c`: the loop that polls the descriptors of `pollfds`, and reads
from the first one that has something. The first descriptor is the socket of `vrrpadm`; each
instance that is created opens two more for its interface (`vrrpd_setup_netfd`), and the one
that receives is polled from then on (`inst_start_recv`). Nothing is ever closed.

What has arrived waits in the sockets. A frame that arrives at an interface is copied to each
receiving socket that is bound to it.
-/

set_option autoImplicit false

namespace VrrpDaemon

open Machine

/-- How the daemon ends: by a fault, or by `exit`. -/
inductive Halt where
  | fault (f : Fault)
  | exit
  deriving DecidableEq

/-- What a function computes, unless the daemon ends. -/
abbrev Outcome (α : Type) := Except Halt α

/-- A computation that does not call `exit`. -/
def Outcome.of {α : Type} : Result α → Outcome α
  | .ok a => .ok a
  | .error f => .error (.fault f)

/-- What the system calls answer: the index of an interface by its name (`SIOCGIFINDEX`), the
descriptors of the sockets, the descriptor of the socket of `vrrpadm`, and whether `realloc`
succeeds for a table of some length. No interface has an empty name, and no two sockets share
a descriptor, as none is closed. -/
structure HostWorld where
  world : World
  net : NetWorld
  ifindex : List UInt8 → Option Nat
  admsock : Int
  realloc : Nat → Bool
  unnamed : ifindex [] = none
  opened : ∀ k, 0 ≤ net.createSock k
  fresh : Function.Injective net.createSock
  admOpened : 0 ≤ admsock
  admFresh : ∀ k, net.createSock k ≠ admsock

/-- `IFNAMSIZ`. -/
def ifnamsiz : Nat := 16

/-- The daemon, its tables of sockets, and what waits in them. `vfd` is the field of a VR that
points into `netfds`; `device` is the interface a socket is bound to; `receivers` are the
sockets for receiving. A request that waits carries a command, unless it is one that changes
nothing. `handled` is the log of the frames, each with the socket it was read from. -/
structure Host where
  daemon : Daemon
  nets : NetTable
  poll : PollTable
  vfd : VrPtr → Option Nat
  device : Int → Option Nat
  receivers : List Int
  requests : List (Option Command)
  frames : Int → List Frame
  handled : List (Int × Receipt)

namespace Host

/-- The descriptor of `vrrpadm` as `setup_adm_socket` adds it. -/
def admCall (hw : HostWorld) : PollCall := ⟨hw.admsock, afUnspec, none⟩

/-- What `vrrpd_adm_thread` starts with: `setup_adm_socket` adds the socket of `vrrpadm`. -/
def setup (hw : HostWorld) : Outcome Host := do
  let (ret, poll) ← Outcome.of (PollTable.initial.pollAdd (hw.realloc 0) (admCall hw))
  if ret = -1 then .error .exit
  else
    .ok
      { daemon := .initial
        nets := .initial
        poll := poll
        vfd := fun _ => none
        device := fun _ => none
        receivers := []
        requests := []
        frames := fun _ => []
        handled := [] }

/-! ## Sockets of a new instance -/

/-- The device that `BindSock` binds to: the name is cut for `ifr_name`. -/
def deviceOf (hw : HostWorld) (name : Ifname) : Option Nat :=
  hw.ifindex (name.bytes.take (ifnamsiz - 1))

/-- `vrrpd_setup_netfd`, for the one VR of an instance. -/
def vrrpdSetupNetfd (hw : HostWorld) (v : DsPtr) (h : Host) : Outcome Host := do
  let r := (h.daemon.ds v).vr
  let intf := h.daemon.vrrpIfname v
  let ((_, fp), nets) ← Outcome.of
    (h.nets.vrrpdSetupNetfdVr hw.net (h.vfd r) ⟨intf.bytes, intf.noNul⟩)
  match deviceOf hw intf with
  | none => .error .exit
  | some index =>
      let sSend := hw.net.createSock h.nets.opened
      let sRcv := hw.net.createSock (h.nets.opened + 1)
      .ok { h with
        nets := nets
        vfd := Function.update h.vfd r fp
        device := Function.update (Function.update h.device sSend (some index)) sRcv (some index)
        receivers := h.receivers ++ [sRcv] }

/-- `inst_start_recv`, for the one VR of an instance. -/
def instStartRecv (hw : HostWorld) (v : DsPtr) (h : Host) : Outcome Host := do
  let i ← Outcome.of (deref (h.vfd (h.daemon.ds v).vr))
  let fd ← Outcome.of (deref h.nets.netfds[i]?)
  let call := ⟨fd.sRcv, h.daemon.vrrpAf v, some ⟨text fd.intf, zero_notMem_text _⟩⟩
  let (_, poll) ← Outcome.of (h.poll.pollAdd (hw.realloc h.poll.pollfds.length) call)
  .ok { h with poll := poll }

/-- The command `CMD_CREATE_INST` of `process_adm_sock`, with the value that `ret` has behind
it. -/
def createCommand (hw : HostWorld) (inst : VrrpInst) (h : Host) : Outcome (Int × Host) := do
  let (ret, made, s) ← Outcome.of (h.daemon.vrrpCreateInst hw.world inst)
  if ret ≠ VrrpRet.success.code then return (ret, { h with daemon := s })
  let temp ← Outcome.of (deref made)
  let h ← vrrpdSetupNetfd hw temp { h with daemon := s }
  let h ← instStartRecv hw temp h
  if inst.viVa.pri = 255 then
    let (ret, s) ← Outcome.of (h.daemon.vrrpStateI2m hw.world temp)
    return (ret, { h with daemon := s.onQueue (·.alarm inst.viVa.delay) })
  else return (ret, h)

/-! ## Datagrams -/

/-- The `switch` of `process_adm_sock`, with the value that `ret` has behind it. Only a create
touches the sockets. -/
def admCommand (hw : HostWorld) (buf : Buffer) (h : Host) : Outcome (Int × Host) :=
  match VrrpCmd.ofCode (getVrrpCmd buf) with
  | some .createInst => do
      let (vi, vrIp) ← Outcome.of (scanInst.run buf sizeofVrrpCmd)
      let (addresses, _) ← Outcome.of ((scanVrIp vi.viVr.vrIpnum).run buf vrIp)
      h.createCommand hw (vi.withVrIp addresses)
  | _ => do
      let (ret, s) ← Outcome.of (h.daemon.admCommand hw.world buf)
      return (ret, { h with daemon := s })

/-- `process_adm_sock` up to its `sendto`: the reply, unless the datagram is too short for a
command. -/
def answer (hw : HostWorld) (datagram : List UInt8) (residue : Buffer) (h : Host) :
    Outcome (Option (List UInt8) × Host) :=
  if (admReceived datagram).length < sizeofVrrpCmd then .ok (none, h)
  else do
    let (ret, h) ← h.admCommand hw (admBuffer datagram residue)
    return (some (buildVrrpRet ret), h)

/-! ## The loop -/

/-- `process_adm_sock`, for the request that waits first. -/
def processAdmSock (hw : HostWorld) (h : Host) : Outcome Host :=
  match h.requests with
  | [] => .ok h
  | none :: requests => .ok { h with requests := requests }
  | some (.create inst) :: requests => do
      let (_, h) ← createCommand hw inst { h with requests := requests }
      .ok h
  | some command :: requests => do
      let (_, s) ← Outcome.of (h.daemon.processCommand hw.world command)
      .ok { h with daemon := s, requests := requests }

/-- The name that `process_vrrpd_sock` is given: an entry of `poll_intfs`. -/
def intfName (name : List UInt8) : Ifname where
  bytes := (text name).take lifnamsiz
  noNul member := zero_notMem_text name (List.mem_of_mem_take member)
  fits := List.length_take_le _ _

/-- `process_vrrpd_sock`, for the frame that waits first in a socket. -/
def processVrrpdSock (hw : HostWorld) (fd : Int) (i : Nat) (h : Host) : Outcome Host :=
  match h.frames fd with
  | [] => .ok h
  | frame :: frames => do
      let af ← Outcome.of (deref h.poll.pollAfs[i]?)
      let name ← Outcome.of (deref h.poll.pollIntfs[i]?)
      let receipt := ⟨af, intfName name, frame⟩
      let s ← Outcome.of (h.daemon.receive hw.world receipt)
      .ok { h with
        daemon := s
        frames := Function.update h.frames fd frames
        handled := h.handled ++ [(fd, receipt)] }

/-- How much waits in a socket. -/
def backlog (hw : HostWorld) (h : Host) (fd : Int) : Nat :=
  if fd = hw.admsock then h.requests.length else (h.frames fd).length

/-- What `poll` reports for an entry of `pollfds`. -/
def readable (hw : HostWorld) (h : Host) (entry : Pollfd) : Bool :=
  entry.fd ≠ -1 && entry.events = pollin && 0 < h.backlog hw entry.fd

/-- A round of the loop of `vrrpd_adm_thread`. Without anything to read `poll` blocks. -/
def round (hw : HostWorld) (h : Host) : Outcome Host :=
  match h.poll.pollfds.findIdx? (h.readable hw) with
  | none => .ok h
  | some i => do
      let entry ← Outcome.of (deref h.poll.pollfds[i]?)
      if entry.fd = hw.admsock then processAdmSock hw h else processVrrpdSock hw entry.fd i h

/-! ## The machine -/

/-- What happens to the daemon: a request or a frame arrives, a round of the loop, an alarm. -/
inductive Event where
  | request (command : Option Command)
  | arrive (index : Nat) (frame : Frame)
  | round
  | alarm
  deriving DecidableEq

/-- A frame is copied to the sockets of its interface. -/
def arrive (index : Nat) (frame : Frame) (h : Host) : Host :=
  { h with
    frames := fun fd =>
      if fd ∈ h.receivers ∧ h.device fd = some index then h.frames fd ++ [frame]
      else h.frames fd }

/-- One event. -/
def step (hw : HostWorld) (event : Event) (h : Host) : Outcome Host :=
  match event with
  | .request command => .ok { h with requests := h.requests ++ [command] }
  | .arrive index frame => .ok (h.arrive index frame)
  | .round => h.round hw
  | .alarm => do
      let s ← Outcome.of (h.daemon.signalAlarm hw.world)
      .ok { h with daemon := s }

/-- The states that runs from the start arrive in. -/
def Reachable (hw : HostWorld) (h : Host) : Prop :=
  ∃ start events, setup hw = .ok start ∧ Run (step hw) unguarded start events h

end Host

/-! ## A host to run the machine on -/

/-- The only interface is `eth0`. -/
def onlyEth0 (name : List UInt8) : Option Nat := if name = Ifname.eth0.bytes then some 2 else none

/-- The descriptors behind that of `vrrpadm`. -/
def plainSock (k : Nat) : Int := 4 + k

theorem plainSock_injective : Function.Injective plainSock := by
  intro a b same
  unfold plainSock at same
  omega

theorem plainSock_above (k : Nat) : 3 < plainSock k := by
  unfold plainSock
  omega

theorem plainSock_nonneg (k : Nat) : 0 ≤ plainSock k := by
  unfold plainSock
  omega

theorem three_nonneg : (0 : Int) ≤ 3 := by decide

/-- A host with one interface, where every call succeeds. -/
def HostWorld.plain : HostWorld where
  world := .plain
  net := ⟨plainSock, fun _ => 0⟩
  ifindex := onlyEth0
  admsock := 3
  realloc _ := true
  unnamed := rfl
  opened := plainSock_nonneg
  fresh := plainSock_injective
  admOpened := three_nonneg
  admFresh k := Int.ne_of_gt (plainSock_above k)

end VrrpDaemon
