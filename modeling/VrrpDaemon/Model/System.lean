import VrrpDaemon.Model.Receive
import VrrpDaemon.Model.Timer
import VrrpDaemon.Machine.Runs

/-!
# The daemon as a machine

The operations that the daemon carries out one after the other: the commands
that `process_adm_sock` dispatches, the frames that `process_vrrpd_sock` reads
and the deliveries of `SIGALRM`. Each is one step of a machine over the state
of the daemon, and a run is a sequence of steps that return.
-/

set_option autoImplicit false

namespace VrrpDaemon

open Machine

/-- The commands that change the daemon. -/
inductive Command where
  | create (inst : VrrpInst)
  | remove (key : Key)
  | startup (key : Key)
  | shutdown (key : Key)
  | modify (key : Key) (pri delay preeMode acptMode : Int)
  deriving DecidableEq

/-- One operation of the daemon. A frame comes with the interface and the
family its socket was registered with. -/
inductive Op where
  | command (command : Command)
  | frame (af : Int) (ifname : Ifname) (frame : Frame)
  | alarm
  deriving DecidableEq

namespace Daemon

/-- The command `CMD_CREATE_INST` of `process_adm_sock`, without the sockets that
`vrrpd_setup_netfd` and `inst_start_recv` open before the reply: they are no part of this
state, and the daemon may end there (`Host.createCommand`). -/
def createCommand (w : World) (inst : VrrpInst) (s : Daemon) : Result (Int × Daemon) := do
  let (ret, made, s) ← s.vrrpCreateInst w inst
  if ret ≠ VrrpRet.success.code then return (ret, s)
  let temp ← deref made
  if inst.viVa.pri = 255 then
    let (ret, s) ← s.vrrpStateI2m w temp
    return (ret, s.onQueue (·.alarm inst.viVa.delay))
  else return (ret, s)

/-- The commands of `process_adm_sock`, with the status of the reply. -/
def processCommand (w : World) (command : Command) (s : Daemon) : Result (Int × Daemon) :=
  match command with
  | .create inst => s.createCommand w inst
  | .remove key => s.vrrpDestroyInst w key
  | .startup key => s.vrrpStartupInst w key
  | .shutdown key => s.vrrpShutdownInst w key
  | .modify key pri delay preeMode acptMode =>
      s.vrrpSetInstProp w key pri delay preeMode acptMode

/-- One operation of the daemon. -/
def step (w : World) (op : Op) (s : Daemon) : Result Daemon :=
  match op with
  | .command command => do
      let (_, s) ← s.processCommand w command
      .ok s
  | .frame af ifname frame => s.processVrrpdSock w af ifname frame
  | .alarm => s.signalAlarm w

/-- The states that runs of operations from the initial state arrive in. -/
def Reachable (w : World) (s : Daemon) : Prop :=
  ∃ ops, Run (step w) unguarded initial ops s

end Daemon

/-! ## Inputs to run the machine on -/

/-- The interface `eth0`. -/
def Ifname.eth0 : Ifname := ⟨[101, 116, 104, 48], by decide, by decide⟩

/-- A world where no alarm is ever pending, each fork returns a new pid and no
allocation fails. -/
def World.plain : World where
  ualarm _ := 0
  fork calls := some (calls + 1)
  malloc _ := true
  uninitialised := 0

/-- The record of an instance on `eth0` with one address. It serves as a create
request and as the content of an advertisement. -/
def VrrpInst.sample (vid pri : UInt8) : VrrpInst where
  viVa := { pri := pri, delay := 1, preeMode := 1, acceptMode := 0 }
  viVr := { vrId := vid, vrAf := afInet, in4 := 0, vrIpnum := 1, vrIp := [0], vrIfname := .eth0 }
  viState := 0
  viActive := 1

/-- The same without a family. -/
def VrrpInst.familyless (vid pri : UInt8) : VrrpInst :=
  { VrrpInst.sample vid pri with
    viVr := { (VrrpInst.sample vid pri).viVr with vrAf := afUnspec } }

/-- The key that designates an instance of `VrrpInst.sample`. -/
def Key.sample (vid : UInt8) : Key := ⟨vid, some .eth0, afInet⟩

/-- An advertisement whose header is accepted. -/
def Frame.sample (vid pri : UInt8) : Frame := ⟨4, ipprotoVrrp, vrrpIpTtl, .sample vid pri⟩

/-- The command that creates such an instance. -/
def Op.create (vid pri : UInt8) : Op := .command (.create (.sample vid pri))

/-- The commands that start, stop and destroy it. -/
def Op.startup (vid : UInt8) : Op := .command (.startup (.sample vid))
def Op.shutdown (vid : UInt8) : Op := .command (.shutdown (.sample vid))
def Op.remove (vid : UInt8) : Op := .command (.remove (.sample vid))

/-- The receipt of such an advertisement on `eth0`. -/
def Op.hear (vid pri : UInt8) : Op := .frame afInet .eth0 (.sample vid pri)

end VrrpDaemon
