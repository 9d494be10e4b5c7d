import VrrpDaemon.Model.System
import VrrpDaemon.Machine.Network

/-!
# Routers on one network segment

Several daemons, each with one instance of the same key, on interfaces of one
segment. What a router writes to its socket is delivered to the other routers,
which read it in any order. Sending delivers the bytes that were built.

A router acts on its own by an operation of its daemon, or by sending the
regular advertisement of a master. The latter is what the `MAST` branch of
`signal_alarm` does besides the timer.
-/

set_option autoImplicit false

namespace VrrpDaemon

open Machine

namespace Daemon

/-- The `vrrp_send_adv` of a master's regular advertisement. -/
def advertise (v : DsPtr) (s : Daemon) : Daemon :=
  if (s.ds v).state = .mast then s.vrrpSendAdv v 1 else s

/-- The frames among the effects. -/
def framesOf (effects : List Effect) : List Frame :=
  effects.filterMap fun
    | .advert _ frame => some frame
    | _ => none

/-- The frames written between two states. -/
def written (s s' : Daemon) : List Frame := framesOf (s'.effects.drop s.effects.length)

end Daemon

/-- What a router does by itself. -/
inductive LanAction where
  | advertise
  | operate (op : Op)
  deriving DecidableEq

/-- The routers of a segment: the world each lives in, the instance it runs, the
VRID and interface name they share, and who hears whom. -/
structure Lan (ι : Type) where
  world : ι → World
  inst : ι → DsPtr
  vid : UInt8
  ifname : Ifname
  peers : ι → List ι

namespace Lan

variable {ι : Type}

/-- The key that the routers share. -/
def key (lan : Lan ι) : Key := ⟨lan.vid, some lan.ifname, afInet⟩

/-- The routers as nodes that exchange frames. -/
def protocol (lan : Lan ι) : Protocol Fault ι LanAction Frame Daemon where
  act i action s :=
    match action with
    | .advertise => .ok (s.advertise (lan.inst i))
    | .operate op => s.step (lan.world i) op
  receive i frame s := s.processVrrpdSock (lan.world i) afInet lan.ifname frame
  sent := Daemon.written
  peers := lan.peers

/-- A state of the segment. -/
abbrev State (_ : Lan ι) : Type := Net ι Frame Daemon

/-- An event of the segment. -/
abbrev Event (_ : Lan ι) : Type := NetEvent ι LanAction Frame

/-- The state of a router's instance. -/
def stateOf (lan : Lan ι) (n : lan.State) (i : ι) : VrrpState := ((n.node i).ds (lan.inst i)).state

/-- The priority of a router's instance. -/
def priOf (lan : Lan ι) (n : lan.State) (i : ι) : UInt8 := (n.node i).vrrpPri (lan.inst i)

end Lan

end VrrpDaemon
