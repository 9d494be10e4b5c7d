import VrrpDaemon.Model.Programs

/-!
# What happens while a command is carried out

`vrrpd_adm_thread` polls its sockets, reads from one of them, and handles what it
read to the end before it polls again. So while it carries out a command, also
while it sleeps, a frame that arrives waits in its socket. An alarm is handled at
once.
-/

set_option autoImplicit false

namespace VrrpDaemon

open Machine

/-- The daemon, and the frames that wait to be read, the oldest first. -/
abbrev Polled : Type := Daemon × List Frame

/-- What may happen between two statements. -/
inductive Happening where
  | arrives (frame : Frame)
  | alarm
  deriving DecidableEq

namespace Happening

/-- A frame joins those that wait; an alarm is handled. -/
def occur (w : World) : Happening → Polled → Result Polled
  | .arrives frame, (s, waiting) => .ok (s, waiting ++ [frame])
  | .alarm, (s, waiting) => do
      let s ← s.signalAlarm w
      .ok (s, waiting)

/-- The frame that arrives. -/
def frame : Happening → Option Frame
  | .arrives frame => some frame
  | .alarm => none

end Happening

/-- Something that happened in an execution: what was left of the program, the
state, and what it was. -/
abbrev PolledMoment : Type := Prog.Moment Fault Polled Happening

namespace Daemon

/-- `vrrp_startup_inst`, next to the frames that wait. -/
def polledStartup (w : World) (key : Key) : Prog Fault Polled := (startupProgram w key).beside

end Daemon

end VrrpDaemon
