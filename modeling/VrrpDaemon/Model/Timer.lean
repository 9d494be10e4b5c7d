import VrrpDaemon.Model.Transitions

/-!
# The alarm handler

`signal_alarm` of `timer.c`. Its loop takes VRs from the queue as long as
`more` is set; `more` is tested on the links of a VR that `vrrp_dequeue` has
just cleared, so one VR is served at a time (`alarmLoop_succ`).
-/

set_option autoImplicit false

namespace VrrpDaemon

open Machine

namespace Daemon

/-- The interval the handler arms `alarm` with: that of the next entry, or else
of the entry itself. -/
def alarmDelay (s : Daemon) (entry : VrPtr) (nextEntry : Option VrPtr) : Int :=
  match nextEntry with
  | none => (s.vrs entry).attr.delay
  | some other => (s.vrs other).attr.delay

/-- The two branches of the loop body of `signal_alarm`, by the state of the
instance of the VR taken. -/
def serveEntry (w : World) (entry : VrPtr) (nextEntry : Option VrPtr) (s : Daemon) :
    Result Daemon := do
  let p := (s.vrs entry).parent
  match (s.ds p).state with
  | .mast =>
      let s := s.vrrpSendAdv p 1
      let s := s.onQueue
        (·.setTimeout entry (toTimeout (vrrpSec2usec (s.vrs entry).attr.delay)))
      let s ← s.tryQueue (·.vrrpEnqueueImpl w s.vrTop entry)
      return s.onQueue (·.alarm (s.alarmDelay entry nextEntry))
  | .back =>
      let s ← s.vrrpStateB2m w p
      let s := s.onQueue
        (·.setTimeout entry (toTimeout (vrrpSec2usec (s.vrs entry).attr.delay)))
      let s ← s.tryQueue (·.vrrpEnqueueImpl w s.vrTop entry)
      return s.onQueue (·.alarm (s.alarmDelay entry nextEntry))
  | .none | .init => return s

/-- The loop of `signal_alarm`, with the variable `next_entry`. -/
def alarmLoop (w : World) : Nat → Option VrPtr → Daemon → Result Daemon
  | 0, _, _ => .error .diverges
  | fuel + 1, nextEntry, s => do
      let (taken, q) ← s.q.vrrpDequeue
      let s := { s with q := q }
      match taken with
      | none => return s
      | some entry =>
          let more := (s.q.qnext entry).isSome && s.q.timeout entry = 0
          let nextEntry := if more then s.q.qnext entry else nextEntry
          let s ← s.serveEntry w entry nextEntry
          if more then alarmLoop w fuel nextEntry s else return s

/-- `signal_alarm`. -/
def signalAlarm (w : World) (s : Daemon) : Result Daemon := do
  let s := s.onQueue (·.lock)
  let s ← s.alarmLoop w (s.vrTop + 1) none
  return s.onQueue (·.unlock)

end Daemon

end VrrpDaemon
