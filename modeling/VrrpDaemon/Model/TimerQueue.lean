import VrrpDaemon.Model.Types
import VrrpDaemon.Machine.PointerList

/-!
# The advertisement queue

`adv_q` is a list of VRs threaded through `qnext` and `qprev`, each with a
stored timeout. This module embeds the functions of `vrrpd_impl.c` that edit it
through bare pointers: `vrrp_enqueue_impl`, `vrrp_rmqueue_impl` and
`vrrp_dequeue`. Each statement that reads a pointer does so with `deref`, in
the order of the source.

The loop of `vrrp_enqueue_impl` follows `qnext` while the accumulated time is
short of the entry's timeout. It is bounded by the number of different values
its two variables can take, one VR among the allocated ones and one 32-bit sum:
a walk that runs longer has come back to where it was and never ends.
-/

set_option autoImplicit false

namespace VrrpDaemon

open Machine

/-- What the daemon does to its timers, in order. -/
inductive TimerEvent where
  | lock
  | unlock
  | enqueue (entry : VrPtr) (timeout : UInt32)
  | rmqueue (entry : VrPtr)
  | ualarm (usec : UInt32)
  | alarm (sec : Int)
  | sleep (sec : Int)
  deriving DecidableEq

/-- `adv_q` with the queue fields of every VR, the number of calls of `ualarm`
so far and the log of what was done. -/
structure TimerQueue where
  advQ : Option VrPtr
  timeout : VrPtr → UInt32
  qnext : VrPtr → Option VrPtr
  qprev : VrPtr → Option VrPtr
  ualarmCalls : Nat
  log : List TimerEvent

namespace TimerQueue

/-- No VR is queued. -/
def empty : TimerQueue where
  advQ := none
  timeout _ := 0
  qnext _ := none
  qprev _ := none
  ualarmCalls := 0
  log := []

/-- Record an event. -/
def note (q : TimerQueue) (event : TimerEvent) : TimerQueue :=
  { q with log := q.log ++ [event] }

/-- Store a VR's timeout. -/
def setTimeout (q : TimerQueue) (p : VrPtr) (t : UInt32) : TimerQueue :=
  { q with timeout := Function.update q.timeout p t }

/-- Store a VR's `qnext`. -/
def setQnext (q : TimerQueue) (p : VrPtr) (target : Option VrPtr) : TimerQueue :=
  { q with qnext := Function.update q.qnext p target }

/-- Store a VR's `qprev`. -/
def setQprev (q : TimerQueue) (p : VrPtr) (target : Option VrPtr) : TimerQueue :=
  { q with qprev := Function.update q.qprev p target }

/-- `pthread_mutex_lock(&adv_q_lock)`. -/
def lock (q : TimerQueue) : TimerQueue := q.note .lock

/-- `pthread_mutex_unlock(&adv_q_lock)`. -/
def unlock (q : TimerQueue) : TimerQueue := q.note .unlock

/-- `alarm(sec)`. -/
def alarm (q : TimerQueue) (sec : Int) : TimerQueue := q.note (.alarm sec)

/-- `sleep(sec)`. -/
def sleep (q : TimerQueue) (sec : Int) : TimerQueue := q.note (.sleep sec)

/-- `ualarm(usec, 0)`: arms the alarm and returns what was left of the one
before. -/
def ualarm (w : World) (usec : UInt32) (q : TimerQueue) : UInt32 × TimerQueue :=
  (w.ualarm q.ualarmCalls, { q with ualarmCalls := q.ualarmCalls + 1 }.note (.ualarm usec))

/-- The loop of `vrrp_enqueue_impl`: where it stops, and the sum it has then. -/
def scan (q : TimerQueue) (timeout : UInt32) :
    Nat → Option VrPtr → UInt32 → Result (Option VrPtr × UInt32)
  | _, none, sum => .ok (none, sum)
  | fuel, some curr, sum =>
      if sum < timeout then
        match fuel with
        | 0 => .error .diverges
        | fuel + 1 => scan q timeout fuel (q.qnext curr) (sum + q.timeout curr)
      else .ok (some curr, sum)

/-- The number of values the variables of the loop can take together, when
`vrs` VRs have been allocated. -/
def scanFuel (vrs : Nat) : Nat := vrs * UInt32.size

/-- The branch of `vrrp_enqueue_impl` for a walk that went past the last VR, so
that `curr` is null. -/
def appendAfter (curr : Option VrPtr) (sum : UInt32) (entry : VrPtr) (q : TimerQueue) :
    Result TimerQueue := do
  let c ← deref curr
  let q := q.setQnext c (some entry)
  let q := q.setQprev entry (some c)
  let q := q.setQnext entry none
  .ok (q.setTimeout c (q.timeout entry - sum))

/-- The end of the other branch: the entry becomes the head, or the VR before it
points to it. -/
def hookBefore (curr : Option VrPtr) (entry : VrPtr) (q : TimerQueue) : Result TimerQueue :=
  if curr = q.advQ then .ok { q with advQ := some entry }
  else do
    let p ← deref (q.qprev entry)
    let q := q.setQnext p (some entry)
    let p ← deref (q.qprev entry)
    .ok (q.setTimeout p (q.timeout p - q.timeout entry))

/-- The branch of `vrrp_enqueue_impl` that places the entry before `curr`.
`qprev` of the entry is read from `curr` after it was stored there. -/
def insertBefore (curr : Option VrPtr) (sum : UInt32) (entry : VrPtr) (q : TimerQueue) :
    Result TimerQueue := do
  let q := q.setTimeout entry (sum - q.timeout entry)
  let q := q.setQnext entry curr
  let c ← deref curr
  let q := q.setQprev c (some entry)
  let q := q.setQprev entry (q.qprev c)
  q.hookBefore curr entry

/-- What `vrrp_enqueue_impl` does once it has found the place. -/
def insertAt (curr : Option VrPtr) (sum : UInt32) (entry : VrPtr) (q : TimerQueue) :
    Result TimerQueue :=
  if sum < q.timeout entry then q.appendAfter curr sum entry else q.insertBefore curr sum entry

/-- The branch of `vrrp_enqueue_impl` for a queue that is not empty, with the
values that `curr` and `remain` have on the way in. -/
def enqueueWalk (w : World) (vrs : Nat) (entry : VrPtr) (curr : Option VrPtr) (remain : UInt32)
    (q : TimerQueue) : Result TimerQueue := do
  let (curr, sum) ← q.scan (q.timeout entry) (scanFuel vrs) curr remain
  let q ← q.insertAt curr sum entry
  let first ← deref q.advQ
  .ok (q.ualarm w (q.timeout first)).2

/-- `vrrp_enqueue_impl`. -/
def vrrpEnqueueImpl (w : World) (vrs : Nat) (entry : VrPtr) (q : TimerQueue) :
    Result TimerQueue :=
  let curr := q.advQ
  let q := q.note (.enqueue entry (q.timeout entry))
  let (remain, q) := q.ualarm w (q.timeout entry)
  if q.advQ = none then
    .ok ({ q with advQ := some entry }.setQprev entry none |>.setTimeout entry 0)
  else q.enqueueWalk w vrs entry curr remain

/-- The first statement of `vrrp_rmqueue_impl`: the VR before the entry, or
`adv_q`, points past it. -/
def unhookForward (entry : VrPtr) (q : TimerQueue) : TimerQueue :=
  match q.qprev entry with
  | none => { q with advQ := q.qnext entry }
  | some p => q.setQnext p (q.qnext entry)

/-- The second statement: the VR after the entry points back past it, and the
one before it takes over the entry's timeout. -/
def unhookBackward (entry : VrPtr) (q : TimerQueue) : Result TimerQueue :=
  match q.qnext entry with
  | none => .ok q
  | some n => do
      let q := q.setQprev n (q.qprev entry)
      let p ← deref (q.qprev entry)
      .ok (q.setTimeout p (q.timeout p + q.timeout entry))

/-- The last statements: the entry keeps no links. -/
def isolate (entry : VrPtr) (q : TimerQueue) : TimerQueue :=
  (q.setQnext entry none).setQprev entry none

/-- `vrrp_rmqueue_impl`. -/
def vrrpRmqueueImpl (entry : VrPtr) (q : TimerQueue) : Result TimerQueue := do
  let q ← ((q.note (.rmqueue entry)).unhookForward entry).unhookBackward entry
  .ok (q.isolate entry)

/-- `vrrp_dequeue`. -/
def vrrpDequeue (q : TimerQueue) : Result (Option VrPtr × TimerQueue) :=
  match q.advQ with
  | none => .ok (none, q)
  | some curr => do
      let q ← q.vrrpRmqueueImpl curr
      .ok (some curr, q)

end TimerQueue

end VrrpDaemon
