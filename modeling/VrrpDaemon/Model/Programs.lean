import VrrpDaemon.Model.System
import VrrpDaemon.Machine.Interleaving

/-!
# The operations, statement by statement

`SIGALRM` may be handled between any two statements of a command or of the
handling of a frame: the daemon never blocks the signal. So each operation is
given here once more, as a program of its statements, down to the statements of
the queue functions.

A loop along a list, and a call that touches neither the queue nor its lock, is one
statement. Local variables are bound where they are assigned. Without an alarm
the programs are the operations (`operate_run`).
-/

set_option autoImplicit false

namespace VrrpDaemon

open Machine

/-- A program of the daemon. -/
abbrev Program : Type := Prog Fault Daemon

namespace Daemon

/-! ## The queue -/

/-- `pthread_mutex_lock(&adv_q_lock)`. -/
def lockProgram (rest : Program) : Program := .change (·.onQueue (·.lock)) rest

/-- `pthread_mutex_unlock(&adv_q_lock)`. -/
def unlockProgram (rest : Program) : Program := .change (·.onQueue (·.unlock)) rest

/-- `vrrp_rmqueue_impl`. -/
def rmqueueProgram (entry : VrPtr) (rest : Program) : Program :=
  .change (·.onQueue fun q => (q.note (.rmqueue entry)).unhookForward entry) <|
  .attempt (·.tryQueue (·.unhookBackward entry)) <|
  .change (·.onQueue (·.isolate entry)) rest

/-- The branch of `vrrp_enqueue_impl` for an empty queue. -/
def enterHeadProgram (entry : VrPtr) (rest : Program) : Program :=
  .change (·.onQueue fun q => { q with advQ := some entry }) <|
  .change (·.onQueue (·.setQprev entry none)) <|
  .change (·.onQueue (·.setTimeout entry 0)) rest

/-- The branch for a queue that is not empty, with the values that `curr` and
`remain` have on the way in: the walk, the insertion, and the alarm. -/
def enqueueWalkProgram (w : World) (entry : VrPtr) (curr : Option VrPtr) (remain : UInt32)
    (rest : Program) : Program :=
  .fetch (fun s => s.q.scan (s.q.timeout entry) (TimerQueue.scanFuel s.vrTop) curr remain)
    fun (curr, sum) =>
  .attempt (·.tryQueue (·.insertAt curr sum entry)) <|
  .attempt (fun s => s.tryQueue fun q => do
    let first ← deref q.advQ
    .ok (q.ualarm w (q.timeout first)).2) rest

/-- `vrrp_enqueue_impl`. The variables `curr` and `remain` have the values of its
first statements. -/
def enqueueProgram (w : World) (entry : VrPtr) (rest : Program) : Program :=
  .act (fun s => .ok (s.onQueue fun q =>
    ((q.note (.enqueue entry (q.timeout entry))).ualarm w (q.timeout entry)).2)) fun start =>
  .look fun s =>
    if s.q.advQ = none then enterHeadProgram entry rest
    else enqueueWalkProgram w entry start.q.advQ (w.ualarm start.q.ualarmCalls) rest

/-- The checks of `vrrp_rmqueue` and `vrrp_enqueue`, and the search they share. -/
def byKeyProgram (key : Key) (next : Int → Program) (found : VrPtr → Program) : Program :=
  if ¬ key.vid > 0 then next errnoEinval
  else if !queueFamily key.af then next errnoEinval
  else .fetch (·.vrrpSearchVr key) fun
    | none => next (-1)
    | some curr => found curr

/-- `vrrp_rmqueue`. -/
def vrrpRmqueueProgram (key : Key) (next : Int → Program) : Program :=
  byKeyProgram key next fun curr => .look fun s =>
    if s.q.qnext curr = none ∧ s.q.qprev curr = none then next (-1)
    else rmqueueProgram curr (next VrrpRet.success.code)

/-- `vrrp_enqueue`. -/
def vrrpEnqueueProgram (w : World) (key : Key) (next : Int → Program) : Program :=
  byKeyProgram key next fun curr =>
    .change (fun s => s.onQueue (·.setTimeout curr
      (s.enqueueTimeout (s.vrs curr).parent (s.q.timeout curr)))) <|
    enqueueProgram w curr (next VrrpRet.success.code)

/-! ## The transitions -/

/-- `vrrp_state_b2m`. -/
def vrrpStateB2mProgram (w : World) (v : DsPtr) (rest : Program) : Program :=
  .look fun s =>
  let vri := (s.ds v).vr
  rmqueueProgram vri <|
  .change (fun s => s.onQueue (·.setTimeout vri (s.advTimeout v))) <|
  enqueueProgram w vri <|
  .change (·.setState v .mast) <|
  .attempt (·.vrrpStateExecution w .backToMast v) <|
  .change (fun s => s.onQueue (·.alarm (s.vrrpDelay v))) rest

/-- `vrrp_state_i2m`. -/
def vrrpStateI2mProgram (w : World) (v : DsPtr) (rest : Program) : Program :=
  .look fun s =>
  let vri := (s.ds v).vr
  .change (fun s => s.onQueue (·.setTimeout vri (s.advTimeout v))) <|
  lockProgram <| enqueueProgram w vri <| unlockProgram <|
  .change (·.setState v .mast) <|
  .attempt (·.vrrpStateExecution w .initToMast v) rest

/-- The end of `vrrp_state_i2b` and `vrrp_state_m2b`: the sleep and the test. -/
def retryProgram (w : World) (v : DsPtr) (rest : Program) : Program :=
  .change (fun s => s.onQueue (·.sleep (s.vrrpDelay v))) <|
  .look fun s => if s.anyMasterUp = 0 then vrrpStateB2mProgram w v rest else rest

/-- `vrrp_state_i2b`. -/
def vrrpStateI2bProgram (w : World) (v : DsPtr) (rest : Program) : Program :=
  .look fun s =>
  let vri := (s.ds v).vr
  .change (fun s => s.onQueue (·.setTimeout vri (s.advTimeout v))) <|
  lockProgram <| enqueueProgram w vri <| unlockProgram <|
  .change (·.setState v .back) <|
  retryProgram w v rest

/-- `vrrp_state_m2i`. -/
def vrrpStateM2iProgram (w : World) (v : DsPtr) (rest : Program) : Program :=
  .look fun s =>
  lockProgram <| rmqueueProgram (s.ds v).vr <| unlockProgram <|
  .change (·.setState v .init) <|
  .attempt (·.vrrpStateExecution w .mastToInit v) rest

/-- `vrrp_state_b2i`. -/
def vrrpStateB2iProgram (v : DsPtr) (rest : Program) : Program :=
  .look fun s =>
  let vri := (s.ds v).vr
  .change (fun s => s.onQueue (·.setTimeout vri (s.advTimeout v))) <|
  lockProgram <| rmqueueProgram vri <| unlockProgram <|
  .change (·.setState v .init) rest

/-- `vrrp_state_m2b`. -/
def vrrpStateM2bProgram (w : World) (v : DsPtr) (rest : Program) : Program :=
  .look fun s =>
  let vri := (s.ds v).vr
  lockProgram <| rmqueueProgram vri <|
  .change (fun s => s.onQueue (·.setTimeout vri (s.advTimeout v))) <|
  enqueueProgram w vri <| unlockProgram <|
  .change (·.setState v .back) <|
  .attempt (·.vrrpStateExecution w .mastToBack v) <|
  retryProgram w v rest

/-! ## The commands -/

/-- The command `CMD_CREATE_INST`. -/
def createProgram (w : World) (inst : VrrpInst) : Program :=
  .invoke (fun s => do
    let (ret, made, s) ← s.vrrpCreateInst w inst
    return ((ret, made), s)) fun (ret, made) =>
  if ret ≠ VrrpRet.success.code then .done
  else .fetch (fun _ => deref made) fun temp =>
    if inst.viVa.pri = 255 then
      vrrpStateI2mProgram w temp <| .change (·.onQueue (·.alarm inst.viVa.delay)) .done
    else .done

/-- `vrrp_startup_inst`. -/
def startupProgram (w : World) (key : Key) : Program :=
  if ¬ key.af = afInet then .done
  else if ¬ key.vid > 0 then .done
  else .fetch (·.vrrpSearchInst key) fun
    | none => .done
    | some v => .look fun s =>
        if (s.ds v).state ≠ .init then .done else vrrpStateI2bProgram w v .done

/-- `vrrp_shutdown_inst`. -/
def shutdownProgram (w : World) (key : Key) (rest : Program) : Program :=
  if ¬ key.af = afInet then rest
  else if ¬ key.vid > 0 then rest
  else .fetch (·.vrrpSearchInst key) fun
    | none => rest
    | some v => .look fun s =>
        match (s.ds v).state with
        | .mast => vrrpStateM2iProgram w v rest
        | .back => vrrpStateB2iProgram v rest
        | .none | .init => rest

/-- `vrrp_destroy_inst`. -/
def destroyProgram (w : World) (key : Key) : Program :=
  if ¬ key.af = afInet then .done
  else .fetch (·.vrrpSearchInst key) fun found =>
    .fetch (fun _ => deref found) fun curr => .look fun s =>
    if (s.ds curr).state = .mast then
      shutdownProgram w key <|
      lockProgram <| vrrpRmqueueProgram key fun _ => unlockProgram <|
      .attempt (·.unlinkInst curr) .done
    else
      lockProgram <| vrrpRmqueueProgram key fun _ => unlockProgram <|
      .attempt (·.vrrpStateExecution w .mastToInit curr) <|
      .attempt (·.unlinkInst curr) .done

/-- The change of the interval in `vrrp_set_inst_prop`. -/
def changeDelayProgram (w : World) (key : Key) (p : VrPtr) (delay : Int) (rest : Program) :
    Program :=
  if delay ≠ vrPropUnchange then
    .change (fun s => s.setAttr p { (s.vrs p).attr with delay := delay }) <|
    lockProgram <| vrrpRmqueueProgram key fun removed =>
      if removed = VrrpRet.success.code then
        vrrpEnqueueProgram w key fun _ => unlockProgram rest
      else unlockProgram rest
  else rest

/-- `vrrp_set_inst_prop`. -/
def modifyProgram (w : World) (key : Key) (pri delay preeMode acptMode : Int) : Program :=
  if !modeGiven preeMode then .done
  else if !modeGiven acptMode then .done
  else .fetch (·.vrrpSearchInst key) fun
    | none => .done
    | some curr => .look fun s =>
        let p := (s.ds curr).vr
        .change (·.changePri p pri) <|
        changeDelayProgram w key p delay <|
        .change (·.changeModes p preeMode acptMode) .done

/-! ## Frames -/

/-- The locked statements of both branches that rearm the timer of a VR. -/
def rearmProgram (w : World) (vri : VrPtr) (timeout : UInt32) (rest : Program) : Program :=
  lockProgram <| rmqueueProgram vri <|
  .change (·.onQueue (·.setTimeout vri timeout)) <|
  enqueueProgram w vri <| unlockProgram rest

/-- `vrrp_process_incoming_adv`. -/
def incomingProgram (w : World) (curr : DsPtr) (received : VrrpInst) : Program :=
  .look fun s =>
  let vri := (s.ds curr).vr
  let parent := (s.vrs vri).parent
  match (s.ds parent).state with
  | .back =>
      if (s.vrs vri).attr.preeMode = 0 ∨ received.viVa.pri ≥ (s.vrs vri).attr.pri then
        rearmProgram w vri (s.skewTimeout vri received.viVa.pri) .done
      else .done
  | .mast =>
      if received.viVa.pri = 0 then
        rearmProgram w vri (toTimeout (vrrpSec2usec (s.vrs vri).attr.delay)) .done
      else if received.viVa.pri > (s.vrs vri).attr.pri then vrrpStateM2bProgram w parent .done
      else .done
  | .none | .init => .done

/-- `process_vrrpd_sock`. -/
def frameProgram (w : World) (af : Int) (ifname : Ifname) (frame : Frame) : Program :=
  if !frame.accepted then .done
  else
    let vrId := frame.inst.viVr.vrId
    .change (·.setFlag vrId true) <|
    if frame.inst.viVa.pri = 0 then
      .look fun s =>
      let found := s.next instRuntimeList
      .change (·.setFlag vrId false) <|
      .fetch (fun _ => deref found) fun first => .look fun s =>
        if (s.ds first).state = .back then vrrpStateB2mProgram w first .done else .done
    else
      .fetch (·.vrrpSearchInst ⟨vrId, some ifname, af⟩) fun
        | none => .done
        | some curr => if vrId = 0 then .done else incomingProgram w curr frame.inst

/-! ## Alarms -/

/-- `vrrp_dequeue`. -/
def dequeueProgram (next : Option VrPtr → Program) : Program :=
  .look fun s =>
    match s.q.advQ with
    | none => next none
    | some curr => rmqueueProgram curr (next (some curr))

/-- The two branches of the loop body of `signal_alarm`. -/
def serveEntryProgram (w : World) (entry : VrPtr) (nextEntry : Option VrPtr) (rest : Program) :
    Program :=
  .look fun s =>
  let p := (s.vrs entry).parent
  let enter : Program :=
    .change (fun s => s.onQueue
      (·.setTimeout entry (toTimeout (vrrpSec2usec (s.vrs entry).attr.delay)))) <|
    enqueueProgram w entry <|
    .change (fun s => s.onQueue (·.alarm (s.alarmDelay entry nextEntry))) rest
  match (s.ds p).state with
  | .mast => .change (·.vrrpSendAdv p 1) enter
  | .back => vrrpStateB2mProgram w p enter
  | .none | .init => rest

/-- The loop of `signal_alarm`, with the variable `next_entry`. -/
def alarmLoopProgram (w : World) (rest : Program) : Nat → Option VrPtr → Program
  | 0, _ => .attempt (fun _ => .error .diverges) rest
  | fuel + 1, nextEntry => dequeueProgram fun
      | none => rest
      | some entry => .look fun s =>
          let more := (s.q.qnext entry).isSome && s.q.timeout entry = 0
          let nextEntry := if more then s.q.qnext entry else nextEntry
          serveEntryProgram w entry nextEntry <|
            if more then alarmLoopProgram w rest fuel nextEntry else rest

/-- `signal_alarm`. -/
def alarmProgram (w : World) : Program :=
  lockProgram <| .look fun s => alarmLoopProgram w (unlockProgram .done) (s.vrTop + 1) none

/-- The program of an operation. -/
def operate (w : World) : Op → Program
  | .command (.create inst) => createProgram w inst
  | .command (.remove key) => destroyProgram w key
  | .command (.startup key) => startupProgram w key
  | .command (.shutdown key) => shutdownProgram w key .done
  | .command (.modify key pri delay preeMode acptMode) =>
      modifyProgram w key pri delay preeMode acptMode
  | .frame af ifname frame => frameProgram w af ifname frame
  | .alarm => alarmProgram w

end Daemon

end VrrpDaemon
