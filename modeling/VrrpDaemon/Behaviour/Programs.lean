import VrrpDaemon.Model.Programs
import VrrpDaemon.Behaviour.Queue

/-!
# Without an alarm the programs are the operations

Each program, run without interruption, is the function of the model that it cuts
into statements, followed by what comes behind it. `operate_run` puts them
together.
-/

set_option autoImplicit false

namespace VrrpDaemon

open Machine

namespace Daemon

variable {w : World} {s : Daemon} {rest : Program} {v : DsPtr} {entry : VrPtr} {key : Key}

/-! ## The queue -/

/-- A step on the queue that may fault, behind one that does not. -/
theorem tryQueue_onQueue (f : TimerQueue → TimerQueue) (act : TimerQueue → Result TimerQueue) :
    (s.onQueue f).tryQueue act = (do
      let q ← act (f s.q)
      .ok { s with q := q }) := rfl

theorem run_lock : (lockProgram rest).run s = rest.run (s.onQueue (·.lock)) := (rfl)

theorem run_unlock : (unlockProgram rest).run s = rest.run (s.onQueue (·.unlock)) := (rfl)

/-- The two neighbours are updated one after the other, and the links of the VR last. -/
theorem run_rmqueue :
    (rmqueueProgram entry rest).run s = s.tryQueue (·.vrrpRmqueueImpl entry) >>= rest.run := by
  simp only [rmqueueProgram, Prog.run_change, Prog.run_attempt, tryQueue,
    TimerQueue.vrrpRmqueueImpl, onQueue]
  cases ((s.q.note (.rmqueue entry)).unhookForward entry).unhookBackward entry <;> rfl

/-- Behind the walk come the insertion and the alarm for the head. -/
theorem run_enqueueWalk {curr : Option VrPtr} {remain : UInt32} :
    (enqueueWalkProgram w entry curr remain rest).run s =
      s.tryQueue (·.enqueueWalk w s.vrTop entry curr remain) >>= rest.run := by
  simp only [enqueueWalkProgram, Prog.run_fetch, Prog.run_attempt, tryQueue,
    TimerQueue.enqueueWalk]
  cases s.q.scan (s.q.timeout entry) (TimerQueue.scanFuel s.vrTop) curr remain with
  | error fault => rfl
  | ok found =>
      obtain ⟨curr, sum⟩ := found
      simp only [ok_bind]
      cases s.q.insertAt curr sum entry with
      | error fault => rfl
      | ok q =>
          simp only [ok_bind, Prog.run_attempt]

/-- The first statements set the alarm and read the time left; then the queue is empty, or it
is walked along. -/
theorem run_enqueue :
    (enqueueProgram w entry rest).run s =
      s.tryQueue (·.vrrpEnqueueImpl w s.vrTop entry) >>= rest.run := by
  have start : (s.onQueue (·.armed w entry)).q.advQ = s.q.advQ := rfl
  have vrs : (s.onQueue (·.armed w entry)).vrTop = s.vrTop := rfl
  simp only [enqueueProgram, Prog.run_act, ok_bind, Prog.run_look]
  show (if (s.onQueue (·.armed w entry)).q.advQ = none then enterHeadProgram entry rest
    else enqueueWalkProgram w entry s.q.advQ (w.ualarm s.q.ualarmCalls) rest).run
      (s.onQueue (·.armed w entry)) = _
  rw [start]
  by_cases empty : s.q.advQ = none
  · rw [if_pos empty, tryQueue, TimerQueue.vrrpEnqueueImpl_empty empty]
    rfl
  · rw [if_neg empty, run_enqueueWalk, tryQueue_onQueue, tryQueue,
      TimerQueue.vrrpEnqueueImpl_walk empty, vrs]

/-- The checks that `vrrp_rmqueue` and `vrrp_enqueue` share decide which program follows. -/
theorem run_byKey {next : Int → Program} {found : VrPtr → Program} :
    (byKeyProgram key next found).run s =
      if ¬ key.vid > 0 then (next errnoEinval).run s
      else if !queueFamily key.af then (next errnoEinval).run s
      else s.vrrpSearchVr key >>= fun
        | none => (next (-1)).run s
        | some curr => (found curr).run s := by
  simp only [byKeyProgram]
  split
  · rfl
  · split
    · rfl
    · rw [Prog.run_fetch]
      refine bind_congr fun searched => ?_
      cases searched <;> rfl

/-- A call of `vrrp_rmqueue` hands its status to what follows. -/
theorem run_vrrpRmqueue {next : Int → Program} :
    (vrrpRmqueueProgram key next).run s = (do
      let (ret, s) ← s.vrrpRmqueue key
      (next ret).run s) := by
  rw [vrrpRmqueueProgram, run_byKey, vrrpRmqueue]
  split
  · rfl
  · split
    · rfl
    · rw [bind_assoc]
      refine bind_congr fun searched => ?_
      cases searched with
      | none => rfl
      | some curr =>
          dsimp only
          rw [Prog.run_look]
          split
          · rfl
          · rw [run_rmqueue, bind_assoc]
            rfl

/-- A call of `vrrp_enqueue` hands its status to what follows. -/
theorem run_vrrpEnqueue {next : Int → Program} :
    (vrrpEnqueueProgram w key next).run s = (do
      let (ret, s) ← s.vrrpEnqueue w key
      (next ret).run s) := by
  rw [vrrpEnqueueProgram, run_byKey, vrrpEnqueue]
  split
  · rfl
  · split
    · rfl
    · rw [bind_assoc]
      refine bind_congr fun searched => ?_
      cases searched with
      | none => rfl
      | some curr =>
          dsimp only
          rw [Prog.run_change, run_enqueue, bind_assoc]
          exact bind_congr fun s₁ => rfl

/-! ## The transitions

The queue is changed first, and the state behind it: an alarm in between finds the VR where
the transition wants it, and the instance in its old state.
-/

theorem run_b2m : (vrrpStateB2mProgram w v rest).run s = s.vrrpStateB2m w v >>= rest.run := by
  simp only [vrrpStateB2mProgram, Prog.run_look, run_rmqueue, vrrpStateB2m, bind_assoc]
  refine bind_congr fun s₁ => ?_
  rw [Prog.run_change, run_enqueue]
  refine bind_congr fun s₂ => ?_
  rw [Prog.run_change, Prog.run_attempt]
  exact bind_congr fun s₃ => Prog.run_change

/-- The sleep at the end of a startup and of a demotion, and the promotion behind it. -/
theorem run_retry :
    (retryProgram w v rest).run s =
      (if (s.onQueue (·.sleep (s.vrrpDelay v))).anyMasterUp = 0 then
        (s.onQueue (·.sleep (s.vrrpDelay v))).vrrpStateB2m w v
      else .ok (s.onQueue (·.sleep (s.vrrpDelay v)))) >>= rest.run := by
  simp only [retryProgram, Prog.run_change, Prog.run_look]
  split
  · exact run_b2m
  · rfl

/-- What `vrrp_state_i2m` returns is nothing that the program has assigned. -/
theorem run_i2m : (vrrpStateI2mProgram w v rest).run s = (do
    let (_, s) ← s.vrrpStateI2m w v
    rest.run s) := by
  simp only [vrrpStateI2mProgram, Prog.run_look, Prog.run_change, run_lock, run_enqueue,
    vrrpStateI2m, bind_assoc]
  refine bind_congr fun s₁ => ?_
  simp only [run_unlock, Prog.run_change, Prog.run_attempt, ok_bind]

theorem run_i2b : (vrrpStateI2bProgram w v rest).run s = s.vrrpStateI2b w v >>= rest.run := by
  simp only [vrrpStateI2bProgram, Prog.run_look, Prog.run_change, run_lock, run_enqueue,
    vrrpStateI2b, bind_assoc]
  refine bind_congr fun s₁ => ?_
  rw [run_unlock, Prog.run_change, run_retry]

theorem run_m2i : (vrrpStateM2iProgram w v rest).run s = s.vrrpStateM2i w v >>= rest.run := by
  simp only [vrrpStateM2iProgram, Prog.run_look, run_lock, run_rmqueue, vrrpStateM2i, bind_assoc]
  refine bind_congr fun s₁ => ?_
  simp only [run_unlock, Prog.run_change, Prog.run_attempt]

theorem run_b2i : (vrrpStateB2iProgram v rest).run s = s.vrrpStateB2i v >>= rest.run := by
  simp only [vrrpStateB2iProgram, Prog.run_look, Prog.run_change, run_lock, run_rmqueue,
    vrrpStateB2i, bind_assoc]
  refine bind_congr fun s₁ => ?_
  simp only [run_unlock, Prog.run_change, ok_bind]

/-- A demotion ends with the signal to the child, the sleep and the test for a master. -/
theorem run_m2b : (vrrpStateM2bProgram w v rest).run s = s.vrrpStateM2b w v >>= rest.run := by
  simp only [vrrpStateM2bProgram, Prog.run_look, run_lock, run_rmqueue, vrrpStateM2b, bind_assoc]
  refine bind_congr fun s₁ => ?_
  rw [Prog.run_change, run_enqueue]
  refine bind_congr fun s₂ => ?_
  rw [run_unlock, Prog.run_change, Prog.run_attempt]
  exact bind_congr fun s₃ => run_retry

/-! ## The commands -/

/-- The record is made and listed in one statement; only the promotion of the best priority
can be interrupted. -/
theorem run_create {inst : VrrpInst} :
    (createProgram w inst).run s = s.step w (.command (.create inst)) := by
  simp only [createProgram, Prog.run_invoke, step, processCommand, createCommand, bind_assoc]
  refine bind_congr fun reply => ?_
  obtain ⟨ret, made, s₁⟩ := reply
  simp only [pure_bind]
  split
  · rfl
  · simp only [Prog.run_fetch, bind_assoc]
    refine bind_congr fun temp => ?_
    split
    · rw [run_i2m, bind_assoc]
      rfl
    · rfl

/-- A startup whose key selects an instance in `INIT` is `vrrp_state_i2b`. -/
theorem run_startup :
    (startupProgram w key).run s = s.step w (.command (.startup key)) := by
  simp only [startupProgram, step, processCommand, vrrpStartupInst]
  split
  · rfl
  · split
    · rfl
    · simp only [Prog.run_fetch, bind_assoc]
      refine bind_congr fun found => ?_
      cases found with
      | none => rfl
      | some v =>
          simp only [Prog.run_look]
          split
          · rfl
          · rw [run_i2b, bind_assoc]
            rfl

/-- A shutdown is one of two transitions, by the state of the instance. -/
theorem run_shutdown :
    (shutdownProgram w key rest).run s = (do
      let (_, s) ← s.vrrpShutdownInst w key
      rest.run s) := by
  simp only [shutdownProgram, vrrpShutdownInst]
  split
  · rfl
  · split
    · rfl
    · simp only [Prog.run_fetch, bind_assoc]
      refine bind_congr fun found => ?_
      cases found with
      | none => rfl
      | some v =>
          simp only [Prog.run_look]
          cases (s.ds v).state with
          | mast =>
              simp only [run_m2i, bind_assoc]
              rfl
          | back =>
              simp only [run_b2i, bind_assoc]
              rfl
          | none | init => rfl

/-- The two halves of `vrrp_destroy_inst`, each with its own code for the unlinking. -/
theorem run_destroy : (destroyProgram w key).run s = s.step w (.command (.remove key)) := by
  simp only [destroyProgram, step, processCommand, vrrpDestroyInst]
  split
  · rfl
  · simp only [Prog.run_fetch, bind_assoc]
    refine bind_congr fun found => bind_congr fun curr => ?_
    simp only [Prog.run_look]
    split
    · simp only [run_shutdown, run_lock, run_vrrpRmqueue, run_unlock, Prog.run_attempt, bind_assoc]
      rfl
    · simp only [run_lock, run_vrrpRmqueue, run_unlock, Prog.run_attempt, bind_assoc]
      rfl

/-- A new interval is stored before the lock is taken for the queue. -/
theorem run_changeDelay {p : VrPtr} {delay : Int} :
    (changeDelayProgram w key p delay rest).run s = s.changeDelay w key p delay >>= rest.run := by
  simp only [changeDelayProgram, changeDelay]
  split
  · simp only [Prog.run_change, run_lock, run_vrrpRmqueue, requeue, bind_assoc]
    refine bind_congr fun reply => ?_
    obtain ⟨removed, s₁⟩ := reply
    dsimp only
    split
    · rw [run_vrrpEnqueue, bind_assoc]
      rfl
    · rfl
  · rfl

/-- The attributes are stored one after the other, the interval with a change of the queue. -/
theorem run_modify {pri delay preeMode acptMode : Int} :
    (modifyProgram w key pri delay preeMode acptMode).run s =
      s.step w (.command (.modify key pri delay preeMode acptMode)) := by
  simp only [modifyProgram, step, processCommand, vrrpSetInstProp]
  split
  · rfl
  · split
    · rfl
    · simp only [Prog.run_fetch, bind_assoc]
      refine bind_congr fun found => ?_
      cases found with
      | none => rfl
      | some v =>
          simp only [Prog.run_look, Prog.run_change, run_changeDelay, bind_assoc]
          rfl

/-! ## Frames -/

theorem run_rearm {timeout : UInt32} :
    (rearmProgram w entry timeout rest).run s = s.rearm w entry timeout >>= rest.run := by
  simp only [rearmProgram, rearm, run_lock, run_rmqueue, bind_assoc]
  refine bind_congr fun s₁ => ?_
  rw [Prog.run_change, run_enqueue]
  rfl

/-- The cases of `vrrp_process_incoming_adv`, by the state of the instance. -/
theorem run_incoming {received : VrrpInst} :
    (incomingProgram w v received).run s = s.vrrpProcessIncomingAdv w v received := by
  simp only [incomingProgram, Prog.run_look, vrrpProcessIncomingAdv]
  cases (s.ds (s.vrs (s.ds v).vr).parent).state with
  | back =>
      dsimp only
      split
      · exact run_rearm.trans (bind_pure _)
      · rfl
  | mast =>
      dsimp only
      split
      · exact run_rearm.trans (bind_pure _)
      · split
        · exact run_m2b.trans (bind_pure _)
        · rfl
  | none | init => rfl

/-- A frame of priority 0 concerns the first listed instance, and any other one the instance
that a search finds. -/
theorem run_frame {af : Int} {ifname : Ifname} {frame : Frame} :
    (frameProgram w af ifname frame).run s = s.step w (.frame af ifname frame) := by
  show _ = s.processVrrpdSock w af ifname frame
  cases accepted : frame.accepted with
  | false => simp [frameProgram, accepted, processVrrpdSock_rejected accepted]
  | true =>
      simp only [frameProgram, accepted, Bool.not_true, Bool.false_eq_true, reduceIte,
        Prog.run_change]
      by_cases stop : frame.inst.viVa.pri = 0
      · rw [if_pos stop, processVrrpdSock_stop accepted stop, Prog.run_look, Prog.run_change,
          Prog.run_fetch]
        show deref (s.next instRuntimeList) >>= _ = _
        cases s.next instRuntimeList with
        | none => rfl
        | some first =>
            simp only [deref_some, ok_bind, Prog.run_look]
            show (if (s.ds first).state = .back then vrrpStateB2mProgram w first .done
              else .done).run (s.cleared frame) = _
            split
            · exact run_b2m.trans (bind_pure _)
            · rfl
      · rw [if_neg stop, processVrrpdSock_regular accepted stop, Prog.run_fetch]
        refine bind_congr fun found => ?_
        cases found with
        | none => rfl
        | some curr =>
            dsimp only
            split
            · rfl
            · exact run_incoming

/-! ## Alarms -/

theorem run_dequeue {next : Option VrPtr → Program} :
    (dequeueProgram next).run s = (do
      let (taken, q) ← s.q.vrrpDequeue
      (next taken).run { s with q := q }) := by
  simp only [dequeueProgram, Prog.run_look, TimerQueue.vrrpDequeue]
  cases s.q.advQ with
  | none => rfl
  | some curr =>
      simp only [run_rmqueue, tryQueue, bind_assoc]
      rfl

/-- A VR whose timer ran out is entered again, if its instance is still running. -/
theorem run_serveEntry {nextEntry : Option VrPtr} :
    (serveEntryProgram w entry nextEntry rest).run s =
      s.serveEntry w entry nextEntry >>= rest.run := by
  simp only [serveEntryProgram, Prog.run_look, serveEntry]
  cases (s.ds (s.vrs entry).parent).state with
  | mast =>
      simp only [Prog.run_change, run_enqueue, bind_assoc]
      rfl
  | back =>
      simp only [run_b2m, bind_assoc]
      refine bind_congr fun s₁ => ?_
      rw [Prog.run_change, run_enqueue]
      refine bind_congr fun s₂ => ?_
      rw [Prog.run_change]
      rfl
  | none | init => rfl

/-- **The loop of the alarm handler**, by induction on its fuel: each round takes the head out
and serves it, and there is another round if the VR behind it was due as well. -/
theorem run_alarmLoop {fuel : Nat} {nextEntry : Option VrPtr} :
    (alarmLoopProgram w rest fuel nextEntry).run s =
      s.alarmLoop w fuel nextEntry >>= rest.run := by
  induction fuel generalizing nextEntry s with
  | zero => rfl
  | succ fuel ih =>
      simp only [alarmLoopProgram, run_dequeue, alarmLoop, bind_assoc]
      refine bind_congr fun dequeued => ?_
      obtain ⟨taken, q⟩ := dequeued
      cases taken with
      | none => rfl
      | some entry =>
          simp only [Prog.run_look, run_serveEntry, bind_assoc]
          refine bind_congr fun s₁ => ?_
          split
          · exact ih
          · rfl

theorem run_alarm : (alarmProgram w).run s = s.step w .alarm := by
  simp only [alarmProgram, run_lock, Prog.run_look, run_alarmLoop]
  rfl

/-- **Without an alarm the program of an operation is the operation.** -/
theorem operate_run (w : World) (op : Op) (s : Daemon) : (operate w op).run s = s.step w op := by
  cases op with
  | frame af ifname frame => exact run_frame
  | alarm => exact run_alarm
  | command command =>
      cases command with
      | create inst => exact run_create
      | remove key => exact run_destroy
      | startup key => exact run_startup
      | shutdown key => exact run_shutdown
      | modify key pri delay preeMode acptMode => exact run_modify

end Daemon

end VrrpDaemon
