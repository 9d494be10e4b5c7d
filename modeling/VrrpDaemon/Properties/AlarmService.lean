import VrrpDaemon.Behaviour.LoneTimer
import VrrpDaemon.Properties.QueueRemoval

/-!
# What the alarm handler serves

`signal_alarm` is to serve the VRs whose timers have elapsed and no others: to send
an advertisement for a master, and to promote a backup (`ServesElapsed`). It takes
the VR at the head whether its timer has elapsed or not, and no other. In a queue of
two or more it cannot take it. For a backup `vrrp_state_b2m` has entered the VR
already when the handler enters it, which links the VR to itself.

What remains is a master alone in the queue whose timer has elapsed
(`servesElapsed_iff`).
-/

set_option autoImplicit false

namespace VrrpDaemon

open Machine

/-- The instance that an effect is about. -/
def Effect.inst : Effect → DsPtr
  | .state v _ _ | .fork v _ | .sigint v _ | .advert v _ => v

namespace TimerQueue

variable {q : TimerQueue} {queue : List VrPtr} {h : VrPtr}

/-- The only VR of a queue has no links. -/
theorem holds_single_iff : q.Holds [h] ↔ q.Stands h .queued := by
  constructor
  · rintro ⟨⟨head, last⟩, first, -⟩
    exact ⟨head, last, first⟩
  · rintro ⟨head, last, first⟩
    exact ⟨⟨head, last⟩, first, trivial⟩

/-- A VR that is its own predecessor is at the head of no queue. -/
theorem Stands.not_holds (looped : q.Stands h .looped) : ¬ q.Holds queue := by
  intro holds
  have member : h ∈ queue := by
    have first := holds.1.start_eq.symm.trans looped.1
    exact List.mem_of_head? first
  exact holds.qprev_ne_self member looped.2.2

end TimerQueue

namespace Daemon

variable {w : World} {s s' : Daemon} {queue : List VrPtr} {left : Nat} {h : VrPtr}

/-- The timer of the instance has elapsed, when that of the head still has `left` to
run: the VR of the instance expires at the time 0. -/
def Elapsed (s : Daemon) (queue : List VrPtr) (left : Nat) (v : DsPtr) : Prop :=
  ∃ p, (p, 0) ∈ expiries s.q.timeout left queue ∧ (s.vrs p).parent = v

/-- **A right service.** The handler returns. An instance whose timer has elapsed is
then in `MAST`: as a master it has sent one regular advertisement, as a backup it was
promoted with one fork. Nothing happened to the others. The queue is well formed, with
the VRs that were queued before. -/
def ServesElapsed (w : World) (s : Daemon) (queue : List VrPtr) (left : Nat) : Prop :=
  ∃ s' done, s.signalAlarm w = .ok s' ∧ s'.effects = s.effects ++ done ∧
    (∀ v, s.Elapsed queue left v → (s'.ds v).state = .mast ∧
      ((s.ds v).state = .mast →
        done.filter (·.inst = v) = [.advert v (s.vrrpBuildPkt v 1)]) ∧
      ((s.ds v).state = .back →
        ∃ child, done.filter (·.inst = v) = [.state v .back .mast, .fork v child])) ∧
    (∀ v, ¬ s.Elapsed queue left v →
      (s'.ds v).state = (s.ds v).state ∧ done.filter (·.inst = v) = []) ∧
    ∃ queue', queue'.Perm queue ∧ s'.q.Holds queue'

/-- The VRs of the queue are those of instances that run. -/
def QueueRuns (s : Daemon) (queue : List VrPtr) : Prop :=
  ∀ p ∈ queue, (s.ds (s.vrs p).parent).vr = p ∧ (s.ds (s.vrs p).parent).state.running = true

/-- With one VR queued its instance is the one whose timer may have elapsed. -/
theorem elapsed_single_iff {v : DsPtr} :
    s.Elapsed [h] left v ↔ left = 0 ∧ (s.vrs h).parent = v := by
  simp only [Elapsed, expiries, List.mem_singleton, Prod.mk.injEq]
  constructor
  · rintro ⟨p, ⟨rfl, now⟩, own⟩
    exact ⟨now.symm, own⟩
  · rintro ⟨now, own⟩
    exact ⟨h, ⟨rfl, now.symm⟩, own⟩

/-! ## Which queue the handler leaves -/

/-- Where the handler leaves the only VR, by the state of its instance. -/
def servedPlace : VrrpState → Place
  | .mast => .queued
  | .back => .looped
  | .none | .init => .out

/-- **The handler with one VR queued** moves it as its calls do. -/
theorem signalAlarm_stands (stands : s.q.Stands h .queued)
    (own : (s.ds (s.vrs h).parent).vr = h) (returns : s.signalAlarm w = .ok s') :
    s'.q.Stands h (servedPlace (s.ds (s.vrs h).parent).state) := by
  have placed := signalAlarm_place stands.1 own returns
  rw [if_pos stands.2.2] at placed
  simp only [servedEdits] at placed
  cases state : (s.ds (s.vrs h).parent).state with
  | mast | back | none | init =>
      rw [state] at placed
      exact placed

/-- The handler cannot take the head of a longer queue. -/
theorem not_signalAlarm_of_two {n : VrPtr} (holds : s.q.Holds (h :: n :: queue)) :
    s.signalAlarm w ≠ .ok s' := by
  refine not_signalAlarm_of_stuck holds.1.1 holds.2.1 fun last => ?_
  cases last.symm.trans holds.1.2.1

/-! ## A right service -/

/-- With nothing queued there is nothing to serve. -/
theorem servesElapsed_empty (holds : s.q.Holds []) : s.ServesElapsed w [] left := by
  have idle : s.q.advQ = none := holds.empty_iff.mpr rfl
  have returns : s.signalAlarm w = .ok ((s.onQueue (·.lock)).onQueue (·.unlock)) := by
    have locked : (s.onQueue (·.lock)).q.Holds [] := holds
    have none : (s.onQueue (·.lock)).q.vrrpDequeue = .ok (none, s.q.lock) :=
      (TimerQueue.dequeuesRight_iff locked).mpr (Nat.zero_le 1)
    simp only [signalAlarm, alarmLoop_succ, none]
    rfl
  refine ⟨_, [], returns, (List.append_nil _).symm, ?_, fun _ _ => ⟨rfl, rfl⟩, [], .nil, holds⟩
  rintro v ⟨p, impossible, -⟩
  cases impossible

/-- A master whose VR is at the head sends an advertisement. -/
theorem signalAlarm_master_core (queued : s.q.advQ = some h)
    (master : (s.ds (s.vrs h).parent).state = .mast) (returns : s.signalAlarm w = .ok s') :
    s'.core = (s.vrrpSendAdv (s.vrs h).parent 1).core := by
  rcases signalAlarm_core returns with ⟨idle, -⟩ | ⟨entry, head, core⟩
  · cases idle.symm.trans queued
  · cases head.symm.trans queued
    rwa [served, master] at core

/-- The handler returns when the only VR is that of a master. -/
theorem signalAlarm_master_returns (holds : s.q.Holds [h])
    (master : (s.ds (s.vrs h).parent).state = .mast) : ∃ s', s.signalAlarm w = .ok s' := by
  have locked : (s.onQueue (·.lock)).q.Holds [h] := holds
  obtain ⟨q, out, removed⟩ := (TimerQueue.dequeuesRight_iff locked).mpr (Nat.le_refl 1)
  have emptied : q.Holds [] := by simpa using removed.holds
  obtain ⟨s₁, served⟩ : ∃ s₁, ({ s with q := q } : Daemon).serveEntry w h none = .ok s₁ := by
    simp only [serveEntry, master]
    refine ⟨_, bind_eq_ok.mpr ⟨_, tryQueue_eq_ok.mpr
      ⟨_, TimerQueue.vrrpEnqueueImpl_empty ?_, rfl⟩, rfl⟩⟩
    exact emptied.1
  have looped : (s.onQueue (·.lock)).alarmLoop w (s.vrTop + 1) none = .ok s₁ := by
    rw [alarmLoop_succ, out]
    exact served
  exact ⟨_, bind_eq_ok.mpr ⟨s₁, looped, rfl⟩⟩

/-- A master alone in the queue, whose timer has elapsed, is served right. -/
theorem servesElapsed_master (holds : s.q.Holds [h]) (own : (s.ds (s.vrs h).parent).vr = h)
    (master : (s.ds (s.vrs h).parent).state = .mast) : s.ServesElapsed w [h] 0 := by
  have stands := TimerQueue.holds_single_iff.mp holds
  obtain ⟨s', returns⟩ := signalAlarm_master_returns holds master
  have core := signalAlarm_master_core holds.1.1 master returns
  have states : ∀ v, (s'.ds v).state = (s.ds v).state := fun v => by
    rw [ds_of_core core]
    rfl
  refine ⟨s', [.advert (s.vrs h).parent (s.vrrpBuildPkt (s.vrs h).parent 1)], returns, ?_, ?_, ?_,
    [h], .refl _, ?_⟩
  · exact effects_of_core core
  · intro v elapsed
    obtain ⟨-, rfl⟩ := elapsed_single_iff.mp elapsed
    refine ⟨(states _).trans master, fun _ => by simp [Effect.inst], fun backup => ?_⟩
    cases master.symm.trans backup
  · intro v waits
    refine ⟨states v, ?_⟩
    have other : (s.vrs h).parent ≠ v := fun same => waits (elapsed_single_iff.mpr ⟨rfl, same⟩)
    simp [Effect.inst, other]
  · have after := signalAlarm_stands stands own returns
    rw [master] at after
    exact TimerQueue.holds_single_iff.mpr after

/-- **When the handler serves exactly the elapsed timers.** For every well-formed queue
of VRs of masters and backups, and whatever is left of the timer of the head when
`SIGALRM` is delivered: if and only if the queue is empty, or holds one VR, whose timer
has elapsed and whose instance is in `MAST`. -/
theorem servesElapsed_iff (w : World) (s : Daemon) (queue : List VrPtr) (left : Nat)
    (holds : s.q.Holds queue) (runs : s.QueueRuns queue) :
    s.ServesElapsed w queue left ↔
      queue = [] ∨ ∃ h, queue = [h] ∧ left = 0 ∧ (s.ds (s.vrs h).parent).state = .mast := by
  constructor
  · rintro ⟨s', done, returns, effects, -, waits, queue', -, after⟩
    cases queue with
    | nil => exact .inl rfl
    | cons h behind =>
        cases behind with
        | cons n behind => exact absurd returns (not_signalAlarm_of_two holds)
        | nil =>
            obtain ⟨own, running⟩ := runs h List.mem_cons_self
            have placed := signalAlarm_stands (TimerQueue.holds_single_iff.mp holds) own returns
            cases state : (s.ds (s.vrs h).parent).state with
            | mast =>
                refine .inr ⟨h, rfl, ?_, state⟩
                by_contra early
                have quiet := (waits (s.vrs h).parent fun elapsed =>
                  early (elapsed_single_iff.mp elapsed).1).2
                rw [effects_of_core (signalAlarm_master_core holds.1.1 state returns)] at effects
                obtain rfl := List.append_cancel_left effects
                simp [Effect.inst] at quiet
            | back =>
                rw [state] at placed
                exact absurd after placed.not_holds
            | none | init =>
                rw [state] at running
                cases running
  · rintro (rfl | ⟨h, rfl, rfl, master⟩)
    · exact servesElapsed_empty holds
    · exact servesElapsed_master holds (runs h List.mem_cons_self).1 master

/-- A master alone. -/
theorem servesElapsed_alone :
    ∃ s, Run (step .plain) unguarded initial [.create 7 255] s ∧ s.q.Holds [0] ∧
      (s.ds 1).state = .mast ∧ s.ServesElapsed .plain [0] 0 := by
  have ran : passes (fun s => s.q.advQ == some 0 && s.q.qnext 0 == none && s.q.qprev 0 == none &&
      (s.vrs 0).parent == 1 && (s.ds 1).vr == 0 && (s.ds 1).state == .mast)
      (exec (step .plain) [.create 7 255] initial) = true := by decide +kernel
  obtain ⟨s, returns, tested⟩ := exists_of_passes ran
  simp only [Bool.and_eq_true, beq_iff_eq] at tested
  obtain ⟨⟨⟨⟨⟨head, last⟩, first⟩, parent⟩, own⟩, master⟩ := tested
  have holds : s.q.Holds [0] := TimerQueue.holds_single_iff.mpr ⟨head, last, first⟩
  have runs : s.QueueRuns [0] := by
    intro p member
    rw [List.mem_singleton.mp member, parent, own, master]
    exact ⟨rfl, rfl⟩
  refine ⟨s, run_of_exec returns, holds, master, ?_⟩
  refine (servesElapsed_iff .plain s [0] 0 holds runs).mpr (.inr ⟨0, rfl, rfl, ?_⟩)
  rw [parent]
  exact master

/-- **A backup whose timer has elapsed is entered twice**: if the handler returns at all,
the VR is its own successor. -/
theorem servesElapsed_backup :
    ∃ s, Run (step .plain) unguarded initial [.hear 9 50, .create 7 100, .startup 7] s ∧
      (s.q.Holds [0] ∧ s.QueueRuns [0]) ∧ (s.ds 1).state = .back ∧
      (∀ s', s.signalAlarm .plain = .ok s' → s'.q.qnext 0 = some 0) ∧
      ¬ s.ServesElapsed .plain [0] 0 := by
  have ran : passes (fun s => s.q.advQ == some 0 && s.q.qnext 0 == none && s.q.qprev 0 == none &&
      (s.vrs 0).parent == 1 && (s.ds 1).vr == 0 && (s.ds 1).state == .back)
      (exec (step .plain) [.hear 9 50, .create 7 100, .startup 7] initial) = true := by
    decide +kernel
  obtain ⟨s, returns, tested⟩ := exists_of_passes ran
  simp only [Bool.and_eq_true, beq_iff_eq] at tested
  obtain ⟨⟨⟨⟨⟨head, last⟩, first⟩, parent⟩, own⟩, backup⟩ := tested
  have stands : s.q.Stands 0 .queued := ⟨head, last, first⟩
  have runs : s.QueueRuns [0] := by
    intro p member
    rw [List.mem_singleton.mp member, parent, own, backup]
    exact ⟨rfl, rfl⟩
  have looped : ∀ s', s.signalAlarm .plain = .ok s' → s'.q.Stands 0 .looped := by
    intro s' handled
    have placed := signalAlarm_stands stands (runs 0 List.mem_cons_self).1 handled
    rwa [parent, backup] at placed
  refine ⟨s, run_of_exec returns, ⟨TimerQueue.holds_single_iff.mpr stands, runs⟩, backup,
    fun s' handled => (looped s' handled).2.1, ?_⟩
  rintro ⟨s', done, handled, -, -, -, queue, -, holds⟩
  exact (looped s' handled).not_holds holds

end Daemon

end VrrpDaemon
