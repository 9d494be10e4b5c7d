import VrrpDaemon.Model.Arrivals
import VrrpDaemon.Behaviour.Programs
import VrrpDaemon.Behaviour.Steps

/-!
# The waiting window of a startup

`vrrp_state_i2b` puts an instance in `BACK`, sleeps for one interval, and takes
over unless `any_master_up` finds a flag. The flags are set when a frame is
handled, and the thread that sleeps is the one that handles frames: what arrives
in the window is read after the startup (`polledStartup_not_master_iff`).
-/

set_option autoImplicit false

namespace VrrpDaemon

open Machine

namespace Daemon

/-- The instance is in `BACK`, and its VR at the head of the queue: an alarm would
make it a master. -/
def Served (v : DsPtr) (s : Daemon) : Prop :=
  ∃ entry, s.q.advQ = some entry ∧ (s.vrs entry).parent = v ∧ (s.ds v).state = .back

/-- An alarm that promotes the instance. -/
def Promotes (v : DsPtr) (moment : PolledMoment) : Prop :=
  moment.2.2 = .alarm ∧ Served v moment.2.1.1

/-- The frames that arrived in an execution. -/
def arrived (trace : List PolledMoment) : List Frame := trace.filterMap fun moment => moment.2.2.frame

/-- What neither an alarm nor a change of the queue touches. -/
structure Like (v : DsPtr) (s t : Daemon) : Prop where
  shape : t.shape = s.shape
  up : t.anyMasterUp = s.anyMasterUp
  init : (t.ds v).state = .init ↔ (s.ds v).state = .init

/-- However the execution goes on, the instance ends as a master exactly if it is
one already, claims it, or is promoted by an alarm; and no frame is read. -/
def Ends (w : World) (v : DsPtr) (claims : Prop) (p : Program) (a : Polled) : Prop :=
  Prog.Ensures (Happening.occur w) (fun trace t =>
    ((t.1.ds v).state = .mast ↔
        (a.1.ds v).state = .mast ∨ claims ∨ ∃ moment ∈ trace, Promotes v moment) ∧
      t.2 = a.2 ++ arrived trace) p.beside a

variable {w : World} {v : DsPtr} {s s' t : Daemon} {a a' : Polled} {claims : Prop} {rest : Program}

/-! ## Between the statements -/

namespace Like

theorem refl (v : DsPtr) (s : Daemon) : Like v s s := ⟨rfl, rfl, Iff.rfl⟩

theorem trans (first : Like v s s') (second : Like v s' t) : Like v s t :=
  ⟨second.shape.trans first.shape, second.up.trans first.up, second.init.trans first.init⟩

theorem of_core (same : t.core = s.core) : Like v s t :=
  ⟨shape_of_core same, anyMasterUp_congr (flag_of_core same), by rw [ds_of_core same]⟩

end Like

theorem served_back {entry : VrPtr} (backup : (s.ds (s.vrs entry).parent).state = .back) :
    s.served w entry = s.promote w .backToMast (s.vrs entry).parent := by
  simp only [served, backup]

/-- Unless the instance of the VR is in `BACK`, an alarm leaves all states. -/
theorem served_other {entry : VrPtr} (other : (s.ds (s.vrs entry).parent).state ≠ .back) :
    (s.served w entry).ds = s.ds ∧ (s.served w entry).flag = s.flag := by
  unfold served
  dsimp only
  split
  · exact ⟨rfl, rfl⟩
  · rename_i backup
    exact absurd backup other
  · exact ⟨rfl, rfl⟩
  · exact ⟨rfl, rfl⟩

/-- An alarm promotes the instance, or leaves its state. -/
theorem signalAlarm_state (returns : s.signalAlarm w = .ok s') :
    Like v s s' ∧ ((s'.ds v).state = .mast ↔ (s.ds v).state = .mast ∨ Served v s) := by
  rcases signalAlarm_core returns with ⟨idle, core⟩ | ⟨entry, queued, core⟩
  · refine ⟨.of_core core, ?_⟩
    rw [ds_of_core core, or_iff_left]
    rintro ⟨entry, queued, -⟩
    cases idle.symm.trans queued
  · have shape : s'.shape = s.shape := shape_stable.alarm returns
    by_cases backup : (s.ds (s.vrs entry).parent).state = .back
    · rw [served_back backup] at core
      have up : s'.anyMasterUp = s.anyMasterUp :=
        anyMasterUp_congr ((flag_of_core core).trans (flag_promote ..))
      by_cases here : v = (s.vrs entry).parent
      · subst here
        have master : (s'.ds (s.vrs entry).parent).state = .mast := by
          rw [ds_of_core core, state_promote_self]
        refine ⟨⟨shape, up, ?_⟩, iff_of_true master (.inr ⟨entry, queued, rfl, backup⟩)⟩
        rw [master, backup]
        exact iff_of_false nofun nofun
      · have same : (s'.ds v).state = (s.ds v).state := by
          rw [ds_of_core core, state_promote_other _ _ _ _ here]
        rw [same, or_iff_left]
        · exact ⟨⟨shape, up, by rw [same]⟩, Iff.rfl⟩
        · rintro ⟨entry', queued', parent, -⟩
          cases queued.symm.trans queued'
          exact here parent.symm
    · obtain ⟨ds, flag⟩ := @served_other w s entry backup
      have same : s'.ds = s.ds := (ds_of_core core).trans ds
      rw [same, or_iff_left]
      · refine ⟨⟨shape, anyMasterUp_congr ((flag_of_core core).trans flag), by rw [same]⟩, Iff.rfl⟩
      · rintro ⟨entry', queued', rfl, here⟩
        cases queued.symm.trans queued'
        exact backup here

/-- What happens at one point: the instance is promoted, or keeps its state, and
what arrives waits. -/
theorem interrupts_state {p : Prog Fault Polled} {trace : List PolledMoment}
    (events : Prog.Interrupts (Happening.occur w) p a trace a') :
    Like v a.1 a'.1 ∧
      ((a'.1.ds v).state = .mast ↔
        (a.1.ds v).state = .mast ∨ ∃ moment ∈ trace, Promotes v moment) ∧
      a'.2 = a.2 ++ arrived trace := by
  induction events with
  | nil => exact ⟨.refl v _, by simp, by simp [arrived]⟩
  | @cons b b₁ b₂ happening trace returns _ ih =>
      obtain ⟨like, master, waiting⟩ := ih
      cases happening with
      | arrives frame =>
          cases returns
          refine ⟨like, ?_, ?_⟩
          · rw [master]
            simp [Promotes]
          · rw [waiting]
            simp [arrived, Happening.frame]
      | alarm =>
          obtain ⟨s, handled, same⟩ := bind_eq_ok.mp returns
          cases same
          obtain ⟨like', master'⟩ := @signalAlarm_state w v _ _ handled
          refine ⟨like'.trans like, ?_, ?_⟩
          · rw [master, master', or_assoc]
            simp [Promotes]
          · rw [waiting]
            simp [arrived, Happening.frame]

theorem arrived_append (first later : List PolledMoment) :
    arrived (first ++ later) = arrived first ++ arrived later :=
  List.filterMap_append

/-! ## One statement after the other -/

theorem ends_done : Ends w v False .done a := by
  refine Prog.ensures_done.mpr fun trace t events => ?_
  obtain ⟨-, master, waiting⟩ := @interrupts_state w v _ _ _ _ events
  rw [master, false_or]
  exact ⟨Iff.rfl, waiting⟩

/-- A statement that leaves open whether the instance is a master. -/
theorem ends_act {f : Daemon → Result Daemon} {next : Daemon → Program}
    (behind : ∀ (a₁ : Polled) s₂, Like v a.1 a₁.1 → f a₁.1 = .ok s₂ →
      ((s₂.ds v).state = .mast ↔ (a₁.1.ds v).state = .mast) ∧
        Ends w v claims (next a₁.1) (s₂, a₁.2)) :
    Ends w v claims (.act f next) a := by
  refine Prog.ensures_act.mpr fun first a₁ events a₂ returns later t execution => ?_
  obtain ⟨like, master, waiting⟩ := @interrupts_state w v _ _ _ _ events
  obtain ⟨s₂, stepped, same⟩ := bind_eq_ok.mp returns
  cases same
  obtain ⟨kept, ends⟩ := behind a₁ s₂ like stepped
  obtain ⟨masters, waits⟩ := ends later t execution
  refine ⟨?_, ?_⟩
  · rw [masters, kept, master]
    simp only [List.mem_append, or_and_right, exists_or]
    exact or_assoc.trans (or_congr_right or_left_comm)
  · rw [waits, waiting, arrived_append, List.append_assoc]

/-- A statement that makes the instance a master. -/
theorem ends_claim {f : Daemon → Result Daemon} {next : Daemon → Program}
    (behind : ∀ (a₁ : Polled) s₂, f a₁.1 = .ok s₂ →
      (s₂.ds v).state = .mast ∧ Ends w v False (next a₁.1) (s₂, a₁.2)) :
    Ends w v True (.act f next) a := by
  refine Prog.ensures_act.mpr fun first a₁ events a₂ returns later t execution => ?_
  obtain ⟨-, -, waiting⟩ := @interrupts_state w v _ _ _ _ events
  obtain ⟨s₂, stepped, same⟩ := bind_eq_ok.mp returns
  cases same
  obtain ⟨claimed, ends⟩ := behind a₁ s₂ stepped
  obtain ⟨masters, waits⟩ := ends later t execution
  refine ⟨iff_of_true (masters.mpr (.inl claimed)) (.inr (.inl trivial)), ?_⟩
  rw [waits, waiting, arrived_append, List.append_assoc]

theorem ends_look {next : Daemon → Program}
    (behind : ∀ a₁ : Polled, Like v a.1 a₁.1 → Ends w v claims (next a₁.1) a₁) :
    Ends w v claims (.look next) a :=
  ends_act fun a₁ _ like returns => by
    cases returns
    exact ⟨Iff.rfl, behind a₁ like⟩

theorem ends_fetch {α : Type} {read : Daemon → Result α} {next : α → Program}
    (behind : ∀ (a₁ : Polled) found, Like v a.1 a₁.1 → read a₁.1 = .ok found →
      Ends w v claims (next found) a₁) :
    Ends w v claims (.fetch read next) a := by
  refine ends_act fun a₁ s₂ like returns => ?_
  obtain ⟨found, given, same⟩ := bind_eq_ok.mp returns
  cases same
  rw [given]
  exact ⟨Iff.rfl, behind a₁ found like given⟩

/-- A statement on the queue. -/
theorem ends_attempt {f : Daemon → Result Daemon} (keeps : ∀ s s', f s = .ok s' → s'.core = s.core)
    (behind : ∀ a' : Polled, Like v a.1 a'.1 → Ends w v claims rest a') :
    Ends w v claims (.attempt f rest) a := by
  refine ends_act fun a₁ s₂ like returns => ?_
  have core := keeps _ _ returns
  exact ⟨by rw [ds_of_core core], behind (s₂, a₁.2) (like.trans (.of_core core))⟩

theorem ends_change {f : Daemon → Daemon} (keeps : ∀ s, (f s).core = s.core)
    (behind : ∀ a' : Polled, Like v a.1 a'.1 → Ends w v claims rest a') :
    Ends w v claims (.change f rest) a :=
  ends_attempt (fun s _ returns => Except.ok.inj returns ▸ keeps s) behind

/-! ## The queue -/

theorem ends_rmqueue {entry : VrPtr}
    (behind : ∀ a' : Polled, Like v a.1 a'.1 → Ends w v claims rest a') :
    Ends w v claims (rmqueueProgram entry rest) a := by
  refine ends_change (fun _ => rfl) fun a₁ like₁ => ?_
  refine ends_attempt (fun _ _ => core_tryQueue) fun a₂ like₂ => ?_
  exact ends_change (fun _ => rfl) fun a₃ like₃ => behind a₃ ((like₁.trans like₂).trans like₃)

theorem ends_enqueue {entry : VrPtr}
    (behind : ∀ a' : Polled, Like v a.1 a'.1 → Ends w v claims rest a') :
    Ends w v claims (enqueueProgram w entry rest) a := by
  refine ends_act fun a₁ s₁ like₁ started => ?_
  cases started
  refine ⟨Iff.rfl, ends_look fun a₂ like₂ => ?_⟩
  have armed : Like v a₁.1 (a₁.1.onQueue (·.armed w entry)) := .of_core rfl
  have like : Like v a.1 a₂.1 := (like₁.trans armed).trans like₂
  split
  · refine ends_change (fun _ => rfl) fun a₃ like₃ => ?_
    refine ends_change (fun _ => rfl) fun a₄ like₄ => ?_
    refine ends_change (fun _ => rfl) fun a₅ like₅ => ?_
    exact behind a₅ (((like.trans like₃).trans like₄).trans like₅)
  · refine ends_fetch fun a₃ found like₃ _ => ?_
    refine ends_attempt (fun _ _ => core_tryQueue) fun a₄ like₄ => ?_
    refine ends_attempt (fun _ _ => core_tryQueue) fun a₅ like₅ => ?_
    exact behind a₅ (((like.trans like₃).trans like₄).trans like₅)

/-! ## The startup -/

/-- Once it has found no flag, the instance claims to be the master. -/
theorem ends_b2m : Ends w v True (vrrpStateB2mProgram w v .done) a := by
  refine ends_look fun a₁ _ => ends_rmqueue fun a₂ _ => ?_
  refine ends_change (fun _ => rfl) fun a₃ _ => ends_enqueue fun a₄ _ => ?_
  refine ends_claim fun a₅ s₂ claimed => ?_
  cases claimed
  rw [setState_ds_self]
  refine ⟨rfl, ends_act fun a₆ s₃ _ executed => ?_⟩
  obtain rfl := eq_executed executed
  rw [state_execution]
  exact ⟨Iff.rfl, ends_change (fun _ => rfl) fun a₇ _ => ends_done⟩

/-- The sleep and the test: what arrives meanwhile does not count. -/
theorem ends_retry : Ends w v (a.1.anyMasterUp = 0) (retryProgram w v .done) a := by
  refine ends_change (fun _ => rfl) fun a₁ like₁ => ends_look fun a₂ like₂ => ?_
  have up := (like₁.trans like₂).up
  split
  · rename_i down
    rw [← up, eq_true down]
    exact ends_b2m
  · rename_i found
    rw [← up, eq_false found]
    exact ends_done

theorem ends_i2b (idle : (a.1.ds v).state = .init) :
    Ends w v (a.1.anyMasterUp = 0) (vrrpStateI2bProgram w v .done) a := by
  refine ends_look fun a₁ like₁ => ends_change (fun _ => rfl) fun a₂ like₂ => ?_
  refine ends_change (fun _ => rfl) fun a₃ like₃ => ends_enqueue fun a₄ like₄ => ?_
  refine ends_change (fun _ => rfl) fun a₅ like₅ => ends_act fun a₆ s₂ like₆ started => ?_
  have like := ((((like₁.trans like₂).trans like₃).trans like₄).trans like₅).trans like₆
  cases started
  refine ⟨?_, ?_⟩
  · rw [setState_ds_self, like.init.mpr idle]
    exact iff_of_false nofun nofun
  · have up : (a₆.1.setState v .back).anyMasterUp = a.1.anyMasterUp :=
      (anyMasterUp_congr (flag_setState _)).trans like.up
    rw [← up]
    exact ends_retry

theorem ends_startup {nodes : List DsPtr} {key : Key} (linked : a.1.Linked nodes)
    (family : key.af = afInet) (given : key.vid ≠ 0)
    (searched : a.1.vrrpSearchInst key = .ok (some v)) (idle : (a.1.ds v).state = .init) :
    Ends w v (a.1.anyMasterUp = 0) (startupProgram w key) a := by
  unfold startupProgram
  rw [if_neg (not_not.mpr family), if_neg (not_not.mpr (UInt8.pos_iff_ne_zero.mpr given))]
  refine ends_fetch fun a₁ found like₁ selected => ?_
  rw [linked.search_congr like₁.shape, searched] at selected
  cases selected
  refine ends_look fun a₂ like₂ => ?_
  have like := like₁.trans like₂
  rw [if_neg (not_not.mpr (like.init.mpr idle)), ← like.up]
  exact ends_i2b (like.init.mpr idle)

/-- **When a startup does not take over, exactly.** In every execution of a startup,
with any frames arriving and any alarms handled at any of its points, the instance
is not in `MAST` at the end if and only if a flag was set when the startup began
and no alarm found the instance in `BACK` at the head of the queue. What arrived
has not been read. -/
theorem polledStartup_not_master_iff (w : World) (s : Daemon) (reachable : Reachable w s)
    (key : Key) (v : DsPtr) (family : key.af = afInet) (given : key.vid ≠ 0)
    (searched : s.vrrpSearchInst key = .ok (some v)) (idle : (s.ds v).state = .init)
    (trace : List PolledMoment) (t : Polled)
    (execution : Prog.Interleave (Happening.occur w) (polledStartup w key) (s, []) trace t) :
    ((t.1.ds v).state ≠ .mast ↔
        s.anyMasterUp ≠ 0 ∧ ∀ moment ∈ trace, ¬ Promotes v moment) ∧
      t.2 = arrived trace := by
  obtain ⟨nodes, linked⟩ := reachable.linked
  have ends : Ends w v (s.anyMasterUp = 0) (startupProgram w key) (s, []) :=
    ends_startup linked family given searched idle
  obtain ⟨master, waiting⟩ := ends trace t execution
  refine ⟨?_, waiting⟩
  rw [ne_eq, master, idle]
  simp

/-- A startup with a flag set. The frame that arrives during its sleep is left to be read. -/
theorem polledStartup_not_master_heard :
    ∃ s rest a t, Reachable .plain s ∧
      Prog.Interleave (Happening.occur .plain) (polledStartup .plain (.sample 7)) (s, [])
        [(rest, a, .arrives (.sample 7 200))] t ∧
      a.1.q.log.getLast? = some (.sleep 1) ∧ (t.1.ds 1).state ≠ .mast ∧
      t.2 = [.sample 7 200] := by
  have ran : passes (fun s => passes (· == some 1) (s.vrrpSearchInst (.sample 7)) &&
      (s.ds 1).state == .init && s.anyMasterUp == 7 &&
        passes (fun here => here.2.1.q.log.getLast? == some (.sleep 1) &&
            passes (fun _ => true) (here.1.run (here.2.1, here.2.2 ++ [.sample 7 200])))
          ((polledStartup .plain (.sample 7)).point 13 (s, [])))
      (exec (step .plain) [.create 7 100, .hear 7 50] initial) = true := by decide +kernel
  obtain ⟨s, returns, tested⟩ := exists_of_passes ran
  simp only [Bool.and_eq_true, beq_iff_eq] at tested
  obtain ⟨⟨⟨found, idle⟩, up⟩, point⟩ := tested
  obtain ⟨v, searched, one⟩ := exists_of_passes found
  rw [beq_iff_eq.mp one] at searched
  obtain ⟨⟨rest, a⟩, reached, tested⟩ := exists_of_passes point
  simp only [Bool.and_eq_true, beq_iff_eq] at tested
  obtain ⟨sleeps, ended⟩ := tested
  obtain ⟨t, ran, -⟩ := exists_of_passes ended
  have reachable : Reachable .plain s := ⟨_, run_of_exec returns⟩
  have execution : Prog.Interleave (Happening.occur .plain) (polledStartup .plain (.sample 7))
      (s, []) [(rest, a, .arrives (.sample 7 200))] t :=
    Prog.interleave_single.mpr ⟨Prog.reaches_of_point reached, _, rfl, ran⟩
  obtain ⟨master, waiting⟩ := polledStartup_not_master_iff .plain s reachable (.sample 7) 1 rfl
    (by decide) searched idle _ t execution
  refine ⟨s, rest, a, t, reachable, execution, sleeps, master.mpr ⟨?_, ?_⟩, waiting⟩
  · rw [up]
    decide
  · rintro moment member
    cases List.mem_singleton.mp member
    rintro ⟨alarm, -⟩
    cases alarm

/-- **The window is deaf.** An instance is created and started, and during its sleep
the advertisement of a master with priority 200 arrives: the startup makes it a
master all the same. -/
theorem polledStartup_deaf :
    ∃ s rest a t, Reachable .plain s ∧ s.vrrpSearchInst (.sample 7) = .ok (some 1) ∧
      (s.ds 1).state = .init ∧
      Prog.Interleave (Happening.occur .plain) (polledStartup .plain (.sample 7)) (s, [])
        [(rest, a, .arrives (.sample 7 200))] t ∧
      (a.1.ds 1).state = .back ∧ a.1.q.log.getLast? = some (.sleep 1) ∧
        (t.1.ds 1).state = .mast := by
  have ran : passes (fun s => passes (· == some 1) (s.vrrpSearchInst (.sample 7)) &&
      (s.ds 1).state == .init &&
        passes (fun here => (here.2.1.ds 1).state == .back &&
          here.2.1.q.log.getLast? == some (.sleep 1) &&
            passes (fun t => (t.1.ds 1).state == .mast)
              (here.1.run (here.2.1, here.2.2 ++ [.sample 7 200])))
          ((polledStartup .plain (.sample 7)).point 13 (s, [])))
      (exec (step .plain) [.create 7 100] initial) = true := by decide +kernel
  obtain ⟨s, returns, tested⟩ := exists_of_passes ran
  simp only [Bool.and_eq_true, beq_iff_eq] at tested
  obtain ⟨⟨found, idle⟩, point⟩ := tested
  obtain ⟨v, searched, one⟩ := exists_of_passes found
  rw [beq_iff_eq.mp one] at searched
  obtain ⟨⟨rest, a⟩, reached, tested⟩ := exists_of_passes point
  simp only [Bool.and_eq_true, beq_iff_eq] at tested
  obtain ⟨⟨back, sleeps⟩, ended⟩ := tested
  obtain ⟨t, ran, master⟩ := exists_of_passes ended
  refine ⟨s, rest, a, t, ⟨_, run_of_exec returns⟩, searched, idle, ?_, back, sleeps,
    beq_iff_eq.mp master⟩
  exact Prog.interleave_single.mpr ⟨Prog.reaches_of_point reached, _, rfl, ran⟩

end Daemon

end VrrpDaemon
