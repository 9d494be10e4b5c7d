import VrrpDaemon.Model.System

/-!
# What the operations do apart from the queue

`Daemon.core` forgets the timer queue. Each function of the daemon that
returns has done something definite to the rest: this module says what, once
for each function, and later modules cite these statements and do not unfold
the functions.

Two changes of the core recur. `promote` is an instance entering `MAST`, with
the fork of its router; `leave` is an instance leaving `MAST`, with the
advertisement of priority 0 and the signal to its router.
-/

set_option autoImplicit false

namespace VrrpDaemon

open Machine

namespace Daemon

/-- The daemon without its timer queue. -/
def core (s : Daemon) : Daemon := { s with q := .empty }

/-- The daemon behind `vrrp_state_execution`, if it gets there. -/
def executed (w : World) (trans : VrrpStateTrans) (v : DsPtr) (s : Daemon) : Daemon :=
  match trans with
  | .initToMast | .backToMast =>
      let child := w.fork s.forkCalls
      let s := { s with forkCalls := s.forkCalls + 1 }.emit (.fork v child)
      match child with
      | none => s
      | some pid => s.setPid v pid
  | .mastToBack | .mastToInit =>
      let s := s.vrrpSendAdv v 0
      s.emit (.sigint v (s.ds v).pid)
  | .initToBack | .backToInit => s

/-- An instance enters `MAST`. -/
def promote (w : World) (trans : VrrpStateTrans) (v : DsPtr) (s : Daemon) : Daemon :=
  (s.setState v .mast).executed w trans v

/-- An instance leaves `MAST` for another state. -/
def leave (w : World) (trans : VrrpStateTrans) (state : VrrpState) (v : DsPtr) (s : Daemon) :
    Daemon :=
  (s.setState v state).executed w trans v

/-! ## The effects of a transition -/

theorem vrrpStateExecution_enters {w : World} {trans : VrrpStateTrans} {v : DsPtr} {s : Daemon}
    (enters : trans = .initToMast ∨ trans = .backToMast) :
    s.vrrpStateExecution w trans v = .ok (s.executed w trans v) := by
  rcases enters with rfl | rfl <;>
  · simp only [vrrpStateExecution, executed]
    cases w.fork s.forkCalls <;> rfl

@[simp] theorem vrrpStateExecution_initToMast (w : World) (v : DsPtr) (s : Daemon) :
    s.vrrpStateExecution w .initToMast v = .ok (s.executed w .initToMast v) :=
  vrrpStateExecution_enters (.inl rfl)

@[simp] theorem vrrpStateExecution_backToMast (w : World) (v : DsPtr) (s : Daemon) :
    s.vrrpStateExecution w .backToMast v = .ok (s.executed w .backToMast v) :=
  vrrpStateExecution_enters (.inr rfl)

/-- **The end of a master reaches its child** unless the daemon has none to signal: with
the pid 0 it ends itself. -/
theorem vrrpStateExecution_leaves {w : World} {trans : VrrpStateTrans} {v : DsPtr}
    {s s' : Daemon} (leaves : trans = .mastToBack ∨ trans = .mastToInit) :
    s.vrrpStateExecution w trans v = .ok s' ↔
      (s.ds v).pid ≠ 0 ∧ s' = s.executed w trans v := by
  have kept : ((s.vrrpSendAdv v 0).ds v).pid = (s.ds v).pid := rfl
  rcases leaves with rfl | rfl <;>
  · simp only [vrrpStateExecution, kill, executed, kept]
    by_cases none : (s.ds v).pid = 0
    · simp [none]
    · simp [none, eq_comm]

/-- What returned is the daemon behind the effects. -/
theorem eq_executed {w : World} {trans : VrrpStateTrans} {v : DsPtr} {s s' : Daemon}
    (returns : s.vrrpStateExecution w trans v = .ok s') : s' = s.executed w trans v := by
  cases trans with
  | initToMast | backToMast =>
      rw [vrrpStateExecution_enters (by decide)] at returns
      exact (Except.ok.inj returns).symm
  | mastToBack | mastToInit => exact ((vrrpStateExecution_leaves (by decide)).mp returns).2
  | initToBack | backToInit => exact (Except.ok.inj returns).symm

/-! ## Forgetting the queue commutes with other changes -/

@[simp] theorem core_core (s : Daemon) : s.core.core = s.core := rfl

@[simp] theorem core_onQueue (s : Daemon) (act : TimerQueue → TimerQueue) :
    (s.onQueue act).core = s.core := rfl

@[simp] theorem core_withQueue (s : Daemon) (q : TimerQueue) :
    ({ s with q := q } : Daemon).core = s.core := rfl

theorem core_setState (s : Daemon) (v : DsPtr) (state : VrrpState) :
    (s.setState v state).core = s.core.setState v state := rfl

theorem core_setAttr (s : Daemon) (p : VrPtr) (attr : VrrpAttr) :
    (s.setAttr p attr).core = s.core.setAttr p attr := rfl

theorem core_execution (w : World) (trans : VrrpStateTrans) (v : DsPtr) (s : Daemon) :
    (s.executed w trans v).core = s.core.executed w trans v := by
  have calls : s.core.forkCalls = s.forkCalls := rfl
  cases trans <;> simp only [executed, calls]
  case initToMast | backToMast => cases w.fork s.forkCalls <;> rfl
  all_goals rfl

theorem core_promote (w : World) (trans : VrrpStateTrans) (v : DsPtr) (s : Daemon) :
    (s.promote w trans v).core = s.core.promote w trans v := core_execution w trans v _

theorem core_leave (w : World) (trans : VrrpStateTrans) (state : VrrpState) (v : DsPtr)
    (s : Daemon) : (s.leave w trans state v).core = s.core.leave w trans state v :=
  core_execution w trans v _

theorem core_tryQueue {s s' : Daemon} {act : TimerQueue → Result TimerQueue}
    (returns : s.tryQueue act = .ok s') : s'.core = s.core := by
  obtain ⟨q, -, rfl⟩ := tryQueue_eq_ok.mp returns
  rfl

section Fields

variable {s t : Daemon} (same : s.core = t.core)
include same

theorem ds_of_core : s.ds = t.ds := (congrArg Daemon.ds same : s.core.ds = t.core.ds)

theorem pid_of_core (v : DsPtr) : (s.ds v).pid = (t.ds v).pid := by
  rw [ds_of_core same]

theorem vrs_of_core : s.vrs = t.vrs := (congrArg Daemon.vrs same : s.core.vrs = t.core.vrs)

theorem flag_of_core : s.flag = t.flag := (congrArg Daemon.flag same : s.core.flag = t.core.flag)

theorem effects_of_core : s.effects = t.effects :=
  (congrArg Daemon.effects same : s.core.effects = t.core.effects)

theorem forkCalls_of_core : s.forkCalls = t.forkCalls :=
  (congrArg Daemon.forkCalls same : s.core.forkCalls = t.core.forkCalls)

theorem shape_of_core : s.shape = t.shape :=
  (congrArg shape same : s.core.shape = t.core.shape)

end Fields

/-! ## The fields after a promotion or a departure -/

section Fields

variable (w : World) (v : DsPtr) (s : Daemon)

@[simp] theorem setState_ds_self (state : VrrpState) :
    (s.setState v state).ds v = { s.ds v with state := state } := by
  simp [setState, setDs, emit]

theorem setState_ds_other (state : VrrpState) {u : DsPtr} (other : u ≠ v) :
    (s.setState v state).ds u = s.ds u := by
  simp [setState, setDs, emit, Function.update_of_ne other]

/-- A transition that enters `MAST` forks once and stores the pid. -/
theorem promote_eq {trans : VrrpStateTrans} (enters : trans = .initToMast ∨ trans = .backToMast) :
    s.promote w trans v =
      { s with
        ds := Function.update s.ds v
          { s.ds v with
            state := .mast
            pid := (w.fork s.forkCalls).getD (s.ds v).pid }
        forkCalls := s.forkCalls + 1
        effects := s.effects ++
          [.state v (s.ds v).state .mast, .fork v (w.fork s.forkCalls)] } := by
  have calls : (s.setState v .mast).forkCalls = s.forkCalls := rfl
  rcases enters with rfl | rfl <;>
  · simp only [promote, executed, calls]
    cases w.fork s.forkCalls with
    | none => simp [setState, setDs, emit]
    | some pid => simp [setState, setDs, emit, setPid]

/-- A transition that leaves `MAST` sends priority 0 and signals the stored pid. -/
theorem leave_eq {trans : VrrpStateTrans} (leaves : trans = .mastToBack ∨ trans = .mastToInit)
    (state : VrrpState) :
    s.leave w trans state v =
      { s.setState v state with
        effects := s.effects ++
          [.state v (s.ds v).state state, .advert v ((s.setState v state).vrrpBuildPkt v 0),
            .sigint v (s.ds v).pid] } := by
  have pid : ((s.setState v state).ds v).pid = (s.ds v).pid := by simp
  rcases leaves with rfl | rfl <;>
  · simp only [leave, executed, vrrpSendAdv]
    have kept : (((s.setState v state).emit
        (.advert v ((s.setState v state).vrrpBuildPkt v 0))).ds v).pid = (s.ds v).pid := pid
    rw [kept]
    simp [emit, setState, setDs]

/-- The effects of leaving `MAST` come after the change of the state, which keeps the pid. -/
theorem execution_leave {w : World} {trans : VrrpStateTrans} {v : DsPtr} {s s' : Daemon}
    {state : VrrpState} (leaves : trans = .mastToBack ∨ trans = .mastToInit) :
    (s.setState v state).vrrpStateExecution w trans v = .ok s' ↔
      (s.ds v).pid ≠ 0 ∧ s' = s.leave w trans state v := by
  have pid : ((s.setState v state).ds v).pid = (s.ds v).pid := by rw [setState_ds_self]
  rw [vrrpStateExecution_leaves leaves, pid]
  exact Iff.rfl

/-- The effects of a transition leave every state as it is. -/
theorem state_execution (trans : VrrpStateTrans) (u : DsPtr) :
    ((s.executed w trans v).ds u).state = (s.ds u).state := by
  have pid : ∀ t : Daemon, ∀ child, ((t.setPid v child).ds u).state = (t.ds u).state := by
    intro t child
    by_cases here : u = v
    · subst here
      simp [setPid, setDs]
    · simp [setPid, setDs, Function.update_of_ne here]
  cases trans <;> simp only [executed]
  case initToMast | backToMast =>
    cases w.fork s.forkCalls with
    | none => rfl
    | some child => exact pid _ child
  all_goals rfl

theorem state_promote_self (trans : VrrpStateTrans) :
    ((s.promote w trans v).ds v).state = .mast := by
  rw [promote, state_execution, setState_ds_self]

theorem state_promote_other (trans : VrrpStateTrans) {u : DsPtr} (other : u ≠ v) :
    ((s.promote w trans v).ds u).state = (s.ds u).state := by
  rw [promote, state_execution, setState_ds_other _ _ _ other]

theorem state_leave_self (trans : VrrpStateTrans) (state : VrrpState) :
    ((s.leave w trans state v).ds v).state = state := by
  rw [leave, state_execution, setState_ds_self]

theorem state_leave_other (trans : VrrpStateTrans) (state : VrrpState) {u : DsPtr}
    (other : u ≠ v) : ((s.leave w trans state v).ds u).state = (s.ds u).state := by
  rw [leave, state_execution, setState_ds_other _ _ _ other]

end Fields

/-! ## What the transitions do -/

section Transitions

variable {w : World} {v : DsPtr} {s s' : Daemon}

theorem anyMasterUp_congr {t : Daemon} (same : s.flag = t.flag) :
    s.anyMasterUp = t.anyMasterUp := by
  simp only [anyMasterUp, same]

/-- `any_master_up` answers 0 when no flag of a VRID other than 0 is set. -/
theorem anyMasterUp_eq_zero_iff : s.anyMasterUp = 0 ↔ ∀ x, x ≠ 0 → s.flag x = false := by
  have found : ∀ i, (List.range' 1 255).find? (fun i => s.flag (UInt8.ofNat i)) = some i → i ≠ 0 := by
    intro i first same
    have inRange := List.mem_of_find?_eq_some first
    rw [same, List.mem_range'_1] at inRange
    omega
  have zero : s.anyMasterUp = 0 ↔
      (List.range' 1 255).find? (fun i => s.flag (UInt8.ofNat i)) = none := by
    unfold anyMasterUp
    cases first : (List.range' 1 255).find? fun i => s.flag (UInt8.ofNat i) with
    | none => simp
    | some i => simp [found i first]
  rw [zero, List.find?_eq_none]
  constructor
  · intro down x given
    have inRange : x.toNat ∈ List.range' 1 255 := by
      have bound := x.toNat_lt
      have positive : x.toNat ≠ 0 := fun same => given (UInt8.toNat_inj.mp same)
      rw [List.mem_range'_1]
      omega
    simpa using down x.toNat inRange
  · intro down i inRange
    rw [List.mem_range'_1] at inRange
    have given : UInt8.ofNat i ≠ 0 := by
      intro same
      have := congrArg UInt8.toNat same
      rw [UInt8.toNat_ofNat'] at this
      simp at this
      omega
    simp [down _ given]

/-- A flag of a VRID other than 0 is enough. -/
theorem anyMasterUp_ne_zero {x : UInt8} (given : x ≠ 0) (up : s.flag x = true) :
    s.anyMasterUp ≠ 0 := by
  intro none
  rw [anyMasterUp_eq_zero_iff.mp none x given] at up
  cases up

theorem vrrpStateB2m_core (returns : s.vrrpStateB2m w v = .ok s') :
    s'.core = (s.promote w .backToMast v).core := by
  simp only [vrrpStateB2m, vrrpStateExecution_backToMast, ok_bind] at returns
  obtain ⟨s₁, removed, returns⟩ := bind_eq_ok.mp returns
  obtain ⟨s₂, entered, returns⟩ := bind_eq_ok.mp returns
  cases returns
  rw [core_onQueue, core_execution, core_setState, core_tryQueue entered, core_onQueue,
    core_tryQueue removed, core_promote]
  rfl

theorem vrrpStateI2m_core {ret : Int} (returns : s.vrrpStateI2m w v = .ok (ret, s')) :
    ret = w.uninitialised ∧ s'.core = (s.promote w .initToMast v).core := by
  simp only [vrrpStateI2m, vrrpStateExecution_initToMast, ok_bind] at returns
  obtain ⟨s₁, entered, returns⟩ := bind_eq_ok.mp returns
  cases returns
  rw [core_execution, core_setState, core_onQueue, core_tryQueue entered, core_onQueue,
    core_onQueue, core_promote]
  exact ⟨rfl, rfl⟩

/-- The end of `vrrp_state_i2b` and `vrrp_state_m2b`: after the sleep the
instance is promoted unless a flag is set. -/
theorem retry_core {t : Daemon} {delay : Int} (before : Daemon) (same : t.core = before.core)
    (returns : (if (t.onQueue (·.sleep delay)).anyMasterUp = 0 then
        (t.onQueue (·.sleep delay)).vrrpStateB2m w v
      else .ok (t.onQueue (·.sleep delay))) = .ok s') :
    s'.core = if before.anyMasterUp = 0 then (before.promote w .backToMast v).core
      else before.core := by
  have up : (t.onQueue (·.sleep delay)).anyMasterUp = before.anyMasterUp :=
    anyMasterUp_congr (flag_of_core same)
  rw [up] at returns
  by_cases none : before.anyMasterUp = 0
  · rw [if_pos none] at returns ⊢
    rw [vrrpStateB2m_core returns, core_promote, core_promote, core_onQueue, same]
  · rw [if_neg none] at returns ⊢
    cases returns
    rw [core_onQueue, same]

theorem vrrpStateI2b_core (returns : s.vrrpStateI2b w v = .ok s') :
    s'.core = if s.anyMasterUp = 0 then ((s.setState v .back).promote w .backToMast v).core
      else (s.setState v .back).core := by
  simp only [vrrpStateI2b] at returns
  obtain ⟨s₁, entered, returns⟩ := bind_eq_ok.mp returns
  refine retry_core (s.setState v .back) ?_ returns
  rw [core_setState, core_onQueue, core_tryQueue entered, core_onQueue, core_onQueue, core_setState]

theorem vrrpStateM2i_core (returns : s.vrrpStateM2i w v = .ok s') :
    s'.core = (s.leave w .mastToInit .init v).core := by
  simp only [vrrpStateM2i] at returns
  obtain ⟨s₁, removed, returns⟩ := bind_eq_ok.mp returns
  obtain rfl := eq_executed returns
  rw [core_execution, core_setState, core_onQueue, core_tryQueue removed, core_onQueue, core_leave]
  rfl

theorem vrrpStateB2i_core (returns : s.vrrpStateB2i v = .ok s') :
    s'.core = (s.setState v .init).core := by
  simp only [vrrpStateB2i] at returns
  obtain ⟨s₁, removed, returns⟩ := bind_eq_ok.mp returns
  cases returns
  rw [core_setState, core_onQueue, core_tryQueue removed, core_onQueue, core_onQueue, core_setState]

theorem vrrpStateM2b_core (returns : s.vrrpStateM2b w v = .ok s') :
    s'.core =
      if s.anyMasterUp = 0 then ((s.leave w .mastToBack .back v).promote w .backToMast v).core
      else (s.leave w .mastToBack .back v).core := by
  simp only [vrrpStateM2b] at returns
  obtain ⟨s₁, removed, returns⟩ := bind_eq_ok.mp returns
  obtain ⟨s₂, entered, returns⟩ := bind_eq_ok.mp returns
  obtain ⟨s₃, executed, returns⟩ := bind_eq_ok.mp returns
  obtain rfl := eq_executed executed
  have flag : (s.leave w .mastToBack .back v).anyMasterUp = s.anyMasterUp := by
    rw [leave_eq w v s (.inl rfl)]
    rfl
  rw [← flag]
  refine retry_core (s.leave w .mastToBack .back v) ?_ returns
  rw [core_execution, core_setState, core_onQueue, core_tryQueue entered, core_onQueue,
    core_tryQueue removed, core_leave]
  rfl

end Transitions

end Daemon

end VrrpDaemon
