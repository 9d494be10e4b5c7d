import VrrpDaemon.Behaviour.RuntimeList

/-!
# What a step does to the list of instances

Read as a sequence of instances, the list changes in two ways only: a create
that succeeds inserts the next free address, and a destroy takes out the
instance its key selected. `ListStep` is that abstract step, and every step of
the daemon that returns is one (`step_list`). Hence the list is linked in every
state that a run reaches (`Reachable.linked`).
-/

set_option autoImplicit false

namespace VrrpDaemon

open Machine

namespace Daemon

variable {w : World} {s s' : Daemon} {nodes : List DsPtr}

/-! ## Views that the operations keep -/

/-- Something of the daemon in which its timers, the states of instances, pids,
flags and effects do not show. -/
structure Stable {β : Type} (view : Daemon → β) : Prop where
  core : ∀ s, view s.core = view s
  state : ∀ s v state, view (s.setState v state) = view s
  pid : ∀ s v pid, view (s.setPid v pid) = view s
  flag : ∀ s x up, view (s.setFlag x up) = view s
  emit : ∀ s effect, view (s.emit effect) = view s
  forks : ∀ (s : Daemon) calls, view { s with forkCalls := calls } = view s

theorem shape_stable : Stable shape where
  core _ := rfl
  state := shape_setState
  pid := shape_setPid
  flag := shape_setFlag
  emit := shape_emit
  forks _ _ := rfl

theorem vrs_stable : Stable vrs where
  core _ := rfl
  state _ _ _ := rfl
  pid _ _ _ := rfl
  flag _ _ _ := rfl
  emit _ _ := rfl
  forks _ _ := rfl

namespace Stable

variable {β : Type} {view : Daemon → β} (stable : Stable view)
include stable

theorem of_core (same : s'.core = s.core) : view s' = view s := by
  rw [← stable.core s', same, stable.core]

theorem execution (trans : VrrpStateTrans) (v : DsPtr) :
    view (s.executed w trans v) = view s := by
  cases trans <;> simp only [executed]
  case initToMast | backToMast =>
    cases w.fork s.forkCalls with
    | none => rw [stable.emit, stable.forks]
    | some pid => rw [stable.pid, stable.emit, stable.forks]
  case mastToBack | mastToInit => rw [stable.emit, vrrpSendAdv, stable.emit]

theorem promote (trans : VrrpStateTrans) (v : DsPtr) : view (s.promote w trans v) = view s := by
  rw [Daemon.promote, stable.execution, stable.state]

theorem leave (trans : VrrpStateTrans) (state : VrrpState) (v : DsPtr) :
    view (s.leave w trans state v) = view s := by
  rw [Daemon.leave, stable.execution, stable.state]

theorem served (entry : VrPtr) : view (s.served w entry) = view s := by
  simp only [Daemon.served]
  split
  · exact stable.emit ..
  · exact stable.promote ..
  · rfl
  · rfl

theorem departed (key : Key) (v : DsPtr) : view (s.departed w key v) = view s := by
  simp only [Daemon.departed]
  split
  · split
    · rfl
    · exact stable.leave ..
  · exact stable.execution ..

theorem i2b {v : DsPtr} (returns : s.vrrpStateI2b w v = .ok s') : view s' = view s := by
  have core := vrrpStateI2b_core returns
  split at core
  · rw [stable.of_core core, stable.promote, stable.state]
  · rw [stable.of_core core, stable.state]

theorem m2b {v : DsPtr} (returns : s.vrrpStateM2b w v = .ok s') : view s' = view s := by
  have core := vrrpStateM2b_core returns
  split at core
  · rw [stable.of_core core, stable.promote, stable.leave]
  · rw [stable.of_core core, stable.leave]

theorem startup {key : Key} {ret : Int} (returns : s.vrrpStartupInst w key = .ok (ret, s')) :
    view s' = view s := by
  rcases vrrpStartupInst_outcome returns with rfl | ⟨v, -, -, -, -, started⟩
  · rfl
  · exact stable.i2b started

theorem shutdown {key : Key} {ret : Int} (returns : s.vrrpShutdownInst w key = .ok (ret, s')) :
    view s' = view s := by
  rcases vrrpShutdownInst_outcome returns with rfl | ⟨v, -, -, -, ⟨-, stopped⟩ | ⟨-, stopped⟩⟩
  · rfl
  · rw [stable.of_core (vrrpStateM2i_core stopped), stable.leave]
  · rw [stable.of_core (vrrpStateB2i_core stopped), stable.state]

theorem incoming {curr : DsPtr} {received : VrrpInst}
    (returns : s.vrrpProcessIncomingAdv w curr received = .ok s') : view s' = view s := by
  rcases vrrpProcessIncomingAdv_outcome returns with
    rfl | ⟨-, timeout, rearmed⟩ | ⟨-, -, demoted⟩
  · rfl
  · exact stable.of_core (rearm_core rearmed)
  · exact stable.m2b demoted

theorem frame {af : Int} {ifname : Ifname} {frame : Frame}
    (returns : s.processVrrpdSock w af ifname frame = .ok s') : view s' = view s := by
  have cleared : view (s.cleared frame) = view s := by
    rw [Daemon.cleared, stable.flag, stable.flag]
  have heard : view (s.heard frame) = view s := stable.flag ..
  rcases processVrrpdSock_outcome returns with
    rfl | ⟨-, -, first, -, rfl | ⟨-, promoted⟩⟩ | ⟨-, -, rfl | ⟨curr, -, -, processed⟩⟩
  · rfl
  · exact cleared
  · rw [stable.of_core (vrrpStateB2m_core promoted), stable.promote, cleared]
  · exact heard
  · rw [stable.incoming processed, heard]

theorem alarm (returns : s.signalAlarm w = .ok s') : view s' = view s := by
  rcases signalAlarm_core returns with ⟨-, core⟩ | ⟨entry, -, core⟩
  · exact stable.of_core core
  · rw [stable.of_core core, stable.served]

end Stable

/-! ## The shape of the heap -/

@[simp] theorem shape_execution (trans : VrrpStateTrans) (v : DsPtr) :
    (s.executed w trans v).shape = s.shape :=
  shape_stable.execution trans v

@[simp] theorem shape_promote (trans : VrrpStateTrans) (v : DsPtr) :
    (s.promote w trans v).shape = s.shape :=
  shape_stable.promote trans v

@[simp] theorem shape_leave (trans : VrrpStateTrans) (state : VrrpState) (v : DsPtr) :
    (s.leave w trans state v).shape = s.shape :=
  shape_stable.leave trans state v

theorem vrrpSetInstProp_shape {key : Key} {pri delay preeMode acptMode ret : Int}
    (returns : s.vrrpSetInstProp w key pri delay preeMode acptMode = .ok (ret, s')) :
    s'.shape = s.shape := by
  rcases vrrpSetInstProp_core returns with ⟨-, rfl, -⟩ | ⟨-, v, -, core⟩
  · rfl
  · rw [shape_of_core core, shape_setAttr]

/-! ## The abstract step of the list -/

/-- The operation creates the instance `v`: `vrrp_create_inst` hands it out. -/
def Creates (w : World) (s : Daemon) (op : Op) (v : DsPtr) : Prop :=
  ∃ inst s₁, op = .command (.create inst) ∧
    s.vrrpCreateInst w inst = .ok (VrrpRet.success.code, some v, s₁)

/-- The operation destroys the instance `v`: its key selects it. -/
def Destroys (s : Daemon) (op : Op) (v : DsPtr) : Prop :=
  ∃ key, op = .command (.remove key) ∧ key.af = afInet ∧ s.vrrpSearchInst key = .ok (some v)

/-- The list before and after an operation, as a sequence of instances. -/
inductive ListStep (w : World) (op : Op) (s : Daemon) : List DsPtr → List DsPtr → Prop where
  | keep {nodes : List DsPtr} (noCreate : ∀ v, ¬ Creates w s op v)
      (noDestroy : ∀ v, ¬ Destroys s op v) : ListStep w op s nodes nodes
  | insert {before after : List DsPtr} (creates : Creates w s op s.dsTop)
      (noDestroy : ∀ v, ¬ Destroys s op v) :
      ListStep w op s (before ++ after) (before ++ s.dsTop :: after)
  | erase {before after : List DsPtr} {v : DsPtr} (noCreate : ∀ u, ¬ Creates w s op u)
      (destroys : Destroys s op v) : ListStep w op s (before ++ v :: after) (before ++ after)

/-- What a step leaves of the list: linked, changed by an abstract step, with the
keys it had, and with the key asked for at a new instance. -/
structure ListOutcome (w : World) (op : Op) (s s' : Daemon) (nodes nodes' : List DsPtr) :
    Prop where
  linked : s'.Linked nodes'
  change : ListStep w op s nodes nodes'
  grown : s.dsTop ≤ s'.dsTop
  keys : ∀ v ∈ nodes, s'.key v = s.key v
  created : ∀ inst s₁ v, op = .command (.create inst) →
    s.vrrpCreateInst w inst = .ok (VrrpRet.success.code, some v, s₁) →
      v < s'.dsTop ∧ s'.key v = inst.key

/-- An operation creates at most one instance. -/
theorem Creates.unique {op : Op} {u v : DsPtr} (one : Creates w s op u) (two : Creates w s op v) :
    u = v := by
  obtain ⟨inst, s₁, rfl, first⟩ := one
  obtain ⟨inst', s₂, same, second⟩ := two
  cases same
  rw [first] at second
  cases second
  rfl

/-- An operation destroys at most one instance. -/
theorem Destroys.unique {op : Op} {u v : DsPtr} (one : Destroys s op u) (two : Destroys s op v) :
    u = v := by
  obtain ⟨key, rfl, -, first⟩ := one
  obtain ⟨key', same, -, second⟩ := two
  cases same
  rw [first] at second
  cases second
  rfl

theorem key_of_shape (same : s'.shape = s.shape) (v : DsPtr) : s'.key v = s.key v := by
  rw [key_eq, key_eq, same]

/-- A step that keeps the shape and is no create and no destroy keeps the list. -/
theorem listOutcome_keep {op : Op} (linked : s.Linked nodes) (same : s'.shape = s.shape)
    (noCreate : ∀ inst, op ≠ .command (.create inst))
    (noDestroy : ∀ key, op ≠ .command (.remove key)) : ListOutcome w op s s' nodes nodes where
  linked := linked.of_shape same
  change := .keep (fun _ ⟨inst, _, here, _⟩ => noCreate inst here)
    fun _ ⟨key, here, _⟩ => noDestroy key here
  grown := Nat.le_of_eq (congrArg Shape.dsTop same).symm
  keys v _ := key_of_shape same v
  created inst _ _ here := absurd here (noCreate inst)

/-- The start of a new instance as a master changes the shape of the heap no more, and no
record of a VR. -/
theorem started_shape {s₁ : Daemon} {v : DsPtr} {regular top : Prop} {sec : Int}
    (started : (regular ∧ s' = s₁) ∨ (top ∧ ∃ status s₂,
      s₁.vrrpStateI2m w v = .ok (status, s₂) ∧ s' = s₂.onQueue (·.alarm sec))) :
    s'.shape = s₁.shape ∧ s'.vrs = s₁.vrs := by
  obtain ⟨-, rfl⟩ | ⟨-, status, s₂, promoted, rfl⟩ := started
  · exact ⟨rfl, rfl⟩
  · have core := (vrrpStateI2m_core promoted).2
    refine ⟨?_, (vrs_of_core core).trans (vrs_stable.promote ..)⟩
    rw [shape_onQueue, shape_of_core core, shape_promote]

/-- The records after a create: that of the new VR as the request asks for it, those of the
listed instances as they were. -/
theorem Linked.started_records {inst : VrrpInst} {s₁ : Daemon} {regular top : Prop} {sec : Int}
    (linked : s.Linked nodes) (link : (s.withInst inst).linkInst s.dsTop = .ok s₁)
    (started : (regular ∧ s' = s₁) ∨ (top ∧ ∃ status s₂,
      s₁.vrrpStateI2m w s.dsTop = .ok (status, s₂) ∧ s' = s₂.onQueue (·.alarm sec))) :
    s'.vr s.dsTop =
        { attr := inst.viVa
          vr := { inst.viVr with vrIp := inst.viVr.vrIp.take inst.viVr.vrIpnum.toNat }
          parent := s.dsTop } ∧
      ∀ v ∈ nodes, s'.vr v = s.vr v := by
  obtain ⟨next, prev, before, after, rfl, rfl, -⟩ := linked.link link
  obtain ⟨shape, records⟩ := started_shape started
  constructor
  · rw [vr, records, vr_of_shape shape]
    simp [withLinks, withInst]
  · intro v member
    rw [← (linked.records_of_grows (grows_withInst inst s) member).2, vr, vr, records,
      vr_of_shape shape]
    rfl

theorem createCommand_list {inst : VrrpInst} {ret : Int} (linked : s.Linked nodes)
    (returns : s.createCommand w inst = .ok (ret, s')) :
    ∃ nodes', ListOutcome w (.command (.create inst)) s s' nodes nodes' := by
  have noDestroy : ∀ v, ¬ Destroys s (.command (.create inst)) v := by
    rintro v ⟨key, ⟨⟩, -⟩
  rcases createCommand_outcome returns with
    ⟨status, failed, created, grows⟩ | ⟨s₁, created, link, started⟩
  · have noCreate : ∀ v, ¬ Creates w s (.command (.create inst)) v := by
      rintro v ⟨inst', s₁, ⟨⟩, creates⟩
      rw [created] at creates
      cases creates
    refine ⟨nodes, linked.of_grows grows, .keep noCreate noDestroy, grows.dsTop, ?_, ?_⟩
    · intro v member
      simp only [key, vrrpId, vrrpIfname, vrrpAf, (linked.records_of_grows grows member).2]
    · intro inst' s₁ v here creates
      exact absurd ⟨inst', s₁, here, creates⟩ (noCreate v)
  · obtain ⟨next, prev, before, after, rfl, rfl, inserted⟩ := linked.link link
    have shape := (started_shape started).1
    have top : s'.dsTop = s.dsTop + 1 := congrArg Shape.dsTop shape
    refine ⟨_, inserted.of_shape shape, .insert ⟨inst, _, rfl, created⟩ noDestroy,
      top ▸ Nat.le_succ _, ?_, ?_⟩
    · intro v member
      have same : ((s.withInst inst).withLinks next prev).vr v = s.vr v :=
        (linked.records_of_grows (grows_withInst inst s) member).2
      rw [key_of_shape shape]
      simp only [key, vrrpId, vrrpIfname, vrrpAf, same]
    · rintro inst' s₁ v ⟨⟩ creates
      rw [created] at creates
      cases creates
      refine ⟨top ▸ Nat.lt_succ_self _, ?_⟩
      rw [key_of_shape shape]
      simp [key, vrrpId, vrrpIfname, vrrpAf, vr, withLinks, withInst, VrrpInst.key]

theorem vrrpDestroyInst_list {key : Key} {ret : Int} (linked : s.Linked nodes)
    (returns : s.vrrpDestroyInst w key = .ok (ret, s')) :
    ∃ nodes', ListOutcome w (.command (.remove key)) s s' nodes nodes' := by
  have noCreate : ∀ v, ¬ Creates w s (.command (.remove key)) v := by
    rintro v ⟨inst, s₁, ⟨⟩, -⟩
  have noNew : ∀ (inst : VrrpInst) (s₁ : Daemon) (v : DsPtr),
      Op.command (.remove key) = .command (.create inst) →
      s.vrrpCreateInst w inst = .ok (VrrpRet.success.code, some v, s₁) →
        v < s'.dsTop ∧ s'.key v = inst.key := fun inst s₁ v here => by cases here
  rcases vrrpDestroyInst_core returns with ⟨family, rfl⟩ | ⟨family, v, t, selected, core, unlinked⟩
  · refine ⟨nodes, linked, .keep noCreate ?_, Nat.le_refl _, fun _ _ => rfl, noNew⟩
    rintro v ⟨key', ⟨⟩, inet, -⟩
    exact family inet
  · have shape : t.shape = s.shape := by rw [shape_of_core core, shape_stable.departed]
    obtain ⟨next, prev, before, after, rfl, rfl, erased⟩ :=
      (linked.of_shape shape).unlink (linked.mem_of_search selected) unlinked
    exact ⟨_, erased, .erase noCreate ⟨key, rfl, family, selected⟩,
      Nat.le_of_eq (congrArg Shape.dsTop shape).symm, fun u _ => key_of_shape shape u, noNew⟩

/-- **Every step is an abstract step of the list.** -/
theorem step_list {op : Op} (linked : s.Linked nodes) (returns : step w op s = .ok s') :
    ∃ nodes', ListOutcome w op s s' nodes nodes' := by
  cases op with
  | frame af ifname frame =>
      exact ⟨nodes, listOutcome_keep linked (shape_stable.frame returns) (by simp) (by simp)⟩
  | alarm => exact ⟨nodes, listOutcome_keep linked (shape_stable.alarm returns) (by simp) (by simp)⟩
  | command command =>
      obtain ⟨⟨status, s₁⟩, processed, returns⟩ := bind_eq_ok.mp returns
      cases returns
      cases command with
      | create inst => exact createCommand_list linked processed
      | remove key => exact vrrpDestroyInst_list linked processed
      | startup key =>
          exact ⟨nodes, listOutcome_keep linked (shape_stable.startup processed) (by simp)
            (by simp)⟩
      | shutdown key =>
          exact ⟨nodes, listOutcome_keep linked (shape_stable.shutdown processed) (by simp)
            (by simp)⟩
      | modify key pri delay preeMode acptMode =>
          exact ⟨nodes, listOutcome_keep linked (vrrpSetInstProp_shape processed) (by simp)
            (by simp)⟩

/-- **The list of instances is linked in every reachable state.** -/
theorem Reachable.linked (reachable : Reachable w s) : ∃ nodes, s.Linked nodes := by
  obtain ⟨ops, run⟩ := reachable
  refine run.invariant (fun s : Daemon => ∃ nodes, s.Linked nodes) ⟨[], linked_initial⟩ ?_
  rintro s op s' ⟨nodes, linked⟩ - returns
  obtain ⟨nodes', outcome⟩ := step_list linked returns
  exact ⟨nodes', outcome.linked⟩

end Daemon

end VrrpDaemon
