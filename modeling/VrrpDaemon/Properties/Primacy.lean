import VrrpDaemon.Behaviour.Advertised
import VrrpDaemon.Properties.Agreement
import VrrpDaemon.Properties.Attributes
import VrrpDaemon.Properties.StepDown

/-!
# The best router stays the master

A master yields to a greater priority only. What a router advertises is the priority of one of
its VRs (`Standard.pri`). So where no VR on the segment has a greater priority than a master, and
no frame on its way carries one, this master stays one, whatever the other routers do: they may
be started and shut down, create and destroy instances, be promoted by alarms and hear each other,
in any order (`best_reigns`). What has to be ruled out is that a router is given a greater
priority, and that the master itself is shut down, destroyed or given another one.
-/

set_option autoImplicit false

namespace VrrpDaemon

open Machine

namespace Daemon

variable {w : World} {s s' : Daemon} {nodes : List DsPtr} {v : DsPtr} {pri : UInt8}

/-- The instance is listed, and a master of this priority. -/
structure Reigns (s : Daemon) (v : DsPtr) (pri : UInt8) : Prop where
  listed : ∃ nodes, s.Linked nodes ∧ v ∈ nodes
  master : (s.ds v).state = .mast
  own : s.vrrpPri v = pri

/-- The operation does not ask to shut the instance down, to destroy it or to set its priority,
and it is no frame of a greater priority. -/
def Unchallenged (s : Daemon) (v : DsPtr) : Op → Prop
  | .command (.remove key) | .command (.shutdown key) => s.vrrpSearchInst key ≠ .ok (some v)
  | .command (.modify key pri _ _ _) => s.vrrpSearchInst key = .ok (some v) → pri = vrPropUnchange
  | .frame _ _ frame => frame.inst.viVa.pri ≤ s.vrrpPri v
  | .command (.create _) | .command (.startup _) | .alarm => True

/-! ## It stays a master -/

/-- The promotion of an instance demotes no other. -/
theorem master_promote {trans : VrrpStateTrans} (u : DsPtr) (master : (s.ds v).state = .mast) :
    ((s.promote w trans u).ds v).state = .mast := by
  by_cases here : v = u
  · subst here
    exact state_promote_self ..
  · rw [state_promote_other _ _ _ _ here]
    exact master

/-- Another instance may leave `MAST`, for good or not. -/
theorem master_m2b {u : DsPtr} (other : v ≠ u) (master : (s.ds v).state = .mast)
    (returns : s.vrrpStateM2b w u = .ok s') : (s'.ds v).state = .mast := by
  have left : ((s.leave w .mastToBack .back u).ds v).state = .mast := by
    rw [state_leave_other _ _ _ _ _ other]
    exact master
  have core := vrrpStateM2b_core returns
  split at core
  · rw [ds_of_core core]
    exact master_promote u left
  · rw [ds_of_core core]
    exact left

theorem master_startup {key : Key} {ret : Int} (master : (s.ds v).state = .mast)
    (returns : s.vrrpStartupInst w key = .ok (ret, s')) : (s'.ds v).state = .mast := by
  rcases vrrpStartupInst_outcome returns with rfl | ⟨u, -, -, -, idle, started⟩
  · exact master
  · have other : v ≠ u := by
      rintro rfl
      rw [idle] at master
      cases master
    have waits : ((s.setState u .back).ds v).state = .mast := by
      rw [setState_ds_other _ _ _ other]
      exact master
    have core := vrrpStateI2b_core started
    split at core
    · rw [ds_of_core core]
      exact master_promote u waits
    · rw [ds_of_core core]
      exact waits

theorem master_shutdown {key : Key} {ret : Int} (spared : s.vrrpSearchInst key ≠ .ok (some v))
    (master : (s.ds v).state = .mast) (returns : s.vrrpShutdownInst w key = .ok (ret, s')) :
    (s'.ds v).state = .mast := by
  rcases vrrpShutdownInst_outcome returns with
    rfl | ⟨u, -, -, selected, ⟨-, stopped⟩ | ⟨-, stopped⟩⟩
  · exact master
  · have other : v ≠ u := fun same => spared (same ▸ selected)
    rw [ds_of_core (vrrpStateM2i_core stopped), state_leave_other _ _ _ _ _ other]
    exact master
  · have other : v ≠ u := fun same => spared (same ▸ selected)
    rw [ds_of_core (vrrpStateB2i_core stopped), setState_ds_other _ _ _ other]
    exact master

theorem master_destroy {key : Key} {ret : Int} (linked : s.Linked nodes)
    (spared : s.vrrpSearchInst key ≠ .ok (some v)) (master : (s.ds v).state = .mast)
    (returns : s.vrrpDestroyInst w key = .ok (ret, s')) : (s'.ds v).state = .mast := by
  rcases vrrpDestroyInst_core returns with ⟨-, rfl⟩ | ⟨-, u, t, selected, core, unlinked⟩
  · exact master
  · have other : v ≠ u := fun same => spared (same ▸ selected)
    have departed : ((s.departed w key u).ds v).state = .mast := by
      simp only [Daemon.departed]
      split
      · split
        · exact master
        · rw [state_leave_other _ _ _ _ _ other]
          exact master
      · rw [state_execution]
        exact master
    have shape : t.shape = s.shape := by rw [shape_of_core core, shape_stable.departed]
    obtain ⟨next, prev, before, after, rfl, -⟩ :=
      (linked.of_shape shape).unlink (linked.mem_of_search selected) unlinked
    have same : ((t.withLinks next prev).ds v).state = ((s.departed w key u).ds v).state := by
      rw [← ds_of_core core]
      rfl
    rw [same]
    exact departed

theorem master_create {inst : VrrpInst} {ret : Int} (linked : s.Linked nodes) (member : v ∈ nodes)
    (master : (s.ds v).state = .mast) (returns : s.createCommand w inst = .ok (ret, s')) :
    (s'.ds v).state = .mast := by
  have old : v ≠ s.dsTop := Nat.ne_of_lt (linked.allocated v member)
  rcases createCommand_outcome returns with
    ⟨status, -, -, grows⟩ | ⟨s₁, -, link, started⟩
  · rw [(linked.records_of_grows grows member).1]
    exact master
  · obtain ⟨next, prev, before, after, rfl, -⟩ := linked.link link
    have made : (((s.withInst inst).withLinks next prev).ds v).state = .mast := by
      have same : ((s.withInst inst).withLinks next prev).ds v = s.ds v :=
        Function.update_of_ne old ..
      rw [same]
      exact master
    rcases started with ⟨-, rfl⟩ | ⟨-, status, s₂, promoted, rfl⟩
    · exact made
    · have same : (s₂.onQueue (·.alarm inst.viVa.delay)).ds = s₂.ds := rfl
      rw [same, ds_of_core (vrrpStateI2m_core promoted).2]
      exact master_promote s.dsTop made

/-- A frame that is not of greater priority demotes other instances only. -/
theorem master_frame {af : Int} {ifname : Ifname} {frame : Frame} (linked : s.Linked nodes)
    (lower : frame.inst.viVa.pri ≤ s.vrrpPri v) (master : (s.ds v).state = .mast)
    (returns : s.processVrrpdSock w af ifname frame = .ok s') : (s'.ds v).state = .mast := by
  have cleared : ((s.cleared frame).ds v).state = .mast := master
  have heard : ((s.heard frame).ds v).state = .mast := master
  rcases processVrrpdSock_outcome returns with
    rfl | ⟨-, -, first, -, rfl | ⟨-, promoted⟩⟩ | ⟨-, -, rfl | ⟨curr, searched, -, processed⟩⟩
  · exact master
  · exact cleared
  · rw [ds_of_core (vrrpStateB2m_core promoted)]
    exact master_promote first cleared
  · exact heard
  · have known : (s.heard frame).Linked nodes := linked.of_shape rfl
    have parent := known.parent curr (known.mem_of_search searched)
    rcases vrrpProcessIncomingAdv_outcome processed with
      rfl | ⟨-, timeout, rearmed⟩ | ⟨-, greater, demoted⟩
    · exact heard
    · rw [ds_of_core (rearm_core rearmed)]
      exact heard
    · rw [parent] at demoted
      refine master_m2b ?_ heard demoted
      rintro rfl
      exact absurd greater (UInt8.not_lt.mpr lower)

theorem master_alarm (master : (s.ds v).state = .mast) (returns : s.signalAlarm w = .ok s') :
    (s'.ds v).state = .mast := by
  rcases signalAlarm_core returns with ⟨-, core⟩ | ⟨entry, -, core⟩
  · rw [ds_of_core core]
    exact master
  · rw [ds_of_core core]
    simp only [served]
    split
    · exact master
    · exact master_promote _ master
    · exact master
    · exact master

/-! ## With its priority -/

theorem pri_create {inst : VrrpInst} {ret : Int} (linked : s.Linked nodes) (member : v ∈ nodes)
    (returns : s.createCommand w inst = .ok (ret, s')) : s'.vrrpPri v = s.vrrpPri v := by
  rcases createCommand_outcome returns with
    ⟨status, -, -, grows⟩ | ⟨s₁, -, link, started⟩
  · rw [vrrpPri, vrrpPri, (linked.records_of_grows grows member).2]
  · rw [vrrpPri, vrrpPri, (linked.started_records link started).2 v member]

theorem pri_modify {key : Key} {asked delay preeMode acptMode ret : Int} (linked : s.Linked nodes)
    (member : v ∈ nodes)
    (spared : s.vrrpSearchInst key = .ok (some v) → asked = vrPropUnchange)
    (returns : s.vrrpSetInstProp w key asked delay preeMode acptMode = .ok (ret, s')) :
    s'.vrrpPri v = s.vrrpPri v := by
  rcases vrrpSetInstProp_core returns with ⟨-, rfl, -⟩ | ⟨-, u, modifies, core⟩
  · rfl
  · have selected := modifies.2.2
    have pri : s'.vrrpPri v = ((s.setAttr (s.ds u).vr
        (modifiedAttr (s.vr u).attr asked delay preeMode acptMode)).vrs (s.ds v).vr).attr.pri := by
      rw [vrrpPri, vr, vrs_of_core core, ds_of_core core]
      rfl
    rw [pri]
    by_cases here : v = u
    · subst here
      rw [setAttr_vrs, modifiedAttr_pri, if_neg (not_not.mpr (spared selected))]
      rfl
    · have apart : (s.ds v).vr ≠ (s.ds u).vr := fun same =>
        here (linked.vr_inj member (linked.mem_of_search selected) same)
      rw [setAttr_vrs_other apart]
      rfl

/-! ## One step -/

/-- It stays in the list. -/
theorem listed_step {op : Op} (linked : s.Linked nodes) (member : v ∈ nodes)
    (unchallenged : s.Unchallenged v op) (returns : step w op s = .ok s') :
    ∃ nodes', s'.Linked nodes' ∧ v ∈ nodes' := by
  obtain ⟨nodes', outcome⟩ := step_list linked returns
  refine ⟨nodes', outcome.linked, ?_⟩
  cases outcome.change with
  | keep => exact member
  | insert =>
      rcases List.mem_append.mp member with early | late
      · exact List.mem_append_left _ early
      · exact List.mem_append_right _ (List.mem_cons_of_mem _ late)
  | erase _ destroys =>
      obtain ⟨key, rfl, -, selected⟩ := destroys
      have spared : s.vrrpSearchInst key ≠ .ok (some v) := unchallenged
      rcases List.mem_append.mp member with early | late
      · exact List.mem_append_left _ early
      · rcases List.mem_cons.mp late with rfl | late
        · exact absurd selected spared
        · exact List.mem_append_right _ late

theorem master_step {op : Op} (linked : s.Linked nodes) (member : v ∈ nodes)
    (unchallenged : s.Unchallenged v op) (master : (s.ds v).state = .mast)
    (returns : step w op s = .ok s') : (s'.ds v).state = .mast := by
  cases op with
  | alarm => exact master_alarm master returns
  | frame => exact master_frame linked unchallenged master returns
  | command command =>
      obtain ⟨⟨status, s₁⟩, processed, stored⟩ := bind_eq_ok.mp returns
      cases stored
      cases command with
      | create => exact master_create linked member master processed
      | remove => exact master_destroy linked unchallenged master processed
      | startup => exact master_startup master processed
      | shutdown => exact master_shutdown unchallenged master processed
      | modify =>
          rw [vrrpSetInstProp_ds processed]
          exact master

theorem pri_step {op : Op} (linked : s.Linked nodes) (member : v ∈ nodes)
    (unchallenged : s.Unchallenged v op) (returns : step w op s = .ok s') :
    s'.vrrpPri v = s.vrrpPri v := by
  have kept : (∀ inst, op ≠ .command (.create inst)) →
      (∀ key pri delay preeMode acptMode,
        op ≠ .command (.modify key pri delay preeMode acptMode)) → s'.vrrpPri v = s.vrrpPri v := by
    intro noCreate noModify
    rw [vrrpPri, vrrpPri, step_vr noCreate noModify returns v]
  cases op with
  | alarm | frame => exact kept (by simp) (by simp)
  | command command =>
      cases command with
      | remove | startup | shutdown => exact kept (by simp) (by simp)
      | create =>
          obtain ⟨⟨status, s₁⟩, processed, stored⟩ := bind_eq_ok.mp returns
          cases stored
          exact pri_create linked member processed
      | modify =>
          obtain ⟨⟨status, s₁⟩, processed, stored⟩ := bind_eq_ok.mp returns
          cases stored
          exact pri_modify linked member unchallenged processed

/-- **An unchallenged master stays one.** -/
theorem Reigns.step {op : Op} (reigns : s.Reigns v pri) (unchallenged : s.Unchallenged v op)
    (returns : Daemon.step w op s = .ok s') : s'.Reigns v pri := by
  obtain ⟨⟨nodes, linked, member⟩, master, own⟩ := reigns
  exact ⟨listed_step linked member unchallenged returns,
    master_step linked member unchallenged master returns,
    (pri_step linked member unchallenged returns).trans own⟩

/-- A regular advertisement of any instance changes nothing but the log. -/
theorem Reigns.advertise {u : DsPtr} (reigns : s.Reigns v pri) : (s.advertise u).Reigns v pri := by
  obtain ⟨⟨nodes, linked, member⟩, master, own⟩ := reigns
  unfold Daemon.advertise
  split
  · exact ⟨⟨nodes, linked.of_shape rfl, member⟩, master, own⟩
  · exact ⟨⟨nodes, linked, member⟩, master, own⟩

end Daemon

namespace Lan

open Daemon

variable {ι : Type} [DecidableEq ι] (lan : Lan ι)

/-- The instance of `best` is a master. No VR on the segment has a greater priority, whether it
is that of an instance that runs or not, and no frame on its way carries one. -/
structure Unrivalled (best : ι) (n : lan.State) : Prop where
  listed : ∃ nodes, (n.node best).Linked nodes ∧ lan.inst best ∈ nodes
  master : lan.stateOf n best = .mast
  below : ∀ i p, ((n.node i).vrs p).attr.pri ≤ lan.priOf n best
  flight : ∀ e ∈ n.flight, e.message.inst.viVa.pri ≤ lan.priOf n best

/-- What can happen, in any order: routers advertise, handle frames, serve alarms and carry out
commands, which ask for no priority beyond that of `best`; those to `best` itself leave its
instance running, with its priority. -/
def Undisputed (best : ι) (n : lan.State) (event : lan.Event) : Prop :=
  event.Enabled n ∧ ∀ i op, event = .act i (.operate op) →
    op.Asks (lan.priOf n best) ∧ (i = best → (n.node best).Unchallenged (lan.inst best) op)

variable {lan} {best : ι} {n₀ n n' : lan.State} {pri : UInt8}

/-- The invariant of a router: its VRs have no greater priority than `best`, which reigns. -/
structure Yielding (lan : Lan ι) (best : ι) (pri : UInt8) (i : ι) (s : Daemon) : Prop where
  below : ∀ p, (s.vrs p).attr.pri ≤ pri
  reigns : i = best → s.Reigns (lan.inst i) pri

/-- Every router is as modest as `best`, and so is every frame. -/
abbrev Ruled (lan : Lan ι) (best : ι) (pri : UInt8) : lan.State → Prop :=
  Protocol.Sound (Yielding lan best pri) fun e => e.message.inst.viVa.pri ≤ pri

omit [DecidableEq ι] in
/-- A modest router sends modest frames. -/
theorem sent_modest {i : ι} {s s' : Daemon} (modest : Modest pri s.effects s') :
    ∀ e ∈ lan.protocol.broadcast i (s.written s'), e.message.inst.viVa.pri ≤ pri := by
  intro e member
  obtain ⟨-, -, sent⟩ := Protocol.mem_broadcast.mp member
  exact modest.written _ sent

omit [DecidableEq ι] in
/-- The invariant holds where `best` has no rival. -/
theorem Unrivalled.ruled (start : lan.Unrivalled best n₀) :
    Ruled lan best (lan.priOf n₀ best) n₀ := by
  refine ⟨fun i => ⟨start.below i, fun here => ?_⟩, start.flight⟩
  subst here
  exact ⟨start.listed, start.master, rfl⟩

/-- The step lemma. -/
theorem ruled_step {event : lan.Event} (ruled : Ruled lan best pri n)
    (allowed : lan.Undisputed best n event) (own : lan.priOf n best = pri)
    (returns : lan.protocol.step event n = .ok n') : Ruled lan best pri n' := by
  refine ruled.step allowed.1 (fun s yielding relies performed => ?_) returns
  have start : Modest pri (n.node event.node).effects (n.node event.node) :=
    .start yielding.below
  cases event with
  | act i action =>
      cases action with
      | advertise =>
          cases performed
          have modest : Modest pri (n.node i).effects ((n.node i).advertise (lan.inst i)) := by
            unfold Daemon.advertise
            split
            · exact start.send _ 1
            · exact start
          exact ⟨⟨modest.vrs, fun here => (yielding.reigns here).advertise⟩, sent_modest modest⟩
      | operate op =>
          obtain ⟨asks, spared⟩ := allowed.2 i op rfl
          rw [own] at asks
          have modest : Modest pri (n.node i).effects s := start.step asks.admits performed
          refine ⟨⟨modest.vrs, fun here => ?_⟩, sent_modest modest⟩
          subst here
          exact (yielding.reigns rfl).step (spared rfl) performed
  | deliver e =>
      have carries := relies e rfl
      have modest : Modest pri (n.node e.target).effects s := start.hear performed
      refine ⟨⟨modest.vrs, fun here => ?_⟩, sent_modest modest⟩
      have reigns : (n.node e.target).Reigns (lan.inst e.target) pri := yielding.reigns here
      have unchallenged : (n.node e.target).Unchallenged (lan.inst e.target)
          (.frame afInet lan.ifname e.message) := by
        show e.message.inst.viVa.pri ≤ (n.node e.target).vrrpPri (lan.inst e.target)
        rw [reigns.own]
        exact carries
      exact reigns.step unchallenged performed

/-- **The best router stays the master.** A router has a master, and nothing on the segment has a
greater priority. In every history in which no router is asked for a greater one, and this one is
not asked to shut the instance down, to destroy it or to change its priority, it stays a master
with its priority, and nothing with a greater one is ever on its way. Whatever else the routers
do: startups, shutdowns, instances that come and go, other priorities and intervals, alarms, and
frames handled in any order. A history ends where a daemon does: a removal that ends in
`kill(0, SIGINT)` has no next state, and what comes after a create on an interface that cannot be
opened, which exits, is not said of the code. -/
theorem best_reigns (lan : Lan ι) (best : ι) (n₀ : lan.State) (start : lan.Unrivalled best n₀)
    (past : List (lan.State × lan.Event × lan.State)) (n : lan.State)
    (history : History lan.protocol.step (lan.Undisputed best) n₀ past n) :
    lan.stateOf n best = .mast ∧ lan.priOf n best = lan.priOf n₀ best ∧
      ∀ e ∈ n.flight, e.message.inst.viVa.pri ≤ lan.priOf n₀ best := by
  have ruled : Ruled lan best (lan.priOf n₀ best) n := by
    refine history.invariant _ start.ruled fun n event n' ruled allowed returns => ?_
    exact ruled_step ruled allowed ((ruled.nodes best).reigns rfl).own returns
  have reigns := (ruled.nodes best).reigns rfl
  exact ⟨reigns.master, reigns.own, ruled.messages⟩

/-! ## Two routers of which one tries everything -/

/-- How the two come up: masters of priorities 200 and 100. -/
def duoOps : Side → List Op
  | .left => [.create 7 200, .startup 7]
  | .right => [.create 7 100, .startup 7]

/-- The routers once they are up. -/
def duoUp : pair.State where
  node i := outcome initial (exec (step .plain) (duoOps i) initial)
  flight := []

/-- The right one gets the priority of the left one, and advertises. -/
def duoRaise : pair.Event :=
  .act .right (.operate (.command (.modify (.sample 7) 200 (-1) (-1) (-1))))

theorem duoUp_unrivalled : pair.Unrivalled .left duoUp := by
  have ran : ∀ i, passes (fun s => s.next instRuntimeList == some 1 && s.next 1 == none &&
      (s.ds 1).state == .mast && (i == .right || s.vrrpPri 1 == 200))
      (exec (step .plain) (duoOps i) initial) = true := by
    intro i
    cases i <;> decide
  have asks : ∀ i, ∀ op ∈ duoOps i, op.Asks 200 := by
    intro i
    cases i with
    | left =>
        have same : (200 : UInt8) ≤ 200 := UInt8.le_refl _
        exact List.forall_mem_cons.mpr ⟨same, List.forall_mem_singleton.mpr trivial⟩
    | right =>
        have lower : (100 : UInt8) ≤ 200 := by decide
        exact List.forall_mem_cons.mpr ⟨lower, List.forall_mem_singleton.mpr trivial⟩
  obtain ⟨returns, tested⟩ := eq_outcome initial (ran .left)
  simp only [Bool.and_eq_true, beq_iff_eq] at tested
  have reachable : Reachable .plain (duoUp.node .left) := ⟨_, run_of_exec returns⟩
  have given : (outcome initial (exec (step .plain) (duoOps .left) initial)).vrrpPri 1 = 200 := by
    simpa using tested.2
  have own : pair.priOf duoUp .left = 200 := given
  refine ⟨⟨_, (reachable.serves tested.1.1.1 tested.1.1.2).linked, List.mem_singleton_self _⟩,
    tested.1.2, fun i p => ?_, fun e member => absurd member List.not_mem_nil⟩
  obtain ⟨came, -⟩ := eq_outcome initial (ran i)
  rw [own]
  have fresh : Modest 200 initial.effects initial := .start fun p => UInt8.zero_le
  exact (fresh.exec (fun op member => (asks i op member).admits) came).vrs p

/-- The frame that the right router then writes. -/
def duoFrame : Envelope Side Frame := ⟨.right, .left, trioFrame 200 .mast⟩

/-- The right router is given the priority of the left one, and the left one handles the
advertisement. It stays a master. -/
theorem best_reigns_duo : ∃ past n,
    History pair.protocol.step (pair.Undisputed .left) duoUp past n ∧
      past.map (fun entry => entry.2.1) = [duoRaise, .act .right .advertise, .deliver duoFrame] ∧
      pair.stateOf n .left = .mast ∧ pair.priOf n .left = 200 := by
  have ran : passes (fun n₁ => pair.priOf n₁ .left == 200 &&
      passes (fun n₂ => decide (duoFrame ∈ n₂.flight) &&
        passes (fun n₃ => pair.priOf n₃ .left == 200) (pair.protocol.step (.deliver duoFrame) n₂))
        (pair.protocol.step (.act .right .advertise) n₁))
      (pair.protocol.step duoRaise duoUp) = true := by decide
  obtain ⟨n₁, raised, tested₁⟩ := exists_of_passes ran
  simp only [Bool.and_eq_true, beq_iff_eq] at tested₁
  obtain ⟨n₂, advertised, tested₂⟩ := exists_of_passes tested₁.2
  simp only [Bool.and_eq_true, decide_eq_true_eq] at tested₂
  obtain ⟨n₃, delivered, given⟩ := exists_of_passes tested₂.2
  have top : pair.priOf duoUp .left = 200 := by decide
  have raises : pair.Undisputed .left duoUp duoRaise := by
    refine ⟨trivial, fun i op same => ?_⟩
    cases same
    refine ⟨fun _ => ?_, fun here => by cases here⟩
    rw [top]
    decide
  have sends : pair.Undisputed .left n₁ (.act .right .advertise) :=
    ⟨trivial, fun i op same => by cases same⟩
  have handles : pair.Undisputed .left n₂ (.deliver duoFrame) :=
    ⟨tested₂.1, fun i op same => by cases same⟩
  have history := ((History.nil.snoc raises raised).snoc sends advertised).snoc handles delivered
  obtain ⟨master, -, -⟩ := best_reigns pair .left duoUp duoUp_unrivalled _ n₃ history
  exact ⟨_, n₃, history, rfl, master, beq_iff_eq.mp given⟩

end Lan

end VrrpDaemon
