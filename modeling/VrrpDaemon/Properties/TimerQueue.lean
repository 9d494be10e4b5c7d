import VrrpDaemon.Behaviour.Queue

/-!
# The timer queue over whole runs

`vrrp_enqueue_impl` does not insert into a queue that already holds a VR, and
`vrrp_rmqueue` takes a VR without links for one that is not queued. So the queue
is right as long as it holds at most one VR: the steps of `QueueSafe` are those
that do not enter a second one, do not serve a backup and do not destroy an
instance whose VR stays behind.

`Timed` is the invariant of such runs. It is preserved by every safe step
(`Timed.step`), so the queue is well formed in every state that a run of safe
steps reaches (`queueWellFormed_of_run`).
-/

set_option autoImplicit false

namespace VrrpDaemon

open Machine

namespace Daemon

/-- The timer queue is a doubly linked list without repetition of the VRs of the
listed instances in `MAST` or `BACK`. -/
def QueueWellFormed (s : Daemon) : Prop :=
  ∃ queue, Segment s.q.qnext s.q.advQ queue none ∧ queue.Nodup ∧
    Backward s.q.qprev none queue ∧
    ∀ p, p ∈ queue ↔ ∃ v, s.Listed v ∧ (s.ds v).vr = p ∧ (s.ds v).state.running = true

/-- The operations after which the queue is still right: no instance is started
while a VR is queued, no alarm finds a backup, and no destroy selects a backup,
or a master without giving its VRID. -/
def QueueSafe (w : World) (s : Daemon) : Op → Prop
  | .command (.create inst) =>
      inst.viVa.pri = 255 → ∀ v, Creates w s (.command (.create inst)) v → s.q.advQ = none
  | .command (.startup key) =>
      ∀ v, key.af = afInet → key.vid ≠ 0 → s.vrrpSearchInst key = .ok (some v) →
        (s.ds v).state = .init → s.q.advQ = none
  | .command (.remove key) =>
      ∀ v, key.af = afInet → s.vrrpSearchInst key = .ok (some v) →
        (s.ds v).state ≠ .back ∧ ((s.ds v).state = .mast → key.vid ≠ 0)
  | .alarm => ∀ p, s.q.advQ = some p → (s.ds (s.vrs p).parent).state ≠ .back
  | .command (.shutdown _) | .command (.modify ..) | .frame .. => True

/-- The queue holds at most one VR, and a listed instance runs exactly when its
VR is the one queued. -/
structure Timed (s : Daemon) (nodes : List DsPtr) : Prop where
  linked : s.Linked nodes
  single : s.q.Single s.q.advQ
  queued : ∀ v ∈ nodes, (s.ds v).state.running = true ↔ s.q.advQ = some (s.ds v).vr
  listed : ∀ p, s.q.advQ = some p → ∃ v ∈ nodes, (s.ds v).vr = p

variable {w : World} {s s' : Daemon} {nodes : List DsPtr}

theorem timed_initial : initial.Timed [] where
  linked := linked_initial
  single := ⟨rfl, fun _ => rfl, fun _ => rfl⟩
  queued := by simp
  listed := nofun

namespace Timed

/-- A running instance is the one whose VR is queued. -/
theorem queue_of_running (timed : s.Timed nodes) {v : DsPtr} (member : v ∈ nodes)
    (running : (s.ds v).state.running = true) : s.q.advQ = some (s.ds v).vr :=
  (timed.queued v member).mp running

theorem queueWellFormed (timed : s.Timed nodes) : s.QueueWellFormed := by
  have members : ∀ p, s.q.advQ = some p ↔
      ∃ v, s.Listed v ∧ (s.ds v).vr = p ∧ (s.ds v).state.running = true := by
    intro p
    constructor
    · intro queued
      obtain ⟨v, member, rfl⟩ := timed.listed p queued
      exact ⟨v, timed.linked.listed_iff.mpr member, rfl, (timed.queued v member).mpr queued⟩
    · rintro ⟨v, listed, rfl, running⟩
      exact timed.queue_of_running (timed.linked.listed_iff.mp listed) running
  cases queue : s.q.advQ with
  | none =>
      refine ⟨[], queue, List.nodup_nil, trivial, fun p => ?_⟩
      rw [← members p, queue]
      simp
  | some p =>
      refine ⟨[p], ⟨queue, timed.single.qnext p⟩, List.nodup_singleton p,
        ⟨timed.single.qprev p, trivial⟩, fun r => ?_⟩
      rw [← members r, queue, List.mem_singleton, Option.some.injEq, eq_comm]

/-- A step that changes no state and leaves the VR queued keeps the invariant. -/
theorem congr (timed : s.Timed nodes) (shape : s'.shape = s.shape)
    (states : ∀ u, (s'.ds u).state = (s.ds u).state) (single : s'.q.Single s.q.advQ) :
    s'.Timed nodes where
  linked := timed.linked.of_shape shape
  single := by rw [single.advQ]; exact single
  queued v member := by
    rw [states, single.advQ, vr_of_shape shape]
    exact timed.queued v member
  listed p queued := by
    rw [single.advQ] at queued
    obtain ⟨v, member, same⟩ := timed.listed p queued
    exact ⟨v, member, (vr_of_shape shape v).trans same⟩

theorem note (timed : s.Timed nodes) (event : TimerEvent) :
    (s.onQueue (·.note event)).Timed nodes :=
  timed.congr rfl (fun _ => rfl) (timed.single.note event)

/-- A step that changes the state of one instance, with no other one running,
keeps the invariant if it leaves the instance's VR in the queue exactly when
the instance runs. -/
theorem update {v : DsPtr} (timed : s.Timed nodes) (member : v ∈ nodes)
    (shape : s'.shape = s.shape) (others : ∀ u, u ≠ v → (s'.ds u).state = (s.ds u).state)
    (before : s.q.advQ = none ∨ s.q.advQ = some (s.ds v).vr)
    (single : s'.q.Single (if (s'.ds v).state.running then some (s.ds v).vr else none)) :
    s'.Timed nodes where
  linked := timed.linked.of_shape shape
  single := by rw [single.advQ]; exact single
  queued u memberU := by
    rw [single.advQ, vr_of_shape shape]
    by_cases here : u = v
    · subst here
      cases (s'.ds u).state.running <;> simp
    · have distinct : (s.ds v).vr ≠ (s.ds u).vr := fun same =>
        here (timed.linked.vr_inj memberU member same.symm)
      have idle : ¬ (s.ds u).state.running = true := by
        rw [timed.queued u memberU]
        rcases before with none | own
        · simp [none]
        · simp [own, distinct]
      rw [others u here]
      cases (s'.ds v).state.running <;> simp [idle, distinct]
  listed p queued := by
    rw [single.advQ] at queued
    cases running : (s'.ds v).state.running with
    | false => simp [running] at queued
    | true =>
        simp only [running, reduceIte, Option.some.injEq] at queued
        exact ⟨v, member, (vr_of_shape shape v).trans queued⟩

end Timed

/-! ## The transitions -/

theorem timed_b2m {v : DsPtr} (timed : s.Timed nodes) (member : v ∈ nodes)
    (backup : (s.ds v).state = .back) (returns : s.vrrpStateB2m w v = .ok s') :
    s'.Timed nodes := by
  have core := vrrpStateB2m_core returns
  have own := timed.queue_of_running member (by rw [backup]; rfl)
  have after : (s'.ds v).state = .mast := by
    rw [ds_of_core core, state_promote_self]
  refine timed.update member (by rw [shape_of_core core, shape_promote]) ?_ (.inr own) ?_
  · intro u other
    rw [ds_of_core core, state_promote_other _ _ _ _ other]
  · rw [after]
    exact vrrpStateB2m_single timed.single returns

theorem timed_m2b {v : DsPtr} (timed : s.Timed nodes) (member : v ∈ nodes)
    (master : (s.ds v).state = .mast) (returns : s.vrrpStateM2b w v = .ok s') :
    s'.Timed nodes := by
  have core := vrrpStateM2b_core returns
  have own := timed.queue_of_running member (by rw [master]; rfl)
  have states : (s'.ds v).state.running = true ∧
      ∀ u, u ≠ v → (s'.ds u).state = (s.ds u).state := by
    split at core
    · rw [ds_of_core core, state_promote_self]
      refine ⟨rfl, fun u other => ?_⟩
      rw [state_promote_other _ _ _ _ other, state_leave_other _ _ _ _ _ other]
    · rw [ds_of_core core, state_leave_self]
      refine ⟨rfl, fun u other => ?_⟩
      rw [state_leave_other _ _ _ _ _ other]
  refine timed.update member (shape_stable.m2b returns) states.2 (.inr own) ?_
  rw [states.1]
  exact vrrpStateM2b_single timed.single returns

theorem timed_i2b {v : DsPtr} (timed : s.Timed nodes) (member : v ∈ nodes)
    (idle : s.q.advQ = none) (returns : s.vrrpStateI2b w v = .ok s') : s'.Timed nodes := by
  have core := vrrpStateI2b_core returns
  have states : (s'.ds v).state.running = true ∧
      ∀ u, u ≠ v → (s'.ds u).state = (s.ds u).state := by
    split at core
    · rw [ds_of_core core, state_promote_self]
      refine ⟨rfl, fun u other => ?_⟩
      rw [state_promote_other _ _ _ _ other, setState_ds_other _ _ _ other]
    · rw [ds_of_core core, setState_ds_self]
      refine ⟨rfl, fun u other => ?_⟩
      rw [setState_ds_other _ _ _ other]
  have single : s.q.Single none := idle ▸ timed.single
  refine timed.update member (shape_stable.i2b returns) states.2 (.inl idle) ?_
  rw [states.1]
  exact vrrpStateI2b_single single returns

theorem timed_i2m {v : DsPtr} {ret : Int} (timed : s.Timed nodes) (member : v ∈ nodes)
    (idle : s.q.advQ = none) (returns : s.vrrpStateI2m w v = .ok (ret, s')) :
    s'.Timed nodes := by
  have core := (vrrpStateI2m_core returns).2
  have after : (s'.ds v).state = .mast := by rw [ds_of_core core, state_promote_self]
  have single : s.q.Single none := idle ▸ timed.single
  refine timed.update member (by rw [shape_of_core core, shape_promote]) ?_ (.inl idle) ?_
  · intro u other
    rw [ds_of_core core, state_promote_other _ _ _ _ other]
  · rw [after]
    exact vrrpStateI2m_single single returns

theorem timed_m2i {v : DsPtr} (timed : s.Timed nodes) (member : v ∈ nodes)
    (master : (s.ds v).state = .mast) (returns : s.vrrpStateM2i w v = .ok s') :
    s'.Timed nodes ∧ (s'.ds v).state = .init := by
  have core := vrrpStateM2i_core returns
  have own := timed.queue_of_running member (by rw [master]; rfl)
  have after : (s'.ds v).state = .init := by rw [ds_of_core core, state_leave_self]
  refine ⟨timed.update member (by rw [shape_of_core core, shape_leave]) ?_ (.inr own) ?_, after⟩
  · intro u other
    rw [ds_of_core core, state_leave_other _ _ _ _ _ other]
  · rw [after]
    exact vrrpStateM2i_single timed.single returns

theorem timed_b2i {v : DsPtr} (timed : s.Timed nodes) (member : v ∈ nodes)
    (backup : (s.ds v).state = .back) (returns : s.vrrpStateB2i v = .ok s') :
    s'.Timed nodes := by
  have core := vrrpStateB2i_core returns
  have own := timed.queue_of_running member (by rw [backup]; rfl)
  have after : (s'.ds v).state = .init := by rw [ds_of_core core, setState_ds_self]
  refine timed.update member (by rw [shape_of_core core, shape_setState]) ?_ (.inr own) ?_
  · intro u other
    rw [ds_of_core core, setState_ds_other _ _ _ other]
  · rw [after]
    exact vrrpStateB2i_single timed.single returns

/-! ## Frames and alarms -/

theorem timed_frame {af : Int} {ifname : Ifname} {frame : Frame} (timed : s.Timed nodes)
    (returns : s.processVrrpdSock w af ifname frame = .ok s') : s'.Timed nodes := by
  have flagged : ∀ x up, (s.setFlag x up).Timed nodes := fun x up =>
    timed.congr rfl (fun _ => rfl) timed.single
  have cleared : (s.cleared frame).Timed nodes := timed.congr rfl (fun _ => rfl) timed.single
  rcases processVrrpdSock_outcome returns with
    rfl | ⟨-, -, first, found, rfl | ⟨backup, promoted⟩⟩ |
    ⟨-, -, rfl | ⟨curr, searched, -, processed⟩⟩
  · exact timed
  · exact cleared
  · exact timed_b2m cleared (timed.linked.first_mem found) backup promoted
  · exact flagged _ _
  · have heard : (s.heard frame).Timed nodes := flagged _ _
    have member := heard.linked.mem_of_search searched
    have parent := heard.linked.parent curr member
    rcases vrrpProcessIncomingAdv_outcome processed with
      rfl | ⟨running, timeout, rearmed⟩ | ⟨master, -, demoted⟩
    · exact heard
    · rw [parent] at running
      have core := rearm_core rearmed
      refine heard.congr (shape_of_core core) (fun u => by rw [ds_of_core core]) ?_
      rw [heard.queue_of_running member running]
      exact rearm_single heard.single rearmed
    · rw [parent] at master demoted
      exact timed_m2b heard member master demoted

theorem timed_alarm (timed : s.Timed nodes)
    (safe : ∀ p, s.q.advQ = some p → (s.ds (s.vrs p).parent).state ≠ .back)
    (returns : s.signalAlarm w = .ok s') : s'.Timed nodes := by
  rcases signalAlarm_outcome returns with ⟨idle, rfl⟩ | ⟨p, q, s₁, queued, removed, served, rfl⟩
  · exact timed.congr rfl (fun _ => rfl) ((timed.single.note _).note _)
  · obtain ⟨v, member, rfl⟩ := timed.listed p queued
    have parent := timed.linked.parent v member
    have running := (timed.queued v member).mpr queued
    have master : (s.ds (s.vrs (s.ds v).vr).parent).state = .mast := by
      have notBackup := safe _ queued
      rw [parent] at notBackup ⊢
      cases state : (s.ds v).state with
      | mast => rfl
      | back => exact absurd state notBackup
      | none | init => rw [state] at running; cases running
    simp only [serveEntry] at served
    rw [master] at served
    obtain ⟨s₂, entered, served⟩ := bind_eq_ok.mp served
    cases served
    have out : q.Single none := (timed.single.note .lock).rmqueue removed
    have alone := single_enqueue (out.setTimeout ..) entered
    have core := core_tryQueue entered
    refine timed.congr ?_ (fun u => ?_) ?_
    · rw [shape_onQueue, shape_onQueue, shape_of_core core]
      rfl
    · rw [ds_of_core (core_onQueue _ _), ds_of_core (core_onQueue _ _), ds_of_core core]
      rfl
    · rw [queued]
      exact (alone.note _).note _

/-! ## Commands -/

theorem timed_setAttr {p : VrPtr} {attr : VrrpAttr} (timed : s.Timed nodes) :
    (s.setAttr p attr).Timed nodes :=
  timed.congr (shape_setAttr ..) (fun _ => rfl) timed.single

theorem timed_modify {key : Key} {ret pri delay preeMode acptMode : Int} (timed : s.Timed nodes)
    (returns : s.vrrpSetInstProp w key pri delay preeMode acptMode = .ok (ret, s')) :
    s'.Timed nodes := by
  rcases vrrpSetInstProp_outcome returns with ⟨-, rfl, -⟩ | ⟨-, v, -, s₁, changed, rfl⟩
  · exact timed
  · rw [changePri_eq] at changed
    rw [changeModes_eq]
    refine timed_setAttr ?_
    unfold changeDelay at changed
    split at changed
    · obtain ⟨s₂, requeued, changed⟩ := bind_eq_ok.mp changed
      cases changed
      obtain ⟨⟨removed, s₃⟩, dequeued, requeued⟩ := bind_eq_ok.mp requeued
      obtain ⟨refused, rfl⟩ := vrrpRmqueue_single (timed.single.note .lock) dequeued
      dsimp only at requeued
      rw [if_neg refused] at requeued
      cases requeued
      exact timed.congr (by simp) (fun _ => rfl) ((timed.single.note _).note _)
    · cases changed
      exact timed_setAttr timed

theorem Timed.unlink {v : DsPtr} (timed : s.Timed nodes) (member : v ∈ nodes)
    (idle : (s.ds v).state.running = false) (returns : s.unlinkInst v = .ok s') :
    ∃ nodes', s'.Timed nodes' := by
  obtain ⟨next, prev, before, after, rfl, rfl, linked⟩ := timed.linked.unlink member returns
  have shorter : (before ++ after).Sublist (before ++ v :: after) := by simp
  refine ⟨_, linked, timed.single, fun u member => timed.queued u (shorter.subset member), ?_⟩
  intro p queued
  obtain ⟨u, memberU, same⟩ := timed.listed p queued
  have other : u ≠ v := by
    rintro rfl
    rw [← same] at queued
    rw [(timed.queued u memberU).mpr queued] at idle
    cases idle
  refine ⟨u, ?_, same⟩
  simp only [List.mem_append, List.mem_cons] at memberU ⊢
  tauto

theorem timed_destroy {key : Key} {ret : Int} (timed : s.Timed nodes)
    (safe : ∀ v, key.af = afInet → s.vrrpSearchInst key = .ok (some v) →
      (s.ds v).state ≠ .back ∧ ((s.ds v).state = .mast → key.vid ≠ 0))
    (returns : s.vrrpDestroyInst w key = .ok (ret, s')) : ∃ nodes', s'.Timed nodes' := by
  rcases vrrpDestroyInst_outcome returns with ⟨-, rfl⟩ | ⟨family, v, selected, destroyed⟩
  · exact ⟨nodes, timed⟩
  · obtain ⟨notBackup, given⟩ := safe v family selected
    have member := timed.linked.mem_of_search selected
    rcases destroyed with
      ⟨master, status, s₁, removed, s₂, stopped, dequeued, unlinked⟩ |
      ⟨other, -, removed, s₁, dequeued, unlinked⟩
    · rcases vrrpShutdownInst_master family selected master stopped with
        ⟨missing, -⟩ | ⟨-, stopped⟩
      · exact absurd missing (given master)
      · obtain ⟨timed₁, after⟩ := timed_m2i timed member master stopped
        have timed₂ : (s₁.onQueue (·.lock)).Timed nodes := timed₁.note .lock
        obtain ⟨-, rfl⟩ := vrrpRmqueue_single timed₂.single dequeued
        exact (timed₂.note .unlock).unlink member (congrArg VrrpState.running after) unlinked
    · have idle : (s.ds v).state.running = false := by
        cases state : (s.ds v).state with
        | mast => exact absurd state other
        | back => exact absurd state notBackup
        | none | init => rfl
      have timed₁ : (s.onQueue (·.lock)).Timed nodes := timed.note .lock
      obtain ⟨-, rfl⟩ := vrrpRmqueue_single timed₁.single dequeued
      have timed₂ : ((s.onQueue (·.lock)).onQueue (·.unlock)).Timed nodes := timed₁.note .unlock
      have timed₃ : (((s.onQueue (·.lock)).onQueue (·.unlock)).executed w .mastToInit v).Timed
          nodes :=
        timed₂.congr (shape_execution ..) (fun u => state_execution ..)
          (by rw [q_execution]; exact timed₂.single)
      exact timed₃.unlink member (by rw [state_execution]; exact idle) unlinked

/-- A queue of at most one VR is not touched by an allocation. -/
theorem Grows.single {x : Option VrPtr} (grows : s.Grows s') (single : s.q.Single x) :
    s'.q.Single x where
  advQ := grows.advQ.trans single.advQ
  qnext p := (grows.qnext p).elim (fun same => same.trans (single.qnext p)) And.right
  qprev p := (grows.qprev p).elim (fun same => same.trans (single.qprev p)) And.right

theorem Timed.of_grows (timed : s.Timed nodes) (grows : s.Grows s') : s'.Timed nodes where
  linked := timed.linked.of_grows grows
  single := by
    rw [grows.advQ]
    exact grows.single timed.single
  queued v member := by
    rw [grows.ds v (timed.linked.allocated v member), grows.advQ]
    exact timed.queued v member
  listed p queued := by
    rw [grows.advQ] at queued
    obtain ⟨v, member, same⟩ := timed.listed p queued
    exact ⟨v, member, by rw [grows.ds v (timed.linked.allocated v member)]; exact same⟩

/-- A new instance does not run, and its VR is not queued. -/
theorem Timed.link {inst : VrrpInst} (timed : s.Timed nodes)
    (returns : (s.withInst inst).linkInst s.dsTop = .ok s') :
    ∃ nodes', s'.Timed nodes' ∧ s.dsTop ∈ nodes' ∧ s'.q.advQ = s.q.advQ := by
  have grown := timed.of_grows (grows_withInst inst s)
  obtain ⟨next, prev, before, after, rfl, rfl, linked⟩ := timed.linked.link returns
  have new : (s.withInst inst).ds s.dsTop =
      { vr := s.vrTop, active := inst.viActive, state := .init, pid := 0 } := Function.update_self ..
  refine ⟨_, ⟨linked, grown.single, ?_, ?_⟩, by simp, rfl⟩
  · intro v member
    have cases_ : v = s.dsTop ∨ v ∈ before ++ after := by
      simp only [List.mem_append, List.mem_cons] at member ⊢
      tauto
    rcases cases_ with rfl | old
    · have unqueued : s.q.advQ ≠ some s.vrTop := by
        intro queued
        obtain ⟨u, memberU, same⟩ := timed.listed _ queued
        exact Nat.lt_irrefl _ (same ▸ timed.linked.vrAllocated u memberU)
      show ((s.withInst inst).ds s.dsTop).state.running = true ↔
        s.q.advQ = some ((s.withInst inst).ds s.dsTop).vr
      rw [new]
      simp [VrrpState.running, unqueued]
    · exact grown.queued v old
  · intro p queued
    obtain ⟨v, member, same⟩ := grown.listed p queued
    refine ⟨v, ?_, same⟩
    simp only [List.mem_append, List.mem_cons] at member ⊢
    tauto

theorem timed_create {inst : VrrpInst} {ret : Int} (timed : s.Timed nodes)
    (safe : inst.viVa.pri = 255 →
      ∀ v, Creates w s (.command (.create inst)) v → s.q.advQ = none)
    (returns : s.createCommand w inst = .ok (ret, s')) : ∃ nodes', s'.Timed nodes' := by
  rcases createCommand_outcome returns with
    ⟨status, -, -, grows⟩ | ⟨s₁, created, link, started⟩
  · exact ⟨nodes, timed.of_grows grows⟩
  · obtain ⟨nodes', timed', member, queue⟩ := timed.link link
    rcases started with ⟨-, rfl⟩ | ⟨top, status, s₂, promoted, rfl⟩
    · exact ⟨nodes', timed'⟩
    · have idle : s₁.q.advQ = none := queue.trans (safe top _ ⟨inst, s₁, rfl, created⟩)
      exact ⟨nodes', (timed_i2m timed' member idle promoted).note _⟩

/-! ## Runs -/

/-- The step lemma. -/
theorem Timed.step {op : Op} (timed : s.Timed nodes) (safe : QueueSafe w s op)
    (returns : Daemon.step w op s = .ok s') : ∃ nodes', s'.Timed nodes' := by
  cases op with
  | frame af ifname frame => exact ⟨nodes, timed_frame timed returns⟩
  | alarm => exact ⟨nodes, timed_alarm timed safe returns⟩
  | command command =>
      obtain ⟨⟨status, s₁⟩, processed, returns⟩ := bind_eq_ok.mp returns
      cases returns
      cases command with
      | create inst => exact timed_create timed safe processed
      | remove key => exact timed_destroy timed safe processed
      | modify key pri delay preeMode acptMode => exact ⟨nodes, timed_modify timed processed⟩
      | startup key =>
          rcases vrrpStartupInst_outcome processed with
            rfl | ⟨v, family, given, selected, idle, started⟩
          · exact ⟨nodes, timed⟩
          · exact ⟨nodes, timed_i2b timed (timed.linked.mem_of_search selected)
              (safe v family given selected idle) started⟩
      | shutdown key =>
          rcases vrrpShutdownInst_outcome processed with
            rfl | ⟨v, -, -, selected, ⟨master, stopped⟩ | ⟨backup, stopped⟩⟩
          · exact ⟨nodes, timed⟩
          · exact ⟨nodes, (timed_m2i timed (timed.linked.mem_of_search selected) master stopped).1⟩
          · exact ⟨nodes, timed_b2i timed (timed.linked.mem_of_search selected) backup stopped⟩

/-- **The timer queue over runs of safe steps.** In every state that such a run
reaches, the queue is a finite doubly linked list without repetition, and its
VRs are those of the listed instances in `MAST` or `BACK`. -/
theorem queueWellFormed_of_run {w : World} {ops : List Op} {s : Daemon}
    (run : Run (step w) (QueueSafe w) initial ops s) : s.QueueWellFormed := by
  have timed : ∃ nodes, s.Timed nodes := by
    refine run.invariant (fun s : Daemon => ∃ nodes, s.Timed nodes) ⟨[], timed_initial⟩ ?_
    rintro s op s' ⟨nodes, timed⟩ safe returns
    exact timed.step safe returns
  obtain ⟨nodes, timed⟩ := timed
  exact timed.queueWellFormed

/-- A run that creates an instance and starts it. -/
theorem queueWellFormed_of_run_startup :
    ∃ s, Run (step .plain) (QueueSafe .plain) initial [.create 7 100, .startup 7] s ∧
      s.QueueWellFormed := by
  have ran : passes (fun s => s.q.advQ == none && passes (fun _ => true) (step .plain (.startup 7) s))
      (step .plain (.create 7 100) initial) = true := by decide +kernel
  obtain ⟨s₁, created, tested⟩ := exists_of_passes ran
  simp only [Bool.and_eq_true, beq_iff_eq] at tested
  obtain ⟨s₂, started, -⟩ := exists_of_passes tested.2
  have first : QueueSafe .plain initial (.create 7 100) := fun top => absurd top (by decide)
  have second : QueueSafe .plain s₁ (.startup 7) := fun _ _ _ _ _ => tested.1
  have run : Run (step .plain) (QueueSafe .plain) initial [.create 7 100, .startup 7] s₂ :=
    .snoc (.snoc .nil first created) second started
  exact ⟨s₂, run, queueWellFormed_of_run run⟩

/-- **Two masters break the queue.** When the alarm has at least the second
interval left, the second VR is entered before the first, and its `qprev` is the
VR itself. -/
theorem queueWellFormed_two_masters :
    ∃ w s, Run (step w) unguarded initial [.create 7 255, .create 8 255] s ∧
      ¬ s.QueueWellFormed := by
  have ran : passes (fun s => s.q.advQ == some 1 && s.q.qprev 1 == some 1)
      (exec (step { World.plain with ualarm := fun _ => 1000000 })
        [.create 7 255, .create 8 255] initial) = true := by decide +kernel
  obtain ⟨s, returns, tested⟩ := exists_of_passes ran
  simp only [Bool.and_eq_true, beq_iff_eq] at tested
  refine ⟨_, s, run_of_exec returns, ?_⟩
  rintro ⟨queue, segment, -, backward, -⟩
  rw [tested.1] at segment
  cases queue with
  | nil => cases segment
  | cons p queue =>
      cases segment.1
      exact absurd (tested.2.symm.trans backward.1) (by simp)

end Daemon

end VrrpDaemon
