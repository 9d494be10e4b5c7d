import VrrpDaemon.Behaviour.Returns

/-!
# What a destroy does

Before it unlinks its instance, `vrrp_destroy_inst` shuts down a master or takes
the effects of leaving `MAST`, and takes the VR out of the queue (`leaveQueue`).
This returns unless the VR has a successor only while the key has a VRID, or the daemon
signals itself (`leaveQueue_returns_iff`). Then the destroy ends with `VRRP_SUCCESS`, the instance
is out of the list, and the other instances are as they were
(`Linked.destroyed`).
-/

set_option autoImplicit false

namespace VrrpDaemon

open Machine

namespace Daemon

variable {w : World} {s s' : Daemon} {nodes : List DsPtr} {key : Key}

/-- What `vrrp_destroy_inst` does before it unlinks the instance. -/
def leaveQueue (w : World) (key : Key) (v : DsPtr) (s : Daemon) : Result Daemon :=
  if (s.ds v).state = .mast then do
    let (_, s) ← s.vrrpShutdownInst w key
    let (_, s) ← (s.onQueue (·.lock)).vrrpRmqueue key
    return s.onQueue (·.unlock)
  else do
    let (_, s) ← (s.onQueue (·.lock)).vrrpRmqueue key
    (s.onQueue (·.unlock)).vrrpStateExecution w .mastToInit v

/-- A destroy whose key selects an instance ends with `VRRP_SUCCESS`. -/
theorem vrrpDestroyInst_selected {v : DsPtr} (family : key.af = afInet)
    (searched : s.vrrpSearchInst key = .ok (some v)) :
    s.vrrpDestroyInst w key = (do
      let s ← (do
        let t ← s.leaveQueue w key v
        t.unlinkInst v)
      return (VrrpRet.success.code, s)) := by
  simp only [vrrpDestroyInst, family, searched, not_true_eq_false, reduceIte, ok_bind, deref_some,
    leaveQueue]
  split <;> simp only [bind_assoc, pure_bind]

/-- What a destroy with a selected instance has done when it returns. -/
theorem destroy_left {v : DsPtr} {ret : Int} (family : key.af = afInet)
    (searched : s.vrrpSearchInst key = .ok (some v))
    (returns : s.vrrpDestroyInst w key = .ok (ret, s')) :
    ret = VrrpRet.success.code ∧ ∃ t, s.leaveQueue w key v = .ok t ∧ t.unlinkInst v = .ok s' := by
  rw [vrrpDestroyInst_selected family searched] at returns
  obtain ⟨t, both, same⟩ := bind_eq_ok.mp returns
  cases same
  exact ⟨rfl, bind_eq_ok.mp both⟩

/-- **What is done before an instance is unlinked**: a master is shut down, and otherwise the
effects of leaving `MAST` come last, which take a child to signal; in between a VR is taken out
under the lock. -/
theorem leaveQueue_cases {v : DsPtr} {t : Daemon} (returns : s.leaveQueue w key v = .ok t) :
    ((s.ds v).state = .mast ∧ ∃ status s₁ removed s₂,
      s.vrrpShutdownInst w key = .ok (status, s₁) ∧
        (s₁.onQueue (·.lock)).vrrpRmqueue key = .ok (removed, s₂) ∧ t = s₂.onQueue (·.unlock)) ∨
    (s.ds v).state ≠ .mast ∧ ∃ removed s₁, (s.onQueue (·.lock)).vrrpRmqueue key = .ok (removed, s₁) ∧
      (s.ds v).pid ≠ 0 ∧ t = (s₁.onQueue (·.unlock)).executed w .mastToInit v := by
  unfold leaveQueue at returns
  split at returns
  · rename_i master
    obtain ⟨⟨status, s₁⟩, stopped, returns⟩ := bind_eq_ok.mp returns
    obtain ⟨⟨removed, s₂⟩, dequeued, returns⟩ := bind_eq_ok.mp returns
    cases returns
    exact .inl ⟨master, status, s₁, removed, s₂, stopped, dequeued, rfl⟩
  · rename_i other
    obtain ⟨⟨removed, s₁⟩, dequeued, executed⟩ := bind_eq_ok.mp returns
    obtain ⟨alive, rfl⟩ := (vrrpStateExecution_leaves (.inr rfl)).mp executed
    have same : s₁.core = (s.onQueue (·.lock)).core := vrrpRmqueue_core dequeued
    exact .inr ⟨other, removed, s₁, dequeued, (pid_of_core same v).symm.trans_ne alive, rfl⟩

theorem queueGiven_iff (family : key.af = afInet) : QueueGiven key ↔ key.vid ≠ 0 := by
  simp [QueueGiven, family, queueFamily]

/-- A master that stops leaves its VR without a successor. -/
theorem vrrpStateM2i_qnext {v : DsPtr} (returns : s.vrrpStateM2i w v = .ok s') :
    s'.q.qnext (s.ds v).vr = none := by
  simp only [vrrpStateM2i] at returns
  obtain ⟨s₁, removed, returns⟩ := bind_eq_ok.mp returns
  obtain rfl := eq_executed returns
  obtain ⟨q, out, rfl⟩ := tryQueue_eq_ok.mp removed
  rw [q_execution]
  exact (vrrpRmqueueImpl_links out).1

/-- The daemon outlives the signal that a destroy sends: the instance has forked a child, or it
is a master and the key has no VRID, so that it is not shut down. -/
def Outlives (s : Daemon) (key : Key) (v : DsPtr) : Prop :=
  (s.ds v).pid ≠ 0 ∨ ((s.ds v).state = .mast ∧ key.vid = 0)

/-- Under the lock `vrrp_rmqueue` returns unless the VR has a successor only, in any state with
the list and the search of this one. -/
theorem locked_rmqueue_returns_iff {v : DsPtr} {t : Daemon} (linked : s.Linked nodes)
    (family : key.af = afInet) (searched : s.vrrpSearchInst key = .ok (some v))
    (shape : t.shape = s.shape) :
    (∃ reply, (t.onQueue (·.lock)).vrrpRmqueue key = .ok reply) ↔
      (key.vid ≠ 0 → t.q.Removable (s.ds v).vr) := by
  have locked : (t.onQueue (·.lock)).shape = s.shape := shape
  rw [(linked.of_shape locked).vrrpRmqueue_returns_iff, queueGiven_iff family,
    linked.search_congr locked, searched]
  simp only [Except.ok.injEq, Option.some.injEq, forall_eq']
  rw [vr_of_shape locked]
  exact Iff.rfl

/-- A master is shut down first if the key has a VRID. -/
theorem leaveQueue_master_returns_iff {v : DsPtr} (linked : s.Linked nodes)
    (family : key.af = afInet) (searched : s.vrrpSearchInst key = .ok (some v))
    (master : (s.ds v).state = .mast) :
    (∃ t, s.leaveQueue w key v = .ok t) ↔
      (key.vid ≠ 0 → s.q.Removable (s.ds v).vr) ∧ s.Outlives key v := by
  simp only [leaveQueue, master, reduceIte]
  by_cases given : key.vid = 0
  · have refused : s.vrrpShutdownInst w key = .ok (errnoEinval, s) := by
      simp [vrrpShutdownInst, family, given]
    obtain ⟨reply, dequeued⟩ :=
      (locked_rmqueue_returns_iff linked family searched rfl).mpr fun asked => absurd given asked
    simp [refused, given, dequeued, Outlives, master]
  · have answer : s.vrrpShutdownInst w key = (do
        let s ← s.vrrpStateM2i w v
        return (VrrpRet.success.code, s)) := by
      have positive : key.vid > 0 := UInt8.pos_iff_ne_zero.mpr given
      simp [vrrpShutdownInst, family, positive, searched, master]
    have halts : (∃ s₁, s.vrrpStateM2i w v = .ok s₁) ↔ _ := vrrpStateM2i_returns_iff
    simp only [Outlives, given, ne_eq, not_false_eq_true, forall_const, and_false, or_false,
      ← halts, answer]
    constructor
    · rintro ⟨t, returns⟩
      obtain ⟨reply, stopped, -⟩ := bind_eq_ok.mp returns
      obtain ⟨s₁, stopped, -⟩ := bind_eq_ok.mp stopped
      exact ⟨s₁, stopped⟩
    · rintro ⟨s₁, stopped⟩
      have shape : s₁.shape = s.shape := by
        rw [shape_of_core (vrrpStateM2i_core stopped), shape_leave]
      have removable : s₁.q.Removable (s.ds v).vr := fun _ => vrrpStateM2i_qnext stopped
      obtain ⟨reply, dequeued⟩ :=
        (locked_rmqueue_returns_iff linked family searched shape).mpr fun _ => removable
      exact ⟨_, bind_eq_ok.mpr ⟨_, bind_eq_ok.mpr ⟨s₁, stopped, rfl⟩,
        bind_eq_ok.mpr ⟨reply, dequeued, rfl⟩⟩⟩

/-- For another instance the signal goes to the child that it has, if it has one. -/
theorem leaveQueue_idle_returns_iff {v : DsPtr} (linked : s.Linked nodes)
    (family : key.af = afInet) (searched : s.vrrpSearchInst key = .ok (some v))
    (idle : (s.ds v).state ≠ .mast) :
    (∃ t, s.leaveQueue w key v = .ok t) ↔
      (key.vid ≠ 0 → s.q.Removable (s.ds v).vr) ∧ s.Outlives key v := by
  simp only [Outlives, idle, false_and, or_false,
    ← locked_rmqueue_returns_iff linked family searched rfl]
  constructor
  · rintro ⟨t, returns⟩
    rcases leaveQueue_cases returns with ⟨here, -⟩ | ⟨-, removed, s₁, dequeued, alive, -⟩
    · exact absurd here idle
    · exact ⟨⟨_, dequeued⟩, alive⟩
  · rintro ⟨⟨⟨removed, s₁⟩, dequeued⟩, alive⟩
    have same : s₁.core = (s.onQueue (·.lock)).core := vrrpRmqueue_core dequeued
    have executed := (@vrrpStateExecution_leaves w .mastToInit v (s₁.onQueue (·.unlock)) _
      (.inr rfl)).mpr ⟨(pid_of_core same v).trans_ne alive, rfl⟩
    refine ⟨(s₁.onQueue (·.unlock)).executed w .mastToInit v, ?_⟩
    rw [leaveQueue, if_neg idle]
    exact bind_eq_ok.mpr ⟨_, dequeued, executed⟩

/-- What comes before returns unless the VR has a successor only, or the signal ends the
daemon. -/
theorem leaveQueue_returns_iff {v : DsPtr} (linked : s.Linked nodes) (family : key.af = afInet)
    (searched : s.vrrpSearchInst key = .ok (some v)) :
    (∃ t, s.leaveQueue w key v = .ok t) ↔
      (key.vid ≠ 0 → s.q.Removable (s.ds v).vr) ∧ s.Outlives key v := by
  by_cases master : (s.ds v).state = .mast
  · exact leaveQueue_master_returns_iff linked family searched master
  · exact leaveQueue_idle_returns_iff linked family searched master

/-- It leaves the heap in shape. -/
theorem leaveQueue_shape {v : DsPtr} {t : Daemon} (returns : s.leaveQueue w key v = .ok t) :
    t.shape = s.shape := by
  obtain ⟨-, status, s₁, removed, s₂, stopped, dequeued, rfl⟩ |
    ⟨-, removed, s₁, dequeued, -, rfl⟩ :=
    leaveQueue_cases returns
  · rw [shape_onQueue, shape_of_core (vrrpRmqueue_core dequeued), shape_onQueue,
      shape_stable.shutdown stopped]
  · rw [shape_execution, shape_onQueue, shape_of_core (vrrpRmqueue_core dequeued), shape_onQueue]

/-- For another family than `AF_INET` a destroy is refused. -/
theorem vrrpDestroyInst_refused (family : key.af ≠ afInet) :
    s.vrrpDestroyInst w key = .ok (errnoEinval, s) := by
  simp [vrrpDestroyInst, family]

/-- Without an instance a destroy reads the state of none. -/
theorem vrrpDestroyInst_missing (family : key.af = afInet)
    (searched : s.vrrpSearchInst key = .ok none) :
    s.vrrpDestroyInst w key = .error .nullDeref := by
  simp [vrrpDestroyInst, family, searched]

/-- Up to the unlinking a destroy changes one instance only. -/
theorem departed_ds_other {v u : DsPtr} (other : u ≠ v) :
    (s.departed w key v).ds u = s.ds u := by
  unfold departed
  split
  · split
    · rfl
    · rw [leave_eq w v s (.inr rfl)]
      exact setState_ds_other v s .init other
  · rfl

/-- **A destroy that returns** with a selected instance has taken it out of the list,
and left the records of the others as they were. -/
theorem Linked.destroyed {v : DsPtr} {ret : Int} (linked : s.Linked nodes)
    (family : key.af = afInet) (searched : s.vrrpSearchInst key = .ok (some v))
    (returns : s.vrrpDestroyInst w key = .ok (ret, s')) :
    ret = VrrpRet.success.code ∧ s'.Linked (nodes.erase v) ∧
      ∀ u, u ≠ v → s'.ds u = s.ds u ∧ s'.vr u = s.vr u := by
  have status : ret = VrrpRet.success.code := (destroy_left family searched returns).1
  rcases vrrpDestroyInst_core returns with ⟨foreign, -⟩ | ⟨-, u, t, selected, core, unlinked⟩
  · exact absurd family foreign
  · cases searched.symm.trans selected
    have shape : t.shape = s.shape := by rw [shape_of_core core, shape_stable.departed]
    have records : t.vrs = s.vrs := by rw [vrs_of_core core, vrs_stable.departed]
    obtain ⟨next, prev, before, after, rfl, rfl, shorter⟩ :=
      (linked.of_shape shape).unlink (linked.mem_of_search searched) unlinked
    have outside : v ∉ before := fun member =>
      (List.nodup_append.mp linked.nodup).2.2 v member v List.mem_cons_self rfl
    refine ⟨status, ?_, fun u other => ?_⟩
    · rw [List.erase_append_right _ outside, List.erase_cons_head]
      exact shorter
    · have ds : t.ds u = s.ds u := by rw [ds_of_core core, departed_ds_other other]
      refine ⟨ds, ?_⟩
      show t.vr u = s.vr u
      rw [vr, vr, ds, records]

end Daemon

end VrrpDaemon
