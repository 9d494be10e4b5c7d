import VrrpDaemon.Behaviour.Steps

/-!
# The list of instances over whole runs

Whatever the administrator and the network do, the list stays a doubly linked
list sorted by VRID, and it holds exactly the instances that were created and
not destroyed since (`runtimeList_wellFormed`).
-/

set_option autoImplicit false

namespace VrrpDaemon

open Machine

namespace Daemon

/-- An operation of the run handed out the instance. -/
def Created (w : World) (past : List (Daemon × Op × Daemon)) (v : DsPtr) : Prop :=
  ∃ entry ∈ past, Creates w entry.1 entry.2.1 v

/-- A destroy of the run that returned had selected the instance. -/
def Destroyed (past : List (Daemon × Op × Daemon)) (v : DsPtr) : Prop :=
  ∃ entry ∈ past, Destroys entry.1 entry.2.1 v

theorem created_snoc {w : World} {past : List (Daemon × Op × Daemon)} {s s' : Daemon} {op : Op}
    {v : DsPtr} : Created w (past ++ [(s, op, s')]) v ↔ Created w past v ∨ Creates w s op v := by
  simp [Created, or_and_right, exists_or]

theorem destroyed_snoc {past : List (Daemon × Op × Daemon)} {s s' : Daemon} {op : Op}
    {v : DsPtr} : Destroyed (past ++ [(s, op, s')]) v ↔ Destroyed past v ∨ Destroys s op v := by
  simp [Destroyed, or_and_right, exists_or]

/-- What a history says about the list it arrives at. -/
structure Recorded (w : World) (past : List (Daemon × Op × Daemon)) (s : Daemon)
    (nodes : List DsPtr) : Prop where
  linked : s.Linked nodes
  members : ∀ v, v ∈ nodes ↔ Created w past v ∧ ¬ Destroyed past v
  created : ∀ v, Created w past v → v < s.dsTop
  destroyed : ∀ v, Destroyed past v → v < s.dsTop

theorem mem_inserted_iff {before after : List DsPtr} {new v : DsPtr} :
    v ∈ before ++ new :: after ↔ v = new ∨ v ∈ before ++ after :=
  List.perm_middle.mem_iff.trans List.mem_cons

theorem mem_erased_iff {before after : List DsPtr} {victim v : DsPtr}
    (nodup : (before ++ victim :: after).Nodup) :
    v ∈ before ++ after ↔ v ∈ before ++ victim :: after ∧ v ≠ victim := by
  have alone : victim ∉ before ++ after := (List.nodup_cons.mp (List.nodup_middle.mp nodup)).1
  rw [mem_inserted_iff]
  constructor
  · exact fun member => ⟨.inr member, fun same => alone (same ▸ member)⟩
  · exact fun ⟨member, other⟩ => member.resolve_left other

/-- What the history says of an instance, once an operation has changed the list. -/
theorem Recorded.change {w : World} {past : List (Daemon × Op × Daemon)} {s s' : Daemon} {op : Op}
    {nodes nodes' : List DsPtr} (recorded : Recorded w past s nodes)
    (change : ListStep w op s nodes nodes') (v : DsPtr) :
    v ∈ nodes' ↔ Created w (past ++ [(s, op, s')]) v ∧ ¬ Destroyed (past ++ [(s, op, s')]) v := by
  rw [created_snoc, destroyed_snoc]
  have members := recorded.members v
  cases change with
  | keep noCreate noDestroy => simp [members, noCreate v, noDestroy v]
  | insert creates noDestroy =>
      rw [mem_inserted_iff, members]
      constructor
      · rintro (rfl | ⟨created, alive⟩)
        · refine ⟨.inr creates, fun gone => ?_⟩
          rcases gone with gone | now
          · exact Nat.lt_irrefl _ (recorded.destroyed _ gone)
          · exact noDestroy _ now
        · exact ⟨.inl created, fun gone => gone.elim alive (noDestroy v)⟩
      · rintro ⟨created | now, alive⟩
        · exact .inr ⟨created, fun gone => alive (.inl gone)⟩
        · exact .inl (now.unique creates)
  | erase noCreate destroys =>
      rw [mem_erased_iff recorded.linked.nodup, members]
      constructor
      · rintro ⟨⟨created, alive⟩, other⟩
        exact ⟨.inl created, fun gone => gone.elim alive fun now => other (now.unique destroys)⟩
      · rintro ⟨created | now, alive⟩
        · refine ⟨⟨created, fun gone => alive (.inl gone)⟩, fun same => alive (.inr ?_)⟩
          rw [same]
          exact destroys
        · exact absurd now (noCreate v)

/-- The step lemma: one operation extends the record by what it creates and
destroys. -/
theorem Recorded.step {w : World} {past : List (Daemon × Op × Daemon)} {s s' : Daemon} {op : Op}
    {nodes : List DsPtr} (recorded : Recorded w past s nodes)
    (returns : Daemon.step w op s = .ok s') :
    ∃ nodes', Recorded w (past ++ [(s, op, s')]) s' nodes' := by
  obtain ⟨nodes', linked', change, grown, -, newBelow⟩ := step_list recorded.linked returns
  refine ⟨nodes', linked', recorded.change change, ?_, ?_⟩
  · intro v created
    rcases created_snoc.mp created with old | now
    · exact Nat.lt_of_lt_of_le (recorded.created v old) grown
    · obtain ⟨inst, s₁, here, creates⟩ := now
      exact (newBelow inst s₁ v here creates).1
  · intro v destroyed
    rcases destroyed_snoc.mp destroyed with old | ⟨key, -, -, selected⟩
    · exact Nat.lt_of_lt_of_le (recorded.destroyed v old) grown
    · exact Nat.lt_of_lt_of_le
        (recorded.linked.allocated v (recorded.linked.mem_of_search selected)) grown

/-- The run lemma, by induction along the history. -/
theorem recorded_of_history {w : World} {past : List (Daemon × Op × Daemon)} {s : Daemon}
    (history : History (step w) unguarded initial past s) : ∃ nodes, Recorded w past s nodes := by
  induction history with
  | nil =>
      exact ⟨[], linked_initial, by simp [Created], by simp [Created], by simp [Destroyed]⟩
  | snoc _ _ returns ih =>
      obtain ⟨nodes, recorded⟩ := ih
      exact recorded.step returns

/-- **The list of instances over whole runs.** In every state that a run reaches,
following `next` from the header visits finitely many instances without
repetition and ends in null; `prev` and `next` invert each other, with the
header before the first instance; VRIDs do not decrease; each VR points back to
its instance; and an instance is listed exactly once if it was created with
`VRRP_SUCCESS` and no completed destroy selected it, and not at all otherwise. -/
theorem runtimeList_wellFormed {w : World} {past : List (Daemon × Op × Daemon)} {s : Daemon}
    (history : History (step w) unguarded initial past s) :
    ∃ nodes, Segment s.next (s.next instRuntimeList) nodes none ∧
      instRuntimeList ∉ nodes ∧
      (∀ i ∈ nodes, ∃ p, p ∈ instRuntimeList :: nodes ∧ s.prev i = some p ∧ s.next p = some i) ∧
      (∀ i ∈ nodes, s.next i = none ∨ ∃ n, n ∈ nodes ∧ s.next i = some n ∧ s.prev n = some i) ∧
      (∀ i, s.next instRuntimeList = some i → s.prev i = some instRuntimeList) ∧
      nodes.Pairwise (fun i j => s.vrrpId i ≤ s.vrrpId j) ∧
      (∀ i ∈ nodes, (s.vr i).parent = i) ∧
      ∀ i, ((Created w past i ∧ ¬ Destroyed past i) → nodes.count i = 1) ∧
        (¬ (Created w past i ∧ ¬ Destroyed past i) → i ∉ nodes) := by
  obtain ⟨nodes, recorded⟩ := recorded_of_history history
  have linked := recorded.linked
  refine ⟨nodes, linked.doubly.1, linked.header_notMem, fun i => linked.doubly.prev_next,
    fun i => linked.doubly.next_prev, ?_, linked.sorted, linked.parent, fun i => ⟨?_, ?_⟩⟩
  · intro i first
    cases nodes with
    | nil => cases first.symm.trans linked.doubly.1
    | cons head nodes =>
        cases first.symm.trans linked.doubly.1.1
        exact linked.doubly.2.1
  · intro present
    exact List.count_eq_one_of_mem linked.nodup ((recorded.members i).mpr present)
  · intro absent member
    exact absent ((recorded.members i).mp member)

/-- Three creates, one of them of a master, and the destroy of the master. -/
theorem runtimeList_wellFormed_run :
    ∃ past s, History (step .plain) unguarded initial past s ∧
      past.map (fun entry => entry.2.1) = [.create 7 100, .create 3 255, .create 5 100, .remove 3] ∧
      ∃ nodes, Segment s.next (s.next instRuntimeList) nodes none ∧
        nodes.Pairwise fun i j => s.vrrpId i ≤ s.vrrpId j := by
  have ran : passes (fun _ => true) (exec (step .plain)
      [.create 7 100, .create 3 255, .create 5 100, .remove 3] initial) = true := by decide +kernel
  obtain ⟨s, returns, -⟩ := exists_of_passes ran
  obtain ⟨past, history, same⟩ := (run_of_exec returns).history
  obtain ⟨nodes, segment, -, -, -, -, sorted, -⟩ := runtimeList_wellFormed history
  exact ⟨past, s, history, same, nodes, segment, sorted⟩

end Daemon

end VrrpDaemon
