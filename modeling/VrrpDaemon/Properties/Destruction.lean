import VrrpDaemon.Behaviour.Destruction
import VrrpDaemon.Behaviour.Keys

/-!
# Destruction of an instance

`vrrp_create_inst` admits any key, and `vrrp_destroy_inst` accepts the family
`AF_INET` only. It also looks its key up like any other, so an instance whose key is
compatible with a second one is not found, and it stops where the VR at the head of
a longer queue is taken out. It signals the child of the instance in any state: without
one, the signal to pid 0 ends the daemon. Otherwise a destroy with the key of an instance
takes it out of the list (`destroysRight_iff`).

Its test for an instance that is not found comes after the state of the instance was
read. So a destroy that finds none never ends with `VRRP_ENOINST`: it is refused for
its family, or reads through a null pointer (`failsCleanly_iff`).
-/

set_option autoImplicit false

namespace VrrpDaemon

open Machine

namespace Daemon

variable {w : World} {s s' : Daemon} {nodes : List DsPtr} {key : Key} {v : DsPtr}

/-- A destroy with the key of the instance returns `VRRP_SUCCESS`; the list is the old
one without it, in order, and the other instances are as they were. -/
def DestroysRight (w : World) (s : Daemon) (nodes : List DsPtr) (v : DsPtr) : Prop :=
  ∃ s', s.vrrpDestroyInst w (s.key v) = .ok (VrrpRet.success.code, s') ∧
    s'.Linked (nodes.erase v) ∧
    ∀ u ∈ nodes, u ≠ v → s'.ds u = s.ds u ∧ s'.vr u = s.vr u

/-- A destroy ends with a status for a missing instance or an invalid argument, and has
changed nothing. -/
def FailsCleanly (w : World) (s : Daemon) (key : Key) : Prop :=
  ∃ ret, s.vrrpDestroyInst w key = .ok (ret, s) ∧
    (ret = VrrpRet.enoinst.code ∨ ret = VrrpRet.einval.code ∨ ret = errnoEinval)

/-- **A destroy with the key of a listed instance** is right when the family is
`AF_INET`, the search finds the instance, its VR can be taken out of the queue, and the
daemon survives its signal. -/
theorem destroysRight_iff (reachable : Reachable w s) (linked : s.Linked nodes)
    (member : v ∈ nodes) :
    DestroysRight w s nodes v ↔ (s.key v).af = afInet ∧ s.Only (s.key v) v ∧
      ((s.key v).vid ≠ 0 → s.q.Removable (s.ds v).vr) ∧ s.Outlives (s.key v) v := by
  constructor
  · rintro ⟨s', returns, shorter, -⟩
    have family : (s.key v).af = afInet := by
      by_contra foreign
      rw [vrrpDestroyInst_refused foreign] at returns
      cases returns
    obtain ⟨found, searched⟩ : ∃ found, s.vrrpSearchInst (s.key v) = .ok found :=
      ⟨_, linked.search _⟩
    cases found with
    | none =>
        rw [vrrpDestroyInst_missing family searched] at returns
        cases returns
    | some u =>
        have erased := (linked.destroyed family searched returns).2.1
        obtain rfl : u = v := by
          by_contra other
          have still : v ∈ nodes.erase u := (List.mem_erase_of_ne (Ne.symm other)).mpr member
          rw [erased.unique shorter] at still
          exact linked.nodup.not_mem_erase still
        refine ⟨family, reachable.search_iff.mp searched, ?_⟩
        rw [← leaveQueue_returns_iff linked family searched]
        obtain ⟨-, t, left, -⟩ := destroy_left family searched returns
        exact ⟨t, left⟩
  · rintro ⟨family, only, leaves⟩
    have searched := reachable.search_iff.mpr only
    obtain ⟨t, left⟩ := (leaveQueue_returns_iff linked family searched).mpr leaves
    obtain ⟨s', unlinked⟩ := (linked.of_shape (leaveQueue_shape left)).exists_unlinkInst member
    have returns : s.vrrpDestroyInst w (s.key v) = .ok (VrrpRet.success.code, s') := by
      rw [vrrpDestroyInst_selected family searched]
      exact bind_eq_ok.mpr ⟨s', bind_eq_ok.mpr ⟨t, left, unlinked⟩, rfl⟩
    have destroyed := (linked.destroyed family searched returns).2
    exact ⟨s', returns, destroyed.1, fun u _ other => destroyed.2 u other⟩

/-- **A destroy with a key that selects no instance** fails cleanly only where it is
refused. -/
theorem failsCleanly_iff (missing : s.vrrpSearchInst key = .ok none) :
    FailsCleanly w s key ↔ key.af ≠ afInet := by
  constructor
  · rintro ⟨ret, returns, -⟩ family
    rw [vrrpDestroyInst_missing family missing] at returns
    cases returns
  · intro family
    exact ⟨errnoEinval, vrrpDestroyInst_refused family, .inr (.inr rfl)⟩

/-- **When a destroy is the inverse of a create, and when it fails cleanly.** In every
reachable state: a destroy with the key of a listed instance is right if and only if
its family is `AF_INET`, no other listed instance is compatible with its key, its VR does
not have a successor only unless its VRID is 0, and its pid is not 0 (or it is a master
and its VRID is 0). A destroy with a key that no instance, or more than one, is
compatible with fails cleanly if and only if the family is not `AF_INET`. -/
theorem destroy_iff (w : World) (s : Daemon) (reachable : Reachable w s) :
    (∀ nodes, s.Linked nodes → ∀ v ∈ nodes, DestroysRight w s nodes v ↔
      (s.key v).af = afInet ∧ s.Only (s.key v) v ∧
        ((s.key v).vid ≠ 0 → s.q.qprev (s.ds v).vr = none → s.q.qnext (s.ds v).vr = none) ∧
        ((s.ds v).pid ≠ 0 ∨ (s.ds v).state = .mast ∧ (s.key v).vid = 0)) ∧
      ∀ key, (∀ v, ¬ s.Only key v) → (FailsCleanly w s key ↔ key.af ≠ afInet) := by
  refine ⟨fun nodes linked v member => destroysRight_iff reachable linked member, ?_⟩
  intro key none
  obtain ⟨nodes, linked⟩ := reachable.linked
  have searched := linked.search key
  cases found : s.select key nodes with
  | none =>
      rw [found] at searched
      exact failsCleanly_iff searched
  | some v =>
      rw [found] at searched
      exact absurd (reachable.search_iff.mp searched) (none v)

/-- A master can be destroyed with its own key, next to another instance. -/
theorem destroy_created :
    ∃ s nodes, Run (step .plain) unguarded initial [.create 7 255, .create 9 100] s ∧
      s.Linked nodes ∧ 1 ∈ nodes ∧ DestroysRight .plain s nodes 1 := by
  have ran : passes (fun s => s.next instRuntimeList == some 1 && s.key 1 == .sample 7 &&
      passes (· == some 1) (s.vrrpSearchInst (s.key 1)) && s.q.qnext (s.ds 1).vr == none &&
      (s.ds 1).pid == 1)
        (exec (step .plain) [.create 7 255, .create 9 100] initial) = true := by decide +kernel
  obtain ⟨s, returns, tested⟩ := exists_of_passes ran
  simp only [Bool.and_eq_true, beq_iff_eq] at tested
  obtain ⟨⟨⟨⟨first, own⟩, found⟩, last⟩, child⟩ := tested
  obtain ⟨v, searched, one⟩ := exists_of_passes found
  obtain rfl := beq_iff_eq.mp one
  have run := run_of_exec returns
  have reachable : Reachable .plain s := ⟨_, run⟩
  obtain ⟨nodes, linked⟩ := reachable.linked
  have member := linked.first_mem first
  refine ⟨s, nodes, run, linked, member, ?_⟩
  refine ((destroy_iff .plain s reachable).1 nodes linked 1 member).mpr
    ⟨?_, ?_, fun _ _ => last, .inl ?_⟩
  · rw [own]
    rfl
  · exact reachable.search_iff.mp searched
  · rw [child]
    decide

/-- **Destroys that go wrong.** Behind VRID 1, the key of an instance without a family is
refused; a destroy of an instance that never was a master ends the daemon; and a destroy on
the empty list reads through a null pointer. -/
theorem destroy_wrong :
    (∃ s, Run (step .plain) unguarded initial
        [.create 1 100, .command (.create (.familyless 7 100))] s ∧
      s.Listed 2 ∧ s.vrrpDestroyInst .plain (s.key 2) = .ok (errnoEinval, s) ∧
      ∀ nodes, ¬ DestroysRight .plain s nodes 2) ∧
    (∃ s, Run (step .plain) unguarded initial [.create 7 100] s ∧ s.Listed 1 ∧
      s.vrrpDestroyInst .plain (s.key 1) = .error .killed ∧
      ∀ nodes, ¬ DestroysRight .plain s nodes 1) ∧
    initial.vrrpSearchInst (.sample 7) = .ok none ∧
      initial.vrrpDestroyInst .plain (.sample 7) = .error .nullDeref ∧
      ¬ FailsCleanly .plain initial (.sample 7) := by
  refine ⟨?_, ?_, ?_⟩
  · have ran : passes (fun s => s.next instRuntimeList == some 1 && s.next 1 == some 2 &&
        s.next 2 == none && s.vrrpAf 2 == afUnspec)
          (exec (step .plain) [.create 1 100, .command (.create (.familyless 7 100))] initial) =
            true := by
      decide +kernel
    obtain ⟨s, returns, tested⟩ := exists_of_passes ran
    simp only [Bool.and_eq_true, beq_iff_eq] at tested
    obtain ⟨⟨⟨first, second⟩, last⟩, family⟩ := tested
    have foreign : (s.key 2).af ≠ afInet := by
      show s.vrrpAf 2 ≠ afInet
      rw [family]
      decide
    have refused : s.vrrpDestroyInst .plain (s.key 2) = .ok (errnoEinval, s) :=
      vrrpDestroyInst_refused foreign
    refine ⟨s, run_of_exec returns, ⟨[1, 2], ⟨first, second, last⟩, by decide⟩, refused, ?_⟩
    rintro nodes ⟨s', destroyed, -⟩
    cases refused.symm.trans destroyed
  · have ran : passes (fun s => s.next instRuntimeList == some 1 && s.next 1 == none &&
        fault (s.vrrpDestroyInst .plain (s.key 1)) == some .killed)
          (exec (step .plain) [.create 7 100] initial) = true := by decide +kernel
    obtain ⟨s, returns, tested⟩ := exists_of_passes ran
    simp only [Bool.and_eq_true, beq_iff_eq, fault_eq_some] at tested
    obtain ⟨⟨first, last⟩, killed⟩ := tested
    refine ⟨s, run_of_exec returns, ⟨[1], ⟨first, last⟩, List.mem_cons_self⟩, killed, ?_⟩
    rintro nodes ⟨s', destroyed, -⟩
    cases killed.symm.trans destroyed
  · have missing : initial.vrrpSearchInst (.sample 7) = .ok none := linked_initial.search _
    have faults := @vrrpDestroyInst_missing .plain initial (.sample 7) rfl missing
    refine ⟨missing, faults, ?_⟩
    rintro ⟨ret, returns, -⟩
    cases faults.symm.trans returns

end Daemon

end VrrpDaemon
