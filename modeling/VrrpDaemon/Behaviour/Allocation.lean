import VrrpDaemon.Behaviour.Destruction
import VrrpDaemon.Behaviour.Timers

/-!
# Allocated records

The queue points to VRs that have been allocated only, and each of these belongs to
the instance it names as its parent. Every step keeps this (`Allocated.step`): the
functions edit the queue by calls for VRs of listed instances, or for the VR at its
head (`Confined`). So it holds in every reachable state (`Reachable.allocated`).
-/

set_option autoImplicit false

namespace VrrpDaemon

open Machine

namespace Daemon

variable {w : World} {s s' t : Daemon} {nodes : List DsPtr} {v : DsPtr} {key : Key}

/-- The queue holds allocated VRs, and an allocated VR is that of its parent. -/
structure Allocated (s : Daemon) : Prop where
  queue : s.q.Inside s.vrTop
  parent : ∀ p, p < s.vrTop → (s.vrs p).parent < s.dsTop ∧ (s.ds (s.vrs p).parent).vr = p

/-- The queue was edited by calls for allocated VRs, and the heap has its shape. -/
structure Confined (w : World) (s s' : Daemon) : Prop where
  shape : s'.shape = s.shape
  calls : ∃ done, Edits w done s s' ∧ ∀ event ∈ done, ∀ p, event.entry = some p → p < s.vrTop

theorem parent_of_shape (shape : s'.shape = s.shape) (p : VrPtr) :
    (s'.vrs p).parent = (s.vrs p).parent :=
  congrFun (congrArg Shape.parent shape) p

/-- An allocated VR is that of its parent, as long as the shape is kept. -/
theorem Allocated.own {h : VrPtr} (allocated : s.Allocated) (shape : s'.shape = s.shape)
    (below : h < s.vrTop) : (s'.ds (s'.vrs h).parent).vr = h := by
  rw [vr_of_shape shape, parent_of_shape shape]
  exact (allocated.parent h below).2

namespace Confined

theorem of_quiet (shape : s'.shape = s.shape) (edits : Edits w [] s s') : Confined w s s' :=
  ⟨shape, [], edits, by simp⟩

theorem refl (w : World) (s : Daemon) : Confined w s s := of_quiet rfl .refl

theorem trans (first : Confined w s t) (second : Confined w t s') : Confined w s s' := by
  obtain ⟨done, edits, below⟩ := first.calls
  obtain ⟨more, later, after⟩ := second.calls
  have top : t.vrTop = s.vrTop := congrArg Shape.vrTop first.shape
  rw [Edits, top] at later
  rw [top] at after
  refine ⟨second.shape.trans first.shape, done ++ more, TimerQueue.Edits.trans edits later, ?_⟩
  intro event member
  rcases List.mem_append.mp member with early | late
  · exact below event early
  · exact after event late

/-- Calls for one VR. -/
theorem of_edits {done : List TimerEvent} {p : VrPtr} (shape : s'.shape = s.shape)
    (edits : Edits w done s s') (below : p < s.vrTop)
    (one : ∀ event ∈ done, ∀ r, event.entry = some r → r = p) : Confined w s s' :=
  ⟨shape, done, edits, fun event member r here => one event member r here ▸ below⟩

end Confined

theorem Allocated.of_confined (allocated : s.Allocated) (confined : Confined w s s') :
    s'.Allocated := by
  obtain ⟨done, edits, below⟩ := confined.calls
  have top : s'.vrTop = s.vrTop := congrArg Shape.vrTop confined.shape
  refine ⟨?_, fun p old => ⟨?_, allocated.own confined.shape (top ▸ old)⟩⟩
  · rw [top]
    exact edits.inside allocated.queue below
  · rw [parent_of_shape confined.shape, dsTop_of_shape confined.shape]
    exact (allocated.parent p (top ▸ old)).1

/-! ## The operations that keep the shape -/

/-- The calls of a requeue are for one VR. -/
theorem retimed_entry {event : TimerEvent} (member : event ∈ s.retimed v) {p : VrPtr}
    (here : event.entry = some p) : p = (s.ds v).vr := by
  simp only [retimed, List.mem_cons, List.not_mem_nil, or_false] at member
  rcases member with rfl | rfl <;> exact (Option.some.inj here).symm

theorem b2m_confined (below : (s.ds v).vr < s.vrTop) (returns : s.vrrpStateB2m w v = .ok s') :
    Confined w s s' := by
  refine .of_edits ?_ (vrrpStateB2m_edits returns) below fun event member r => retimed_entry member
  rw [shape_of_core (vrrpStateB2m_core returns), shape_promote]

theorem i2b_confined (below : (s.ds v).vr < s.vrTop) (returns : s.vrrpStateI2b w v = .ok s') :
    Confined w s s' := by
  refine .of_edits (shape_stable.i2b returns) (vrrpStateI2b_edits returns) below ?_
  intro event member r here
  rcases List.mem_cons.mp member with rfl | later
  · exact (Option.some.inj here).symm
  · split at later
    · exact retimed_entry later here
    · cases later

theorem m2b_confined (below : (s.ds v).vr < s.vrTop) (returns : s.vrrpStateM2b w v = .ok s') :
    Confined w s s' := by
  refine .of_edits (shape_stable.m2b returns) (vrrpStateM2b_edits returns) below ?_
  intro event member r here
  rcases List.mem_append.mp member with early | later
  · exact retimed_entry early here
  · split at later
    · exact retimed_entry later here
    · cases later

theorem startup_confined {ret : Int} (linked : s.Linked nodes)
    (returns : s.vrrpStartupInst w key = .ok (ret, s')) : Confined w s s' := by
  rcases vrrpStartupInst_outcome returns with rfl | ⟨v, -, -, selected, -, started⟩
  · exact .refl w _
  · exact i2b_confined (linked.vrAllocated v (linked.mem_of_search selected)) started

/-- Taking out the VR of a listed instance. -/
theorem removed_confined {v : DsPtr} (linked : s.Linked nodes)
    (searched : s.vrrpSearchInst key = .ok (some v)) (shape : s'.shape = s.shape)
    (edits : Edits w [.rmqueue (s.ds v).vr] s s') : Confined w s s' := by
  refine .of_edits shape edits (linked.vrAllocated v (linked.mem_of_search searched)) ?_
  intro event member r here
  rw [List.mem_singleton.mp member] at here
  exact (Option.some.inj here).symm

theorem shutdown_confined {ret : Int} (linked : s.Linked nodes)
    (returns : s.vrrpShutdownInst w key = .ok (ret, s')) : Confined w s s' := by
  rcases vrrpShutdownInst_outcome returns with
    rfl | ⟨v, -, -, selected, ⟨-, stopped⟩ | ⟨-, stopped⟩⟩
  · exact .refl w _
  · have shape := shape_stable.shutdown returns
    exact removed_confined linked selected shape (vrrpStateM2i_edits stopped)
  · have shape := shape_stable.shutdown returns
    exact removed_confined linked selected shape (vrrpStateB2i_edits stopped)

theorem rmqueue_confined {ret : Int} (linked : s.Linked nodes)
    (returns : s.vrrpRmqueue key = .ok (ret, s')) : Confined w s s' := by
  have shape : s'.shape = s.shape := shape_of_core (vrrpRmqueue_core returns)
  rcases vrrpRmqueue_outcome returns with ⟨-, rfl⟩ | ⟨v, selected, -, removed⟩
  · exact .refl w _
  · obtain ⟨q, out, rfl⟩ := tryQueue_eq_ok.mp removed
    exact removed_confined linked selected shape (TimerQueue.Edits.refl.rmqueue out)

theorem modify_confined {ret pri delay preeMode acptMode : Int} (linked : s.Linked nodes)
    (returns : s.vrrpSetInstProp w key pri delay preeMode acptMode = .ok (ret, s')) :
    Confined w s s' := by
  have shape := vrrpSetInstProp_shape returns
  rcases vrrpSetInstProp_outcome returns with ⟨-, rfl, -⟩ | ⟨-, v, modifies, s₁, changed, rfl⟩
  · exact .refl w _
  · have below := linked.vrAllocated v (linked.mem_of_search modifies.2.2)
    rw [changeModes_eq] at shape ⊢
    by_cases given : delay = vrPropUnchange
    · rw [changeDelay, if_neg (not_not.mpr given), changePri_eq] at changed
      cases changed
      exact .of_quiet shape .refl
    · rcases linked.changeDelay_edits modifies.2.2 given changed with
        ⟨-, -, stored, edits⟩ | ⟨-, edits⟩
      · refine .of_edits shape edits below fun event member r here => ?_
        simp only [List.mem_cons, List.not_mem_nil, or_false] at member
        rcases member with rfl | rfl <;> exact (Option.some.inj here).symm
      · exact .of_quiet shape edits

theorem frame_confined {af : Int} {ifname : Ifname} {frame : Frame} (linked : s.Linked nodes)
    (returns : s.processVrrpdSock w af ifname frame = .ok s') : Confined w s s' := by
  have shape := shape_stable.frame returns
  rcases processVrrpdSock_outcome returns with
    rfl | ⟨-, -, first, found, rfl | ⟨-, promoted⟩⟩ | ⟨-, -, rfl | ⟨curr, searched, -, processed⟩⟩
  · exact .refl w _
  · exact .of_quiet shape .refl
  · have quiet : Confined w s (s.cleared frame) := .of_quiet rfl .refl
    have below : ((s.cleared frame).ds first).vr < (s.cleared frame).vrTop :=
      linked.vrAllocated first (linked.first_mem found)
    exact quiet.trans (b2m_confined below promoted)
  · exact .of_quiet shape .refl
  · have heard : (s.heard frame).shape = s.shape := rfl
    have member := linked.mem_of_search ((linked.search_congr heard _).symm.trans searched)
    have below : ((s.heard frame).ds curr).vr < (s.heard frame).vrTop :=
      linked.vrAllocated curr member
    have parent : ((s.heard frame).vrs ((s.heard frame).ds curr).vr).parent = curr :=
      linked.parent curr member
    have quiet : Confined w s (s.heard frame) := .of_quiet rfl .refl
    refine quiet.trans ?_
    rcases vrrpProcessIncomingAdv_outcome processed with
      rfl | ⟨-, timeout, rearmed⟩ | ⟨-, -, demoted⟩
    · exact .refl w _
    · refine .of_edits (shape_of_core (rearm_core rearmed)) (rearm_edits rearmed) below ?_
      intro event member r here
      simp only [List.mem_cons, List.not_mem_nil, or_false] at member
      rcases member with rfl | rfl <;> exact (Option.some.inj here).symm
    · rw [parent] at demoted
      exact m2b_confined below demoted

theorem alarm_confined (allocated : s.Allocated) (returns : s.signalAlarm w = .ok s') :
    Confined w s s' := by
  have shape := shape_stable.alarm returns
  rcases signalAlarm_edits returns with ⟨-, edits⟩ | ⟨entry, queued, edits⟩
  · exact .of_quiet shape edits
  · have below := allocated.queue.advQ entry queued
    have own := (allocated.parent entry below).2
    refine .of_edits shape edits below fun event member r here => ?_
    rcases List.mem_cons.mp member with rfl | later
    · exact (Option.some.inj here).symm
    · exact (Option.some.inj ((servedEdits_entry own later).symm.trans here)).symm

theorem leaveQueue_confined (linked : s.Linked nodes) (returns : s.leaveQueue w key v = .ok s') :
    Confined w s s' := by
  obtain ⟨-, status, s₁, removed, s₂, stopped, dequeued, rfl⟩ |
    ⟨-, removed, s₁, dequeued, -, rfl⟩ := leaveQueue_cases returns
  · have first := shutdown_confined linked stopped
    have locked : Confined w s₁ (s₁.onQueue (·.lock)) :=
      .of_quiet rfl (TimerQueue.Edits.refl.note .lock rfl)
    have second : Confined w (s₁.onQueue (·.lock)) s₂ :=
      rmqueue_confined (linked.of_shape (locked.shape.trans first.shape)) dequeued
    have unlocked : Confined w s₂ (s₂.onQueue (·.unlock)) :=
      .of_quiet rfl (TimerQueue.Edits.refl.note .unlock rfl)
    exact ((first.trans locked).trans second).trans unlocked
  · have locked : Confined w s (s.onQueue (·.lock)) :=
      .of_quiet rfl (TimerQueue.Edits.refl.note .lock rfl)
    have first : Confined w (s.onQueue (·.lock)) s₁ :=
      rmqueue_confined (linked.of_shape locked.shape) dequeued
    have unlocked : Confined w s₁ (s₁.onQueue (·.unlock)) :=
      .of_quiet rfl (TimerQueue.Edits.refl.note .unlock rfl)
    refine ((locked.trans first).trans unlocked).trans (.of_quiet (shape_execution ..) ?_)
    rw [Edits, q_execution]
    exact .refl

/-! ## The operations on the list -/

/-- Other links between the instances do not matter. -/
theorem Allocated.withLinks (allocated : s.Allocated) (next prev : DsPtr → Option DsPtr) :
    (s.withLinks next prev).Allocated :=
  ⟨allocated.queue, allocated.parent⟩

theorem Allocated.destroy {ret : Int} (allocated : s.Allocated) (linked : s.Linked nodes)
    (returns : s.vrrpDestroyInst w key = .ok (ret, s')) : s'.Allocated := by
  rcases vrrpDestroyInst_core returns with ⟨-, rfl⟩ | ⟨family, v, -, searched, -, -⟩
  · exact allocated
  · obtain ⟨-, s₁, left, unlinked⟩ := destroy_left family searched returns
    have confined := leaveQueue_confined linked left
    obtain ⟨next, prev, before, after, rfl, -, -⟩ :=
      (linked.of_shape confined.shape).unlink (linked.mem_of_search searched) unlinked
    exact (allocated.of_confined confined).withLinks next prev

/-- A new VR is cleared of its links. -/
theorem inside_newVr {q : TimerQueue} {top : VrPtr} (inside : q.Inside top) :
    (((q.setTimeout top 0).setQnext top none).setQprev top none).Inside (top + 1) := by
  refine ⟨fun p head => Nat.lt_succ_of_lt (inside.advQ p head), fun p n next => ?_⟩
  rcases update_links p with same | ⟨-, none⟩
  · exact Nat.lt_succ_of_lt (inside.qnext p n (same.symm.trans next))
  · cases none.symm.trans next

/-- Records for a new instance: its VR is that of its parent. -/
theorem Allocated.withInst (allocated : s.Allocated) (inst : VrrpInst) :
    (s.withInst inst).Allocated := by
  refine ⟨inside_newVr allocated.queue, fun p below => ?_⟩
  rcases Nat.lt_succ_iff_lt_or_eq.mp below with old | rfl
  · obtain ⟨parent, own⟩ := allocated.parent p old
    have grows := grows_withInst inst s
    rw [grows.vrs p old, grows.ds _ parent]
    exact ⟨Nat.lt_succ_of_lt parent, own⟩
  · simp [Daemon.withInst]

/-- The allocations that fail leave complete records too, or none. -/
theorem Allocated.allocInst_failed {inst : VrrpInst} (allocated : s.Allocated)
    (failed : s.allocInst w inst = (none, s')) : s'.Allocated := by
  refine Daemon.allocInst_failed Allocated failed ⟨allocated.queue, allocated.parent⟩ ?_ ?_
  · refine ⟨allocated.queue, fun p below => ?_⟩
    obtain ⟨parent, own⟩ := allocated.parent p below
    exact ⟨Nat.lt_succ_of_lt parent, ((grows_newDs s).ds _ parent).symm ▸ own⟩
  · have complete := allocated.withInst inst
    refine ⟨complete.queue, fun p below => ?_⟩
    have parent : ((s.withoutAddresses inst).vrs p).parent = ((s.withInst inst).vrs p).parent := by
      simp only [withoutAddresses, Daemon.withInst, Function.update_apply]
      split <;> rfl
    rw [parent]
    exact complete.parent p below

theorem Allocated.create {inst : VrrpInst} {ret : Int} (allocated : s.Allocated)
    (linked : s.Linked nodes) (returns : s.createCommand w inst = .ok (ret, s')) :
    s'.Allocated := by
  rcases createCommand_outcome returns with
    ⟨status, -, failed, -⟩ | ⟨s₁, -, link, ⟨-, rfl⟩ | ⟨-, status, s₂, started, rfl⟩⟩
  · rcases vrrpCreateInst_failed failed with rfl | failed
    · exact allocated
    · exact allocated.allocInst_failed failed
  · obtain ⟨next, prev, before, after, rfl, -, -⟩ := linked.link link
    exact (allocated.withInst inst).withLinks next prev
  · obtain ⟨next, prev, before, after, rfl, -, listed⟩ := linked.link link
    have complete := (allocated.withInst inst).withLinks next prev
    have shape := shape_of_core (vrrpStateI2m_core started).2
    rw [shape_promote] at shape
    have below := listed.vrAllocated s.dsTop (by simp)
    refine complete.of_confined (.trans (.of_edits shape (vrrpStateI2m_edits started) below ?_)
      (.of_quiet rfl (TimerQueue.Edits.refl.note (.alarm inst.viVa.delay) rfl)))
    intro event member r here
    rw [List.mem_singleton.mp member] at here
    exact (Option.some.inj here).symm

/-- **Every step keeps the queue and the VRs allocated.** -/
theorem Allocated.step {op : Op} (allocated : s.Allocated) (linked : s.Linked nodes)
    (returns : step w op s = .ok s') : s'.Allocated := by
  cases op with
  | frame af ifname frame => exact allocated.of_confined (frame_confined linked returns)
  | alarm => exact allocated.of_confined (alarm_confined allocated returns)
  | command command =>
      obtain ⟨⟨status, s₁⟩, processed, returns⟩ := bind_eq_ok.mp returns
      cases returns
      cases command with
      | create inst => exact allocated.create linked processed
      | remove key => exact allocated.destroy linked processed
      | startup key => exact allocated.of_confined (startup_confined linked processed)
      | shutdown key => exact allocated.of_confined (shutdown_confined linked processed)
      | modify key pri delay preeMode acptMode =>
          exact allocated.of_confined (modify_confined linked processed)

theorem allocated_initial : initial.Allocated := by
  refine ⟨⟨?_, ?_⟩, ?_⟩
  · intro p head
    cases head
  · intro p n next
    cases next
  · intro p below
    cases below

/-- **In every reachable state the queue holds allocated VRs.** -/
theorem Reachable.allocated (reachable : Reachable w s) : s.Allocated := by
  obtain ⟨ops, run⟩ := reachable
  refine (run.invariant (fun s : Daemon => (∃ nodes, s.Linked nodes) ∧ s.Allocated)
    ⟨⟨[], linked_initial⟩, allocated_initial⟩ ?_).2
  rintro s op s' ⟨⟨nodes, linked⟩, allocated⟩ - returns
  obtain ⟨nodes', outcome⟩ := step_list linked returns
  exact ⟨⟨nodes', outcome.linked⟩, allocated.step linked returns⟩

end Daemon

end VrrpDaemon
