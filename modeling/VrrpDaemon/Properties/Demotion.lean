import VrrpDaemon.Behaviour.Keys
import VrrpDaemon.Behaviour.Queue

/-!
# Regular advertisements and masters

An accepted advertisement with a priority other than 0 sets the flag of its VRID
and is handed to the one instance that a search by its VRID, its interface and the
family of its socket finds. A master of smaller priority leaves `MAST`; the flag
just set keeps `vrrp_state_m2b` from promoting it again (`regular_core`).

So an instance of the VRID and the interface is demoted exactly when it must be, if
the search finds it. A second instance that the key is compatible with makes the
search find none (`demotes_iff`).
-/

set_option autoImplicit false

namespace VrrpDaemon

open Machine

namespace Daemon

variable {w : World} {s s' : Daemon} {nodes : List DsPtr} {v : DsPtr}

/-- Between the two states a master was demoted exactly when the priority received
is greater than its own, an instance in another state kept it, and neither the
attributes of the instance nor the flag of another VRID changed. -/
structure Demotes (s s' : Daemon) (v : DsPtr) (frame : Frame) : Prop where
  master : (s.ds v).state = .mast →
    (s'.ds v).state = if s.vrrpPri v < frame.inst.viVa.pri then .back else .mast
  other : (s.ds v).state ≠ .mast → (s'.ds v).state = (s.ds v).state
  attr : (s'.vr v).attr = (s.vr v).attr
  flags : ∀ x, x ≠ frame.inst.viVr.vrId → s'.flag x = s.flag x

/-- The instance is a master that the frame is to demote. -/
def Yields (s : Daemon) (v : DsPtr) (frame : Frame) : Prop :=
  (s.ds v).state = .mast ∧ s.vrrpPri v < frame.inst.viVa.pri

theorem heard_anyMasterUp {frame : Frame} (vid : frame.inst.viVr.vrId ≠ 0) :
    (s.heard frame).anyMasterUp ≠ 0 :=
  anyMasterUp_ne_zero vid (Function.update_self ..)

/-- A regular advertisement at the instance that it is handed to. -/
theorem incoming_core {frame : Frame} (parent : (s.vrs (s.ds v).vr).parent = v)
    (regular : frame.inst.viVa.pri ≠ 0) (vid : frame.inst.viVr.vrId ≠ 0)
    (returns : (s.heard frame).vrrpProcessIncomingAdv w v frame.inst = .ok s') :
    (s.Yields v frame ∧ s'.core = ((s.heard frame).leave w .mastToBack .back v).core) ∨
      (¬ s.Yields v frame ∧ s'.core = (s.heard frame).core) := by
  have handed : (s.heard frame).vrrpProcessIncomingAdv w v frame.inst = _ :=
    vrrpProcessIncomingAdv_regular parent regular
  rw [handed] at returns
  have state : ((s.heard frame).ds v).state = (s.ds v).state := rfl
  have idle : (s.ds v).state ≠ .mast → ¬ s.Yields v frame := fun other yields => other yields.1
  rw [state] at returns
  cases here : (s.ds v).state with
  | mast =>
      simp only [here] at returns
      split at returns
      · rename_i greater
        have core := vrrpStateM2b_core returns
        rw [if_neg (heard_anyMasterUp vid)] at core
        exact .inl ⟨⟨here, greater⟩, core⟩
      · rename_i enough
        cases returns
        exact .inr ⟨fun yields => enough yields.2, rfl⟩
  | back =>
      simp only [here] at returns
      refine .inr ⟨idle (by rw [here]; decide), ?_⟩
      split at returns
      · exact rearm_core returns
      · cases returns
        rfl
  | none | init =>
      simp only [here] at returns
      cases returns
      exact .inr ⟨idle (by rw [here]; decide), rfl⟩

/-- **What a regular advertisement does** apart from the queue: it sets a flag, and
demotes the only compatible instance if that has to yield. -/
theorem Reachable.regular_core (reachable : Reachable w s) {af : Int} {ifname : Ifname}
    {frame : Frame} (accepted : frame.accepted = true) (regular : frame.inst.viVa.pri ≠ 0)
    (vid : frame.inst.viVr.vrId ≠ 0)
    (returns : s.processVrrpdSock w af ifname frame = .ok s') :
    (∃ v, s.Only ⟨frame.inst.viVr.vrId, some ifname, af⟩ v ∧ s.Yields v frame ∧
        s'.core = ((s.heard frame).leave w .mastToBack .back v).core) ∨
      ((∀ v, s.Only ⟨frame.inst.viVr.vrId, some ifname, af⟩ v → ¬ s.Yields v frame) ∧
        s'.core = (s.heard frame).core) := by
  obtain ⟨nodes, linked⟩ := reachable.linked
  rw [processVrrpdSock_regular accepted regular] at returns
  obtain ⟨found, searched, returns⟩ := bind_eq_ok.mp returns
  have shape : (s.heard frame).shape = s.shape := rfl
  rw [linked.search_congr shape] at searched
  cases found with
  | none =>
      cases returns
      refine .inr ⟨fun v only => ?_, rfl⟩
      cases searched.symm.trans (reachable.search_iff.mpr only)
  | some u =>
      simp only [vid, reduceIte] at returns
      have only := reachable.search_iff.mp searched
      rcases incoming_core (linked.parent u (linked.mem_of_search searched)) regular vid returns
        with ⟨yields, core⟩ | ⟨stays, core⟩
      · exact .inl ⟨u, only, yields, core⟩
      · refine .inr ⟨fun v other => ?_, core⟩
        cases searched.symm.trans (reachable.search_iff.mpr other)
        exact stays

/-- An instance that keeps its state is treated right when it need not yield. -/
theorem demotes_iff_of_kept {frame : Frame} (state : (s'.ds v).state = (s.ds v).state)
    (attr : (s'.vr v).attr = (s.vr v).attr)
    (flags : ∀ x, x ≠ frame.inst.viVr.vrId → s'.flag x = s.flag x) :
    s.Demotes s' v frame ↔ ¬ s.Yields v frame := by
  constructor
  · rintro demotes ⟨master, greater⟩
    have demoted := demotes.master master
    rw [if_pos greater, state, master] at demoted
    cases demoted
  · refine fun stays => ⟨fun master => ?_, fun _ => state, attr, flags⟩
    rw [if_neg fun greater => stays ⟨master, greater⟩, state, master]

/-- **A regular advertisement demotes a master exactly when it must**, if and only if
the search finds the instance or there is nothing to demote. In every reachable
state, for every accepted frame of another VRID and another priority than 0, every
interface and family of the socket, and every instance. -/
theorem demotes_iff (w : World) (s s' : Daemon) (reachable : Reachable w s) (af : Int)
    (ifname : Ifname) (frame : Frame) (accepted : frame.accepted = true)
    (regular : frame.inst.viVa.pri ≠ 0) (vid : frame.inst.viVr.vrId ≠ 0) (v : DsPtr)
    (returns : s.processVrrpdSock w af ifname frame = .ok s') :
    s.Demotes s' v frame ↔ s.Only ⟨frame.inst.viVr.vrId, some ifname, af⟩ v ∨
      ¬ ((s.ds v).state = .mast ∧ s.vrrpPri v < frame.inst.viVa.pri) := by
  have shape := shape_stable.frame returns
  have attr : (s'.vr v).attr = (s.vr v).attr := by
    rw [vr, vr, vrs_stable.frame returns, vr_of_shape shape]
  have quiet : ∀ x, x ≠ frame.inst.viVr.vrId → (s.heard frame).flag x = s.flag x :=
    fun x other => Function.update_of_ne other ..
  rcases reachable.regular_core accepted regular vid returns with
    ⟨u, only, yields, core⟩ | ⟨stays, core⟩
  · have flags : ∀ x, x ≠ frame.inst.viVr.vrId → s'.flag x = s.flag x := fun x other => by
      rw [flag_of_core core, flag_leave]
      exact quiet x other
    by_cases same : v = u
    · subst same
      refine iff_of_true ⟨fun _ => ?_, fun other => absurd yields.1 other, attr, flags⟩ (.inl only)
      rw [ds_of_core core, state_leave_self, if_pos yields.2]
    · have notOnly : ¬ s.Only ⟨frame.inst.viVr.vrId, some ifname, af⟩ v := fun other =>
        same ((only v).mp ((other v).mpr rfl))
      rw [or_iff_right notOnly]
      refine demotes_iff_of_kept ?_ attr flags
      rw [ds_of_core core, state_leave_other _ _ _ _ _ same]
      rfl
  · have kept : s.Demotes s' v frame ↔ ¬ s.Yields v frame := by
      refine demotes_iff_of_kept ?_ attr fun x other => ?_
      · rw [ds_of_core core]
        rfl
      · rw [flag_of_core core]
        exact quiet x other
    rw [kept]
    exact ⟨.inr, fun either => either.elim (stays v) id⟩

/-- A master of priority 100 hears priority 200. -/
theorem demotes_started :
    ∃ s s', Run (step .plain) unguarded initial [.create 7 100, .startup 7] s ∧
      s.processVrrpdSock .plain afInet .eth0 (.sample 7 200) = .ok s' ∧ (s.ds 1).state = .mast ∧
      s.Demotes s' 1 (.sample 7 200) := by
  have ran : passes (fun s => passes (· == some 1) (s.vrrpSearchInst (.sample 7)) &&
      (s.ds 1).state == .mast &&
      passes (fun _ => true) (s.processVrrpdSock .plain afInet .eth0 (.sample 7 200)))
      (exec (step .plain) [.create 7 100, .startup 7] initial) = true := by decide +kernel
  obtain ⟨s, returns, tested⟩ := exists_of_passes ran
  simp only [Bool.and_eq_true, beq_iff_eq] at tested
  obtain ⟨⟨found, master⟩, handled⟩ := tested
  obtain ⟨v, searched, one⟩ := exists_of_passes found
  obtain rfl := beq_iff_eq.mp one
  obtain ⟨s', answer, -⟩ := exists_of_passes handled
  have run := run_of_exec returns
  have reachable : Reachable .plain s := ⟨_, run⟩
  refine ⟨s, s', run, answer, master, ?_⟩
  exact (demotes_iff .plain s s' reachable afInet .eth0 (.sample 7 200) (by decide) (by decide)
    (by decide) 1 answer).mpr (.inl (reachable.search_iff.mp searched))

/-- **A second instance keeps a master from yielding.** Behind VRID 1, an instance of VRID 7
without a family becomes a master and gets priority 100; another of VRID 7 has
`AF_INET`. A frame of priority 200 on the socket of the former is compatible with both. -/
theorem demotes_ambiguous :
    ∃ s s', Run (step .plain) unguarded initial
        [.create 1 100, .command (.create (.familyless 7 255)),
          .command (.modify ⟨7, some .eth0, afUnspec⟩ 100 (-1) (-1) (-1)), .create 7 50] s ∧
      (s.vrrpId 2 = 7 ∧ s.vrrpIfname 2 = .eth0 ∧ s.vrrpAf 2 = afUnspec) ∧
      s.processVrrpdSock .plain afUnspec .eth0 (.sample 7 200) = .ok s' ∧
      (s.ds 2).state = .mast ∧ s.vrrpPri 2 = 100 ∧ (s'.ds 2).state = .mast ∧
      ¬ s.Demotes s' 2 (.sample 7 200) := by
  have ran : passes (fun s => s.vrrpId 2 == 7 && s.vrrpIfname 2 == .eth0 &&
      s.vrrpAf 2 == afUnspec && (s.ds 2).state == .mast && s.vrrpPri 2 == 100 &&
      passes (fun s' => (s'.ds 2).state == .mast)
        (s.processVrrpdSock .plain afUnspec .eth0 (.sample 7 200)))
      (exec (step .plain) [.create 1 100, .command (.create (.familyless 7 255)),
        .command (.modify ⟨7, some .eth0, afUnspec⟩ 100 (-1) (-1) (-1)), .create 7 50] initial) =
          true := by decide +kernel
  obtain ⟨s, returns, tested⟩ := exists_of_passes ran
  simp only [Bool.and_eq_true, beq_iff_eq] at tested
  obtain ⟨⟨⟨⟨⟨vid, ifname⟩, family⟩, master⟩, pri⟩, handled⟩ := tested
  obtain ⟨s', answer, stays⟩ := exists_of_passes handled
  rw [beq_iff_eq] at stays
  refine ⟨s, s', run_of_exec returns, ⟨vid, ifname, family⟩, answer, master, pri, stays, ?_⟩
  intro demotes
  have demoted := demotes.master master
  rw [stays, pri] at demoted
  exact absurd demoted (by decide)

end Daemon

end VrrpDaemon
