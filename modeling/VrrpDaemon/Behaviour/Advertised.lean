import VrrpDaemon.Behaviour.Lan

/-!
# What a daemon writes

A frame is built from the records of an instance: its attributes, its virtual router, its state.
So where the records of all VRs meet a standard, whatever instances there are and whatever the
timer queue serves, the frames that are built from them do, and no operation changes that unless
it asks for a record that does not (`Conforms.step`, `Conforms.exec`).

The first standard is a bound on the priorities: no daemon advertises more than it was asked for
(`Standard.pri`).
-/

set_option autoImplicit false

namespace VrrpDaemon

open Machine

namespace Daemon

/-- A standard for the records of VRs, for the field `active` of instances, and for frames: what
is built from such records meets it. -/
structure Standard where
  vr : VrrpdVrDs → Prop
  active : Int → Prop
  frame : Frame → Prop
  blank : active blankDs.active
  built : ∀ (s : Daemon) v priority, vr (s.vr v) → active (s.ds v).active →
    frame (s.vrrpBuildPkt v priority)

/-- The operation asks for no record that does not meet the standard. -/
def Standard.Admits (std : Standard) : Op → Prop
  | .command (.create inst) => std.active inst.viActive ∧
      ∀ vrIp parent, std.vr ⟨inst.viVa, { inst.viVr with vrIp }, parent⟩
  | .command (.modify _ pri delay preeMode acptMode) => ∀ record, std.vr record →
      std.vr { record with attr := modifiedAttr record.attr pri delay preeMode acptMode }
  | .command (.remove _) | .command (.startup _) | .command (.shutdown _) => True
  | .frame .. | .alarm => True

/-- The records meet the standard, and so do the frames that were written since the log was
`old`. -/
structure Conforms (std : Standard) (old : List Effect) (s : Daemon) : Prop where
  vrs : ∀ p, std.vr (s.vrs p)
  active : ∀ v, std.active (s.ds v).active
  log : ∃ block, s.effects = old ++ block ∧ ∀ frame ∈ framesOf block, std.frame frame

variable {w : World} {s s' : Daemon} {std : Standard} {old : List Effect}

/-! ## Records -/

/-- The attributes of the other VRs stay. -/
theorem setAttr_vrs_other {p r : VrPtr} (other : r ≠ p) (attr : VrrpAttr) :
    (s.setAttr p attr).vrs r = s.vrs r := Function.update_of_ne other ..

/-- Linking an instance changes links only. -/
theorem linkInst_records {new : DsPtr} (returns : s.linkInst new = .ok s') :
    s'.vrs = s.vrs ∧ s'.ds = s.ds ∧ s'.effects = s.effects := by
  unfold linkInst at returns
  split at returns
  · cases returns
    exact ⟨rfl, rfl, rfl⟩
  · obtain ⟨curr, -, returns⟩ := bind_eq_ok.mp returns
    split at returns
    · cases returns
      exact ⟨rfl, rfl, rfl⟩
    · obtain ⟨before, -, returns⟩ := bind_eq_ok.mp returns
      cases returns
      exact ⟨rfl, rfl, rfl⟩

/-- So does unlinking one. -/
theorem unlinkInst_records {v : DsPtr} (returns : s.unlinkInst v = .ok s') :
    s'.vrs = s.vrs ∧ s'.ds = s.ds ∧ s'.effects = s.effects := by
  obtain ⟨before, -, returns⟩ := bind_eq_ok.mp returns
  dsimp only at returns
  split at returns
  · cases returns
    exact ⟨rfl, rfl, rfl⟩
  · cases returns
    exact ⟨rfl, rfl, rfl⟩

namespace Conforms

/-- What holds before anything is written. -/
theorem start (vrs : ∀ p, std.vr (s.vrs p)) (active : ∀ v, std.active (s.ds v).active) :
    Conforms std s.effects s := by
  refine ⟨vrs, active, [], (List.append_nil _).symm, fun frame member => ?_⟩
  exact absurd member List.not_mem_nil

/-- What has been written. -/
theorem written (conforms : Conforms std s.effects s') :
    ∀ frame ∈ s.written s', std.frame frame := by
  obtain ⟨-, -, block, appended, good⟩ := conforms
  rw [written_append appended]
  exact good

/-! ## Changes of the state -/

theorem congr (conforms : Conforms std old s) (vrs : s'.vrs = s.vrs) (ds : s'.ds = s.ds)
    (effects : s'.effects = s.effects) : Conforms std old s' := by
  constructor
  · rw [vrs]
    exact conforms.vrs
  · rw [ds]
    exact conforms.active
  · rw [effects]
    exact conforms.log

theorem of_core (conforms : Conforms std old s) (same : s'.core = s.core) : Conforms std old s' :=
  conforms.congr (vrs_of_core same) (ds_of_core same) (effects_of_core same)

theorem emit (conforms : Conforms std old s) {effect : Effect}
    (good : ∀ frame ∈ framesOf [effect], std.frame frame) :
    Conforms std old (s.emit effect) := by
  obtain ⟨vrs, active, block, appended, before⟩ := conforms
  refine ⟨vrs, active, block ++ [effect], ?_, fun frame member => ?_⟩
  · show s.effects ++ [effect] = old ++ (block ++ [effect])
    rw [appended, List.append_assoc]
  · rw [framesOf, List.filterMap_append] at member
    rcases List.mem_append.mp member with early | late
    · exact before frame early
    · exact good frame late

/-- The record of an instance changes. -/
theorem setDs (conforms : Conforms std old s) (v : DsPtr) {record : VrrpdDs}
    (good : std.active record.active) : Conforms std old (s.setDs v record) := by
  refine ⟨conforms.vrs, fun u => ?_, conforms.log⟩
  by_cases here : u = v
  · subst here
    have same : (s.setDs u record).ds u = record := Function.update_self ..
    rw [same]
    exact good
  · have same : (s.setDs v record).ds u = s.ds u := Function.update_of_ne here ..
    rw [same]
    exact conforms.active u

theorem setState (conforms : Conforms std old s) (v : DsPtr) (state : VrrpState) :
    Conforms std old (s.setState v state) := by
  have stored : Conforms std old (s.setDs v { s.ds v with state := state }) :=
    conforms.setDs v (conforms.active v)
  exact stored.emit fun frame member => absurd member List.not_mem_nil

theorem send (conforms : Conforms std old s) (v : DsPtr) (priority : Int) :
    Conforms std old (s.vrrpSendAdv v priority) := by
  refine conforms.emit fun frame member => ?_
  rw [List.mem_singleton.mp member]
  exact std.built s v priority (conforms.vrs _) (conforms.active v)

theorem execution (conforms : Conforms std old s) (trans : VrrpStateTrans) (v : DsPtr) :
    Conforms std old (s.executed w trans v) := by
  have stopped : Conforms std old ((s.vrrpSendAdv v 0).emit
      (.sigint v ((s.vrrpSendAdv v 0).ds v).pid)) :=
    (conforms.send v 0).emit fun frame member => absurd member List.not_mem_nil
  have counted : Conforms std old { s with forkCalls := s.forkCalls + 1 } :=
    conforms.congr rfl rfl rfl
  have forked : Conforms std old ({ s with forkCalls := s.forkCalls + 1 }.emit
      (.fork v (w.fork s.forkCalls))) :=
    counted.emit fun frame member => absurd member List.not_mem_nil
  cases trans with
  | initToMast | backToMast =>
      simp only [executed]
      split
      · exact forked
      · exact forked.setDs v (forked.active v)
  | mastToBack | mastToInit => exact stopped
  | initToBack | backToInit => exact conforms

theorem promote (conforms : Conforms std old s) (trans : VrrpStateTrans) (v : DsPtr) :
    Conforms std old (s.promote w trans v) := (conforms.setState v .mast).execution trans v

theorem leave (conforms : Conforms std old s) (trans : VrrpStateTrans) (state : VrrpState)
    (v : DsPtr) : Conforms std old (s.leave w trans state v) :=
  (conforms.setState v state).execution trans v

/-- A VR gets other attributes. -/
theorem setAttr (conforms : Conforms std old s) (p : VrPtr) {attr : VrrpAttr}
    (good : std.vr { s.vrs p with attr := attr }) : Conforms std old (s.setAttr p attr) := by
  refine ⟨fun r => ?_, conforms.active, conforms.log⟩
  by_cases here : r = p
  · subst here
    have same : (s.setAttr r attr).vrs r = { s.vrs r with attr := attr } :=
      Function.update_self ..
    rw [same]
    exact good
  · rw [setAttr_vrs_other here]
    exact conforms.vrs r

/-- The records of a new instance. -/
theorem newRecords (conforms : Conforms std old s) {v : DsPtr} {p : VrPtr} {fresh : VrrpdDs}
    {record : VrrpdVrDs} (active : std.active fresh.active) (vr : std.vr record)
    (ds : s'.ds = Function.update s.ds v fresh) (vrs : s'.vrs = Function.update s.vrs p record)
    (effects : s'.effects = s.effects) : Conforms std old s' := by
  refine ⟨fun r => ?_, fun u => ?_, effects ▸ conforms.log⟩
  · rw [vrs]
    by_cases here : r = p
    · rw [here, Function.update_self]
      exact vr
    · rw [Function.update_of_ne here]
      exact conforms.vrs r
  · rw [ds]
    by_cases here : u = v
    · rw [here, Function.update_self]
      exact active
    · rw [Function.update_of_ne here]
      exact conforms.active u

/-! ## Transitions -/

theorem i2b (conforms : Conforms std old s) {v : DsPtr} (returns : s.vrrpStateI2b w v = .ok s') :
    Conforms std old s' := by
  have core := vrrpStateI2b_core returns
  split at core
  · exact ((conforms.setState v .back).promote .backToMast v).of_core core
  · exact (conforms.setState v .back).of_core core

theorem m2b (conforms : Conforms std old s) {v : DsPtr} (returns : s.vrrpStateM2b w v = .ok s') :
    Conforms std old s' := by
  have core := vrrpStateM2b_core returns
  split at core
  · exact ((conforms.leave .mastToBack .back v).promote .backToMast v).of_core core
  · exact (conforms.leave .mastToBack .back v).of_core core

/-! ## Operations -/

/-- Whatever VR the alarm serves. -/
theorem alarm (conforms : Conforms std old s) (returns : s.signalAlarm w = .ok s') :
    Conforms std old s' := by
  rcases signalAlarm_core returns with ⟨-, core⟩ | ⟨entry, -, core⟩
  · exact conforms.of_core core
  · refine Conforms.of_core (s := s.served w entry) ?_ core
    simp only [served]
    split
    · exact conforms.send _ 1
    · exact conforms.promote .backToMast _
    · exact conforms
    · exact conforms

/-- A frame makes no instance advertise more, whatever it carries. -/
theorem hear (conforms : Conforms std old s) {af : Int} {ifname : Ifname} {frame : Frame}
    (returns : s.processVrrpdSock w af ifname frame = .ok s') : Conforms std old s' := by
  have cleared : Conforms std old (s.cleared frame) := conforms.congr rfl rfl rfl
  have heard : Conforms std old (s.heard frame) := conforms.congr rfl rfl rfl
  rcases processVrrpdSock_outcome returns with
    rfl | ⟨-, -, first, -, rfl | ⟨-, promoted⟩⟩ | ⟨-, -, rfl | ⟨curr, -, -, processed⟩⟩
  · exact conforms
  · exact cleared
  · exact (cleared.promote .backToMast first).of_core (vrrpStateB2m_core promoted)
  · exact heard
  · rcases vrrpProcessIncomingAdv_outcome processed with
      rfl | ⟨-, timeout, rearmed⟩ | ⟨-, -, demoted⟩
    · exact heard
    · exact heard.of_core (rearm_core rearmed)
    · exact heard.m2b demoted

theorem startup (conforms : Conforms std old s) {key : Key} {ret : Int}
    (returns : s.vrrpStartupInst w key = .ok (ret, s')) : Conforms std old s' := by
  rcases vrrpStartupInst_outcome returns with rfl | ⟨v, -, -, -, -, started⟩
  · exact conforms
  · exact conforms.i2b started

theorem shutdown (conforms : Conforms std old s) {key : Key} {ret : Int}
    (returns : s.vrrpShutdownInst w key = .ok (ret, s')) : Conforms std old s' := by
  rcases vrrpShutdownInst_outcome returns with rfl | ⟨v, -, -, -, ⟨-, stopped⟩ | ⟨-, stopped⟩⟩
  · exact conforms
  · exact (conforms.leave .mastToInit .init v).of_core (vrrpStateM2i_core stopped)
  · exact (conforms.setState v .init).of_core (vrrpStateB2i_core stopped)

theorem destroy (conforms : Conforms std old s) {key : Key} {ret : Int}
    (returns : s.vrrpDestroyInst w key = .ok (ret, s')) : Conforms std old s' := by
  rcases vrrpDestroyInst_core returns with ⟨-, rfl⟩ | ⟨-, v, t, -, core, unlinked⟩
  · exact conforms
  · have departed : Conforms std old (s.departed w key v) := by
      simp only [Daemon.departed]
      split
      · split
        · exact conforms
        · exact conforms.leave .mastToInit .init v
      · exact conforms.execution .mastToInit v
    obtain ⟨vrs, ds, effects⟩ := unlinkInst_records unlinked
    exact (departed.of_core core).congr vrs ds effects

theorem modify (conforms : Conforms std old s) {key : Key} {pri delay preeMode acptMode ret : Int}
    (admits : std.Admits (.command (.modify key pri delay preeMode acptMode)))
    (returns : s.vrrpSetInstProp w key pri delay preeMode acptMode = .ok (ret, s')) :
    Conforms std old s' := by
  rcases vrrpSetInstProp_core returns with ⟨-, rfl, -⟩ | ⟨-, v, -, core⟩
  · exact conforms
  · exact (conforms.setAttr _ (admits _ (conforms.vrs _))).of_core core

theorem create (conforms : Conforms std old s) {inst : VrrpInst} {ret : Int}
    (admits : std.Admits (.command (.create inst)))
    (returns : s.createCommand w inst = .ok (ret, s')) : Conforms std old s' := by
  obtain ⟨active, vr⟩ := admits
  rcases createCommand_outcome returns with
    ⟨status, -, created, -⟩ | ⟨s₁, -, link, started⟩
  · rcases vrrpCreateInst_failed created with rfl | allocated
    · exact conforms
    · refine allocInst_failed (Conforms std old) allocated ?_ ?_ ?_
      · exact conforms.congr rfl rfl rfl
      · exact (conforms.setDs s.dsTop std.blank).congr rfl rfl rfl
      · exact conforms.newRecords active (vr _ _) rfl rfl rfl
  · obtain ⟨vrs, ds, effects⟩ := linkInst_records link
    have made : Conforms std old (s.withInst inst) :=
      conforms.newRecords active (vr _ _) rfl rfl rfl
    have linked : Conforms std old s₁ := made.congr vrs ds effects
    rcases started with ⟨-, rfl⟩ | ⟨-, status, s₂, promoted, rfl⟩
    · exact linked
    · have core := (vrrpStateI2m_core promoted).2
      exact ((linked.promote .initToMast _).of_core core).congr rfl rfl rfl

/-- **The step lemma**: what is stored and written meets the standard after every operation that
asks for nothing else. -/
theorem step (conforms : Conforms std old s) {op : Op} (admits : std.Admits op)
    (returns : Daemon.step w op s = .ok s') : Conforms std old s' := by
  cases op with
  | alarm => exact conforms.alarm returns
  | frame => exact conforms.hear returns
  | command command =>
      obtain ⟨⟨status, s₁⟩, processed, returns⟩ := bind_eq_ok.mp returns
      cases returns
      cases command with
      | create => exact conforms.create admits processed
      | remove => exact conforms.destroy processed
      | startup => exact conforms.startup processed
      | shutdown => exact conforms.shutdown processed
      | modify => exact conforms.modify admits processed

/-- **The run lemma.** -/
theorem exec {ops : List Op} (conforms : Conforms std old s) (admits : ∀ op ∈ ops, std.Admits op)
    (returns : Machine.exec (Daemon.step w) ops s = .ok s') : Conforms std old s' := by
  induction ops generalizing s with
  | nil =>
      cases returns
      exact conforms
  | cons op ops ih =>
      obtain ⟨here, later⟩ := List.forall_mem_cons.mp admits
      obtain ⟨s₁, stepped, rest⟩ := bind_eq_ok.mp returns
      exact ih (conforms.step here stepped) later rest

end Conforms

/-! ## A bound on priorities -/

/-- No priority is beyond the bound. A frame has the priority of its instance, or 0. -/
def Standard.pri (bound : UInt8) : Standard where
  vr record := record.attr.pri ≤ bound
  active _ := True
  frame frame := frame.inst.viVa.pri ≤ bound
  blank := trivial
  built s v priority lower _ := by
    show (if priority = 0 then 0 else s.vrrpPri v) ≤ bound
    split
    · exact UInt8.zero_le
    · exact lower

/-- No VR has a priority beyond the bound, and no frame beyond it was written. -/
abbrev Modest (bound : UInt8) : List Effect → Daemon → Prop := Conforms (.pri bound)

theorem Modest.start {bound : UInt8} (pri : ∀ p, (s.vrs p).attr.pri ≤ bound) :
    Modest bound s.effects s := Conforms.start pri fun _ => trivial

end Daemon

/-- The operation asks for no priority beyond the bound. -/
def Op.Asks (bound : UInt8) : Op → Prop
  | .command (.create inst) => inst.viVa.pri ≤ bound
  | .command (.modify _ pri _ _ _) => pri ≠ Daemon.vrPropUnchange → UInt8.ofInt pri ≤ bound
  | .command (.remove _) | .command (.startup _) | .command (.shutdown _) => True
  | .frame .. | .alarm => True

theorem Op.Asks.admits {bound : UInt8} {op : Op} (asks : op.Asks bound) :
    (Daemon.Standard.pri bound).Admits op := by
  cases op with
  | alarm | frame => trivial
  | command command =>
      cases command with
      | create => exact ⟨trivial, fun _ _ => asks⟩
      | remove | startup | shutdown => trivial
      | modify key pri delay preeMode acptMode =>
          intro record lower
          show (Daemon.modifiedAttr record.attr pri delay preeMode acptMode).pri ≤ bound
          rw [Daemon.modifiedAttr_pri]
          split
          · exact asks ‹_›
          · exact lower

end VrrpDaemon
