import VrrpDaemon.Behaviour.Events

/-!
# What a command does

The outcomes of the commands of the administrator, one statement for each. A
command that is refused, or that finds no instance, leaves the daemon as it is.
A startup or a shutdown that finds one is a transition of that instance
(`vrrpStartupInst_outcome`, `vrrpShutdownInst_outcome`). A destroy unlinks it
after a shutdown that may have been refused (`vrrpDestroyInst_outcome`). A
modification changes attributes and timers (`vrrpSetInstProp_outcome`).
-/

set_option autoImplicit false

namespace VrrpDaemon

open Machine

namespace Daemon

variable {w : World} {s s' : Daemon} {key : Key} {ret : Int}

/-! ## The queue by key -/

/-- `vrrp_rmqueue` changes nothing, or takes out the VR of the instance its key
selects, one that has a link. -/
theorem vrrpRmqueue_outcome (returns : s.vrrpRmqueue key = .ok (ret, s')) :
    (ret ≠ VrrpRet.success.code ∧ s' = s) ∨
      ∃ v, s.vrrpSearchInst key = .ok (some v) ∧
        ¬ (s.q.qnext (s.ds v).vr = none ∧ s.q.qprev (s.ds v).vr = none) ∧
        s.tryQueue (·.vrrpRmqueueImpl (s.ds v).vr) = .ok s' := by
  simp only [vrrpRmqueue] at returns
  split at returns
  · cases returns
    exact .inl ⟨by decide, rfl⟩
  · split at returns
    · cases returns
      exact .inl ⟨by decide, rfl⟩
    · obtain ⟨found, searched, returns⟩ := bind_eq_ok.mp returns
      obtain ⟨inst, selected, searched⟩ := bind_eq_ok.mp searched
      cases searched
      cases inst with
      | none =>
          cases returns
          exact .inl ⟨by decide, rfl⟩
      | some v =>
          simp only [Option.map_some] at returns
          split at returns
          · cases returns
            exact .inl ⟨by decide, rfl⟩
          · rename_i linked
            obtain ⟨s₁, removed, returns⟩ := bind_eq_ok.mp returns
            cases returns
            exact .inr ⟨v, selected, linked, removed⟩

theorem vrrpRmqueue_core (returns : s.vrrpRmqueue key = .ok (ret, s')) : s'.core = s.core := by
  rcases vrrpRmqueue_outcome returns with ⟨-, rfl⟩ | ⟨v, -, -, removed⟩
  · rfl
  · exact core_tryQueue removed

theorem vrrpEnqueue_core (returns : s.vrrpEnqueue w key = .ok (ret, s')) : s'.core = s.core := by
  simp only [vrrpEnqueue] at returns
  split at returns
  · cases returns
    rfl
  · split at returns
    · cases returns
      rfl
    · obtain ⟨found, -, returns⟩ := bind_eq_ok.mp returns
      cases found with
      | none =>
          cases returns
          rfl
      | some curr =>
          obtain ⟨s₁, entered, returns⟩ := bind_eq_ok.mp returns
          cases returns
          rw [core_tryQueue entered, core_onQueue]

/-! ## Startup and shutdown -/

/-- A startup of an instance in `INIT` is its transition to `BACK`. -/
theorem vrrpStartupInst_idle {v : DsPtr} (family : key.af = afInet) (given : key.vid ≠ 0)
    (found : s.vrrpSearchInst key = .ok (some v)) (idle : (s.ds v).state = .init) :
    s.vrrpStartupInst w key = (do
      let s ← s.vrrpStateI2b w v
      return (VrrpRet.success.code, s)) := by
  have positive : key.vid > 0 := UInt8.pos_iff_ne_zero.mpr given
  simp [vrrpStartupInst, family, positive, found, idle]

/-- **What a startup does**: nothing, or it starts the instance its key selects,
one in `INIT`. -/
theorem vrrpStartupInst_outcome (returns : s.vrrpStartupInst w key = .ok (ret, s')) :
    s' = s ∨
      ∃ v, key.af = afInet ∧ key.vid ≠ 0 ∧ s.vrrpSearchInst key = .ok (some v) ∧
        (s.ds v).state = .init ∧ s.vrrpStateI2b w v = .ok s' := by
  simp only [vrrpStartupInst] at returns
  split at returns
  · cases returns
    exact .inl rfl
  · rename_i family
    split at returns
    · cases returns
      exact .inl rfl
    · rename_i vid
      obtain ⟨found, searched, returns⟩ := bind_eq_ok.mp returns
      cases found with
      | none =>
          cases returns
          exact .inl rfl
      | some v =>
          dsimp only at returns
          split at returns
          · cases returns
            exact .inl rfl
          · rename_i idle
            obtain ⟨s₁, started, returns⟩ := bind_eq_ok.mp returns
            cases returns
            refine .inr ⟨v, not_not.mp family, ?_, searched, not_not.mp idle, started⟩
            intro zero
            exact vid (by simp [zero])

/-- **What a shutdown does**: nothing, or it stops the instance its key selects. -/
theorem vrrpShutdownInst_outcome (returns : s.vrrpShutdownInst w key = .ok (ret, s')) :
    s' = s ∨
      ∃ v, key.af = afInet ∧ key.vid ≠ 0 ∧ s.vrrpSearchInst key = .ok (some v) ∧
        (((s.ds v).state = .mast ∧ s.vrrpStateM2i w v = .ok s') ∨
          ((s.ds v).state = .back ∧ s.vrrpStateB2i v = .ok s')) := by
  simp only [vrrpShutdownInst] at returns
  split at returns
  · cases returns
    exact .inl rfl
  · rename_i family
    split at returns
    · cases returns
      exact .inl rfl
    · rename_i vid
      have given : key.vid ≠ 0 := fun zero => vid (by simp [zero])
      obtain ⟨found, searched, returns⟩ := bind_eq_ok.mp returns
      cases found with
      | none =>
          cases returns
          exact .inl rfl
      | some v =>
          dsimp only at returns
          split at returns
          · rename_i master
            obtain ⟨s₁, stopped, returns⟩ := bind_eq_ok.mp returns
            cases returns
            exact .inr ⟨v, not_not.mp family, given, searched, .inl ⟨master, stopped⟩⟩
          · rename_i backup
            obtain ⟨s₁, stopped, returns⟩ := bind_eq_ok.mp returns
            cases returns
            exact .inr ⟨v, not_not.mp family, given, searched, .inr ⟨backup, stopped⟩⟩
          · cases returns
            exact .inl rfl
          · cases returns
            exact .inl rfl

/-- The shutdown of a selected master goes through unless the VRID is missing. -/
theorem vrrpShutdownInst_master {v : DsPtr} (family : key.af = afInet)
    (selected : s.vrrpSearchInst key = .ok (some v)) (master : (s.ds v).state = .mast)
    (returns : s.vrrpShutdownInst w key = .ok (ret, s')) :
    (key.vid = 0 ∧ s' = s) ∨ (key.vid ≠ 0 ∧ s.vrrpStateM2i w v = .ok s') := by
  simp only [vrrpShutdownInst, family, not_true_eq_false, reduceIte] at returns
  split at returns
  · rename_i missing
    cases returns
    refine .inl ⟨?_, rfl⟩
    rw [gt_iff_lt, UInt8.not_lt] at missing
    exact UInt8.le_antisymm missing (UInt8.zero_le)
  · rename_i vid
    rw [selected] at returns
    simp only [ok_bind, master] at returns
    obtain ⟨s₁, stopped, returns⟩ := bind_eq_ok.mp returns
    cases returns
    exact .inr ⟨fun zero => vid (by simp [zero]), stopped⟩

/-! ## Destruction -/

/-- **What a destroy does**: nothing for another family than `AF_INET`. Otherwise
the key selects an instance; a master is shut down, any other gets the effects
of leaving `MAST`, which it survives if it has forked a child before; its VR leaves the
queue if it has a link, and the instance is unlinked. -/
theorem vrrpDestroyInst_outcome (returns : s.vrrpDestroyInst w key = .ok (ret, s')) :
    (key.af ≠ afInet ∧ s' = s) ∨
      (key.af = afInet ∧ ∃ v, s.vrrpSearchInst key = .ok (some v) ∧
        (((s.ds v).state = .mast ∧ ∃ status s₁ removed s₂,
            s.vrrpShutdownInst w key = .ok (status, s₁) ∧
            (s₁.onQueue (·.lock)).vrrpRmqueue key = .ok (removed, s₂) ∧
            (s₂.onQueue (·.unlock)).unlinkInst v = .ok s') ∨
          ((s.ds v).state ≠ .mast ∧ (s.ds v).pid ≠ 0 ∧ ∃ removed s₁,
            (s.onQueue (·.lock)).vrrpRmqueue key = .ok (removed, s₁) ∧
            ((s₁.onQueue (·.unlock)).executed w .mastToInit v).unlinkInst v =
              .ok s'))) := by
  simp only [vrrpDestroyInst] at returns
  split at returns
  · rename_i family
    cases returns
    exact .inl ⟨family, rfl⟩
  · rename_i family
    obtain ⟨found, searched, returns⟩ := bind_eq_ok.mp returns
    cases found with
    | none => cases returns
    | some v =>
        refine .inr ⟨not_not.mp family, v, searched, ?_⟩
        simp only [deref_some, ok_bind] at returns
        split at returns
        · rename_i master
          obtain ⟨⟨status, s₁⟩, stopped, returns⟩ := bind_eq_ok.mp returns
          obtain ⟨⟨removed, s₂⟩, dequeued, returns⟩ := bind_eq_ok.mp returns
          obtain ⟨s₃, unlinked, returns⟩ := bind_eq_ok.mp returns
          cases returns
          exact .inl ⟨master, status, s₁, removed, s₂, stopped, dequeued, unlinked⟩
        · rename_i other
          obtain ⟨⟨removed, s₁⟩, dequeued, returns⟩ := bind_eq_ok.mp returns
          obtain ⟨s₂, executed, returns⟩ := bind_eq_ok.mp returns
          obtain ⟨s₃, unlinked, returns⟩ := bind_eq_ok.mp returns
          cases returns
          obtain ⟨alive, rfl⟩ := (vrrpStateExecution_leaves (.inr rfl)).mp executed
          have same : s₁.core = (s.onQueue (·.lock)).core := vrrpRmqueue_core dequeued
          have child : (s.ds v).pid ≠ 0 := (pid_of_core same v).symm.trans_ne alive
          exact .inr ⟨other, child, removed, s₁, dequeued, unlinked⟩

/-- The rest of the daemon when a destroy comes to unlink its instance. -/
def departed (w : World) (key : Key) (v : DsPtr) (s : Daemon) : Daemon :=
  if (s.ds v).state = .mast then
    if key.vid = 0 then s else s.leave w .mastToInit .init v
  else s.executed w .mastToInit v

theorem vrrpDestroyInst_core (returns : s.vrrpDestroyInst w key = .ok (ret, s')) :
    (key.af ≠ afInet ∧ s' = s) ∨
      (key.af = afInet ∧ ∃ (v : DsPtr) (t : Daemon), s.vrrpSearchInst key = .ok (some v) ∧
        t.core = (s.departed w key v).core ∧ t.unlinkInst v = .ok s') := by
  rcases vrrpDestroyInst_outcome returns with refused | ⟨family, v, selected, destroyed⟩
  · exact .inl refused
  · refine .inr ⟨family, v, ?_⟩
    rcases destroyed with
      ⟨master, status, s₁, removed, s₂, stopped, dequeued, unlinked⟩ |
      ⟨other, -, removed, s₁, dequeued, unlinked⟩
    · refine ⟨_, selected, ?_, unlinked⟩
      rw [core_onQueue, vrrpRmqueue_core dequeued, core_onQueue]
      rcases vrrpShutdownInst_master family selected master stopped with
        ⟨missing, rfl⟩ | ⟨given, stopped⟩
      · simp only [departed, master, missing, reduceIte]
      · simp only [departed, master, given, reduceIte]
        exact vrrpStateM2i_core stopped
    · refine ⟨_, selected, ?_, unlinked⟩
      simp only [departed, other, reduceIte]
      rw [core_execution, core_onQueue, vrrpRmqueue_core dequeued, core_onQueue, core_execution]

/-! ## Modification -/

theorem requeue_core (returns : s.requeue w key = .ok s') : s'.core = s.core := by
  simp only [requeue] at returns
  obtain ⟨⟨removed, s₁⟩, dequeued, returns⟩ := bind_eq_ok.mp returns
  dsimp only at returns
  split at returns
  · obtain ⟨⟨status, s₂⟩, entered, returns⟩ := bind_eq_ok.mp returns
    cases returns
    rw [vrrpEnqueue_core entered, vrrpRmqueue_core dequeued]
  · cases returns
    exact vrrpRmqueue_core dequeued

/-- Attributes stored one after the other are one change of the attributes. -/
theorem setAttr_setAttr (s : Daemon) (p : VrPtr) (first second : VrrpAttr) :
    (s.setAttr p first).setAttr p second = s.setAttr p second := by
  simp [setAttr]

theorem setAttr_self (s : Daemon) (p : VrPtr) : s.setAttr p (s.vrs p).attr = s := by
  simp [setAttr]

/-- The attributes stored are read back. -/
theorem setAttr_vrs (s : Daemon) (p : VrPtr) (attr : VrrpAttr) :
    ((s.setAttr p attr).vrs p).attr = attr := by
  simp [setAttr]

/-- The attributes after the priority was set, unless it is to stay. -/
def withPri (old : VrrpAttr) (pri : Int) : VrrpAttr :=
  if pri ≠ vrPropUnchange then { old with pri := UInt8.ofInt pri } else old

/-- The attributes after the advertisement interval was set, unless it is to
stay. -/
def withDelay (old : VrrpAttr) (delay : Int) : VrrpAttr :=
  if delay ≠ vrPropUnchange then { old with delay := delay } else old

/-- The attributes after the modes were set, unless they are to stay. -/
def withModes (old : VrrpAttr) (preeMode acptMode : Int) : VrrpAttr :=
  { old with
    preeMode := newMode old.preeMode preeMode
    acceptMode := newMode old.acceptMode acptMode }

theorem changePri_eq (s : Daemon) (p : VrPtr) (pri : Int) :
    s.changePri p pri = s.setAttr p (withPri (s.vrs p).attr pri) := by
  unfold changePri withPri
  split
  · rfl
  · exact (setAttr_self s p).symm

theorem changeModes_eq (s : Daemon) (p : VrPtr) (preeMode acptMode : Int) :
    s.changeModes p preeMode acptMode =
      s.setAttr p (withModes (s.vrs p).attr preeMode acptMode) := by
  rw [changeModes, setAttr_setAttr]
  simp [setAttr, withModes]

theorem changeDelay_core {p : VrPtr} {delay : Int}
    (returns : s.changeDelay w key p delay = .ok s') :
    s'.core = (s.setAttr p (withDelay (s.vrs p).attr delay)).core := by
  unfold changeDelay at returns
  split at returns
  · rename_i given
    obtain ⟨s₁, requeued, returns⟩ := bind_eq_ok.mp returns
    cases returns
    rw [core_onQueue, requeue_core requeued, core_onQueue, withDelay, if_pos given]
  · rename_i kept
    cases returns
    rw [withDelay, if_neg kept, setAttr_self]

/-- The modification passes the checks, and its key selects the instance. -/
def Modifies (s : Daemon) (key : Key) (preeMode acptMode : Int) (v : DsPtr) : Prop :=
  modeGiven preeMode = true ∧ modeGiven acptMode = true ∧ s.vrrpSearchInst key = .ok (some v)

/-- **What a modification does**: nothing, or it changes attributes of the
instance its key selects, and timers. -/
theorem vrrpSetInstProp_outcome {pri delay preeMode acptMode : Int}
    (returns : s.vrrpSetInstProp w key pri delay preeMode acptMode = .ok (ret, s')) :
    (ret ≠ VrrpRet.success.code ∧ s' = s ∧ ∀ v, ¬ s.Modifies key preeMode acptMode v) ∨
      (ret = VrrpRet.success.code ∧ ∃ v, s.Modifies key preeMode acptMode v ∧
        ∃ s₁, (s.changePri (s.ds v).vr pri).changeDelay w key (s.ds v).vr delay = .ok s₁ ∧
          s' = s₁.changeModes (s.ds v).vr preeMode acptMode) := by
  simp only [vrrpSetInstProp] at returns
  cases preempt : modeGiven preeMode with
  | false =>
      rw [preempt] at returns
      cases returns
      refine .inl ⟨by decide, rfl, fun v modifies => ?_⟩
      exact Bool.false_ne_true (preempt.symm.trans modifies.1)
  | true =>
      cases accept : modeGiven acptMode with
      | false =>
          rw [preempt, accept] at returns
          cases returns
          refine .inl ⟨by decide, rfl, fun v modifies => ?_⟩
          exact Bool.false_ne_true (accept.symm.trans modifies.2.1)
      | true =>
          rw [preempt, accept] at returns
          obtain ⟨found, searched, returns⟩ := bind_eq_ok.mp returns
          cases found with
          | none =>
              cases returns
              refine .inl ⟨by decide, rfl, fun v modifies => ?_⟩
              cases searched.symm.trans modifies.2.2
          | some v =>
              obtain ⟨s₁, changed, returns⟩ := bind_eq_ok.mp returns
              cases returns
              exact .inr ⟨rfl, v, ⟨preempt, accept, searched⟩, s₁, changed, rfl⟩

/-- The attributes that a modification leaves. -/
def modifiedAttr (old : VrrpAttr) (pri delay preeMode acptMode : Int) : VrrpAttr :=
  withModes (withDelay (withPri old pri) delay) preeMode acptMode

theorem modifiedAttr_pri (old : VrrpAttr) (pri delay preeMode acptMode : Int) :
    (modifiedAttr old pri delay preeMode acptMode).pri =
      if pri ≠ vrPropUnchange then UInt8.ofInt pri else old.pri := by
  simp only [modifiedAttr, withModes, withDelay, withPri]
  split <;> split <;> rfl

theorem modifiedAttr_delay (old : VrrpAttr) (pri delay preeMode acptMode : Int) :
    (modifiedAttr old pri delay preeMode acptMode).delay =
      if delay ≠ vrPropUnchange then delay else old.delay := by
  simp only [modifiedAttr, withModes, withDelay, withPri]
  split <;> split <;> rfl

theorem modifiedAttr_preeMode (old : VrrpAttr) (pri delay preeMode acptMode : Int) :
    (modifiedAttr old pri delay preeMode acptMode).preeMode = newMode old.preeMode preeMode := by
  simp only [modifiedAttr, withModes, withDelay, withPri]
  split <;> split <;> rfl

theorem modifiedAttr_acceptMode (old : VrrpAttr) (pri delay preeMode acptMode : Int) :
    (modifiedAttr old pri delay preeMode acptMode).acceptMode =
      newMode old.acceptMode acptMode := by
  simp only [modifiedAttr, withModes, withDelay, withPri]
  split <;> split <;> rfl

/-- A mode that `vrrp_check` admits is stored, unless it is to stay. -/
theorem newMode_eq {old mode : Int} (given : modeGiven mode = true) :
    newMode old mode = if mode = vrPropUnchange then old else mode := by
  simp only [modeGiven, Bool.or_eq_true, decide_eq_true_eq] at given
  rcases given with (rfl | rfl) | rfl <;> simp [newMode, vrPropUnchange]

theorem vrrpSetInstProp_core {pri delay preeMode acptMode : Int}
    (returns : s.vrrpSetInstProp w key pri delay preeMode acptMode = .ok (ret, s')) :
    (ret ≠ VrrpRet.success.code ∧ s' = s ∧ ∀ v, ¬ s.Modifies key preeMode acptMode v) ∨
      (ret = VrrpRet.success.code ∧ ∃ v, s.Modifies key preeMode acptMode v ∧
        s'.core = (s.setAttr (s.ds v).vr
          (modifiedAttr (s.vr v).attr pri delay preeMode acptMode)).core) := by
  rcases vrrpSetInstProp_outcome returns with refused | ⟨status, v, selected, s₁, changed, rfl⟩
  · exact .inl refused
  · refine .inr ⟨status, v, selected, ?_⟩
    have delayed := changeDelay_core changed
    rw [changePri_eq, setAttr_setAttr, setAttr_vrs] at delayed
    rw [changeModes_eq, core_setAttr, vrs_of_core delayed, delayed, ← core_setAttr, setAttr_vrs,
      setAttr_setAttr]
    rfl

/-- No record of an instance is changed. -/
theorem vrrpSetInstProp_ds {ret pri delay preeMode acptMode : Int}
    (returns : s.vrrpSetInstProp w key pri delay preeMode acptMode = .ok (ret, s')) :
    s'.ds = s.ds := by
  rcases vrrpSetInstProp_core returns with ⟨-, rfl, -⟩ | ⟨-, v, -, core⟩
  · rfl
  · exact (ds_of_core core).trans rfl

/-- The attributes of the instance after a modification. -/
theorem vrrpSetInstProp_attr {v : DsPtr} {ret pri delay preeMode acptMode : Int}
    (modifies : s.Modifies key preeMode acptMode v)
    (returns : s.vrrpSetInstProp w key pri delay preeMode acptMode = .ok (ret, s')) :
    (s'.vr v).attr = modifiedAttr (s.vr v).attr pri delay preeMode acptMode := by
  rcases vrrpSetInstProp_core returns with ⟨-, -, none⟩ | ⟨-, u, other, core⟩
  · exact absurd modifies (none v)
  · cases modifies.2.2.symm.trans other.2.2
    rw [vr, ds_of_core core, vrs_of_core core]
    exact setAttr_vrs ..

end Daemon

end VrrpDaemon
