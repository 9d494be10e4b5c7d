import VrrpDaemon.Behaviour.Lan
import VrrpDaemon.Behaviour.Queue
import VrrpDaemon.Machine.Lanes

/-!
# What a sequence of frames does

A frame acts on the states and the flags by overwriting: it clears or sets the flag of its
VRID, and it has one state to offer to one instance, which takes it when it runs (`offer`).
Which instance and which state does not depend on the states. So after any sequence of frames
the last flag written and the last state offered stand (`receives_state`, `receives_flag`).
-/

set_option autoImplicit false

namespace VrrpDaemon

open Machine

namespace Receipt

/-- The VRID of the frame. -/
def vid (r : Receipt) : UInt8 := r.frame.inst.viVr.vrId

/-- The priority in the frame. -/
def pri (r : Receipt) : UInt8 := r.frame.inst.viVa.pri

/-- The key that the frame is searched by. -/
def key (r : Receipt) : Key := ⟨r.vid, some r.ifname, r.af⟩

/-- What the frame writes to a flag. -/
def flagWrite (x : UInt8) (r : Receipt) : Option Bool :=
  if r.frame.accepted = true ∧ r.vid = x then some (decide (r.pri ≠ 0)) else none

end Receipt

namespace Daemon

variable {w : World} {s s' : Daemon} {nodes : List DsPtr} {v : DsPtr} {r : Receipt}

/-- The frame selects the instance, and has a greater priority. -/
def Exceeds (s : Daemon) (r : Receipt) (v : DsPtr) : Prop :=
  s.vrrpSearchInst r.key = .ok (some v) ∧ r.vid ≠ 0 ∧ s.vrrpPri v < r.pri

instance (s : Daemon) (r : Receipt) (v : DsPtr) : Decidable (s.Exceeds r v) :=
  inferInstanceAs (Decidable (_ ∧ _ ∧ _))

/-- The state that a frame offers to an instance. -/
def offer (s : Daemon) (v : DsPtr) (r : Receipt) : Option VrrpState :=
  if r.frame.accepted = false then none
  else if r.pri = 0 then if s.next instRuntimeList = some v then some .mast else none
  else if s.Exceeds r v then some .back else none

/-- What an instance makes of what it is offered. -/
def takes (state : VrrpState) (offered : Option VrrpState) : VrrpState :=
  if state.running then offered.getD state else state

@[simp] theorem takes_none (state : VrrpState) : takes state none = state := by
  simp [takes]

/-! ## One frame -/

theorem exceeds_congr (linked : s.Linked nodes) (shape : s'.shape = s.shape)
    (vrs : s'.vrs = s.vrs) : s'.Exceeds r v ↔ s.Exceeds r v := by
  have pri : s'.vrrpPri v = s.vrrpPri v := by
    rw [vrrpPri, vrrpPri, vr, vr, vrs, vr_of_shape shape]
  rw [Exceeds, Exceeds, linked.search_congr shape, pri]

theorem offer_congr (linked : s.Linked nodes) (shape : s'.shape = s.shape)
    (vrs : s'.vrs = s.vrs) : s'.offer v = s.offer v := by
  have next : s'.next = s.next := congrArg Shape.next shape
  funext r
  simp only [offer, exceeds_congr linked shape vrs, next]

theorem Exceeds.unique {u : DsPtr} (one : s.Exceeds r u) (other : s.Exceeds r v) : u = v := by
  have same := one.1.symm.trans other.1
  exact Option.some.inj (Except.ok.inj same)

/-- An offer is made to an instance that runs, so it is taken by whoever took another. -/
theorem takes_takes {state : VrrpState} {first second : Option VrrpState}
    (runs : ∀ offered ∈ first, offered.running = true) :
    takes (takes state first) second = takes state (second.or first) := by
  cases running : state.running with
  | false => simp [takes, running]
  | true =>
      cases first with
      | none => simp [takes, running]
      | some offered =>
          have own := runs offered rfl
          cases second <;> simp [takes, running, own]

theorem offer_running : ∀ offered ∈ s.offer v r, offered.running = true := by
  intro offered member
  have some : s.offer v r = some offered := member
  unfold offer at some
  split at some
  · cases some
  · split at some <;> split at some <;> cases some <;> rfl

/-- A frame changes no link, key or attribute. -/
theorem receive_kept (returns : s.receive w r = .ok s') : s'.shape = s.shape ∧ s'.vrs = s.vrs :=
  ⟨shape_stable.frame returns, vrs_stable.frame returns⟩

/-- What a frame of priority 0 does: it promotes the first instance, if it is a backup. -/
theorem receive_stop (accepted : r.frame.accepted = true) (stop : r.pri = 0)
    (returns : s.receive w r = .ok s') :
    ∃ first, s.next instRuntimeList = some first ∧
      (((s.ds first).state = .back ∧
          s'.core = ((s.cleared r.frame).promote w .backToMast first).core) ∨
        ((s.ds first).state ≠ .back ∧ s'.core = (s.cleared r.frame).core)) := by
  rw [receive, processVrrpdSock_stop accepted stop] at returns
  cases found : s.next instRuntimeList with
  | none => simp [found] at returns
  | some first =>
      simp only [found] at returns
      refine ⟨first, rfl, ?_⟩
      split at returns
      · exact .inl ⟨‹_›, vrrpStateB2m_core returns⟩
      · cases returns
        exact .inr ⟨‹_›, rfl⟩

/-- What any other frame does: the master that has to yield leaves `MAST`. -/
theorem receive_regular (linked : s.Linked nodes) (accepted : r.frame.accepted = true)
    (regular : r.pri ≠ 0) (returns : s.receive w r = .ok s') :
    ((∀ v, s.Exceeds r v → (s.ds v).state ≠ .mast) ∧ s'.core = (s.heard r.frame).core) ∨
      ∃ v, s.Exceeds r v ∧ (s.ds v).state = .mast ∧
        s'.core = ((s.heard r.frame).leave w .mastToBack .back v).core := by
  have shape : (s.heard r.frame).shape = s.shape := rfl
  have heard : (s.heard r.frame).vrrpSearchInst r.key = s.vrrpSearchInst r.key :=
    linked.search_congr shape _
  rw [receive, processVrrpdSock_regular accepted regular] at returns
  obtain ⟨found, searched, returns⟩ := bind_eq_ok.mp returns
  have own : s.vrrpSearchInst r.key = .ok found := heard.symm.trans searched
  cases found with
  | none =>
      cases returns
      exact .inl ⟨fun v exceeds => by simp [Exceeds, own] at exceeds, rfl⟩
  | some curr =>
      have only : ∀ v, s.Exceeds r v → v = curr := by
        rintro v ⟨search, -⟩
        rw [own] at search
        exact (Option.some.inj (Except.ok.inj search)).symm
      have parent : ((s.heard r.frame).vrs ((s.heard r.frame).ds curr).vr).parent = curr :=
        linked.parent curr (linked.mem_of_search own)
      have state : ((s.heard r.frame).ds curr).state = (s.ds curr).state := rfl
      dsimp only at returns
      split at returns
      · rename_i zero
        cases returns
        exact .inl ⟨fun v exceeds => absurd zero exceeds.2.1, rfl⟩
      · rename_i given
        rw [vrrpProcessIncomingAdv_regular parent regular, state] at returns
        cases now : (s.ds curr).state with
        | mast =>
            simp only [now] at returns
            split at returns
            · exact .inr ⟨curr, ⟨own, given, ‹_›⟩, now, yielded_core given returns⟩
            · rename_i stays
              cases returns
              refine .inl ⟨fun v exceeds => absurd ?_ stays, rfl⟩
              rw [← only v exceeds]
              exact exceeds.2.2
        | back =>
            refine .inl ⟨fun v exceeds => by simp [only v exceeds, now], ?_⟩
            simp only [now] at returns
            split at returns
            · exact rearm_core returns
            · cases returns
              rfl
        | none | init =>
            refine .inl ⟨fun v exceeds => by simp [only v exceeds, now], ?_⟩
            simp only [now] at returns
            cases returns
            rfl

/-- The flags behind an accepted frame. -/
theorem flag_of_receive (linked : s.Linked nodes) (accepted : r.frame.accepted = true)
    (returns : s.receive w r = .ok s') :
    s'.flag = Function.update s.flag r.vid (decide (r.pri ≠ 0)) := by
  by_cases stop : r.pri = 0
  · have cleared : (s.cleared r.frame).flag = Function.update s.flag r.vid false :=
      Function.update_idem ..
    rw [stop]
    obtain ⟨first, -, ⟨-, core⟩ | ⟨-, core⟩⟩ := receive_stop accepted stop returns
    · rw [flag_of_core core, flag_promote, cleared]
      rfl
    · rw [flag_of_core core, cleared]
      rfl
  · have heard : (s.heard r.frame).flag = Function.update s.flag r.vid true := rfl
    rw [decide_eq_true stop]
    obtain ⟨-, core⟩ | ⟨v, -, -, core⟩ := receive_regular linked accepted stop returns
    · rw [flag_of_core core, heard]
    · rw [flag_of_core core, flag_leave, heard]

theorem receive_rejected (rejected : r.frame.accepted = false) (returns : s.receive w r = .ok s') :
    s' = s := by
  rw [receive, processVrrpdSock_rejected rejected] at returns
  exact (Except.ok.inj returns).symm

theorem receive_flag (linked : s.Linked nodes) (returns : s.receive w r = .ok s') (x : UInt8) :
    s'.flag x = (r.flagWrite x).getD (s.flag x) := by
  cases accepted : r.frame.accepted with
  | false =>
      rw [receive_rejected accepted returns]
      simp [Receipt.flagWrite, accepted]
  | true =>
      rw [flag_of_receive linked accepted returns]
      by_cases here : r.vid = x
      · subst here
        simp [Receipt.flagWrite, accepted]
      · simp [Receipt.flagWrite, here, Function.update_of_ne (Ne.symm here)]

/-- An instance takes the state that a frame offers to it, when it runs. -/
theorem receive_state (linked : s.Linked nodes) (returns : s.receive w r = .ok s') (v : DsPtr) :
    (s'.ds v).state = takes (s.ds v).state (s.offer v r) := by
  cases accepted : r.frame.accepted with
  | false =>
      rw [receive_rejected accepted returns]
      simp [offer, accepted, takes]
  | true =>
      by_cases stop : r.pri = 0
      · obtain ⟨first, found, outcome⟩ := receive_stop accepted stop returns
        have offered : s.offer v r = if first = v then some .mast else none := by
          simp [offer, accepted, stop, found]
        rw [offered]
        rcases outcome with ⟨backup, core⟩ | ⟨notBackup, core⟩
        · rw [ds_of_core core]
          by_cases here : first = v
          · subst here
            rw [if_pos rfl, state_promote_self, backup]
            rfl
          · rw [if_neg here, state_promote_other _ _ _ _ (Ne.symm here), takes_none]
            rfl
        · have same : (s'.ds v).state = (s.ds v).state := by
            rw [ds_of_core core]
            rfl
          rw [same]
          by_cases here : first = v
          · subst here
            rw [if_pos rfl]
            cases state : (s.ds first).state with
            | back => exact absurd state notBackup
            | none | init | mast => rfl
          · rw [if_neg here, takes_none]
      · rcases receive_regular linked accepted stop returns with
          ⟨stays, core⟩ | ⟨u, exceeds, master, core⟩
        · have same : (s'.ds v).state = (s.ds v).state := by
            rw [ds_of_core core]
            rfl
          rw [same, offer, if_neg (by simp [accepted]), if_neg stop]
          split
          · rename_i exceeds
            cases state : (s.ds v).state with
            | mast => exact absurd state (stays v exceeds)
            | none | init | back => rfl
          · rw [takes_none]
        · rw [ds_of_core core, offer, if_neg (by simp [accepted]), if_neg stop]
          by_cases here : v = u
          · subst here
            rw [if_pos exceeds, state_leave_self, master]
            rfl
          · rw [if_neg fun other => here (other.unique exceeds), state_leave_other _ _ _ _ _ here,
              takes_none]
            rfl

/-! ## A sequence of frames -/

/-- **The run lemma.** Behind a sequence of frames an instance that runs is in the state that
was offered to it last, and a flag has the value that was written last. -/
theorem receives {items : List Receipt} (linked : s.Linked nodes)
    (returns : exec (receive w) items s = .ok s') :
    s'.shape = s.shape ∧ s'.vrs = s.vrs ∧
      (∀ v, (s'.ds v).state = takes (s.ds v).state (lastWrite (s.offer v) items)) ∧
      ∀ x, s'.flag x = (lastWrite (Receipt.flagWrite x) items).getD (s.flag x) := by
  induction items generalizing s with
  | nil =>
      cases returns
      exact ⟨rfl, rfl, fun v => (takes_none _).symm, fun x => rfl⟩
  | cons r items ih =>
      obtain ⟨s₁, received, returns⟩ := bind_eq_ok.mp returns
      obtain ⟨shape₁, vrs₁⟩ := receive_kept received
      obtain ⟨shape, vrs, states, flags⟩ := ih (linked.of_shape shape₁) returns
      refine ⟨shape.trans shape₁, vrs.trans vrs₁, fun v => ?_, fun x => ?_⟩
      · rw [states v, receive_state linked received v, offer_congr linked shape₁ vrs₁,
          takes_takes offer_running, lastWrite_cons]
      · rw [flags x, receive_flag linked received x, lastWrite_cons]
        cases lastWrite (Receipt.flagWrite x) items <;> rfl

end Daemon

end VrrpDaemon
