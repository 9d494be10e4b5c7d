import VrrpDaemon.Behaviour.Steps

/-!
# The record of a VR

A create stores the record of a VR as its request has it, with the addresses copied
(`VrrpVr.copied`). No step changes the record of a VR whose instance is listed, so it stays
as long as the instance does (`record_of_history`).
-/

set_option autoImplicit false

namespace VrrpDaemon

open Machine

/-- What `vrrp_create_vr` stores of a VR. -/
def VrrpVr.copied (vr : VrrpVr) : VrrpVr :=
  { vr with vrIp := vr.vrIp.take vr.vrIpnum.toNat }

namespace Daemon

variable {w : World} {s s' : Daemon} {nodes nodes' : List DsPtr} {v : DsPtr}

theorem record_of_shape (same : s'.shape = s.shape) (v : DsPtr) : (s'.vr v).vr = (s.vr v).vr := by
  have vr : ∀ p, (s'.vrs p).vr = (s.vrs p).vr := congrFun (congrArg Shape.vr same)
  rw [Daemon.vr, Daemon.vr, vr, vr_of_shape same]

/-- Links are no part of a record. -/
theorem record_withLinks (next prev : DsPtr → Option DsPtr) :
    ((s.withLinks next prev).vr v).vr = (s.vr v).vr := rfl

/-- **No step changes the record of a listed instance.** -/
theorem step_record {op : Op} (linked : s.Linked nodes) (returns : step w op s = .ok s')
    (member : v ∈ nodes) : (s'.vr v).vr = (s.vr v).vr := by
  cases op with
  | frame af ifname frame => exact record_of_shape (shape_stable.frame returns) v
  | alarm => exact record_of_shape (shape_stable.alarm returns) v
  | command command =>
      obtain ⟨⟨status, s₁⟩, processed, returns⟩ := bind_eq_ok.mp returns
      cases returns
      cases command with
      | startup key => exact record_of_shape (shape_stable.startup processed) v
      | shutdown key => exact record_of_shape (shape_stable.shutdown processed) v
      | modify key pri delay preeMode acptMode =>
          exact record_of_shape (vrrpSetInstProp_shape processed) v
      | create inst =>
          rcases createCommand_outcome processed with
            ⟨-, -, -, grows⟩ | ⟨s₂, -, link, started⟩
          · rw [(linked.records_of_grows grows member).2]
          · rw [(linked.started_records link started).2 v member]
      | remove key =>
          rcases vrrpDestroyInst_core processed with ⟨-, rfl⟩ | ⟨-, u, t, selected, core, unlinked⟩
          · rfl
          · have shape : t.shape = s.shape := by rw [shape_of_core core, shape_stable.departed]
            obtain ⟨next, prev, before, after, rfl, -, -⟩ :=
              (linked.of_shape shape).unlink (linked.mem_of_search selected) unlinked
            rw [record_withLinks, record_of_shape shape]

/-- Behind a create the record is as the request has it. -/
theorem step_created {inst : VrrpInst} {s₁ : Daemon} (linked : s.Linked nodes)
    (accepted : s.vrrpCreateInst w inst = .ok (VrrpRet.success.code, some v, s₁))
    (returns : step w (.command (.create inst)) s = .ok s') :
    (s'.vr v).vr = inst.viVr.copied := by
  obtain ⟨⟨status, s₂⟩, processed, returns⟩ := bind_eq_ok.mp returns
  cases returns
  rcases createCommand_outcome processed with ⟨status, -, refused, -⟩ | ⟨s₃, created, link, started⟩
  · rw [refused] at accepted
    cases accepted
  · rw [created] at accepted
    cases accepted
    rw [(linked.started_records link started).1]
    rfl

/-- Only a new instance is listed that was not listed before. -/
theorem ListStep.listed {op : Op} (change : ListStep w op s nodes nodes') (member : v ∈ nodes') :
    v = s.dsTop ∨ v ∈ nodes := by
  cases change with
  | keep => exact .inr member
  | insert => exact List.mem_cons.mp (List.perm_middle.mem_iff.mp member)
  | erase => exact .inr (List.perm_middle.mem_iff.mpr (List.mem_cons_of_mem _ member))

/-- **The record stays as the request has it**, as long as the instance is listed. -/
theorem record_of_history {past : List (Daemon × Op × Daemon)}
    (history : History (step w) unguarded initial past s) {s₀ s₁ s₂ : Daemon} {inst : VrrpInst}
    (member : (s₀, .command (.create inst), s₁) ∈ past)
    (accepted : s₀.vrrpCreateInst w inst = .ok (VrrpRet.success.code, some v, s₂))
    (listed : s.Listed v) : (s.vr v).vr = inst.viVr.copied := by
  let kept : Daemon → Prop := fun t => ∃ nodes, t.Linked nodes
  have initially : kept initial := ⟨[], linked_initial⟩
  have preserved : ∀ t op t', kept t → unguarded t op → step w op t = .ok t' → kept t' := by
    rintro t op t' ⟨nodes, linked⟩ - returns
    obtain ⟨nodes', outcome⟩ := step_list linked returns
    exact ⟨nodes', outcome.linked⟩
  obtain ⟨⟨nodes, linked⟩, -, returns⟩ := history.entry kept initially preserved member
  obtain ⟨nodes', outcome⟩ := step_list linked returns
  refine (history.stays kept initially preserved
    (fun t => v < t.dsTop ∧ (t.Listed v → (t.vr v).vr = inst.viVr.copied)) ?_ member
    ⟨(outcome.created inst s₂ v rfl accepted).1,
      fun _ => step_created linked accepted returns⟩).2 listed
  rintro t op t' ⟨nodes, linked⟩ - returns ⟨old, stored⟩
  obtain ⟨nodes', outcome⟩ := step_list linked returns
  refine ⟨Nat.lt_of_lt_of_le old outcome.grown, fun listed => ?_⟩
  have before : v ∈ nodes := (outcome.change.listed (outcome.linked.listed_iff.mp listed)).resolve_left
    (Nat.ne_of_lt old)
  rw [step_record linked returns before]
  exact stored (linked.listed_iff.mpr before)

end Daemon

end VrrpDaemon
