import VrrpDaemon.Behaviour.Commands

/-!
# What a create does

A create that is refused leaves the daemon as it is, and one that runs out of
memory has allocated records that nothing points to: the heap only grows
(`Grows`). A create that succeeds adds the records of `withInst` and links the
instance (`vrrpCreateInst_outcome`).
-/

set_option autoImplicit false

namespace VrrpDaemon

open Machine

namespace Daemon

/-- The second daemon has the first one's records, flags and effects, and may
have allocated more. New instances do not run and new VRs have no links. -/
structure Grows (s s' : Daemon) : Prop where
  dsTop : s.dsTop ≤ s'.dsTop
  vrTop : s.vrTop ≤ s'.vrTop
  next : ∀ v, v < s.dsTop → s'.next v = s.next v
  prev : ∀ v, v < s.dsTop → s'.prev v = s.prev v
  ds : ∀ v, v < s.dsTop → s'.ds v = s.ds v
  idle : ∀ v, s'.ds v = s.ds v ∨ s.dsTop ≤ v ∧ (s'.ds v).state.running = false
  vrs : ∀ p, p < s.vrTop → s'.vrs p = s.vrs p
  flag : s'.flag = s.flag
  effects : s'.effects = s.effects
  forkCalls : s'.forkCalls = s.forkCalls
  advQ : s'.q.advQ = s.q.advQ
  qnext : ∀ p, s'.q.qnext p = s.q.qnext p ∨ s.vrTop ≤ p ∧ s'.q.qnext p = none
  qprev : ∀ p, s'.q.qprev p = s.q.qprev p ∨ s.vrTop ≤ p ∧ s'.q.qprev p = none
  timeout : ∀ p, p < s.vrTop → s'.q.timeout p = s.q.timeout p

theorem Grows.refl (s : Daemon) : s.Grows s where
  dsTop := Nat.le_refl _
  vrTop := Nat.le_refl _
  next _ _ := rfl
  prev _ _ := rfl
  ds _ _ := rfl
  idle _ := .inl rfl
  vrs _ _ := rfl
  flag := rfl
  effects := rfl
  forkCalls := rfl
  advQ := rfl
  qnext _ := .inl rfl
  qprev _ := .inl rfl
  timeout _ _ := rfl

/-- The daemon with the records of a new instance, which is not linked yet. -/
def withInst (inst : VrrpInst) (s : Daemon) : Daemon :=
  { s with
    next := Function.update s.next s.dsTop none
    prev := Function.update s.prev s.dsTop none
    ds := Function.update s.ds s.dsTop
      { vr := s.vrTop, active := inst.viActive, state := .init, pid := 0 }
    vrs := Function.update s.vrs s.vrTop
      { attr := inst.viVa
        vr := { inst.viVr with vrIp := inst.viVr.vrIp.take inst.viVr.vrIpnum.toNat }
        parent := s.dsTop }
    dsTop := s.dsTop + 1
    vrTop := s.vrTop + 1
    q := ((s.q.setTimeout s.vrTop 0).setQnext s.vrTop none).setQprev s.vrTop none
    mallocCalls := s.mallocCalls + 3 }

theorem update_idle {records : DsPtr → VrrpdDs} {top : DsPtr} {record : VrrpdDs}
    (idle : record.state.running = false) (v : DsPtr) :
    Function.update records top record v = records v ∨
      top ≤ v ∧ (Function.update records top record v).state.running = false := by
  by_cases here : v = top
  · subst here
    rw [Function.update_self]
    exact .inr ⟨Nat.le_refl _, idle⟩
  · exact .inl (Function.update_of_ne here ..)

theorem update_links {links : VrPtr → Option VrPtr} {top : VrPtr} (p : VrPtr) :
    Function.update links top none p = links p ∨
      top ≤ p ∧ Function.update links top none p = none := by
  by_cases here : p = top
  · subst here
    exact .inr ⟨Nat.le_refl _, Function.update_self ..⟩
  · exact .inl (Function.update_of_ne here ..)

theorem grows_withInst (inst : VrrpInst) (s : Daemon) : s.Grows (s.withInst inst) where
  dsTop := Nat.le_succ _
  vrTop := Nat.le_succ _
  next _ old := Function.update_of_ne (Nat.ne_of_lt old) ..
  prev _ old := Function.update_of_ne (Nat.ne_of_lt old) ..
  ds _ old := Function.update_of_ne (Nat.ne_of_lt old) ..
  idle := update_idle rfl
  vrs _ old := Function.update_of_ne (Nat.ne_of_lt old) ..
  flag := rfl
  effects := rfl
  forkCalls := rfl
  advQ := rfl
  qnext := update_links
  qprev := update_links
  timeout _ old := Function.update_of_ne (Nat.ne_of_lt old) ..

theorem grows_newDs (s : Daemon) : s.Grows s.newDs.2 where
  dsTop := Nat.le_succ _
  vrTop := Nat.le_refl _
  next _ old := Function.update_of_ne (Nat.ne_of_lt old) ..
  prev _ old := Function.update_of_ne (Nat.ne_of_lt old) ..
  ds _ old := Function.update_of_ne (Nat.ne_of_lt old) ..
  idle := update_idle rfl
  vrs _ _ := rfl
  flag := rfl
  effects := rfl
  forkCalls := rfl
  advQ := rfl
  qnext _ := .inl rfl
  qprev _ := .inl rfl
  timeout _ _ := rfl

/-- The daemon when the last `malloc` fails: the records are there, without addresses. -/
def withoutAddresses (inst : VrrpInst) (s : Daemon) : Daemon :=
  { s.withInst inst with
    vrs := Function.update s.vrs s.vrTop
      { attr := inst.viVa, vr := { inst.viVr with vrIp := [] }, parent := s.dsTop } }

/-- **What the allocations do**, by the first `malloc` that fails. -/
theorem allocInst_eq (w : World) (inst : VrrpInst) (s : Daemon) :
    s.allocInst w inst =
      if w.malloc s.mallocCalls = false then
        (none, { s with mallocCalls := s.mallocCalls + 1 })
      else if w.malloc (s.mallocCalls + 1) = false then
        (none, { s.newDs.2 with mallocCalls := s.mallocCalls + 2 })
      else if w.malloc (s.mallocCalls + 2) = false then (none, s.withoutAddresses inst)
      else (some s.dsTop, s.withInst inst) := by
  have made : ¬ (VrrpRet.success.code = VrrpRet.enomem.code) := by decide
  by_cases first : w.malloc s.mallocCalls = false
  · rw [if_pos first]
    simp only [allocInst, malloc, first, Bool.not_false, reduceIte]
  · rw [if_neg first]
    rw [Bool.not_eq_false] at first
    by_cases second : w.malloc (s.mallocCalls + 1) = false
    · rw [if_pos second]
      simp only [allocInst, malloc, first, newDs, second, Bool.not_true, Bool.false_eq_true,
        Bool.not_false, reduceIte]
    · rw [if_neg second]
      rw [Bool.not_eq_false] at second
      by_cases third : w.malloc (s.mallocCalls + 2) = false
      · rw [if_pos third]
        simp only [allocInst, malloc, first, newDs, second, newVr, vrrpCreateVr, setDs, third,
          Bool.not_true, Bool.false_eq_true, Bool.not_false, reduceIte, Function.update_self,
          Function.update_idem, blankDs, withoutAddresses, withInst]
      · rw [if_neg third]
        rw [Bool.not_eq_false] at third
        simp only [allocInst, malloc, first, newDs, second, newVr, vrrpCreateVr, setDs, third, made,
          Bool.not_true, Bool.false_eq_true, reduceIte, Function.update_self,
          Function.update_idem, blankDs, withInst]

/-- Whether the allocations succeed depends on the world alone. -/
theorem allocInst_isSome (w : World) (inst : VrrpInst) (s : Daemon) :
    (s.allocInst w inst).1.isSome =
      (w.malloc s.mallocCalls && w.malloc (s.mallocCalls + 1) && w.malloc (s.mallocCalls + 2)) := by
  rw [allocInst_eq]
  cases first : w.malloc s.mallocCalls <;> cases second : w.malloc (s.mallocCalls + 1) <;>
    cases third : w.malloc (s.mallocCalls + 2) <;> rfl

/-- The allocations log nothing. -/
theorem allocInst_log (w : World) (inst : VrrpInst) (s : Daemon) :
    (s.allocInst w inst).2.q.log = s.q.log := by
  rw [allocInst_eq]
  split
  · rfl
  · split
    · rfl
    · split <;> rfl

/-- What the allocations keep when they fail. -/
theorem allocInst_failed {w : World} {inst : VrrpInst} {s s' : Daemon} (kept : Daemon → Prop)
    (allocated : s.allocInst w inst = (none, s'))
    (first : kept { s with mallocCalls := s.mallocCalls + 1 })
    (second : kept { s.newDs.2 with mallocCalls := s.mallocCalls + 2 })
    (third : kept (s.withoutAddresses inst)) : kept s' := by
  rw [allocInst_eq] at allocated
  split at allocated
  · cases allocated
    exact first
  · split at allocated
    · cases allocated
      exact second
    · split at allocated
      · cases allocated
        exact third
      · cases allocated

/-- **The allocations succeed with the records of `withInst`, or the heap only
grows.** -/
theorem allocInst_outcome {w : World} {inst : VrrpInst} {s s' : Daemon} {made : Option DsPtr}
    (allocated : s.allocInst w inst = (made, s')) :
    (made = none ∧ s.Grows s') ∨ (made = some s.dsTop ∧ s' = s.withInst inst) := by
  cases made with
  | none =>
      refine .inl ⟨rfl, allocInst_failed s.Grows allocated ?_ ?_ ?_⟩
      · exact { Grows.refl s with }
      · exact { grows_newDs s with }
      · exact { grows_withInst inst s with
          vrs := fun _ old => Function.update_of_ne (Nat.ne_of_lt old) .. }
  | some new =>
      rw [allocInst_eq] at allocated
      split at allocated
      · cases allocated
      · split at allocated
        · cases allocated
        · split at allocated
          · cases allocated
          · cases allocated
            exact .inr ⟨rfl, rfl⟩

/-- Linking an instance does not touch the queue. -/
theorem linkInst_q {s t : Daemon} {new : DsPtr} (returns : s.linkInst new = .ok t) :
    t.q = s.q := by
  unfold linkInst at returns
  split at returns
  · cases returns
    rfl
  · obtain ⟨curr, -, returns⟩ := bind_eq_ok.mp returns
    split at returns
    · cases returns
      rfl
    · obtain ⟨before, -, returns⟩ := bind_eq_ok.mp returns
      cases returns
      rfl

/-- **What a create does**: a request that fails leaves the heap as it was, but
for records that nothing points to; one that succeeds passed the checks and
links a new instance, after a search by its key found none. -/
theorem vrrpCreateInst_outcome {w : World} {inst : VrrpInst} {s s' : Daemon} {ret : Int}
    {made : Option DsPtr} (returns : s.vrrpCreateInst w inst = .ok (ret, made, s')) :
    (ret ≠ VrrpRet.success.code ∧ made = none ∧ s.Grows s') ∨
      (ret = VrrpRet.success.code ∧ made = some s.dsTop ∧
        (inst.viVa.delay > 0 ∧ inst.viVr.vrIpnum > 0) ∧
        s.vrrpSearchInst inst.key = .ok none ∧ (s.withInst inst).linkInst s.dsTop = .ok s') := by
  simp only [vrrpCreateInst] at returns
  split at returns
  · cases returns
    exact .inl ⟨by decide, rfl, .refl s⟩
  · rename_i delay
    split at returns
    · cases returns
      exact .inl ⟨by decide, rfl, .refl s⟩
    · rename_i ipnum
      obtain ⟨conflict, checked, returns⟩ := bind_eq_ok.mp returns
      obtain ⟨vr, searched, checked⟩ := bind_eq_ok.mp checked
      obtain ⟨found, selected, searched⟩ := bind_eq_ok.mp searched
      cases searched
      cases found with
      | some v =>
          cases checked
          cases returns
          exact .inl ⟨by decide, rfl, .refl s⟩
      | none =>
          cases checked
          simp only [ne_eq, not_true_eq_false, reduceIte] at returns
          split at returns
          · rename_i allocated
            cases returns
            rcases allocInst_outcome allocated with ⟨-, grows⟩ | ⟨impossible, -⟩
            · exact .inl ⟨by decide, rfl, grows⟩
            · cases impossible
          · rename_i allocated
            obtain ⟨s₁, linked, returns⟩ := bind_eq_ok.mp returns
            cases returns
            rcases allocInst_outcome allocated with ⟨impossible, -⟩ | ⟨top, rfl⟩
            · cases impossible
            · cases top
              exact .inr ⟨rfl, rfl, ⟨not_not.mp delay, not_not.mp ipnum⟩, selected, linked⟩

/-- A request that is not granted fails a check, or an allocation. -/
theorem vrrpCreateInst_failed {w : World} {inst : VrrpInst} {s s' : Daemon} {ret : Int}
    (returns : s.vrrpCreateInst w inst = .ok (ret, none, s')) :
    s' = s ∨ s.allocInst w inst = (none, s') := by
  simp only [vrrpCreateInst] at returns
  split at returns
  · cases returns
    exact .inl rfl
  · split at returns
    · cases returns
      exact .inl rfl
    · obtain ⟨conflict, -, returns⟩ := bind_eq_ok.mp returns
      split at returns
      · cases returns
        exact .inl rfl
      · split at returns
        · rename_i allocated
          cases returns
          exact .inr allocated
        · obtain ⟨s₁, -, returns⟩ := bind_eq_ok.mp returns
          cases returns

/-- The command answers with what `vrrp_create_inst` returned, unless the new
instance has priority 255: then it is started as a master at once. -/
theorem createCommand_outcome {w : World} {inst : VrrpInst} {s s' : Daemon} {ret : Int}
    (returns : s.createCommand w inst = .ok (ret, s')) :
    (∃ status, status ≠ VrrpRet.success.code ∧ s.vrrpCreateInst w inst = .ok (status, none, s') ∧
        s.Grows s') ∨
      ∃ s₁, s.vrrpCreateInst w inst = .ok (VrrpRet.success.code, some s.dsTop, s₁) ∧
        (s.withInst inst).linkInst s.dsTop = .ok s₁ ∧
        ((inst.viVa.pri ≠ 255 ∧ s' = s₁) ∨
          (inst.viVa.pri = 255 ∧ ∃ status s₂, s₁.vrrpStateI2m w s.dsTop = .ok (status, s₂) ∧
            s' = s₂.onQueue (·.alarm inst.viVa.delay))) := by
  simp only [createCommand] at returns
  obtain ⟨⟨status, made, s₁⟩, created, returns⟩ := bind_eq_ok.mp returns
  dsimp only at returns
  rcases vrrpCreateInst_outcome created with ⟨failed, rfl, grows⟩ | ⟨rfl, rfl, -, -, linked⟩
  · rw [if_pos failed] at returns
    cases returns
    exact .inl ⟨_, failed, created, grows⟩
  · simp only [ne_eq, not_true_eq_false, reduceIte, deref_some, ok_bind] at returns
    refine .inr ⟨s₁, created, linked, ?_⟩
    split at returns
    · rename_i top
      obtain ⟨⟨status, s₂⟩, started, returns⟩ := bind_eq_ok.mp returns
      cases returns
      exact .inr ⟨top, status, s₂, started, rfl⟩
    · rename_i regular
      cases returns
      exact .inl ⟨regular, rfl⟩

end Daemon

end VrrpDaemon
