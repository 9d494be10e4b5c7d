import VrrpDaemon.Behaviour.Destruction
import VrrpDaemon.Behaviour.Table
import VrrpDaemon.Machine.Simulation
import VrrpDaemon.Model.AdmSocket

/-!
# The daemon refines the table

The daemon, with its records, links, queue, flags and processes, does nothing that the table of
virtual routers does not: whatever it is asked, hears or is woken for, in whatever order, it
gives the statuses that the table gives, and shows the table's routers (`table_follows`). What
is not in the table is not seen from outside: two daemons that show one table give the same
statuses from then on, whatever has happened in them before (`same_answers`).
-/

set_option autoImplicit false

namespace VrrpDaemon

open Machine

/-- The choices that a world leaves. Memory is short only where some `malloc` fails. -/
structure Choice.Possible (w : World) (c : Choice) : Prop where
  memory : c.memory = false → ∃ k, w.malloc k = false
  unassigned : c.unassigned = w.uninitialised

/-- There is memory, and a timer may expire. -/
theorem Choice.possible_plenty (w : World) (due : Option Nat) :
    (⟨true, due, w.uninitialised⟩ : Choice).Possible w :=
  ⟨fun short => absurd short Bool.noConfusion, rfl⟩

/-- The steps of the table under the choices of a world. -/
def Table.steps (w : World) : Steps Table Op (Option Int) := fun t op status t' =>
  ∃ c : Choice, c.Possible w ∧ t.step c op = some (status, t')

namespace Daemon

/-- One operation of the daemon, with the status that answers a command. -/
def perform (w : World) (op : Op) (s : Daemon) : Result (Option Int × Daemon) :=
  match op with
  | .command command => do
      let (status, s) ← s.processCommand w command
      .ok (some status, s)
  | .frame af ifname frame => do
      let s ← s.processVrrpdSock w af ifname frame
      .ok (none, s)
  | .alarm => do
      let s ← s.signalAlarm w
      .ok (none, s)

/-- The steps of the daemon with its answers. -/
def steps (w : World) : Steps Daemon Op (Option Int) := stepsOf (perform w)

variable {w : World} {s s' : Daemon} {nodes nodes' : List DsPtr} {key : Key} {v : DsPtr}
  {ret : Int} {c : Choice}

theorem step_of_perform {op : Op} {status : Option Int}
    (returns : s.perform w op = .ok (status, s')) : step w op s = .ok s' := by
  cases op with
  | command command =>
      obtain ⟨⟨status, s₁⟩, processed, returns⟩ := bind_eq_ok.mp returns
      cases returns
      exact bind_eq_ok.mpr ⟨_, processed, rfl⟩
  | frame af ifname frame =>
      obtain ⟨s₁, processed, returns⟩ := bind_eq_ok.mp returns
      cases returns
      exact processed
  | alarm =>
      obtain ⟨s₁, processed, returns⟩ := bind_eq_ok.mp returns
      cases returns
      exact processed

/-! ## Startup and shutdown -/

/-- The table is quiet when `any_master_up` finds no flag. -/
theorem quiet_iff : (s.table nodes).Quiet ↔ s.anyMasterUp = 0 := anyMasterUp_eq_zero_iff.symm

theorem turns_i2b (returns : s.vrrpStateI2b w v = .ok s') :
    s.Turns s' nodes v (·.enter (if (s.table nodes).Quiet then .mast else .back)) := by
  have core := vrrpStateI2b_core returns
  by_cases quiet : (s.table nodes).Quiet
  · rw [if_pos (quiet_iff.mp quiet)] at core
    rw [if_pos quiet]
    exact ((turns_setState .back).trans (turns_promote .backToMast)).of_core rfl core
  · rw [if_neg fun up => quiet (quiet_iff.mpr up)] at core
    rw [if_neg quiet]
    exact (turns_setState .back).of_core rfl core

section Commands

variable (linked : s.Linked nodes) (distinct : s.DistinctAmong (·.isFull = true) nodes)
include linked distinct

theorem startup_table (returns : s.vrrpStartupInst w key = .ok (ret, s')) :
    (s.table nodes).answer c (.startup key) = some (ret, s'.table nodes) := by
  simp only [vrrpStartupInst] at returns
  simp only [Table.answer]
  by_cases family : key.af = afInet
  · by_cases given : key.vid = 0
    · rw [if_neg (not_not.mpr family), if_pos (by simp [given])] at returns
      cases returns
      rw [if_pos fun both => both.2 given]
    · rw [if_neg (not_not.mpr family),
        if_neg (not_not.mpr (UInt8.pos_iff_ne_zero.mpr given))] at returns
      rw [if_neg (not_not.mpr ⟨family, given⟩)]
      obtain ⟨found, searched, returns⟩ := bind_eq_ok.mp returns
      rw [linked.find_table distinct searched]
      cases found with
      | none =>
          cases returns
          rfl
      | some v =>
          dsimp only [Option.map_some] at returns ⊢
          rw [router_state]
          by_cases idle : (s.ds v).state = .init
          · rw [if_neg (not_not.mpr idle)] at returns
            rw [if_neg (not_not.mpr idle)]
            obtain ⟨s₁, started, returns⟩ := bind_eq_ok.mp returns
            cases returns
            rw [(turns_i2b started).table linked distinct searched]
          · rw [if_pos idle] at returns
            rw [if_pos idle]
            cases returns
            rfl
  · rw [if_pos family] at returns
    cases returns
    rw [if_pos fun both => family both.1]

theorem shutdown_table (returns : s.vrrpShutdownInst w key = .ok (ret, s')) :
    (s.table nodes).answer c (.shutdown key) = some (ret, s'.table nodes) := by
  simp only [vrrpShutdownInst] at returns
  simp only [Table.answer]
  by_cases family : key.af = afInet
  · by_cases given : key.vid = 0
    · rw [if_neg (not_not.mpr family), if_pos (by simp [given])] at returns
      cases returns
      rw [if_pos fun both => both.2 given]
    · rw [if_neg (not_not.mpr family),
        if_neg (not_not.mpr (UInt8.pos_iff_ne_zero.mpr given))] at returns
      rw [if_neg (not_not.mpr ⟨family, given⟩)]
      obtain ⟨found, searched, returns⟩ := bind_eq_ok.mp returns
      rw [linked.find_table distinct searched]
      cases found with
      | none =>
          cases returns
          rfl
      | some v =>
          dsimp only [Option.map_some] at returns ⊢
          rw [router_state]
          cases state : (s.ds v).state with
          | mast =>
              rw [state] at returns
              obtain ⟨s₁, stopped, returns⟩ := bind_eq_ok.mp returns
              cases returns
              have turns : s.Turns s' nodes v (·.enter .init) :=
                (turns_leave .mastToInit .init).of_core rfl (vrrpStateM2i_core stopped)
              rw [turns.table linked distinct searched]
              rfl
          | back =>
              rw [state] at returns
              obtain ⟨s₁, stopped, returns⟩ := bind_eq_ok.mp returns
              cases returns
              have turns : s.Turns s' nodes v (·.enter .init) :=
                (turns_setState .init).of_core rfl (vrrpStateB2i_core stopped)
              rw [turns.table linked distinct searched]
              rfl
          | none | init =>
              rw [state] at returns
              cases returns
              rfl
  · rw [if_pos family] at returns
    cases returns
    rw [if_pos fun both => family both.1]

/-! ## Modification -/

omit linked distinct in
/-- Modes that pass the check are stored. -/
theorem modifiedAttr_eq {pri delay preeMode acptMode : Int} (old : VrrpAttr)
    (preempt : modeGiven preeMode = true) (accept : modeGiven acptMode = true) :
    modifiedAttr old pri delay preeMode acptMode = old.modified pri delay preeMode acptMode := by
  have priority : (modifiedAttr old pri delay preeMode acptMode).pri =
      if pri = vrPropUnchange then old.pri else UInt8.ofInt pri := by
    rw [modifiedAttr_pri, ite_not]
  have interval : (modifiedAttr old pri delay preeMode acptMode).delay =
      if delay = vrPropUnchange then old.delay else delay := by
    rw [modifiedAttr_delay, ite_not]
  have preempts : (modifiedAttr old pri delay preeMode acptMode).preeMode =
      if preeMode = vrPropUnchange then old.preeMode else preeMode := by
    rw [modifiedAttr_preeMode]
    exact newMode_eq preempt
  have accepts : (modifiedAttr old pri delay preeMode acptMode).acceptMode =
      if acptMode = vrPropUnchange then old.acceptMode else acptMode := by
    rw [modifiedAttr_acceptMode]
    exact newMode_eq accept
  rw [VrrpAttr.modified, ← priority, ← interval, ← preempts, ← accepts]

theorem modify_table {pri delay preeMode acptMode : Int}
    (returns : s.vrrpSetInstProp w key pri delay preeMode acptMode = .ok (ret, s')) :
    (s.table nodes).answer c (.modify key pri delay preeMode acptMode) =
      some (ret, s'.table nodes) := by
  have whole := returns
  simp only [vrrpSetInstProp] at returns
  simp only [Table.answer]
  by_cases preempt : modeGiven preeMode = true
  · by_cases accept : modeGiven acptMode = true
    · rw [if_neg (by simp [preempt]), if_neg (by simp [accept])] at returns
      rw [if_neg (not_not.mpr ⟨preempt, accept⟩)]
      obtain ⟨found, searched, -⟩ := bind_eq_ok.mp returns
      rw [linked.find_table distinct searched]
      cases found with
      | none =>
          rw [searched] at returns
          cases returns
          rfl
      | some v =>
          rcases vrrpSetInstProp_core whole with ⟨-, -, none⟩ | ⟨rfl, u, other, core⟩
          · exact absurd ⟨preempt, accept, searched⟩ (none v)
          · cases searched.symm.trans other.2.2
            rw [modifiedAttr_eq _ preempt accept] at core
            have edit := (linked.turns_setAttr (linked.mem_of_search searched)
              ((s.vr v).attr.modified pri delay preeMode acptMode)).of_core rfl core
            have turns : s.Turns s' nodes v fun r =>
                { r with attr := r.attr.modified pri delay preeMode acptMode } :=
              ⟨edit.here, edit.others, edit.flag⟩
            rw [turns.table linked distinct searched]
            rfl
    · rw [if_neg (by simp [preempt]), if_pos (by simp [accept])] at returns
      cases returns
      rw [if_pos fun both => accept both.2]
  · rw [if_pos (by simp [preempt])] at returns
    cases returns
    rw [if_pos fun both => preempt both.1]

/-! ## Destruction -/

omit linked distinct in
/-- What a destroy does before it unlinks the instance shows in no other router. -/
theorem departed_others {t : Daemon} (core : t.core = (s.departed w key v).core) :
    t.flag = s.flag ∧ ∀ u ∈ nodes, u ≠ v → t.router u = s.router u := by
  have turns : ∃ f, s.Turns (s.departed w key v) nodes v f := by
    unfold departed
    split
    · split
      · exact ⟨id, rfl, fun _ _ _ => rfl, rfl⟩
      · exact ⟨_, turns_leave .mastToInit .init⟩
    · exact ⟨id, turns_execution .mastToInit id ⟨rfl, fun _ _ _ => rfl, rfl⟩⟩
  obtain ⟨f, turns⟩ := turns
  refine ⟨(flag_of_core core).trans turns.flag, fun u member other => ?_⟩
  rw [router_of_core core, turns.others u member other]

theorem remove_table (linked' : s'.Linked nodes')
    (returns : s.vrrpDestroyInst w key = .ok (ret, s')) :
    (s.table nodes).answer c (.remove key) = some (ret, s'.table nodes') := by
  simp only [Table.answer]
  rcases vrrpDestroyInst_core returns with ⟨family, rfl⟩ | ⟨family, v, t, searched, core, unlinked⟩
  · rw [vrrpDestroyInst, if_pos family] at returns
    cases returns
    rw [if_pos family, linked.unique linked']
  · have status : ret = VrrpRet.success.code := (destroy_left family searched returns).1
    have shape : t.shape = s.shape := by rw [shape_of_core core, shape_stable.departed]
    have member := linked.mem_of_search searched
    obtain ⟨next, prev, before, after, rfl, split, erased⟩ :=
      (linked.of_shape shape).unlink member unlinked
    obtain rfl := linked'.unique erased
    obtain ⟨flag, others⟩ := departed_others core
    -- the routers that the key does not fit are those around the instance
    have nodup := linked.nodup
    rw [split] at nodup
    have apart : ∀ u ∈ before ++ after, u ≠ v := by
      rintro u among rfl
      exact (List.nodup_cons.mp (List.nodup_middle.mp nodup)).1 among
    have inside : ∀ u ∈ before ++ after, u ∈ nodes := fun u among =>
      split ▸ List.perm_middle.mem_iff.mpr (List.mem_cons_of_mem _ among)
    have kept : nodes.filter (fun u => !(s.router u).fits key) = before ++ after := by
      have unfit : ∀ u ∈ before ++ after, (!(s.router u).fits key) = true := by
        intro u among
        have iff := linked.fits_iff distinct searched (inside u among)
        simpa using fun fits => apart u among (iff.mp fits)
      have fit : ¬ (!(s.router v).fits key) = true := by
        simpa using (linked.fits_iff distinct searched member).mpr rfl
      rw [split, List.filter_append, List.filter_cons, if_neg fit, ← List.filter_append]
      exact List.filter_eq_self.mpr unfit
    have table : (t.withLinks next prev).table (before ++ after) = (s.table nodes).erase key := by
      rw [Table.erase, Daemon.table, Daemon.table, List.filter_map]
      have same : (t.withLinks next prev).flag = s.flag := flag
      rw [same]
      congr 1
      rw [show (fun r => !VirtualRouter.fits key r) ∘ s.router =
        fun u => !(s.router u).fits key from rfl, kept]
      exact List.map_congr_left fun u among => others u (inside u among) (apart u among)
    rw [if_neg (not_not.mpr family), linked.find_table distinct searched, table, status]
    rfl

/-! ## Creation -/

omit distinct in
/-- Records that nothing points to are not seen. -/
theorem table_of_grows (grows : s.Grows s') : s'.table nodes = s.table nodes := by
  rw [table, table, grows.flag]
  congr 1
  refine List.map_congr_left fun v member => ?_
  obtain ⟨ds, vr⟩ := linked.records_of_grows grows member
  rw [router, router, ds, vr]

/-- A refused request. -/
theorem refused_table {inst : VrrpInst} {made : Option DsPtr} (failed : ret ≠ VrrpRet.success.code)
    (returns : s.vrrpCreateInst w inst = .ok (ret, made, s')) :
    ∃ c : Choice, c.Possible w ∧
      (s.table nodes).answer c (.create inst) = some (ret, s'.table nodes) := by
  have plenty := Choice.possible_plenty w none
  simp only [vrrpCreateInst] at returns
  simp only [Table.answer]
  by_cases delay : inst.viVa.delay > 0
  · rw [if_neg (not_not.mpr delay)] at returns
    by_cases ipnum : inst.viVr.vrIpnum > 0
    · rw [if_neg (not_not.mpr ipnum)] at returns
      obtain ⟨conflict, checked, returns⟩ := bind_eq_ok.mp returns
      obtain ⟨vr, searched, checked⟩ := bind_eq_ok.mp checked
      obtain ⟨found, selected, searched⟩ := bind_eq_ok.mp searched
      cases searched
      have find := linked.find_table distinct selected
      cases found with
      | some v =>
          cases checked
          cases returns
          refine ⟨_, plenty, ?_⟩
          rw [if_neg (not_not.mpr ⟨delay, ipnum⟩), find]
          rfl
      | none =>
          cases checked
          simp only [ne_eq, not_true_eq_false, reduceIte] at returns
          split at returns
          · rename_i allocated
            cases returns
            have short : ∃ k, w.malloc k = false := by
              have isSome := allocInst_isSome w inst s
              rw [allocated] at isSome
              by_contra never
              have ample : ∀ k, w.malloc k = true := by simpa using never
              simp [ample] at isSome
            rcases allocInst_outcome allocated with ⟨-, grows⟩ | ⟨impossible, -⟩
            · refine ⟨⟨false, none, w.uninitialised⟩, ⟨fun _ => short, rfl⟩, ?_⟩
              rw [if_neg (not_not.mpr ⟨delay, ipnum⟩), find, table_of_grows linked grows]
              rfl
            · cases impossible
          · obtain ⟨s₁, -, returns⟩ := bind_eq_ok.mp returns
            cases returns
            exact absurd rfl failed
    · rw [if_pos ipnum] at returns
      cases returns
      exact ⟨_, plenty, if_pos fun both => ipnum both.2⟩
  · rw [if_pos delay] at returns
    cases returns
    exact ⟨_, plenty, if_pos fun both => delay both.1⟩

omit linked distinct in
/-- A router stands behind those of smaller VRID, and before the others. -/
theorem insert_table {before after : List VirtualRouter} {r : VirtualRouter} {heard : UInt8 → Bool}
    (below : ∀ u ∈ before, u.vr.vrId < r.vr.vrId) (above : ∀ u ∈ after, r.vr.vrId ≤ u.vr.vrId) :
    Table.insert r ⟨before ++ after, heard⟩ = ⟨before ++ r :: after, heard⟩ := by
  rw [Table.insert]
  congr 1
  induction before with
  | nil =>
      cases after with
      | nil => rfl
      | cons u after => exact List.orderedInsert_cons_of_le _ _ (above u List.mem_cons_self)
  | cons u before ih =>
      have smaller := UInt8.not_le.mpr (below u List.mem_cons_self)
      show List.orderedInsert _ r (u :: (before ++ after)) = _
      rw [List.orderedInsert_cons, if_neg smaller,
        ih fun v member => below v (List.mem_cons_of_mem _ member)]
      rfl

omit distinct in
/-- What the records of a new instance say. -/
theorem created_table {inst : VrrpInst} {s₁ : Daemon} (linked' : s'.Linked nodes')
    (link : (s.withInst inst).linkInst s.dsTop = .ok s₁)
    (started : (inst.viVa.pri ≠ 255 ∧ s' = s₁) ∨ (inst.viVa.pri = 255 ∧ ∃ status s₂,
      s₁.vrrpStateI2m w s.dsTop = .ok (status, s₂) ∧ s' = s₂.onQueue (·.alarm inst.viVa.delay))) :
    s'.table nodes' = (s.table nodes).insert (.made inst) := by
  obtain ⟨next, prev, before, after, rfl, rfl, inserted, below, above⟩ := linked.link_place link
  have grows := grows_withInst inst s
  have old : ∀ u ∈ before ++ after,
      ((s.withInst inst).withLinks next prev).router u = s.router u := by
    intro u member
    obtain ⟨ds, vr⟩ := linked.records_of_grows grows member
    show (s.withInst inst).router u = s.router u
    rw [router, router, ds, vr]
  have new : ((s.withInst inst).withLinks next prev).router s.dsTop =
      (VirtualRouter.made inst).enter .init := by
    simp [router, vr, withLinks, withInst, VirtualRouter.made, VirtualRouter.enter]
  have fresh : s.dsTop ∉ before ++ after := fun member =>
    Nat.lt_irrefl _ (linked.allocated _ member)
  have shows : s'.flag = s.flag ∧ s'.router s.dsTop = VirtualRouter.made inst ∧
      ∀ u ∈ before ++ after, s'.router u = s.router u := by
    rcases started with ⟨regular, rfl⟩ | ⟨top, status, s₂, promoted, rfl⟩
    · refine ⟨rfl, new.trans ?_, old⟩
      rw [VirtualRouter.made, if_neg regular]
      rfl
    · have turns : Turns _ _ (before ++ after) s.dsTop (·.enter .mast) :=
        (turns_promote .initToMast).of_core rfl
          ((core_onQueue s₂ (·.alarm inst.viVa.delay)).trans (vrrpStateI2m_core promoted).2)
      refine ⟨turns.flag, ?_, fun u member => ?_⟩
      · rw [turns.here, new, VirtualRouter.made, if_pos top]
        rfl
      · rw [turns.others u member fun same => fresh (same ▸ member), old u member]
  obtain ⟨flag, here, others⟩ := shows
  have place : nodes' = before ++ s.dsTop :: after :=
    linked'.unique (inserted.of_shape (started_shape started).1)
  have beforeSame : before.map s'.router = before.map s.router :=
    List.map_congr_left fun u member => others u (List.mem_append_left _ member)
  have afterSame : after.map s'.router = after.map s.router :=
    List.map_congr_left fun u member => others u (List.mem_append_right _ member)
  rw [place, table, table, List.map_append, List.map_append, List.map_cons, here, flag, beforeSame,
    afterSame, insert_table]
  · rintro r among
    obtain ⟨u, member, rfl⟩ := List.mem_map.mp among
    exact below u member
  · rintro r among
    obtain ⟨u, member, rfl⟩ := List.mem_map.mp among
    exact above u member

theorem create_table {inst : VrrpInst} (linked' : s'.Linked nodes')
    (returns : s.createCommand w inst = .ok (ret, s')) :
    ∃ c : Choice, c.Possible w ∧
      (s.table nodes).answer c (.create inst) = some (ret, s'.table nodes') := by
  simp only [createCommand] at returns
  obtain ⟨⟨status, made, s₁⟩, created, returns⟩ := bind_eq_ok.mp returns
  dsimp only at returns
  rcases vrrpCreateInst_outcome created with
    ⟨failed, rfl, grows⟩ | ⟨rfl, rfl, ⟨delay, ipnum⟩, searched, link⟩
  · rw [if_pos failed] at returns
    cases returns
    rw [linked'.unique (linked.of_grows grows)]
    exact refused_table linked distinct failed created
  · refine ⟨_, Choice.possible_plenty w none, ?_⟩
    have free : (s.table nodes).find inst.key = none := linked.find_table distinct searched
    have started : (inst.viVa.pri ≠ 255 ∧ s' = s₁ ∧ ret = VrrpRet.success.code) ∨
        (inst.viVa.pri = 255 ∧ ret = w.uninitialised ∧ ∃ status s₂,
          s₁.vrrpStateI2m w s.dsTop = .ok (status, s₂) ∧
            s' = s₂.onQueue (·.alarm inst.viVa.delay)) := by
      simp only [ne_eq, not_true_eq_false, reduceIte, deref_some, ok_bind] at returns
      split at returns
      · rename_i top
        obtain ⟨⟨status, s₂⟩, promoted, returns⟩ := bind_eq_ok.mp returns
        cases returns
        exact .inr ⟨top, (vrrpStateI2m_core promoted).1, _, _, promoted, rfl⟩
      · rename_i regular
        cases returns
        exact .inl ⟨regular, rfl, rfl⟩
    have table : s'.table nodes' = (s.table nodes).insert (.made inst) := by
      refine created_table (w := w) linked linked' link ?_
      rcases started with ⟨regular, same, -⟩ | ⟨top, -, promoted⟩
      · exact .inl ⟨regular, same⟩
      · exact .inr ⟨top, promoted⟩
    simp only [Table.answer]
    rw [if_neg (not_not.mpr ⟨delay, ipnum⟩), free, table]
    rcases started with ⟨regular, -, rfl⟩ | ⟨top, rfl, -⟩
    · rw [if_neg regular]
      rfl
    · rw [if_pos top]
      rfl

/-! ## Advertisements and timers -/

/-- An advertisement for a running instance is one for its router. -/
theorem incoming_table {received : VrrpInst} (searched : s.vrrpSearchInst key = .ok (some v))
    (regular : received.viVa.pri ≠ 0) (up : s.anyMasterUp ≠ 0)
    (returns : s.vrrpProcessIncomingAdv w v received = .ok s') :
    s'.table nodes =
      if (s.ds v).state = .mast ∧ s.vrrpPri v < received.viVa.pri then
        (s.table nodes).change key (·.enter .back)
      else s.table nodes := by
  rw [vrrpProcessIncomingAdv_regular (linked.parent v (linked.mem_of_search searched)) regular]
    at returns
  cases state : (s.ds v).state with
  | back =>
      rw [state] at returns
      rw [if_neg (by simp)]
      dsimp only at returns
      split at returns
      · exact table_of_core (rearm_core returns)
      · cases returns
        rfl
  | mast =>
      rw [state] at returns
      dsimp only at returns
      by_cases greater : s.vrrpPri v < received.viVa.pri
      · rw [if_pos greater] at returns
        rw [if_pos ⟨rfl, greater⟩]
        have core := vrrpStateM2b_core returns
        rw [if_neg up] at core
        exact ((turns_leave .mastToBack .back).of_core rfl core).table linked distinct searched
      · rw [if_neg greater] at returns
        rw [if_neg fun both => greater both.2]
        cases returns
        rfl
  | none | init =>
      rw [state] at returns
      cases returns
      rw [if_neg (by simp)]

theorem frame_table {af : Int} {ifname : Ifname} {frame : Frame}
    (returns : s.processVrrpdSock w af ifname frame = .ok s') :
    (s.table nodes).hear af ifname frame = some (s'.table nodes) := by
  simp only [Table.hear]
  cases accepted : frame.accepted with
  | false =>
      rw [processVrrpdSock_rejected accepted] at returns
      cases returns
      rfl
  | true =>
      rw [if_neg (by simp)]
      by_cases stop : frame.inst.viVa.pri = 0
      · rw [if_pos stop]
        rw [processVrrpdSock_stop accepted stop] at returns
        cases nodes with
        | nil =>
            have none : s.next instRuntimeList = none := linked.doubly.1
            rw [none] at returns
            cases returns
        | cons first later =>
            have start : s.next instRuntimeList = some first := linked.doubly.1.1
            rw [start] at returns
            have clears : (s.cleared frame).table (first :: later) =
                (s.table (first :: later)).mark frame.inst.viVr.vrId false := by
              rw [Table.mark, table, table]
              congr 1
              simp [cleared, setFlag]
            have apart : first ∉ later := (List.nodup_cons.mp linked.nodup).1
            have head : (s.table (first :: later)).routers =
              s.router first :: later.map s.router := rfl
            dsimp only at returns
            rw [head, ← clears]
            dsimp only
            by_cases backup : (s.ds first).state = .back
            · rw [if_pos backup] at returns
              have turns : (s.cleared frame).Turns s' (first :: later) first (·.enter .mast) :=
                (turns_promote .backToMast).of_core rfl (vrrpStateB2m_core returns)
              have rest : later.map s'.router = later.map s.router :=
                List.map_congr_left fun u member => turns.others u (List.mem_cons_of_mem _ member)
                  fun same => apart (same ▸ member)
              have shows : s'.table (first :: later) =
                  ⟨(s.router first).enter .mast :: later.map s.router, (s.cleared frame).flag⟩ := by
                rw [table, List.map_cons, rest, turns.here, turns.flag]
                rfl
              rw [VirtualRouter.elect, router_state, if_pos backup, shows]
              rfl
            · rw [if_neg backup] at returns
              cases returns
              rw [VirtualRouter.elect, router_state, if_neg backup]
              rfl
      · rw [if_neg stop]
        rw [processVrrpdSock_regular accepted stop] at returns
        obtain ⟨found, searched, returns⟩ := bind_eq_ok.mp returns
        have marks : (s.table nodes).mark frame.inst.viVr.vrId true = (s.heard frame).table nodes :=
          rfl
        have linkedHeard : (s.heard frame).Linked nodes := linked.of_shape rfl
        have distinctHeard : (s.heard frame).DistinctAmong (·.isFull = true) nodes := distinct
        rw [marks, linkedHeard.find_table distinctHeard searched]
        cases found with
        | none =>
            cases returns
            rfl
        | some v =>
            dsimp only [Option.map_some] at returns ⊢
            rw [router_state]
            by_cases given : frame.inst.viVr.vrId = 0
            · rw [if_pos given] at returns
              rw [if_neg fun all => all.1 given]
              cases returns
              rfl
            · rw [if_neg given] at returns
              have up : (s.heard frame).anyMasterUp ≠ 0 :=
                anyMasterUp_ne_zero given (Function.update_self ..)
              rw [incoming_table linkedHeard distinctHeard searched stop up returns]
              by_cases demoted : ((s.heard frame).ds v).state = .mast ∧
                  (s.heard frame).vrrpPri v < frame.inst.viVa.pri
              · rw [if_pos demoted, if_pos ⟨given, demoted.1, demoted.2⟩]
              · rw [if_neg demoted, if_neg fun all => demoted ⟨all.2.1, all.2.2⟩]

omit linked distinct in
theorem modify_length {α : Type} (before after : List α) (a : α) (f : α → α) :
    (before ++ a :: after).modify before.length f = before ++ f a :: after := by
  induction before with
  | nil => rfl
  | cons b before ih => simpa using ih

omit distinct in
theorem alarm_table (returns : s.signalAlarm w = .ok s') :
    ∃ due, (s.table nodes).expire due = s'.table nodes := by
  rcases signalAlarm_core returns with ⟨-, core⟩ | ⟨entry, -, core⟩
  · exact ⟨none, (table_of_core core).symm⟩
  · rw [table_of_core core]
    by_cases backup : (s.ds (s.vrs entry).parent).state = .back
    · rw [served, backup]
      dsimp only
      have turns : s.Turns _ nodes (s.vrs entry).parent (·.enter .mast) :=
        turns_promote (w := w) .backToMast
      by_cases member : (s.vrs entry).parent ∈ nodes
      · obtain ⟨before, after, split⟩ := List.append_of_mem member
        have nodup := linked.nodup
        rw [split] at nodup
        have apart : ∀ u ∈ before ++ after, u ≠ (s.vrs entry).parent := by
          rintro u among same
          exact (List.nodup_cons.mp (List.nodup_middle.mp nodup)).1 (same ▸ among)
        have old : ∀ u ∈ before ++ after, (s.promote w .backToMast (s.vrs entry).parent).router u =
            s.router u := fun u among =>
          turns.others u (split ▸ List.perm_middle.mem_iff.mpr (List.mem_cons_of_mem _ among))
            (apart u among)
        have place : nodes.map s.router = before.map s.router ++
            s.router (s.vrs entry).parent :: after.map s.router := by
          rw [split, List.map_append, List.map_cons]
        refine ⟨some (before.map s.router).length, ?_⟩
        simp only [Table.expire, table]
        rw [turns.flag, place, modify_length, VirtualRouter.elect, router_state, if_pos backup, split,
          List.map_append, List.map_cons, turns.here,
          List.map_congr_left fun u among => old u (List.mem_append_left _ among),
          List.map_congr_left fun u among => old u (List.mem_append_right _ among)]
      · refine ⟨none, ?_⟩
        simp only [Table.expire, table]
        rw [turns.flag, List.map_congr_left fun u among =>
          turns.others u among fun same => member (same ▸ among)]
    · refine ⟨none, ?_⟩
      rw [served]
      cases state : (s.ds (s.vrs entry).parent).state with
      | back => exact absurd state backup
      | mast | none | init => rfl

end Commands

/-! ## The simulation -/

/-- **Every operation of the daemon is one of the table**, with the same answer. -/
theorem simulation (w : World) : Simulation (steps w) (Table.steps w) Presents := by
  rintro s t op status s' ⟨nodes, linked, distinct, rfl⟩ returns
  obtain ⟨nodes', outcome⟩ := step_list linked (step_of_perform returns)
  have linked' := outcome.linked
  have distinct' : s'.DistinctAmong (·.isFull = true) nodes' :=
    distinctAmong_step outcome distinct fun inst s₁ v _ created full =>
      free_of_created linked full created
  have presents : s'.Presents (s'.table nodes') := ⟨nodes', linked', distinct', rfl⟩
  have plenty := Choice.possible_plenty w none
  refine ⟨s'.table nodes', ?_, presents⟩
  cases op with
  | command command =>
      obtain ⟨⟨ret, s₁⟩, processed, returns⟩ := bind_eq_ok.mp returns
      cases returns
      have answered : ∃ c : Choice, c.Possible w ∧
          (s.table nodes).answer c command = some (ret, s'.table nodes') := by
        cases command with
        | create inst => exact create_table linked distinct linked' processed
        | remove key => exact ⟨_, plenty, remove_table linked distinct linked' processed⟩
        | startup key =>
            rw [linked'.unique (linked.of_shape (shape_stable.startup processed))]
            exact ⟨_, plenty, startup_table linked distinct processed⟩
        | shutdown key =>
            rw [linked'.unique (linked.of_shape (shape_stable.shutdown processed))]
            exact ⟨_, plenty, shutdown_table linked distinct processed⟩
        | modify key pri delay preeMode acptMode =>
            rw [linked'.unique (linked.of_shape (vrrpSetInstProp_shape processed))]
            exact ⟨_, plenty, modify_table linked distinct processed⟩
      obtain ⟨c, possible, answered⟩ := answered
      refine ⟨c, possible, ?_⟩
      rw [Table.step, answered]
      rfl
  | frame af ifname frame =>
      obtain ⟨s₁, processed, returns⟩ := bind_eq_ok.mp returns
      cases returns
      rw [linked'.unique (linked.of_shape (shape_stable.frame processed))]
      refine ⟨_, plenty, ?_⟩
      rw [Table.step, frame_table linked distinct processed]
      rfl
  | alarm =>
      obtain ⟨s₁, processed, returns⟩ := bind_eq_ok.mp returns
      cases returns
      rw [linked'.unique (linked.of_shape (shape_stable.alarm processed))]
      obtain ⟨due, expired⟩ := alarm_table linked processed
      refine ⟨_, Choice.possible_plenty w due, ?_⟩
      rw [Table.step, expired]

/-- **The daemon refines the table.** Whatever requests, advertisements and alarms a daemon
handles from its start on, in any order, the table of virtual routers, empty at the start, can
handle too, with the same answers, and the daemon shows its routers. -/
theorem table_follows (w : World) (trace : List (Op × Option Int)) (s : Daemon)
    (run : Trace (steps w) initial trace s) :
    ∃ t, Trace (Table.steps w) .empty trace t ∧ s.Presents t :=
  (simulation w).trace presents_initial run

/-- A startup that is refused, one that is granted, and an alarm. -/
def someOps : List Op := [.startup 7, .create 7 100, .startup 7, .alarm, .hear 7 200, .shutdown 7]

/-- What they are answered with. -/
def someAnswers : List (Op × Option Int) :=
  someOps.zip [some 5, some 0, some 0, none, none, some 0]

theorem table_follows_some : ∃ (s : Daemon) (t : Table),
    Trace (Table.steps .plain) .empty someAnswers t ∧ s.Presents t := by
  have answered : passes (fun r => r.1 == someAnswers) (answers (perform .plain) someOps initial) =
      true := by decide
  obtain ⟨⟨trace, s⟩, ran, same⟩ := exists_of_passes answered
  cases eq_of_beq same
  exact ⟨s, table_follows .plain _ s (.of_answers .nil ran)⟩

/-! ## What is not in the table is not seen -/

/-- With memory for every request, all that is left open is which timer expires. -/
theorem settled {op : Op} (plenty : ∀ k, w.malloc k = true) (noAlarm : op ≠ .alarm) :
    Settled (Table.steps w) op := by
  rintro t status status' t₁ t₂ ⟨c, possible, one⟩ ⟨c', possible', two⟩
  have memory : ∀ c : Choice, c.Possible w → c.memory = true := by
    intro c possible
    by_contra short
    obtain ⟨k, fails⟩ := possible.memory (Bool.not_eq_true _ ▸ short)
    exact Bool.false_ne_true (fails.symm.trans (plenty k))
  have same : t.step c op = t.step c' op := by
    cases op with
    | alarm => exact absurd rfl noAlarm
    | frame af ifname frame => rfl
    | command command =>
        have answers : t.answer c command = t.answer c' command := by
          cases command with
          | create inst =>
              simp only [Table.answer, memory c possible, memory c' possible', possible.unassigned,
                possible'.unassigned]
          | remove | startup | shutdown | modify => rfl
        rw [Table.step, Table.step, answers]
  rw [one, two] at same
  cases same
  exact ⟨rfl, rfl⟩

/-- **A request for an instance is answered from the table**: it succeeds if the table has the
router that the cursor stands for. -/
theorem getInstx_table {target : Target} (linked : s.Linked nodes)
    (distinct : s.DistinctAmong (·.isFull = true) nodes)
    (returns : s.getInstxCommand target = .ok (ret, s')) :
    ret = (s.table nodes).lookup ⟨target.vid, some target.intf, target.af⟩ := by
  obtain ⟨⟨⟨status, implp⟩, after⟩, looked, returns⟩ := bind_eq_ok.mp returns
  have same : ret = status := by
    cases name : after.ifname with
    | none =>
        simp only [name] at returns
        cases returns
        rfl
    | some ifname =>
        simp only [name] at returns
        obtain ⟨copied, -, returns⟩ := bind_eq_ok.mp returns
        cases returns
        rfl
  rw [same]
  generalize (⟨target.vid, some target.intf, target.af⟩ : Key) = cursor at looked ⊢
  obtain ⟨found, stands, looked⟩ := bind_eq_ok.mp looked
  have present : (if cursor.isWildcard then (s.table nodes).routers.head?
      else (s.table nodes).find cursor).isSome = found.isSome := by
    rw [cursorInst] at stands
    split at stands
    · rename_i wildcard
      have segment := linked.doubly.1
      cases stands
      rw [if_pos wildcard]
      cases nodes with
      | nil =>
          rw [show s.next instRuntimeList = none from segment]
          rfl
      | cons first later =>
          rw [segment.1]
          rfl
    · rename_i given
      rw [if_neg given, linked.find_table distinct stands, Option.isSome_map]
  rw [Table.lookup, present]
  cases found with
  | none =>
      cases looked
      rfl
  | some v =>
      obtain ⟨name, -, looked⟩ := bind_eq_ok.mp looked
      cases behind : s.next v with
      | none | some n =>
          simp only [behind] at looked
          cases looked
          rfl

/-- **What is not in the table is not seen.** Two daemons show the same table, whatever has
happened to each of them: where their records are, which timers are queued and with which
remaining times, which processes run. They are sent the same requests and advertisements. As
long as both handle them, memory does not run out, no alarm comes in between, and the value
that `vrrp_state_i2m` returns unassigned is the same in both, they give the same answers, and
show the same table in the end. Requests for an instance, which change nothing, are answered
alike as well. -/
theorem same_answers (w w' : World) (plenty : ∀ k, w.malloc k = true)
    (plenty' : ∀ k, w'.malloc k = true) (unassigned : w'.uninitialised = w.uninitialised)
    (s₀ s₀' : Daemon) (t₀ : Table) (presents : s₀.Presents t₀) (presents' : s₀'.Presents t₀)
    (trace trace' : List (Op × Option Int)) (s s' : Daemon) (run : Trace (steps w) s₀ trace s)
    (run' : Trace (steps w') s₀' trace' s') (inputs : trace.map Prod.fst = trace'.map Prod.fst)
    (noAlarm : .alarm ∉ trace.map Prod.fst) :
    trace = trace' ∧ (∃ t, s.Presents t ∧ s'.Presents t) ∧
      ∀ target ret ret', s.getInstxCommand target = .ok (ret, s) →
        s'.getInstxCommand target = .ok (ret', s') → ret = ret' := by
  have possible : ∀ c : Choice, c.Possible w' → c.Possible w := fun c possible =>
    { memory := fun short => by
        obtain ⟨k, fails⟩ := possible.memory short
        exact absurd (plenty' k) (by simp [fails])
      unassigned := possible.unassigned.trans unassigned }
  have follows : Simulation (steps w') (Table.steps w) Presents := by
    intro s t op status s' presents returns
    obtain ⟨t', ⟨c, allowed, step⟩, presents'⟩ := simulation w' s t op status s' presents returns
    exact ⟨t', ⟨c, possible c allowed, step⟩, presents'⟩
  have alike : trace = trace' ∧ ∃ t, s.Presents t ∧ s'.Presents t := by
    refine (simulation w).same_outputs follows presents presents' run run' inputs ?_
    intro op member
    exact settled plenty fun same => noAlarm (same ▸ member)
  refine ⟨alike.1, alike.2, fun target ret ret' returns returns' => ?_⟩
  obtain ⟨t, ⟨nodes, linked, distinct, rfl⟩, nodes', linked', distinct', table⟩ := alike.2
  rw [getInstx_table linked distinct returns, getInstx_table linked' distinct' returns', table]

/-- A reachable daemon shows the table of its list. -/
theorem Reachable.presents (reachable : Reachable w s)
    (segment : Segment s.next (s.next instRuntimeList) nodes none) :
    s.Presents (s.table nodes) := by
  obtain ⟨listed, linked, distinct⟩ := reachable.fullKeysDistinct
  obtain rfl := linked.doubly.1.unique segment
  exact ⟨listed, linked, distinct, rfl⟩

/-- A world in which alarms are pending and processes have other pids. -/
def busyWorld : World := { World.plain with ualarm := fun _ => 5, fork := fun k => some (k + 100) }

/-- A router that is started and hears a better one. -/
def startAndHear : List Op := [.startup 7, .hear 7 200]

/-- One daemon creates a router. The other one has had another master before, and destroyed it.
From then on they are not told apart. -/
theorem same_answers_histories : ∃ s₀ s₀' : Daemon,
    Run (step .plain) unguarded initial [.create 7 100] s₀ ∧
    Run (step busyWorld) unguarded initial [.create 9 255, .remove 9, .create 7 100] s₀' ∧
    s₀.effects ≠ s₀'.effects ∧ ∃ trace trace' : List (Op × Option Int), ∃ s s' : Daemon,
      trace.map Prod.snd = [some 0, none] ∧ (s.ds 1).state = .back ∧
      (trace = trace' ∧ (∃ t, s.Presents t ∧ s'.Presents t) ∧
        ∀ target ret ret', s.getInstxCommand target = .ok (ret, s) →
          s'.getInstxCommand target = .ok (ret', s') → ret = ret') := by
  have ran : passes (fun s₀ => passes (fun s₀' =>
        s₀.next instRuntimeList == some 1 && s₀.next 1 == none &&
          s₀'.next instRuntimeList == some 2 && s₀'.next 2 == none &&
          s₀'.router 2 == s₀.router 1 &&
          (List.range 256).all (fun i => s₀'.flag (UInt8.ofNat i) == s₀.flag (UInt8.ofNat i)) &&
          s₀.effects == [] && s₀'.effects != [] &&
          passes (fun r => r.1.map Prod.fst == startAndHear && r.1.map Prod.snd == [some 0, none] &&
            (r.2.ds 1).state == .back) (answers (perform .plain) startAndHear s₀) &&
          passes (fun r => r.1.map Prod.fst == startAndHear)
            (answers (perform busyWorld) startAndHear s₀'))
      (exec (step busyWorld) [.create 9 255, .remove 9, .create 7 100] initial))
      (exec (step .plain) [.create 7 100] initial) = true := by decide +kernel
  obtain ⟨s₀, created, tested⟩ := exists_of_passes ran
  obtain ⟨s₀', created', tested⟩ := exists_of_passes tested
  simp only [Bool.and_eq_true, beq_iff_eq, bne_iff_ne, List.all_eq_true, List.mem_range] at tested
  obtain ⟨⟨⟨⟨⟨⟨⟨⟨⟨first, last⟩, first'⟩, last'⟩, same⟩, flags⟩, quiet⟩, busy⟩, ran⟩, ran'⟩ := tested
  obtain ⟨⟨trace, s⟩, ran, tested⟩ := exists_of_passes ran
  obtain ⟨⟨trace', s'⟩, ran', inputs'⟩ := exists_of_passes ran'
  simp only [Bool.and_eq_true, beq_iff_eq] at tested inputs'
  obtain ⟨⟨inputs, outputs⟩, yielded⟩ := tested
  have table : s₀'.table [2] = s₀.table [1] := by
    have heard : s₀'.flag = s₀.flag := funext fun x => by
      have own := flags x.toNat x.toNat_lt
      rwa [UInt8.ofNat_toNat] at own
    simp only [Daemon.table, List.map_cons, List.map_nil, same, heard]
  have run := run_of_exec created
  have run' := run_of_exec created'
  have presents : s₀.Presents (s₀.table [1]) :=
    Reachable.presents ⟨_, run⟩ (first ▸ ⟨rfl, last⟩)
  have presents' : s₀'.Presents (s₀.table [1]) :=
    table ▸ Reachable.presents ⟨_, run'⟩ (first' ▸ ⟨rfl, last'⟩)
  refine ⟨s₀, s₀', run, run', quiet ▸ Ne.symm busy, trace, trace', s, s', outputs, yielded, ?_⟩
  exact same_answers .plain busyWorld (fun _ => rfl) (fun _ => rfl) rfl s₀ s₀' (s₀.table [1])
    presents presents' trace trace' s s' (.of_answers .nil ran) (.of_answers .nil ran')
    (inputs.trans inputs'.symm) (by rw [inputs]; decide)

end Daemon

end VrrpDaemon
