import VrrpDaemon.Behaviour.Lan

/-!
# The attributes of instances over whole runs

`vrrp_create_inst` checks the advertisement interval and the number of
addresses, and nobody checks the priority. `vrrp_set_inst_prop` stores any
`int` as the interval, and the low byte of any `int` as the priority. The steps
of `RequestsValid` ask for values in range only.

`Configured` is the invariant of runs of such steps: the attributes of a listed
instance are in range, and its priority is the one asked for last.
-/

set_option autoImplicit false

namespace VrrpDaemon

open Machine

namespace Daemon

/-- The operation asks for a priority of the instance: a create that hands it
out, or a modification of it that passes the checks. -/
def AsksPri (w : World) (v : DsPtr) (entry : Daemon × Op × Daemon) (pri : Int) : Prop :=
  match entry.2.1 with
  | .command (.create inst) => Creates w entry.1 entry.2.1 v ∧ pri = inst.viVa.pri.toNat
  | .command (.modify key asked _ preeMode acptMode) =>
      entry.1.Modifies key preeMode acptMode v ∧ asked ≠ vrPropUnchange ∧ pri = asked
  | _ => False

/-- The values asked for are in range: a new instance has a priority other than
0, and a modification asks for a priority in 1..255 and a positive interval, or
leaves them as they are. -/
def RequestsValid (w : World) (s : Daemon) : Op → Prop
  | .command (.create inst) =>
      ∀ v, Creates w s (.command (.create inst)) v → inst.viVa.pri ≠ 0
  | .command (.modify key pri delay preeMode acptMode) =>
      ∀ v, s.Modifies key preeMode acptMode v →
        (pri = vrPropUnchange ∨ 1 ≤ pri ∧ pri ≤ 255) ∧ (delay = vrPropUnchange ∨ delay > 0)
  | _ => True

/-- Attributes in range. -/
structure InRange (record : VrrpdVrDs) : Prop where
  delay : record.attr.delay > 0
  addresses : record.vr.vrIpnum > 0
  pri : record.attr.pri ≠ 0

/-- What a history says about the attributes of the listed instances. -/
structure Configured (w : World) (past : List (Daemon × Op × Daemon)) (s : Daemon)
    (nodes : List DsPtr) : Prop where
  linked : s.Linked nodes
  valid : ∀ v ∈ nodes, InRange (s.vr v)
  asked : ∀ v ∈ nodes, Last (AsksPri w v) past (s.vrrpPri v).toNat

variable {w : World} {s s' : Daemon} {nodes : List DsPtr}

/-! ## The records of the listed instances -/

theorem vr_of_records (shape : s'.shape = s.shape) (records : s'.vrs = s.vrs) (v : DsPtr) :
    s'.vr v = s.vr v := by
  rw [vr, vr, records, vr_of_shape shape]

/-- A destroy leaves the records alone. -/
theorem vrrpDestroyInst_vr {key : Key} {ret : Int}
    (returns : s.vrrpDestroyInst w key = .ok (ret, s')) (v : DsPtr) : s'.vr v = s.vr v := by
  rcases vrrpDestroyInst_core returns with ⟨-, rfl⟩ | ⟨-, u, t, -, core, unlinked⟩
  · rfl
  · have shape : t.shape = s.shape := by rw [shape_of_core core, shape_stable.departed]
    have records : t.vrs = s.vrs := by rw [vrs_of_core core, vrs_stable.departed]
    obtain ⟨before, -, unlinked⟩ := bind_eq_ok.mp unlinked
    have same : s'.vr v = t.vr v := by
      dsimp only at unlinked
      split at unlinked <;> cases unlinked <;> rfl
    rw [same, vr_of_records shape records]

/-- **The operations other than create and modify leave the records alone.** -/
theorem step_vr {op : Op} (noCreate : ∀ inst, op ≠ .command (.create inst))
    (noModify : ∀ key pri delay preeMode acptMode,
      op ≠ .command (.modify key pri delay preeMode acptMode))
    (returns : step w op s = .ok s') (v : DsPtr) : s'.vr v = s.vr v := by
  cases op with
  | frame af ifname frame =>
      exact vr_of_records (shape_stable.frame returns) (vrs_stable.frame returns) v
  | alarm => exact vr_of_records (shape_stable.alarm returns) (vrs_stable.alarm returns) v
  | command command =>
      obtain ⟨⟨status, s₁⟩, processed, returns⟩ := bind_eq_ok.mp returns
      cases returns
      cases command with
      | create inst => exact absurd rfl (noCreate inst)
      | modify key pri delay preeMode acptMode =>
          exact absurd rfl (noModify key pri delay preeMode acptMode)
      | remove key => exact vrrpDestroyInst_vr processed v
      | startup key =>
          exact vr_of_records (shape_stable.startup processed) (vrs_stable.startup processed) v
      | shutdown key =>
          exact vr_of_records (shape_stable.shutdown processed) (vrs_stable.shutdown processed) v

/-! ## The step lemma -/

/-- A priority in 1..255 is stored as it is. -/
theorem ofInt_pri {pri : Int} (low : 1 ≤ pri) (high : pri ≤ 255) :
    ((UInt8.ofInt pri).toNat : Int) = pri := by
  rw [UInt8.ofInt, UInt8.toNat_ofNat']
  omega

theorem InRange.modified {record : VrrpdVrDs} {pri delay preeMode acptMode : Int}
    (valid : InRange record) (priValid : pri = vrPropUnchange ∨ 1 ≤ pri ∧ pri ≤ 255)
    (delayValid : delay = vrPropUnchange ∨ delay > 0) :
    InRange { record with attr := modifiedAttr record.attr pri delay preeMode acptMode } where
  delay := by
    show (modifiedAttr record.attr pri delay preeMode acptMode).delay > 0
    rw [modifiedAttr_delay]
    split
    · rename_i given
      exact delayValid.resolve_left given
    · exact valid.delay
  addresses := valid.addresses
  pri := by
    show (modifiedAttr record.attr pri delay preeMode acptMode).pri ≠ 0
    rw [modifiedAttr_pri]
    split
    · rename_i given
      obtain ⟨low, high⟩ := priValid.resolve_left given
      intro zero
      have stored := ofInt_pri low high
      rw [zero] at stored
      have none : ((0 : UInt8).toNat : Int) = 0 := rfl
      omega
    · exact valid.pri

/-- A step that leaves the records of the listed instances alone, lists no new
one and asks for nothing, keeps the invariant. -/
theorem Configured.keep {op : Op} {nodes' : List DsPtr} {past : List (Daemon × Op × Daemon)}
    (configured : Configured w past s nodes) (linked' : s'.Linked nodes')
    (subset : ∀ v ∈ nodes', v ∈ nodes) (records : ∀ v ∈ nodes', s'.vr v = s.vr v)
    (silent : ∀ v ∈ nodes', ∀ pri, ¬ AsksPri w v (s, op, s') pri) :
    Configured w (past ++ [(s, op, s')]) s' nodes' where
  linked := linked'
  valid v member := by
    rw [records v member]
    exact configured.valid v (subset v member)
  asked v member := by
    have same : s'.vrrpPri v = s.vrrpPri v := by rw [vrrpPri, vrrpPri, records v member]
    rw [same]
    exact (configured.asked v (subset v member)).still (silent v member)

/-- A create keeps the old instances, and lists a new one with the attributes it
was asked for. -/
theorem Configured.create {inst : VrrpInst} {ret : Int} {past : List (Daemon × Op × Daemon)}
    (configured : Configured w past s nodes)
    (valid : RequestsValid w s (.command (.create inst)))
    (returns : s.createCommand w inst = .ok (ret, s')) :
    ∃ nodes', Configured w (past ++ [(s, .command (.create inst), s')]) s' nodes' := by
  have linked := configured.linked
  rcases createCommand_outcome returns with
    ⟨status, failed, created, grows⟩ | ⟨s₁, created, link, started⟩
  · refine ⟨nodes, configured.keep (linked.of_grows grows) (fun _ member => member) ?_ ?_⟩
    · exact fun v member => (linked.records_of_grows grows member).2
    · rintro v - pri ⟨⟨inst', s₂, ⟨⟩, creates⟩, -⟩
      rw [created] at creates
      cases creates
  · obtain ⟨newRecord, oldRecord⟩ := linked.started_records link started
    obtain ⟨next, prev, before, after, rfl, rfl, inserted⟩ := linked.link link
    have new : Creates w s (.command (.create inst)) s.dsTop := ⟨inst, _, rfl, created⟩
    have only : ∀ v, Creates w s (.command (.create inst)) v → v = s.dsTop :=
      fun v creates => creates.unique new
    have shape := (started_shape started).1
    have checked : inst.viVa.delay > 0 ∧ inst.viVr.vrIpnum > 0 := by
      rcases vrrpCreateInst_outcome created with ⟨impossible, -⟩ | ⟨-, -, checked, -⟩
      · exact absurd rfl impossible
      · exact checked
    have members : ∀ v ∈ before ++ s.dsTop :: after, v = s.dsTop ∨ v ∈ before ++ after :=
      fun v member => List.mem_cons.mp (List.perm_middle.mem_iff.mp member)
    refine ⟨before ++ s.dsTop :: after, inserted.of_shape shape, ?_, ?_⟩
    · intro v member
      rcases members v member with rfl | old
      · rw [newRecord]
        exact ⟨checked.1, checked.2, valid _ new⟩
      · rw [oldRecord v old]
        exact configured.valid v old
    · intro v member
      rcases members v member with rfl | old
      · refine .now past ⟨new, ?_⟩
        rw [vrrpPri, newRecord]
      · rw [vrrpPri, oldRecord v old]
        refine (configured.asked v old).still ?_
        rintro pri ⟨creates, -⟩
        exact Nat.ne_of_lt (linked.allocated v old) (only v creates)

/-- A modification changes the instance its key selects, as it was asked to. -/
theorem Configured.modify {key : Key} {ret pri delay preeMode acptMode : Int}
    {past : List (Daemon × Op × Daemon)} (configured : Configured w past s nodes)
    (valid : RequestsValid w s (.command (.modify key pri delay preeMode acptMode)))
    (returns : s.vrrpSetInstProp w key pri delay preeMode acptMode = .ok (ret, s')) :
    Configured w (past ++ [(s, .command (.modify key pri delay preeMode acptMode), s')]) s'
      nodes := by
  have linked := configured.linked
  have linked' := linked.of_shape (vrrpSetInstProp_shape returns)
  rcases vrrpSetInstProp_core returns with ⟨-, rfl, refused⟩ | ⟨-, v, modifies, core⟩
  · exact configured.keep linked' (fun _ member => member) (fun _ _ => rfl)
      fun v _ pri asks => refused v asks.1
  · have memberV := linked.mem_of_search modifies.2.2
    have vrOf : ∀ u, (s'.ds u).vr = (s.ds u).vr := vr_of_shape (vrrpSetInstProp_shape returns)
    have own : s'.vr v =
        { s.vr v with attr := modifiedAttr (s.vr v).attr pri delay preeMode acptMode } := by
      rw [vr, vrOf, vrs_of_core core]
      exact Function.update_self ..
    have others : ∀ u ∈ nodes, u ≠ v → s'.vr u = s.vr u := by
      intro u memberU other
      have distinct : (s.ds u).vr ≠ (s.ds v).vr :=
        fun same => other (linked.vr_inj memberU memberV same)
      rw [vr, vrOf, vrs_of_core core]
      exact Function.update_of_ne distinct ..
    have only : ∀ u, s.Modifies key preeMode acptMode u → u = v := by
      intro u again
      cases again.2.2.symm.trans modifies.2.2
      rfl
    refine ⟨linked', fun u member => ?_, fun u member => ?_⟩
    · by_cases here : u = v
      · subst here
        obtain ⟨priValid, delayValid⟩ := valid u modifies
        rw [own]
        exact (configured.valid u member).modified priValid delayValid
      · rw [others u member here]
        exact configured.valid u member
    · by_cases here : u = v
      · subst here
        have priValid := (valid u modifies).1
        rw [vrrpPri, own, modifiedAttr_pri]
        split
        · rename_i given
          obtain ⟨low, high⟩ := priValid.resolve_left given
          exact .now past ⟨modifies, given, ofInt_pri low high⟩
        · rename_i kept
          exact (configured.asked u member).still fun other asks => kept asks.2.1
      · rw [vrrpPri, others u member here]
        exact (configured.asked u member).still fun other asks => here (only u asks.1)

/-- **Every step whose requests are in range keeps the invariant.** -/
theorem Configured.step {op : Op} {past : List (Daemon × Op × Daemon)}
    (configured : Configured w past s nodes) (valid : RequestsValid w s op)
    (returns : Daemon.step w op s = .ok s') :
    ∃ nodes', Configured w (past ++ [(s, op, s')]) s' nodes' := by
  obtain ⟨nodes', linked', change, -⟩ := step_list configured.linked returns
  have kept (noCreate : ∀ inst, op ≠ .command (.create inst))
      (noModify : ∀ key pri delay preeMode acptMode,
        op ≠ .command (.modify key pri delay preeMode acptMode)) :
      ∃ nodes', Configured w (past ++ [(s, op, s')]) s' nodes' := by
    refine ⟨nodes', configured.keep linked' ?_ (fun v _ => step_vr noCreate noModify returns v) ?_⟩
    · intro v member
      cases change with
      | keep => exact member
      | insert creates =>
          obtain ⟨inst, s₁, here, -⟩ := creates
          exact absurd here (noCreate inst)
      | erase => exact ((List.sublist_cons_self ..).append_left _).subset member
    · rintro v - pri asks
      cases op with
      | frame | alarm => exact asks
      | command command =>
          cases command with
          | create inst => exact noCreate inst rfl
          | modify key pri delay preeMode acptMode =>
              exact noModify key pri delay preeMode acptMode rfl
          | remove | startup | shutdown => exact asks
  cases op with
  | frame | alarm => exact kept (by simp) (by simp)
  | command command =>
      obtain ⟨⟨status, s₁⟩, processed, ended⟩ := bind_eq_ok.mp returns
      cases ended
      cases command with
      | create inst => exact configured.create valid processed
      | modify key pri delay preeMode acptMode => exact ⟨nodes, configured.modify valid processed⟩
      | remove | startup | shutdown => exact kept (by simp) (by simp)

/-! ## Whole runs -/

/-- A regular advertisement of an instance whose priority is not 0 is handed on
by every receiver. -/
theorem vrrpAdvCheck_vrrpBuildPkt {v : DsPtr} (given : s.vrrpPri v ≠ 0) {priority : Int}
    (regular : priority ≠ 0) (receiver : Daemon) :
    receiver.vrrpAdvCheck w (s.vrrpBuildPkt v priority) =
      .ok (some (s.vrrpBuildPkt v priority).inst, receiver.heard (s.vrrpBuildPkt v priority)) := by
  refine vrrpAdvCheck_regular rfl ?_
  show (if priority = 0 then 0 else s.vrrpPri v) ≠ 0
  rwa [if_neg regular]

/-- The run lemma, by induction along the history. -/
theorem configured_of_history {past : List (Daemon × Op × Daemon)}
    (history : History (Daemon.step w) (RequestsValid w) initial past s) :
    ∃ nodes, Configured w past s nodes := by
  induction history with
  | nil => exact ⟨[], linked_initial, by simp, by simp⟩
  | snoc _ allowed returns ih =>
      obtain ⟨nodes, configured⟩ := ih
      exact configured.step allowed returns

/-- **Attributes over runs with requests in range.** In every state that such a
run reaches, each listed instance has a positive advertisement interval, an
address, and a priority in 1..255, the one that was asked for last; and every
receiver takes its regular advertisements for what they are. -/
theorem attributes_of_run {w : World} {past : List (Daemon × Op × Daemon)} {s : Daemon}
    (history : History (step w) (RequestsValid w) initial past s) {v : DsPtr}
    (listed : s.Listed v) :
    s.vrrpDelay v > 0 ∧ (s.vr v).vr.vrIpnum > 0 ∧
      1 ≤ (s.vrrpPri v).toNat ∧ (s.vrrpPri v).toNat ≤ 255 ∧
      Last (AsksPri w v) past (s.vrrpPri v).toNat ∧
      ∀ (receiving : World) (receiver : Daemon) (priority : Int), priority ≠ 0 →
        receiver.vrrpAdvCheck receiving (s.vrrpBuildPkt v priority) =
          .ok (some (s.vrrpBuildPkt v priority).inst,
            receiver.heard (s.vrrpBuildPkt v priority)) := by
  obtain ⟨nodes, configured⟩ := configured_of_history history
  have member := configured.linked.listed_iff.mp listed
  obtain ⟨delay, addresses, pri⟩ := configured.valid v member
  have positive : (s.vrrpPri v).toNat ≠ 0 := fun zero => pri (UInt8.toNat_inj.mp zero)
  exact ⟨delay, addresses, Nat.one_le_iff_ne_zero.mpr positive,
    Nat.le_of_lt_succ (UInt8.toNat_lt _), configured.asked v member,
    fun receiving receiver priority regular => vrrpAdvCheck_vrrpBuildPkt pri regular receiver⟩

/-- An instance is created with priority 100 and modified to priority 50. -/
theorem attributes_of_run_modified :
    ∃ past s, History (step .plain) (RequestsValid .plain) initial past s ∧ s.Listed 1 ∧
      past.map (fun entry => entry.2.1) =
        [.create 7 100, .command (.modify (.sample 7) 50 (-1) (-1) (-1))] ∧
      Last (AsksPri .plain 1) past 50 := by
  let modify : Op := .command (.modify (.sample 7) 50 (-1) (-1) (-1))
  have ran : passes (fun s₁ => passes (fun s => s.next instRuntimeList == some 1 &&
      s.next 1 == none && s.vrrpPri 1 == 50) (step .plain modify s₁))
      (step .plain (.create 7 100) initial) = true := by decide +kernel
  obtain ⟨s₁, created, tested⟩ := exists_of_passes ran
  obtain ⟨s, modified, tested⟩ := exists_of_passes tested
  simp only [Bool.and_eq_true, beq_iff_eq] at tested
  obtain ⟨⟨first, last⟩, pri⟩ := tested
  have run : Run (step .plain) (RequestsValid .plain) initial [.create 7 100, modify] s :=
    .snoc (.snoc .nil (fun _ _ => by decide) created)
      (fun _ _ => ⟨.inr (by decide), .inl rfl⟩) modified
  obtain ⟨past, history, same⟩ := run.history
  have listed : s.Listed 1 := ⟨[1], ⟨first, last⟩, List.mem_singleton_self 1⟩
  have asked := (attributes_of_run history listed).2.2.2.2.1
  rw [pri] at asked
  exact ⟨past, s, history, listed, same, asked⟩

/-- **A modification stores priority 256 as 0**, and then every receiver takes a
regular advertisement of the instance for that of a master going down. -/
theorem attributes_modified_away :
    ∃ s, Run (step .plain) unguarded initial
        [.create 7 100, .command (.modify (.sample 7) 256 (-5) (-1) (-1))] s ∧
      s.Listed 1 ∧ s.vrrpPri 1 = 0 ∧ s.vrrpDelay 1 = -5 ∧
        ¬ ∃ handed, s.vrrpAdvCheck .plain (s.vrrpBuildPkt 1 1) =
          .ok (some handed, s.heard (s.vrrpBuildPkt 1 1)) := by
  have ran : passes (fun s => s.next instRuntimeList == some 1 && s.next 1 == none &&
      s.vrrpPri 1 == 0 && s.vrrpDelay 1 == -5 &&
        passes (fun reply => reply.1 == none) (s.vrrpAdvCheck .plain (s.vrrpBuildPkt 1 1)))
      (exec (step .plain) [.create 7 100, .command (.modify (.sample 7) 256 (-5) (-1) (-1))]
        initial) = true := by decide +kernel
  obtain ⟨s, returns, tested⟩ := exists_of_passes ran
  simp only [Bool.and_eq_true, beq_iff_eq] at tested
  obtain ⟨⟨⟨⟨first, last⟩, pri⟩, delay⟩, checked⟩ := tested
  refine ⟨s, run_of_exec returns, ⟨[1], ⟨first, last⟩, List.mem_singleton_self 1⟩, pri, delay, ?_⟩
  rintro ⟨handed, impossible⟩
  obtain ⟨reply, answered, none⟩ := exists_of_passes checked
  cases answered.symm.trans impossible
  cases none

end Daemon

end VrrpDaemon
