import VrrpDaemon.Behaviour.Destruction
import VrrpDaemon.Properties.DatagramBounds

/-!
# The status of a reply

A reply tells the truth when its status is one of `vrrp_ret_t`, when
`VRRP_SUCCESS` stands for a request that took effect, and when any other status
stands for one that changed nothing. Four things stand in the way
(`truthful_iff`): the macro `vrrp_check` answers with the `EINVAL` of
`errno.h`; `vrrp_state_i2m` answers with a local that it never assigns;
`vrrp_set_inst_prop` stores a byte of a priority that does not fit one; and a
request may not be answered at all, because it faults on its way, or signals the
daemon's own process group.
-/

set_option autoImplicit false

namespace VrrpDaemon

open Machine

namespace Daemon

/-! ## What a status claims -/

/-- The attributes are as a modification asks for them: the values given, and the
old ones where `VR_PROP_UNCHANGE` stands. -/
structure StoredAs (old new : VrrpAttr) (pri delay preeMode acptMode : Int) : Prop where
  pri : (new.pri.toNat : Int) = if pri = vrPropUnchange then (old.pri.toNat : Int) else pri
  delay : new.delay = if delay = vrPropUnchange then old.delay else delay
  preeMode : new.preeMode = if preeMode = vrPropUnchange then old.preeMode else preeMode
  acceptMode : new.acceptMode = if acptMode = vrPropUnchange then old.acceptMode else acptMode

/-- Between the two states the request took effect: the instance asked for is new
in the list, and a master if its priority is 255; the one selected is in the list
no longer, runs or has stopped, or has the attributes asked for. An enumeration
has an instance to hand out. -/
def TookEffect (s s' : Daemon) : Request → Prop
  | .command (.create inst) => ∃ v, ¬ s.Listed v ∧ s'.Listed v ∧ s'.key v = inst.key ∧
      (s'.vr v).attr = inst.viVa ∧ (inst.viVa.pri = 255 → (s'.ds v).state = .mast)
  | .command (.remove key) => ∃ v, s.vrrpSearchInst key = .ok (some v) ∧ ¬ s'.Listed v
  | .command (.startup key) => ∃ v, s.vrrpSearchInst key = .ok (some v) ∧
      (s.ds v).state = .init ∧ (s'.ds v).state.running = true
  | .command (.shutdown key) => ∃ v, s.vrrpSearchInst key = .ok (some v) ∧
      (s.ds v).state.running = true ∧ (s'.ds v).state = .init
  | .command (.modify key pri delay preeMode acptMode) => ∃ v,
      s.vrrpSearchInst key = .ok (some v) ∧
        StoredAs (s.vr v).attr (s'.vr v).attr pri delay preeMode acptMode
  | .getInstx target => ∃ v, s.cursorInst ⟨target.vid, some target.intf, target.af⟩ = .ok (some v)
  | .other => False

/-- The status tells what happened between the two states. A daemon that only
grows has the list, the states, the attributes and the queue that it had. -/
structure ReplyTells (s s' : Daemon) (request : Request) (ret : Int) : Prop where
  status : ∃ status : VrrpRet, ret = status.code
  success_iff : ret = VrrpRet.success.code ↔ s.TookEffect s' request
  unchanged : ret ≠ VrrpRet.success.code → s.Grows s'

/-- The request is answered, and the status tells what happened. -/
def Truthful (w : World) (request : Request) (s : Daemon) : Prop :=
  ∃ ret s', s.respond w request = .ok (ret, s') ∧ s.ReplyTells s' request ret

/-- The condition on a request. The checks of `vrrp_check` pass, a priority that is
to be stored fits a byte, a destroy selects an instance, a name that is handed
out leaves room for its NUL, the queue can be edited as the request asks for, and
the local that `vrrp_state_i2m` returns happens to be 0. -/
def Honest (w : World) (s : Daemon) : Request → Prop
  | .command (.create inst) => inst.viVa.delay > 0 ∧ inst.viVr.vrIpnum > 0 ∧
      (inst.viVa.pri = 255 → s.copiesVrIp w inst = true →
        w.uninitialised = VrrpRet.success.code ∧
          ((s.withInst inst).q.setTimeout s.vrTop
            (toTimeout (vrrpSec2usec inst.viVa.delay))).Admits w (s.vrTop + 1) s.vrTop)
  | .command (.remove key) => key.af = afInet ∧ ∃ v, s.vrrpSearchInst key = .ok (some v) ∧
      (key.vid ≠ 0 → s.q.Removable (s.ds v).vr) ∧ s.Outlives key v
  | .command (.startup key) => key.af = afInet ∧ key.vid ≠ 0 ∧
      ∀ v, s.vrrpSearchInst key = .ok (some v) → (s.ds v).state = .init →
        s.q.Enters w s.vrTop (s.ds v).vr (s.advTimeout v) (s.anyMasterUp = 0)
  | .command (.shutdown key) => key.af = afInet ∧ key.vid ≠ 0 ∧
      ∀ v, s.vrrpSearchInst key = .ok (some v) → (s.ds v).state.running = true →
        s.q.Removable (s.ds v).vr ∧ ((s.ds v).state = .mast → (s.ds v).pid ≠ 0)
  | .command (.modify key pri delay preeMode acptMode) =>
      modeGiven preeMode = true ∧ modeGiven acptMode = true ∧
        ∀ v, s.vrrpSearchInst key = .ok (some v) →
          (pri = vrPropUnchange ∨ 0 ≤ pri ∧ pri ≤ 255) ∧
          (delay ≠ vrPropUnchange → QueueGiven key →
            ¬ (s.q.qnext (s.ds v).vr = none ∧ s.q.qprev (s.ds v).vr = none) →
              (s.setAttr (s.ds v).vr (withDelay (withPri (s.vr v).attr pri) delay)).Retimes w v)
  | .getInstx target => ∀ v n,
      s.cursorInst ⟨target.vid, some target.intf, target.af⟩ = .ok (some v) → s.next v = some n →
        (s.vrrpIfname n).bytes.length < lifnamsiz
  | .other => True

variable {w : World} {s s' : Daemon} {nodes : List DsPtr} {key : Key} {request : Request}

/-! ## Answers -/

theorem truthful_iff_of_eq {ret : Int} (answer : s.respond w request = .ok (ret, s')) :
    s.Truthful w request ↔ s.ReplyTells s' request ret := by
  simp only [Truthful, answer, Except.ok.injEq, Prod.mk.injEq]
  constructor
  · rintro ⟨ret, s', ⟨rfl, rfl⟩, tells⟩
    exact tells
  · exact fun tells => ⟨ret, s', ⟨rfl, rfl⟩, tells⟩

/-- The `EINVAL` of `errno.h` is no `vrrp_ret_t`. -/
theorem not_truthful_errno (answer : s.respond w request = .ok (errnoEinval, s')) :
    ¬ s.Truthful w request := by
  rw [truthful_iff_of_eq answer]
  rintro ⟨⟨status, same⟩, -, -⟩
  cases status <;> exact absurd same (by decide)

/-- A request that faults is not answered. -/
theorem not_truthful_fault {fault : Fault} (faults : s.respond w request = .error fault) :
    ¬ s.Truthful w request := by
  rintro ⟨ret, s', answer, -⟩
  cases faults.symm.trans answer

/-- An enumerator of a failure, when nothing happened. -/
theorem truthful_refused (status : VrrpRet) (failed : status ≠ .success)
    (answer : s.respond w request = .ok (status.code, s')) (none : ¬ s.TookEffect s' request)
    (grows : s.Grows s') : s.Truthful w request := by
  refine (truthful_iff_of_eq answer).mpr ⟨⟨status, rfl⟩, ?_, fun _ => grows⟩
  refine iff_of_false (fun success => failed ?_) none
  cases status <;> first | rfl | cases success

/-- A request that is answered with `VRRP_SUCCESS`. -/
theorem truthful_success (answer : s.respond w request = .ok (VrrpRet.success.code, s')) :
    s.Truthful w request ↔ s.TookEffect s' request := by
  refine (truthful_iff_of_eq answer).trans ⟨fun tells => tells.success_iff.mp rfl, fun took => ?_⟩
  exact ⟨⟨.success, rfl⟩, iff_of_true rfl took, fun failed => absurd rfl failed⟩

/-- A request that takes effect if it returns, and is then answered with
`VRRP_SUCCESS`. -/
theorem truthful_iff_returns {run : Result Daemon}
    (answer : s.respond w request = (do
      let s ← run
      return (VrrpRet.success.code, s)))
    (effect : ∀ s', run = .ok s' → s.TookEffect s' request) :
    s.Truthful w request ↔ ∃ s', run = .ok s' := by
  constructor
  · rintro ⟨ret, s', returns, -⟩
    rw [answer] at returns
    obtain ⟨s₁, ran, -⟩ := bind_eq_ok.mp returns
    exact ⟨s₁, ran⟩
  · rintro ⟨s', ran⟩
    have returns : s.respond w request = .ok (VrrpRet.success.code, s') := by
      rw [answer, ran]
      rfl
    refine (truthful_iff_of_eq returns).mpr ⟨⟨.success, rfl⟩, ?_, fun failed => absurd rfl failed⟩
    exact iff_of_true rfl (effect s' ran)

/-! ## Startup and shutdown -/

theorem vrrpStateI2b_running {v : DsPtr} (returns : s.vrrpStateI2b w v = .ok s') :
    (s'.ds v).state.running = true := by
  have core := vrrpStateI2b_core returns
  split at core
  · rw [ds_of_core core, state_promote_self]
    rfl
  · rw [ds_of_core core, setState_ds_self]
    rfl

/-- **A command with the key of a running instance.** It is refused with the `EINVAL` of
`errno.h` for another family and for VRID 0, and with an enumerator when no instance is
selected. So what is left to ask is what the selected instance needs. -/
theorem truthful_keyed_iff {command : Command} {fits : DsPtr → Prop} (linked : s.Linked nodes)
    (family : key.af ≠ afInet → s.respond w (.command command) = .ok (errnoEinval, s))
    (given : key.af = afInet → key.vid = 0 →
      s.respond w (.command command) = .ok (errnoEinval, s))
    (missing : key.af = afInet → key.vid > 0 → s.vrrpSearchInst key = .ok none →
      s.respond w (.command command) = .ok (VrrpRet.enoinst.code, s))
    (effect : s.TookEffect s (.command command) → ∃ v, s.vrrpSearchInst key = .ok (some v))
    (found : ∀ v, key.af = afInet → key.vid > 0 → s.vrrpSearchInst key = .ok (some v) →
      (s.Truthful w (.command command) ↔ fits v)) :
    s.Truthful w (.command command) ↔ key.af = afInet ∧ key.vid ≠ 0 ∧
      ∀ v, s.vrrpSearchInst key = .ok (some v) → fits v := by
  by_cases inet : key.af = afInet
  · by_cases zero : key.vid = 0
    · simp [not_truthful_errno (given inet zero), zero]
    · have positive : key.vid > 0 := UInt8.pos_iff_ne_zero.mpr zero
      cases selected : s.select key nodes with
      | none =>
          have searched := (linked.search key).trans (congrArg Except.ok selected)
          have refused : s.Truthful w (.command command) := by
            refine truthful_refused .enoinst (by decide) (missing inet positive searched) ?_ (.refl s)
            intro took
            obtain ⟨v, other⟩ := effect took
            cases searched.symm.trans other
          refine iff_of_true refused ⟨inet, zero, fun v other => ?_⟩
          cases searched.symm.trans other
      | some v =>
          have searched := (linked.search key).trans (congrArg Except.ok selected)
          simp only [found v inet positive searched, inet, ne_eq, zero, not_false_eq_true, true_and,
            searched, Except.ok.injEq, Option.some.injEq, forall_eq']
  · simp [not_truthful_errno (family inet), inet]

theorem truthful_startup_iff (linked : s.Linked nodes) :
    s.Truthful w (.command (.startup key)) ↔ s.Honest w (.command (.startup key)) := by
  refine truthful_keyed_iff linked ?_ ?_ ?_ ?_ ?_
  · intro family
    simp [respond, processCommand, vrrpStartupInst, family]
  · intro family given
    simp [respond, processCommand, vrrpStartupInst, family, given]
  · intro family positive searched
    simp [respond, processCommand, vrrpStartupInst, family, positive, searched]
  · rintro ⟨v, searched, -⟩
    exact ⟨v, searched⟩
  · intro v family positive searched
    by_cases idle : (s.ds v).state = .init
    · have answer : s.respond w (.command (.startup key)) = (do
          let s ← s.vrrpStateI2b w v
          return (VrrpRet.success.code, s)) :=
        vrrpStartupInst_idle family (UInt8.pos_iff_ne_zero.mp positive) searched idle
      simp only [idle, forall_const, ← vrrpStateI2b_returns_iff]
      refine truthful_iff_returns answer fun s' started => ?_
      exact ⟨v, searched, idle, vrrpStateI2b_running started⟩
    · simp only [idle, false_implies, iff_true]
      refine truthful_refused .einval (by decide) ?_ ?_ (.refl s)
      · simp [respond, processCommand, vrrpStartupInst, family, positive, searched, idle]
      · rintro ⟨u, found, here, -⟩
        cases searched.symm.trans found
        exact idle here

/-- The answer to a shutdown, by the state of the instance. -/
theorem respond_shutdown {v : DsPtr} (family : key.af = afInet) (positive : key.vid > 0)
    (searched : s.vrrpSearchInst key = .ok (some v)) :
    s.respond w (.command (.shutdown key)) =
      match (s.ds v).state with
      | .mast => (do
          let s ← s.vrrpStateM2i w v
          return (VrrpRet.success.code, s))
      | .back => (do
          let s ← s.vrrpStateB2i v
          return (VrrpRet.success.code, s))
      | .none | .init => .ok (VrrpRet.einval.code, s) := by
  simp only [respond, processCommand, vrrpShutdownInst, family, positive, searched,
    not_true_eq_false, reduceIte, ok_bind]
  rfl

theorem truthful_shutdown_iff (linked : s.Linked nodes) :
    s.Truthful w (.command (.shutdown key)) ↔ s.Honest w (.command (.shutdown key)) := by
  refine truthful_keyed_iff linked ?_ ?_ ?_ ?_ ?_
  · intro family
    simp [respond, processCommand, vrrpShutdownInst, family]
  · intro family given
    simp [respond, processCommand, vrrpShutdownInst, family, given]
  · intro family positive searched
    simp [respond, processCommand, vrrpShutdownInst, family, positive, searched]
  · rintro ⟨v, searched, -⟩
    exact ⟨v, searched⟩
  · intro v family positive searched
    have answer := @respond_shutdown w s key v family positive searched
    have effect : ∀ s', (s.ds v).state.running = true → (s'.ds v).state = .init →
        s.TookEffect s' (.command (.shutdown key)) :=
      fun s' runs stopped => ⟨v, searched, runs, stopped⟩
    have idle : (s.ds v).state.running = false →
        ¬ s.TookEffect s (.command (.shutdown key)) := by
      rintro stopped ⟨u, found, runs, -⟩
      cases searched.symm.trans found
      rw [stopped] at runs
      cases runs
    cases state : (s.ds v).state with
    | mast =>
        rw [state] at answer effect
        simp only [VrrpState.running, forall_const]
        refine (truthful_iff_returns answer fun s' stopped => effect s' rfl ?_).trans
          vrrpStateM2i_returns_iff
        rw [ds_of_core (vrrpStateM2i_core stopped), state_leave_self]
    | back =>
        rw [state] at answer effect
        simp only [VrrpState.running, forall_const, reduceCtorEq, false_implies, and_true]
        refine (truthful_iff_returns answer fun s' stopped => effect s' rfl ?_).trans
          vrrpStateB2i_returns_iff
        rw [ds_of_core (vrrpStateB2i_core stopped), setState_ds_self]
    | none | init =>
        rw [state] at answer idle
        simp only [VrrpState.running, Bool.false_eq_true, false_implies, iff_true]
        exact truthful_refused .einval (by decide) answer (idle rfl) (.refl s)

/-! ## Enumeration and the rest -/

theorem truthful_other : s.Truthful w .other :=
  truthful_refused .evrip (by decide) rfl id (.refl s)

theorem Linked.cursor (linked : s.Linked nodes) (cursor : Key) :
    ∃ found, s.cursorInst cursor = .ok found := by
  unfold cursorInst
  split
  · exact ⟨_, rfl⟩
  · exact ⟨_, linked.search cursor⟩

theorem truthful_getInstx_iff {target : Target} (linked : s.Linked nodes)
    (short : target.intf.bytes.length < lifnamsiz) :
    s.Truthful w (.getInstx target) ↔ s.Honest w (.getInstx target) := by
  obtain ⟨found, stands⟩ := linked.cursor ⟨target.vid, some target.intf, target.af⟩
  simp only [Honest, stands, Except.ok.injEq]
  cases found with
  | none =>
      simp only [reduceCtorEq, false_implies, implies_true, iff_true]
      refine truthful_refused .enoinst (by decide) ?_ ?_ (.refl s)
      · simp only [respond, getInstxCommand, vrrpGetInstx, stands, ok_bind, pure_eq_ok,
          Ifname.strcpy, short, reduceIte]
      · rintro ⟨v, handed⟩
        cases stands.symm.trans handed
  | some v =>
      have effect : s.TookEffect s (.getInstx target) := ⟨v, stands⟩
      have answered : s.respond w (.getInstx target) = .ok (VrrpRet.success.code, s) →
          s.Truthful w (.getInstx target) := fun answer =>
        (truthful_iff_of_eq answer).mpr
          ⟨⟨.success, rfl⟩, iff_of_true rfl effect, fun _ => .refl s⟩
      simp only [Option.some.injEq]
      cases behind : s.next v with
      | none =>
          have answer : s.respond w (.getInstx target) = .ok (VrrpRet.success.code, s) := by
            simp only [respond, getInstxCommand, vrrpGetInstx, stands, ok_bind, deref_some, behind,
              pure_eq_ok, Key.wildcard, Ifname.strcpy]
            rfl
          refine iff_of_true (answered answer) ?_
          rintro u n rfl next
          cases behind.symm.trans next
      | some n =>
          by_cases fits : (s.vrrpIfname n).bytes.length < lifnamsiz
          · have answer : s.respond w (.getInstx target) = .ok (VrrpRet.success.code, s) := by
              simp only [respond, getInstxCommand, vrrpGetInstx, stands, ok_bind, deref_some, behind,
                pure_eq_ok, key, Ifname.strcpy, fits, reduceIte]
            refine iff_of_true (answered answer) ?_
            rintro u n' rfl next
            cases behind.symm.trans next
            exact fits
          · have overruns : s.respond w (.getInstx target) = .error .overflow := by
              simp only [respond, getInstxCommand, vrrpGetInstx, stands, ok_bind, deref_some, behind,
                pure_eq_ok, key, Ifname.strcpy, fits, reduceIte, error_bind]
            refine iff_of_false (not_truthful_fault overruns) fun honest => ?_
            exact fits (honest v n rfl behind)

/-! ## Modification -/

theorem ofInt_toNat_iff {pri : Int} :
    ((UInt8.ofInt pri).toNat : Int) = pri ↔ 0 ≤ pri ∧ pri ≤ 255 := by
  rw [UInt8.ofInt, UInt8.toNat_ofNat']
  omega

/-- What a modification stores is what was asked for, unless the priority does not
fit a byte. -/
theorem storedAs_iff {old : VrrpAttr} {pri delay preeMode acptMode : Int}
    (preempt : modeGiven preeMode = true) (accept : modeGiven acptMode = true) :
    StoredAs old (modifiedAttr old pri delay preeMode acptMode) pri delay preeMode acptMode ↔
      (pri = vrPropUnchange ∨ 0 ≤ pri ∧ pri ≤ 255) := by
  constructor
  · intro stored
    by_cases kept : pri = vrPropUnchange
    · exact .inl kept
    · have byte := stored.pri
      rw [modifiedAttr_pri, if_pos kept, if_neg kept] at byte
      exact .inr (ofInt_toNat_iff.mp byte)
  · intro fits
    refine ⟨?_, ?_, ?_, ?_⟩
    · rw [modifiedAttr_pri]
      by_cases kept : pri = vrPropUnchange
      · simp [kept]
      · rw [if_pos kept, if_neg kept]
        exact ofInt_toNat_iff.mpr (fits.resolve_left kept)
    · rw [modifiedAttr_delay]
      by_cases kept : delay = vrPropUnchange
      · simp [kept]
      · rw [if_pos kept, if_neg kept]
    · rw [modifiedAttr_preeMode]
      exact newMode_eq preempt
    · rw [modifiedAttr_acceptMode]
      exact newMode_eq accept

/-- The change of the interval returns when it is none, or when the VR can be
requeued with the new attributes. -/
theorem changeDelay_returns_iff {v : DsPtr} {pri delay : Int} (linked : s.Linked nodes)
    (searched : s.vrrpSearchInst key = .ok (some v)) :
    (∃ s', (s.changePri (s.ds v).vr pri).changeDelay w key (s.ds v).vr delay = .ok s') ↔
      (delay ≠ vrPropUnchange → QueueGiven key →
        ¬ (s.q.qnext (s.ds v).vr = none ∧ s.q.qprev (s.ds v).vr = none) →
          (s.setAttr (s.ds v).vr (withDelay (withPri (s.vr v).attr pri) delay)).Retimes w v) := by
  by_cases kept : delay = vrPropUnchange
  · simp [changeDelay, kept]
  · have stored : (s.changePri (s.ds v).vr pri).setAttr (s.ds v).vr
        { ((s.changePri (s.ds v).vr pri).vrs (s.ds v).vr).attr with delay := delay } =
          s.setAttr (s.ds v).vr (withDelay (withPri (s.vr v).attr pri) delay) := by
      rw [changePri_eq, setAttr_setAttr, setAttr_vrs, withDelay, if_pos kept]
      rfl
    simp only [changeDelay, kept, ne_eq, not_false_eq_true, reduceIte, forall_const, stored]
    generalize withDelay (withPri (s.vr v).attr pri) delay = attr
    have shape : ((s.setAttr (s.ds v).vr attr).onQueue (·.lock)).shape = s.shape :=
      (shape_onQueue _ _).trans (shape_setAttr _ _ _)
    have again : ((s.setAttr (s.ds v).vr attr).onQueue (·.lock)).vrrpSearchInst key =
        .ok (some v) := (linked.search_congr shape key).trans searched
    have requeues : (∃ s', ((s.setAttr (s.ds v).vr attr).onQueue (·.lock)).requeue w key =
        .ok s') ↔ _ := (linked.of_shape shape).requeue_returns_iff
    simp only [again, Except.ok.injEq, Option.some.injEq, forall_eq'] at requeues
    have unlocked : ((s.setAttr (s.ds v).vr attr).onQueue (·.lock)).Retimes w v ↔
        (s.setAttr (s.ds v).vr attr).Retimes w v := TimerQueue.requeues_note .lock _
    rw [unlocked] at requeues
    exact bind_returns_iff.trans requeues

/-- **A modification tells the truth** when its modes are given, its priority fits a
byte, and its timer can be set. -/
theorem truthful_modify_iff {pri delay preeMode acptMode : Int} (linked : s.Linked nodes) :
    s.Truthful w (.command (.modify key pri delay preeMode acptMode)) ↔
      s.Honest w (.command (.modify key pri delay preeMode acptMode)) := by
  simp only [Honest]
  cases preempt : modeGiven preeMode with
  | false =>
      have refused : s.respond w (.command (.modify key pri delay preeMode acptMode)) =
          .ok (errnoEinval, s) := by
        simp [respond, processCommand, vrrpSetInstProp, preempt]
      simp [not_truthful_errno refused]
  | true =>
      cases accept : modeGiven acptMode with
      | false =>
          have refused : s.respond w (.command (.modify key pri delay preeMode acptMode)) =
              .ok (errnoEinval, s) := by
            simp [respond, processCommand, vrrpSetInstProp, preempt, accept]
          simp [not_truthful_errno refused]
      | true =>
          simp only [true_and, linked.search, Except.ok.injEq]
          cases selected : s.select key nodes with
          | none =>
              have searched := (linked.search key).trans (congrArg Except.ok selected)
              simp only [reduceCtorEq, false_implies, implies_true, iff_true]
              refine truthful_refused .enoinst (by decide) ?_ ?_ (.refl s)
              · simp [respond, processCommand, vrrpSetInstProp, preempt, accept, searched]
              · rintro ⟨v, found, -⟩
                cases searched.symm.trans found
          | some v =>
              have searched := (linked.search key).trans (congrArg Except.ok selected)
              have modifies : s.Modifies key preeMode acptMode v := ⟨preempt, accept, searched⟩
              have answer : s.respond w (.command (.modify key pri delay preeMode acptMode)) = (do
                  let s₁ ← (s.changePri (s.ds v).vr pri).changeDelay w key (s.ds v).vr delay
                  return (VrrpRet.success.code,
                    s₁.changeModes (s.ds v).vr preeMode acptMode)) := by
                simp [respond, processCommand, vrrpSetInstProp, preempt, accept, searched]
              simp only [Option.some.injEq, forall_eq', ← changeDelay_returns_iff linked searched]
              constructor
              · rintro ⟨ret, s', returns, tells⟩
                have attr := vrrpSetInstProp_attr modifies returns
                rw [answer] at returns
                obtain ⟨s₁, changed, same⟩ := bind_eq_ok.mp returns
                cases same
                obtain ⟨u, found, stored⟩ := tells.success_iff.mp rfl
                cases searched.symm.trans found
                rw [attr, storedAs_iff preempt accept] at stored
                exact ⟨stored, s₁, changed⟩
              · rintro ⟨fits, s₁, changed⟩
                have returns := answer.trans (bind_eq_ok.mpr ⟨s₁, changed, rfl⟩)
                refine (truthful_success returns).mpr ⟨v, searched, ?_⟩
                rw [vrrpSetInstProp_attr modifies returns, storedAs_iff preempt accept]
                exact fits

/-! ## Destruction -/

/-- **A destroy tells the truth** when it selects an instance whose VR can be taken
out of the queue. -/
theorem truthful_remove_iff (linked : s.Linked nodes) :
    s.Truthful w (.command (.remove key)) ↔ s.Honest w (.command (.remove key)) := by
  simp only [Honest]
  by_cases family : key.af = afInet
  · cases selected : s.select key nodes with
    | none =>
        have searched := (linked.search key).trans (congrArg Except.ok selected)
        have faults : s.respond w (.command (.remove key)) = .error .nullDeref := by
          simp [respond, processCommand, vrrpDestroyInst, family, searched]
        simp [not_truthful_fault faults, searched]
    | some v =>
        have searched := (linked.search key).trans (congrArg Except.ok selected)
        have member := select_mem selected
        have removed : s.Truthful w (.command (.remove key)) ↔ _ :=
          truthful_iff_returns (vrrpDestroyInst_selected family searched) fun s' returns => by
            obtain ⟨t, left, unlinked⟩ := bind_eq_ok.mp returns
            have still := linked.of_shape (leaveQueue_shape left)
            obtain ⟨next, prev, before, after, rfl, rfl, shorter⟩ := still.unlink member unlinked
            refine ⟨v, searched, ?_⟩
            rw [shorter.listed_iff, List.mem_append, not_or]
            have alone := List.nodup_middle.mp linked.nodup
            exact not_or.mp (mt List.mem_append.mpr (List.nodup_cons.mp alone).1)
        have leaves : (∃ t, s.leaveQueue w key v = .ok t) ↔ _ :=
          leaveQueue_returns_iff linked family searched
        simp only [family, true_and, searched, Except.ok.injEq, Option.some.injEq, exists_eq_left',
          ← leaves]
        refine removed.trans ⟨?_, ?_⟩
        · rintro ⟨s', returns⟩
          obtain ⟨t, left, -⟩ := bind_eq_ok.mp returns
          exact ⟨t, left⟩
        · rintro ⟨t, left⟩
          obtain ⟨s', unlinked⟩ := (linked.of_shape (leaveQueue_shape left)).exists_unlinkInst member
          exact ⟨s', bind_eq_ok.mpr ⟨t, left, unlinked⟩⟩
  · have refused : s.respond w (.command (.remove key)) = .ok (errnoEinval, s) := by
      simp [respond, processCommand, vrrpDestroyInst, family]
    simp [not_truthful_errno refused, family]

/-! ## Creation -/

/-- A create that copies its addresses goes on to link the instance. -/
theorem vrrpCreateInst_copies {inst : VrrpInst} (copies : s.copiesVrIp w inst = true) :
    s.vrrpCreateInst w inst = (do
      let s₁ ← (s.withInst inst).linkInst s.dsTop
      return (VrrpRet.success.code, some s.dsTop, s₁)) := by
  simp only [copiesVrIp, Bool.and_eq_true, decide_eq_true_eq] at copies
  obtain ⟨⟨⟨delay, ipnum⟩, checked⟩, made⟩ := copies
  cases conflict : s.vrrpCheckConflict inst.key with
  | error fault => simp [conflict] at checked
  | ok status =>
      simp only [conflict, decide_eq_true_eq] at checked
      subst checked
      obtain ⟨new, allocated⟩ := Option.isSome_iff_exists.mp made
      rcases allocInst_outcome (Prod.ext allocated rfl) with ⟨impossible, -⟩ | ⟨top, records⟩
      · cases impossible
      · have pair : s.allocInst w inst = (some s.dsTop, s.withInst inst) :=
          Prod.ext (allocated.trans top) records
        simp [vrrpCreateInst, delay, ipnum, conflict, pair]

/-- What `vrrp_create_inst` returned tells whether it came to copy the addresses,
and it logs nothing. -/
theorem vrrpCreateInst_effect {inst : VrrpInst} {ret : Int} {made : Option DsPtr} {t : Daemon}
    (returns : s.vrrpCreateInst w inst = .ok (ret, made, t)) :
    (ret = VrrpRet.success.code → s.copiesVrIp w inst = true) ∧ t.q.log = s.q.log := by
  have logged := allocInst_log w inst s
  have errno : errnoEinval ≠ VrrpRet.success.code := by decide
  have taken : VrrpRet.evrexist.code ≠ VrrpRet.success.code := by decide
  have memory : VrrpRet.enomem.code ≠ VrrpRet.success.code := by decide
  simp only [vrrpCreateInst] at returns
  split at returns
  · cases returns
    exact ⟨fun success => absurd success errno, rfl⟩
  · rename_i delay
    split at returns
    · cases returns
      exact ⟨fun success => absurd success errno, rfl⟩
    · rename_i ipnum
      obtain ⟨conflict, checked, returns⟩ := bind_eq_ok.mp returns
      split at returns
      · cases returns
        exact ⟨fun success => absurd success taken, rfl⟩
      · rename_i passed
        split at returns
        · rename_i allocated
          cases returns
          rw [allocated] at logged
          exact ⟨fun success => absurd success memory, logged⟩
        · rename_i allocated
          obtain ⟨t₁, link, returns⟩ := bind_eq_ok.mp returns
          cases returns
          rw [allocated] at logged
          refine ⟨fun _ => ?_, linkInst_q link ▸ logged⟩
          simp [copiesVrIp, not_not.mp delay, not_not.mp ipnum, checked, not_not.mp passed, allocated]

/-- A new instance as it was asked for: listed, with its key and attributes. -/
theorem created_effect {inst : VrrpInst} (linked : s.Linked nodes)
    (link : (s.withInst inst).linkInst s.dsTop = .ok s') :
    ¬ s.Listed s.dsTop ∧ s'.Listed s.dsTop ∧ s'.key s.dsTop = inst.key ∧
      (s'.vr s.dsTop).attr = inst.viVa ∧ (s'.ds s.dsTop).vr = s.vrTop ∧
        s'.q = (s.withInst inst).q ∧ s'.vrTop = s.vrTop + 1 := by
  obtain ⟨next, prev, before, after, rfl, rfl, inserted⟩ := linked.link link
  refine ⟨?_, ?_, ?_, ?_, ?_, rfl, rfl⟩
  · rw [linked.listed_iff]
    exact fun member => Nat.lt_irrefl _ (linked.allocated _ member)
  · rw [inserted.listed_iff]
    simp
  · simp [key, vrrpId, vrrpIfname, vrrpAf, vr, withLinks, withInst, VrrpInst.key]
  · simp [vr, withLinks, withInst]
  · simp [withLinks, withInst]

theorem listed_congr (same : s'.shape = s.shape) {v : DsPtr} : s'.Listed v ↔ s.Listed v := by
  have next : s'.next = s.next := congrArg Shape.next same
  rw [Listed, Listed, next]

/-- The answer to a create with priority 255 is what `vrrp_state_i2m` returned. -/
theorem respond_createMaster {inst : VrrpInst} {s₁ : Daemon} {v : DsPtr}
    (created : s.vrrpCreateInst w inst = .ok (VrrpRet.success.code, some v, s₁))
    (top : inst.viVa.pri = 255) :
    s.respond w (.command (.create inst)) = (do
      let (ret, s) ← s₁.vrrpStateI2m w v
      return (ret, s.onQueue (·.alarm inst.viVa.delay))) := by
  simp [respond, processCommand, createCommand, created, top]

/-- A create that passes the checks and stops before its addresses are copied. -/
theorem truthful_create_uncopied {inst : VrrpInst} (linked : s.Linked nodes)
    (checks : inst.viVa.delay > 0 ∧ inst.viVr.vrIpnum > 0) (copies : s.copiesVrIp w inst = false) :
    s.Truthful w (.command (.create inst)) := by
  obtain ⟨ret, s', failed, grows, refused⟩ := createCommand_refused linked copies
  have answer : s.respond w (.command (.create inst)) = .ok (ret, s') := refused inst.viVr.vrIp
  have none : ¬ s.TookEffect s' (.command (.create inst)) := by
    rintro ⟨v, new, listed, -⟩
    rw [linked.listed_iff] at new
    exact new ((linked.of_grows grows).listed_iff.mp listed)
  rcases failed with ⟨-, failed⟩ | rfl | rfl
  · exact absurd checks failed
  · exact truthful_refused .evrexist (by decide) answer none grows
  · exact truthful_refused .enomem (by decide) answer none grows

/-- Whatever the start of a new master returns, it has promoted the new instance. -/
theorem createMaster_effect {inst : VrrpInst} {s₁ s₂ : Daemon} {ret : Int} (linked : s.Linked nodes)
    (link : (s.withInst inst).linkInst s.dsTop = .ok s₁)
    (started : s₁.vrrpStateI2m w s.dsTop = .ok (ret, s₂)) :
    ret = w.uninitialised ∧
      s.TookEffect (s₂.onQueue (·.alarm inst.viVa.delay)) (.command (.create inst)) := by
  obtain ⟨new, listed, key, attr, -⟩ := created_effect linked link
  obtain ⟨unassigned, core⟩ := vrrpStateI2m_core started
  have shape : s₂.shape = s₁.shape := by rw [shape_of_core core, shape_promote]
  have records : s₂.vrs = s₁.vrs := by
    rw [vrs_of_core core, vrs_stable.promote]
  refine ⟨unassigned, s.dsTop, new, (listed_congr shape).mpr listed, ?_, ?_, fun _ => ?_⟩
  · exact (key_of_shape shape _).trans key
  · show (s₂.vrs (s₂.ds s.dsTop).vr).attr = _
    rw [records, vr_of_shape shape]
    exact attr
  · show (s₂.ds s.dsTop).state = _
    rw [ds_of_core core, state_promote_self]

/-- The create of a master answers with what the start of the instance returns. -/
theorem truthful_createMaster_iff {inst : VrrpInst} {s₁ : Daemon} (linked : s.Linked nodes)
    (link : (s.withInst inst).linkInst s.dsTop = .ok s₁)
    (created : s.vrrpCreateInst w inst = .ok (VrrpRet.success.code, some s.dsTop, s₁))
    (top : inst.viVa.pri = 255) :
    s.Truthful w (.command (.create inst)) ↔
      w.uninitialised = VrrpRet.success.code ∧ ∃ reply, s₁.vrrpStateI2m w s.dsTop = .ok reply := by
  have answer := respond_createMaster created top
  constructor
  · rintro ⟨ret, s', returns, tells⟩
    rw [answer] at returns
    obtain ⟨⟨ret', s₂⟩, started, same⟩ := bind_eq_ok.mp returns
    cases same
    obtain ⟨unassigned, took⟩ := createMaster_effect linked link started
    exact ⟨unassigned.symm.trans (tells.success_iff.mpr took), _, started⟩
  · rintro ⟨zero, ⟨ret, s₂⟩, started⟩
    obtain ⟨unassigned, took⟩ := createMaster_effect linked link started
    rw [zero] at unassigned
    subst unassigned
    have returns := answer.trans (bind_eq_ok.mpr ⟨_, started, rfl⟩)
    exact (truthful_success returns).mpr took

/-- **A create tells the truth** when the checks pass and, for a priority of 255,
the uninitialised status is 0 and the VR can be entered. -/
theorem truthful_create_iff {inst : VrrpInst} (linked : s.Linked nodes) :
    s.Truthful w (.command (.create inst)) ↔ s.Honest w (.command (.create inst)) := by
  simp only [Honest]
  by_cases checks : inst.viVa.delay > 0 ∧ inst.viVr.vrIpnum > 0
  · cases copies : s.copiesVrIp w inst with
    | false =>
        simp only [Bool.false_eq_true, false_implies, implies_true, and_true]
        exact iff_of_true (truthful_create_uncopied linked checks copies) checks
    | true =>
        have grown := linked.of_grows (grows_withInst inst s)
        have fresh : s.dsTop ∉ nodes := fun member => Nat.lt_irrefl _ (linked.allocated _ member)
        obtain ⟨s₁, link⟩ := grown.exists_linkInst fresh
        obtain ⟨new, listed, key, attr, vr, q, vrTop⟩ := created_effect linked link
        have created : s.vrrpCreateInst w inst = .ok (VrrpRet.success.code, some s.dsTop, s₁) := by
          rw [vrrpCreateInst_copies copies, link]
          rfl
        by_cases top : inst.viVa.pri = 255
        · have starts : (∃ reply, s₁.vrrpStateI2m w s.dsTop = .ok reply) ↔
              ((s.withInst inst).q.setTimeout s.vrTop
                (toTimeout (vrrpSec2usec inst.viVa.delay))).Admits w (s.vrTop + 1) s.vrTop := by
            have delay : s₁.vrrpDelay s.dsTop = inst.viVa.delay := congrArg VrrpAttr.delay attr
            rw [vrrpStateI2m_returns_iff, advTimeout, delay, vr, q, vrTop]
          simp only [checks, top, forall_const, true_and, ← starts]
          exact truthful_createMaster_iff linked link created top
        · have answer : s.respond w (.command (.create inst)) = .ok (VrrpRet.success.code, s₁) := by
            simp [respond, processCommand, createCommand, created, top]
          simp only [top, false_implies, and_true]
          refine iff_of_true ((truthful_success answer).mpr ?_) checks
          exact ⟨_, new, listed, key, attr, fun same => absurd same top⟩
  · have refused : s.respond w (.command (.create inst)) = .ok (errnoEinval, s) := by
      by_cases delay : inst.viVa.delay > 0
      · have ipnum : ¬ inst.viVr.vrIpnum > 0 := fun given => checks ⟨delay, given⟩
        simp [respond, processCommand, createCommand, vrrpCreateInst, delay, ipnum, errnoEinval,
          VrrpRet.code]
      · simp [respond, processCommand, createCommand, vrrpCreateInst, delay, errnoEinval,
          VrrpRet.code]
    exact iff_of_false (not_truthful_errno refused) fun honest => checks ⟨honest.1, honest.2.1⟩

/-! ## Datagrams -/

/-- A name that was parsed leaves room for its NUL. -/
theorem scanTarget_short {buf : Buffer} {off after : Nat} {target : Target}
    (parsed : scanTarget.run buf off = .ok (target, after)) :
    target.intf.bytes.length < lifnamsiz := by
  obtain ⟨⟨vid, middle⟩, -, parsed⟩ := bind_eq_ok.mp parsed
  obtain ⟨⟨intf, behind⟩, -, parsed⟩ := bind_eq_ok.mp parsed
  obtain ⟨⟨af, last⟩, -, parsed⟩ := bind_eq_ok.mp parsed
  cases parsed
  exact intf.property.2

/-- **A well-formed datagram is a request.** -/
theorem exists_request {datagram : List UInt8} (residue : Buffer)
    (enough : sizeofVrrpCmd ≤ (admReceived datagram).length) (complete : Complete datagram) :
    ∃ request, parseRequest (admBuffer datagram residue) = .ok request := by
  have command := ofCode_getVrrpCmd residue enough
  unfold parseRequest
  rw [command]
  cases sent : sentCmd datagram with
  | none => exact ⟨_, rfl⟩
  | some cmd =>
      rw [Complete, sent] at complete
      cases cmd with
      | returnVal | showAll => exact ⟨_, rfl⟩
      | createInst =>
          obtain ⟨addresses, run⟩ := scanVrIp_returns
            (VrrpInst.load (admBuffer datagram residue) sizeofVrrpCmd).viVr.vrIpnum
            (admBuffer datagram residue) (sizeofVrrpCmd + sizeofVrrpInst)
          exact ⟨_, bind_eq_ok.mpr ⟨_, scanInst_run .., bind_eq_ok.mpr ⟨_, run, rfl⟩⟩⟩
      | removeInst | startupInst | shutdownInst | getInstx =>
          obtain ⟨target, after, parsed, -⟩ := (scanTarget_within 0).mpr complete
          exact ⟨_, bind_eq_ok.mpr ⟨_, parsed, rfl⟩⟩
      | modifyInst =>
          obtain ⟨args, after, parsed, -⟩ := modify_within.mpr complete
          exact ⟨_, bind_eq_ok.mpr ⟨_, parsed, rfl⟩⟩

theorem parseRequest_short {buf : Buffer} {target : Target}
    (parsed : parseRequest buf = .ok (.getInstx target)) :
    target.intf.bytes.length < lifnamsiz := by
  unfold parseRequest at parsed
  split at parsed
  case h_1 =>
    obtain ⟨⟨vi, vrIp⟩, -, parsed⟩ := bind_eq_ok.mp parsed
    obtain ⟨addresses, -, parsed⟩ := bind_eq_ok.mp parsed
    cases parsed
  case h_6 =>
    obtain ⟨⟨asked, after⟩, scanned, parsed⟩ := bind_eq_ok.mp parsed
    cases parsed
    exact scanTarget_short scanned
  case h_7 | h_8 | h_9 => cases parsed
  all_goals
    obtain ⟨args, -, parsed⟩ := bind_eq_ok.mp parsed
    cases parsed

/-- **A request tells the truth exactly when it meets the condition.** -/
theorem truthful_iff {buf : Buffer} (linked : s.Linked nodes)
    (parsed : parseRequest buf = .ok request) : s.Truthful w request ↔ s.Honest w request := by
  cases request with
  | other => exact iff_of_true truthful_other trivial
  | getInstx target => exact truthful_getInstx_iff linked (parseRequest_short parsed)
  | command command =>
      cases command with
      | create inst => exact truthful_create_iff linked
      | remove key => exact truthful_remove_iff linked
      | startup key => exact truthful_startup_iff linked
      | shutdown key => exact truthful_shutdown_iff linked
      | modify key pri delay preeMode acptMode => exact truthful_modify_iff linked

end Daemon

end VrrpDaemon
