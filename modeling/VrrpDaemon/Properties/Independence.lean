import VrrpDaemon.Behaviour.Queue

/-!
# The promotion decision and the advertisements of other VRIDs

After the sleep of `vrrp_state_i2b` and `vrrp_state_m2b` an instance is promoted
unless `any_master_up` finds a flag. The flags are kept for each VRID, but the
test looks at all of them: so the decision depends on what was heard for any
VRID (`decision_independent_iff`). What it never does is to promote an instance
whose own VRID was last heard with a priority other than 0.
-/

set_option autoImplicit false

namespace VrrpDaemon

open Machine

/-- A received advertisement: a frame that `vrrp_adv_check` accepts, with the
interface and the family of its socket. -/
structure Advert where
  af : Int
  ifname : Ifname
  frame : Frame
  accepted : frame.accepted = true
  deriving DecidableEq

namespace Advert

/-- The VRID it is for. -/
def vid (advert : Advert) : UInt8 := advert.frame.inst.viVr.vrId

/-- Its priority. -/
def pri (advert : Advert) : UInt8 := advert.frame.inst.viVa.pri

/-- Its receipt, as an operation of the daemon. -/
def op (advert : Advert) : Op := .frame advert.af advert.ifname advert.frame

end Advert

/-- The histories differ only in advertisements for other VRIDs with a priority
other than 0. -/
def Agree (y : UInt8) (h₁ h₂ : List Advert) : Prop :=
  h₁.filter (fun a => a.vid = y || a.pri = 0) = h₂.filter (fun a => a.vid = y || a.pri = 0)

/-- The most recent advertisement for the VRID. -/
def lastHeard (x : UInt8) (history : List Advert) : Option Advert :=
  history.reverse.find? fun a => a.vid = x

/-- The VRID was last heard with a priority other than 0, or was not heard and
its flag was set before. -/
def upAfter (flag : UInt8 → Bool) (history : List Advert) (x : UInt8) : Bool :=
  match lastHeard x history with
  | none => flag x
  | some a => a.pri ≠ 0

/-- Some VRID is up after the history. -/
def SomeUp (flag : UInt8 → Bool) (history : List Advert) : Prop :=
  ∃ x, x ≠ 0 ∧ upAfter flag history x = true

theorem upAfter_snoc (flag : UInt8 → Bool) (history : List Advert) (a : Advert) (x : UInt8) :
    upAfter flag (history ++ [a]) x =
      if a.vid = x then decide (a.pri ≠ 0) else upAfter flag history x := by
  unfold upAfter lastHeard
  rw [List.reverse_append, List.reverse_singleton, List.singleton_append, List.find?_cons]
  by_cases here : a.vid = x
  · simp [here]
  · simp [here]

namespace Daemon

variable {w : World} {v : DsPtr} {s s' : Daemon}

/-- The daemon receives the advertisements in order. -/
def listen (w : World) (history : List Advert) (s : Daemon) : Result Daemon :=
  exec (step w) (history.map Advert.op) s

/-- What the promotion decision leaves: of a startup that finds the instance in
`INIT`, or of a demotion from `MAST`. -/
inductive Decides (w : World) (v : DsPtr) (s s' : Daemon) : Prop where
  | startup {key : Key} {ret : Int} (family : key.af = afInet) (given : key.vid ≠ 0)
      (found : s.vrrpSearchInst key = .ok (some v)) (idle : (s.ds v).state = .init)
      (returns : s.vrrpStartupInst w key = .ok (ret, s'))
  | demotion (master : (s.ds v).state = .mast) (returns : s.vrrpStateM2b w v = .ok s')

/-! ## The flags -/

theorem vrrpStateM2b_flag (returns : s.vrrpStateM2b w v = .ok s') : s'.flag = s.flag := by
  have core := vrrpStateM2b_core returns
  split at core
  · rw [flag_of_core core, flag_promote, flag_leave]
  · rw [flag_of_core core, flag_leave]

/-- An advertisement stores whether its priority is other than 0 in the flag of
its VRID, and touches no other flag. -/
theorem flag_step {a : Advert} (returns : step w a.op s = .ok s') :
    s'.flag = Function.update s.flag a.vid (decide (a.pri ≠ 0)) := by
  have handled : s.processVrrpdSock w a.af a.ifname a.frame = .ok s' := returns
  by_cases stop : a.pri = 0
  · have clears : (s.cleared a.frame).flag = Function.update s.flag a.vid (decide (a.pri ≠ 0)) := by
      simp [cleared, setFlag, stop, Advert.vid]
    rw [processVrrpdSock_stop a.accepted stop] at handled
    cases found : s.next instRuntimeList with
    | none => simp [found] at handled
    | some first =>
        simp only [found] at handled
        split at handled
        · rw [flag_of_core (vrrpStateB2m_core handled), flag_promote, clears]
        · cases handled
          exact clears
  · have hears : (s.heard a.frame).flag = Function.update s.flag a.vid (decide (a.pri ≠ 0)) := by
      simp [heard, setFlag, stop, Advert.vid]
    rw [processVrrpdSock_regular a.accepted stop] at handled
    obtain ⟨found, -, handled⟩ := bind_eq_ok.mp handled
    cases found with
    | none =>
        cases handled
        exact hears
    | some curr =>
        dsimp only at handled
        split at handled
        · cases handled
          exact hears
        · rcases vrrpProcessIncomingAdv_outcome handled with
            rfl | ⟨-, timeout, rearmed⟩ | ⟨-, -, demoted⟩
          · exact hears
          · rw [flag_of_core (rearm_core rearmed), hears]
          · rw [vrrpStateM2b_flag demoted, hears]

/-- **The flags after a history.** -/
theorem flag_listen {history : List Advert} (returns : s.listen w history = .ok s') (x : UInt8) :
    s'.flag x = upAfter s.flag history x := by
  unfold listen at returns
  induction history using List.reverseRecOn generalizing s' with
  | nil =>
      cases returns
      rfl
  | append_singleton history a ih =>
      rw [List.map_append, exec_append] at returns
      obtain ⟨middle, earlier, last⟩ := bind_eq_ok.mp returns
      obtain ⟨_, handled, stops⟩ := bind_eq_ok.mp last
      cases stops
      rw [flag_step handled, upAfter_snoc]
      by_cases here : a.vid = x
      · simp [here]
      · simp [here, Function.update_of_ne (Ne.symm here), ih earlier]

/-! ## The decision -/

/-- **The decision**: the instance is promoted exactly when no flag is set. -/
theorem Decides.state (decides : Decides w v s s') :
    (s'.ds v).state = if s.anyMasterUp = 0 then .mast else .back := by
  have decision : ∀ t : Daemon, (t.ds v).state = .back →
      s'.core = (if s.anyMasterUp = 0 then (t.promote w .backToMast v).core else t.core) →
        (s'.ds v).state = if s.anyMasterUp = 0 then .mast else .back := by
    intro t backup core
    by_cases none : s.anyMasterUp = 0
    · rw [if_pos none] at core ⊢
      rw [ds_of_core core, state_promote_self]
    · rw [if_neg none] at core ⊢
      rw [ds_of_core core, backup]
  cases decides with
  | startup family given found idle returns =>
      rw [vrrpStartupInst_idle family given found idle] at returns
      obtain ⟨s₁, started, returns⟩ := bind_eq_ok.mp returns
      cases returns
      exact decision _ (by rw [setState_ds_self]) (vrrpStateI2b_core started)
  | demotion master returns =>
      exact decision _ (state_leave_self ..) (vrrpStateM2b_core returns)

/-- After a history, the decision depends on whether some VRID is up. -/
theorem Decides.state_listen {history : List Advert} {t : Daemon}
    (heard : s.listen w history = .ok s') (decides : Decides w v s' t) :
    ((t.ds v).state = .back ↔ SomeUp s.flag history) ∧
      ((t.ds v).state = .mast ↔ ¬ SomeUp s.flag history) := by
  have none : s'.anyMasterUp = 0 ↔ ¬ SomeUp s.flag history := by
    rw [anyMasterUp_eq_zero_iff]
    simp [SomeUp, flag_listen heard]
  rw [decides.state, ← none]
  by_cases up : s'.anyMasterUp = 0
  · simp [up, none.mp up]
  · have some := Classical.not_not.mp (mt none.mpr up)
    simp [up, some]

/-- The advertisement of a sample instance, heard on `eth0`. -/
def advertSample (vid pri : UInt8) : Advert := ⟨afInet, .eth0, .sample vid pri, rfl⟩

/-- After the history the instance of VRID 7 starts up, and ends in the state. -/
def startsAs (history : List Advert) (state : VrrpState) (s : Daemon) : Bool :=
  passes (fun s₁ => (s₁.ds 1).state == .init &&
    passes (fun found => found == some 1) (s₁.vrrpSearchInst (.sample 7)) &&
    passes (fun reply => (reply.2.ds 1).state == state)
      (s₁.vrrpStartupInst .plain (.sample 7))) (s.listen .plain history)

theorem startsAs_decides {history : List Advert} {state : VrrpState}
    (starts : s.startsAs history state = true) : ∃ s₁ t, s.listen .plain history = .ok s₁ ∧
      Decides .plain 1 s₁ t ∧ (t.ds 1).state = state := by
  obtain ⟨s₁, heard, tested⟩ := exists_of_passes starts
  simp only [Bool.and_eq_true, beq_iff_eq] at tested
  obtain ⟨⟨idle, found⟩, started⟩ := tested
  obtain ⟨v, searched, same⟩ := exists_of_passes found
  obtain ⟨⟨ret, t⟩, returns, final⟩ := exists_of_passes started
  rw [beq_iff_eq] at same final
  subst same
  exact ⟨s₁, t, heard, .startup rfl (by decide) searched idle returns, final⟩

end Daemon

end VrrpDaemon
