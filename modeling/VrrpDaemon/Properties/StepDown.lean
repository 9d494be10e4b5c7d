import VrrpDaemon.Behaviour.Lan

/-!
# A router that steps down in favour of a better one

A master that yields to a greater priority writes the same frame as one that
goes away: an advertisement of priority 0. It reaches the other routers of the
segment too, and `vrrp_adv_check` promotes every backup that handles it, at
once and without a look at the flags that the rest of the daemon consults
before it promotes one. So a third router becomes a second master exactly when
it is in `BACK` as it handles such a frame (`stepDown_spares_iff`).
-/

set_option autoImplicit false

namespace VrrpDaemon

open Machine Daemon

namespace Lan

variable {ι : Type} [DecidableEq ι] (lan : Lan ι)

/-- Every router serves the VRID with its instance. -/
def Serving (n : lan.State) : Prop := ∀ i, (n.node i).Serves (lan.inst i) lan.key

/-- The routers handle frames in any order, and carry out operations other than
creates and destroys in between. -/
def Operating (n : lan.State) (event : lan.Event) : Prop :=
  event.Enabled n ∧ ∀ i op, event = .act i (.operate op) → KeepsInstances op

/-- The target of a frame leaves `MAST` because the frame came from a master of
greater priority. -/
structure StepsDown (n : lan.State) (e : Envelope ι Frame) (n' : lan.State) : Prop where
  better : lan.stateOf n e.source = .mast
  higher : lan.priOf n e.target < lan.priOf n e.source
  master : lan.stateOf n e.target = .mast
  left : lan.stateOf n' e.target ≠ .mast

/-- In the past, a router steps down on handling the frame `e₁`. Later a third
router, in `BACK` and of lower priority than the better master, handles a frame
`e₂` that was sent on this occasion. The better master has remained one. -/
structure Follows (past : List (lan.State × lan.Event × lan.State)) (n₁ : lan.State)
    (e₁ : Envelope ι Frame) (n₁' n₂ : lan.State) (e₂ : Envelope ι Frame) (n₂' : lan.State) :
    Prop where
  order : ∃ before between after,
    past = before ++ (n₁, .deliver e₁, n₁') :: (between ++ (n₂, .deliver e₂, n₂') :: after) ∧
      ∀ entry ∈ between, lan.stateOf entry.2.2 e₁.source = .mast
  stepsDown : lan.StepsDown n₁ e₁ n₁'
  sent : e₂ ∈ lan.protocol.broadcast e₁.target
    ((n₁.node e₁.target).written (n₁'.node e₁.target))
  third : e₂.target ≠ e₁.source ∧ e₂.target ≠ e₁.target
  still : lan.stateOf n₂ e₁.source = .mast
  backup : lan.stateOf n₂ e₂.target = .back
  lower : lan.priOf n₂ e₂.target < lan.priOf n₂ e₁.source

/-- No third router enters `MAST` on handling a frame of a step-down. -/
def SparesBackups (past : List (lan.State × lan.Event × lan.State)) : Prop :=
  ∀ n₁ e₁ n₁' n₂ e₂ n₂', lan.Follows past n₁ e₁ n₁' n₂ e₂ n₂' → lan.stateOf n₂' e₂.target ≠ .mast

/-- No backup of lower priority handles a frame of a step-down while the better
master is one. -/
def KeepsFromBackups (past : List (lan.State × lan.Event × lan.State)) : Prop :=
  ∀ n₁ e₁ n₁' n₂ e₂ n₂', ¬ lan.Follows past n₁ e₁ n₁' n₂ e₂ n₂'

variable {lan} {n₀ n n' : lan.State}

omit [DecidableEq ι] in
theorem operating_advertise (i : ι) : lan.Operating n (.act i .advertise) :=
  ⟨trivial, fun _ _ => by simp⟩

omit [DecidableEq ι] in
theorem operating_deliver {e : Envelope ι Frame} (inFlight : e ∈ n.flight) :
    lan.Operating n (.deliver e) :=
  ⟨inFlight, fun _ _ => by simp⟩

/-- The step lemma: the routers go on serving the VRID. -/
theorem serving_step {event : lan.Event} (serving : lan.Serving n)
    (allowed : lan.Operating n event) (returns : lan.protocol.step event n = .ok n') :
    lan.Serving n' := by
  intro j
  by_cases here : j = event.node
  · subst here
    have performed := Protocol.step_self returns
    refine (serving event.node).of_shape ?_
    cases event with
    | deliver e => exact ((serving e.target).hearing performed).shape
    | act i action =>
        cases action with
        | operate op => exact step_shape (allowed.2 i op rfl) performed
        | advertise =>
            have advertised : (n.node i).advertise (lan.inst i) = n'.node i :=
              Except.ok.inj performed
            exact advertised ▸ advertise_shape
  · rw [Protocol.step_other returns here]
    exact serving j

/-- **A backup that handles a frame of a step-down becomes a master.** -/
theorem follows_promotes {past : List (lan.State × lan.Event × lan.State)}
    {e₁ e₂ : Envelope ι Frame} {n₁ n₁' n₂ n₂' : lan.State} (start : lan.Serving n₀)
    (history : History lan.protocol.step lan.Operating n₀ past n)
    (follows : lan.Follows past n₁ e₁ n₁' n₂ e₂ n₂') : lan.stateOf n₂' e₂.target = .mast := by
  have preserved : ∀ n event n', lan.Serving n → lan.Operating n event →
      lan.protocol.step event n = .ok n' → lan.Serving n' :=
    fun _ _ _ serving allowed returns => serving_step serving allowed returns
  obtain ⟨before, between, after, split, -⟩ := follows.order
  obtain ⟨serving₁, -, returns₁⟩ :=
    history.entry lan.Serving start preserved (show (n₁, .deliver e₁, n₁') ∈ past by simp [split])
  obtain ⟨serving₂, -, returns₂⟩ :=
    history.entry lan.Serving start preserved (show (n₂, .deliver e₂, n₂') ∈ past by simp [split])
  have yielding := (serving₁ e₁.target).hearing (Protocol.step_self returns₁)
  obtain ⟨-, -, written⟩ := Protocol.mem_broadcast.mp follows.sent
  obtain ⟨-, -, accepted, -, stop⟩ := yielding.written written
  have hearing := (serving₂ e₂.target).hearing (Protocol.step_self returns₂)
  exact hearing.state_stop accepted stop follows.backup

/-- **When a step-down makes no second master.** In every history of routers that
serve one VRID, no third router enters `MAST` on handling a frame of a step-down
in favour of a better master if and only if no backup of lower priority handles
one while the better master is one. -/
theorem stepDown_spares_iff (lan : Lan ι) (n₀ : lan.State) (start : lan.Serving n₀)
    (past : List (lan.State × lan.Event × lan.State)) (n : lan.State)
    (history : History lan.protocol.step lan.Operating n₀ past n) :
    lan.SparesBackups past ↔ lan.KeepsFromBackups past := by
  constructor
  · intro spares n₁ e₁ n₁' n₂ e₂ n₂' follows
    exact spares n₁ e₁ n₁' n₂ e₂ n₂' follows (follows_promotes start history follows)
  · intro keeps n₁ e₁ n₁' n₂ e₂ n₂' follows
    exact absurd follows (keeps n₁ e₁ n₁' n₂ e₂ n₂')

/-! ## Three routers -/

/-- Three routers on `eth0` that hear each other, of VRID 7. -/
def trio : Lan (Fin 3) where
  world _ := .plain
  inst _ := 1
  vid := 7
  ifname := .eth0
  peers i := [0, 1, 2].erase i

/-- How they come up: a master of priority 255, one of priority 100, and a backup
of priority 50 that has heard one of them. -/
def comeUp : Fin 3 → List Op
  | 0 => [.create 7 255]
  | 1 => [.create 7 100, .startup 7]
  | 2 => [.create 7 50, .hear 7 100, .startup 7]

/-- The routers once they are up. -/
def trioUp : trio.State where
  node i := outcome initial (exec (step .plain) (comeUp i) initial)
  flight := []

/-- A frame of VRID 7 as these routers write it. -/
def trioFrame (pri : UInt8) (state : VrrpState) : Frame where
  version := 4
  protocol := ipprotoVrrp
  ttl := vrrpIpTtl
  inst :=
    { VrrpInst.sample 7 pri with
      viVr := { (VrrpInst.sample 7 pri).viVr with vrIp := [] }
      viState := state.code }

/-- The advertisement of router 0, on its way to router 1. -/
def trioRegular : Envelope (Fin 3) Frame := ⟨0, 1, trioFrame 255 .mast⟩

/-- The priority 0 of router 1, on its way to router 2. -/
def trioStop : Envelope (Fin 3) Frame := ⟨1, 2, trioFrame 0 .back⟩

theorem trioUp_reachable (i : Fin 3) : Reachable .plain (trioUp.node i) ∧
    (trioUp.node i).Serves (trio.inst i) trio.key := by
  have ran : passes (fun s => s.next instRuntimeList == some 1 && s.next 1 == none &&
      s.key 1 == trio.key) (exec (step .plain) (comeUp i) initial) = true := by
    revert i
    decide +kernel
  obtain ⟨returns, tested⟩ := eq_outcome initial ran
  simp only [Bool.and_eq_true, beq_iff_eq] at tested
  have reachable : Reachable .plain (trioUp.node i) := ⟨_, run_of_exec returns⟩
  have own : (trioUp.node i).key 1 = trio.key := tested.2
  exact ⟨reachable, own ▸ reachable.serves tested.1.1 tested.1.2⟩

/-- The states of routers 0, 1 and 2. -/
def trioStates (n : trio.State) : List VrrpState := [0, 1, 2].map (trio.stateOf n)

/-- Their priorities. -/
def trioPris (n : trio.State) : List UInt8 := [0, 1, 2].map (trio.priOf n)

/-- Router 0 advertises, router 1 steps down, and router 2 hears of it. -/
theorem trio_history : ∃ n₁ n₂ n₃ : trio.State,
    History trio.protocol.step trio.Operating trioUp
        [(trioUp, .act 0 .advertise, n₁), (n₁, .deliver trioRegular, n₂)] n₂ ∧
      History trio.protocol.step trio.Operating trioUp
        [(trioUp, .act 0 .advertise, n₁), (n₁, .deliver trioRegular, n₂),
          (n₂, .deliver trioStop, n₃)] n₃ ∧
      trioStates n₁ = [.mast, .mast, .back] ∧ trioStates n₂ = [.mast, .back, .back] ∧
      trioStates n₃ = [.mast, .back, .mast] ∧ trioPris n₁ = [255, 100, 50] ∧
      trioPris n₂ = [255, 100, 50] ∧
      trioStop ∈ trio.protocol.broadcast 1 ((n₁.node 1).written (n₂.node 1)) := by
  have ran : passes (fun n₁ => decide (trioRegular ∈ n₁.flight) &&
      trioStates n₁ == [.mast, .mast, .back] && trioPris n₁ == [255, 100, 50] &&
      passes (fun n₂ => trioStates n₂ == [.mast, .back, .back] && trioPris n₂ == [255, 100, 50] &&
        decide (trioStop ∈ trio.protocol.broadcast 1 ((n₁.node 1).written (n₂.node 1))) &&
        passes (fun n₃ => trioStates n₃ == [.mast, .back, .mast])
          (trio.protocol.step (.deliver trioStop) n₂))
        (trio.protocol.step (.deliver trioRegular) n₁))
      (trio.protocol.step (.act 0 .advertise) trioUp) = true := by decide +kernel
  obtain ⟨n₁, advertised, tested₁⟩ := exists_of_passes ran
  simp only [Bool.and_eq_true, beq_iff_eq, decide_eq_true_eq] at tested₁
  obtain ⟨n₂, delivered, tested₂⟩ := exists_of_passes tested₁.2
  simp only [Bool.and_eq_true, beq_iff_eq, decide_eq_true_eq] at tested₂
  obtain ⟨n₃, stopped, tested₃⟩ := exists_of_passes tested₂.2
  rw [beq_iff_eq] at tested₃
  have reaches : trioStop ∈ n₂.flight := Protocol.mem_flight_of_sent delivered tested₂.1.2
  have second := (History.nil.snoc (operating_advertise 0) advertised).snoc
    (operating_deliver tested₁.1.1.1) delivered
  exact ⟨n₁, n₂, n₃, second, second.snoc (operating_deliver reaches) stopped, tested₁.1.1.2,
    tested₂.1.1.1, tested₃, tested₁.1.2, tested₂.1.1.2, tested₂.1.2⟩

/-- The history up to the step-down of router 1, whose frame nobody handles. -/
theorem stepDown_spares_unheard : ∃ past n,
    History trio.protocol.step trio.Operating trioUp past n ∧
      trioStates n = [.mast, .back, .back] ∧ trio.SparesBackups past := by
  obtain ⟨n₁, n₂, -, history, -, -, states, -⟩ := trio_history
  refine ⟨_, n₂, history, states, (stepDown_spares_iff trio trioUp
    (fun i => (trioUp_reachable i).2) _ n₂ history).mpr ?_⟩
  intro m₁ e₁ m₁' m₂ e₂ m₂' follows
  -- the frame handled last is the only one, so none follows it
  obtain ⟨before, between, after, split, -⟩ := follows.order
  have shorter := congrArg List.length split
  simp only [List.length_cons, List.length_nil, List.length_append] at shorter
  obtain rfl : before = [] := List.eq_nil_of_length_eq_zero (by omega)
  simp at split

/-- **A step-down makes a second master.** Router 0 is a master, router 1 yields
to it, and router 2 of priority 50 becomes a master on hearing of it. -/
theorem stepDown_spares_second : ∃ past n,
    History trio.protocol.step trio.Operating trioUp past n ∧
      (∀ i, Reachable .plain (trioUp.node i)) ∧ trio.Serving trioUp ∧
      trioStates n = [.mast, .back, .mast] ∧ ¬ trio.SparesBackups past := by
  obtain ⟨n₁, n₂, n₃, -, history, states₁, states₂, states₃, pris₁, pris₂, sent⟩ := trio_history
  refine ⟨_, n₃, history, fun i => (trioUp_reachable i).1, fun i => (trioUp_reachable i).2, states₃,
    fun spares => ?_⟩
  simp only [trioStates, trioPris, List.map_cons, List.map_nil, List.cons.injEq, and_true]
    at states₁ states₂ states₃ pris₁ pris₂
  refine spares n₁ trioRegular n₂ n₂ trioStop n₃ ⟨⟨[_], [], [], rfl, by simp⟩, ⟨?_, ?_, ?_, ?_⟩,
    sent, by decide, states₂.1, states₂.2.2, ?_⟩ states₃.2.2
  · exact states₁.1
  · show trio.priOf n₁ 1 < trio.priOf n₁ 0
    rw [pris₁.1, pris₁.2.1]
    decide
  · exact states₁.2.1
  · show trio.stateOf n₂ 1 ≠ .mast
    rw [states₂.2.1]
    decide
  · show trio.priOf n₂ 2 < trio.priOf n₂ 0
    rw [pris₂.1, pris₂.2.2]
    decide

end Lan

end VrrpDaemon
