import VrrpDaemon.Properties.StepDown

/-!
# Three routers or more

Routers of one VRID exchange advertisements, and one of them is a master that no other
outranks. Every other master yields to it in the end; but with its priority 0 it promotes the
backups among the rest (`Hearing.state_stop`), of which there is one, as there are three
routers or more. So there is always a second master, or a frame of priority 0 that is going to
make one. Without a second master at the start, on the other hand, nobody ever yields.

An exchange of advertisements therefore does not decide whether the routers agree on a master.
They agree at its end exactly when they agreed before it (`agrees_iff`).
-/

set_option autoImplicit false

namespace VrrpDaemon

open Machine Daemon

namespace Lan

variable {ι : Type} [DecidableEq ι] (lan : Lan ι)

/-- The routers send regular advertisements and handle frames, in any order. -/
def Conversing (n : lan.State) (event : lan.Event) : Prop :=
  event.Enabled n ∧ ∀ i op, event ≠ .act i (.operate op)

/-- All routers run the instance of the VRID and hear each other; `best` is a master, of
greater priority than any other router. Nothing is in flight. -/
structure LedBy (best : ι) (n : lan.State) : Prop where
  peers : ∀ i j, j ≠ i → j ∈ lan.peers i
  serves : ∀ i, (n.node i).Serves (lan.inst i) lan.key
  running : ∀ i, (lan.stateOf n i).running = true
  master : lan.stateOf n best = .mast
  greater : ∀ i, i ≠ best → lan.priOf n i < lan.priOf n best
  quiet : n.flight = []

/-- No router but `best` is a master. -/
def Agrees (best : ι) (n : lan.State) : Prop := ∀ i, i ≠ best → lan.stateOf n i ≠ .mast

variable {lan} {best : ι} {n₀ n n' : lan.State}

/-! ## What holds during an exchange -/

/-- The invariant of a router: it runs with its priority, and `best` is a master. -/
structure Runs (lan : Lan ι) (best : ι) (n₀ : lan.State) (i : ι) (s : Daemon) : Prop where
  serves : s.Serves (lan.inst i) lan.key
  pri : s.vrrpPri (lan.inst i) = lan.priOf n₀ i
  running : (s.ds (lan.inst i)).state.running = true
  master : i = best → (s.ds (lan.inst i)).state = .mast

/-- The invariant of a frame: `best` does not yield to it. -/
def Outranked (lan : Lan ι) (best : ι) (n₀ : lan.State) (e : Envelope ι Frame) : Prop :=
  e.message.inst.viVa.pri ≤ lan.priOf n₀ best

omit [DecidableEq ι] in
theorem LedBy.pri_le (led : lan.LedBy best n₀) (i : ι) : lan.priOf n₀ i ≤ lan.priOf n₀ best := by
  by_cases here : i = best
  · rw [here]
    exact UInt8.le_refl _
  · exact UInt8.le_of_lt (led.greater i here)

omit [DecidableEq ι] in
/-- An advertisement of the router changes nothing but its log. -/
theorem Runs.advertise {i : ι} {s : Daemon} (runs : Runs lan best n₀ i s) :
    Runs lan best n₀ i (s.advertise (lan.inst i)) := by
  have same : ∃ effects, s.advertise (lan.inst i) = { s with effects := effects } := by
    unfold Daemon.advertise
    split
    · exact ⟨_, rfl⟩
    · exact ⟨s.effects, rfl⟩
  obtain ⟨effects, same⟩ := same
  rw [same]
  exact ⟨runs.serves.of_shape rfl, runs.pri, runs.running, runs.master⟩

omit [DecidableEq ι] in
/-- `best` does not yield to a frame that it outranks. -/
theorem Runs.stays {i : ι} {s : Daemon} {frame : Frame} (runs : Runs lan best n₀ i s)
    (outranked : frame.inst.viVa.pri ≤ lan.priOf n₀ best) (here : i = best) :
    ¬ s.vrrpPri (lan.inst i) < frame.inst.viVa.pri := by
  rw [runs.pri, here]
  exact UInt8.not_lt.mpr outranked

omit [DecidableEq ι] in
/-- A frame that `best` outranks keeps the invariant of a router. -/
theorem Runs.hear {i : ι} {w : World} {frame : Frame} {s s' : Daemon}
    (runs : Runs lan best n₀ i s) (outranked : frame.inst.viVa.pri ≤ lan.priOf n₀ best)
    (hearing : Hearing w (lan.inst i) frame s s') : Runs lan best n₀ i s' := by
  refine ⟨runs.serves.of_shape hearing.shape, hearing.pri.trans runs.pri,
    hearing.running runs.running, fun here => ?_⟩
  have before := runs.master here
  rcases hearing.state with same | ⟨-, backup⟩ | ⟨-, yields⟩
  · rw [same, before]
  · rw [before] at backup
    cases backup
  · exact absurd yields (runs.stays outranked here)

/-- Every router runs, and `best` outranks every frame. -/
abbrev Exchanging (lan : Lan ι) (best : ι) (n₀ : lan.State) : lan.State → Prop :=
  Protocol.Sound (Runs lan best n₀) (Outranked lan best n₀)

/-- The step lemma. -/
theorem exchanging_step {event : lan.Event} (led : lan.LedBy best n₀)
    (exchanging : Exchanging lan best n₀ n) (allowed : lan.Conversing n event)
    (returns : lan.protocol.step event n = .ok n') : Exchanging lan best n₀ n' := by
  refine exchanging.step allowed.1 (fun s runs relies performed => ?_) returns
  cases event with
  | act i action =>
      cases action with
      | advertise =>
          cases performed
          refine ⟨runs.advertise, fun e member => ?_⟩
          obtain ⟨-, -, sent⟩ := Protocol.mem_broadcast.mp member
          have written : e.message ∈ (n.node i).written ((n.node i).advertise (lan.inst i)) := sent
          rw [written_advertise] at written
          split at written
          · rw [Outranked, List.mem_singleton.mp written]
            have own : ((n.node i).vrrpBuildPkt (lan.inst i) 1).inst.viVa.pri = lan.priOf n₀ i :=
              runs.pri
            rw [own]
            exact led.pri_le i
          · cases written
      | operate op => exact absurd rfl (allowed.2 i op)
  | deliver e =>
      have hearing := runs.serves.hearing performed
      refine ⟨runs.hear (relies e rfl) hearing, fun other member => ?_⟩
      obtain ⟨-, -, sent⟩ := Protocol.mem_broadcast.mp member
      obtain ⟨-, -, -, -, stop⟩ := hearing.written sent
      rw [Outranked, stop]
      exact UInt8.zero_le

omit [DecidableEq ι] in
theorem LedBy.exchanging (led : lan.LedBy best n₀) : Exchanging lan best n₀ n₀ := by
  refine ⟨fun i => ⟨led.serves i, rfl, led.running i, fun here => here ▸ led.master⟩, ?_⟩
  rw [led.quiet]
  exact fun e member => absurd member List.not_mem_nil

/-! ## A second master -/

/-- There is a second master, or a frame of priority 0 for a router other than `best`. -/
def Split (lan : Lan ι) (best : ι) (n : lan.State) : Prop :=
  (∃ i, i ≠ best ∧ lan.stateOf n i = .mast) ∨
    ∃ e ∈ n.flight, e.target ≠ best ∧ e.message.accepted = true ∧ e.message.inst.viVa.pri = 0

/-- A second master remains one, or has promoted a third router by its priority 0. -/
theorem split_of_master {event : lan.Event} {i : ι} (led : lan.LedBy best n₀)
    (third : ∀ i, ∃ j, j ≠ best ∧ j ≠ i) (exchanging : Exchanging lan best n₀ n)
    (allowed : lan.Conversing n event) (returns : lan.protocol.step event n = .ok n')
    (other : i ≠ best) (master : lan.stateOf n i = .mast) : Split lan best n' := by
  by_cases remains : lan.stateOf n' i = .mast
  · exact .inl ⟨i, other, remains⟩
  · have own : i = event.node := by
      by_contra different
      rw [stateOf, Protocol.step_other returns different] at remains
      exact remains master
    subst own
    cases event with
    | act i action =>
        cases action with
        | operate op => exact absurd rfl (allowed.2 i op)
        | advertise =>
            have same : (n.node i).advertise (lan.inst i) = n'.node i :=
              Except.ok.inj (Protocol.step_self returns)
            have state : lan.stateOf n' i = lan.stateOf n i := by
              rw [stateOf, ← same, Daemon.advertise]
              split <;> rfl
            exact absurd (state.trans master) remains
    | deliver e =>
        have hearing := (exchanging.nodes e.target).serves.hearing (Protocol.step_self returns)
        obtain ⟨sent, written, accepted, stop⟩ := hearing.written_stop master remains
        obtain ⟨j, notBest, notOwn⟩ := third e.target
        have sentTo : (⟨e.target, j, sent⟩ : Envelope ι Frame) ∈ n'.flight :=
          Protocol.mem_flight_of_sent returns
            (Protocol.mem_broadcast.mpr ⟨rfl, led.peers e.target j notOwn, written⟩)
        exact .inr ⟨_, sentTo, notBest, accepted, stop⟩

/-- A frame of priority 0 stays in flight, or meets a router that is a master behind it. -/
theorem split_of_stop {event : lan.Event} {e : Envelope ι Frame}
    (exchanging : Exchanging lan best n₀ n) (returns : lan.protocol.step event n = .ok n')
    (inFlight : e ∈ n.flight) (other : e.target ≠ best) (accepted : e.message.accepted = true)
    (stop : e.message.inst.viVa.pri = 0) : Split lan best n' := by
  by_cases handled : event = .deliver e
  · subst handled
    have runs := exchanging.nodes e.target
    have hearing := runs.serves.hearing (Protocol.step_self returns)
    refine .inl ⟨e.target, other, ?_⟩
    cases state : ((n.node e.target).ds (lan.inst e.target)).state with
    | back => exact hearing.state_stop accepted stop state
    | mast =>
        rcases hearing.state with same | ⟨-, backup⟩ | ⟨-, yields⟩
        · exact same.trans state
        · rw [state] at backup
          cases backup
        · rw [stop] at yields
          exact absurd yields (UInt8.not_lt.mpr UInt8.zero_le)
    | none | init =>
        have running := runs.running
        rw [state] at running
        cases running
  · exact .inr ⟨e, Protocol.mem_flight_of_unhandled returns inFlight handled, other, accepted, stop⟩

/-- **The step lemma of a split segment.** -/
theorem split_step {event : lan.Event} (led : lan.LedBy best n₀)
    (third : ∀ i, ∃ j, j ≠ best ∧ j ≠ i) (exchanging : Exchanging lan best n₀ n)
    (allowed : lan.Conversing n event) (returns : lan.protocol.step event n = .ok n')
    (split : Split lan best n) : Split lan best n' := by
  rcases split with ⟨i, other, master⟩ | ⟨e, inFlight, other, accepted, stop⟩
  · exact split_of_master led third exchanging allowed returns other master
  · exact split_of_stop exchanging returns inFlight other accepted stop

/-! ## No second master -/

/-- No router but `best` is a master, and no frame of priority 0 is in flight. -/
structure United (lan : Lan ι) (best : ι) (n : lan.State) : Prop where
  agrees : lan.Agrees best n
  regular : ∀ e ∈ n.flight, e.message.inst.viVa.pri ≠ 0

/-- **The step lemma of a united segment**: nobody is promoted, and nobody yields. -/
theorem united_step {event : lan.Event} (positive : lan.priOf n₀ best ≠ 0)
    (exchanging : Exchanging lan best n₀ n)
    (allowed : lan.Conversing n event) (returns : lan.protocol.step event n = .ok n')
    (united : United lan best n) : United lan best n' := by
  have runs := exchanging.nodes event.node
  have performed := Protocol.step_self returns
  have own : lan.stateOf n' event.node = lan.stateOf n event.node ∧
      ∀ frame ∈ (n.node event.node).written (n'.node event.node), frame.inst.viVa.pri ≠ 0 := by
    cases event with
    | act i action =>
        cases action with
        | operate op => exact absurd rfl (allowed.2 i op)
        | advertise =>
            have same : (n.node i).advertise (lan.inst i) = n'.node i := Except.ok.inj performed
            have state : lan.stateOf n' i = lan.stateOf n i := by
              rw [stateOf, ← same, Daemon.advertise]
              split <;> rfl
            refine ⟨state, fun frame member => ?_⟩
            have written : frame ∈ (n.node i).written (n'.node i) := member
            rw [← same, written_advertise] at written
            split at written
            · rename_i master
              have here : i = best := by
                by_contra other
                exact united.agrees i other master
              have pri : ((n.node i).vrrpBuildPkt (lan.inst i) 1).inst.viVa.pri =
                  lan.priOf n₀ best := by
                rw [← here]
                exact runs.pri
              rw [List.mem_singleton.mp written, pri]
              exact positive
            · cases written
    | deliver e =>
        have hearing := runs.serves.hearing performed
        have notYielding : ¬ (((n.node e.target).ds (lan.inst e.target)).state = .mast ∧
            (n.node e.target).vrrpPri (lan.inst e.target) < e.message.inst.viVa.pri) := by
          rintro ⟨master, yields⟩
          have here : e.target = best := by
            by_contra other
            exact united.agrees e.target other master
          exact runs.stays (exchanging.messages e allowed.1) here yields
        constructor
        · rcases hearing.state with same | ⟨stop, -⟩ | yields
          · exact same
          · exact absurd stop (united.regular e allowed.1)
          · exact absurd yields notYielding
        · intro frame member
          obtain ⟨master, yields, -⟩ := hearing.written member
          exact absurd ⟨master, yields⟩ notYielding
  refine ⟨fun i other => ?_, fun e member => ?_⟩
  · by_cases here : i = event.node
    · rw [here, own.1, ← here]
      exact united.agrees i other
    · rw [stateOf, Protocol.step_other returns here]
      exact united.agrees i other
  · rcases Protocol.mem_flight_step returns member with old | new
    · exact united.regular e old
    · obtain ⟨-, -, sent⟩ := Protocol.mem_broadcast.mp new
      exact own.2 _ sent

/-! ## The law -/

/-- **An exchange of advertisements does not decide about agreement.** Three routers or more run
one VRID, and one of them is a master of greater priority than the others. In every history in
which they only send advertisements and handle them, in any order, this router remains a
master; and when no frame of priority 0 is left in flight, no other router is a master if and
only if none was at the start. -/
theorem agrees_iff (lan : Lan ι) (best : ι) (n₀ : lan.State) (led : lan.LedBy best n₀)
    (third : ∀ i, ∃ j, j ≠ best ∧ j ≠ i) (past : List (lan.State × lan.Event × lan.State))
    (n : lan.State) (history : History lan.protocol.step lan.Conversing n₀ past n) :
    lan.stateOf n best = .mast ∧
      ((∀ e ∈ n.flight, e.message.inst.viVa.pri ≠ 0) →
        (lan.Agrees best n ↔ lan.Agrees best n₀)) := by
  have exchanges : ∀ n event n', Exchanging lan best n₀ n → lan.Conversing n event →
      lan.protocol.step event n = .ok n' → Exchanging lan best n₀ n' :=
    fun _ _ _ exchanging allowed returns => exchanging_step led exchanging allowed returns
  refine ⟨((history.invariant _ led.exchanging exchanges).nodes best).master rfl, fun settled => ?_⟩
  constructor
  · intro agrees i other master
    have split : Exchanging lan best n₀ n ∧ Split lan best n := by
      refine history.invariant (fun n => Exchanging lan best n₀ n ∧ Split lan best n)
        ⟨led.exchanging, .inl ⟨i, other, master⟩⟩ fun n event n' kept allowed returns => ?_
      exact ⟨exchanges n event n' kept.1 allowed returns,
        split_step led third kept.1 allowed returns kept.2⟩
    rcases split.2 with ⟨j, notBest, second⟩ | ⟨e, inFlight, -, -, stop⟩
    · exact agrees j notBest second
    · exact settled e inFlight stop
  · intro agrees
    obtain ⟨other, notBest, -⟩ := third best
    have positive : lan.priOf n₀ best ≠ 0 := by
      intro none
      have lower := led.greater other notBest
      rw [none] at lower
      exact absurd lower (UInt8.not_lt.mpr UInt8.zero_le)
    have quiet : ∀ e ∈ n₀.flight, e.message.inst.viVa.pri ≠ 0 := by
      rw [led.quiet]
      exact fun e member => absurd member List.not_mem_nil
    have united : Exchanging lan best n₀ n ∧ United lan best n := by
      refine history.invariant (fun n => Exchanging lan best n₀ n ∧ United lan best n)
        ⟨led.exchanging, agrees, quiet⟩ fun n event n' kept allowed returns => ?_
      exact ⟨exchanges n event n' kept.1 allowed returns,
        united_step positive kept.1 allowed returns kept.2⟩
    exact united.2.agrees

/-! ## Three routers that never agree -/

/-- The other frames of the exchange: the advertisement for router 2, the priority 0 for
router 0. -/
def trioRegularTo2 : Envelope (Fin 3) Frame := { trioRegular with target := trioStop.target }
def trioStopTo0 : Envelope (Fin 3) Frame := { trioStop with target := trioRegular.source }

/-- Router 0 advertises, and every frame is handled. -/
def trioExchange : List trio.Event :=
  [.act trioRegular.source .advertise, .deliver trioRegular, .deliver trioRegularTo2,
    .deliver trioStop, .deliver trioStopTo0]

/-- The events of an exchange that can happen. -/
def trioAllows (n : trio.State) : trio.Event → Bool
  | .act _ .advertise => true
  | .act _ (.operate _) => false
  | .deliver e => decide (e ∈ n.flight)

theorem conversing_of_trioAllows (n : trio.State) (event : trio.Event)
    (allowed : trioAllows n event = true) : trio.Conversing n event := by
  rcases event with ⟨i, _ | op⟩ | e
  · refine ⟨trivial, fun j op same => ?_⟩
    cases same
  · cases allowed
  · have inFlight : e ∈ n.flight := of_decide_eq_true allowed
    refine ⟨inFlight, fun j op same => ?_⟩
    cases same

theorem trio_ledBy : trio.LedBy 0 trioUp where
  peers := by decide
  serves i := (trioUp_reachable i).2
  running := by decide +kernel
  master := by decide +kernel
  greater := by decide +kernel
  quiet := rfl

/-- Three routers, of which two are masters, exchange an advertisement to its end. Two masters
are left. -/
theorem agrees_iff_trio : ∃ past n, History trio.protocol.step trio.Conversing trioUp past n ∧
    n.flight = [] ∧ trio.stateOf n 0 = .mast ∧ ¬ trio.Agrees 0 n := by
  have ran : (execWhere trioAllows trio.protocol.step trioExchange trioUp).any
      (fun n => n.flight == []) = true := by decide +kernel
  obtain ⟨n, reached, quiet⟩ := (Option.any_eq_true _ _).mp ran
  have settled : n.flight = [] := by simpa using quiet
  obtain ⟨past, history⟩ := history_of_execWhere conversing_of_trioAllows .nil reached
  obtain ⟨master, law⟩ := agrees_iff trio 0 trioUp trio_ledBy (by decide) past n history
  have agreement := law (by simp [settled])
  have second : trio.stateOf trioUp 1 = .mast := by decide +kernel
  exact ⟨past, n, history, settled, master,
    fun agrees => agreement.mp agrees 1 (by decide) second⟩

end Lan

end VrrpDaemon
