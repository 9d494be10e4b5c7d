import VrrpDaemon.Behaviour.Lan

/-!
# Two masters that hear each other

Two routers serve one VRID and are both in `MAST`. They send their regular
advertisements, and whatever is in flight is handled in any order. A router with
the smaller priority yields to the first advertisement it handles, and stays in
`BACK`: that advertisement has set the flag of the VRID. Its own priority 0 does
not concern the other router, which is a master.

So the two agree on the router with the greater priority. With equal priorities
neither yields, and frames for VRID 0 are not processed at all: then both remain
masters (`twoMasters_agree_iff`).
-/

set_option autoImplicit false

namespace VrrpDaemon

open Machine Daemon

/-- The two routers. -/
inductive Side where
  | left
  | right
  deriving DecidableEq

/-- The other router. -/
def Side.other : Side → Side
  | .left => .right
  | .right => .left

@[simp] theorem Side.other_other (i : Side) : i.other.other = i := by cases i <;> rfl

theorem Side.eq_or_eq_other (i j : Side) : i = j ∨ i = j.other := by
  cases i <;> cases j <;> simp [Side.other]

theorem Side.other_ne (i : Side) : i.other ≠ i := by cases i <;> simp [Side.other]

namespace Lan

variable (lan : Lan Side)

/-- Two routers that serve the VRID, both in `MAST`, with nothing in flight. -/
structure TwoMasters (n : lan.State) : Prop where
  peers : ∀ i, lan.peers i = [i.other]
  serves : ∀ i, (n.node i).Serves (lan.inst i) lan.key
  master : ∀ i, lan.stateOf n i = .mast
  regular : ∀ i, lan.priOf n i ≠ 0
  quiet : n.flight = []

/-- The routers send regular advertisements and handle frames; there is no
command and no alarm in between. -/
def Exchange (n : lan.State) (event : lan.Event) : Prop :=
  event.Enabled n ∧ ∀ i op, event ≠ .act i (.operate op)

/-- What happened in a stretch of a run: events with the states around them. -/
abbrev Past : Type := List (lan.State × lan.Event × lan.State)

/-- The router has handled a regular advertisement of the other one. -/
def HasHeard (past : lan.Past) (i : Side) : Prop :=
  ∃ n e n', (n, .deliver e, n') ∈ past ∧ e.target = i ∧ e.source = i.other ∧
    e.message.inst.viVa.pri ≠ 0

/-- The router has left `MAST`. -/
def HasYielded (past : lan.Past) (i : Side) : Prop :=
  ∃ n event n', (n, event, n') ∈ past ∧ lan.stateOf n i = .mast ∧ lan.stateOf n' i ≠ .mast

/-- Exactly one router is in `MAST`, and with different priorities it is the one
with the greater. -/
def Agree (n : lan.State) : Prop :=
  ∃ i, lan.stateOf n i = .mast ∧ lan.stateOf n i.other ≠ .mast ∧
    (lan.priOf n i ≠ lan.priOf n i.other → lan.priOf n i.other < lan.priOf n i)

/-- After any exchange in which each router has handled a regular advertisement
of the other one, or has yielded, the two agree. -/
def Agreement (n₀ : lan.State) : Prop :=
  ∀ past n, History lan.protocol.step lan.Exchange n₀ past n →
    (∀ i, lan.HasHeard past i ∨ lan.HasYielded past i) → lan.Agree n

variable {lan} {n₀ n n' : lan.State}

/-! ## What holds during an exchange -/

/-- The part of the invariant about a router: it serves the VRID with its
priority, and the one with the greater priority is in `MAST`. -/
def Keeps (lan : Lan Side) (n₀ : lan.State) (high i : Side) (s : Daemon) : Prop :=
  s.Serves (lan.inst i) lan.key ∧ s.vrrpPri (lan.inst i) = lan.priOf n₀ i ∧
    (i = high → (s.ds (lan.inst i)).state = .mast)

/-- The part about a frame in flight: it is for the other router, accepted, and
carries the priority of its sender, or priority 0 if that is the lower one. -/
def Carries (lan : Lan Side) (n₀ : lan.State) (high : Side) (e : Envelope Side Frame) : Prop :=
  e.source = e.target.other ∧ e.message.accepted = true ∧ e.message.inst.viVr.vrId = lan.vid ∧
    (e.message.inst.viVa.pri = lan.priOf n₀ e.source ∨
      e.source ≠ high ∧ e.message.inst.viVa.pri = 0)

/-- The invariant of an exchange. -/
abbrev Settling (lan : Lan Side) (n₀ : lan.State) (high : Side) : lan.State → Prop :=
  Protocol.Sound (Keeps lan n₀ high) (Carries lan n₀ high)

theorem own_of_vid {frame : Frame} (vid : frame.inst.viVr.vrId = lan.vid) :
    lan.key = frame.own lan.ifname := by
  rw [key, Frame.own, vid]

/-- The envelopes that a router sends. -/
theorem carries_of_sent {high i : Side} {frames : List Frame}
    (peers : ∀ i, lan.peers i = [i.other])
    (each : ∀ frame ∈ frames, frame.accepted = true ∧ frame.inst.viVr.vrId = lan.vid ∧
      (frame.inst.viVa.pri = lan.priOf n₀ i ∨ i ≠ high ∧ frame.inst.viVa.pri = 0)) :
    ∀ e ∈ lan.protocol.broadcast i frames, Carries lan n₀ high e := by
  intro e member
  obtain ⟨source, target, sent⟩ := Protocol.mem_broadcast.mp member
  have toOther : e.target = i.other := by
    have peer : e.target ∈ lan.peers i := target
    simpa [peers i] using peer
  obtain ⟨accepted, vid, pri⟩ := each _ sent
  refine ⟨?_, accepted, vid, ?_⟩
  · rw [source, toOther, Side.other_other]
  · rw [source]
    exact pri

/-- A regular advertisement keeps the invariant. -/
theorem keeps_advertise {high i : Side} {s : Daemon} (peers : ∀ i, lan.peers i = [i.other])
    (keeps : Keeps lan n₀ high i s) :
    Keeps lan n₀ high i (s.advertise (lan.inst i)) ∧
      ∀ e ∈ lan.protocol.broadcast i (s.written (s.advertise (lan.inst i))),
        Carries lan n₀ high e := by
  obtain ⟨serves, pri, master⟩ := keeps
  have same : ∃ effects, s.advertise (lan.inst i) = { s with effects := effects } := by
    unfold advertise
    split
    · exact ⟨_, rfl⟩
    · exact ⟨s.effects, rfl⟩
  constructor
  · obtain ⟨effects, same⟩ := same
    rw [same]
    exact ⟨serves.of_shape rfl, pri, master⟩
  · refine carries_of_sent peers fun frame member => ?_
    rw [written_advertise] at member
    split at member
    · rw [List.mem_singleton.mp member]
      exact ⟨accepted_vrrpBuildPkt .., serves.vid, .inl pri⟩
    · cases member

/-- A frame keeps the invariant: priority 0 meets a master, and only the router
with the lower priority yields. -/
theorem keeps_hearing {high : Side} {s s' : Daemon} {e : Envelope Side Frame}
    (peers : ∀ i, lan.peers i = [i.other]) (lower : lan.priOf n₀ high.other < lan.priOf n₀ high)
    (keeps : Keeps lan n₀ high e.target s) (carries : Carries lan n₀ high e)
    (hearing : Hearing (lan.world e.target) (lan.inst e.target) e.message s s') :
    Keeps lan n₀ high e.target s' ∧
      ∀ other ∈ lan.protocol.broadcast e.target (s.written s'), Carries lan n₀ high other := by
  obtain ⟨serves, pri, master⟩ := keeps
  obtain ⟨source, -, -, carried⟩ := carries
  have notGreater : e.target = high → ¬ s.vrrpPri (lan.inst e.target) < e.message.inst.viVa.pri := by
    intro here greater
    rw [pri] at greater
    rw [source, here] at carried
    rw [here] at greater
    rcases carried with same | ⟨-, stop⟩
    · rw [same] at greater
      exact absurd greater (UInt8.lt_asymm lower)
    · rw [stop] at greater
      exact absurd greater (UInt8.not_lt.mpr UInt8.zero_le)
  refine ⟨⟨serves.of_shape hearing.shape, hearing.pri.trans pri, fun here => ?_⟩, ?_⟩
  · have before := master here
    rcases hearing.state with same | ⟨-, backup⟩ | ⟨-, greater⟩
    · rw [same, before]
    · rw [before] at backup
      cases backup
    · exact absurd greater (notGreater here)
  · refine carries_of_sent peers fun frame member => ?_
    obtain ⟨-, greater, accepted, vid, stop⟩ := hearing.written member
    exact ⟨accepted, vid.trans serves.vid, .inr ⟨fun here => notGreater here greater, stop⟩⟩

/-- The step lemma. -/
theorem settling_step {high : Side} {event : lan.Event} (peers : ∀ i, lan.peers i = [i.other])
    (lower : lan.priOf n₀ high.other < lan.priOf n₀ high) (settling : Settling lan n₀ high n)
    (allowed : lan.Exchange n event) (returns : lan.protocol.step event n = .ok n') :
    Settling lan n₀ high n' := by
  refine settling.step allowed.1 (fun s keeps relies performed => ?_) returns
  cases event with
  | act i action =>
      cases action with
      | advertise =>
          cases performed
          exact keeps_advertise peers keeps
      | operate op => exact absurd rfl (allowed.2 i op)
  | deliver e =>
      have carries := relies e rfl
      exact keeps_hearing peers lower keeps carries (keeps.1.hearing performed)

/-! ## The router with the lower priority -/

/-- A frame leaves the router with the lower priority outside `MAST`. -/
theorem yields_deliver {high : Side} {e : Envelope Side Frame} (given : lan.vid ≠ 0)
    (regular : lan.priOf n₀ high ≠ 0) (lower : lan.priOf n₀ high.other < lan.priOf n₀ high)
    (settling : Settling lan n₀ high n) (inFlight : e ∈ n.flight) (target : e.target = high.other)
    (returns : lan.protocol.step (.deliver e) n = .ok n') : lan.stateOf n' high.other ≠ .mast := by
  obtain ⟨source, accepted, vid, carried⟩ := settling.messages e inFlight
  obtain ⟨serves, pri, -⟩ := settling.nodes e.target
  have hearing := serves.hearing (Protocol.step_self returns)
  have fromHigh : e.source = high := by rw [source, target, Side.other_other]
  have carriesHigh : e.message.inst.viVa.pri = lan.priOf n₀ high := by
    rcases carried with same | ⟨notHigh, -⟩
    · rw [same, fromHigh]
    · exact absurd fromHigh notHigh
  have greater : (n.node e.target).vrrpPri (lan.inst e.target) < e.message.inst.viVa.pri := by
    rw [pri, carriesHigh, target]
    exact lower
  rw [← target]
  by_cases master : ((n.node e.target).ds (lan.inst e.target)).state = .mast
  · have backup : ((n'.node e.target).ds (lan.inst e.target)).state = .back :=
      serves.yields accepted (own_of_vid vid) (by rw [vid]; exact given) master greater
        (Protocol.step_self returns)
    rw [stateOf, backup]
    exact nofun
  · rcases hearing.state with same | ⟨stop, -⟩ | ⟨was, -⟩
    · exact fun now => master (same.symm.trans now)
    · exact absurd (carriesHigh.symm.trans stop) regular
    · exact absurd was master

/-- Once it is outside `MAST` it stays there. -/
theorem yields_stable {high : Side} {event : lan.Event} (given : lan.vid ≠ 0)
    (regular : lan.priOf n₀ high ≠ 0) (lower : lan.priOf n₀ high.other < lan.priOf n₀ high)
    (settling : Settling lan n₀ high n) (allowed : lan.Exchange n event)
    (returns : lan.protocol.step event n = .ok n') (down : lan.stateOf n high.other ≠ .mast) :
    lan.stateOf n' high.other ≠ .mast := by
  by_cases here : high.other = event.node
  · cases event with
    | deliver e => exact yields_deliver given regular lower settling allowed.1 here.symm returns
    | act i action =>
        cases action with
        | operate op => exact absurd rfl (allowed.2 i op)
        | advertise =>
            have performed : .ok ((n.node i).advertise (lan.inst i)) = Except.ok (n'.node i) :=
              Protocol.step_self returns
            obtain rfl : high.other = i := here
            have idle : (n.node high.other).advertise (lan.inst high.other) = n.node high.other :=
              if_neg down
            rw [stateOf, ← Except.ok.inj performed, idle]
            exact down
  · rw [stateOf, Protocol.step_other returns here]
    exact down

/-- **With different priorities and a VRID other than 0 the routers agree.** -/
theorem agreement_of_lower {high : Side} (start : lan.TwoMasters n₀) (given : lan.vid ≠ 0)
    (lower : lan.priOf n₀ high.other < lan.priOf n₀ high) : lan.Agreement n₀ := by
  intro past n history settled
  have initially : Settling lan n₀ high n₀ := by
    refine ⟨fun i => ⟨start.serves i, rfl, fun _ => start.master i⟩, ?_⟩
    rw [start.quiet]
    simp
  have preserved : ∀ n event n', Settling lan n₀ high n → lan.Exchange n event →
      lan.protocol.step event n = .ok n' → Settling lan n₀ high n' :=
    fun _ _ _ settling allowed returns => settling_step start.peers lower settling allowed returns
  have settling := history.invariant _ initially preserved
  have regular := start.regular high
  have stays : ∀ n₁ event n₂, (n₁, event, n₂) ∈ past → lan.stateOf n₂ high.other ≠ .mast →
      lan.stateOf n high.other ≠ .mast := fun n₁ event n₂ member down =>
    history.stays _ initially preserved (fun n => lan.stateOf n high.other ≠ .mast)
      (fun _ _ _ settling allowed returns => yields_stable given regular lower settling allowed
        returns) member down
  have down : lan.stateOf n high.other ≠ .mast := by
    rcases settled high.other with ⟨n₁, e, n₂, member, target, -⟩ | ⟨n₁, event, n₂, member, -, left⟩
    · obtain ⟨before, allowed, returns⟩ := history.entry _ initially preserved member
      exact stays _ _ _ member
        (yields_deliver given regular lower before allowed.1 target returns)
    · exact stays _ _ _ member left
  obtain ⟨-, priHigh, master⟩ := settling.nodes high
  obtain ⟨-, priLow, -⟩ := settling.nodes high.other
  refine ⟨high, master rfl, down, fun _ => ?_⟩
  rw [priOf, priOf, priHigh, priLow]
  exact lower

/-! ## Routers that never yield -/

/-- Both routers are in `MAST`, with the priorities they had. -/
def StandOff (lan : Lan Side) (n₀ n : lan.State) : Prop :=
  ∀ i, (n.node i).Serves (lan.inst i) lan.key ∧ lan.priOf n i = lan.priOf n₀ i ∧
    lan.stateOf n i = .mast

/-- A stand-off goes on when a router advertises and the other one handles it. -/
theorem standOff_exchange (i : Side) (peers : ∀ i, lan.peers i = [i.other])
    (regular : lan.priOf n₀ i ≠ 0)
    (tie : lan.vid ≠ 0 → ¬ lan.priOf n₀ i.other < lan.priOf n₀ i) (standOff : StandOff lan n₀ n) :
    ∃ n₁ n₂ e, lan.protocol.step (.act i .advertise) n = .ok n₁ ∧ e ∈ n₁.flight ∧
      e.target = i.other ∧ e.source = i ∧ e.message.inst.viVa.pri ≠ 0 ∧
      lan.protocol.step (.deliver e) n₁ = .ok n₂ ∧ StandOff lan n₀ n₂ := by
  obtain ⟨serves, pri, master⟩ := standOff i
  obtain ⟨servesOther, priOther, masterOther⟩ := standOff i.other
  obtain ⟨n₁, advertised⟩ : ∃ n₁, lan.protocol.step (.act i .advertise) n = .ok n₁ :=
    ⟨_, Protocol.step_eq_ok.mpr ⟨_, rfl, rfl⟩⟩
  have self : n₁.node i = (n.node i).advertise (lan.inst i) :=
    (Except.ok.inj (Protocol.step_self advertised)).symm
  have other : n₁.node i.other = n.node i.other :=
    Protocol.step_other advertised (Side.other_ne i)
  have emitted : (n.node i).advertise (lan.inst i) = (n.node i).vrrpSendAdv (lan.inst i) 1 :=
    if_pos master
  let frame := (n.node i).vrrpBuildPkt (lan.inst i) 1
  let e : Envelope Side Frame := ⟨i, i.other, frame⟩
  have vid : frame.inst.viVr.vrId = lan.vid := serves.vid
  have inFlight : e ∈ n₁.flight := by
    refine Protocol.mem_flight_of_sent advertised (Protocol.mem_broadcast.mpr ⟨rfl, ?_, ?_⟩)
    · have peer : i.other ∈ lan.peers i := by simp [peers i]
      exact peer
    · have written : frame ∈ (n.node i).written (n₁.node i) := by
        rw [self, written_advertise]
        exact (if_pos master).symm ▸ List.mem_singleton_self frame
      exact written
  have handled : (n₁.node i.other).processVrrpdSock (lan.world i.other) afInet lan.ifname frame =
      .ok ((n₁.node i.other).heard frame) := by
    rw [other]
    refine servesOther.hears_master rfl (own_of_vid vid) ?_ masterOther fun given => ?_
    · exact fun none => regular (pri.symm.trans none)
    · rw [vid] at given
      have mine : frame.inst.viVa.pri = lan.priOf n₀ i := pri
      have theirs : (n.node i.other).vrrpPri (lan.inst i.other) = lan.priOf n₀ i.other := priOther
      rw [mine, theirs]
      exact tie given
  obtain ⟨n₂, delivered⟩ : ∃ n₂, lan.protocol.step (.deliver e) n₁ = .ok n₂ :=
    ⟨_, Protocol.step_eq_ok.mpr ⟨_, handled, rfl⟩⟩
  have heardOther : n₂.node i.other = (n.node i.other).heard frame := by
    have performed : (n₁.node i.other).processVrrpdSock (lan.world i.other) afInet lan.ifname
        frame = .ok (n₂.node i.other) := Protocol.step_self delivered
    rw [handled, other] at performed
    exact (Except.ok.inj performed).symm
  have sender : n₂.node i = (n.node i).vrrpSendAdv (lan.inst i) 1 := by
    rw [← emitted, ← self]
    exact Protocol.step_other delivered (Ne.symm (Side.other_ne i))
  refine ⟨n₁, n₂, e, advertised, inFlight, rfl, rfl, ?_, delivered, fun j => ?_⟩
  · exact fun none => regular (pri.symm.trans none)
  · rcases Side.eq_or_eq_other j i with rfl | rfl
    · rw [priOf, stateOf, sender]
      exact ⟨serves.of_shape rfl, pri, master⟩
    · rw [priOf, stateOf, heardOther]
      exact ⟨servesOther.heard frame, priOther, masterOther⟩

/-- So a history that ends in a stand-off goes on to one where the other router
has heard the advertisement. -/
theorem standOff_heard {past : lan.Past} (i : Side) (peers : ∀ i, lan.peers i = [i.other])
    (regular : lan.priOf n₀ i ≠ 0)
    (tie : lan.vid ≠ 0 → ¬ lan.priOf n₀ i.other < lan.priOf n₀ i)
    (history : History lan.protocol.step lan.Exchange n₀ past n) (standOff : StandOff lan n₀ n) :
    ∃ more n', History lan.protocol.step lan.Exchange n₀ (past ++ more) n' ∧
      StandOff lan n₀ n' ∧ lan.HasHeard (past ++ more) i.other := by
  obtain ⟨n₁, n₂, e, advertised, inFlight, target, source, heard, delivered, standOff⟩ :=
    standOff_exchange i peers regular tie standOff
  have sends : lan.Exchange n (.act i .advertise) := ⟨trivial, fun _ _ => by simp⟩
  have handles : lan.Exchange n₁ (.deliver e) := ⟨inFlight, fun _ _ => by simp⟩
  have second := (history.snoc sends advertised).snoc handles delivered
  rw [List.append_assoc] at second
  refine ⟨_, n₂, second, standOff, n₁, e, n₂, by simp, target, ?_, heard⟩
  rw [source, Side.other_other]

/-- With equal priorities, or with VRID 0, both routers remain masters. -/
theorem not_agreement (start : lan.TwoMasters n₀)
    (tie : lan.vid ≠ 0 → lan.priOf n₀ .left = lan.priOf n₀ .right) : ¬ lan.Agreement n₀ := by
  have notLower : ∀ i : Side, lan.vid ≠ 0 → ¬ lan.priOf n₀ i.other < lan.priOf n₀ i := by
    intro i given
    cases i <;> simp [Side.other, tie given]
  have standOff : StandOff lan n₀ n₀ := fun i => ⟨start.serves i, rfl, start.master i⟩
  obtain ⟨more, n₁, history, standOff, right⟩ :=
    standOff_heard .left start.peers (start.regular .left) (notLower .left) .nil standOff
  obtain ⟨more', n₂, history, standOff, left⟩ :=
    standOff_heard .right start.peers (start.regular .right) (notLower .right) history standOff
  intro agreement
  obtain ⟨i, -, down, -⟩ := agreement _ n₂ history fun i => .inl <| by
    cases i with
    | left => exact left
    | right =>
        obtain ⟨n, e, n', member, heard⟩ := right
        exact ⟨n, e, n', List.mem_append_left _ member, heard⟩
  exact down (standOff i.other).2.2

/-! ## The law -/

/-- **When two masters agree.** Two masters that serve one VRID agree after every
exchange of advertisements, in every order, if and only if their priorities
differ and the VRID is not 0. -/
theorem twoMasters_agree_iff (lan : Lan Side) (n₀ : lan.State) (start : lan.TwoMasters n₀) :
    lan.Agreement n₀ ↔ lan.priOf n₀ .left ≠ lan.priOf n₀ .right ∧ lan.vid ≠ 0 := by
  constructor
  · intro agreement
    by_contra tie
    refine not_agreement start (fun given => ?_) agreement
    by_contra different
    exact tie ⟨different, given⟩
  · rintro ⟨different, given⟩
    rcases Nat.lt_or_gt_of_ne (fun same => different (UInt8.toNat_inj.mp same)) with lower | lower
    · have below : lan.priOf n₀ (Side.right).other < lan.priOf n₀ .right := lower
      exact agreement_of_lower start given below
    · have below : lan.priOf n₀ (Side.left).other < lan.priOf n₀ .left := lower
      exact agreement_of_lower start given below

/-- Two routers on `eth0`, each with the first instance it created, of VRID 7. -/
def pair : Lan Side where
  world _ := .plain
  inst _ := 1
  vid := 7
  ifname := .eth0
  peers i := [i.other]

/-- Masters with the priorities asked for, each made by a run of its own. -/
theorem exists_twoMasters (ops : Side → List Op) (pri : Side → UInt8) (regular : ∀ i, pri i ≠ 0)
    (ran : ∀ i, passes (fun s => s.next instRuntimeList == some 1 && s.next 1 == none &&
      s.key 1 == .sample 7 && (s.ds 1).state == .mast && s.vrrpPri 1 == pri i)
      (exec (step .plain) (ops i) initial) = true) :
    ∃ n₀ : pair.State, (∀ i, Reachable .plain (n₀.node i)) ∧ pair.TwoMasters n₀ ∧
      ∀ i, pair.priOf n₀ i = pri i := by
  choose s returns tested using fun i => exists_of_passes (ran i)
  simp only [Bool.and_eq_true, beq_iff_eq] at tested
  have reachable : ∀ i, Reachable .plain (s i) := fun i => ⟨_, run_of_exec (returns i)⟩
  refine ⟨⟨s, []⟩, reachable, ⟨fun _ => rfl, fun i => ?_, fun i => (tested i).1.2, ?_, rfl⟩,
    fun i => (tested i).2⟩
  · obtain ⟨⟨⟨⟨first, last⟩, seven⟩, -⟩, -⟩ := tested i
    have serves := (reachable i).serves first last
    rw [seven] at serves
    exact serves
  · intro i none
    exact regular i ((tested i).2.symm.trans none)

/-- A master of priority 255 and one of priority 100. -/
theorem twoMasters_agree_different :
    ∃ n₀ : pair.State, pair.TwoMasters n₀ ∧ pair.Agreement n₀ := by
  obtain ⟨n₀, -, start, pri⟩ := exists_twoMasters
    (fun | .left => [.create 7 255] | .right => [.create 7 100, .startup 7])
    (fun | .left => 255 | .right => 100) (fun i => by cases i <;> decide)
    (fun i => by cases i <;> decide +kernel)
  refine ⟨n₀, start, (twoMasters_agree_iff pair n₀ start).mpr ⟨?_, by decide⟩⟩
  rw [pri, pri]
  decide

/-- **Two masters of priority 255 do not agree.** -/
theorem twoMasters_agree_equal :
    ∃ n₀ : pair.State, (∀ i, Reachable .plain (n₀.node i)) ∧ pair.TwoMasters n₀ ∧
      pair.priOf n₀ .left = 255 ∧ pair.priOf n₀ .right = 255 ∧ ¬ pair.Agreement n₀ := by
  obtain ⟨n₀, reachable, start, pri⟩ := exists_twoMasters (fun _ => [.create 7 255]) (fun _ => 255)
    (fun _ => by decide) (fun _ => by decide +kernel)
  exact ⟨n₀, reachable, start, pri .left, pri .right,
    not_agreement start fun _ => (pri .left).trans (pri .right).symm⟩

end Lan

end VrrpDaemon
