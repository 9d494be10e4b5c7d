import VrrpDaemon.Behaviour.Receipts
import VrrpDaemon.Properties.Sockets

/-!
# The order in which the daemon reads its sockets

A round of the loop of `vrrpd_adm_thread` reads one datagram: from the socket of `vrrpadm` if a
request waits, and otherwise from the first polled socket that has a frame (`round_outcome`).
Each socket is read in order (`reads_in_order`), and what waits behind others has to wait for
exactly these, as long as nothing arrives in front of it (`served_after`).

Every instance that is created adds a socket, so a frame is handled once for each socket of
its interface, and what other sockets hold may come in between. That does no harm: the
instances end in the states they would have reached by each frame once (`copies_agree`).
-/

set_option autoImplicit false

namespace VrrpDaemon

open Machine

namespace Host

variable {hw : HostWorld} {h h' h₀ : Host} {calls : List PollCall}

/-! ## The daemon in its host -/

/-- **The host carries out a run of the daemon**: its daemon is in a state that operations of
the daemon alone arrive in. -/
theorem Reachable.daemon (reachable : Reachable hw h) : Daemon.Reachable hw.world h.daemon := by
  obtain ⟨start, events, ready, run⟩ := reachable
  refine (run.invariant (fun h => Wired hw h ∧ Daemon.Reachable hw.world h.daemon)
    ⟨wired_setup ready, ?_⟩ fun h event h' kept _ returns => ⟨kept.1.step returns, ?_⟩).2
  · obtain ⟨added, -, ready⟩ := Outcome.bind_of_eq_ok.mp ready
    dsimp only at ready
    split at ready <;> cases ready
    exact ⟨[], .nil⟩
  · obtain ⟨nodes, linked, -⟩ := kept.1.slotted
    obtain ⟨ops, ran⟩ := kept.2
    cases step_outcome linked kept.1.size (kept.1.unset _ (Nat.le_refl _)) returns with
    | idle same => exact same ▸ ⟨ops, ran⟩
    | operates op _ stepped => exact ⟨_, ran.snoc trivial stepped⟩
    | creates inst _ _ _ stepped => exact ⟨_, ran.snoc trivial stepped⟩

/-! ## One round -/

/-- A frame is read from the polled socket of the call `c`, registered for an interface. -/
structure Reads (hw : HostWorld) (h h' : Host) (c : PollCall) (name : Ifname) (frame : Frame) :
    Prop where
  named : c.intf = some ⟨name.bytes, name.noNul⟩
  bound : h.Bound hw c.fd name
  waiting : ∃ frames, h.frames c.fd = frame :: frames ∧
    h'.frames = Function.update h.frames c.fd frames
  received : h.daemon.receive hw.world ⟨c.af, name, frame⟩ = .ok h'.daemon
  handled : h'.handled = h.handled ++ [(c.fd, ⟨c.af, name, frame⟩)]
  requests : h'.requests = h.requests
  same : h.SameSockets h'

/-- What a round does. -/
inductive Round (hw : HostWorld) (calls : List PollCall) (h h' : Host) : Prop where
  | blocked (noRequest : h.requests = []) (noFrame : ∀ c ∈ calls, h.frames c.fd = [])
      (same : h' = h)
  | request (waiting : h.requests ≠ []) (processed : processAdmSock hw h = .ok h')
  | frame (noRequest : h.requests = []) (before after : List PollCall) (c : PollCall)
      (split : calls = before ++ c :: after) (noFrame : ∀ d ∈ before, h.frames d.fd = [])
      (name : Ifname) (frame : Frame) (reads : Reads hw h h' c name frame)

/-- The entry of a call in the tables. -/
theorem tableOf_at {c : PollCall} {i : Nat} (here : calls[i]? = some c) :
    (PollTable.tableOf calls).pollfds[i]? = some ⟨c.fd, pollin⟩ ∧
      (PollTable.tableOf calls).pollAfs[i]? = some c.af ∧
        (PollTable.tableOf calls).pollIntfs[i]? = some c.name := by
  have used : i < calls.length := (List.getElem?_eq_some_iff.mp here).1
  have nonempty : calls ≠ [] := List.ne_nil_of_length_pos (Nat.zero_lt_of_lt used)
  simp only [PollTable.tableOf, if_neg nonempty]
  refine ⟨?_, ?_, ?_⟩ <;>
    rw [getElem?_fill (by rwa [List.length_map]), List.getElem?_map, here, Option.map_some]

/-- A name comes out of the table as it went in. -/
theorem intfName_bytes (name : Ifname) : intfName name.bytes = name := by
  have whole : (text name.bytes).take lifnamsiz = name.bytes := by
    rw [text_self name.noNul, List.take_of_length_le name.fits]
  exact Ifname.ext whole

theorem findIdx?_congr {α : Type} {p q : α → Bool} {l : List α} (same : ∀ a ∈ l, p a = q a) :
    l.findIdx? p = l.findIdx? q := by
  induction l with
  | nil => rfl
  | cons a l ih =>
      have later := ih fun b member => same b (List.mem_cons_of_mem _ member)
      rw [List.findIdx?_cons, List.findIdx?_cons, same a List.mem_cons_self, later]

/-- The first element that passes a test splits the list. -/
theorem split_of_findIdx? {α : Type} {p : α → Bool} {l : List α} {i : Nat}
    (found : l.findIdx? p = some i) :
    ∃ before a after, l = before ++ a :: after ∧ before.length = i ∧ p a = true ∧
      ∀ b ∈ before, p b = false := by
  induction l generalizing i with
  | nil => cases found
  | cons a l ih =>
      rw [List.findIdx?_cons] at found
      cases passed : p a with
      | true =>
          rw [if_pos passed] at found
          cases found
          exact ⟨[], a, l, rfl, rfl, passed, nofun⟩
      | false =>
          rw [if_neg (by simp [passed])] at found
          obtain ⟨j, later, rfl⟩ := Option.map_eq_some_iff.mp found
          obtain ⟨before, b, after, rfl, rfl, own, others⟩ := ih later
          refine ⟨a :: before, b, after, rfl, rfl, own, fun c member => ?_⟩
          rcases List.mem_cons.mp member with rfl | front
          · exact passed
          · exact others c front

/-- A table that is polled has an entry with something to read exactly when one of the calls
that made it has. -/
theorem findIdx?_readable (calls : List PollCall) (distinct : PollTable.Distinct calls)
    (nonempty : calls ≠ []) :
    (PollTable.tableOf calls).pollfds.findIdx? (h.readable hw) =
      calls.findIdx? (fun c => 0 < h.backlog hw c.fd) := by
  have own : ∀ c ∈ calls, h.readable hw ⟨c.fd, pollin⟩ = decide (0 < h.backlog hw c.fd) := by
    intro c member
    have open_ : c.fd ≠ -1 := fun closed => by
      have := distinct.nonneg c member
      omega
    simp [readable, open_]
  have blank : h.readable hw .empty = false := by simp [readable, Pollfd.empty]
  have blanks : (List.replicate (pollSlots - (calls.map fun c => (⟨c.fd, pollin⟩ : Pollfd)).length)
      Pollfd.empty).findIdx? (h.readable hw) = none := by
    rw [List.findIdx?_eq_none_iff]
    intro entry member
    rw [List.eq_of_mem_replicate member, blank]
  simp only [PollTable.tableOf, if_neg nonempty, fill, List.findIdx?_append, blanks,
    Option.map_none, Option.or_none, List.findIdx?_map]
  exact findIdx?_congr own

/-- **What a round does.** -/
theorem round_outcome (wired : Wired hw h) (polls : h.Polls hw calls)
    (returns : h.round hw = .ok h') : Round hw calls h h' := by
  have others : ∀ c ∈ calls, c.fd ≠ hw.admsock := by
    intro c member same
    obtain ⟨received, -⟩ := polls.bound c member
    obtain ⟨k, -, opened⟩ := wired.opened c.fd (wired.received _ received)
    exact hw.admFresh k (opened.symm.trans same)
  have backlog : ∀ c ∈ calls, h.backlog hw c.fd = (h.frames c.fd).length := fun c member =>
    if_neg (others c member)
  have first : h.backlog hw (admCall hw).fd = h.requests.length := if_pos rfl
  rw [round, polls.poll, findIdx?_readable _ polls.distinct (List.cons_ne_nil _ _)] at returns
  cases found : (admCall hw :: calls).findIdx? fun c => 0 < h.backlog hw c.fd with
  | none =>
      rw [found] at returns
      cases returns
      have silent := List.findIdx?_eq_none_iff.mp found
      have noRequest : h.requests = [] := by
        have := silent _ List.mem_cons_self
        rw [first] at this
        exact List.eq_nil_of_length_eq_zero (by simpa using this)
      refine .blocked noRequest (fun c member => ?_) rfl
      have := silent c (List.mem_cons_of_mem _ member)
      rw [backlog c member] at this
      exact List.eq_nil_of_length_eq_zero (by simpa using this)
  | some i =>
      rw [found] at returns
      obtain ⟨entry, read, returns⟩ := Outcome.bind_of_eq_ok.mp returns
      obtain ⟨before, c, after, split, length, waits, silent⟩ := split_of_findIdx? found
      have here : (admCall hw :: calls)[i]? = some c := by
        rw [split, ← length, List.getElem?_append_right (Nat.le_refl _), Nat.sub_self]
        rfl
      obtain ⟨fds, afs, names⟩ := tableOf_at here
      rw [fds, deref_some] at read
      cases read
      cases before with
      | nil =>
          obtain ⟨rfl, rfl⟩ := List.cons.inj split
          have own : (admCall hw).fd = hw.admsock := rfl
          rw [if_pos own] at returns
          rw [first] at waits
          refine .request (fun none => ?_) returns
          rw [none] at waits
          cases waits
      | cons adm before =>
          obtain ⟨rfl, rest⟩ := List.cons.inj split
          have member : c ∈ calls := by simp [rest]
          have notAdm : c.fd ≠ hw.admsock := others c member
          rw [if_neg notAdm] at returns
          have noRequest : h.requests = [] := by
            have none := silent _ List.mem_cons_self
            rw [first] at none
            exact List.eq_nil_of_length_eq_zero (by simpa using none)
          rw [backlog c member] at waits
          obtain ⟨-, name, named, bound⟩ := polls.bound c member
          rcases processVrrpdSock_outcome returns with
            ⟨empty, -⟩ | ⟨frame, frames, af, intf, s, waiting, family, interface, received, rfl⟩
          · rw [empty] at waits
            cases waits
          · rw [polls.poll, afs] at family
            rw [polls.poll, names] at interface
            cases family
            cases interface
            have own : intfName c.name = name := by
              have given : c.name = name.bytes := by simp [PollCall.name, named]
              rw [given, intfName_bytes]
            rw [own] at received
            refine .frame noRequest before after c rest (fun d front => ?_) name frame
              ⟨named, bound, ⟨frames, waiting, rfl⟩, received, by rw [own], rfl,
                ⟨rfl, rfl, rfl, rfl, rfl⟩⟩
            have none := silent d (List.mem_cons_of_mem _ front)
            rw [backlog d (by simp [rest, front])] at none
            exact List.eq_nil_of_length_eq_zero (by simpa using none)

/-! ## The order of reading -/

/-- The frames that arrive at a device. -/
def arrivals (device : Option Nat) (events : List Event) : List Frame :=
  events.filterMap fun
    | .arrive index frame => if device = some index then some frame else none
    | _ => none

theorem arrivals_append (device : Option Nat) (events : List Event) (event : Event) :
    arrivals device (events ++ [event]) = arrivals device events ++ arrivals device [event] :=
  List.filterMap_append ..

/-- A create leaves what waits in the sockets. -/
theorem createCommand_kept {inst : VrrpInst} {ret : Int}
    (returns : createCommand hw inst h = .ok (ret, h')) :
    h'.frames = h.frames ∧ h'.handled = h.handled ∧ h'.requests = h.requests := by
  obtain ⟨⟨status, made, s⟩, -, returns⟩ := Outcome.bind_of_eq_ok.mp returns
  dsimp only at returns
  split at returns
  · cases returns
    exact ⟨rfl, rfl, rfl⟩
  · obtain ⟨v, -, returns⟩ := Outcome.bind_of_eq_ok.mp returns
    obtain ⟨h₁, setUp, returns⟩ := bind_eq_ok.mp returns
    obtain ⟨h₂, started, returns⟩ := bind_eq_ok.mp returns
    have first : h₁.frames = h.frames ∧ h₁.handled = h.handled ∧ h₁.requests = h.requests := by
      obtain ⟨⟨⟨status, fp⟩, nets⟩, -, setUp⟩ := Outcome.bind_of_eq_ok.mp setUp
      dsimp only at setUp
      split at setUp
      · cases setUp
      · cases setUp
        exact ⟨rfl, rfl, rfl⟩
    have second : h₂.frames = h₁.frames ∧ h₂.handled = h₁.handled ∧ h₂.requests = h₁.requests := by
      obtain ⟨k, -, started⟩ := Outcome.bind_of_eq_ok.mp started
      obtain ⟨fd, -, started⟩ := Outcome.bind_of_eq_ok.mp started
      obtain ⟨added, -, started⟩ := Outcome.bind_of_eq_ok.mp started
      cases started
      exact ⟨rfl, rfl, rfl⟩
    have both : h₂.frames = h.frames ∧ h₂.handled = h.handled ∧ h₂.requests = h.requests :=
      ⟨second.1.trans first.1, second.2.1.trans first.2.1, second.2.2.trans first.2.2⟩
    split at returns
    · obtain ⟨started, -, returns⟩ := Outcome.bind_of_eq_ok.mp returns
      cases returns
      exact both
    · cases returns
      exact both

/-- A request that is carried out leaves the other requests and the frames. -/
theorem processAdmSock_kept (returns : processAdmSock hw h = .ok h') :
    h'.frames = h.frames ∧ h'.handled = h.handled ∧ h'.requests = h.requests.tail := by
  unfold processAdmSock at returns
  split at returns
  · rename_i none
    cases returns
    exact ⟨rfl, rfl, by rw [none]; rfl⟩
  · rename_i requests waiting
    cases returns
    exact ⟨rfl, rfl, by rw [waiting]; rfl⟩
  · rename_i inst requests waiting
    obtain ⟨⟨ret, h₁⟩, created, returns⟩ := bind_eq_ok.mp returns
    cases returns
    rw [waiting]
    exact createCommand_kept (h := { h with requests := requests }) created
  · rename_i command requests other waiting
    obtain ⟨answered, -, returns⟩ := Outcome.bind_of_eq_ok.mp returns
    cases returns
    exact ⟨rfl, rfl, by rw [waiting]; rfl⟩

/-- A socket that receives goes on receiving from its device. -/
theorem receiver_kept {event : Event} (wired : Wired hw h) (returns : step hw event h = .ok h')
    {fd : Int} (receives : fd ∈ h.receivers) : fd ∈ h'.receivers ∧ h'.device fd = h.device fd := by
  obtain ⟨nodes, linked, -⟩ := wired.slotted
  cases step_outcome linked wired.size (wired.unset _ (Nat.le_refl _)) returns with
  | idle _ same =>
      rw [same.receivers, same.device]
      exact ⟨receives, rfl⟩
  | operates _ _ _ same =>
      rw [same.receivers, same.device]
      exact ⟨receives, rfl⟩
  | creates _ _ _ _ _ _ _ opens =>
      rw [opens.receivers]
      exact ⟨List.mem_append_left _ receives, wired.kept opens (wired.received fd receives)⟩

/-- What was read is in order: the log `log` and what still waits in a socket are what waited in
it and what has arrived since; and what was read from a socket has been handled under an
interface whose device the socket is bound to. -/
structure InOrder (hw : HostWorld) (h h' : Host) (events : List Event)
    (log : List (Int × Receipt)) : Prop where
  handled : h'.handled = h.handled ++ log
  lanes : ∀ fd ∈ h.receivers, (lane fd log).map Receipt.frame ++ h'.frames fd =
    h.frames fd ++ arrivals (h.device fd) events
  sources : ∀ item ∈ log, item.1 ∈ h'.receivers ∧ h'.device item.1 = deviceOf hw item.2.ifname

theorem InOrder.silent {events : List Event} (handled : h'.handled = h.handled)
    (frames : h'.frames = h.frames) (none : ∀ device, arrivals device events = []) :
    InOrder hw h h' events [] where
  handled := by rw [handled, List.append_nil]
  lanes fd _ := by
    rw [none, frames, List.append_nil]
    rfl
  sources _ member := absurd member List.not_mem_nil

theorem InOrder.arrived (index : Nat) (frame : Frame) :
    InOrder hw h (h.arrive index frame) [.arrive index frame] [] where
  handled := (List.append_nil _).symm
  lanes fd receives := by
    have news : arrivals (h.device fd) [.arrive index frame] =
        if h.device fd = some index then [frame] else [] := by
      by_cases here : h.device fd = some index <;> simp [arrivals, here]
    rw [news]
    by_cases here : h.device fd = some index <;> simp [arrive, receives, here]
  sources _ member := absurd member List.not_mem_nil

theorem Reads.inOrder {c : PollCall} {name : Ifname} {frame : Frame}
    (reads : Reads hw h h' c name frame) (received : c.fd ∈ h.receivers) :
    InOrder hw h h' [.round] [(c.fd, ⟨c.af, name, frame⟩)] where
  handled := reads.handled
  lanes fd _ := by
    obtain ⟨frames, waiting, rest⟩ := reads.waiting
    have none : arrivals (h.device fd) [.round] = [] := rfl
    rw [none, List.append_nil, rest]
    by_cases here : c.fd = fd
    · subst here
      rw [lane_cons_self, Function.update_self, waiting]
      rfl
    · rw [lane_cons_other here, Function.update_of_ne (Ne.symm here)]
      rfl
  sources item member := by
    rw [List.mem_singleton.mp member, reads.same.receivers, reads.same.device]
    exact ⟨received, reads.bound.device⟩

/-- The step lemma. -/
theorem step_inOrder {event : Event} (wired : Wired hw h) (returns : step hw event h = .ok h') :
    ∃ log, InOrder hw h h' [event] log := by
  cases event with
  | request command =>
      cases returns
      exact ⟨[], .silent rfl rfl fun _ => rfl⟩
  | alarm =>
      obtain ⟨s, -, returns⟩ := Outcome.bind_of_eq_ok.mp returns
      cases returns
      exact ⟨[], .silent rfl rfl fun _ => rfl⟩
  | arrive index frame =>
      cases returns
      exact ⟨[], .arrived index frame⟩
  | round =>
      obtain ⟨calls, polls⟩ := wired.polls
      cases round_outcome wired polls returns with
      | blocked _ _ same => exact ⟨[], .silent (by rw [same]) (by rw [same]) fun _ => rfl⟩
      | request _ processed =>
          obtain ⟨frames, handled, -⟩ := processAdmSock_kept processed
          exact ⟨[], .silent handled frames fun _ => rfl⟩
      | frame _ before after c split _ name frame reads =>
          have received : c.fd ∈ h.receivers := (polls.bound c (by simp [split])).1
          exact ⟨_, reads.inOrder received⟩

/-- **Every socket is read in order, and every frame handled once per socket, under the right
interface**, whatever happens: for a socket that receives when a run begins, the frames that
were read from it and those that still wait are those that waited and those that have arrived
at its device since; and each frame that was read has been handled under an interface whose
device its socket is bound to. -/
theorem reads_in_order (hw : HostWorld) (h₀ : Host) (reachable : Reachable hw h₀)
    (events : List Event) (h : Host) (run : Run (step hw) unguarded h₀ events h) :
    ∃ log, InOrder hw h₀ h events log := by
  have wired₀ := reachable_wired hw h₀ reachable
  have kept : Wired hw h ∧ (∀ fd ∈ h₀.receivers, fd ∈ h.receivers ∧ h.device fd = h₀.device fd) ∧
      ∃ log, InOrder hw h₀ h events log := by
    induction run with
    | nil => exact ⟨wired₀, fun fd receives => ⟨receives, rfl⟩, [], .silent rfl rfl fun _ => rfl⟩
    | @snoc events h h' event before _ returns ih =>
        obtain ⟨wired, older, log, inOrder⟩ := ih
        obtain ⟨news, step⟩ := step_inOrder wired returns
        refine ⟨wired.step returns, fun fd receives => ?_, log ++ news, ?_, fun fd receives => ?_,
          fun item member => ?_⟩
        · obtain ⟨still, same⟩ := older fd receives
          obtain ⟨now, device⟩ := receiver_kept wired returns still
          exact ⟨now, device.trans same⟩
        · rw [step.handled, inOrder.handled, List.append_assoc]
        · obtain ⟨still, same⟩ := older fd receives
          rw [lane_append, List.map_append, List.append_assoc, step.lanes fd still,
            ← List.append_assoc, inOrder.lanes fd receives, arrivals_append, List.append_assoc, same]
        · rcases List.mem_append.mp member with old | new
          · obtain ⟨received, device⟩ := inOrder.sources item old
            obtain ⟨now, same⟩ := receiver_kept wired returns received
            exact ⟨now, same.trans device⟩
          · exact step.sources item new
  exact kept.2.2

/-! ## How long a frame waits -/

/-- How much waits in some sockets. -/
def waitingIn (h : Host) (sockets : List PollCall) : Nat :=
  (sockets.map fun c => (h.frames c.fd).length).sum

/-- The frame waits in the socket of `c`, and `ahead` datagrams are read before it: the requests,
what waits in the sockets polled first, and the frames in front of it. -/
structure Queued (hw : HostWorld) (h : Host) (before : List PollCall) (c : PollCall) (frame : Frame)
    (ahead : Nat) : Prop where
  polls : ∃ after, h.Polls hw (before ++ c :: after)
  waiting : ∃ front back, h.frames c.fd = front ++ frame :: back ∧
    h.requests.length + h.waitingIn before + front.length = ahead

/-- Events that bring nothing in front of the frame. -/
def Behind (h : Host) (before : List PollCall) (event : Event) : Prop :=
  (∀ command, event ≠ .request command) ∧
    ∀ index frame, event = .arrive index frame → ∀ d ∈ before, h.device d.fd ≠ some index

/-- The number of rounds. -/
def rounds (events : List Event) : Nat := events.countP (· = .round)

theorem waitingIn_congr {sockets : List PollCall}
    (same : ∀ c ∈ sockets, h'.frames c.fd = h.frames c.fd) :
    h'.waitingIn sockets = h.waitingIn sockets := by
  rw [waitingIn, waitingIn]
  exact congrArg List.sum (List.map_congr_left fun c member => congrArg List.length (same c member))

theorem waitingIn_append (front back : List PollCall) :
    h.waitingIn (front ++ back) = h.waitingIn front + h.waitingIn back := by
  simp only [waitingIn, List.map_append, List.sum_append]

theorem waitingIn_cons (c : PollCall) (sockets : List PollCall) :
    h.waitingIn (c :: sockets) = (h.frames c.fd).length + h.waitingIn sockets := by
  simp only [waitingIn, List.map_cons, List.sum_cons]

theorem waitingIn_eq_zero {sockets : List PollCall} (none : ∀ c ∈ sockets, h.frames c.fd = []) :
    h.waitingIn sockets = 0 := by
  induction sockets with
  | nil => rfl
  | cons c sockets ih =>
      rw [waitingIn_cons, none c List.mem_cons_self,
        ih fun d member => none d (List.mem_cons_of_mem _ member)]
      rfl

/-- Reading another socket leaves what waits in a socket. -/
theorem Reads.other {c d : PollCall} {name : Ifname} {frame : Frame}
    (reads : Reads hw h h' c name frame) (different : d.fd ≠ c.fd) :
    h'.frames d.fd = h.frames d.fd := by
  obtain ⟨frames, -, rest⟩ := reads.waiting
  rw [rest, Function.update_of_ne different]

/-- Two ways to split a list: at one element, at an earlier one, or at a later one. -/
theorem first_split {α : Type} {before after earlier later : List α} {a b : α}
    (same : before ++ a :: after = earlier ++ b :: later) :
    (earlier = before ∧ b = a) ∨ (∃ middle, before = earlier ++ b :: middle) ∨ a ∈ earlier := by
  rcases List.append_eq_append_iff.mp same with ⟨rest, front, back⟩ | ⟨rest, front, back⟩
  · cases rest with
    | nil =>
        rw [List.append_nil] at front
        exact .inl ⟨front, (List.cons.inj back).1.symm⟩
    | cons x rest =>
        rw [front, (List.cons.inj back).1]
        exact .inr (.inr (by simp))
  · cases rest with
    | nil =>
        rw [List.append_nil] at front
        exact .inl ⟨front.symm, (List.cons.inj back).1⟩
    | cons x rest =>
        rw [(List.cons.inj back).1]
        exact .inr (.inl ⟨rest, front⟩)

/-- The polled sockets are different ones. -/
theorem Polls.fd_ne (polls : h.Polls hw calls) {earlier later : List PollCall} {d e : PollCall}
    (split : calls = earlier ++ d :: later) (place : e ∈ earlier ∨ e ∈ later) : e.fd ≠ d.fd := by
  have nodup : (calls.map PollCall.fd).Nodup := (List.nodup_cons.mp polls.distinct.nodup).2
  rw [split, List.map_append, List.map_cons, List.nodup_append] at nodup
  obtain ⟨-, back, across⟩ := nodup
  rcases place with before | behind
  · exact across _ (List.mem_map_of_mem before) _ List.mem_cons_self
  · exact fun same => (List.nodup_cons.mp back).1 (same ▸ List.mem_map_of_mem behind)

/-- **A round brings the frame one datagram nearer**, or reads it. -/
theorem Queued.round {before : List PollCall} {c : PollCall} {frame : Frame} {ahead : Nat}
    (queued : Queued hw h before c frame ahead) (wired : Wired hw h)
    (returns : h.round hw = .ok h') :
    (ahead = 0 ∧ ∃ name, Reads hw h h' c name frame) ∨
      ∃ less, ahead = less + 1 ∧ Queued hw h' before c frame less := by
  obtain ⟨⟨after, polls⟩, front, back, held, count⟩ := queued
  have polls' : ∃ after', h'.Polls hw (before ++ c :: after') := by
    have performed : step hw .round h = .ok h' := returns
    obtain ⟨more, polled⟩ := polls.step wired performed
    rw [List.append_assoc, List.cons_append] at polled
    exact ⟨_, polled⟩
  cases round_outcome wired polls returns with
  | blocked _ noFrame =>
      rw [noFrame c (by simp)] at held
      simp at held
  | request waiting processed =>
      obtain ⟨frames, -, requests⟩ := processAdmSock_kept processed
      have fewer : h.requests.length = h'.requests.length + 1 := by
        rw [requests, List.length_tail]
        have := List.length_pos_iff.mpr waiting
        omega
      refine .inr ⟨h'.requests.length + h'.waitingIn before + front.length, ?_, polls', front, back,
        by rw [frames, held], rfl⟩
      rw [waitingIn_congr fun d _ => congrFun frames d.fd]
      omega
  | frame noRequest earlier later d split noFrame name other reads =>
      have noRequest' : h'.requests = [] := reads.requests.trans noRequest
      obtain ⟨frames, waiting, rest⟩ := reads.waiting
      rcases first_split split with ⟨rfl, rfl⟩ | ⟨middle, rfl⟩ | member
      · -- the socket of the frame is read
        rw [noRequest, waitingIn_eq_zero noFrame] at count
        cases front with
        | nil =>
            obtain ⟨rfl, -⟩ := List.cons.inj (waiting.symm.trans held)
            exact .inl ⟨count.symm, name, reads⟩
        | cons first front =>
            obtain ⟨-, rfl⟩ := List.cons.inj (waiting.symm.trans held)
            refine .inr ⟨front.length, by simpa using count.symm, polls', front, back, ?_, ?_⟩
            · rw [rest, Function.update_self]
              rfl
            · have still : h'.waitingIn earlier = h.waitingIn earlier :=
                waitingIn_congr fun e among => reads.other (polls.fd_ne rfl (.inl among))
              rw [noRequest', still, waitingIn_eq_zero noFrame]
              simp
      · -- a socket polled first is read
        have apart : ∀ e, e ∈ earlier ∨ e ∈ middle ∨ e = c → e.fd ≠ d.fd := by
          intro e place
          refine polls.fd_ne split (place.imp_right fun behind => ?_)
          have tail : later = middle ++ c :: after := by simpa using split.symm
          rw [tail]
          rcases behind with among | rfl
          · exact List.mem_append_left _ among
          · exact List.mem_append_right _ List.mem_cons_self
        have front' : h'.waitingIn earlier = h.waitingIn earlier :=
          waitingIn_congr fun e among => reads.other (apart e (.inl among))
        have behind : h'.waitingIn middle = h.waitingIn middle :=
          waitingIn_congr fun e among => reads.other (apart e (.inr (.inl among)))
        have fewer : (h.frames d.fd).length = (h'.frames d.fd).length + 1 := by
          rw [waiting, rest, Function.update_self]
          rfl
        refine .inr ⟨h'.requests.length + h'.waitingIn (earlier ++ d :: middle) + front.length, ?_, polls',
          front, back, by rw [reads.other (apart c (.inr (.inr rfl))), held], rfl⟩
        rw [waitingIn_append, waitingIn_cons] at count ⊢
        rw [reads.requests, front', behind]
        omega
      · rw [noFrame c member] at held
        simp at held

/-- Any other event brings nothing in front of the frame. -/
theorem Queued.behind {before : List PollCall} {c : PollCall} {frame : Frame} {ahead : Nat}
    {event : Event} (queued : Queued hw h before c frame ahead) (wired : Wired hw h)
    (behind : h.Behind before event) (notRound : event ≠ .round)
    (returns : step hw event h = .ok h') : Queued hw h' before c frame ahead := by
  obtain ⟨⟨after, polls⟩, front, back, held, count⟩ := queued
  have polls' : ∃ after', h'.Polls hw (before ++ c :: after') := by
    obtain ⟨more, polled⟩ := polls.step wired returns
    rw [List.append_assoc, List.cons_append] at polled
    exact ⟨_, polled⟩
  cases event with
  | request command => exact absurd rfl (behind.1 command)
  | round => exact absurd rfl notRound
  | alarm =>
      obtain ⟨s, -, returns⟩ := Outcome.bind_of_eq_ok.mp returns
      cases returns
      exact ⟨polls', front, back, held, count⟩
  | arrive index news =>
      cases returns
      have still : (h.arrive index news).waitingIn before = h.waitingIn before :=
        waitingIn_congr fun d among => if_neg fun here => behind.2 index news rfl d among here.2
      refine ⟨polls', front, ?_⟩
      by_cases here : c.fd ∈ h.receivers ∧ h.device c.fd = some index
      · refine ⟨back ++ [news], ?_, still ▸ count⟩
        have joined : (h.arrive index news).frames c.fd = h.frames c.fd ++ [news] := if_pos here
        rw [joined, held, List.append_assoc]
        rfl
      · refine ⟨back, ?_, still ▸ count⟩
        have same : (h.arrive index news).frames c.fd = h.frames c.fd := if_neg here
        rw [same, held]

theorem Behind.of_device {before : List PollCall} {event : Event} (behind : h₀.Behind before event)
    (same : ∀ d ∈ before, h.device d.fd = h₀.device d.fd) : h.Behind before event := by
  refine ⟨behind.1, fun index frame news d among => ?_⟩
  rw [same d among]
  exact behind.2 index frame news d among

/-- **How long a frame waits.** A frame waits in a socket, with `ahead` datagrams to be read
before it; then no request arrives, and no frame in a socket that is polled before. After as
many rounds as there were datagrams ahead, and not earlier, the next round reads the frame. -/
theorem served_after (hw : HostWorld) (h₀ : Host) (reachable : Reachable hw h₀)
    (before : List PollCall) (c : PollCall) (frame : Frame) (ahead : Nat)
    (queued : Queued hw h₀ before c frame ahead) (events : List Event)
    (behind : ∀ event ∈ events, h₀.Behind before event) (few : rounds events ≤ ahead) (h : Host)
    (run : Run (step hw) unguarded h₀ events h) :
    Queued hw h before c frame (ahead - rounds events) ∧
      (rounds events = ahead → ∀ h', h.round hw = .ok h' → ∃ name, Reads hw h h' c name frame) := by
  have kept : Wired hw h ∧ (∀ d ∈ before, d.fd ∈ h.receivers ∧ h.device d.fd = h₀.device d.fd) ∧
      Queued hw h before c frame (ahead - rounds events) := by
    induction run with
    | nil =>
        obtain ⟨after, polls⟩ := queued.polls
        refine ⟨reachable_wired hw h₀ reachable, fun d among => ⟨?_, rfl⟩, queued⟩
        exact (polls.bound d (List.mem_append_left _ among)).1
    | @snoc events h h' event earlier _ returns ih =>
        have counted : rounds (events ++ [event]) = rounds events + if event = .round then 1 else 0 := by
          simp [rounds, List.countP_append, List.countP_singleton]
        rw [counted] at few ⊢
        obtain ⟨wired, older, waits⟩ := ih
          (fun event member => behind event (List.mem_append_left _ member)) (by omega)
        refine ⟨wired.step returns, fun d among => ?_, ?_⟩
        · obtain ⟨received, device⟩ := older d among
          obtain ⟨still, same⟩ := receiver_kept wired returns received
          exact ⟨still, same.trans device⟩
        · by_cases isRound : event = .round
          · subst isRound
            rw [if_pos rfl] at few ⊢
            rcases waits.round wired returns with ⟨none, -⟩ | ⟨less, more, nearer⟩
            · omega
            · have left : ahead - (rounds events + 1) = less := by omega
              rw [left]
              exact nearer
          · rw [if_neg isRound, Nat.add_zero]
            have now := (behind event (by simp)).of_device fun d among => (older d among).2
            exact waits.behind wired now isRound returns
  refine ⟨kept.2.2, fun all h' returns => ?_⟩
  rcases kept.2.2.round kept.1 returns with ⟨-, reads⟩ | ⟨less, more, -⟩
  · exact reads
  · omega

/-! ## Frames that are handled several times -/

/-- The daemon has nothing to read, and the polled sockets of a device are all registered with
one family and one name. -/
structure Listening (hw : HostWorld) (h : Host) (calls : List PollCall) (index : Nat) (af : Int)
    (name : Ifname) : Prop where
  polls : h.Polls hw calls
  registered : ∀ c ∈ calls, h.device c.fd = some index →
    c.af = af ∧ c.intf = some ⟨name.bytes, name.noNul⟩
  noRequest : h.requests = []
  noFrame : ∀ c ∈ calls, h.frames c.fd = []

/-- Frames arrive at the device, and rounds are made. -/
def Traffic (index : Nat) (event : Event) : Prop :=
  event = .round ∨ ∃ frame, event = .arrive index frame

/-- What holds during the traffic: the daemon has handled the log, and nothing else. -/
structure Handled (hw : HostWorld) (h₀ h : Host) (calls : List PollCall)
    (log : List (Int × Receipt)) : Prop where
  handled : h.handled = h₀.handled ++ log
  daemon : exec (Daemon.receive hw.world) (log.map Prod.snd) h₀.daemon = .ok h.daemon
  noRequest : h.requests = []
  same : h₀.SameSockets h
  sources : ∀ item ∈ log, ∃ c ∈ calls, item.1 = c.fd ∧ item.2.af = c.af ∧
    c.intf = some ⟨item.2.ifname.bytes, item.2.ifname.noNul⟩

theorem Handled.step {log : List (Int × Receipt)} {index : Nat} {event : Event}
    (handled : Handled hw h₀ h calls log) (wired : Wired hw h) (polls : h₀.Polls hw calls)
    (traffic : Traffic index event) (returns : step hw event h = .ok h') :
    ∃ log', Handled hw h₀ h' calls log' := by
  have polls : h.Polls hw calls := polls.same handled.same
  rcases traffic with rfl | ⟨frame, rfl⟩
  · cases round_outcome wired polls returns with
    | blocked _ _ same => exact ⟨log, same ▸ handled⟩
    | request waiting => exact absurd handled.noRequest waiting
    | frame _ before after c split _ name frame reads =>
        refine ⟨log ++ [(c.fd, ⟨c.af, name, frame⟩)], ?_, ?_, ?_, ?_, fun item member => ?_⟩
        · rw [reads.handled, handled.handled, List.append_assoc]
        · rw [List.map_append, exec_append, handled.daemon, ok_bind]
          exact bind_eq_ok.mpr ⟨_, reads.received, rfl⟩
        · rw [reads.requests, handled.noRequest]
        · exact ⟨reads.same.nets.trans handled.same.nets, reads.same.poll.trans handled.same.poll,
            reads.same.vfd.trans handled.same.vfd, reads.same.device.trans handled.same.device,
            reads.same.receivers.trans handled.same.receivers⟩
        · rcases List.mem_append.mp member with old | new
          · exact handled.sources item old
          · rw [List.mem_singleton.mp new]
            exact ⟨c, by simp [split], rfl, rfl, reads.named⟩
  · cases returns
    exact ⟨log, handled.handled, handled.daemon, handled.noRequest,
      ⟨handled.same.nets, handled.same.poll, handled.same.vfd, handled.same.device,
        handled.same.receivers⟩, handled.sources⟩

theorem handled_run {index : Nat} {events : List Event} (wired : Wired hw h₀)
    (polls : h₀.Polls hw calls) (noRequest : h₀.requests = [])
    (traffic : ∀ event ∈ events, Traffic index event)
    (run : Run (Host.step hw) unguarded h₀ events h) : ∃ log, Handled hw h₀ h calls log := by
  have kept : Wired hw h ∧ ∃ log, Handled hw h₀ h calls log := by
    induction run with
    | nil =>
        exact ⟨wired, [], (List.append_nil _).symm, rfl, noRequest, .refl _,
          fun _ member => absurd member List.not_mem_nil⟩
    | snoc before _ returns ih =>
        obtain ⟨wired', log, handled⟩ := ih fun event member =>
          traffic event (List.mem_append_left _ member)
        exact ⟨wired'.step returns,
          handled.step wired' polls (traffic _ (by simp)) returns⟩
  exact kept.2

/-- No frame arrives at another device. -/
theorem arrivals_traffic {index : Nat} {events : List Event} {device : Option Nat}
    (traffic : ∀ event ∈ events, Traffic index event) (other : device ≠ some index) :
    arrivals device events = [] := by
  rw [arrivals, List.filterMap_eq_nil_iff]
  intro event member
  rcases traffic event member with rfl | ⟨frame, rfl⟩
  · rfl
  · exact if_neg other

/-- **However often frames are handled, they lead to the same states.** All polled sockets of a
device are registered with one family and one name, and nothing waits in them. Then frames
arrive at the device while the daemon reads its sockets, in any order of events, until nothing
waits any more. Every instance is now in the state, and every flag has the value, that handling
each frame once leads to. -/
theorem copies_agree (hw : HostWorld) (h₀ : Host) (reachable : Reachable hw h₀)
    (calls : List PollCall) (index : Nat) (af : Int) (name : Ifname)
    (listening : Listening hw h₀ calls index af name)
    (heard : ∃ c ∈ calls, h₀.device c.fd = some index) (events : List Event)
    (traffic : ∀ event ∈ events, Traffic index event) (h : Host)
    (run : Run (step hw) unguarded h₀ events h) (drained : ∀ c ∈ calls, h.frames c.fd = [])
    (s : Daemon)
    (once : exec (Daemon.receive hw.world)
      ((arrivals (some index) events).map fun frame => ⟨af, name, frame⟩) h₀.daemon = .ok s) :
    h.daemon.shape = s.shape ∧ h.daemon.vrs = s.vrs ∧ h.daemon.flag = s.flag ∧
      ∀ v, (h.daemon.ds v).state = (s.ds v).state := by
  obtain ⟨log, inOrder⟩ := reads_in_order hw h₀ reachable events h run
  obtain ⟨log', handled⟩ := handled_run (reachable_wired hw h₀ reachable) listening.polls
    listening.noRequest traffic run
  obtain rfl : log' = log := List.append_cancel_left (handled.handled.symm.trans inOrder.handled)
  obtain ⟨nodes, linked, -⟩ := (reachable_wired hw h₀ reachable).slotted
  -- each socket of the device has read the frames once, and no other socket has read any
  have lanes : ∀ c ∈ calls, (lane c.fd log').map Receipt.frame = arrivals (h₀.device c.fd) events := by
    intro c member
    have own := inOrder.lanes c.fd (listening.polls.bound c member).1
    rwa [drained c member, listening.noFrame c member, List.append_nil, List.nil_append] at own
  have full : ∀ c ∈ calls, h₀.device c.fd = some index →
      lane c.fd log' = (arrivals (some index) events).map fun frame => ⟨af, name, frame⟩ := by
    intro c member bound
    rw [← bound, ← lanes c member, List.map_map]
    refine (List.map_id _).symm.trans (List.map_congr_left fun receipt among => ?_)
    obtain ⟨item, kept, rfl⟩ := List.mem_map.mp among
    obtain ⟨among, here⟩ := List.mem_filter.mp kept
    obtain ⟨d, polled, fd, family, interface⟩ := handled.sources item among
    have same : d.fd = c.fd := fd.symm.trans (by simpa using here)
    obtain ⟨ownAf, ownIntf⟩ := listening.registered d polled (by rw [same, bound])
    rw [ownIntf, Option.some.injEq, Subtype.mk.injEq] at interface
    have interface : item.2.ifname = name := Ifname.ext interface.symm
    have family : item.2.af = af := family.trans ownAf
    obtain ⟨socket, receipt⟩ := item
    subst interface family
    rfl
  have inLanes : ∀ item ∈ log', item.1 ∈
      (calls.filter fun c => h₀.device c.fd = some index).map PollCall.fd := by
    intro item among
    obtain ⟨d, polled, fd, -⟩ := handled.sources item among
    rw [fd]
    refine List.mem_map_of_mem (List.mem_filter.mpr ⟨polled, decide_eq_true ?_⟩)
    by_contra other
    have none := lanes d polled
    rw [arrivals_traffic traffic other, List.map_eq_nil_iff] at none
    have read : item.2 ∈ lane d.fd log' :=
      List.mem_map_of_mem (List.mem_filter.mpr ⟨among, decide_eq_true fd⟩)
    rw [none] at read
    cases read
  have nonempty : (calls.filter fun c => h₀.device c.fd = some index).map PollCall.fd ≠ [] := by
    obtain ⟨c, member, bound⟩ := heard
    exact List.ne_nil_of_mem (List.mem_map_of_mem (List.mem_filter.mpr ⟨member, decide_eq_true bound⟩))
  -- so the last write of every lane is that of the frames
  have last : ∀ {β : Type} (writes : Receipt → Option β), lastWrite writes (log'.map Prod.snd) =
      lastWrite writes ((arrivals (some index) events).map fun frame => ⟨af, name, frame⟩) := by
    intro β writes
    refine lastWrite_of_lanes nonempty inLanes fun fd member => ?_
    obtain ⟨c, kept, rfl⟩ := List.mem_map.mp member
    obtain ⟨polled, bound⟩ := List.mem_filter.mp kept
    rw [full c polled (of_decide_eq_true bound)]
  obtain ⟨shape, vrs, states, flags⟩ := Daemon.receives linked handled.daemon
  obtain ⟨shape', vrs', states', flags'⟩ := Daemon.receives linked once
  refine ⟨shape.trans shape'.symm, vrs.trans vrs'.symm, funext fun x => ?_, fun v => ?_⟩
  · rw [flags x, flags' x, last]
  · rw [states v, states' v, last]

/-! ## Two instances on one interface -/

/-- Two instances are created on `eth0`, and the first one is started. -/
def twinStart : List Event :=
  [.request (some (.create (.sample 7 100))), .request (some (.create (.sample 8 100))), .round, .round,
    .request (some (.startup (.sample 7))), .round]

/-- A router of greater priority advertises and stops. -/
def twinTraffic : List Event :=
  [.arrive 2 (.sample 7 200), .round, .arrive 2 (.sample 7 0), .round, .round, .round]

/-- The sockets that are polled for them. -/
def twinCall (fd : Int) : PollCall := ⟨fd, afInet, some ⟨Ifname.eth0.bytes, Ifname.eth0.noNul⟩⟩

/-- The sockets are polled, and nothing waits. -/
def TwinReady (h : Host) : Prop :=
  h.poll = PollTable.tableOf [admCall .plain, twinCall 5, twinCall 7] ∧ h.receivers = [5, 7] ∧
    h.device 5 = some 2 ∧ h.device 7 = some 2 ∧ h.requests = [] ∧ h.frames 5 = [] ∧
    h.frames 7 = [] ∧ h.handled = []

instance (h : Host) : Decidable (TwinReady h) :=
  inferInstanceAs (Decidable (_ ∧ _ ∧ _ ∧ _ ∧ _ ∧ _ ∧ _ ∧ _))

/-- What the two instances come to. -/
theorem twin_starts : ∃ h, Reachable .plain h ∧ TwinReady h ∧
    (∃ h', exec (step .plain) twinTraffic h = .ok h' ∧ h'.frames 5 = [] ∧ h'.frames 7 = [] ∧
      h'.handled.length = 4) ∧
    (∃ h', (h.arrive 2 (.sample 7 200)).round .plain = .ok h') ∧
    ∃ s, exec (Daemon.receive .plain) [⟨afInet, .eth0, .sample 7 200⟩, ⟨afInet, .eth0, .sample 7 0⟩]
      h.daemon = .ok s ∧ (s.ds 1).state = .mast := by
  have ran : passes (fun start => passes (fun h => decide (TwinReady h) &&
      passes (fun h' => decide (h'.frames 5 = [] ∧ h'.frames 7 = [] ∧ h'.handled.length = 4))
        (exec (step .plain) twinTraffic h) &&
      passes (fun _ => true) ((h.arrive 2 (.sample 7 200)).round .plain) &&
      passes (fun s => decide ((s.ds 1).state = .mast)) (exec (Daemon.receive .plain)
        [⟨afInet, .eth0, .sample 7 200⟩, ⟨afInet, .eth0, .sample 7 0⟩] h.daemon))
      (exec (step .plain) twinStart start)) (setup .plain) = true := by decide +kernel
  obtain ⟨start, ready, ran⟩ := exists_of_passes ran
  obtain ⟨h, started, ran⟩ := exists_of_passes ran
  simp only [Bool.and_eq_true] at ran
  obtain ⟨⟨⟨twin, traffic⟩, waits⟩, once⟩ := ran
  obtain ⟨h₁, read, settled⟩ := exists_of_passes traffic
  obtain ⟨h₂, arrived, -⟩ := exists_of_passes waits
  obtain ⟨s, handled, state⟩ := exists_of_passes once
  exact ⟨h, ⟨start, _, ready, run_of_exec started⟩, of_decide_eq_true twin,
    ⟨h₁, read, of_decide_eq_true settled⟩, ⟨h₂, arrived⟩, s, handled, of_decide_eq_true state⟩

theorem TwinReady.polls (ready : TwinReady h) : h.Polls .plain [twinCall 5, twinCall 7] := by
  obtain ⟨poll, receivers, first, second, -⟩ := ready
  refine ⟨poll, ⟨by decide, ?_, ?_⟩, ⟨?_, by decide⟩, fun c member => ?_⟩
  · intro c head
    cases head
    rfl
  · decide
  · decide
  · have sockets : c = twinCall 5 ∨ c = twinCall 7 := by simpa using member
    rcases sockets with rfl | rfl
    · exact ⟨by simp [receivers, twinCall], .eth0, rfl, first, by decide⟩
    · exact ⟨by simp [receivers, twinCall], .eth0, rfl, second, by decide⟩

theorem TwinReady.listening (ready : TwinReady h) :
    Listening .plain h [twinCall 5, twinCall 7] 2 afInet .eth0 := by
  obtain ⟨-, -, -, -, noRequest, first, second, -⟩ := id ready
  refine ⟨ready.polls, ?_, noRequest, ?_⟩
  · simp [twinCall]
  · simp [twinCall, first, second]

/-- The two sockets of `eth0` each read the advertisement and the stop. -/
theorem reads_in_order_twin : ∃ (h h' : Host) (log : List (Int × Receipt)), Reachable .plain h ∧
    InOrder .plain h h' twinTraffic log ∧ log.length = 4 := by
  obtain ⟨h, reachable, ready, ⟨h', traffic, -, -, count⟩, -⟩ := twin_starts
  obtain ⟨log, inOrder⟩ := reads_in_order .plain h reachable twinTraffic h' (run_of_exec traffic)
  have handled := inOrder.handled
  rw [ready.2.2.2.2.2.2.2, List.nil_append] at handled
  exact ⟨h, h', log, reachable, inOrder, handled ▸ count⟩

/-- The frame in the second socket is read in the round after the next. -/
theorem served_after_twin : ∃ h h' : Host, Reachable .plain h ∧
    Queued .plain h [twinCall 5] (twinCall 7) (.sample 7 200) 1 ∧
    Queued .plain h' [twinCall 5] (twinCall 7) (.sample 7 200) 0 := by
  obtain ⟨h, ⟨start, events, setUp, run⟩, ready, -, ⟨h', served⟩, -⟩ := twin_starts
  have arrived : Reachable .plain (h.arrive 2 (.sample 7 200)) :=
    ⟨start, events ++ [.arrive 2 (.sample 7 200)], setUp, run.snoc trivial rfl⟩
  have same : h.SameSockets (h.arrive 2 (.sample 7 200)) := ⟨rfl, rfl, rfl, rfl, rfl⟩
  obtain ⟨-, receivers, first, second, noRequest, frames₁, frames₂, -⟩ := id ready
  have queued : Queued .plain (h.arrive 2 (.sample 7 200)) [twinCall 5] (twinCall 7) (.sample 7 200) 1 := by
    refine ⟨⟨[], ready.polls.same same⟩, [], [], ?_, ?_⟩
    · simp [arrive, twinCall, receivers, second, frames₂]
    · simp [arrive, twinCall, waitingIn, receivers, first, frames₁, noRequest]
  have later := served_after .plain _ arrived [twinCall 5] (twinCall 7) (.sample 7 200) 1 queued [.round]
    (by simp [Behind]) (by decide) h' (run_of_exec (bind_eq_ok.mpr ⟨h', served, rfl⟩))
  exact ⟨_, h', arrived, queued, later.1⟩

/-- Each socket handles the two frames, and the instance ends as a master, as it would by
handling them once. -/
theorem copies_agree_twin : ∃ (h h' : Host) (s : Daemon), Reachable .plain h ∧ h'.handled.length = 4 ∧
    (s.ds 1).state = .mast ∧ ∀ v, (h'.daemon.ds v).state = (s.ds v).state := by
  obtain ⟨h, reachable, ready, ⟨h', traffic, first, second, count⟩, -, s, once, state⟩ := twin_starts
  have heard : h.device (twinCall 5).fd = some 2 := ready.2.2.1
  have frames : (arrivals (some 2) twinTraffic).map (fun frame => (⟨afInet, .eth0, frame⟩ : Receipt)) =
      [⟨afInet, .eth0, .sample 7 200⟩, ⟨afInet, .eth0, .sample 7 0⟩] := rfl
  have agrees := copies_agree .plain h reachable [twinCall 5, twinCall 7] 2 afInet .eth0
    ready.listening ⟨twinCall 5, by simp, heard⟩ twinTraffic (by simp [twinTraffic, Traffic]) h'
    (run_of_exec traffic) (by simp [twinCall, first, second]) s (by rw [frames]; exact once)
  exact ⟨h, h', s, reachable, count, state, agrees.2.2.2⟩

end Host

end VrrpDaemon
