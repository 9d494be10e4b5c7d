import VrrpDaemon.Properties.Sockets
import VrrpDaemon.Properties.TruthfulStatus

/-!
# The reply to a datagram

A reply tells the truth when its status does (`ReplyTells`). What the status of a request
depends on in the daemon alone is `Daemon.Honest`; but between the creation of an instance and
its reply the daemon opens sockets, and there it may end: by `exit` for an interface that does
not exist, and by a write behind `netfds`, a null pointer or a write behind `poll_intfs` when a
table has no room (`Openable`). Whether a reply tells the truth is decided by both
(`truthfulReply_iff`).
-/

set_option autoImplicit false

namespace VrrpDaemon

open Machine

/-! ## Room in the tables -/

namespace NetTable

variable {intf : CString} {w : NetWorld} {t : NetTable}

/-- A slot that a call can use: a free one, or the one of the interface. -/
def Usable (intf : CString) (t : NetTable) : Prop :=
  ∃ slot ∈ t.netfds, slot.intf = [] ∨ slot.intf = intf.val

/-- With a usable slot the loop ends inside the table. -/
theorem scanNetfds_lt {slots : List VrrpIntfFd} {i n1 : Nat}
    (usable : ∃ slot ∈ slots, slot.intf = [] ∨ slot.intf = intf.val)
    (behind : i + slots.length ≤ n1) : (scanNetfds intf slots i n1).1 < i + slots.length := by
  induction slots generalizing i with
  | nil =>
      obtain ⟨slot, member, -⟩ := usable
      cases member
  | cons slot slots ih =>
      rw [List.length_cons] at behind ⊢
      rw [scanNetfds]
      split
      · rw [if_pos (by omega)]
        rcases @scanNetfds_slot intf slots (i + 1) i with same | ⟨j, other, here, held, -⟩
        · omega
        · have inside := (List.getElem?_eq_some_iff.mp held).1
          omega
      · rename_i used
        split
        · simp
        · rename_i other
          obtain ⟨found, member, fits⟩ := usable
          rcases List.mem_cons.mp member with rfl | later
          · exact absurd fits (not_or.mpr ⟨used, other⟩)
          · have inside := @ih (i + 1) ⟨found, later, fits⟩ (by omega)
            omega

/-- The loop finds the interface if a slot holds it. -/
theorem scanNetfds_found (named : intf.val ≠ []) {slots : List VrrpIntfFd} {i n1 : Nat} :
    (scanNetfds intf slots i n1).2 = true ↔ ∃ slot ∈ slots, slot.intf = intf.val := by
  induction slots generalizing i n1 with
  | nil => simp [scanNetfds]
  | cons slot slots ih =>
      rw [scanNetfds]
      split
      · rename_i free
        simp [ih, free, Ne.symm named]
      · split
        · rename_i own
          simp [own]
        · rename_i other
          simp [ih, other]

/-- **A call returns** when the name leaves room for its NUL and a slot is usable. -/
theorem vrrpdSetupNetfdVr_returns_iff {fp : Option Nat} (size : t.netfds.length = netfdSlots) :
    (∃ o, t.vrrpdSetupNetfdVr w fp intf = .ok o) ↔
      intf.val.length < lifnamsiz ∧ t.Usable intf := by
  constructor
  · rintro ⟨o, returns⟩
    obtain ⟨t₁, initialised, -⟩ := bind_eq_ok.mp returns
    have inside : (scanNetfds intf t.netfds 0 netfdSlots).1 < t.netfds.length := by
      by_contra outside
      rw [initNetfd_outside (Nat.not_lt.mp outside)] at initialised
      cases initialised
    refine ⟨?_, ?_⟩
    · by_contra long
      rw [initNetfd, if_neg long] at initialised
      cases initialised
    · rcases @scanNetfds_slot intf t.netfds 0 netfdSlots with full | ⟨j, old, -, held, usable⟩
      · omega
      · exact ⟨old, List.mem_of_getElem? held, usable⟩
  · rintro ⟨short, usable⟩
    have inside := @scanNetfds_lt intf t.netfds 0 netfdSlots usable (by omega)
    rw [Nat.zero_add] at inside
    have initialised := @initNetfd_inside w intf t _ short inside
    by_cases failed : w.undefined (t.opened + 2) < 0
    · exact ⟨_, bind_eq_ok.mpr ⟨_, initialised, if_pos failed⟩⟩
    · exact ⟨_, bind_eq_ok.mpr ⟨_, initialised, if_neg failed⟩⟩

/-- `*fp` is set behind a call if the interface was known, or `init_netfd` seems to succeed. -/
theorem vrrpdSetupNetfdVr_pointer (named : intf.val ≠ []) {ret : Int} {fp : Option Nat}
    {t' : NetTable} (returns : t.vrrpdSetupNetfdVr w none intf = .ok ((ret, fp), t')) :
    fp ≠ none ↔ 0 ≤ w.undefined (t.opened + 2) ∨ ∃ slot ∈ t.netfds, slot.intf = intf.val := by
  obtain ⟨t₁, initialised, rest⟩ := bind_eq_ok.mp returns
  have opened := (initNetfd_returns initialised).1
  rw [opened] at rest
  rw [← @scanNetfds_found intf named t.netfds 0 netfdSlots]
  split at rest
  · rename_i failed
    cases rest
    simp [Int.not_le.mpr failed]
  · rename_i succeeded
    cases rest
    simp [Int.not_lt.mp succeeded]

end NetTable

namespace PollTable

variable {calls : List PollCall} {c : PollCall}

/-- An entry of `pollfds` has no descriptor, or there is no memory for more. -/
def Accepts (realloc : Bool) (t : PollTable) : Prop :=
  (∃ entry ∈ t.pollfds, entry.fd = -1) ∨ realloc = false

/-- **A call returns** unless it would have to grow the tables, and can. -/
theorem pollAdd_returns_iff {realloc : Bool} (distinct : Distinct calls) (room : Room calls)
    (nonempty : calls ≠ []) (nonneg : 0 ≤ c.fd) (fresh : c.fd ∉ calls.map PollCall.fd)
    (named : c.intf ≠ none) (short : c.name.length < lifnamsiz) :
    (∃ o, (tableOf calls).pollAdd realloc c = .ok o) ↔ (tableOf calls).Accepts realloc := by
  have unknown : ¬ calls.any (·.fd = c.fd) = true := by rwa [any_fd_iff]
  have notHeld : ¬ (tableOf calls).pollfds.any (·.fd = c.fd) = true := by rwa [any_tableOf nonneg]
  have free := findIdx?_tableOf distinct nonempty
  rcases Nat.lt_or_ge calls.length pollSlots with space | full
  · rw [if_pos space] at free
    have entry : ∃ entry ∈ (tableOf calls).pollfds, entry.fd = -1 := by
      obtain ⟨inside, empty, -⟩ := List.findIdx?_eq_some_iff_getElem.mp free
      exact ⟨_, List.getElem_mem inside, of_decide_eq_true empty⟩
    have added : (tableOf calls).pollAdd realloc c = (tableOf calls).pollAdd true c := by
      rw [pollAdd, pollAdd, if_neg notHeld, if_neg notHeld, free]
    rw [added, pollAdd_free distinct nonneg unknown nonempty space short]
    exact iff_of_true ⟨_, rfl⟩ (.inl entry)
  · rw [if_neg (by omega)] at free
    have taken : ¬ ∃ entry ∈ (tableOf calls).pollfds, entry.fd = -1 := by
      rintro ⟨entry, member, empty⟩
      have none := List.findIdx?_eq_none_iff.mp free entry member
      simp [empty] at none
    have names : (tableOf calls).pollIntfs.length = pollSlots :=
      length_fill (by rw [List.length_map]; exact room.few)
    have length : (tableOf calls).pollfds.length = pollSlots := by
      simp only [tableOf, if_neg nonempty]
      exact length_fill (by rw [List.length_map]; exact room.few)
    rw [pollAdd, if_neg notHeld, free]
    dsimp only
    rw [growPollfds]
    obtain ⟨name, given⟩ := Option.ne_none_iff_exists'.mp named
    cases realloc with
    | false => exact iff_of_true ⟨_, rfl⟩ (.inr rfl)
    | true =>
        have overruns : (tableOf calls).copyIntf (tableOf calls).pollfds.length c.intf =
            .error .overflow := by
          rw [given, copyIntf]
          split
          · rw [storeAt_of_le (by omega)]
            rfl
          · rfl
        rw [overruns]
        exact iff_of_false (by simp) (not_or.mpr ⟨taken, by simp⟩)

end PollTable

namespace Host

variable {hw : HostWorld} {h h' : Host} {inst : VrrpInst} {ret : Int} {s : Daemon}

/-! ## The sockets of a new instance -/

/-- The sockets of a new instance can be opened and polled: its name leaves room for the NUL, an
interface has it, a slot of `netfds` is free or in use for the interface, the VR will point to
a slot, and there is a free entry of `pollfds`, or no memory for more. -/
structure Openable (hw : HostWorld) (h : Host) (inst : VrrpInst) : Prop where
  short : inst.viVr.vrIfname.bytes.length < lifnamsiz
  known : deviceOf hw inst.viVr.vrIfname ≠ none
  slot : ∃ slot ∈ h.nets.netfds, slot.intf = [] ∨ slot.intf = inst.viVr.vrIfname.bytes
  pointed : 0 ≤ hw.net.undefined (h.nets.opened + 2) ∨
    ∃ slot ∈ h.nets.netfds, slot.intf = inst.viVr.vrIfname.bytes
  polled : h.poll.Accepts (hw.realloc h.poll.pollfds.length)

theorem vrrpdSetupNetfd_eq {v : DsPtr} {index : Nat} {o : (Int × Option Nat) × NetTable}
    (called : h.nets.vrrpdSetupNetfdVr hw.net (h.vfd (h.daemon.ds v).vr)
      ⟨(h.daemon.vrrpIfname v).bytes, (h.daemon.vrrpIfname v).noNul⟩ = .ok o)
    (device : deviceOf hw (h.daemon.vrrpIfname v) = some index) :
    ∃ h₁, vrrpdSetupNetfd hw v h = .ok h₁ ∧ h₁.daemon = h.daemon ∧
      h₁.vfd = Function.update h.vfd (h.daemon.ds v).vr o.1.2 ∧ h₁.nets = o.2 ∧
      h₁.poll = h.poll := by
  simp only [vrrpdSetupNetfd, called, Outcome.of, ok_bind, device]
  exact ⟨_, rfl, rfl, rfl, rfl, rfl⟩

theorem instStartRecv_eq {v : DsPtr} {i : Nat} {fd : VrrpIntfFd} {o : Int × PollTable}
    (pointed : h.vfd (h.daemon.ds v).vr = some i) (held : h.nets.netfds[i]? = some fd)
    (added : h.poll.pollAdd (hw.realloc h.poll.pollfds.length)
      ⟨fd.sRcv, h.daemon.vrrpAf v, some ⟨text fd.intf, zero_notMem_text _⟩⟩ = .ok o) :
    ∃ h₁, instStartRecv hw v h = .ok h₁ := by
  simp only [instStartRecv, pointed, deref_some, Outcome.of, ok_bind, held, added]
  exact ⟨_, rfl⟩

/-- `poll_add` takes the receiving socket of a new instance if its table does. -/
theorem Wired.pollAdd_returns_iff (wired : Wired hw h)
    (short : inst.viVr.vrIfname.bytes.length < lifnamsiz) :
    (∃ o, h.poll.pollAdd (hw.realloc h.poll.pollfds.length) (h.recvCall hw inst) = .ok o) ↔
      h.poll.Accepts (hw.realloc h.poll.pollfds.length) := by
  obtain ⟨calls, polls⟩ := wired.polls
  rw [polls.poll]
  exact PollTable.pollAdd_returns_iff polls.distinct polls.room (List.cons_ne_nil _ _)
    (hw.opened _) (polls.fresh wired) (Option.some_ne_none _) short

section Opening

variable {v : DsPtr}

/-- Sockets that were opened could be. -/
theorem Wired.openable_of_opens (wired : Wired hw h) (own : (s.ds v).vr = h.daemon.vrTop)
    (record : (s.vr v).vr = inst.viVr.copied)
    (opened : ∃ h', (vrrpdSetupNetfd hw v { h with daemon := s } >>= instStartRecv hw v) = .ok h') :
    h.Openable hw inst := by
  have unset := wired.unset _ (Nat.le_refl _)
  have name : s.vrrpIfname v = inst.viVr.vrIfname :=
    (congrArg VrrpVr.vrIfname record).trans rfl
  obtain ⟨h', both⟩ := opened
  obtain ⟨h₁, setUp, started⟩ := bind_eq_ok.mp both
  obtain ⟨-, -, i, index, opens⟩ := opens_sockets wired.size unset own record setUp started
  have known : deviceOf hw inst.viVr.vrIfname ≠ none := by simp [opens.device]
  obtain ⟨⟨⟨status, fp⟩, nets⟩, called, setUp⟩ := Outcome.bind_of_eq_ok.mp setUp
  dsimp only at called setUp
  rw [own, unset, name] at called
  obtain ⟨short, slot⟩ := (NetTable.vrrpdSetupNetfdVr_returns_iff wired.size).mp ⟨_, called⟩
  have set : fp ≠ none := by
    rw [name, opens.device] at setUp
    cases setUp
    obtain ⟨k, pointed, -⟩ := Outcome.bind_of_eq_ok.mp started
    dsimp only at pointed
    rw [own, Function.update_self] at pointed
    rintro rfl
    cases pointed
  obtain ⟨ret, polled⟩ := opens.polled
  exact ⟨short, known, slot,
    (NetTable.vrrpdSetupNetfdVr_pointer (nonempty_of_known known) called).mp set,
    (wired.pollAdd_returns_iff short).mp ⟨_, polled⟩⟩

/-- Sockets that can be opened are. -/
theorem Wired.opens_of_openable (wired : Wired hw h) (own : (s.ds v).vr = h.daemon.vrTop)
    (record : (s.vr v).vr = inst.viVr.copied) (openable : h.Openable hw inst) :
    ∃ h', (vrrpdSetupNetfd hw v { h with daemon := s } >>= instStartRecv hw v) = .ok h' := by
  have unset := wired.unset _ (Nat.le_refl _)
  have name : s.vrrpIfname v = inst.viVr.vrIfname :=
    (congrArg VrrpVr.vrIfname record).trans rfl
  have af : s.vrrpAf v = inst.viVr.vrAf := (congrArg VrrpVr.vrAf record).trans rfl
  let intf : CString := ⟨inst.viVr.vrIfname.bytes, inst.viVr.vrIfname.noNul⟩
  -- `vrrpd_setup_netfd_vr` returns a slot, and the VR points to it
  obtain ⟨⟨⟨status, fp⟩, nets⟩, called⟩ :=
    (@NetTable.vrrpdSetupNetfdVr_returns_iff intf hw.net h.nets none wired.size).mpr
      ⟨openable.short, openable.slot⟩
  have pointer := (NetTable.vrrpdSetupNetfdVr_pointer (nonempty_of_known openable.known)
    called).mpr openable.pointed
  obtain ⟨i, old, held, -, rfl, points⟩ := NetTable.vrrpdSetupNetfdVr_outcome wired.size called
  obtain rfl := points.resolve_left pointer
  have inside : i < h.nets.netfds.length := (List.getElem?_eq_some_iff.mp held).1
  obtain ⟨index, device⟩ := Option.ne_none_iff_exists'.mp openable.known
  rw [← name] at device
  have named : h.nets.vrrpdSetupNetfdVr hw.net (h.vfd (s.ds v).vr)
      ⟨(s.vrrpIfname v).bytes, (s.vrrpIfname v).noNul⟩ =
        h.nets.vrrpdSetupNetfdVr hw.net none intf := by
    rw [own, unset, name]
  obtain ⟨h₁, setUp, rfl, vfd, nets, poll⟩ :=
    @vrrpdSetupNetfd_eq hw { h with daemon := s } v index _ (named.trans called) device
  have slot : h₁.nets.netfds[i]? = some (h.newSlot hw inst) := by
    rw [nets]
    exact List.getElem?_set_self inside
  have pointed : h₁.vfd (h₁.daemon.ds v).vr = some i := by
    rw [vfd, Function.update_self]
  -- `inst_start_recv` polls the slot's descriptor under the instance's name and family
  obtain ⟨o, polled⟩ := (wired.pollAdd_returns_iff openable.short).mpr openable.polled
  have call : (⟨h.nextRcv hw, h₁.daemon.vrrpAf v, some ⟨text inst.viVr.vrIfname.bytes,
      zero_notMem_text _⟩⟩ : PollCall) = h.recvCall hw inst := by
    simp only [recvCall, af, text_self inst.viVr.vrIfname.noNul]
  rw [← call, ← poll] at polled
  obtain ⟨h₂, started⟩ := instStartRecv_eq pointed slot polled
  exact ⟨h₂, bind_eq_ok.mpr ⟨h₁, setUp, started⟩⟩

/-- **The sockets are opened** exactly when they can be. -/
theorem Wired.opens_iff (wired : Wired hw h) (own : (s.ds v).vr = h.daemon.vrTop)
    (record : (s.vr v).vr = inst.viVr.copied) :
    (∃ h', (vrrpdSetupNetfd hw v { h with daemon := s } >>= instStartRecv hw v) = .ok h') ↔
      h.Openable hw inst :=
  ⟨wired.openable_of_opens own record, wired.opens_of_openable own record⟩

end Opening

/-- What is left of a create once its sockets are open: an instance of the highest priority
becomes a master, and its timer is set. -/
theorem createCommand_resumes {made : DsPtr} {h₂ : Host}
    (created : h.daemon.vrrpCreateInst hw.world inst =
      .ok (VrrpRet.success.code, some made, s))
    (opened : (vrrpdSetupNetfd hw made { h with daemon := s } >>= instStartRecv hw made) = .ok h₂)
    {h' : Host}
    (resumed : (if inst.viVa.pri = 255 then
        Outcome.of (h₂.daemon.vrrpStateI2m hw.world made) >>= fun answer =>
          .ok (answer.1, { h₂ with daemon := answer.2.onQueue (·.alarm inst.viVa.delay) })
      else .ok (VrrpRet.success.code, h₂)) = Except.ok (ret, h')) :
    createCommand hw inst h = .ok (ret, h') := by
  obtain ⟨h₁, setUp, started⟩ := bind_eq_ok.mp opened
  refine Outcome.bind_of_eq_ok.mpr ⟨_, created, ?_⟩
  dsimp only
  rw [if_neg (not_not.mpr rfl), deref_some]
  exact bind_eq_ok.mpr
    ⟨made, rfl, bind_eq_ok.mpr ⟨h₁, setUp, bind_eq_ok.mpr ⟨h₂, started, resumed⟩⟩⟩

/-- **A create with its sockets** is answered as the daemon alone answers it, if it comes to
open sockets only when they can be opened; and it is not answered otherwise. -/
theorem Wired.createCommand_iff (wired : Wired hw h) :
    (∃ h', createCommand hw inst h = .ok (ret, h') ∧ h'.daemon = s) ↔
      h.daemon.createCommand hw.world inst = .ok (ret, s) ∧
        (h.daemon.copiesVrIp hw.world inst = true → h.Openable hw inst) := by
  obtain ⟨nodes, linked, -⟩ := wired.slotted
  have unset := wired.unset _ (Nat.le_refl _)
  have granted : ¬ VrrpRet.success.code ≠ VrrpRet.success.code := not_not.mpr rfl
  constructor
  · rintro ⟨h', returns, rfl⟩
    refine ⟨(createCommand_outcome linked wired.size unset returns).1, fun copies => ?_⟩
    obtain ⟨⟨status, made, s⟩, created, returns⟩ := Outcome.bind_of_eq_ok.mp returns
    obtain ⟨s₁, link, same⟩ :=
      bind_eq_ok.mp ((Daemon.vrrpCreateInst_copies copies).symm.trans created)
    cases same
    dsimp only at returns
    rw [if_neg granted, deref_some] at returns
    obtain ⟨v, ⟨⟩, returns⟩ := Outcome.bind_of_eq_ok.mp returns
    obtain ⟨h₁, setUp, returns⟩ := bind_eq_ok.mp returns
    obtain ⟨h₂, started, -⟩ := bind_eq_ok.mp returns
    obtain ⟨own, record, -⟩ := Daemon.withInst_record linked link
    exact (wired.opens_iff own record).mp ⟨h₂, bind_eq_ok.mpr ⟨h₁, setUp, started⟩⟩
  · rintro ⟨answer, openable⟩
    obtain ⟨⟨status, made, s₁⟩, created, answer⟩ := bind_eq_ok.mp answer
    dsimp only at answer
    rcases Daemon.vrrpCreateInst_outcome created with ⟨failed, rfl, -⟩ | ⟨rfl, rfl, -, -, link⟩
    · rw [if_pos failed] at answer
      cases answer
      refine ⟨{ h with daemon := s }, Outcome.bind_of_eq_ok.mpr ⟨_, created, ?_⟩, rfl⟩
      exact if_pos failed
    · have copies := (Daemon.vrrpCreateInst_effect created).1 rfl
      obtain ⟨own, record, -⟩ := Daemon.withInst_record linked link
      obtain ⟨h₂, opened⟩ := (wired.opens_iff own record).mpr (openable copies)
      obtain ⟨h₁, setUp, started⟩ := bind_eq_ok.mp opened
      obtain ⟨same, -⟩ := opens_sockets wired.size unset own record setUp started
      rw [if_neg granted, deref_some, ok_bind] at answer
      -- the daemon goes on behind the sockets as it does without them
      by_cases highest : inst.viVa.pri = 255
      · rw [if_pos highest, ← same] at answer
        obtain ⟨⟨status, s₂⟩, promoted, answer⟩ := bind_eq_ok.mp answer
        cases answer
        refine ⟨{ h₂ with daemon := s₂.onQueue (·.alarm inst.viVa.delay) },
          createCommand_resumes created opened ((if_pos highest).trans ?_), rfl⟩
        exact Outcome.bind_of_eq_ok.mpr ⟨_, promoted, rfl⟩
      · rw [if_neg highest] at answer
        cases answer
        exact ⟨h₂, createCommand_resumes created opened (if_neg highest), same⟩

/-! ## Datagrams -/

/-- A datagram is a create, or what it asks for is answered by the daemon alone. -/
theorem admCommand_cases {buf : Buffer} {request : Daemon.Request}
    (parsed : Daemon.parseRequest buf = .ok request) :
    (∃ inst, request = .command (.create inst) ∧
        h.admCommand hw buf = h.createCommand hw inst) ∨
      ((∀ inst, request ≠ .command (.create inst)) ∧
        h.admCommand hw buf = Outcome.of (h.daemon.admCommand hw.world buf) >>= fun answer =>
          .ok (answer.1, { h with daemon := answer.2 })) := by
  unfold Daemon.parseRequest at parsed
  unfold admCommand
  cases sent : VrrpCmd.ofCode (getVrrpCmd buf) with
  | none =>
      rw [sent] at parsed
      cases parsed
      exact .inr ⟨fun _ same => (by cases same), rfl⟩
  | some cmd =>
      rw [sent] at parsed
      cases cmd with
      | createInst =>
          obtain ⟨⟨vi, vrIp⟩, scanned, parsed⟩ := bind_eq_ok.mp parsed
          obtain ⟨⟨addresses, after⟩, run, parsed⟩ := bind_eq_ok.mp parsed
          cases parsed
          refine .inl ⟨_, rfl, ?_⟩
          simp only [scanned, run, Outcome.of, ok_bind]
      | returnVal | showAll =>
          cases parsed
          exact .inr ⟨fun _ same => (by cases same), rfl⟩
      | removeInst | startupInst | shutdownInst | getInstx | modifyInst =>
          obtain ⟨args, -, parsed⟩ := bind_eq_ok.mp parsed
          cases parsed
          exact .inr ⟨fun _ same => (by cases same), rfl⟩

/-- **The answer to a datagram** is the one of the daemon alone, unless it is a create whose
sockets cannot be opened. -/
theorem Wired.admCommand_iff {buf : Buffer} {request : Daemon.Request} (wired : Wired hw h)
    (parsed : Daemon.parseRequest buf = .ok request) :
    (∃ h', h.admCommand hw buf = .ok (ret, h') ∧ h'.daemon = s) ↔
      h.daemon.admCommand hw.world buf = .ok (ret, s) ∧ ∀ inst,
        request = .command (.create inst) → h.daemon.copiesVrIp hw.world inst = true →
          h.Openable hw inst := by
  rcases @admCommand_cases hw h _ _ parsed with ⟨inst, rfl, created⟩ | ⟨other, alone⟩
  · have carriedOut : h.daemon.admCommand hw.world buf = h.daemon.createCommand hw.world inst := by
      rw [Daemon.admCommand_eq, parsed, ok_bind]
      rfl
    rw [created, carriedOut, wired.createCommand_iff]
    simp only [Daemon.Request.command.injEq, Command.create.injEq, forall_eq']
  · rw [alone]
    simp only [other, false_implies, implies_true, and_true]
    constructor
    · rintro ⟨h', returns, rfl⟩
      obtain ⟨⟨status, s⟩, answered, returns⟩ := Outcome.bind_of_eq_ok.mp returns
      cases returns
      exact answered
    · intro answered
      exact ⟨{ h with daemon := s }, Outcome.bind_of_eq_ok.mpr ⟨_, answered, rfl⟩, rfl⟩

/-- The condition on a request: the daemon alone answers it with a status that tells the truth,
and the sockets of an instance that it creates can be opened. -/
def Honest (hw : HostWorld) (h : Host) (request : Daemon.Request) : Prop :=
  h.daemon.Honest hw.world request ∧ ∀ inst,
    request = .command (.create inst) → h.daemon.copiesVrIp hw.world inst = true →
      h.Openable hw inst

/-- The reply to a datagram carries a status that tells what happened. -/
def TruthfulReply (hw : HostWorld) (datagram : List UInt8) (residue : Buffer)
    (request : Daemon.Request) (h : Host) : Prop :=
  ∃ ret h', h.admCommand hw (admBuffer datagram residue) = .ok (ret, h') ∧
    h.answer hw datagram residue = .ok (some (buildVrrpRet ret), h') ∧
    h.daemon.ReplyTells h'.daemon request ret

/-- **When the status tells the truth.** In every reachable state of the daemon and its sockets,
for every well-formed datagram, whatever the buffer held before: the datagram is a request,
and the status of its reply is a `vrrp_ret_t`, is `VRRP_SUCCESS` exactly when the
request took effect, and any other one when nothing changed, if and only if the
request meets the condition. -/
theorem truthfulReply_iff (hw : HostWorld) (h : Host) (reachable : Reachable hw h)
    (datagram : List UInt8) (residue : Buffer)
    (enough : sizeofVrrpCmd ≤ (admReceived datagram).length)
    (complete : Complete datagram) :
    ∃ request, Daemon.parseRequest (admBuffer datagram residue) = .ok request ∧
      (h.TruthfulReply hw datagram residue request ↔ h.Honest hw request) := by
  have wired := reachable.wired
  obtain ⟨nodes, linked, -⟩ := wired.slotted
  obtain ⟨request, parsed⟩ := Daemon.exists_request residue enough complete
  refine ⟨request, parsed, ?_⟩
  have alone : h.daemon.admCommand hw.world (admBuffer datagram residue) =
      h.daemon.respond hw.world request := by
    rw [Daemon.admCommand_eq, parsed, ok_bind]
  have answered : ∀ {ret h'}, h.admCommand hw (admBuffer datagram residue) = .ok (ret, h') →
      h.answer hw datagram residue = .ok (some (buildVrrpRet ret), h') := by
    intro ret h' carriedOut
    rw [answer, if_neg (Nat.not_lt.mpr enough), carriedOut]
    rfl
  rw [Honest, ← Daemon.truthful_iff linked parsed]
  constructor
  · rintro ⟨ret, h', carriedOut, -, tells⟩
    obtain ⟨responds, openable⟩ := (wired.admCommand_iff parsed).mp ⟨h', carriedOut, rfl⟩
    exact ⟨⟨ret, h'.daemon, alone.symm.trans responds, tells⟩, openable⟩
  · rintro ⟨⟨ret, s, responds, tells⟩, openable⟩
    obtain ⟨h', carriedOut, rfl⟩ :=
      (wired.admCommand_iff parsed).mpr ⟨alone.trans responds, openable⟩
    exact ⟨ret, h', carriedOut, answered carriedOut, tells⟩

/-- A create of an instance on an interface, with some priority. -/
def createDatagram (vid pri : UInt8) (ifname : Ifname) : List UInt8 :=
  let inst := VrrpInst.sample vid pri
  buildVrrpCmd (fun _ => 0) .createInst { inst with viVr := { inst.viVr with vrIfname := ifname } }

theorem complete_create {datagram : List UInt8} (sent : sentCmd datagram = some .createInst)
    (enough : sizeofVrrpCmd + sizeofVrrpInst + (sentInst datagram).viVr.vrIpnum.toNat * 4 ≤
      (admReceived datagram).length) : Complete datagram := by
  rw [Complete, sent]
  exact enough

/-- The instance that a request creates. -/
def created : Daemon.Request → Option VrrpInst
  | .command (.create inst) => some inst
  | _ => none

theorem created_eq_some {request : Daemon.Request} (given : created request = some inst) :
    request = .command (.create inst) := by
  unfold created at given
  split at given
  · cases given
    rfl
  · cases given

/-- A second instance on the same interface is created, and the reply says so. -/
theorem truthfulReply_second :
    ∃ h request, Reachable .plain h ∧ h.daemon.Listed 1 ∧
      Daemon.parseRequest (admBuffer (createDatagram 9 100 .eth0) fun _ => 255) = .ok request ∧
      h.TruthfulReply .plain (createDatagram 9 100 .eth0) (fun _ => 255) request := by
  have ran : passes (fun start => passes (fun h => decide (h.daemon.next instRuntimeList = some 1 ∧
      h.daemon.next 1 = none ∧ (∃ slot ∈ h.nets.netfds, slot.intf = Ifname.eth0.bytes) ∧
      ∃ entry ∈ h.poll.pollfds, entry.fd = -1))
      (exec (Host.step .plain) [.request (some (.create (.sample 7 100))), .round] start))
      (setup .plain) = true := by decide +kernel
  obtain ⟨start, ready, ran⟩ := exists_of_passes ran
  obtain ⟨h, returns, tested⟩ := exists_of_passes ran
  obtain ⟨first, last, slot, free⟩ := of_decide_eq_true tested
  have reachable : Reachable .plain h := ⟨start, _, ready, run_of_exec returns⟩
  have asked : passes (fun request => (created request).any fun inst => decide
      (inst.viVa.delay > 0 ∧ inst.viVr.vrIpnum > 0 ∧ inst.viVa.pri ≠ 255 ∧
        inst.viVr.vrIfname.bytes = Ifname.eth0.bytes))
      (Daemon.parseRequest (admBuffer (createDatagram 9 100 .eth0) fun _ => 255)) = true := by
    decide +kernel
  obtain ⟨request, parsed, truthful⟩ := truthfulReply_iff .plain h reachable
    (createDatagram 9 100 .eth0) (fun _ => 255) (by decide +kernel)
    (complete_create (by decide +kernel) (by decide +kernel))
  rw [parsed] at asked
  obtain ⟨inst, given, tested⟩ := Option.any_eq_true _ _ |>.mp asked
  obtain ⟨delay, ipnum, regular, eth0⟩ := of_decide_eq_true tested
  obtain rfl := created_eq_some given
  refine ⟨h, _, reachable, ⟨[1], ⟨first, last⟩, List.mem_cons_self⟩, parsed, truthful.mpr ⟨?_, ?_⟩⟩
  · exact ⟨delay, ipnum, fun highest => absurd highest regular⟩
  · rintro inst' ⟨⟩ -
    refine ⟨?_, ?_, ?_, .inl (Int.le_refl 0), .inl free⟩
    · rw [eth0]
      decide
    · rw [deviceOf, eth0]
      decide
    · obtain ⟨used, member, same⟩ := slot
      exact ⟨used, member, .inr (same.trans eth0.symm)⟩

/-- A startup for VRID 7 on `eth0` without a family. -/
def familylessDatagram : List UInt8 :=
  buildVrrpCmd (fun _ => 0) .startupInst (⟨7, .eth0, afUnspec⟩ : Target)

/-- `wlan0`, which the host does not have. -/
def wlan0 : Ifname := ⟨ascii "wlan0", by decide, by decide⟩

/-- A host on which the local of `vrrp_state_i2m` happens to hold 1. -/
def leftover : HostWorld := { HostWorld.plain with world := { World.plain with uninitialised := 1 } }

/-- **Replies that do not tell the truth**, at the start of the daemon. A startup without a
family is answered with 22, which is no `vrrp_ret_t`. A create with priority 255 makes a master,
and is answered with `VRRP_EVREXIST` if that is what the local of `vrrp_state_i2m` happens to
hold. A create on an interface that does not exist ends the daemon, and is not answered. -/
theorem truthfulReply_errno :
    (∃ h, setup .plain = .ok h ∧
      (Complete familylessDatagram ∧
        ∀ request, ¬ h.TruthfulReply .plain familylessDatagram (fun _ => 0) request) ∧
      Complete (createDatagram 7 100 wlan0) ∧
        h.answer .plain (createDatagram 7 100 wlan0) (fun _ => 0) = .error .exit ∧
        ∀ request, ¬ h.TruthfulReply .plain (createDatagram 7 100 wlan0) (fun _ => 0) request) ∧
    ∃ h, setup leftover = .ok h ∧ Complete (createDatagram 7 255 .eth0) ∧
      (∃ h', h.answer leftover (createDatagram 7 255 .eth0) (fun _ => 0) =
          .ok (some (buildVrrpRet VrrpRet.evrexist.code), h') ∧ (h'.daemon.ds 1).state = .mast) ∧
      ∀ request, ¬ h.TruthfulReply leftover (createDatagram 7 255 .eth0) (fun _ => 0) request := by
  constructor
  · have ran : passes (fun h => passes (fun reply => reply.1 == errnoEinval)
          (h.admCommand .plain (admBuffer familylessDatagram fun _ => 0)) &&
        fault (h.answer .plain (createDatagram 7 100 wlan0) fun _ => 0) == some .exit)
        (setup .plain) = true := by decide +kernel
    obtain ⟨h, ready, tested⟩ := exists_of_passes ran
    simp only [Bool.and_eq_true, beq_iff_eq] at tested
    obtain ⟨errno, ends⟩ := tested
    have exits := fault_eq_some.mp ends
    refine ⟨h, ready, ⟨?_, ?_⟩, ?_, exits, ?_⟩
    · have sent : sentCmd familylessDatagram = some .startupInst := by decide +kernel
      rw [Complete, sent]
      exact ⟨by decide +kernel, by decide +kernel⟩
    · rintro request ⟨ret, h', carriedOut, -, ⟨status, same⟩, -, -⟩
      rw [carriedOut] at errno
      have value : ret = errnoEinval := beq_iff_eq.mp errno
      rw [value] at same
      cases status <;> exact absurd same (by decide)
    · exact complete_create (by decide +kernel) (by decide +kernel)
    · rintro request ⟨ret, h', -, answered, -⟩
      cases exits.symm.trans answered
  · have master : passes (fun h => passes (fun reply => reply.1 == VrrpRet.evrexist.code &&
          (reply.2.daemon.ds 1).state == .mast)
        (h.admCommand leftover (admBuffer (createDatagram 7 255 .eth0) fun _ => 0)) &&
        (h.daemon.ds 1).state != .mast) (setup leftover) = true := by decide +kernel
    obtain ⟨h, ready, tested⟩ := exists_of_passes master
    obtain ⟨tested, before⟩ := (Bool.and_eq_true _ _).mp tested
    obtain ⟨⟨ret, h'⟩, carriedOut, tested⟩ := exists_of_passes tested
    simp only [Bool.and_eq_true, beq_iff_eq, bne_iff_ne] at tested before
    obtain ⟨rfl, state⟩ := tested
    refine ⟨h, ready, complete_create (by decide +kernel) (by decide +kernel), ⟨h', ?_, state⟩, ?_⟩
    · have enough : ¬ (admReceived (createDatagram 7 255 .eth0)).length < sizeofVrrpCmd := by
        decide +kernel
      rw [answer, if_neg enough, carriedOut]
      rfl
    · rintro request ⟨ret, h'', again, -, tells⟩
      cases carriedOut.symm.trans again
      rcases (tells.unchanged (by decide)).idle 1 with same | ⟨-, stopped⟩
      · exact before (same ▸ state)
      · rw [state] at stopped
        cases stopped

end Host

end VrrpDaemon
