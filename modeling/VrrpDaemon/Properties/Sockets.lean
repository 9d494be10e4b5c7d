import VrrpDaemon.Behaviour.Records
import VrrpDaemon.Model.Host
import VrrpDaemon.Properties.NetTable
import VrrpDaemon.Properties.PollTable

/-!
# The sockets of the instances

Only a create that succeeds touches the tables of sockets. It writes one slot of `netfds`,
which was free or held the same interface, and adds one entry to `pollfds`
(`createCommand_outcome`); everything else that happens is an operation of the daemon next to tables
that stay as they are (`step_outcome`).
-/

set_option autoImplicit false

namespace VrrpDaemon

open Machine

/-! ## Records of the daemon that stay -/

namespace Daemon

variable {w : World} {s s' t : Daemon} {nodes : List DsPtr}

/-- What was allocated stays what it is: an instance keeps its VR, and a VR its record. -/
structure Persists (s s' : Daemon) : Prop where
  dsTop : s.dsTop ≤ s'.dsTop
  vrTop : s.vrTop ≤ s'.vrTop
  vrOf : ∀ v, v < s.dsTop → (s'.ds v).vr = (s.ds v).vr
  vr : ∀ p, p < s.vrTop → (s'.vrs p).vr = (s.vrs p).vr

theorem Persists.refl (s : Daemon) : s.Persists s :=
  ⟨Nat.le_refl _, Nat.le_refl _, fun _ _ => rfl, fun _ _ => rfl⟩

theorem Persists.trans (first : s.Persists t) (second : t.Persists s') : s.Persists s' where
  dsTop := Nat.le_trans first.dsTop second.dsTop
  vrTop := Nat.le_trans first.vrTop second.vrTop
  vrOf v old :=
    (second.vrOf v (Nat.lt_of_lt_of_le old first.dsTop)).trans (first.vrOf v old)
  vr p old := (second.vr p (Nat.lt_of_lt_of_le old first.vrTop)).trans (first.vr p old)

theorem persists_of_shape (same : s'.shape = s.shape) : s.Persists s' where
  dsTop := Nat.le_of_eq (congrArg Shape.dsTop same).symm
  vrTop := Nat.le_of_eq (congrArg Shape.vrTop same).symm
  vrOf v _ := congrFun (congrArg Shape.vrOf same) v
  vr p _ := congrFun (congrArg Shape.vr same) p

theorem Grows.persists (grows : s.Grows s') : s.Persists s' where
  dsTop := grows.dsTop
  vrTop := grows.vrTop
  vrOf v old := congrArg VrrpdDs.vr (grows.ds v old)
  vr p old := congrArg VrrpdVrDs.vr (grows.vrs p old)

theorem persists_withLinks (next prev : DsPtr → Option DsPtr) : s.Persists (s.withLinks next prev) :=
  ⟨Nat.le_refl _, Nat.le_refl _, fun _ _ => rfl, fun _ _ => rfl⟩

theorem persists_created {inst : VrrpInst} {s₁ : Daemon} (linked : s.Linked nodes)
    (link : (s.withInst inst).linkInst s.dsTop = .ok s₁) : s.Persists s₁ := by
  obtain ⟨next, prev, -, -, rfl, -⟩ := linked.link link
  exact (grows_withInst inst s).persists.trans (persists_withLinks next prev)

/-- The step lemma. -/
theorem persists_step {op : Op} (linked : s.Linked nodes) (returns : step w op s = .ok s') :
    s.Persists s' := by
  cases op with
  | frame af ifname frame => exact persists_of_shape (shape_stable.frame returns)
  | alarm => exact persists_of_shape (shape_stable.alarm returns)
  | command command =>
      obtain ⟨⟨status, s₁⟩, processed, returns⟩ := bind_eq_ok.mp returns
      cases returns
      cases command with
      | create inst =>
          rcases createCommand_outcome processed with
            ⟨-, -, -, grows⟩ | ⟨s₁, -, link, started⟩
          · exact grows.persists
          · exact (persists_created linked link).trans (persists_of_shape (started_shape started).1)
      | remove key =>
          rcases vrrpDestroyInst_core processed with ⟨-, rfl⟩ | ⟨-, v, t, selected, core, unlinked⟩
          · exact .refl _
          · have shape : t.shape = s.shape := by rw [shape_of_core core, shape_stable.departed]
            obtain ⟨next, prev, -, -, rfl, -⟩ :=
              (linked.of_shape shape).unlink (linked.mem_of_search selected) unlinked
            exact (persists_of_shape shape).trans (persists_withLinks next prev)
      | startup key => exact persists_of_shape (shape_stable.startup processed)
      | shutdown key => exact persists_of_shape (shape_stable.shutdown processed)
      | modify key pri delay preeMode acptMode =>
          exact persists_of_shape (vrrpSetInstProp_shape processed)

/-- The records of a new instance, as the list goes on. -/
theorem withInst_record {inst : VrrpInst} (linked : s.Linked nodes)
    (link : (s.withInst inst).linkInst s.dsTop = .ok s') :
    (s'.ds s.dsTop).vr = s.vrTop ∧ (s'.vr s.dsTop).vr = inst.viVr.copied ∧
      s'.vrTop = s.vrTop + 1 := by
  obtain ⟨next, prev, -, -, rfl, -⟩ := linked.link link
  refine ⟨?_, ?_, rfl⟩ <;> simp [withLinks, withInst, Daemon.vr, VrrpVr.copied]

/-- A listed instance keeps its VR and its interface. -/
theorem Persists.listed (persists : s.Persists s') (linked : s.Linked nodes) {v : DsPtr}
    (member : v ∈ nodes) :
    (s'.ds v).vr = (s.ds v).vr ∧ s'.vrrpIfname v = s.vrrpIfname v ∧ s'.vrrpAf v = s.vrrpAf v := by
  have own := persists.vrOf v (linked.allocated v member)
  have record := persists.vr _ (linked.vrAllocated v member)
  refine ⟨own, ?_, ?_⟩
  · rw [vrrpIfname, vrrpIfname, Daemon.vr, Daemon.vr, own, record]
  · rw [vrrpAf, vrrpAf, Daemon.vr, Daemon.vr, own, record]

end Daemon

/-! ## The tables -/

theorem Outcome.of_eq_ok {α : Type} {x : Result α} {a : α} : Outcome.of x = .ok a ↔ x = .ok a := by
  cases x <;> simp [Outcome.of]

theorem deref_eq_ok {α : Type} {x : Option α} {a : α} : deref x = .ok a ↔ x = some a := by
  cases x <;> simp

/-- A sequence that begins with a computation that does not call `exit`. -/
theorem Outcome.bind_of_eq_ok {α β : Type} {x : Result α} {f : α → Outcome β} {b : β} :
    (Outcome.of x >>= f) = .ok b ↔ ∃ a, x = .ok a ∧ f a = .ok b := by
  rw [bind_eq_ok]
  simp only [Outcome.of_eq_ok]

namespace NetTable

variable {intf : CString} {w : NetWorld}

/-- The loop ends at a slot that is free or holds the interface, or finds none. -/
theorem scanNetfds_slot (slots : List VrrpIntfFd) (i n1 : Nat) :
    (scanNetfds intf slots i n1).1 = n1 ∨
      ∃ j slot, (scanNetfds intf slots i n1).1 = i + j ∧ slots[j]? = some slot ∧
        (slot.intf = [] ∨ slot.intf = intf.val) := by
  induction slots generalizing i n1 with
  | nil => exact .inl rfl
  | cons slot slots ih =>
      rw [scanNetfds]
      split
      · rename_i free
        rcases ih (i + 1) (if i < n1 then i else n1) with same | ⟨j, other, here, found, usable⟩
        · rw [same]
          split
          · exact .inr ⟨0, slot, rfl, rfl, .inl free⟩
          · exact .inl rfl
        · exact .inr ⟨j + 1, other, by omega, found, usable⟩
      · split
        · rename_i own
          exact .inr ⟨0, slot, rfl, rfl, .inr own⟩
        · rcases ih (i + 1) n1 with same | ⟨j, other, here, found, usable⟩
          · exact .inl same
          · exact .inr ⟨j + 1, other, by omega, found, usable⟩

/-- **A call writes one slot**, which was free or held the interface; and `*fp`, if it is set,
points to it. -/
theorem vrrpdSetupNetfdVr_outcome {t t' : NetTable} {ret : Int} {fp : Option Nat}
    (size : t.netfds.length = netfdSlots)
    (returns : t.vrrpdSetupNetfdVr w none intf = .ok ((ret, fp), t')) :
    ∃ i old, t.netfds[i]? = some old ∧ (old.intf = [] ∨ old.intf = intf.val) ∧
      t' = ⟨t.netfds.set i (slotOf w intf t), t.opened + 2⟩ ∧ (fp = none ∨ fp = some i) := by
  obtain ⟨t₁, initialised, rest⟩ := bind_eq_ok.mp returns
  have inside : (scanNetfds intf t.netfds 0 netfdSlots).1 < t.netfds.length := by
    by_contra outside
    rw [initNetfd_outside (Nat.not_lt.mp outside)] at initialised
    cases initialised
  have short : intf.val.length < lifnamsiz := by
    by_contra long
    rw [initNetfd, if_neg long] at initialised
    cases initialised
  rw [initNetfd_inside short inside] at initialised
  cases initialised
  rcases scanNetfds_slot t.netfds 0 netfdSlots with full | ⟨j, old, here, held, usable⟩
  · rw [full, size] at inside
    exact absurd inside (Nat.lt_irrefl _)
  · rw [Nat.zero_add] at here
    refine ⟨j, old, held, usable, ?_⟩
    split at rest
    · cases rest
      refine ⟨by rw [here], ?_⟩
      cases (scanNetfds intf t.netfds 0 netfdSlots).2 <;> simp [here]
    · cases rest
      exact ⟨by rw [here], .inr (by rw [here])⟩

end NetTable

namespace PollTable

variable {calls : List PollCall} {c : PollCall}

/-- **A call with a name adds a descriptor, or leaves the tables as they are**, when there is
no room and no memory. -/
theorem pollAdd_outcome {realloc : Bool} {t' : PollTable} {ret : Int} (distinct : Distinct calls)
    (room : Room calls) (nonempty : calls ≠ []) (nonneg : 0 ≤ c.fd)
    (fresh : c.fd ∉ calls.map PollCall.fd) (named : c.intf ≠ none)
    (returns : (tableOf calls).pollAdd realloc c = .ok (ret, t')) :
    t' = tableOf calls ∨ (t' = tableOf (calls ++ [c]) ∧ Room (calls ++ [c])) := by
  have unknown : ¬ calls.any (·.fd = c.fd) = true := by rwa [any_fd_iff]
  have notHeld : ¬ (tableOf calls).pollfds.any (·.fd = c.fd) = true := by rwa [any_tableOf nonneg]
  rcases Nat.lt_or_ge calls.length pollSlots with space | full
  · -- a free entry is used, and memory does not matter
    have free : (tableOf calls).pollAdd realloc c = (tableOf calls).pollAdd true c := by
      rw [pollAdd, pollAdd, if_neg notHeld, if_neg notHeld, findIdx?_tableOf distinct nonempty,
        if_pos space]
    rw [free] at returns
    have short := pollAdd_short notHeld returns
    rw [pollAdd_free distinct nonneg unknown nonempty space short] at returns
    cases returns
    refine .inr ⟨rfl, ?_, fun d head => room.first d ?_, fun d member => ?_⟩
    · rw [List.length_append]
      exact space
    · rwa [List.head?_append_of_ne_nil _ nonempty] at head
    · rcases List.mem_append.mp member with old | new
      · exact room.short d old
      · rwa [List.mem_singleton.mp new]
  · -- `pollfds` would have to grow, and `poll_intfs` has no entry for the name
    have size : calls.length = pollSlots := Nat.le_antisymm room.few full
    have length : (tableOf calls).pollfds.length = pollSlots := by
      simp only [tableOf, if_neg nonempty]
      exact length_fill (by rw [List.length_map]; exact room.few)
    have names : (tableOf calls).pollIntfs.length = pollSlots :=
      length_fill (by rw [List.length_map]; exact room.few)
    rw [pollAdd, if_neg notHeld, findIdx?_tableOf distinct nonempty, if_neg (by omega)] at returns
    dsimp only at returns
    rw [growPollfds] at returns
    split at returns
    · cases returns
      exact .inl rfl
    · obtain ⟨name, given⟩ := Option.ne_none_iff_exists'.mp named
      obtain ⟨grown, copied, -⟩ := bind_eq_ok.mp returns
      rw [given, copyIntf] at copied
      split at copied
      · rw [storeAt_of_le (by omega)] at copied
        cases copied
      · cases copied

end PollTable

/-! ## What an event does to the sockets -/

namespace Host

variable {hw : HostWorld} {h h' : Host}

/-- The tables of sockets are the same. -/
structure SameSockets (h h' : Host) : Prop where
  nets : h'.nets = h.nets
  poll : h'.poll = h.poll
  vfd : h'.vfd = h.vfd
  device : h'.device = h.device
  receivers : h'.receivers = h.receivers

theorem SameSockets.refl (h : Host) : h.SameSockets h := ⟨rfl, rfl, rfl, rfl, rfl⟩

/-- The two sockets that the next create opens. -/
def nextSend (hw : HostWorld) (h : Host) : Int := hw.net.createSock h.nets.opened
def nextRcv (hw : HostWorld) (h : Host) : Int := hw.net.createSock (h.nets.opened + 1)

/-- The slot of `netfds` with them. -/
def newSlot (hw : HostWorld) (inst : VrrpInst) (h : Host) : VrrpIntfFd :=
  ⟨inst.viVr.vrIfname.bytes, h.nextSend hw, h.nextRcv hw⟩

/-- The call of `poll_add` for a new instance. -/
def recvCall (hw : HostWorld) (h : Host) (inst : VrrpInst) : PollCall :=
  ⟨h.nextRcv hw, inst.viVr.vrAf, some ⟨inst.viVr.vrIfname.bytes, inst.viVr.vrIfname.noNul⟩⟩

/-- The sockets for a new instance are opened: slot `i` of `netfds` is written, and the
instance, whose VR is the next one to be allocated, points to it. -/
structure Opens (hw : HostWorld) (inst : VrrpInst) (h h' : Host) (i index : Nat) : Prop where
  device : deviceOf hw inst.viVr.vrIfname = some index
  usable : ∃ old, h.nets.netfds[i]? = some old ∧
    (old.intf = [] ∨ old.intf = inst.viVr.vrIfname.bytes)
  nets : h'.nets = ⟨h.nets.netfds.set i (h.newSlot hw inst), h.nets.opened + 2⟩
  vfd : h'.vfd = Function.update h.vfd h.daemon.vrTop (some i)
  devices : h'.device =
    Function.update (Function.update h.device (h.nextSend hw) (some index)) (h.nextRcv hw) (some index)
  receivers : h'.receivers = h.receivers ++ [h.nextRcv hw]
  polled : ∃ ret, h.poll.pollAdd (hw.realloc h.poll.pollfds.length) (h.recvCall hw inst) =
    .ok (ret, h'.poll)

/-- What an event does: an operation of the daemon or none, next to the same sockets, or a
create with new sockets. -/
inductive Advance (hw : HostWorld) (h h' : Host) : Prop where
  | idle (daemon : h'.daemon = h.daemon) (same : h.SameSockets h')
  | operates (op : Op) (noCreate : ∀ v, ¬ Daemon.Creates hw.world h.daemon op v)
      (stepped : Daemon.step hw.world op h.daemon = .ok h'.daemon) (same : h.SameSockets h')
  | creates (inst : VrrpInst) (i index : Nat)
      (creates : Daemon.Creates hw.world h.daemon (.command (.create inst)) h.daemon.dsTop)
      (stepped : Daemon.step hw.world (.command (.create inst)) h.daemon = .ok h'.daemon)
      (own : (h'.daemon.ds h.daemon.dsTop).vr = h.daemon.vrTop)
      (top : h'.daemon.vrTop = h.daemon.vrTop + 1) (opens : Opens hw inst h h' i index)

/-- The sockets of a new instance `v`, whose VR has no slot yet. -/
theorem opens_sockets {inst : VrrpInst} {v : DsPtr} {s : Daemon} {h₁ h₂ : Host}
    (size : h.nets.netfds.length = netfdSlots) (unset : h.vfd h.daemon.vrTop = none)
    (own : (s.ds v).vr = h.daemon.vrTop) (record : (s.vr v).vr = inst.viVr.copied)
    (setUp : vrrpdSetupNetfd hw v { h with daemon := s } = .ok h₁)
    (started : instStartRecv hw v h₁ = .ok h₂) :
    h₂.daemon = s ∧ h₂.requests = h.requests ∧ ∃ i index, Opens hw inst h h₂ i index := by
  have name : s.vrrpIfname v = inst.viVr.vrIfname :=
    (congrArg VrrpVr.vrIfname record).trans rfl
  have af : s.vrrpAf v = inst.viVr.vrAf := (congrArg VrrpVr.vrAf record).trans rfl
  obtain ⟨⟨⟨ret, fp⟩, nets⟩, called, setUp⟩ := Outcome.bind_of_eq_ok.mp setUp
  dsimp only at called setUp
  rw [own, unset, name] at called
  obtain ⟨i, old, held, usable, rfl, pointer⟩ := NetTable.vrrpdSetupNetfdVr_outcome size called
  rw [name] at setUp
  cases device : deviceOf hw inst.viVr.vrIfname with
  | none =>
      rw [device] at setUp
      cases setUp
  | some index =>
      rw [device] at setUp
      cases setUp
      obtain ⟨k, pointed, started⟩ := Outcome.bind_of_eq_ok.mp started
      obtain ⟨fd, read, started⟩ := Outcome.bind_of_eq_ok.mp started
      obtain ⟨⟨added, poll⟩, polled, started⟩ := Outcome.bind_of_eq_ok.mp started
      cases started
      dsimp only at pointed read polled
      rw [own, Function.update_self] at pointed
      obtain rfl : fp = some i := by
        rcases pointer with rfl | given
        · cases pointed
        · exact given
      cases pointed
      have inside : i < h.nets.netfds.length := (List.getElem?_eq_some_iff.mp held).1
      rw [List.getElem?_set_self inside] at read
      cases read
      refine ⟨rfl, rfl, i, index, device, ⟨old, held, usable⟩, rfl, ?_, rfl, rfl, added, ?_⟩
      · dsimp only
        rw [own]
      · have whole : text inst.viVr.vrIfname.bytes = inst.viVr.vrIfname.bytes :=
          text_self inst.viVr.vrIfname.noNul
        have call : (⟨h.nextRcv hw, s.vrrpAf v, some ⟨text inst.viVr.vrIfname.bytes,
            zero_notMem_text _⟩⟩ : PollCall) = h.recvCall hw inst := by
          simp only [recvCall, af, whole]
        rw [← call]
        exact polled

/-- **A create that succeeds opens two sockets**, and one that fails opens none. Its status and
the daemon behind it are those of the daemon alone. -/
theorem createCommand_outcome {inst : VrrpInst} {ret : Int} {nodes : List DsPtr}
    (linked : h.daemon.Linked nodes) (size : h.nets.netfds.length = netfdSlots)
    (unset : h.vfd h.daemon.vrTop = none) (returns : createCommand hw inst h = .ok (ret, h')) :
    h.daemon.createCommand hw.world inst = .ok (ret, h'.daemon) ∧ Advance hw h h' := by
  obtain ⟨⟨status, made, s⟩, created, returns⟩ := Outcome.bind_of_eq_ok.mp returns
  rcases Daemon.vrrpCreateInst_outcome created with ⟨failed, rfl, -⟩ | ⟨rfl, rfl, -, -, link⟩
  · dsimp only at returns
    rw [if_pos failed] at returns
    cases returns
    have answer : h.daemon.createCommand hw.world inst = .ok (ret, s) := by
      simp only [Daemon.createCommand, created, ok_bind]
      rw [if_pos failed]
      rfl
    refine ⟨answer, .operates (.command (.create inst)) ?_ ?_ ⟨rfl, rfl, rfl, rfl, rfl⟩⟩
    · rintro v ⟨inst', s₁, ⟨⟩, creates⟩
      rw [created] at creates
      cases creates
    · exact bind_eq_ok.mpr ⟨_, answer, rfl⟩
  · simp only [ne_eq, not_true_eq_false, reduceIte, deref_some] at returns
    obtain ⟨v, ⟨⟩, returns⟩ := Outcome.bind_of_eq_ok.mp returns
    obtain ⟨h₁, setUp, returns⟩ := bind_eq_ok.mp returns
    obtain ⟨h₂, started, returns⟩ := bind_eq_ok.mp returns
    have creates : Daemon.Creates hw.world h.daemon (.command (.create inst)) h.daemon.dsTop :=
      ⟨inst, s, rfl, created⟩
    obtain ⟨own, record, top⟩ := Daemon.withInst_record linked link
    obtain ⟨same, -, i, index, opens⟩ := opens_sockets size unset own record setUp started
    have granted : ¬ VrrpRet.success.code ≠ VrrpRet.success.code := not_not.mpr rfl
    split at returns
    · rename_i highest
      obtain ⟨⟨status, s₂⟩, promoted, returns⟩ := Outcome.bind_of_eq_ok.mp returns
      cases returns
      rw [same] at promoted
      have shape : (s₂.onQueue (·.alarm inst.viVa.delay)).shape = s.shape := by
        have core := (Daemon.vrrpStateI2m_core promoted).2
        rw [Daemon.shape_onQueue, Daemon.shape_of_core core, Daemon.shape_promote]
      have answer : h.daemon.createCommand hw.world inst =
          .ok (status, s₂.onQueue (·.alarm inst.viVa.delay)) := by
        simp only [Daemon.createCommand, created, ok_bind]
        rw [if_neg granted]
        simp only [deref_some, ok_bind, if_pos highest, promoted]
        rfl
      refine ⟨answer, .creates inst i index creates (bind_eq_ok.mpr ⟨_, answer, rfl⟩)
        ((Daemon.vr_of_shape shape _).trans own) ((congrArg Daemon.Shape.vrTop shape).trans top)
        { opens with }⟩
    · rename_i regular
      cases returns
      have answer : h.daemon.createCommand hw.world inst =
          .ok (VrrpRet.success.code, h'.daemon) := by
        simp only [Daemon.createCommand, created, ok_bind]
        rw [if_neg granted, same]
        simp only [deref_some, ok_bind, if_neg regular]
        rfl
      exact ⟨answer, .creates inst i index creates (bind_eq_ok.mpr ⟨_, answer, rfl⟩) (same ▸ own)
        (same ▸ top) opens⟩

theorem processAdmSock_outcome {nodes : List DsPtr} (linked : h.daemon.Linked nodes)
    (size : h.nets.netfds.length = netfdSlots) (unset : h.vfd h.daemon.vrTop = none)
    (returns : processAdmSock hw h = .ok h') : Advance hw h h' := by
  unfold processAdmSock at returns
  have operation : ∀ (command : Command) requests, (∀ inst, command ≠ .create inst) →
      (Outcome.of (h.daemon.processCommand hw.world command) >>= fun r =>
        .ok { h with daemon := r.2, requests := requests }) = (.ok h' : Outcome Host) →
        Advance hw h h' := by
    intro command requests other returns
    obtain ⟨⟨status, s⟩, processed, returns⟩ := Outcome.bind_of_eq_ok.mp returns
    cases returns
    refine .operates (.command command) ?_ ?_ ⟨rfl, rfl, rfl, rfl, rfl⟩
    · rintro v ⟨inst, s₁, same, -⟩
      exact other inst (Op.command.inj same)
    · exact bind_eq_ok.mpr ⟨(status, s), processed, rfl⟩
  split at returns
  · cases returns
    exact .idle rfl (.refl _)
  · cases returns
    exact .idle rfl ⟨rfl, rfl, rfl, rfl, rfl⟩
  · rename_i inst requests waiting
    obtain ⟨⟨ret, h₁⟩, created, returns⟩ := bind_eq_ok.mp returns
    cases returns
    have advance := (createCommand_outcome (h := { h with requests := requests }) linked size unset
      created).2
    cases advance with
    | idle daemon same =>
        exact .idle daemon ⟨same.nets, same.poll, same.vfd, same.device, same.receivers⟩
    | operates op noCreate stepped same =>
        exact .operates op noCreate stepped
          ⟨same.nets, same.poll, same.vfd, same.device, same.receivers⟩
    | creates inst i index creates stepped own top opens =>
        exact .creates inst i index creates stepped own top { opens with }
  · rename_i command requests other waiting
    exact operation command requests other returns

theorem processVrrpdSock_outcome {fd : Int} {i : Nat}
    (returns : processVrrpdSock hw fd i h = .ok h') :
    (h.frames fd = [] ∧ h' = h) ∨
      ∃ frame frames af name s, h.frames fd = frame :: frames ∧ h.poll.pollAfs[i]? = some af ∧
        h.poll.pollIntfs[i]? = some name ∧
        h.daemon.receive hw.world ⟨af, intfName name, frame⟩ = .ok s ∧
        h' = { h with
          daemon := s
          frames := Function.update h.frames fd frames
          handled := h.handled ++ [(fd, ⟨af, intfName name, frame⟩)] } := by
  unfold processVrrpdSock at returns
  split at returns
  · cases returns
    exact .inl ⟨‹_›, rfl⟩
  · rename_i frame frames waiting
    obtain ⟨af, family, returns⟩ := Outcome.bind_of_eq_ok.mp returns
    obtain ⟨name, named, returns⟩ := Outcome.bind_of_eq_ok.mp returns
    obtain ⟨s, received, returns⟩ := Outcome.bind_of_eq_ok.mp returns
    cases returns
    exact .inr ⟨frame, frames, af, name, s, waiting, deref_eq_ok.mp family, deref_eq_ok.mp named,
      received, rfl⟩

/-- **What an event does to the sockets.** -/
theorem step_outcome {event : Event} {nodes : List DsPtr} (linked : h.daemon.Linked nodes)
    (size : h.nets.netfds.length = netfdSlots) (unset : h.vfd h.daemon.vrTop = none)
    (returns : step hw event h = .ok h') : Advance hw h h' := by
  cases event with
  | request command =>
      cases returns
      exact .idle rfl ⟨rfl, rfl, rfl, rfl, rfl⟩
  | arrive index frame =>
      cases returns
      exact .idle rfl ⟨rfl, rfl, rfl, rfl, rfl⟩
  | alarm =>
      obtain ⟨s, alarmed, returns⟩ := Outcome.bind_of_eq_ok.mp returns
      cases returns
      refine .operates .alarm ?_ alarmed ⟨rfl, rfl, rfl, rfl, rfl⟩
      rintro v ⟨inst, s₁, ⟨⟩, -⟩
  | round =>
      simp only [step, round] at returns
      split at returns
      · cases returns
        exact .idle rfl (.refl _)
      · rename_i i found
        obtain ⟨entry, read, returns⟩ := Outcome.bind_of_eq_ok.mp returns
        split at returns
        · exact processAdmSock_outcome linked size unset returns
        · rcases processVrrpdSock_outcome returns with
            ⟨-, rfl⟩ | ⟨frame, frames, af, name, s, -, -, -, received, rfl⟩
          · exact .idle rfl (.refl _)
          · refine .operates (.frame af (intfName name) frame) ?_ received ⟨rfl, rfl, rfl, rfl, rfl⟩
            rintro v ⟨inst, s₁, ⟨⟩, -⟩

/-! ## The invariant -/

/-- A socket is bound to the device of an interface. -/
structure Bound (hw : HostWorld) (h : Host) (fd : Int) (name : Ifname) : Prop where
  device : h.device fd = deviceOf hw name
  known : deviceOf hw name ≠ none

/-- An instance points to a slot of `netfds` that holds its interface, which exists. -/
structure HasSlot (hw : HostWorld) (h : Host) (v : DsPtr) : Prop where
  slot : ∃ i slot, h.vfd (h.daemon.ds v).vr = some i ∧ h.nets.netfds[i]? = some slot ∧
    slot.intf = (h.daemon.vrrpIfname v).bytes
  known : deviceOf hw (h.daemon.vrrpIfname v) ≠ none

/-- The entries of `pollfds` are the socket of `vrrpadm`, and sockets that are bound to the
interface they are registered with. -/
structure Polls (hw : HostWorld) (h : Host) (calls : List PollCall) : Prop where
  poll : h.poll = PollTable.tableOf (admCall hw :: calls)
  room : PollTable.Room (admCall hw :: calls)
  distinct : PollTable.Distinct (admCall hw :: calls)
  bound : ∀ c ∈ calls, c.fd ∈ h.receivers ∧ ∃ name : Ifname,
    c.intf = some ⟨name.bytes, name.noNul⟩ ∧ h.Bound hw c.fd name

/-- **The sockets are wired to the instances.** -/
structure Wired (hw : HostWorld) (h : Host) : Prop where
  slotted : ∃ nodes, h.daemon.Linked nodes ∧ ∀ v ∈ nodes, h.HasSlot hw v
  unset : ∀ p, h.daemon.vrTop ≤ p → h.vfd p = none
  size : h.nets.netfds.length = netfdSlots
  slots : ∀ slot ∈ h.nets.netfds, slot.intf ≠ [] →
    ∃ name : Ifname, slot.intf = name.bytes ∧ h.Bound hw slot.sSend name ∧ h.Bound hw slot.sRcv name
  polls : ∃ calls, h.Polls hw calls
  opened : ∀ fd, h.device fd ≠ none → ∃ k < h.nets.opened, fd = hw.net.createSock k
  received : ∀ fd ∈ h.receivers, h.device fd ≠ none

/-- An interface that exists has a name. -/
theorem nonempty_of_known {name : Ifname} (known : deviceOf hw name ≠ none) : name.bytes ≠ [] := by
  intro empty
  rw [deviceOf, empty] at known
  exact known hw.unnamed

theorem wired_setup (ready : setup hw = .ok h) : Wired hw h := by
  obtain ⟨⟨ret, poll⟩, added, ready⟩ := Outcome.bind_of_eq_ok.mp ready
  have grows : PollTable.initial.pollAdd (hw.realloc 0) (admCall hw) =
      PollTable.initial.growPollfds (hw.realloc 0) (admCall hw) := rfl
  dsimp only at ready
  split at ready
  · cases ready
  · rename_i accepted
    cases ready
    have table : poll = PollTable.tableOf [admCall hw] := by
      rw [grows, PollTable.growPollfds] at added
      split at added
      · cases added
        exact absurd rfl accepted
      · cases added
        rfl
    have none {α : Type} {P : α → Prop} : ∀ x ∈ ([] : List α), P x := fun _ member =>
      absurd member List.not_mem_nil
    refine ⟨⟨[], Daemon.linked_initial, none⟩, fun _ _ => rfl, rfl, ?_, ⟨[], table, ?_, ?_, none⟩,
      fun _ bound => absurd rfl bound, none⟩
    · intro slot member
      have blank : slot = .blank := List.eq_of_mem_replicate member
      rw [blank]
      exact fun named => absurd rfl named
    · refine ⟨Nat.succ_le_of_lt (by decide), fun c first => ?_, fun c member => ?_⟩
      · cases first
        rfl
      · rw [List.mem_singleton.mp member]
        exact Nat.zero_lt_succ _
    · refine ⟨fun c member => ?_, List.nodup_singleton _⟩
      rw [List.mem_singleton.mp member]
      exact hw.admOpened

section Creates

variable {inst : VrrpInst} {i index : Nat}

/-- The sockets that are bound stay bound to their devices. -/
theorem Wired.kept (wired : Wired hw h) (opens : Opens hw inst h h' i index) {fd : Int}
    (bound : h.device fd ≠ none) : h'.device fd = h.device fd := by
  obtain ⟨k, before, rfl⟩ := wired.opened fd bound
  have notSend : hw.net.createSock k ≠ h.nextSend hw := fun same => by
    have := hw.fresh same
    omega
  have notRcv : hw.net.createSock k ≠ h.nextRcv hw := fun same => by
    have := hw.fresh same
    omega
  rw [opens.devices, Function.update_of_ne notRcv, Function.update_of_ne notSend]

theorem Wired.bound_kept (wired : Wired hw h) (opens : Opens hw inst h h' i index) {fd : Int}
    {name : Ifname} (bound : h.Bound hw fd name) : h'.Bound hw fd name := by
  refine ⟨?_, bound.known⟩
  rw [wired.kept opens (by rw [bound.device]; exact bound.known), bound.device]

/-- The new sockets are bound to the device of the new instance. -/
theorem Opens.bound (opens : Opens hw inst h h' i index) :
    h'.Bound hw (h.nextSend hw) inst.viVr.vrIfname ∧
      h'.Bound hw (h.nextRcv hw) inst.viVr.vrIfname := by
  have known : deviceOf hw inst.viVr.vrIfname ≠ none := by simp [opens.device]
  have different : h.nextSend hw ≠ h.nextRcv hw := fun same => by
    have := hw.fresh same
    omega
  refine ⟨⟨?_, known⟩, ⟨?_, known⟩⟩
  · rw [opens.devices, opens.device, Function.update_of_ne different, Function.update_self]
  · rw [opens.devices, opens.device, Function.update_self]

/-- A new instance has the slot that was written for it. -/
theorem Opens.hasSlot (opens : Opens hw inst h h' i index)
    (creates : Daemon.Creates hw.world h.daemon (.command (.create inst)) h.daemon.dsTop)
    {nodes nodes' : List DsPtr}
    (outcome : Daemon.ListOutcome hw.world (.command (.create inst)) h.daemon h'.daemon nodes nodes')
    (own : (h'.daemon.ds h.daemon.dsTop).vr = h.daemon.vrTop) :
    h'.HasSlot hw h.daemon.dsTop := by
  obtain ⟨inst', s₁, ⟨⟩, created⟩ := creates
  have key := (outcome.created inst s₁ _ rfl created).2
  have name : h'.daemon.vrrpIfname h.daemon.dsTop = inst.viVr.vrIfname :=
    Option.some.inj (congrArg Key.ifname key)
  obtain ⟨old, held, -⟩ := opens.usable
  have inside : i < h.nets.netfds.length := (List.getElem?_eq_some_iff.mp held).1
  refine ⟨⟨i, h.newSlot hw inst, ?_, ?_, ?_⟩, ?_⟩
  · rw [opens.vfd, own, Function.update_self]
  · rw [opens.nets]
    exact List.getElem?_set_self inside
  · rw [name]
    rfl
  · rw [name, opens.device]
    exact Option.some_ne_none index

/-- A listed instance keeps its slot when another one is created. -/
theorem HasSlot.created {v : DsPtr} {nodes : List DsPtr} (slotted : h.HasSlot hw v)
    (linked : h.daemon.Linked nodes) (member : v ∈ nodes)
    (persists : h.daemon.Persists h'.daemon) (opens : Opens hw inst h h' i index) :
    h'.HasSlot hw v := by
  obtain ⟨own, name, -⟩ := persists.listed linked member
  obtain ⟨⟨k, slot, pointed, held, named⟩, known⟩ := slotted
  have other : (h.daemon.ds v).vr ≠ h.daemon.vrTop :=
    Nat.ne_of_lt (linked.vrAllocated v member)
  have pointed' : h'.vfd (h'.daemon.ds v).vr = some k := by
    rw [opens.vfd, own, Function.update_of_ne other, pointed]
  by_cases written : k = i
  · -- the slot is in use, so it was found by its interface
    subst written
    obtain ⟨old, here, usable⟩ := opens.usable
    rw [held] at here
    cases here
    have interface : slot.intf = inst.viVr.vrIfname.bytes := by
      rcases usable with free | same
      · rw [named] at free
        exact absurd free (nonempty_of_known known)
      · exact same
    have inside : k < h.nets.netfds.length := (List.getElem?_eq_some_iff.mp held).1
    refine ⟨⟨k, h.newSlot hw inst, pointed', ?_, ?_⟩, name ▸ known⟩
    · rw [opens.nets]
      exact List.getElem?_set_self inside
    · rw [name, ← named, interface]
      rfl
  · refine ⟨⟨k, slot, pointed', ?_, ?_⟩, name ▸ known⟩
    · rw [opens.nets]
      exact (List.getElem?_set_ne (Ne.symm written)).trans held
    · rw [name, named]

/-- The descriptor of a new instance is not polled yet. -/
theorem Polls.fresh {calls : List PollCall} (polls : h.Polls hw calls) (wired : Wired hw h) :
    (h.recvCall hw inst).fd ∉ (admCall hw :: calls).map PollCall.fd := by
  intro member
  rcases List.mem_cons.mp member with own | known
  · exact hw.admFresh _ own
  · obtain ⟨c, among, same⟩ := List.mem_map.mp known
    obtain ⟨received, -⟩ := polls.bound c among
    obtain ⟨k, before, opened⟩ := wired.opened c.fd (wired.received _ received)
    have index := hw.fresh (opened.symm.trans same)
    omega

/-- The receiving socket of a new instance is polled from now on, unless memory ran out. -/
theorem Wired.polls_created (wired : Wired hw h) {calls : List PollCall} (polls : h.Polls hw calls)
    (opens : Opens hw inst h h' i index) : ∃ more, h'.Polls hw (calls ++ more) := by
  have old : ∀ c ∈ calls, c.fd ∈ h'.receivers ∧ ∃ name : Ifname,
      c.intf = some ⟨name.bytes, name.noNul⟩ ∧ h'.Bound hw c.fd name := by
    intro c member
    obtain ⟨received, name, named, bound⟩ := polls.bound c member
    rw [opens.receivers]
    exact ⟨List.mem_append_left _ received, name, named, wired.bound_kept opens bound⟩
  obtain ⟨ret, added⟩ := opens.polled
  rw [polls.poll] at added
  rcases PollTable.pollAdd_outcome polls.distinct polls.room (List.cons_ne_nil _ _) (hw.opened _)
      (polls.fresh wired) (Option.some_ne_none _) added with same | ⟨more, room⟩
  · refine ⟨[], ?_⟩
    rw [List.append_nil]
    exact ⟨same, polls.room, polls.distinct, old⟩
  · refine ⟨[h.recvCall hw inst], more, room, polls.distinct.append (hw.opened _) (polls.fresh wired),
      fun c member => ?_⟩
    rcases List.mem_append.mp member with before | new
    · exact old c before
    · rw [List.mem_singleton.mp new, opens.receivers]
      exact ⟨List.mem_append_right _ (List.mem_singleton_self _), _, rfl, opens.bound.2⟩

/-- **A create keeps the invariant.** -/
theorem Wired.creates (wired : Wired hw h)
    (creates : Daemon.Creates hw.world h.daemon (.command (.create inst)) h.daemon.dsTop)
    (stepped : Daemon.step hw.world (.command (.create inst)) h.daemon = .ok h'.daemon)
    (own : (h'.daemon.ds h.daemon.dsTop).vr = h.daemon.vrTop)
    (top : h'.daemon.vrTop = h.daemon.vrTop + 1) (opens : Opens hw inst h h' i index) :
    Wired hw h' := by
  obtain ⟨nodes, linked, slotted⟩ := wired.slotted
  obtain ⟨calls, polls⟩ := wired.polls
  obtain ⟨nodes', outcome⟩ := Daemon.step_list linked stepped
  obtain ⟨more, polled⟩ := wired.polls_created polls opens
  refine ⟨⟨nodes', outcome.linked, fun v member => ?_⟩, fun p above => ?_, ?_,
    fun slot member used => ?_, ⟨_, polled⟩, fun fd bound => ?_, fun fd member => ?_⟩
  · rcases outcome.change.listed member with rfl | old
    · exact opens.hasSlot creates outcome own
    · exact (slotted v old).created linked old (Daemon.persists_step linked stepped) opens
  · rw [top] at above
    rw [opens.vfd, Function.update_of_ne (Nat.ne_of_gt above)]
    exact wired.unset p (Nat.le_of_succ_le above)
  · rw [opens.nets, List.length_set]
    exact wired.size
  · rw [opens.nets] at member
    rcases List.mem_or_eq_of_mem_set member with old | rfl
    · obtain ⟨name, held, sends, receives⟩ := wired.slots slot old used
      exact ⟨name, held, wired.bound_kept opens sends, wired.bound_kept opens receives⟩
    · exact ⟨_, rfl, opens.bound⟩
  · rw [opens.nets]
    by_cases old : h.device fd = none
    · by_cases rcv : fd = h.nextRcv hw
      · exact ⟨h.nets.opened + 1, Nat.lt_succ_self _, rcv⟩
      · by_cases send : fd = h.nextSend hw
        · exact ⟨h.nets.opened, Nat.lt_succ_of_lt (Nat.lt_succ_self _), send⟩
        · rw [opens.devices, Function.update_of_ne rcv, Function.update_of_ne send] at bound
          exact absurd old bound
    · obtain ⟨k, before, rfl⟩ := wired.opened fd old
      exact ⟨k, Nat.lt_add_right 2 before, rfl⟩
  · rw [opens.receivers] at member
    rcases List.mem_append.mp member with old | new
    · rw [wired.kept opens (wired.received fd old)]
      exact wired.received fd old
    · rw [List.mem_singleton.mp new, opens.bound.2.device]
      exact opens.bound.2.known

end Creates

/-- A listed instance keeps its slot while the sockets stay the same. -/
theorem HasSlot.same {v : DsPtr} {nodes : List DsPtr} (slotted : h.HasSlot hw v)
    (linked : h.daemon.Linked nodes) (member : v ∈ nodes)
    (persists : h.daemon.Persists h'.daemon) (same : h.SameSockets h') : h'.HasSlot hw v := by
  obtain ⟨own, name, -⟩ := persists.listed linked member
  obtain ⟨⟨i, slot, pointed, held, named⟩, known⟩ := slotted
  refine ⟨⟨i, slot, ?_, ?_, ?_⟩, ?_⟩
  · rw [same.vfd, own, pointed]
  · rw [same.nets, held]
  · rw [name, named]
  · rw [name]
    exact known

/-- The instances that a step leaves in the list were there, unless it is a create. -/
theorem listed_before {op : Op} {s : Daemon} {w : World} {nodes nodes' : List DsPtr} {v : DsPtr}
    (noCreate : ∀ u, ¬ Daemon.Creates w s op u) (change : Daemon.ListStep w op s nodes nodes')
    (member : v ∈ nodes') : v ∈ nodes := by
  cases change with
  | keep => exact member
  | insert creates => exact absurd creates (noCreate _)
  | erase =>
      rcases List.mem_append.mp member with front | back
      · exact List.mem_append_left _ front
      · exact List.mem_append_right _ (List.mem_cons_of_mem _ back)

theorem Polls.same {calls : List PollCall} (polls : h.Polls hw calls) (same : h.SameSockets h') :
    h'.Polls hw calls where
  poll := same.poll.trans polls.poll
  room := polls.room
  distinct := polls.distinct
  bound c member := by
    obtain ⟨received, name, named, bound⟩ := polls.bound c member
    refine ⟨by rw [same.receivers]; exact received, name, named, ?_, bound.known⟩
    rw [same.device]
    exact bound.device

/-- An operation of the daemon next to the same sockets keeps the invariant, unless it creates
an instance. -/
theorem Wired.same (wired : Wired hw h) (same : h.SameSockets h') {nodes' : List DsPtr}
    (linked' : h'.daemon.Linked nodes') (persists : h.daemon.Persists h'.daemon)
    (before : ∀ nodes, h.daemon.Linked nodes → ∀ v ∈ nodes', v ∈ nodes) : Wired hw h' := by
  obtain ⟨nodes, linked, slotted⟩ := wired.slotted
  obtain ⟨calls, polls⟩ := wired.polls
  refine ⟨⟨nodes', linked', fun v member => ?_⟩, fun p above => ?_, ?_, ?_, ⟨calls, polls.same same⟩,
    ?_, ?_⟩
  · have old := before nodes linked v member
    exact (slotted v old).same linked old persists same
  · rw [same.vfd]
    exact wired.unset p (Nat.le_trans persists.vrTop above)
  · rw [same.nets]
    exact wired.size
  · intro slot member used
    rw [same.nets] at member
    obtain ⟨name, held, sends, receives⟩ := wired.slots slot member used
    refine ⟨name, held, ⟨?_, sends.known⟩, ⟨?_, receives.known⟩⟩
    · rw [same.device, sends.device]
    · rw [same.device, receives.device]
  · rw [same.device, same.nets]
    exact wired.opened
  · rw [same.receivers, same.device]
    exact wired.received

theorem Wired.advance (wired : Wired hw h) (advance : Advance hw h h') : Wired hw h' := by
  obtain ⟨nodes, linked, slotted⟩ := wired.slotted
  cases advance with
  | idle daemon same =>
      have linked' : h'.daemon.Linked nodes := daemon ▸ linked
      refine wired.same same linked' (daemon ▸ .refl _) fun others other v member => ?_
      rwa [other.unique linked]
  | operates op noCreate stepped same =>
      obtain ⟨nodes', outcome⟩ := Daemon.step_list linked stepped
      refine wired.same same outcome.linked (Daemon.persists_step linked stepped)
        fun others other v member => ?_
      rw [other.unique linked]
      exact listed_before noCreate outcome.change member
  | creates inst i index creates stepped own top opens =>
      exact wired.creates creates stepped own top opens

/-- **The step lemma.** -/
theorem Wired.step {event : Event} (wired : Wired hw h) (returns : step hw event h = .ok h') :
    Wired hw h' := by
  obtain ⟨nodes, linked, -⟩ := wired.slotted
  exact wired.advance (step_outcome linked wired.size (wired.unset _ (Nat.le_refl _)) returns)

/-- The sockets that are polled stay polled, in the same order. -/
theorem Polls.step {event : Event} {calls : List PollCall} (polls : h.Polls hw calls)
    (wired : Wired hw h) (returns : Host.step hw event h = .ok h') :
    ∃ more, h'.Polls hw (calls ++ more) := by
  obtain ⟨nodes, linked, -⟩ := wired.slotted
  cases step_outcome linked wired.size (wired.unset _ (Nat.le_refl _)) returns with
  | idle _ same => exact ⟨[], by rw [List.append_nil]; exact polls.same same⟩
  | operates _ _ _ same => exact ⟨[], by rw [List.append_nil]; exact polls.same same⟩
  | creates _ _ _ _ _ _ _ opens => exact wired.polls_created polls opens

theorem Reachable.wired (reachable : Reachable hw h) : Wired hw h := by
  obtain ⟨start, events, ready, run⟩ := reachable
  exact run.invariant (Wired hw) (wired_setup ready) fun _ _ _ wired _ returns => wired.step returns

/-- **The sockets are wired to the instances** in every state that a run arrives in: every
listed instance points to a slot of `netfds` that holds its own interface, the sockets of a
slot are bound to the interface of the slot, and every socket that is polled, but for the one
of `vrrpadm`, receives from the interface it is registered with. -/
theorem reachable_wired (hw : HostWorld) (h : Host) (reachable : Reachable hw h) : Wired hw h :=
  reachable.wired

/-- An instance is created on `eth0`, and points to a slot. -/
theorem reachable_wired_one : ∃ h : Host, Reachable .plain h ∧ Wired .plain h ∧
    h.daemon.next instRuntimeList = some 1 ∧ h.vfd 0 = some 0 ∧ h.receivers = [5] := by
  have ran : passes (fun start => passes (fun h => decide (h.daemon.next instRuntimeList = some 1 ∧
      h.vfd 0 = some 0 ∧ h.receivers = [5]))
      (exec (Host.step .plain) [.request (some (.create (.sample 7 100))), .round] start))
      (setup .plain) = true := by decide +kernel
  obtain ⟨start, ready, ran⟩ := exists_of_passes ran
  obtain ⟨h, created, tested⟩ := exists_of_passes ran
  have reachable : Reachable .plain h := ⟨start, _, ready, run_of_exec created⟩
  exact ⟨h, reachable, reachable_wired .plain h reachable, of_decide_eq_true tested⟩

end Host

end VrrpDaemon
