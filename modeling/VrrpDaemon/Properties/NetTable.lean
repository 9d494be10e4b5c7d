import Mathlib.Data.List.Induction
import Mathlib.Data.List.Nodup
import VrrpDaemon.Model.NetTable
import VrrpDaemon.Model.System

/-!
# How long the sockets of an interface stay

As long as no interface is set up twice and a slot is free, each call uses the first free
slot, and the others stay as they were (`NetTable.Filled`). An interface that is set up
again gets new sockets, and with all slots in use the call writes behind the table. So the
slots are stable exactly when neither happens (`NetTable.setups_stable_iff`).
-/

set_option autoImplicit false

namespace VrrpDaemon

open Machine

namespace NetTable

/-- A call, after some others. -/
def outcome (w : NetWorld) (past : List CString) (intf : CString) :
    Result ((Int × Option Nat) × NetTable) := do
  let t ← initial.setups w past
  t.vrrpdSetupNetfdVr w none intf

/-- The slots are stable over a sequence of calls: every call writes inside the table; with
all slots taken by other interfaces it returns -1 and changes nothing; an interface is in
one slot at most; and a call for an interface that was set up before points to the same
slot, which is as it was. -/
structure Stable (w : NetWorld) (intfs : List CString) : Prop where
  inside : ∀ past intf later, intfs = past ++ intf :: later → ∃ o, outcome w past intf = .ok o
  full : ∀ past intf later t, intfs = past ++ intf :: later → initial.setups w past = .ok t →
    (∀ slot ∈ t.netfds, slot.intf ≠ [] ∧ slot.intf ≠ intf.val) →
      outcome w past intf = .ok ((-1, none), t)
  once : ∀ past later t, intfs = past ++ later → initial.setups w past = .ok t →
    ∀ (i j : Nat) (a b : VrrpIntfFd), t.netfds[i]? = some a → t.netfds[j]? = some b → a.intf ≠ [] →
      a.intf = b.intf → i = j
  same : ∀ past intf mid later o o', intfs = past ++ intf :: (mid ++ intf :: later) →
    outcome w past intf = .ok o → outcome w (past ++ intf :: mid) intf = .ok o' →
      ∃ i, o.1.2 = some i ∧ o'.1.2 = some i ∧ o'.2.netfds[i]? = o.2.netfds[i]?

/-- The names of the interfaces that keep a slot. -/
def names (intfs : List CString) : List (List UInt8) :=
  (intfs.map Subtype.val).filter (· ≠ [])

/-- No interface is set up twice, and a slot is free at each call. -/
structure Spare (intfs : List CString) : Prop where
  distinct : intfs.Nodup
  free : (names intfs.dropLast).length < netfdSlots

/-! ## One call -/

variable {w : NetWorld} {intf : CString}

/-- Slots of other interfaces are passed. -/
theorem scanNetfds_append {slots rest : List VrrpIntfFd}
    (others : ∀ slot ∈ slots, slot.intf ≠ [] ∧ slot.intf ≠ intf.val) (i n1 : Nat) :
    scanNetfds intf (slots ++ rest) i n1 = scanNetfds intf rest (i + slots.length) n1 := by
  induction slots generalizing i with
  | nil => rfl
  | cons slot slots ih =>
      obtain ⟨used, other⟩ := others slot List.mem_cons_self
      have later := ih (fun slot member => others slot (List.mem_cons_of_mem _ member)) (i + 1)
      rw [List.cons_append, scanNetfds, if_neg used, if_neg other, later, List.length_cons,
        Nat.add_assoc, Nat.add_comm 1]

/-- Behind the first unused slot nothing is looked for. -/
theorem scanNetfds_blank {rest : List VrrpIntfFd} (blank : ∀ slot ∈ rest, slot.intf = [])
    {i n1 : Nat} (before : n1 ≤ i) : scanNetfds intf rest i n1 = (n1, false) := by
  induction rest generalizing i with
  | nil => rfl
  | cons slot rest ih =>
      have later : scanNetfds intf rest (i + 1) n1 = (n1, false) :=
        ih (fun slot member => blank slot (List.mem_cons_of_mem _ member)) (Nat.le_succ_of_le before)
      rw [scanNetfds, if_pos (blank slot List.mem_cons_self), if_neg (Nat.not_lt.mpr before), later]

/-- **The first unused slot** is where an interface goes that has none. -/
theorem scanNetfds_free {slots rest : List VrrpIntfFd}
    (others : ∀ slot ∈ slots, slot.intf ≠ [] ∧ slot.intf ≠ intf.val)
    (blank : ∀ slot ∈ rest, slot.intf = []) (size : (slots ++ rest).length = netfdSlots) :
    scanNetfds intf (slots ++ rest) 0 netfdSlots = (slots.length, false) := by
  rw [scanNetfds_append others, Nat.zero_add]
  rw [List.length_append] at size
  cases rest with
  | nil =>
      rw [List.length_nil, Nat.add_zero] at size
      rw [scanNetfds, size]
  | cons slot rest =>
      have room : slots.length < netfdSlots := by
        rw [← size, List.length_cons]
        omega
      rw [scanNetfds, if_pos (blank slot List.mem_cons_self), if_pos room]
      exact scanNetfds_blank (fun slot member => blank slot (List.mem_cons_of_mem _ member))
        (Nat.le_succ _)

/-- The table after some calls: the interfaces with a name in the first slots, in the order
of the calls, and behind them slots that are not in use. -/
structure Filled (intfs : List CString) (t : NetTable) : Prop where
  split : ∃ slots rest, t.netfds = slots ++ rest ∧ slots.map VrrpIntfFd.intf = names intfs ∧
    (∀ slot ∈ rest, slot.intf = []) ∧ (slots ++ rest).length = netfdSlots
  opened : t.opened = 2 * intfs.length

/-- The slot that a call writes. -/
def slotOf (w : NetWorld) (intf : CString) (t : NetTable) : VrrpIntfFd :=
  ⟨intf.val, w.createSock t.opened, w.createSock (t.opened + 1)⟩

theorem initNetfd_inside {t : NetTable} {i : Nat} (short : intf.val.length < lifnamsiz)
    (inside : i < t.netfds.length) :
    t.initNetfd w i intf = .ok ⟨t.netfds.set i (slotOf w intf t), t.opened + 2⟩ := by
  rw [initNetfd, if_pos short, slotOf]
  simp only [storeAt_of_lt inside, ok_bind, pure_eq_ok]

theorem initNetfd_outside {t : NetTable} {i : Nat} (outside : t.netfds.length ≤ i) :
    t.initNetfd w i intf = .error .overflow := by
  rw [initNetfd]
  split
  · simp only [storeAt_of_le outside, error_bind]
  · rfl

theorem initNetfd_returns {t t' : NetTable} {i : Nat} (returns : t.initNetfd w i intf = .ok t') :
    t'.opened = t.opened + 2 ∧ t'.netfds[i]? = some (slotOf w intf t) := by
  rw [initNetfd] at returns
  split at returns
  · obtain ⟨netfds, stored, rest⟩ := bind_eq_ok.mp returns
    cases rest
    rw [storeAt] at stored
    split at stored
    · rename_i inside
      cases stored
      exact ⟨rfl, List.getElem?_set_self inside⟩
    · cases stored
  · cases returns

/-- **What a call does that returns**: the slot it points to, if to any, is the one it wrote. -/
theorem setup_returns {t : NetTable} {o : (Int × Option Nat) × NetTable}
    (returns : t.vrrpdSetupNetfdVr w none intf = .ok o) :
    o.2.opened = t.opened + 2 ∧
      ∀ i, o.1.2 = some i → o.2.netfds[i]? = some (slotOf w intf t) := by
  obtain ⟨t', initialised, rest⟩ := bind_eq_ok.mp returns
  obtain ⟨opened, written⟩ := initNetfd_returns initialised
  split at rest
  · cases rest
    refine ⟨opened, fun i points => ?_⟩
    split at points
    · cases points
      exact written
    · cases points
  · cases rest
    refine ⟨opened, fun i points => ?_⟩
    cases points
    exact written

theorem names_append (intfs : List CString) (intf : CString) :
    names (intfs ++ [intf]) = names intfs ++ if intf.val = [] then [] else [intf.val] := by
  by_cases empty : intf.val = [] <;> simp [names, empty]

/-- The slots in use are those of other interfaces. -/
theorem others_of_names {slots : List VrrpIntfFd} {intfs : List CString}
    (named : slots.map VrrpIntfFd.intf = names intfs) (new : intf ∉ intfs) :
    ∀ slot ∈ slots, slot.intf ≠ [] ∧ slot.intf ≠ intf.val := by
  intro slot member
  have listed : slot.intf ∈ names intfs := named ▸ List.mem_map_of_mem member
  obtain ⟨given, used⟩ := List.mem_filter.mp listed
  refine ⟨by simpa using used, fun same => new ?_⟩
  obtain ⟨d, among, equal⟩ := List.mem_map.mp given
  rwa [← Subtype.ext (equal.trans same)]

/-- The table once the first slot that is not in use was written. -/
theorem Filled.append {intfs : List CString} {t : NetTable} {slots behind : List VrrpIntfFd}
    {first : VrrpIntfFd} (named : slots.map VrrpIntfFd.intf = names intfs)
    (blank : ∀ slot ∈ behind, slot.intf = [])
    (size : (slots ++ first :: behind).length = netfdSlots) (opened : t.opened = 2 * intfs.length) :
    Filled (intfs ++ [intf]) ⟨slots ++ slotOf w intf t :: behind, t.opened + 2⟩ where
  split := by
    by_cases empty : intf.val = []
    · -- the slot is written, and still looks unused
      refine ⟨slots, slotOf w intf t :: behind, rfl, ?_, ?_, by simpa using size⟩
      · rw [names_append, if_pos empty, List.append_nil, named]
      · rw [List.forall_mem_cons]
        exact ⟨empty, blank⟩
    · refine ⟨slots ++ [slotOf w intf t], behind, by simp, ?_, blank, by simpa using size⟩
      rw [names_append, if_neg empty, List.map_append, named]
      rfl
  opened := by
    simp only [opened, List.length_append, List.length_singleton]
    omega

/-- **A call for a new interface**, with a slot free: the first such slot is its own. -/
theorem Filled.setup {intfs : List CString} {t : NetTable} (filled : Filled intfs t)
    (new : intf ∉ intfs) (short : intf.val.length < lifnamsiz)
    (free : (names intfs).length < netfdSlots) :
    ∃ o, t.vrrpdSetupNetfdVr w none intf = .ok o ∧ Filled (intfs ++ [intf]) o.2 := by
  obtain ⟨⟨slots, rest, table, named, blank, size⟩, opened⟩ := filled
  have used : slots.length = (names intfs).length := by rw [← named, List.length_map]
  obtain ⟨first, behind, rfl⟩ : ∃ first behind, rest = first :: behind := by
    refine List.exists_cons_of_ne_nil fun nothing => ?_
    rw [nothing, List.append_nil] at size
    omega
  have scanned := scanNetfds_free (others_of_names named new) blank size
  have written : t.initNetfd w slots.length intf =
      .ok ⟨slots ++ slotOf w intf t :: behind, t.opened + 2⟩ := by
    have inside : slots.length < t.netfds.length := by
      rw [table, List.length_append, List.length_cons]
      omega
    rw [initNetfd_inside short inside, table, List.set_append_right _ _ (Nat.le_refl _),
      Nat.sub_self, List.set_cons_zero]
  have after : Filled (intfs ++ [intf]) ⟨slots ++ slotOf w intf t :: behind, t.opened + 2⟩ :=
    .append named (fun slot member => blank slot (List.mem_cons_of_mem _ member)) size opened
  rw [vrrpdSetupNetfdVr, table, scanned]
  simp only [Bool.false_eq_true, reduceIte]
  rw [written, ok_bind]
  split
  · exact ⟨_, rfl, after⟩
  · exact ⟨_, rfl, after⟩

/-- **A call for a new interface with no slot free** writes behind the table. -/
theorem Filled.setup_full {intfs : List CString} {t : NetTable} (filled : Filled intfs t)
    (new : intf ∉ intfs) (full : netfdSlots ≤ (names intfs).length) :
    t.vrrpdSetupNetfdVr w none intf = .error .overflow := by
  obtain ⟨⟨slots, rest, table, named, blank, size⟩, -⟩ := filled
  have used : slots.length = (names intfs).length := by rw [← named, List.length_map]
  have all : slots.length = netfdSlots := by
    rw [List.length_append] at size
    omega
  have length : t.netfds.length = netfdSlots := by rw [table, size]
  rw [vrrpdSetupNetfdVr, table, scanNetfds_free (others_of_names named new) blank size, all]
  simp only [Bool.false_eq_true, reduceIte]
  rw [initNetfd_outside (Nat.le_of_eq length), error_bind]

/-! ## Sequences of calls -/

theorem setups_append (w : NetWorld) (intfs : List CString) (intf : CString) (t : NetTable) :
    t.setups w (intfs ++ [intf]) = (do
      let t ← t.setups w intfs
      let (_, t) ← t.vrrpdSetupNetfdVr w none intf
      return t) := by
  induction intfs generalizing t with
  | nil => rfl
  | cons d intfs ih =>
      rw [List.cons_append, setups, setups]
      cases t.vrrpdSetupNetfdVr w none d with
      | error fault => rfl
      | ok o => exact ih o.2

theorem setups_opened {intfs : List CString} {t : NetTable}
    (returns : initial.setups w intfs = .ok t) : t.opened = 2 * intfs.length := by
  induction intfs using List.reverseRecOn generalizing t with
  | nil =>
      cases returns
      rfl
  | append_singleton intfs intf ih =>
      rw [setups_append] at returns
      obtain ⟨t', before, rest⟩ := bind_eq_ok.mp returns
      obtain ⟨o, called, last⟩ := bind_eq_ok.mp rest
      cases last
      have opened := ih before
      have more := (setup_returns called).1
      rw [List.length_append, List.length_singleton]
      omega

theorem Spare.of_append {intfs later : List CString} (spare : Spare (intfs ++ later)) :
    Spare intfs where
  distinct := spare.distinct.sublist (List.sublist_append_left _ _)
  free := by
    have less : (names intfs.dropLast).Sublist (names (intfs ++ later).dropLast) := by
      refine (List.Sublist.map _ ?_).filter _
      cases later with
      | nil => rw [List.append_nil]
      | cons a later =>
          rw [List.dropLast_append_of_ne_nil (List.cons_ne_nil _ _)]
          exact (List.dropLast_sublist _).trans (List.sublist_append_left _ _)
    exact Nat.lt_of_le_of_lt less.length_le spare.free

theorem Spare.new {intfs : List CString} (spare : Spare (intfs ++ [intf])) :
    intf ∉ intfs ∧ (names intfs).length < netfdSlots := by
  have free := spare.free
  rw [List.dropLast_concat] at free
  refine ⟨fun member => ?_, free⟩
  exact (List.nodup_append.mp spare.distinct).2.2 intf member intf (by simp) rfl

/-- **The table after some calls**, as long as each found a free slot for a new interface. -/
theorem setups_filled {intfs : List CString} (spare : Spare intfs)
    (short : ∀ intf ∈ intfs, intf.val.length < lifnamsiz) :
    ∃ t, initial.setups w intfs = .ok t ∧ Filled intfs t := by
  induction intfs using List.reverseRecOn with
  | nil =>
      refine ⟨initial, rfl, ⟨[], initial.netfds, rfl, rfl, ?_, by decide⟩, rfl⟩
      intro slot member
      rw [List.eq_of_mem_replicate member]
      rfl
  | append_singleton intfs intf ih =>
      obtain ⟨new, free⟩ := spare.new
      obtain ⟨t, before, filled⟩ := ih spare.of_append fun d member =>
        short d (List.mem_append_left _ member)
      obtain ⟨o, called, after⟩ := filled.setup (w := w) new (short intf (by simp)) free
      exact ⟨o.2, by rw [setups_append, before, ok_bind, called]; rfl, after⟩

/-- An interface that is set up again gets new sockets. -/
theorem Stable.distinct_of_fresh {intfs : List CString} (stable : Stable w (intfs ++ [intf]))
    (fresh : Function.Injective w.createSock) : intf ∉ intfs := by
  intro member
  obtain ⟨past, mid, rfl⟩ := List.append_of_mem member
  obtain ⟨o, first⟩ := stable.inside past intf (mid ++ [intf]) (by simp)
  obtain ⟨o', again⟩ := stable.inside (past ++ intf :: mid) intf [] rfl
  obtain ⟨i, points, points', kept⟩ := stable.same past intf mid [] o o' (by simp) first again
  obtain ⟨t, before, called⟩ := bind_eq_ok.mp first
  obtain ⟨t', before', called'⟩ := bind_eq_ok.mp again
  rw [(setup_returns called).2 i points, (setup_returns called').2 i points'] at kept
  have socket := congrArg VrrpIntfFd.sSend (Option.some.inj kept)
  have count := fresh socket
  rw [setups_opened before, setups_opened before', List.length_append, List.length_cons] at count
  omega

theorem Stable.of_append {intfs : List CString} (stable : Stable w (intfs ++ [intf])) :
    Stable w intfs where
  inside past d later split := stable.inside past d (later ++ [intf]) (by simp [split])
  full past d later t split := stable.full past d (later ++ [intf]) t (by simp [split])
  once past later t split := stable.once past (later ++ [intf]) t (by simp [split])
  same past d mid later o o' split := stable.same past d mid (later ++ [intf]) o o' (by simp [split])

theorem Stable.spare {intfs : List CString} (stable : Stable w intfs)
    (fresh : Function.Injective w.createSock)
    (short : ∀ intf ∈ intfs, intf.val.length < lifnamsiz) : Spare intfs := by
  induction intfs using List.reverseRecOn with
  | nil => exact ⟨List.nodup_nil, by decide⟩
  | append_singleton intfs intf ih =>
      have new := stable.distinct_of_fresh fresh
      have spare := ih stable.of_append fun d member => short d (List.mem_append_left _ member)
      obtain ⟨t, before, filled⟩ := setups_filled (w := w) spare fun d member =>
        short d (List.mem_append_left _ member)
      refine ⟨?_, ?_⟩
      · rw [List.nodup_append]
        refine ⟨spare.distinct, by simp, ?_⟩
        rintro d member e last rfl
        exact new (List.mem_singleton.mp last ▸ member)
      · rw [List.dropLast_concat]
        by_contra taken
        obtain ⟨o, called⟩ := stable.inside intfs intf [] rfl
        rw [outcome, before, ok_bind, filled.setup_full new (Nat.not_lt.mp taken)] at called
        cases called

theorem Filled.once {intfs : List CString} {t : NetTable} (filled : Filled intfs t)
    (distinct : intfs.Nodup) {i j : Nat} {a b : VrrpIntfFd} (first : t.netfds[i]? = some a)
    (second : t.netfds[j]? = some b) (used : a.intf ≠ []) (same : a.intf = b.intf) : i = j := by
  obtain ⟨⟨slots, rest, table, named, blank, -⟩, -⟩ := filled
  have front : ∀ {k : Nat} {slot : VrrpIntfFd}, t.netfds[k]? = some slot → slot.intf ≠ [] →
      k < slots.length ∧ (names intfs)[k]? = some slot.intf := by
    intro k slot held used
    have near : k < slots.length := by
      by_contra beyond
      rw [table, List.getElem?_append_right (Nat.not_lt.mp beyond)] at held
      exact used (blank slot (List.mem_of_getElem? held))
    rw [table, List.getElem?_append_left near] at held
    exact ⟨near, by rw [← named, List.getElem?_map, held, Option.map_some]⟩
  obtain ⟨near, here⟩ := front first used
  obtain ⟨-, there⟩ := front second (same ▸ used)
  have nodup : (names intfs).Nodup :=
    (distinct.map Subtype.val_injective).filter _
  refine (List.getElem?_inj ?_ nodup).mp (here.trans (same ▸ there.symm))
  rwa [← named, List.length_map]

/-- A slot is free before each call. -/
theorem Filled.free {intfs : List CString} {t : NetTable} (filled : Filled intfs t)
    (free : (names intfs).length < netfdSlots) : ∃ slot ∈ t.netfds, slot.intf = [] := by
  obtain ⟨⟨slots, rest, table, named, blank, size⟩, -⟩ := filled
  have used : slots.length = (names intfs).length := by rw [← named, List.length_map]
  cases rest with
  | nil =>
      rw [List.append_nil] at size
      omega
  | cons slot rest =>
      exact ⟨slot, by simp [table], blank slot List.mem_cons_self⟩

theorem Spare.stable {intfs : List CString} (spare : Spare intfs)
    (short : ∀ intf ∈ intfs, intf.val.length < lifnamsiz) : Stable w intfs := by
  have upTo : ∀ {past intf later}, intfs = past ++ intf :: later → Spare (past ++ [intf]) := by
    rintro past intf later rfl
    have whole : Spare (past ++ [intf] ++ later) := by simpa using spare
    exact whole.of_append
  have reached : ∀ {past later}, intfs = past ++ later →
      ∃ t, initial.setups w past = .ok t ∧ Filled past t := by
    rintro past later rfl
    exact setups_filled spare.of_append fun d member => short d (List.mem_append_left _ member)
  refine ⟨?_, ?_, ?_, ?_⟩
  · intro past intf later split
    obtain ⟨new, free⟩ := (upTo split).new
    obtain ⟨t, before, filled⟩ := reached split
    have fits : intf.val.length < lifnamsiz := short intf (by simp [split])
    obtain ⟨o, called, -⟩ := filled.setup (w := w) new fits free
    exact ⟨o, by rw [outcome, before, ok_bind, called]⟩
  · intro past intf later t split before taken
    obtain ⟨-, free⟩ := (upTo split).new
    obtain ⟨t', before', filled⟩ := reached split
    rw [before] at before'
    cases before'
    obtain ⟨slot, member, unused⟩ := filled.free free
    exact absurd unused (taken slot member).1
  · intro past later t split before i j a b first second used same
    obtain ⟨t', before', filled⟩ := reached split
    rw [before] at before'
    cases before'
    have distinct : past.Nodup := by
      rw [split] at spare
      exact spare.of_append.distinct
    exact filled.once distinct first second used same
  · intro past intf mid later o o' split
    have twice : (intf :: (mid ++ intf :: later)).Nodup :=
      (List.nodup_append.mp (split ▸ spare.distinct)).2.1
    exact absurd (by simp) (List.nodup_cons.mp twice).1

/-- **When the slots are stable.** For every sequence of calls with names of fewer than 32
bytes, where the sockets are fresh descriptors, whatever `init_netfd` is taken to return:
the slots are stable if and only if no interface is set up twice and each call finds a slot
that is not in use. -/
theorem setups_stable_iff (w : NetWorld) (fresh : Function.Injective w.createSock)
    (intfs : List CString) (short : ∀ intf ∈ intfs, intf.val.length < lifnamsiz) :
    Stable w intfs ↔ Spare intfs :=
  ⟨fun stable => stable.spare fresh short, fun spare => spare.stable short⟩

/-- Descriptors from 3 on. -/
def ascending : NetWorld where
  createSock k := 3 + k
  undefined _ := 0

theorem ascending_fresh : Function.Injective ascending.createSock := by
  intro i j same
  simp only [ascending] at same
  omega

/-- `eth0`. -/
def eth0 : CString := ⟨Ifname.eth0.bytes, Ifname.eth0.noNul⟩

theorem zero_notMem_eth1 : (0 : UInt8) ∉ ([101, 116, 104, 49] : List UInt8) := by decide

/-- `eth1`. -/
def eth1 : CString := ⟨[101, 116, 104, 49], zero_notMem_eth1⟩

/-- Two interfaces. -/
theorem setups_stable_two : Stable ascending [eth0, eth1] :=
  (setups_stable_iff ascending ascending_fresh [eth0, eth1] (by decide)).mpr
    ⟨by decide, by decide⟩

/-- **A second instance on an interface** gives it new sockets: the slot of `eth0` loses the
descriptors that the first instance uses and that are polled. -/
theorem setups_replace : (∀ intf ∈ [eth0, eth0], intf.val.length < lifnamsiz) ∧
    ¬ Stable ascending [eth0, eth0] := by
  refine ⟨by decide, fun stable => ?_⟩
  exact absurd (stable.spare ascending_fresh (by decide)).distinct (by decide)

end NetTable

end VrrpDaemon
