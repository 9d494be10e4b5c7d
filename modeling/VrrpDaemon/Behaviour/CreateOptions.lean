import VrrpDaemon.Behaviour.Options
import VrrpDaemon.Properties.ParseVrip

/-!
# What a create takes from its options

`cmd_create` stores through a pointer that `-v` sets, so it has to come first; and the primary
address is read of the argument of `-j`, so there has to be one. Once the addresses are lists
of addresses, and there are no sub-options, the record has what the options gave last, the
attributes by default, and else what was on the stack (`cmdCreate_eq`).
-/

set_option autoImplicit false

namespace VrrpDaemon

open Machine

variable {pton : InetPton} {pairs : List (UInt8 × List UInt8)}

/-! ## Lists of addresses -/

/-- A text is a comma-separated list of addresses that `parse_vrip` has room for. -/
def IsAddressList (pton : InetPton) (str : List UInt8) : Prop :=
  str.length < vripStrSize ∧ ∀ item ∈ str.splitOn comma, (pton.parse item).isSome

instance (pton : InetPton) (str : List UInt8) : Decidable (IsAddressList pton str) :=
  inferInstanceAs (Decidable (_ ∧ _))

/-- The addresses of a list are stored. -/
structure Stored (pton : InetPton) (str : List UInt8) (s : VripState) : Prop where
  addresses : ∃ addresses block, (str.splitOn comma).map pton.parse = addresses.map some ∧
    s.v.vrIp = some block ∧ s.m.vrIp block s.v.vrIpnum = addresses ∧
      s.v.vrIpnum.toNat = addresses.length ∧ 1 ≤ addresses.length
  family : s.v.vrAf = afInet

/-- **A list of addresses is stored.** -/
theorem parseVrip_stored (str : CString) (list : IsAddressList pton str.val) (s : VripState) :
    ∃ s', s.parseVrip pton true str = .ok (0, s') ∧ Stored pton str.val s' := by
  obtain ⟨short, valid⟩ := list
  have parses := VripState.parses_of_valid short s valid
  have items := VripState.tokens_of_valid valid
  obtain ⟨addresses, parsed⟩ := VripState.exists_addresses valid
  obtain ⟨first, later, split⟩ := List.exists_cons_of_ne_nil (List.splitOn_ne_nil comma str.val)
  rw [split] at parsed
  cases addresses with
  | nil => cases parsed
  | cons address addresses =>
      obtain ⟨here, rest⟩ := List.cons.inj parsed
      have returns := @VripState.parseVrip_eq pton true str short s
      obtain ⟨m', goes, -⟩ := @VripState.vripLoop_valid pton true (first :: later).length later
        addresses rest 1 Nat.one_ne_zero (s.begun (first :: later).length address) s.m.top rfl
      rw [items, split, VripState.vripLoop_first here, goes] at returns
      obtain ⟨addresses, block, listed, ip, row, count, some, family⟩ := parses.accepted _ returns
      exact ⟨_, returns, ⟨addresses, block, listed, ip, row, count, some⟩, family⟩

/-! ## Options -/

/-- The last list of addresses. -/
def lastList (pairs : List (UInt8 × List UInt8)) : Option (List UInt8) :=
  lastWrite (fun opt => if opt.1 = 106 ∨ opt.1 = 65 then some opt.2 else none) pairs

/-- Options that `cmd_create` gets through, once its pointer is set. -/
structure CreateOpts (pton : InetPton) (pairs : List (UInt8 × List UInt8)) : Prop where
  names : NamesFit pairs
  lists : ∀ opt ∈ pairs, opt.1 = 106 ∨ opt.1 = 65 → IsAddressList pton (text opt.2)
  plain : ∀ opt ∈ pairs, opt.1 ≠ 111

theorem CreateOpts.head {opt : UInt8 × List UInt8} (opts : CreateOpts pton (opt :: pairs)) :
    CreateOpts pton [opt] where
  names := List.forall_mem_singleton.mpr (opts.names opt List.mem_cons_self)
  lists := List.forall_mem_singleton.mpr (opts.lists opt List.mem_cons_self)
  plain := List.forall_mem_singleton.mpr (opts.plain opt List.mem_cons_self)

theorem CreateOpts.tail {opt : UInt8 × List UInt8} (opts : CreateOpts pton (opt :: pairs)) :
    CreateOpts pton pairs where
  names other member := opts.names other (List.mem_cons_of_mem _ member)
  lists other member := opts.lists other (List.mem_cons_of_mem _ member)
  plain other member := opts.plain other (List.mem_cons_of_mem _ member)

/-- What the options store, over what there is. -/
structure Takes (pton : InetPton) (pairs : List (UInt8 × List UInt8)) (l l' : CreateLocals) :
    Prop where
  cv : l'.cv = true
  va : l'.va = { l.va with
    pri := ((lastArg 112 pairs).map fun arg => toByte (strtol arg)).getD l.va.pri
    delay := ((lastArg 100 pairs).map fun arg => toInt (strtol arg)).getD l.va.delay }
  inst : ∃ name : Ifname,
    name.bytes = ((lastArg 105 pairs).map text).getD l.inst.viVr.vrIfname.bytes ∧
    l'.inst = { l.inst with viVr := { l.inst.viVr with
      vrId := ((lastArg 118 pairs).map fun arg => toByte (strtol arg)).getD l.inst.viVr.vrId
      vrIfname := name } }
  pip : l'.pip = (lastArg 106 pairs).or l.pip
  kept : lastList pairs = none → l'.vrip = l.vrip
  stored : ∀ arg, lastList pairs = some arg → Stored pton (text arg) l'.vrip

/-- No option. -/
theorem Takes.nil {l : CreateLocals} (cv : l.cv = true) : Takes pton [] l l where
  cv := cv
  va := rfl
  inst := ⟨l.inst.viVr.vrIfname, rfl, rfl⟩
  pip := rfl
  kept _ := rfl
  stored arg none := by cases none

/-- **One option**, and those behind it. -/
theorem Takes.cons {opt : UInt8 × List UInt8} {l l₁ l' : CreateLocals} (here : Takes pton [opt] l l₁)
    (later : Takes pton pairs l₁ l') : Takes pton (opt :: pairs) l l' where
  cv := later.cv
  va := by
    rw [later.va, here.va]
    simp only [lastArg_cons, lastArg_nil, Option.none_or]
    congr 1
    · cases lastArg 112 pairs <;> rfl
    · cases lastArg 100 pairs <;> rfl
  inst := by
    obtain ⟨name, bytes, inst⟩ := here.inst
    obtain ⟨name', bytes', inst'⟩ := later.inst
    refine ⟨name', ?_, ?_⟩
    · rw [bytes', inst, lastArg_cons]
      simp only [bytes, lastArg_cons, lastArg_nil, Option.none_or]
      cases lastArg 105 pairs <;> rfl
    · rw [inst', inst]
      simp only [lastArg_cons, lastArg_nil, Option.none_or]
      cases lastArg 118 pairs <;> rfl
  pip := by
    rw [later.pip, here.pip, lastArg_cons, lastArg_cons, lastArg_nil, Option.none_or,
      Option.or_assoc]
  kept none := by
    rw [lastList, lastWrite_cons, Option.or_eq_none_iff] at none
    rw [later.kept none.1, here.kept (by rw [lastList, lastWrite_singleton, none.2])]
  stored arg last := by
    rw [lastList, lastWrite_cons] at last
    cases behind : lastList pairs with
    | none =>
        rw [lastList] at behind
        rw [behind, Option.none_or] at last
        rw [later.kept behind]
        exact here.stored arg (by rw [lastList, lastWrite_singleton, last])
    | some arg' =>
        rw [lastList] at behind
        rw [behind, Option.some_or] at last
        cases last
        exact later.stored arg behind

/-- The addresses of `-j` and `-A` are stored. -/
theorem takes_list {c : UInt8} {arg : List UInt8} {l l₁ : CreateLocals}
    (letter : c = 106 ∨ c = 65) (cv : l₁.cv = true) (va : l₁.va = l.va) (inst : l₁.inst = l.inst)
    (pip : l₁.pip = (lastArg 106 [(c, arg)]).or l.pip) (stored : Stored pton (text arg) l₁.vrip) :
    Takes pton [(c, arg)] l l₁ where
  cv := cv
  va := by
    rw [va]
    rcases letter with rfl | rfl <;> rfl
  inst := by
    refine ⟨l.inst.viVr.vrIfname, ?_, ?_⟩
    · rcases letter with rfl | rfl <;> rfl
    · rw [inst]
      rcases letter with rfl | rfl <;> rfl
  pip := pip
  kept none := by
    rw [lastList, lastWrite_singleton, if_pos letter] at none
    cases none
  stored arg' last := by
    rw [lastList, lastWrite_singleton, if_pos letter] at last
    cases last
    exact stored

/-- What an option that is no list stores. -/
theorem takes_other {c : UInt8} {arg : List UInt8} {l l₁ : CreateLocals}
    (noList : ¬ (c = 106 ∨ c = 65)) (cv : l₁.cv = true)
    (va : l₁.va = { l.va with
      pri := ((lastArg 112 [(c, arg)]).map fun arg => toByte (strtol arg)).getD l.va.pri
      delay := ((lastArg 100 [(c, arg)]).map fun arg => toInt (strtol arg)).getD l.va.delay })
    (inst : ∃ name : Ifname,
      name.bytes = ((lastArg 105 [(c, arg)]).map text).getD l.inst.viVr.vrIfname.bytes ∧
      l₁.inst = { l.inst with viVr := { l.inst.viVr with
        vrId := ((lastArg 118 [(c, arg)]).map fun arg => toByte (strtol arg)).getD l.inst.viVr.vrId
        vrIfname := name } })
    (pip : l₁.pip = l.pip) (vrip : l₁.vrip = l.vrip) : Takes pton [(c, arg)] l l₁ where
  cv := cv
  va := va
  inst := inst
  pip := by
    rw [pip, lastArg, lastWrite_singleton, if_neg fun same => noList (.inl same)]
    rfl
  kept _ := vrip
  stored arg' last := by
    rw [lastList, lastWrite_singleton, if_neg noList] at last
    cases last

/-- What an option stores that is neither a list nor a name. -/
theorem takes_number {c : UInt8} {arg : List UInt8} {l l₁ : CreateLocals}
    (noList : ¬ (c = 106 ∨ c = 65)) (noName : c ≠ 105) (cv : l₁.cv = true)
    (va : l₁.va = { l.va with
      pri := ((lastArg 112 [(c, arg)]).map fun arg => toByte (strtol arg)).getD l.va.pri
      delay := ((lastArg 100 [(c, arg)]).map fun arg => toInt (strtol arg)).getD l.va.delay })
    (inst : l₁.inst = { l.inst with viVr := { l.inst.viVr with
      vrId := ((lastArg 118 [(c, arg)]).map fun arg =>
        toByte (strtol arg)).getD l.inst.viVr.vrId } })
    (pip : l₁.pip = l.pip) (vrip : l₁.vrip = l.vrip) : Takes pton [(c, arg)] l l₁ := by
  refine takes_other noList cv va ⟨l.inst.viVr.vrIfname, ?_, inst⟩ pip vrip
  rw [lastArg, lastWrite_singleton, if_neg noName]
  rfl

/-- **One option is stored.** -/
theorem optCreate_takes {l : CreateLocals} (cv : l.cv = true) {opt : UInt8 × List UInt8}
    (opts : CreateOpts pton [opt]) :
    ∃ l₁, optCreate pton true l opt = .ok l₁ ∧ Takes pton [opt] l l₁ := by
  obtain ⟨c, arg⟩ := opt
  obtain ⟨names, lists, plain⟩ := opts
  by_cases j : c = 106 ∨ c = 65
  · have list := lists _ List.mem_cons_self j
    obtain ⟨vrip, returns, stored⟩ :=
      parseVrip_stored ⟨text arg, zero_notMem_text _⟩ list l.vrip
    rcases j with rfl | rfl
    · refine ⟨{ l with pip := some arg, vrip }, ?_, takes_list (.inl rfl) cv rfl rfl rfl stored⟩
      simp [optCreate, cv, CreateLocals.parseVrip, returns, Fault.inCmd]
      rfl
    · refine ⟨{ l with vrip }, ?_, takes_list (.inr rfl) cv rfl rfl rfl stored⟩
      simp [optCreate, cv, CreateLocals.parseVrip, returns, Fault.inCmd]
      rfl
  by_cases i : c = 105
  · subst i
    obtain ⟨name, copied⟩ := (copyIfname_returns_iff arg).mpr (names _ List.mem_cons_self rfl)
    refine ⟨{ l with inst := { l.inst with viVr := { l.inst.viVr with vrIfname := name } } }, ?_,
      takes_other j cv rfl ⟨name, copyIfname_bytes copied, rfl⟩ rfl rfl⟩
    simp [optCreate, cv, copied, Fault.inCmd]
    rfl
  by_cases d : c = 100
  · subst d
    exact ⟨_, rfl, takes_number j i cv rfl rfl rfl rfl⟩
  by_cases p : c = 112
  · subst p
    exact ⟨_, rfl, takes_number j i cv rfl rfl rfl rfl⟩
  have va : l.va = { l.va with
      pri := ((lastArg 112 [(c, arg)]).map fun arg => toByte (strtol arg)).getD l.va.pri
      delay := ((lastArg 100 [(c, arg)]).map fun arg => toInt (strtol arg)).getD l.va.delay } := by
    simp only [lastArg, lastWrite_singleton, if_neg p, if_neg d]
    rfl
  by_cases v : c = 118
  · subst v
    exact ⟨_, rfl, takes_number j i rfl va rfl rfl rfl⟩
  -- any other letter stores nothing
  refine ⟨l, ?_, takes_number j i cv va ?_ rfl rfl⟩
  · have o := plain _ List.mem_cons_self
    have notA : c ≠ 65 := fun same => j (.inr same)
    have notJ : c ≠ 106 := fun same => j (.inl same)
    simp only at o
    simp [optCreate, i, d, p, v, o, notA, notJ]
  · simp only [lastArg, lastWrite_singleton, if_neg v]
    rfl

/-- **The options are stored.** -/
theorem foldlM_optCreate {l : CreateLocals} (cv : l.cv = true) (opts : CreateOpts pton pairs) :
    ∃ l', pairs.foldlM (optCreate pton true) l = .ok l' ∧ Takes pton pairs l l' := by
  induction pairs generalizing l with
  | nil => exact ⟨l, rfl, .nil cv⟩
  | cons opt pairs ih =>
      obtain ⟨l₁, returns, here⟩ := optCreate_takes cv opts.head
      obtain ⟨l', goes, later⟩ := ih here.cv opts.tail
      refine ⟨l', ?_, here.cons later⟩
      rw [List.foldlM_cons, returns]
      exact goes

/-! ## The record -/

/-- The record that some options describe, with the rest as it was. -/
structure Records (pton : InetPton) (pairs : List (UInt8 × List UInt8)) (inst vi : VrrpInst) :
    Prop where
  viVa : vi.viVa =
    ⟨((lastArg 112 pairs).map fun arg => toByte (strtol arg)).getD 100,
      ((lastArg 100 pairs).map fun arg => toInt (strtol arg)).getD 1, 1, 1⟩
  vrId : vi.viVr.vrId =
    ((lastArg 118 pairs).map fun arg => toByte (strtol arg)).getD inst.viVr.vrId
  vrAf : vi.viVr.vrAf = afInet
  in4 : vi.viVr.in4 =
    ((lastArg 106 pairs).bind fun arg => pton.parse (text arg)).getD inst.viVr.in4
  vrIp : ∃ arg, lastList pairs = some arg ∧
    ((text arg).splitOn comma).map pton.parse = vi.viVr.vrIp.map some
  vrIpnum : vi.viVr.vrIp.length = vi.viVr.vrIpnum.toNat
  vrIfname : vi.viVr.vrIfname.bytes =
    ((lastArg 105 pairs).map text).getD inst.viVr.vrIfname.bytes
  viState : vi.viState = VrrpState.init.code
  viActive : vi.viActive = inst.viActive

/-- There is one such record. -/
theorem Records.unique {inst vi vi' : VrrpInst} (one : Records pton pairs inst vi)
    (other : Records pton pairs inst vi') : vi = vi' := by
  obtain ⟨arg, last, listed⟩ := one.vrIp
  obtain ⟨arg', last', listed'⟩ := other.vrIp
  cases last.symm.trans last'
  have vrIp : vi.viVr.vrIp = vi'.viVr.vrIp :=
    List.map_injective_iff.mpr (Option.some_injective _) (listed.symm.trans listed')
  have vrIpnum : vi.viVr.vrIpnum = vi'.viVr.vrIpnum := by
    refine UInt8.toNat_inj.mp ?_
    rw [← one.vrIpnum, ← other.vrIpnum, vrIp]
  have vrIfname : vi.viVr.vrIfname = vi'.viVr.vrIfname :=
    Ifname.ext (one.vrIfname.trans other.vrIfname.symm)
  have viVa := one.viVa.trans other.viVa.symm
  have vrId := one.vrId.trans other.vrId.symm
  have vrAf := one.vrAf.trans other.vrAf.symm
  have in4 := one.in4.trans other.in4.symm
  have viState := one.viState.trans other.viState.symm
  have viActive := one.viActive.trans other.viActive.symm
  obtain ⟨va, ⟨id, af, pip, num, ip, ifname⟩, state, active⟩ := vi
  obtain ⟨va', ⟨id', af', pip', num', ip', ifname'⟩, state', active'⟩ := vi'
  simp only at viVa vrId vrAf in4 vrIpnum vrIp vrIfname viState viActive
  simp only [viVa, vrId, vrAf, in4, vrIpnum, vrIp, vrIfname, viState, viActive]

/-- The options of a create that goes through: `-v` comes first, and there is a `-j`. -/
structure CreatesFrom (pton : InetPton) (pairs : List (UInt8 × List UInt8)) : Prop where
  opts : CreateOpts pton pairs
  first : ∃ arg rest, pairs = (118, arg) :: rest
  primary : lastArg 106 pairs ≠ none

/-- A `-j` gives a list. -/
theorem exists_lastList (primary : lastArg 106 pairs ≠ none) : ∃ arg, lastList pairs = some arg := by
  refine Option.ne_none_iff_exists'.mp fun nothing => primary ?_
  rw [lastList, lastWrite_eq_none] at nothing
  refine lastWrite_eq_none.mpr fun opt member => if_neg fun letter => ?_
  have none := nothing opt member
  rw [if_pos (.inl letter)] at none
  cases none

/-- The addresses of a list that is stored. -/
theorem addresses_stored {str : List UInt8} {s : VripState} (stored : Stored pton str s) :
    ∃ addresses, s.addresses = .ok addresses ∧
      (str.splitOn comma).map pton.parse = addresses.map some ∧
        addresses.length = s.v.vrIpnum.toNat := by
  obtain ⟨addresses, block, listed, designated, row, count, some⟩ := stored.addresses
  refine ⟨addresses, ?_, listed, count.symm⟩
  have positive : s.v.vrIpnum ≠ 0 := fun zero => by
    rw [zero] at count
    have none : (0 : UInt8).toNat = 0 := rfl
    omega
  rw [VripState.addresses, if_neg positive, designated, deref_some, ok_bind, row]
  rfl

/-- The first option sets the pointer. -/
theorem start_takes (inst : VrrpInst) (vrip : VripState) (arg : List UInt8) :
    ∃ l, optCreate pton true (.start inst vrip) (118, arg) = .ok l ∧
      Takes pton [(118, arg)] (.start inst vrip) l := by
  refine ⟨_, rfl, rfl, rfl, ⟨inst.viVr.vrIfname, rfl, rfl⟩, rfl, fun _ => rfl, fun arg' last => ?_⟩
  cases last

/-- **What a create asks for.** -/
theorem cmdCreate_eq (inst : VrrpInst) (vrip : VripState) {argv : List (List UInt8)}
    (creates : CreatesFrom pton (optsOf createOptions argv)) :
    ∃ vi, cmdCreate pton true inst vrip argv = .ok ⟨.createInst, vi⟩ ∧
      Records pton (optsOf createOptions argv) inst vi := by
  obtain ⟨opts, ⟨arg, rest, pairs⟩, primary⟩ := creates
  have later : CreateOpts pton rest := by
    rw [pairs] at opts
    exact opts.tail
  obtain ⟨l₁, first, here⟩ : ∃ l, optCreate pton true (.start inst vrip) (118, arg) = .ok l ∧
      Takes pton [(118, arg)] (.start inst vrip) l := start_takes inst vrip arg
  obtain ⟨l, goes, behind⟩ := foldlM_optCreate here.cv later
  have takes : Takes pton (optsOf createOptions argv) (.start inst vrip) l := by
    rw [pairs]
    exact here.cons behind
  have folded : (optsOf createOptions argv).foldlM (optCreate pton true) (.start inst vrip) =
      .ok l := by
    rw [pairs, List.foldlM_cons, first]
    exact goes
  obtain ⟨j, given⟩ := Option.ne_none_iff_exists'.mp primary
  obtain ⟨list, last⟩ := exists_lastList primary
  have stored := takes.stored list last
  obtain ⟨addresses, read, listed, count⟩ := addresses_stored stored
  obtain ⟨name, bytes, record⟩ := takes.inst
  have pip : l.pip = some j := by
    rw [takes.pip, given]
    rfl
  have primary : handleIj pton l.pip l.vrip.v.vrAf l.inst.viVr.in4 =
      .ok ((pton.parse (text j)).getD l.inst.viVr.in4) := by
    rw [handleIj, if_pos stored.family, pip]
    rfl
  refine ⟨{ l.inst with
    viVa := l.va
    viVr := { l.inst.viVr with
      in4 := (pton.parse (text j)).getD l.inst.viVr.in4
      vrAf := l.vrip.v.vrAf
      vrIpnum := l.vrip.v.vrIpnum
      vrIp := addresses } }, ?_, ?_⟩
  · simp only [cmdCreate, folded, ok_bind, primary, CreateLocals.issue, read, Fault.inCmd,
      Except.mapError]
    rfl
  · constructor
    · exact takes.va
    · rw [record]
      rfl
    · exact stored.family
    · rw [given, record]
      rfl
    · exact ⟨list, last, listed⟩
    · exact count
    · rw [record]
      exact bytes
    · rw [record]
      rfl
    · rw [record]
      rfl

end VrrpDaemon
