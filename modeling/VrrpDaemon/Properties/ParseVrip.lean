import VrrpDaemon.Model.Notation
import VrrpDaemon.Model.ParseVrip

/-!
# Which lists of addresses are parsed right

The loop over the commas and the loop over the tokens agree as long as no item is empty. An
empty item is counted and not stored, and an item that is no address is found out once the
record has changed, unless it is the first one. So `parse_vrip` does what it should exactly
for the arguments of `VripState.Proper` (`VripState.parseVrip_iff`).
-/

set_option autoImplicit false

namespace VrrpDaemon

open Machine

namespace VripState

/-- What `parse_vrip` should do: it accepts a comma-separated list of addresses, and then the
record has the addresses in order, their number and the family; else it leaves the record
as it was. -/
structure Parses (pton : InetPton) (str : List UInt8) (s : VripState)
    (result : Result (Int × VripState)) : Prop where
  accepted : ∀ s', result = .ok (0, s') → ∃ addresses block,
    (str.splitOn comma).map pton.parse = addresses.map some ∧ s'.v.vrIp = some block ∧
      s'.m.vrIp block s'.v.vrIpnum = addresses ∧ s'.v.vrIpnum.toNat = addresses.length ∧
        1 ≤ addresses.length ∧ s'.v.vrAf = afInet
  rejected : ∀ s', result = .ok (-1, s') → s'.v = s.v

/-- The items that are not empty, which are the tokens of `strtok`. -/
def tokens (str : List UInt8) : List (List UInt8) := (str.splitOn comma).filter (· ≠ [])

/-- The arguments that `parse_vrip` parses right: there is a token, and either the first one
is no address, or no block is to be had for it, or every item is an address, or the record
has just what is stored for the first token already. -/
def Proper (pton : InetPton) (got : Bool) (str : List UInt8) (s : VripState) : Prop :=
  ∃ first later, tokens str = first :: later ∧
    (pton.parse first = none ∨ got = false ∨
      (∀ item ∈ str.splitOn comma, (pton.parse item).isSome) ∨
        ((∃ token ∈ later, pton.parse token = none) ∧ s.v.vrAf = afInet ∧
          s.v.vrIp = some s.m.top))

variable {pton : InetPton} {got : Bool} {num : Nat}

/-! ## The tokens behind the first one -/

/-- One more token that is an address. -/
theorem vripLoop_cons {p : List UInt8} {address : UInt32} (valid : pton.parse p = some address)
    {i : Nat} (begun : i ≠ 0) {s : VripState} {block : Nat} (allocated : s.v.vrIp = some block)
    (later : List (List UInt8)) :
    s.vripLoop pton got num (p :: later) i =
      VripState.vripLoop pton got num later (i + 1)
        { s with m := { s.m with bytes := Cell.word.store (block + i * 4) address s.m.bytes } } := by
  rw [vripLoop]
  simp only [if_neg begun, valid, allocated, deref_some, ok_bind]

/-- A token that is no address ends the loop. -/
theorem vripLoop_stop {p : List UInt8} (invalid : pton.parse p = none) {i : Nat} (begun : i ≠ 0)
    (s : VripState) (later : List (List UInt8)) :
    s.vripLoop pton got num (p :: later) i = .ok (-1, s) := by
  rw [vripLoop]
  simp only [if_neg begun, invalid]

/-- **Tokens that are addresses** are stored one behind the other. -/
theorem vripLoop_valid {later : List (List UInt8)} {addresses : List UInt32}
    (valid : later.map pton.parse = addresses.map some) {i : Nat} (begun : i ≠ 0) {s : VripState}
    {block : Nat} (allocated : s.v.vrIp = some block) :
    ∃ m', s.vripLoop pton got num later i =
        .ok (0, ⟨{ s.v with vrIpnum := UInt8.ofNat num }, m'⟩) ∧
      Cell.word.loads m'.bytes block (i + addresses.length) =
        Cell.word.loads s.m.bytes block i ++ addresses := by
  induction later generalizing i s addresses with
  | nil =>
      obtain rfl : addresses = [] := List.map_eq_nil_iff.mp valid.symm
      exact ⟨s.m, rfl, (List.append_nil _).symm⟩
  | cons p later ih =>
      cases addresses with
      | nil => cases valid
      | cons address addresses =>
          obtain ⟨here, rest⟩ := List.cons.inj valid
          have stored := Cell.loads_store_next (Cell.word_fits address) s.m.bytes block i
          obtain ⟨m', returns, row⟩ := ih rest (Nat.succ_ne_zero i) (s := { s with m :=
            { s.m with bytes := Cell.word.store (block + i * 4) address s.m.bytes } }) allocated
          refine ⟨m', ?_, ?_⟩
          · rw [vripLoop_cons here begun allocated, returns]
          · rw [List.length_cons, Nat.add_comm addresses.length, ← Nat.add_assoc, row]
            rw [Cell.word_width] at stored
            rw [stored, List.append_assoc, List.singleton_append]

/-- **A later token that is no address** is found out with the record as it is. -/
theorem vripLoop_invalid {later : List (List UInt8)} {token : List UInt8} (member : token ∈ later)
    (invalid : pton.parse token = none) {i : Nat} (begun : i ≠ 0) {s : VripState} {block : Nat}
    (allocated : s.v.vrIp = some block) :
    ∃ s', s.vripLoop pton got num later i = .ok (-1, s') ∧ s'.v = s.v := by
  induction later generalizing i s with
  | nil => cases member
  | cons p later ih =>
      cases parsed : pton.parse p with
      | none => exact ⟨s, vripLoop_stop parsed begun s later, rfl⟩
      | some address =>
          have behind : token ∈ later := by
            rcases List.mem_cons.mp member with rfl | behind
            · rw [invalid] at parsed
              cases parsed
            · exact behind
          rw [vripLoop_cons parsed begun allocated]
          exact ih behind (Nat.succ_ne_zero i) allocated

/-! ## The first token -/

/-- The record once the first token was stored. -/
def begun (num : Nat) (address : UInt32) (s : VripState) : VripState where
  v := { s.v with vrAf := afInet, vrIp := some s.m.top }
  m := { bytes := Cell.word.store s.m.top address s.m.bytes, top := s.m.top + num * 4 }

theorem vripLoop_first_invalid {first : List UInt8} (invalid : pton.parse first = none)
    (later : List (List UInt8)) (s : VripState) :
    s.vripLoop pton got num (first :: later) 0 = .ok (-1, s) := by
  rw [vripLoop]
  simp only [reduceIte, allocVrIp, invalid]

theorem vripLoop_first_failed {first : List UInt8} {address : UInt32}
    (valid : pton.parse first = some address) (later : List (List UInt8)) (s : VripState) :
    s.vripLoop pton false num (first :: later) 0 = .error .nullDeref := by
  rw [vripLoop]
  simp only [reduceIte, allocVrIp, valid, Bool.false_eq_true, deref_none, error_bind]

theorem vripLoop_first {first : List UInt8} {address : UInt32}
    (valid : pton.parse first = some address) (later : List (List UInt8)) (s : VripState) :
    s.vripLoop pton true num (first :: later) 0 =
      (s.begun num address).vripLoop pton true num later 1 := by
  rw [vripLoop]
  simp only [reduceIte, allocVrIp, valid, Memory.malloc, deref_some, ok_bind, Nat.zero_mul,
    Nat.add_zero, Nat.zero_add]
  rfl

/-! ## The law -/

theorem parseVrip_eq {addrStr : CString} (short : addrStr.val.length < vripStrSize)
    (s : VripState) :
    s.parseVrip pton got addrStr =
      s.vripLoop pton got (addrStr.val.splitOn comma).length (tokens addrStr.val) 0 := by
  have taken : strtoks comma (addrStr.val.length + 1) addrStr.val = tokens addrStr.val :=
    strtoks_eq (Nat.lt_succ_self _)
  rw [parseVrip, if_pos short, length_splitOn]
  simp only [taken, Nat.add_comm 1]

/-- Without empty items the tokens are the items. -/
theorem tokens_of_valid {str : List UInt8}
    (valid : ∀ item ∈ str.splitOn comma, (pton.parse item).isSome) :
    tokens str = str.splitOn comma := by
  refine List.filter_eq_self.mpr fun item member => ?_
  simp only [ne_eq, decide_not, Bool.not_eq_eq_eq_not, Bool.not_true, decide_eq_false_iff_not]
  rintro rfl
  have parsed := valid [] member
  rw [pton.empty] at parsed
  cases parsed

/-- The addresses of items that are addresses. -/
theorem exists_addresses {items : List (List UInt8)}
    (valid : ∀ item ∈ items, (pton.parse item).isSome) :
    ∃ addresses : List UInt32, items.map pton.parse = addresses.map some := by
  induction items with
  | nil => exact ⟨[], rfl⟩
  | cons item items ih =>
      obtain ⟨address, here⟩ := Option.isSome_iff_exists.mp (valid item List.mem_cons_self)
      obtain ⟨addresses, later⟩ := ih fun item member => valid item (List.mem_cons_of_mem _ member)
      exact ⟨address :: addresses, by rw [List.map_cons, here, later, List.map_cons]⟩

/-- What is accepted has addresses for items. -/
theorem Parses.valid {str : List UInt8} {s s' : VripState} {result : Result (Int × VripState)}
    (parses : Parses pton str s result) (returns : result = .ok (0, s')) :
    ∀ item ∈ str.splitOn comma, (pton.parse item).isSome := by
  obtain ⟨addresses, -, items, -⟩ := parses.accepted s' returns
  intro item member
  have listed : pton.parse item ∈ addresses.map some := items ▸ List.mem_map_of_mem member
  obtain ⟨address, -, equal⟩ := List.mem_map.mp listed
  rw [← equal]
  rfl

/-- A call that does not return promises nothing. -/
theorem parses_error (pton : InetPton) (str : List UInt8) (s : VripState) (fault : Fault) :
    Parses pton str s (.error fault) where
  accepted s' same := by cases same
  rejected s' same := by cases same

/-- What is rejected has to leave the record alone. -/
theorem parses_rejected_iff {str : List UInt8} {s s' : VripState} :
    Parses pton str s (.ok (-1, s')) ↔ s'.v = s.v := by
  constructor
  · exact fun parses => parses.rejected s' rfl
  · intro kept
    refine ⟨fun s'' same => ?_, fun s'' same => ?_⟩
    · cases same
    · cases same
      exact kept

/-- **A list of addresses is parsed.** -/
theorem parses_of_valid {addrStr : CString} (short : addrStr.val.length < vripStrSize)
    (s : VripState)
    (valid : ∀ item ∈ addrStr.val.splitOn comma, (pton.parse item).isSome) :
    Parses pton addrStr.val s (s.parseVrip pton true addrStr) := by
  obtain ⟨addresses, parsed⟩ := exists_addresses valid
  have nonempty : ∀ item ∈ addrStr.val.splitOn comma, item ≠ [] := by
    rintro item member rfl
    have some := valid [] member
    rw [pton.empty] at some
    cases some
  have count : (addrStr.val.splitOn comma).length = addresses.length := by
    simpa using congrArg List.length parsed
  have few : addresses.length < 256 := by
    have places := length_splitOn_le nonempty
    rw [vripStrSize] at short
    omega
  have fits : (UInt8.ofNat addresses.length).toNat = addresses.length := by
    rw [UInt8.toNat_ofNat']
    exact Nat.mod_eq_of_lt few
  rw [parseVrip_eq short, tokens_of_valid valid]
  cases addresses with
  | nil =>
      have nothing : addrStr.val.splitOn comma = [] := List.length_eq_zero_iff.mp count
      exact absurd nothing (List.splitOn_ne_nil _ _)
  | cons address addresses =>
      cases items : addrStr.val.splitOn comma with
      | nil => exact absurd items (List.splitOn_ne_nil _ _)
      | cons first later =>
          rw [items] at parsed count
          obtain ⟨here, rest⟩ := List.cons.inj parsed
          have started : Cell.word.loads (s.begun (first :: later).length address).m.bytes
              s.m.top 1 = [address] :=
            Cell.loads_store_next (Cell.word_fits address) s.m.bytes s.m.top 0
          obtain ⟨m', returns, row⟩ := @vripLoop_valid pton true (first :: later).length later
            addresses rest 1 Nat.one_ne_zero (s.begun (first :: later).length address) s.m.top rfl
          rw [started, Nat.add_comm 1] at row
          rw [vripLoop_first here, returns]
          refine ⟨?_, ?_⟩
          · intro s' same
            cases same
            refine ⟨address :: addresses, s.m.top, by rw [items, parsed], rfl, ?_, ?_, ?_, rfl⟩
            · rw [Memory.vrIp, count, fits]
              exact row
            · rw [count]
              exact fits
            · exact Nat.succ_pos _
          · intro s' same
            cases same

/-- A record that has already what is stored for the first token. -/
theorem begun_v_iff {address : UInt32} {s : VripState} :
    (s.begun num address).v = s.v ↔ s.v.vrAf = afInet ∧ s.v.vrIp = some s.m.top := by
  obtain ⟨⟨vrAf, vrIpnum, vrIp⟩, m⟩ := s
  simp only [begun, VripFields.mk.injEq, true_and]
  exact and_congr eq_comm eq_comm

/-- The arguments whose first token is an address, with a block for the addresses. -/
theorem parses_iff_of_first {addrStr : CString} (short : addrStr.val.length < vripStrSize)
    {s : VripState} {first : List UInt8} {later : List (List UInt8)}
    (taken : tokens addrStr.val = first :: later) {address : UInt32}
    (parsed : pton.parse first = some address) :
    Parses pton addrStr.val s (s.parseVrip pton true addrStr) ↔
      (∀ item ∈ addrStr.val.splitOn comma, (pton.parse item).isSome) ∨
        ((∃ token ∈ later, pton.parse token = none) ∧ s.v.vrAf = afInet ∧
          s.v.vrIp = some s.m.top) := by
  have result := @parseVrip_eq pton true addrStr short s
  rw [taken, vripLoop_first parsed] at result
  by_cases bad : ∃ token ∈ later, pton.parse token = none
  · obtain ⟨token, member, invalid⟩ := bad
    obtain ⟨s', returns, kept⟩ := @vripLoop_invalid pton true
      (addrStr.val.splitOn comma).length later token member invalid 1 Nat.one_ne_zero
      (s.begun (addrStr.val.splitOn comma).length address) s.m.top rfl
    rw [returns] at result
    have unchanged : s'.v = s.v ↔ s.v.vrAf = afInet ∧ s.v.vrIp = some s.m.top := by
      rw [kept]
      exact begun_v_iff
    constructor
    · rw [result, parses_rejected_iff, unchanged]
      exact fun same => .inr ⟨⟨token, member, invalid⟩, same⟩
    · rintro (valid | ⟨-, same⟩)
      · exact parses_of_valid short s valid
      · rw [result, parses_rejected_iff]
        exact unchanged.mpr same
  · have valid : ∀ token ∈ later, (pton.parse token).isSome := fun token member =>
      Option.isSome_iff_ne_none.mpr fun invalid => bad ⟨token, member, invalid⟩
    obtain ⟨addresses, rest⟩ := exists_addresses valid
    obtain ⟨m', returns, -⟩ := @vripLoop_valid pton true (addrStr.val.splitOn comma).length later
      addresses rest 1 Nat.one_ne_zero (s.begun (addrStr.val.splitOn comma).length address)
      s.m.top rfl
    rw [returns] at result
    constructor
    · exact fun parses => .inl (parses.valid result)
    · rintro (valid | ⟨invalid, -⟩)
      · exact parses_of_valid short s valid
      · exact absurd invalid bad

theorem proper_iff {str : List UInt8} {s : VripState} {first : List UInt8}
    {later : List (List UInt8)} (taken : tokens str = first :: later) :
    Proper pton got str s ↔ pton.parse first = none ∨ got = false ∨
      (∀ item ∈ str.splitOn comma, (pton.parse item).isSome) ∨
        ((∃ token ∈ later, pton.parse token = none) ∧ s.v.vrAf = afInet ∧
          s.v.vrIp = some s.m.top) := by
  constructor
  · rintro ⟨first', later', taken', holds⟩
    rw [taken] at taken'
    cases taken'
    exact holds
  · exact fun holds => ⟨first, later, taken, holds⟩

/-- **Which arguments are parsed right.** For every argument of fewer than 256 bytes and
every record, whether or not `malloc` succeeds: `parse_vrip` accepts comma-separated lists
of addresses only, stores just these with their number and family, and leaves the record as
it was when it rejects, if and only if the argument has an item that is not empty, and the
first such item is no address, or no block is to be had, or every item is an address, or a
later item is no address and the record has the first one's block and family already. -/
theorem parseVrip_iff (pton : InetPton) (got : Bool) (addrStr : CString)
    (short : addrStr.val.length < vripStrSize) (s : VripState) :
    Parses pton addrStr.val s (s.parseVrip pton got addrStr) ↔
      Proper pton got addrStr.val s := by
  have result := @parseVrip_eq pton got addrStr short s
  cases taken : tokens addrStr.val with
  | nil =>
      -- nothing but commas is accepted
      rw [taken] at result
      constructor
      · intro parses
        have items := tokens_of_valid (parses.valid result)
        rw [taken] at items
        exact absurd items.symm (List.splitOn_ne_nil _ _)
      · rintro ⟨first, later, some, -⟩
        rw [taken] at some
        cases some
  | cons first later =>
      rw [taken] at result
      rw [proper_iff taken]
      cases parsed : pton.parse first with
      | none =>
          rw [result, vripLoop_first_invalid parsed, parses_rejected_iff]
          simp
      | some address =>
          cases got with
          | false =>
              rw [result, vripLoop_first_failed parsed]
              exact iff_of_true (parses_error ..) (.inr (.inl rfl))
          | true =>
              rw [parses_iff_of_first short taken parsed]
              simp

/-! ## Addresses in dotted notation -/

/-- `inet_pton` for `AF_INET`: the bytes of the address, as a word in memory. -/
def dottedQuad : InetPton where
  parse text := (quad text).map Cell.word.decode
  empty := by decide

/-- Two addresses. -/
def twoAddresses : CString := ⟨ascii "10.0.0.1,10.0.0.2", by decide⟩

/-- A record as `cmd_create` may find it. -/
def blankVrip : VripState := ⟨⟨0, 0, none⟩, ⟨fun _ => 0, 4096⟩⟩

/-- Two addresses are parsed. -/
theorem parseVrip_iff_two :
    Parses dottedQuad twoAddresses.val blankVrip
      (blankVrip.parseVrip dottedQuad true twoAddresses) :=
  (parseVrip_iff dottedQuad true twoAddresses (by decide) blankVrip).mpr
    ⟨_, _, rfl, .inr (.inr (.inl (by decide)))⟩

/-- An address with a comma behind it. -/
def trailingComma : CString := ⟨ascii "10.0.0.1,", by decide⟩

/-- **A comma at the end counts as an address.** The argument is accepted, with two addresses
announced and one stored. -/
theorem parseVrip_trailingComma : trailingComma.val.length < vripStrSize ∧
    ¬ Parses dottedQuad trailingComma.val blankVrip
      (blankVrip.parseVrip dottedQuad true trailingComma) := by
  have short : trailingComma.val.length < vripStrSize := by decide
  have taken : tokens trailingComma.val = [ascii "10.0.0.1"] := by decide
  have first : dottedQuad.parse (ascii "10.0.0.1") = some (Cell.word.decode [10, 0, 0, 1]) := by
    decide
  refine ⟨short, fun parses => ?_⟩
  obtain valid | ⟨⟨token, nothing, -⟩, -⟩ := (parses_iff_of_first short taken first).mp parses
  · exact absurd valid (by decide)
  · cases nothing

end VripState

end VrrpDaemon
