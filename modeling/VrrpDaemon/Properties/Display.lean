import VrrpDaemon.Behaviour.AddressTexts
import VrrpDaemon.Behaviour.Records
import VrrpDaemon.Model.Display

/-!
# Which virtual routers are displayed safely

`dump_vr` appends the text of every address to a field of 256 bytes, and `inet_ntop` gives no
text for a family other than `AF_INET` and `AF_INET6`. `vrrp_create_inst` looks at neither: it
asks for at least one address. `Dumpable` is the condition on the VR under which the texts
exist and fit, and `dumpVr_iff` is the theorem on every instance that was created.

Of IPv4 addresses 15 always fit, and 32 never do (`dumpable_of_few`,
`not_dumpable_of_many`).
-/

set_option autoImplicit false

namespace VrrpDaemon

open Machine

/-! ## The texts -/

/-- The text of the `i`-th address of a VR, for one of the families that `inet_ntop` knows. -/
def addressText (m : VrSurroundings) (vr : VrrpVr) (i : Nat) : List UInt8 :=
  if vr.vrAf = afInet then inetNtoa ((vr.vrIpArray m).slice (i * 4) 4)
  else inetNtop6 ((vr.vrIpArray m).slice (i * 4) 16)

/-- The texts of the addresses, each with a comma, fit in the field: for `AF_INET`, each byte
of the addresses counts with its digits and a separator. -/
def Dumpable (m : VrSurroundings) (vr : VrrpVr) : Prop :=
  (vr.vrAf = afInet ∧
    (((vr.vrIpArray m).slice 0 (vr.vrIpnum.toNat * 4)).map fun byte =>
      decimalDigits byte + 1).sum < sIpSize) ∨
  (vr.vrAf = afInet6 ∧
    ((List.range vr.vrIpnum.toNat).map fun i =>
      (inetNtop6 ((vr.vrIpArray m).slice (i * 4) 16)).length + 1).sum < sIpSize)

variable {m : VrSurroundings} {vr : VrrpVr}

/-- A VR has one family. -/
theorem not_inet6_of_inet (inet : vr.vrAf = afInet) : ¬ vr.vrAf = afInet6 := by
  rw [inet]
  decide

/-- A VR with addresses has one and some others. -/
theorem exists_vrIpnum_eq (addresses : vr.vrIpnum > 0) :
    ∃ others, vr.vrIpnum.toNat = others + 1 :=
  Nat.exists_eq_add_one.mpr (UInt8.lt_iff_toNat_lt.mp addresses)

theorem inetNtop_inet (src : Buffer) (off : Nat) :
    inetNtop afInet src off inet6Addrstrlen = some (inetNtoa (src.slice off 4)) := by
  have short : (inetNtoa (src.slice off 4)).length < inet6Addrstrlen :=
    Nat.lt_of_le_of_lt (length_inetNtoa_le (Buffer.length_slice ..)) (by decide)
  rw [inetNtop, if_pos rfl, Option.filter_some, if_pos (decide_eq_true short)]

theorem inetNtop_inet6 (src : Buffer) (off : Nat) :
    inetNtop afInet6 src off inet6Addrstrlen = some (inetNtop6 (src.slice off 16)) := by
  have short : (inetNtop6 (src.slice off 16)).length < inet6Addrstrlen :=
    length_inetNtop6 (Buffer.length_slice ..)
  rw [inetNtop, if_neg (by decide), if_pos rfl, Option.filter_some,
    if_pos (decide_eq_true short)]

/-- **`inet_ntop` has a text** for each address of the families it knows. -/
theorem inetNtop_known (known : vr.vrAf = afInet ∨ vr.vrAf = afInet6) (i : Nat) :
    inetNtop vr.vrAf (vr.vrIpArray m) (i * 4) inet6Addrstrlen = some (addressText m vr i) := by
  rcases known with inet | inet6
  · rw [inet, inetNtop_inet, addressText, if_pos inet]
  · have other : ¬ vr.vrAf = afInet := fun inet => not_inet6_of_inet inet inet6
    rw [inet6, inetNtop_inet6, addressText, if_neg other]

theorem inetNtop_unknown {af : Int} (unknown : ¬ (af = afInet ∨ af = afInet6)) (src : Buffer)
    (off size : Nat) : inetNtop af src off size = none := by
  rw [not_or] at unknown
  rw [inetNtop, if_neg unknown.1, if_neg unknown.2]

theorem zero_notMem_addressText (i : Nat) : (0 : UInt8) ∉ addressText m vr i := by
  rw [addressText]
  split
  · exact zero_notMem_inetNtoa _
  · exact zero_notMem_inetNtop6 _

/-! ## The loop -/

/-- One round appends the text of its address and a comma. -/
theorem appends_dumpAddress (known : vr.vrAf = afInet ∨ vr.vrAf = afInet6) (i : Nat) :
    Appends Fault.overflow sIpSize (fun sIp => dumpAddress m vr sIp i)
      (addressText m vr i ++ ascii ",") := by
  have round : (fun sIp => dumpAddress m vr sIp i) =
      fun sIp => strcat Fault.overflow sIpSize (addressText m vr i) sIp >>=
        strcat .overflow sIpSize (ascii ",") := by
    funext sIp
    rw [dumpAddress, inetNtop_known known, deref_some, ok_bind]
  rw [round]
  exact (appends_strcat (zero_notMem_addressText i)).seq (appends_strcat (by decide))

/-- What the loop leaves in the field, if it fits. -/
def dumpedText (m : VrSurroundings) (vr : VrrpVr) : List UInt8 :=
  (List.range vr.vrIpnum.toNat).flatMap fun i => addressText m vr i ++ ascii ","

/-- **The loop** appends the texts of all addresses. -/
theorem appends_dumpAddresses (known : vr.vrAf = afInet ∨ vr.vrAf = afInet6) :
    Appends Fault.overflow sIpSize
      (fun sIp => (List.range vr.vrIpnum.toNat).foldlM (dumpAddress m vr) sIp)
      (dumpedText m vr) :=
  .foldlM fun i _ => appends_dumpAddress known i

/-- The field as it is before the loop. -/
theorem holdsText_cleared : HoldsText (fun _ => 0) sIpSize [] := holdsText_nil (by decide)

/-- The addresses of an array, one after the other. -/
theorem slice_addresses (b : Buffer) (count : Nat) :
    b.slice 0 (count * 4) = (List.range count).flatMap fun i => b.slice (i * 4) 4 := by
  induction count with
  | zero => rfl
  | succ count ih =>
      rw [Nat.succ_mul, Buffer.slice_add, ih, List.range_succ, List.flatMap_append,
        List.flatMap_singleton, Nat.zero_add]

theorem length_dumpedText :
    (dumpedText m vr).length =
      ((List.range vr.vrIpnum.toNat).map fun i => (addressText m vr i).length + 1).sum := by
  rw [dumpedText, List.length_flatMap]
  refine congrArg List.sum (List.map_congr_left fun i _ => ?_)
  rw [List.length_append]
  rfl

/-- The text of IPv4 addresses, by their bytes. -/
theorem length_dumpedText_inet (inet : vr.vrAf = afInet) :
    (dumpedText m vr).length =
      (((vr.vrIpArray m).slice 0 (vr.vrIpnum.toNat * 4)).map fun byte =>
        decimalDigits byte + 1).sum := by
  rw [length_dumpedText, slice_addresses, List.map_flatMap, List.flatMap_def, List.sum_flatten,
    List.map_map]
  refine congrArg List.sum (List.map_congr_left fun i _ => ?_)
  have some : (vr.vrIpArray m).slice (i * 4) 4 ≠ [] := List.ne_nil_of_length_eq_add_one
    (Buffer.length_slice ..)
  rw [addressText, if_pos inet, length_inetNtoa some, Function.comp_apply]

/-- **A VR is dumpable** when its family is known and the text fits. -/
theorem dumpable_iff :
    Dumpable m vr ↔
      (vr.vrAf = afInet ∨ vr.vrAf = afInet6) ∧ (dumpedText m vr).length < sIpSize := by
  by_cases inet : vr.vrAf = afInet
  · rw [Dumpable, length_dumpedText_inet inet]
    constructor
    · rintro (⟨-, short⟩ | ⟨inet6, -⟩)
      · exact ⟨.inl inet, short⟩
      · exact absurd inet6 (not_inet6_of_inet inet)
    · exact fun ⟨_, short⟩ => .inl ⟨inet, short⟩
  · simp only [Dumpable, length_dumpedText, addressText, inet, reduceIte, false_and, false_or]

/-! ## The function -/

/-- The text of some addresses ends with a comma. -/
theorem dumpedText_ends (m : VrSurroundings) (addresses : vr.vrIpnum > 0) :
    ∃ front, dumpedText m vr = front ++ [44] := by
  obtain ⟨last, count⟩ := exists_vrIpnum_eq addresses
  have comma : ascii "," = [44] := by decide
  rw [dumpedText, count, List.range_succ, List.flatMap_append, List.flatMap_singleton, comma,
    ← List.append_assoc]
  exact ⟨_, rfl⟩

/-- **A VR with its texts in the field** is displayed. -/
theorem dumpVr_of_dumpable (addresses : vr.vrIpnum > 0) (dumpable : Dumpable m vr) :
    ∃ lines, dumpVr m vr = .ok lines := by
  obtain ⟨known, short⟩ := dumpable_iff.mp dumpable
  obtain ⟨sIp, looped, holds⟩ := (appends_dumpAddresses known).fits _ [] holdsText_cleared
    (by rwa [List.length_nil, Nat.zero_add])
  obtain ⟨front, ends⟩ := dumpedText_ends m addresses
  rw [List.nil_append, ends] at holds
  obtain ⟨chopped, cut, -⟩ := holds.chop Fault.overflow
  have vrid : sprintf sVridSize (decimal vr.vrId) = .ok (decimal vr.vrId) := by
    have digits := decimalDigits_le vr.vrId
    rw [sprintf, length_decimal, if_pos (Nat.lt_of_le_of_lt digits (by decide))]
  simp only [dumpVr, dumpAddresses, looped, ok_bind, cut, vrid]
  exact ⟨_, rfl⟩

/-- **Texts that are too long** overrun the field. -/
theorem dumpVr_of_long (known : vr.vrAf = afInet ∨ vr.vrAf = afInet6)
    (long : ¬ Dumpable m vr) : dumpVr m vr = .error .overflow := by
  have overruns := (appends_dumpAddresses (m := m) known).overruns _ [] holdsText_cleared (by
    rw [List.length_nil, Nat.zero_add]
    exact Nat.not_lt.mp fun short => long (dumpable_iff.mpr ⟨known, short⟩))
  rw [dumpVr, dumpAddresses, overruns]
  rfl

/-- **Another family** has no text for the first address. -/
theorem dumpVr_of_unknown (addresses : vr.vrIpnum > 0)
    (unknown : ¬ (vr.vrAf = afInet ∨ vr.vrAf = afInet6)) :
    dumpVr m vr = .error .nullDeref := by
  obtain ⟨later, count⟩ := exists_vrIpnum_eq addresses
  have first : ∀ sIp i, dumpAddress m vr sIp i = .error .nullDeref := fun sIp i => by
    rw [dumpAddress, inetNtop_unknown unknown, deref_none, error_bind]
  rw [dumpVr, dumpAddresses, count, List.range_succ_eq_map, List.foldlM_cons, first]
  rfl

/-- **Which VRs are displayed**, and how the others fault. -/
theorem dumpVr_returns_iff (addresses : vr.vrIpnum > 0) :
    ((∃ lines, dumpVr m vr = .ok lines) ↔ Dumpable m vr) ∧
      (¬ Dumpable m vr → dumpVr m vr =
        .error (if vr.vrAf = afInet ∨ vr.vrAf = afInet6 then .overflow else .nullDeref)) := by
  have faults : ¬ Dumpable m vr → dumpVr m vr =
      .error (if vr.vrAf = afInet ∨ vr.vrAf = afInet6 then .overflow else .nullDeref) := by
    intro beyond
    split
    · rename_i known
      exact dumpVr_of_long known beyond
    · rename_i unknown
      exact dumpVr_of_unknown addresses unknown
  refine ⟨⟨fun ⟨lines, returns⟩ => ?_, dumpVr_of_dumpable addresses⟩, faults⟩
  by_contra beyond
  rw [faults beyond] at returns
  cases returns

/-! ## IPv4 addresses -/

/-- The bytes of the addresses, where the array has as many as are stated. -/
theorem dumpable_inet_iff (inet : vr.vrAf = afInet)
    (complete : vr.vrIp.length = vr.vrIpnum.toNat) :
    Dumpable m vr ↔
      ((vr.vrIp.flatMap Cell.word.encode).map fun byte => decimalDigits byte + 1).sum <
        sIpSize := by
  have length : (vr.vrIp.flatMap Cell.word.encode).length = vr.vrIpnum.toNat * 4 := by
    rw [← complete, List.length_flatMap]
    simp [Cell.word.length_encode]
  rw [Dumpable, VrrpVr.vrIpArray, Buffer.slice_holding_take (by omega), List.drop_zero,
    List.take_of_length_le (Nat.le_of_eq length)]
  exact ⟨fun whole => (whole.resolve_right fun wrong => not_inet6_of_inet inet wrong.1).2,
    fun short => .inl ⟨inet, short⟩⟩

/-- **Up to 15 addresses always fit.** -/
theorem dumpable_of_few (inet : vr.vrAf = afInet) (few : vr.vrIpnum.toNat ≤ 15) :
    Dumpable m vr := by
  have bound := sum_decimalDigits_le ((vr.vrIpArray m).slice 0 (vr.vrIpnum.toNat * 4))
  rw [Buffer.length_slice] at bound
  refine .inl ⟨inet, Nat.lt_of_le_of_lt bound ?_⟩
  rw [sIpSize]
  omega

/-- **From 32 addresses on none fit.** -/
theorem not_dumpable_of_many (inet : vr.vrAf = afInet) (many : 32 ≤ vr.vrIpnum.toNat) :
    ¬ Dumpable m vr := by
  rintro (⟨-, short⟩ | ⟨inet6, -⟩)
  · have bound := le_sum_decimalDigits ((vr.vrIpArray m).slice 0 (vr.vrIpnum.toNat * 4))
    rw [Buffer.length_slice] at bound
    rw [sIpSize] at short
    omega
  · exact not_inet6_of_inet inet inet6

/-! ## The instances that were created -/

namespace Daemon

variable {w : World} {s s₀ s₁ s₂ : Daemon} {past : List (Daemon × Op × Daemon)}
  {inst : VrrpInst} {v : DsPtr}

/-- **Which instances are displayed safely.** Whenever a run has created an instance, and as
long as the instance is listed: `dump_vr` on its VR returns, without a write outside of the
field, a null pointer or a cut in an empty text, if and only if the VR that the request asked
for is dumpable. Otherwise it overruns the field, or for a family that `inet_ntop` does not
know, reads through the null pointer. -/
theorem dumpVr_iff (history : History (step w) unguarded initial past s)
    (member : (s₀, .command (.create inst), s₁) ∈ past)
    (accepted : s₀.vrrpCreateInst w inst = .ok (VrrpRet.success.code, some v, s₂))
    (listed : s.Listed v) (m : VrSurroundings) :
    ((∃ lines, dumpVr m (s.vr v).vr = .ok lines) ↔ Dumpable m inst.viVr.copied) ∧
      (¬ Dumpable m inst.viVr.copied → dumpVr m (s.vr v).vr =
        .error (if inst.viVr.vrAf = afInet ∨ inst.viVr.vrAf = afInet6 then .overflow
          else .nullDeref)) := by
  have addresses : inst.viVr.vrIpnum > 0 := by
    rcases vrrpCreateInst_outcome accepted with ⟨impossible, -⟩ | ⟨-, -, checked, -⟩
    · exact absurd rfl impossible
    · exact checked.2
  rw [record_of_history history member accepted listed]
  exact dumpVr_returns_iff addresses

/-- A run that creates one instance. -/
theorem created_alone (inst : VrrpInst)
    (ran : passes (fun s => s.next instRuntimeList == some 1 && s.next 1 == none &&
        passes (fun made => made.1 == VrrpRet.success.code && made.2.1 == some 1)
          (initial.vrrpCreateInst .plain inst))
      (step .plain (.command (.create inst)) initial) = true) :
    ∃ past s s₂, History (step .plain) unguarded initial past s ∧
      (initial, .command (.create inst), s) ∈ past ∧
      initial.vrrpCreateInst .plain inst = .ok (VrrpRet.success.code, some 1, s₂) ∧
      s.Listed 1 := by
  obtain ⟨s, returns, tested⟩ := exists_of_passes ran
  simp only [Bool.and_eq_true, beq_iff_eq] at tested
  obtain ⟨⟨first, last⟩, made⟩ := tested
  obtain ⟨⟨status, new, s₂⟩, accepted, tested⟩ := exists_of_passes made
  simp only [Bool.and_eq_true, beq_iff_eq] at tested
  obtain ⟨rfl, rfl⟩ := tested
  exact ⟨_, s, s₂, .snoc .nil trivial returns, List.mem_append_right _ (List.mem_singleton_self _),
    accepted, [1], ⟨first, last⟩, List.mem_singleton_self 1⟩

/-- An instance with one address is displayed. -/
theorem dumpVr_iff_one :
    ∃ past s, History (step .plain) unguarded initial past s ∧ s.Listed 1 ∧
      ∀ m, ∃ lines, dumpVr m (s.vr 1).vr = .ok lines := by
  obtain ⟨past, s, s₂, history, member, accepted, listed⟩ :=
    created_alone (.sample 7 100) (by decide +kernel)
  exact ⟨past, s, history, listed, fun m => (dumpVr_iff history member accepted listed m).1.mpr
    (dumpable_of_few rfl (by decide))⟩

end Daemon

/-- A request with 16 addresses of four times three digits. -/
def VrrpInst.crowded : VrrpInst :=
  { VrrpInst.sample 7 100 with
    viVr := { (VrrpInst.sample 7 100).viVr with
      vrIpnum := 16, vrIp := List.replicate 16 4294967295 } }

/-- **Sixteen addresses overrun the field** by the last NUL, and a request without a family
gives a null pointer: both are accepted, and neither is displayed. -/
theorem Daemon.dumpVr_crowded :
    (∃ past s s₂, History (step .plain) unguarded initial past s ∧
      (initial, .command (.create .crowded), s) ∈ past ∧
      initial.vrrpCreateInst .plain .crowded = .ok (VrrpRet.success.code, some 1, s₂) ∧
      s.Listed 1 ∧ ∀ m, dumpVr m (s.vr 1).vr = .error .overflow) ∧
    ∃ past s s₂, History (step .plain) unguarded initial past s ∧
      (initial, .command (.create (.familyless 7 100)), s) ∈ past ∧
      initial.vrrpCreateInst .plain (.familyless 7 100) =
        .ok (VrrpRet.success.code, some 1, s₂) ∧
      s.Listed 1 ∧ ∀ m, dumpVr m (s.vr 1).vr = .error .nullDeref := by
  constructor
  · obtain ⟨past, s, s₂, history, member, accepted, listed⟩ :=
      created_alone .crowded (by decide +kernel)
    refine ⟨past, s, s₂, history, member, accepted, listed, fun m => ?_⟩
    rw [record_of_history history member accepted listed]
    refine dumpVr_of_long (.inl rfl) fun dumpable => ?_
    have short := (dumpable_inet_iff rfl rfl).mp dumpable
    exact absurd short (by decide)
  · obtain ⟨past, s, s₂, history, member, accepted, listed⟩ :=
      created_alone (.familyless 7 100) (by decide +kernel)
    refine ⟨past, s, s₂, history, member, accepted, listed, fun m => ?_⟩
    rw [record_of_history history member accepted listed]
    exact dumpVr_of_unknown (by decide) (by decide)

end VrrpDaemon
