import Mathlib.Data.List.Induction
import Mathlib.Data.List.Nodup
import VrrpDaemon.Model.PollTable
import VrrpDaemon.Model.System

/-!
# How far the descriptor tables stay in step

`poll_add` writes all three tables when it finds a free entry, and only two of them when it
grows the first one: the family of the first descriptor is lost, and the 33rd descriptor
has no entry in the other tables. What the tables hold as long as neither happens is known
from the calls that added a descriptor (`PollTable.pollAdds_eq`), and the tables are in step
exactly as long as neither happens, and no name overruns its entry
(`PollTable.pollAdds_inStep_iff`).
-/

set_option autoImplicit false

namespace VrrpDaemon

open Machine

namespace PollTable

/-! ## What the tables should hold -/

/-- The descriptor at an index. -/
def fdAt (t : PollTable) (i : Nat) : Option Int := t.pollfds[i]?.map Pollfd.fd

/-- A call, the last of a sequence, keeps the tables in step: its descriptor is at exactly
one index, with the family and the name of the call that added it, and the entries of the
other descriptors stay. -/
structure Added (calls : List PollCall) (c : PollCall) (t t' : PollTable) : Prop where
  one : ∃ i first, (∀ j, t'.fdAt j = some c.fd ↔ j = i) ∧
    calls.find? (·.fd = c.fd) = some first ∧
      t'.pollAfs[i]? = some first.af ∧ t'.pollIntfs[i]? = some first.name
  others : ∀ j fd, t.fdAt j = some fd → 0 ≤ fd → fd ≠ c.fd →
    t'.pollfds[j]? = t.pollfds[j]? ∧ t'.pollAfs[j]? = t.pollAfs[j]? ∧
      t'.pollIntfs[j]? = t.pollIntfs[j]?

/-- Every call of a sequence returns 0 without writing beyond a table, and keeps the tables
in step. -/
def InStep (calls : List PollCall) : Prop :=
  ∀ past c later, calls = past ++ c :: later →
    ∃ t t', initial.pollAdds past = .ok t ∧ t.pollAdd true c = .ok (0, t') ∧
      Added (past ++ [c]) c t t'

/-! ## The calls that add a descriptor -/

/-- The calls whose descriptor was not given before. -/
def added (calls : List PollCall) : List PollCall :=
  calls.foldl (fun before c => if before.any (·.fd = c.fd) then before else before ++ [c]) []

theorem added_append (calls : List PollCall) (c : PollCall) :
    added (calls ++ [c]) =
      if (added calls).any (·.fd = c.fd) then added calls else added calls ++ [c] := by
  rw [added, List.foldl_append]
  rfl

/-- The tables once some calls have each added a descriptor. -/
def tableOf (calls : List PollCall) : PollTable where
  pollfds := if calls = [] then [] else
    fill pollSlots .empty (calls.map fun c => ⟨c.fd, pollin⟩)
  pollAfs := fill pollSlots afUnspec (calls.map PollCall.af)
  pollIntfs := fill pollSlots [] (calls.map PollCall.name)

/-- The calls that added a descriptor leave the tables in step: there are at most 32 of
them, the first one gave `AF_UNSPEC`, and their names fit with a NUL. -/
structure Room (calls : List PollCall) : Prop where
  few : calls.length ≤ pollSlots
  first : ∀ c ∈ calls.head?, c.af = afUnspec
  short : ∀ c ∈ calls, c.name.length < lifnamsiz

theorem Room.of_append {calls : List PollCall} {c : PollCall} (room : Room (calls ++ [c])) :
    Room calls where
  few := by
    have few := room.few
    rw [List.length_append] at few
    exact Nat.le_trans (Nat.le_add_right ..) few
  first d head := by
    refine room.first d ?_
    cases calls with
    | nil => cases head
    | cons a calls => exact head
  short d member := room.short d (List.mem_append_left _ member)

/-- The calls that add a descriptor give descriptors, each a different one. -/
structure Distinct (calls : List PollCall) : Prop where
  nonneg : ∀ c ∈ calls, 0 ≤ c.fd
  nodup : (calls.map PollCall.fd).Nodup

theorem any_fd_iff {calls : List PollCall} {fd : Int} :
    calls.any (·.fd = fd) = true ↔ fd ∈ calls.map PollCall.fd := by
  simp only [List.any_eq_true, decide_eq_true_eq, List.mem_map]

theorem Distinct.append {calls : List PollCall} (distinct : Distinct calls) {c : PollCall}
    (nonneg : 0 ≤ c.fd) (fresh : c.fd ∉ calls.map PollCall.fd) : Distinct (calls ++ [c]) where
  nonneg d member := by
    rcases List.mem_append.mp member with member | member
    · exact distinct.nonneg d member
    · rw [List.mem_singleton.mp member]
      exact nonneg
  nodup := by
    rw [List.map_append, List.nodup_append]
    refine ⟨distinct.nodup, List.nodup_singleton _, ?_⟩
    rintro fd member fd' last rfl
    exact fresh (List.mem_singleton.mp last ▸ member)

theorem added_distinct {calls : List PollCall} (nonneg : ∀ c ∈ calls, 0 ≤ c.fd) :
    Distinct (added calls) := by
  induction calls using List.reverseRecOn with
  | nil => exact ⟨fun c member => absurd member List.not_mem_nil, List.nodup_nil⟩
  | append_singleton calls c ih =>
      have before := ih fun d member => nonneg d (List.mem_append_left _ member)
      rw [added_append]
      split
      · exact before
      · rename_i fresh
        refine before.append (nonneg c (by simp)) ?_
        rwa [any_fd_iff] at fresh

/-- The call that adds a descriptor is the first one with it. -/
theorem find?_added (calls : List PollCall) (fd : Int) :
    (added calls).find? (·.fd = fd) = calls.find? (·.fd = fd) := by
  induction calls using List.reverseRecOn with
  | nil => rfl
  | append_singleton calls c ih =>
      rw [added_append, List.find?_append, ← ih]
      split
      · rename_i known
        by_cases same : c.fd = fd
        · subst same
          obtain ⟨d, member, equal⟩ := List.any_eq_true.mp known
          have found : ((added calls).find? (·.fd = c.fd)).isSome :=
            List.find?_isSome.mpr ⟨d, member, equal⟩
          rw [Option.or_of_isSome found]
        · simp [same]
      · rw [List.find?_append]

/-! ## The tables of calls that add a descriptor -/

variable {calls : List PollCall} {c : PollCall}

theorem tableOf_fdAt (some : calls ≠ []) {i : Nat} (used : i < calls.length) :
    (tableOf calls).fdAt i = calls[i]?.map PollCall.fd := by
  rw [fdAt, tableOf]
  simp only [if_neg some]
  rw [getElem?_fill (by rwa [List.length_map]), List.getElem?_map, Option.map_map]
  rfl

/-- A descriptor in the table is one that was added. -/
theorem lt_of_fdAt {i : Nat} {fd : Int} (held : (tableOf calls).fdAt i = some fd)
    (nonneg : 0 ≤ fd) : i < calls.length := by
  by_contra beyond
  have blank : (tableOf calls).fdAt i = none ∨ (tableOf calls).fdAt i = some (-1) := by
    rw [fdAt, tableOf]
    split
    · exact .inl rfl
    · rw [fill, List.getElem?_append_right (by rw [List.length_map]; omega), List.getElem?_replicate]
      split
      · exact .inr rfl
      · exact .inl rfl
  rcases blank with none | minus
  · rw [none] at held
    cases held
  · rw [minus] at held
    cases held
    omega

/-- **The entry of a descriptor** that was added. -/
theorem tableOf_entry (distinct : Distinct calls) {fd : Int} {first : PollCall}
    (found : calls.find? (·.fd = fd) = some first) :
    ∃ i, (∀ j, (tableOf calls).fdAt j = some fd ↔ j = i) ∧
      (tableOf calls).pollAfs[i]? = some first.af ∧
        (tableOf calls).pollIntfs[i]? = some first.name := by
  obtain ⟨i, used, here⟩ := List.mem_iff_getElem.mp (List.mem_of_find?_eq_some found)
  have same : first.fd = fd := by simpa using List.find?_some found
  have at_i : calls[i]? = some first := by rw [List.getElem?_eq_getElem used, here]
  have some : calls ≠ [] := List.ne_nil_of_length_pos (Nat.zero_lt_of_lt used)
  have nonneg : 0 ≤ fd := same ▸ distinct.nonneg first (List.mem_of_find?_eq_some found)
  refine ⟨i, fun j => ⟨fun held => ?_, ?_⟩, ?_, ?_⟩
  · have near := lt_of_fdAt held nonneg
    rw [tableOf_fdAt some near, ← List.getElem?_map] at held
    have there : (calls.map PollCall.fd)[i]? = Option.some fd := by
      rw [List.getElem?_map, at_i, Option.map_some, same]
    exact (List.getElem?_inj (by rwa [List.length_map]) distinct.nodup).mp
      (held.trans there.symm)
  · rintro rfl
    rw [tableOf_fdAt some used, at_i, Option.map_some, same]
  · rw [tableOf, getElem?_fill (by rwa [List.length_map]), List.getElem?_map, at_i, Option.map_some]
  · rw [tableOf, getElem?_fill (by rwa [List.length_map]), List.getElem?_map, at_i, Option.map_some]

/-- The entries of other descriptors stay when one is added. -/
theorem tableOf_append {i : Nat} (used : i < calls.length) :
    (tableOf (calls ++ [c])).pollfds[i]? = (tableOf calls).pollfds[i]? ∧
      (tableOf (calls ++ [c])).pollAfs[i]? = (tableOf calls).pollAfs[i]? ∧
        (tableOf (calls ++ [c])).pollIntfs[i]? = (tableOf calls).pollIntfs[i]? := by
  have some : calls ≠ [] := List.ne_nil_of_length_pos (Nat.zero_lt_of_lt used)
  have more : calls ++ [c] ≠ [] := List.append_ne_nil_of_right_ne_nil _ (List.cons_ne_nil _ _)
  simp only [tableOf, if_neg some, if_neg more, List.map_append, List.map_cons, List.map_nil]
  exact ⟨getElem?_fill_append (by rwa [List.length_map]) _,
    getElem?_fill_append (by rwa [List.length_map]) _,
    getElem?_fill_append (by rwa [List.length_map]) _⟩

/-! ## One call -/

theorem name_of_intf (c : PollCall) :
    (c.intf = none ∧ c.name = []) ∨ ∃ intf, c.intf = some intf ∧ c.name = intf.val := by
  rw [PollCall.name]
  cases c.intf with
  | none => exact .inl ⟨rfl, rfl⟩
  | some intf => exact .inr ⟨intf, rfl, rfl⟩

/-- A name that overruns its entry. -/
theorem copyIntf_long {t : PollTable} {i : Nat} (long : lifnamsiz ≤ c.name.length) :
    t.copyIntf i c.intf = .error .overflow := by
  obtain ⟨-, name⟩ | ⟨intf, given, name⟩ := name_of_intf c
  · rw [name] at long
    exact absurd long (by decide)
  · rw [given, copyIntf]
    exact if_neg (by rw [← name]; omega)

/-- A name for the first entry that is not used. -/
theorem copyIntf_fill {t : PollTable} {names : List (List UInt8)} {i : Nat}
    (filled : t.pollIntfs = fill pollSlots [] names) (here : names.length = i)
    (room : i < pollSlots) (short : c.name.length < lifnamsiz) :
    t.copyIntf i c.intf = .ok { t with pollIntfs := fill pollSlots [] (names ++ [c.name]) } := by
  obtain ⟨none, name⟩ | ⟨intf, given, name⟩ := name_of_intf c
  · -- nothing is copied, and the entry has no name yet
    have blank : fill pollSlots ([] : List UInt8) (names ++ [[]]) = fill pollSlots [] names := by
      rw [fill_append, fill_eq_append (by rwa [here])]
    rw [none, name, copyIntf, blank, ← filled]
  · have inside : i < (fill pollSlots [] names).length := by
      rwa [length_fill (by rw [here]; exact Nat.le_of_lt room)]
    rw [name] at short
    rw [given, name, copyIntf]
    simp only [if_pos short, filled]
    rw [storeAt_of_lt inside, set_fill here room]
    rfl

theorem any_tableOf (nonneg : 0 ≤ c.fd) :
    (tableOf calls).pollfds.any (·.fd = c.fd) = calls.any (·.fd = c.fd) := by
  rw [tableOf]
  split
  · rename_i nothing
    rw [nothing]
    rfl
  · have blank : (Pollfd.empty.fd = c.fd) = False := by
      simp only [Pollfd.empty, eq_iff_iff, iff_false]
      omega
    rw [fill, List.any_append, List.any_map]
    simp [List.any_replicate, blank, Function.comp_def]

theorem findIdx?_tableOf (distinct : Distinct calls) (some : calls ≠ []) :
    (tableOf calls).pollfds.findIdx? (·.fd = -1) =
      if calls.length < pollSlots then Option.some calls.length else none := by
  have taken : ∀ entry ∈ calls.map fun c => (⟨c.fd, pollin⟩ : Pollfd),
      decide (entry.fd = -1) = false := by
    intro entry member
    obtain ⟨d, among, rfl⟩ := List.mem_map.mp member
    have nonneg := distinct.nonneg d among
    simp only [decide_eq_false_iff_not]
    omega
  rw [tableOf]
  simp only [if_neg some]
  rw [findIdx?_fill taken rfl, List.length_map]

/-- A descriptor that is there is not added again. -/
theorem pollAdd_known (nonneg : 0 ≤ c.fd) (known : calls.any (·.fd = c.fd) = true) :
    (tableOf calls).pollAdd true c = .ok (0, tableOf calls) := by
  rw [pollAdd, any_tableOf nonneg, if_pos known]

/-- **A free entry is used.** -/
theorem pollAdd_free (distinct : Distinct calls) (nonneg : 0 ≤ c.fd)
    (fresh : ¬ calls.any (·.fd = c.fd) = true) (some : calls ≠ [])
    (room : calls.length < pollSlots) (short : c.name.length < lifnamsiz) :
    (tableOf calls).pollAdd true c = .ok (0, tableOf (calls ++ [c])) := by
  have inside : calls.length < (fill pollSlots afUnspec (calls.map PollCall.af)).length := by
    rw [length_fill (by rw [List.length_map]; exact Nat.le_of_lt room)]
    exact room
  have stored : storeAt Fault.overflow (tableOf calls).pollAfs calls.length c.af =
      .ok (fill pollSlots afUnspec (calls.map PollCall.af ++ [c.af])) := by
    rw [tableOf, storeAt_of_lt inside, set_fill (List.length_map ..) room]
  have entered : (tableOf calls).pollfds.modify calls.length (fun entry => { entry with fd := c.fd }) =
      fill pollSlots .empty ((calls.map fun c => ⟨c.fd, pollin⟩) ++ [⟨c.fd, pollin⟩]) := by
    simp only [tableOf, if_neg some]
    rw [modify_fill (List.length_map ..) room]
    rfl
  have copied : ∀ t : PollTable, t.pollIntfs = fill pollSlots [] (calls.map PollCall.name) →
      t.copyIntf calls.length c.intf =
        .ok { t with pollIntfs := fill pollSlots [] (calls.map PollCall.name ++ [c.name]) } :=
    fun t filled => copyIntf_fill filled (List.length_map ..) room short
  rw [pollAdd, any_tableOf nonneg, if_neg fresh, findIdx?_tableOf distinct some, if_pos room]
  simp only [stored, ok_bind, entered]
  rw [copied _ rfl]
  simp [tableOf]

/-- The first descriptor: its family is not stored. -/
theorem pollAdd_first (short : c.name.length < lifnamsiz) :
    (tableOf []).pollAdd true c =
      .ok (0, { tableOf [c] with pollAfs := List.replicate pollSlots afUnspec }) := by
  have copied : (tableOf []).copyIntf 0 c.intf =
      .ok { tableOf [] with pollIntfs := fill pollSlots [] [c.name] } :=
    @copyIntf_fill c (tableOf []) [] 0 rfl rfl (by decide) short
  have grown : (tableOf []).pollAdd true c = (tableOf []).growPollfds true c := rfl
  have none : (tableOf []).pollfds.length = 0 := rfl
  rw [grown, growPollfds, none, copied]
  rfl

/-- So the first descriptor has the family `AF_UNSPEC`, whatever was given. -/
theorem pollAdd_first_af (short : c.name.length < lifnamsiz) {ret : Int} {t' : PollTable}
    (returns : (tableOf []).pollAdd true c = .ok (ret, t')) {i : Nat} {af : Int}
    (held : t'.pollAfs[i]? = some af) : af = afUnspec := by
  rw [pollAdd_first short] at returns
  have same : t'.pollAfs = List.replicate pollSlots afUnspec := by
    cases returns
    rfl
  rw [same] at held
  exact List.eq_of_mem_replicate (List.mem_of_getElem? held)

theorem copyIntf_frame {t t' : PollTable} {i : Nat} {intf : Option CString}
    (returns : t.copyIntf i intf = .ok t') : t'.pollfds = t.pollfds ∧ t'.pollAfs = t.pollAfs := by
  cases intf with
  | none =>
      cases returns
      exact ⟨rfl, rfl⟩
  | some name =>
      rw [copyIntf] at returns
      split at returns
      · obtain ⟨names, -, copied⟩ := bind_eq_ok.mp returns
        cases copied
        exact ⟨rfl, rfl⟩
      · cases returns

/-- **The 33rd descriptor** has no family: its index lies behind `poll_afs`. -/
theorem pollAdd_full (distinct : Distinct calls) (nonneg : 0 ≤ c.fd)
    (fresh : ¬ calls.any (·.fd = c.fd) = true) (full : calls.length = pollSlots) {t' : PollTable}
    {ret : Int} (returns : (tableOf calls).pollAdd true c = .ok (ret, t')) {i : Nat}
    (held : t'.fdAt i = some c.fd) : t'.pollAfs[i]? = none := by
  have some : calls ≠ [] := fun nothing => by
    rw [nothing] at full
    cases full
  rw [pollAdd, any_tableOf nonneg, if_neg fresh, findIdx?_tableOf distinct some,
    if_neg (by omega)] at returns
  obtain ⟨grown, copied, rest⟩ := bind_eq_ok.mp returns
  obtain ⟨fds, afs⟩ := copyIntf_frame copied
  cases rest
  rw [afs]
  refine List.getElem?_eq_none ?_
  by_contra inside
  have length : (tableOf calls).pollAfs.length = pollSlots := by
    rw [tableOf, length_fill (by rw [List.length_map]; exact Nat.le_of_eq full)]
  have near : i < calls.length := by omega
  have before : (tableOf calls).fdAt i = Option.some c.fd := by
    have old : i < (tableOf calls).pollfds.length := by
      simp only [tableOf, if_neg some]
      rwa [length_fill (by rw [List.length_map]; exact Nat.le_of_eq full), ← full]
    rw [← held, fdAt, fdAt, fds, List.getElem?_append_left old]
  rw [tableOf_fdAt some near, List.getElem?_eq_getElem near] at before
  exact fresh (List.any_eq_true.mpr ⟨calls[i], List.getElem_mem near, by
    simpa using Option.some.inj before⟩)

/-! ## The law -/

/-- One call after calls that left the tables in step. -/
theorem pollAdd_room (distinct : Distinct calls) (nonneg : 0 ≤ c.fd)
    (fresh : ¬ calls.any (·.fd = c.fd) = true) (room : Room (calls ++ [c])) :
    (tableOf calls).pollAdd true c = .ok (0, tableOf (calls ++ [c])) := by
  have short : c.name.length < lifnamsiz := room.short c (by simp)
  by_cases some : calls = []
  · subst some
    have unspec : c.af = afUnspec := room.first c rfl
    have blank : fill pollSlots afUnspec [c.af] = List.replicate pollSlots afUnspec := by
      rw [unspec]
      rfl
    rw [pollAdd_first short, List.nil_append, ← blank]
    rfl
  · have few := room.few
    rw [List.length_append] at few
    exact pollAdd_free distinct nonneg fresh some few short

theorem pollAdds_append (calls : List PollCall) (c : PollCall) (t : PollTable) :
    t.pollAdds (calls ++ [c]) = (do
      let t ← t.pollAdds calls
      let (_, t) ← t.pollAdd true c
      return t) := by
  induction calls generalizing t with
  | nil => rfl
  | cons d calls ih =>
      rw [List.cons_append, pollAdds, pollAdds]
      cases t.pollAdd true d with
      | error fault => rfl
      | ok added => exact ih added.2

/-- **The tables after some calls** are those of the calls that added a descriptor, as long
as these leave the tables in step. -/
theorem pollAdds_eq {calls : List PollCall} (nonneg : ∀ c ∈ calls, 0 ≤ c.fd)
    (room : Room (added calls)) : initial.pollAdds calls = .ok (tableOf (added calls)) := by
  induction calls using List.reverseRecOn with
  | nil => rfl
  | append_singleton calls c ih =>
      have before : ∀ d ∈ calls, 0 ≤ d.fd := fun d member =>
        nonneg d (List.mem_append_left _ member)
      have here : 0 ≤ c.fd := nonneg c (by simp)
      rw [added_append] at room ⊢
      by_cases known : (added calls).any (·.fd = c.fd) = true
      · rw [if_pos known] at room ⊢
        rw [pollAdds_append, ih before room, ok_bind, pollAdd_known here known]
        rfl
      · rw [if_neg known] at room ⊢
        rw [pollAdds_append, ih before room.of_append, ok_bind,
          pollAdd_room (added_distinct before) here known room]
        rfl

/-- A call that returns did not overrun an entry. -/
theorem pollAdd_short {t t' : PollTable} {ret : Int}
    (fresh : ¬ t.pollfds.any (·.fd = c.fd) = true)
    (returns : t.pollAdd true c = .ok (ret, t')) : c.name.length < lifnamsiz := by
  by_contra long
  have overruns : ∀ (t : PollTable) i, t.copyIntf i c.intf = .error .overflow :=
    fun t i => copyIntf_long (Nat.not_lt.mp long)
  rw [pollAdd, if_neg fresh] at returns
  cases searched : t.pollfds.findIdx? (·.fd = -1) with
  | none =>
      rw [searched] at returns
      obtain ⟨grown, copied, -⟩ := bind_eq_ok.mp returns
      rw [overruns] at copied
      cases copied
  | some i =>
      rw [searched] at returns
      obtain ⟨afs, -, rest⟩ := bind_eq_ok.mp returns
      obtain ⟨named, copied, -⟩ := bind_eq_ok.mp rest
      rw [overruns] at copied
      cases copied

/-- What a call leaves in step, once the tables are. -/
theorem added_of_room {calls : List PollCall} (nonneg : ∀ d ∈ calls, 0 ≤ d.fd) (here : 0 ≤ c.fd)
    (room : Room (added (calls ++ [c]))) :
    ∃ t', (tableOf (added calls)).pollAdd true c = .ok (0, t') ∧
      Added (calls ++ [c]) c (tableOf (added calls)) t' := by
  have distinct : Distinct (added (calls ++ [c])) := added_distinct fun d member => by
    rcases List.mem_append.mp member with member | member
    · exact nonneg d member
    · rwa [List.mem_singleton.mp member]
  have present : ((calls ++ [c]).find? (·.fd = c.fd)).isSome :=
    List.find?_isSome.mpr ⟨c, by simp, by simp⟩
  obtain ⟨first, found⟩ := Option.isSome_iff_exists.mp present
  have entry := tableOf_entry distinct ((find?_added _ _).trans found)
  have one : ∃ i d, (∀ j, (tableOf (added (calls ++ [c]))).fdAt j = some c.fd ↔ j = i) ∧
      (calls ++ [c]).find? (·.fd = c.fd) = some d ∧
        (tableOf (added (calls ++ [c]))).pollAfs[i]? = some d.af ∧
          (tableOf (added (calls ++ [c]))).pollIntfs[i]? = some d.name := by
    obtain ⟨i, only, af, name⟩ := entry
    exact ⟨i, first, only, found, af, name⟩
  refine ⟨tableOf (added (calls ++ [c])), ?_, one, ?_⟩
  · rw [added_append] at room ⊢
    split at room
    · rename_i known
      rw [if_pos known]
      exact pollAdd_known here known
    · rename_i fresh
      rw [if_neg fresh]
      exact pollAdd_room (added_distinct nonneg) here fresh room
  · intro j fd held given _
    rw [added_append]
    split
    · exact ⟨rfl, rfl, rfl⟩
    · exact tableOf_append (lt_of_fdAt held given)

/-- A call that keeps the tables in step leaves room. -/
theorem room_of_added {calls : List PollCall} (nonneg : ∀ d ∈ calls, 0 ≤ d.fd) (here : 0 ≤ c.fd)
    (before : Room (added calls)) {t' : PollTable}
    (returns : (tableOf (added calls)).pollAdd true c = .ok (0, t'))
    (kept : Added (calls ++ [c]) c (tableOf (added calls)) t') : Room (added (calls ++ [c])) := by
  have distinct := added_distinct nonneg
  obtain ⟨i, first, only, found, af, -⟩ := kept.one
  rw [added_append]
  by_cases known : (added calls).any (·.fd = c.fd) = true
  · rwa [if_pos known]
  · rw [if_neg known]
    have short : c.name.length < lifnamsiz := by
      refine pollAdd_short ?_ returns
      rwa [any_tableOf here]
    refine ⟨?_, ?_, ?_⟩
    · rw [List.length_append, List.length_singleton]
      refine Nat.lt_of_le_of_ne before.few fun full => ?_
      rw [pollAdd_full distinct here known full returns ((only i).mpr rfl)] at af
      cases af
    · intro d head
      cases starts : added calls with
      | cons a more =>
          rw [starts] at head
          refine before.first d ?_
          rw [starts]
          exact head
      | nil =>
          rw [starts] at head returns
          cases head
          have self : first = c := by
            have last : added (calls ++ [c]) = [c] := by
              rw [added_append, starts]
              rfl
            rw [← find?_added, last] at found
            simpa using found.symm
          exact pollAdd_first_af short returns (self ▸ af)
    · intro d member
      rcases List.mem_append.mp member with member | member
      · exact before.short d member
      · rwa [List.mem_singleton.mp member]

theorem room_of_snoc {calls : List PollCall} (room : Room (added (calls ++ [c]))) :
    Room (added calls) := by
  rw [added_append] at room
  split at room
  · exact room
  · exact room.of_append

theorem InStep.of_append {calls : List PollCall} (inStep : InStep (calls ++ [c])) :
    InStep calls := by
  rintro past d later rfl
  exact inStep past d (later ++ [c]) (by simp)

/-- **When the tables are in step.** For every sequence of calls with non-negative
descriptors for which `realloc` succeeds: each call returns 0 without writing beyond a
table, finds its descriptor at exactly one index with the family and the name it was added
with, and leaves the entries of the other descriptors as they were, if and only if at most
32 descriptors are added, the first one with `AF_UNSPEC`, and each with a name that fits its
entry. -/
theorem pollAdds_inStep_iff (calls : List PollCall) (nonneg : ∀ c ∈ calls, 0 ≤ c.fd) :
    InStep calls ↔ Room (added calls) := by
  induction calls using List.reverseRecOn with
  | nil =>
      constructor
      · intro _
        exact ⟨by decide, fun c head => (by cases head), fun c member => (by cases member)⟩
      · intro _ past c later split
        simp at split
  | append_singleton calls c ih =>
      have before : ∀ d ∈ calls, 0 ≤ d.fd := fun d member =>
        nonneg d (List.mem_append_left _ member)
      have here : 0 ≤ c.fd := nonneg c (by simp)
      constructor
      · intro inStep
        have room := (ih before).mp inStep.of_append
        obtain ⟨t, t', reached, returns, kept⟩ := inStep calls c [] rfl
        rw [pollAdds_eq before room] at reached
        cases reached
        exact room_of_added before here room returns kept
      · intro room past d later split
        have smaller := room_of_snoc room
        rcases List.eq_nil_or_concat' later with rfl | ⟨later, last, rfl⟩
        · obtain ⟨rfl, same⟩ := List.append_inj' split rfl
          cases same
          obtain ⟨t', returns, kept⟩ := added_of_room before here room
          exact ⟨_, t', pollAdds_eq before smaller, returns, kept⟩
        · have shorter : calls ++ [c] = past ++ d :: later ++ [last] := by simpa using split
          obtain ⟨rfl, -⟩ := List.append_inj' shorter rfl
          exact (ih before).mpr smaller past d later rfl

/-- The administration socket, and a descriptor for `eth0` that is given twice. -/
theorem pollAdds_inStep_two :
    InStep [⟨3, afUnspec, none⟩, ⟨4, afInet, some ⟨Ifname.eth0.bytes, Ifname.eth0.noNul⟩⟩,
      ⟨4, afInet6, none⟩] :=
  (pollAdds_inStep_iff _ (by decide)).mpr
    ⟨by decide, by decide, by decide⟩

/-- Calls that keep the tables in step all return. -/
theorem InStep.returns {calls : List PollCall} (inStep : InStep calls) :
    ∃ t, initial.pollAdds calls = .ok t := by
  rcases List.eq_nil_or_concat' calls with rfl | ⟨past, c, rfl⟩
  · exact ⟨initial, rfl⟩
  · obtain ⟨t, t', reached, added, -⟩ := inStep past c [] rfl
    exact ⟨t', by rw [pollAdds_append, reached, ok_bind, added]; rfl⟩

/-- The administration socket, and 32 descriptors for `eth0`. -/
def manyCalls : List PollCall :=
  ⟨3, afUnspec, none⟩ :: (List.range 32).map fun i =>
    ⟨4 + i, afInet, some ⟨Ifname.eth0.bytes, Ifname.eth0.noNul⟩⟩

/-- **The 33rd descriptor overruns `poll_intfs`.** -/
theorem pollAdds_overrun : (∀ c ∈ manyCalls, 0 ≤ c.fd) ∧ ¬ InStep manyCalls ∧
    initial.pollAdds manyCalls = .error .overflow := by
  have overrun : initial.pollAdds manyCalls = .error .overflow := by decide +kernel
  refine ⟨by decide, fun inStep => ?_, overrun⟩
  obtain ⟨t, returned⟩ := inStep.returns
  rw [overrun] at returned
  cases returned

end PollTable

end VrrpDaemon
