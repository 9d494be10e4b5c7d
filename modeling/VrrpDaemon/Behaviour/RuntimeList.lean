import VrrpDaemon.Behaviour.Creation
import Mathlib.Data.List.Perm.Subperm

/-!
# The list of instances

`Linked s nodes` says that `inst_runtime_list` heads a doubly linked list of the
instances `nodes`, sorted by VRID, each with a VR of its own. It is a statement
about the shape of the heap, so whatever keeps the shape keeps it. The two
functions that edit the list keep it too: `Linked.link` and `Linked.unlink`.

Along a linked list every search terminates (`Linked.search`).
-/

set_option autoImplicit false

namespace VrrpDaemon

open Machine

namespace Daemon

/-- The daemon with other links between the instances. -/
def withLinks (s : Daemon) (next prev : DsPtr → Option DsPtr) : Daemon :=
  { s with next := next, prev := prev }

/-- The list headed by `inst_runtime_list`. -/
structure Linked (s : Daemon) (nodes : List DsPtr) : Prop where
  doubly : Doubly s.next s.prev instRuntimeList nodes
  header : instRuntimeList < s.dsTop
  allocated : ∀ v ∈ nodes, v < s.dsTop
  vrAllocated : ∀ v ∈ nodes, (s.ds v).vr < s.vrTop
  parent : ∀ v ∈ nodes, (s.vrs (s.ds v).vr).parent = v
  sorted : nodes.Pairwise fun u v => s.vrrpId u ≤ s.vrrpId v

/-- An instance is listed: it is met on the way along `next` from the header. -/
def Listed (s : Daemon) (v : DsPtr) : Prop :=
  ∃ nodes, Segment s.next (s.next instRuntimeList) nodes none ∧ v ∈ nodes

variable {s s' : Daemon} {nodes : List DsPtr}

theorem linked_initial : initial.Linked [] where
  doubly := ⟨rfl, trivial⟩
  header := Nat.zero_lt_one
  allocated := by simp
  vrAllocated := by simp
  parent := by simp
  sorted := .nil

/-- A list of pairwise different numbers below a bound is no longer than it. -/
theorem length_le_of_lt {l : List Nat} {bound : Nat} (nodup : l.Nodup)
    (below : ∀ n ∈ l, n < bound) : l.length ≤ bound := by
  have inside : l ⊆ List.range bound := fun n member => List.mem_range.mpr (below n member)
  simpa using (nodup.subperm inside).length_le

namespace Linked

theorem nodup (linked : s.Linked nodes) : nodes.Nodup :=
  (List.nodup_cons.mp linked.doubly.nodup).2

/-- The header is no instance. -/
theorem header_notMem (linked : s.Linked nodes) : instRuntimeList ∉ nodes :=
  (List.nodup_cons.mp linked.doubly.nodup).1

/-- A heap has at most one list of instances. -/
theorem unique {others : List DsPtr} (linked : s.Linked nodes) (same : s.Linked others) :
    nodes = others :=
  linked.doubly.1.unique same.doubly.1

theorem listed_iff (linked : s.Linked nodes) {v : DsPtr} : s.Listed v ↔ v ∈ nodes := by
  constructor
  · rintro ⟨others, segment, member⟩
    rw [linked.doubly.1.unique segment]
    exact member
  · exact fun member => ⟨nodes, linked.doubly.1, member⟩

/-- The instance that `inst_runtime_list` points to is listed. -/
theorem first_mem (linked : s.Linked nodes) {first : DsPtr}
    (found : s.next instRuntimeList = some first) : first ∈ nodes := by
  have segment := linked.doubly.1
  rw [found] at segment
  cases nodes with
  | nil => cases segment
  | cons v nodes =>
      cases segment.1
      exact List.mem_cons_self

theorem length_le (linked : s.Linked nodes) : nodes.length ≤ s.dsTop :=
  length_le_of_lt linked.nodup linked.allocated

/-- **Every search terminates**, and selects among the listed instances. -/
theorem search (linked : s.Linked nodes) (key : Key) :
    s.vrrpSearchInst key = .ok (s.select key nodes) :=
  vrrpSearchInst_eq linked.doubly.1 linked.length_le

theorem select_of_search (linked : s.Linked nodes) {key : Key} {found : Option DsPtr}
    (searched : s.vrrpSearchInst key = .ok found) : s.select key nodes = found :=
  Except.ok.inj ((linked.search key).symm.trans searched)

/-- A search finds listed instances only. -/
theorem mem_of_search (linked : s.Linked nodes) {key : Key} {v : DsPtr}
    (searched : s.vrrpSearchInst key = .ok (some v)) : v ∈ nodes :=
  select_mem (linked.select_of_search searched)

/-- Instances in a list have VRs of their own. -/
theorem vr_inj (linked : s.Linked nodes) {u v : DsPtr} (memberU : u ∈ nodes)
    (memberV : v ∈ nodes) (same : (s.ds u).vr = (s.ds v).vr) : u = v := by
  rw [← linked.parent u memberU, ← linked.parent v memberV, same]

/-- Whatever keeps the shape of the heap keeps the list. -/
theorem of_shape (linked : s.Linked nodes) (same : s'.shape = s.shape) : s'.Linked nodes := by
  have next : s'.next = s.next := congrArg Shape.next same
  have prev : s'.prev = s.prev := congrArg Shape.prev same
  have dsTop : s'.dsTop = s.dsTop := congrArg Shape.dsTop same
  have vrTop : s'.vrTop = s.vrTop := congrArg Shape.vrTop same
  have vrOf : ∀ v, (s'.ds v).vr = (s.ds v).vr := congrFun (congrArg Shape.vrOf same)
  have parent : ∀ p, (s'.vrs p).parent = (s.vrs p).parent := congrFun (congrArg Shape.parent same)
  have vr : ∀ p, (s'.vrs p).vr = (s.vrs p).vr := congrFun (congrArg Shape.vr same)
  have vid : ∀ v, s'.vrrpId v = s.vrrpId v := fun v => by
    simp only [vrrpId, Daemon.vr, vrOf, vr]
  refine ⟨?_, ?_, ?_, ?_, ?_, ?_⟩
  · rw [next, prev]
    exact linked.doubly
  · rw [dsTop]
    exact linked.header
  · rw [dsTop]
    exact linked.allocated
  · simp only [vrOf, vrTop]
    exact linked.vrAllocated
  · simp only [vrOf, parent]
    exact linked.parent
  · simp only [vid]
    exact linked.sorted

/-- Heaps of one shape search alike. -/
theorem search_congr (linked : s.Linked nodes) (same : s'.shape = s.shape) (key : Key) :
    s'.vrrpSearchInst key = s.vrrpSearchInst key := by
  rw [linked.search, (linked.of_shape same).search, select_congr same]

/-- The records of what is listed stay when the heap grows. -/
theorem records_of_grows (linked : s.Linked nodes) (grows : s.Grows s') {v : DsPtr}
    (member : v ∈ nodes) : s'.ds v = s.ds v ∧ s'.vr v = s.vr v := by
  have ds := grows.ds v (linked.allocated v member)
  refine ⟨ds, ?_⟩
  rw [Daemon.vr, Daemon.vr, ds, grows.vrs _ (linked.vrAllocated v member)]

/-- The list stays as it is when the heap grows. -/
theorem of_grows (linked : s.Linked nodes) (grows : s.Grows s') : s'.Linked nodes := by
  have ds : ∀ v ∈ nodes, s'.ds v = s.ds v := fun v member =>
    (linked.records_of_grows grows member).1
  have vr : ∀ v ∈ nodes, s'.vr v = s.vr v := fun v member =>
    (linked.records_of_grows grows member).2
  have vid : ∀ v ∈ nodes, s'.vrrpId v = s.vrrpId v := fun v member => by
    rw [vrrpId, vrrpId, vr v member]
  refine ⟨⟨?_, ?_⟩, ?_, ?_, ?_, ?_, ?_⟩
  · rw [grows.next _ linked.header]
    exact linked.doubly.1.congr fun v member => grows.next v (linked.allocated v member)
  · exact linked.doubly.2.congr fun v member => grows.prev v (linked.allocated v member)
  · exact Nat.lt_of_lt_of_le linked.header grows.dsTop
  · exact fun v member => Nat.lt_of_lt_of_le (linked.allocated v member) grows.dsTop
  · intro v member
    rw [ds v member]
    exact Nat.lt_of_lt_of_le (linked.vrAllocated v member) grows.vrTop
  · intro v member
    have parent : (s'.vr v).parent = v := by
      rw [vr v member]
      exact linked.parent v member
    exact parent
  · refine linked.sorted.imp_of_mem fun memberU memberV ordered => ?_
    rw [vid _ memberU, vid _ memberV]
    exact ordered

end Linked

/-! ## Linking an instance -/

/-- The loop stops at the first listed instance whose VRID is not smaller, or at
the last one. -/
theorem placeLoop_outcome {vid : UInt8} {first : DsPtr} {fuel : Nat} {curr : DsPtr}
    (segment : Segment s.next (some first) nodes none)
    (placed : s.placeLoop vid fuel first = .ok curr) :
    ∃ before after, nodes = before ++ curr :: after ∧ (∀ v ∈ before, s.vrrpId v < vid) ∧
      (s.vrrpId curr < vid → after = []) := by
  induction nodes generalizing first fuel with
  | nil => cases segment
  | cons v nodes ih =>
      obtain ⟨start, rest⟩ := segment
      cases start
      unfold placeLoop at placed
      split at placed
      · rename_i smaller
        split at placed
        · rename_i last
          cases placed
          rw [last] at rest
          cases nodes with
          | nil => exact ⟨[], [], rfl, by simp, fun _ => rfl⟩
          | cons u nodes => cases rest.1
        · rename_i after more
          cases fuel with
          | zero => cases placed
          | succ fuel =>
              rw [more] at rest
              obtain ⟨before, behind, split, below, last⟩ := ih rest placed
              refine ⟨_ :: before, behind, by rw [split]; rfl, ?_, last⟩
              intro u member
              rcases List.mem_cons.mp member with rfl | member
              · exact smaller
              · exact below u member
      · rename_i stop
        cases placed
        exact ⟨[], nodes, rfl, by simp, fun smaller => absurd smaller stop⟩

/-- **Linking an instance** edits links only, and puts it behind the instances of
smaller VRID and before those of equal or greater VRID. -/
theorem linkInst_outcome {new : DsPtr} (linked : s.Linked nodes)
    (fresh : new ∉ instRuntimeList :: nodes) (returns : s.linkInst new = .ok s') :
    ∃ next prev before after, s' = s.withLinks next prev ∧ nodes = before ++ after ∧
      (∀ v ∈ before, s.vrrpId v < s.vrrpId new) ∧ (∀ v ∈ after, s.vrrpId new ≤ s.vrrpId v) ∧
      Doubly next prev instRuntimeList (before ++ new :: after) := by
  cases first : s.next instRuntimeList with
  | none =>
      simp only [linkInst, first] at returns
      cases returns
      have nothing : nodes = [] := by
        have segment := linked.doubly.1
        rw [first] at segment
        exact segment.unique rfl
      subst nothing
      refine ⟨_, _, [], [], rfl, rfl, by simp, by simp, ?_⟩
      exact @Doubly.append _ _ _ _ _ _ [] _ _ linked.doubly rfl fresh
  | some start =>
      simp only [linkInst, first] at returns
      obtain ⟨curr, placed, returns⟩ := bind_eq_ok.mp returns
      have segment := linked.doubly.1
      rw [first] at segment
      obtain ⟨before, after, rfl, below, last⟩ := placeLoop_outcome segment placed
      split at returns
      · rename_i smaller
        cases returns
        obtain rfl := last smaller
        refine ⟨_, _, before ++ [curr], [], rfl, by simp, ?_, by simp, ?_⟩
        · intro v member
          rcases List.mem_append.mp member with early | isCurr
          · exact below v early
          · rw [List.mem_singleton.mp isCurr]
            exact smaller
        · exact @Doubly.append _ _ _ _ _ _ (instRuntimeList :: before) _ _ linked.doubly rfl fresh
      · rename_i notSmaller
        have currNew : curr ≠ new := fun same => fresh (by simp [← same])
        obtain ⟨-, a, -, -, prevCurr⟩ := linked.doubly.seam
        simp only [Function.update_of_ne currNew, prevCurr, deref_some, ok_bind] at returns
        cases returns
        refine ⟨_, _, before, curr :: after, rfl, rfl, below, ?_, ?_⟩
        · have sorted := (List.pairwise_append.mp linked.sorted).2.1
          have least : s.vrrpId new ≤ s.vrrpId curr := UInt8.not_lt.mp notSmaller
          intro v member
          rcases List.mem_cons.mp member with rfl | behind
          · exact least
          · exact UInt8.le_trans least ((List.pairwise_cons.mp sorted).1 v behind)
        · exact linked.doubly.insert fresh prevCurr

/-- The VRID of an instance before and after records were allocated for a new one. -/
theorem Linked.vrrpId_withInst {v : DsPtr} (linked : s.Linked nodes) (inst : VrrpInst)
    (member : v ∈ nodes) : (s.withInst inst).vrrpId v = s.vrrpId v := by
  rw [vrrpId, vrrpId, (linked.records_of_grows (grows_withInst inst s) member).2]

theorem vrrpId_withInst_self (inst : VrrpInst) :
    (s.withInst inst).vrrpId s.dsTop = inst.viVr.vrId := by
  simp [vrrpId, vr, withInst]

/-- A new instance in the list: everything but the links is as the allocation
left it. It stands before the first instance whose VRID is not smaller. -/
theorem Linked.link_place {inst : VrrpInst} (linked : s.Linked nodes)
    (returns : (s.withInst inst).linkInst s.dsTop = .ok s') :
    ∃ next prev before after, s' = (s.withInst inst).withLinks next prev ∧
      nodes = before ++ after ∧ s'.Linked (before ++ s.dsTop :: after) ∧
      (∀ u ∈ before, s.vrrpId u < inst.viVr.vrId) ∧ ∀ u ∈ after, inst.viVr.vrId ≤ s.vrrpId u := by
  have grown := linked.of_grows (grows_withInst inst s)
  have fresh : s.dsTop ∉ instRuntimeList :: nodes := by
    intro member
    rcases List.mem_cons.mp member with same | member
    · exact Nat.lt_irrefl _ (same ▸ linked.header)
    · exact Nat.lt_irrefl _ (linked.allocated _ member)
  obtain ⟨next, prev, before, after, rfl, rfl, below, above, doubly⟩ :=
    linkInst_outcome grown fresh returns
  refine ⟨next, prev, before, after, rfl, rfl, ?_, ?_, ?_⟩
  rotate_left
  · intro u member
    have smaller := below u member
    rwa [linked.vrrpId_withInst inst (List.mem_append_left _ member), vrrpId_withInst_self]
      at smaller
  · intro u member
    have greater := above u member
    rwa [linked.vrrpId_withInst inst (List.mem_append_right _ member), vrrpId_withInst_self]
      at greater
  have newDs : (s.withInst inst).ds s.dsTop =
      { vr := s.vrTop, active := inst.viActive, state := .init, pid := 0 } := Function.update_self ..
  have newVr : ((s.withInst inst).vrs s.vrTop).parent = s.dsTop := by simp [withInst]
  have members : ∀ v ∈ before ++ s.dsTop :: after, v = s.dsTop ∨ v ∈ before ++ after :=
    fun v member => List.mem_cons.mp (List.perm_middle.mem_iff.mp member)
  refine ⟨doubly, Nat.succ_pos _, ?_, ?_, ?_, ?_⟩
  · intro v member
    rcases members v member with rfl | old
    · exact Nat.lt_succ_self _
    · exact grown.allocated v old
  · intro v member
    show ((s.withInst inst).ds v).vr < s.vrTop + 1
    rcases members v member with rfl | old
    · rw [newDs]
      exact Nat.lt_succ_self _
    · exact grown.vrAllocated v old
  · intro v member
    show ((s.withInst inst).vrs ((s.withInst inst).ds v).vr).parent = v
    rcases members v member with rfl | old
    · rw [newDs]
      exact newVr
    · exact grown.parent v old
  · have sorted := List.pairwise_append.mp grown.sorted
    refine List.pairwise_append.mpr ⟨sorted.1, List.pairwise_cons.mpr ⟨above, sorted.2.1⟩, ?_⟩
    intro u memberU v memberV
    rcases List.mem_cons.mp memberV with rfl | memberV
    · exact UInt8.le_of_lt (below u memberU)
    · exact sorted.2.2 u memberU v memberV

theorem Linked.link {inst : VrrpInst} (linked : s.Linked nodes)
    (returns : (s.withInst inst).linkInst s.dsTop = .ok s') :
    ∃ next prev before after, s' = (s.withInst inst).withLinks next prev ∧
      nodes = before ++ after ∧ s'.Linked (before ++ s.dsTop :: after) := by
  obtain ⟨next, prev, before, after, same, split, inserted, -⟩ := linked.link_place returns
  exact ⟨next, prev, before, after, same, split, inserted⟩

/-! ## Unlinking an instance -/

/-- The links that `vrrp_destroy_inst` edits: those of the nodes around its instance. -/
theorem unlinkInst_links {victim a : DsPtr} (prevVictim : s.prev victim = some a)
    (returns : s.unlinkInst victim = .ok s') :
    ∃ next prev, s' = s.withLinks next prev ∧
      next a = s.next victim ∧ (∀ b, b ≠ a → next b = s.next b) ∧
      (∀ b, s.next victim = some b → prev b = some a) ∧
      ∀ b, s.next victim ≠ some b → prev b = s.prev b := by
  simp only [unlinkInst, prevVictim, deref_some, ok_bind] at returns
  have nextVictim : Function.update s.next a (s.next victim) victim = s.next victim := by
    by_cases same : victim = a
    · rw [same, Function.update_self]
    · rw [Function.update_of_ne same]
  rw [nextVictim] at returns
  cases behind : s.next victim with
  | none =>
      rw [behind] at returns
      cases returns
      refine ⟨_, _, rfl, by simp, fun b other => by simp [Function.update_of_ne other], ?_,
        fun b _ => rfl⟩
      intro b next
      cases next
  | some n =>
      rw [behind] at returns
      cases returns
      refine ⟨_, _, rfl, by simp, fun b other => by simp [Function.update_of_ne other], ?_, ?_⟩
      · intro b next
        cases next
        simp
      · intro b other
        have distinct : b ≠ n := fun same => other (by rw [same])
        simp [Function.update_of_ne distinct]

/-- **Unlinking an instance** edits links only, and takes it out of the list. -/
theorem Linked.unlink {victim : DsPtr} (linked : s.Linked nodes) (member : victim ∈ nodes)
    (returns : s.unlinkInst victim = .ok s') :
    ∃ next prev before after, s' = s.withLinks next prev ∧ nodes = before ++ victim :: after ∧
      s'.Linked (before ++ after) := by
  obtain ⟨before, after, rfl⟩ := List.append_of_mem member
  obtain ⟨front, a, seam, -, prevVictim⟩ := linked.doubly.seam
  obtain ⟨next, prev, rfl, nextSeam, nextOther, prevAfter, prevOther⟩ :=
    unlinkInst_links prevVictim returns
  refine ⟨next, prev, before, after, rfl, rfl, ?_⟩
  have shorter : (before ++ after).Sublist (before ++ victim :: after) := by simp
  refine ⟨linked.doubly.unlink seam nextSeam nextOther prevAfter prevOther, linked.header,
    ?_, ?_, ?_, ?_⟩
  · exact fun v member => linked.allocated v (shorter.subset member)
  · exact fun v member => linked.vrAllocated v (shorter.subset member)
  · exact fun v member => linked.parent v (shorter.subset member)
  · exact linked.sorted.sublist shorter

end Daemon

end VrrpDaemon
