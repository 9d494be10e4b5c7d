import VrrpDaemon.Behaviour.Keys

/-!
# The two searches agree

`vrrp_search_inst_full` stops at the first match, `vrrp_search_inst_part` looks for
a second one and gives up when it finds it. On a list of instances with pairwise
distinct keys both find what the key designates: the only listed instance that
agrees with all of its parts that are given (`vrrpSearchInst_designates`).
-/

set_option autoImplicit false

namespace VrrpDaemon

open Machine

/-- A VRID, a name and a family agree with every part of the key that is given. -/
structure Key.Admits (key : Key) (vid : UInt8) (ifname : Ifname) (af : Int) : Prop where
  vid : key.vid = 0 ∨ vid = key.vid
  ifname : ∀ name, key.ifname = some name → name.bytes = [] ∨ ifname = name
  af : key.af = afUnspec ∨ af = key.af

namespace Daemon

variable {s : Daemon} {nodes : List DsPtr} {key : Key} {v : DsPtr}

/-- The key agrees with this one of the nodes, and with no other one. -/
def Designates (s : Daemon) (nodes : List DsPtr) (key : Key) (v : DsPtr) : Prop :=
  ∀ u, (u ∈ nodes ∧ key.Admits (s.vrrpId u) (s.vrrpIfname u) (s.vrrpAf u)) ↔ u = v

/-- The test of the name. -/
theorem nameMissing_or_sameName {ifname : Option Ifname} {own : Ifname} :
    (nameMissing ifname || sameName ifname own) = true ↔
      ∀ name, ifname = some name → name.bytes = [] ∨ own = name := by
  cases ifname with
  | none => simp [nameMissing]
  | some name =>
      simp only [nameMissing, sameName, Bool.or_eq_true, List.isEmpty_iff, decide_eq_true_eq,
        Ifname.strncmp_iff, Option.some.injEq]
      constructor
      · rintro agrees _ rfl
        exact agrees.imp_right Eq.symm
      · exact fun agrees => (agrees name rfl).imp_right Eq.symm

/-- The three tests of the loop ask whether the key agrees with the instance. -/
theorem matchesPart_iff :
    s.matchesPart key v = true ↔ key.Admits (s.vrrpId v) (s.vrrpIfname v) (s.vrrpAf v) := by
  simp only [matchesPart, Bool.and_eq_true, nameMissing_or_sameName]
  simp only [Bool.or_eq_true, decide_eq_true_eq]
  constructor
  · rintro ⟨⟨vid, af⟩, ifname⟩
    exact ⟨vid, ifname, af⟩
  · rintro ⟨vid, ifname, af⟩
    exact ⟨⟨vid, af⟩, ifname⟩

theorem designates_iff (nodup : nodes.Nodup) :
    s.Designates nodes key v ↔ onlyOne (nodes.filter (s.matchesPart key)) = some v := by
  rw [onlyOne_eq_some, filter_eq_singleton_iff nodup]
  simp only [Designates, matchesPart_iff]

/-- Distinct keys are distinct among the full ones. -/
theorem distinctAmong_of_pairwise {kind : Key → Prop}
    (distinct : nodes.Pairwise fun u v => s.key u ≠ s.key v) : s.DistinctAmong kind nodes := by
  have nodup : (nodes.map s.key).Nodup := List.pairwise_map.mpr distinct
  exact fun u memberU v memberV _ same => List.inj_on_of_nodup_map nodup memberU memberV same

/-- **A search returns what its key designates**, whichever loop it takes. For every
list of instances with pairwise distinct keys and every key, `vrrp_search_inst`
terminates; it returns an instance exactly when that is the only listed one that
agrees with the key, and null exactly when there is none or more than one. For a key
of which every part is given, the search for the first match and the search that
counts the matches return the same. -/
theorem vrrpSearchInst_designates (s : Daemon) (nodes : List DsPtr)
    (ends : Segment s.next (s.next instRuntimeList) nodes none) (bounded : nodes.length ≤ s.dsTop)
    (distinct : nodes.Pairwise fun u v => s.key u ≠ s.key v) (key : Key) :
    (∀ v, s.vrrpSearchInst key = .ok (some v) ↔ s.Designates nodes key v) ∧
      (s.vrrpSearchInst key = .ok none ↔ ¬ ∃ v, s.Designates nodes key v) ∧
      (key.isFull = true → s.vrrpSearchInstFull key = s.vrrpSearchInstPart key) := by
  have nodup := ends.nodup
  have among : s.DistinctAmong (·.isFull = true) nodes := distinctAmong_of_pairwise distinct
  have searched : s.vrrpSearchInst key = .ok (onlyOne (nodes.filter (s.matchesPart key))) := by
    rw [vrrpSearchInst_eq ends bounded, select_eq_onlyOne nodup among]
  refine ⟨fun v => ?_, ?_, fun full => ?_⟩
  · rw [searched, designates_iff nodup, Except.ok.injEq]
  · simp only [searched, designates_iff nodup, Except.ok.injEq, ← Option.ne_none_iff_exists',
      not_not]
  · rw [vrrpSearchInstFull, vrrpSearchInstPart, searchFullLoop_eq ends bounded,
      searchPartLoop_eq ends bounded, find?_matchesFull nodup among full]

/-- With two instances of different VRIDs, the interface alone designates none. -/
theorem vrrpSearchInst_designates_two :
    ∃ s, Reachable .plain s ∧ s.vrrpSearchInst (.sample 8) = .ok (some 2) ∧
      s.Designates [1, 2] (.sample 8) 2 ∧ ¬ ∃ v, s.Designates [1, 2] ⟨0, some .eth0, afUnspec⟩ v := by
  have ran : passes (fun s => s.next instRuntimeList == some 1 && s.next 1 == some 2 &&
      s.next 2 == none && s.dsTop == 3 && s.vrrpId 1 == 7 && s.vrrpId 2 == 8 &&
      passes (· == some 2) (s.vrrpSearchInst (.sample 8)) &&
      passes (· == none) (s.vrrpSearchInst ⟨0, some .eth0, afUnspec⟩))
      (exec (step .plain) [.create 7 100, .create 8 100] initial) = true := by decide +kernel
  obtain ⟨s, returns, tested⟩ := exists_of_passes ran
  simp only [Bool.and_eq_true, beq_iff_eq] at tested
  obtain ⟨⟨⟨⟨⟨⟨⟨first, second⟩, last⟩, top⟩, seven⟩, eight⟩, found⟩, missed⟩ := tested
  obtain ⟨_, searched, two⟩ := exists_of_passes found
  obtain rfl := beq_iff_eq.mp two
  obtain ⟨_, failed, nothing⟩ := exists_of_passes missed
  obtain rfl := beq_iff_eq.mp nothing
  have ends : Segment s.next (s.next instRuntimeList) [1, 2] none := ⟨first, second, last⟩
  have apart : s.key 1 ≠ s.key 2 := by
    intro same
    have vids := congrArg Key.vid same
    simp only [key, seven, eight] at vids
    cases vids
  have agrees := fun key =>
    vrrpSearchInst_designates s [1, 2] ends (by simp [top]) (by simpa using apart) key
  exact ⟨s, ⟨_, run_of_exec returns⟩, searched, ((agrees _).1 2).mp searched,
    (agrees _).2.1.mp failed⟩

end Daemon

end VrrpDaemon
