import VrrpDaemon.Behaviour.Keys

/-!
# Keys of instances

`vrrp_check_conflict` is there to find out whether an instance with the
parameters of a request exists. It asks `vrrp_search_inst`, where a missing part
of the key is a wildcard and two matches count as none. The answer is right for
every full key. For another key it is right when exactly one listed instance is
compatible with it if its triple is taken, and not exactly one if it is free
(`vrrpCreateInst_evrexist`). Where the answer is right at each create, no two
listed instances share their key.
-/

set_option autoImplicit false

namespace VrrpDaemon

open Machine

namespace Daemon

variable {w : World} {s s' : Daemon} {nodes : List DsPtr}

/-- A listed instance has this VRID, interface name and address family. -/
def Taken (s : Daemon) (key : Key) : Prop := ∃ v, s.Listed v ∧ s.key v = key

/-- When the search tells whether the key is taken: no part of it is missing, or
exactly one listed instance is compatible with its parts if it is taken, and not
exactly one if it is free. -/
def Tells (s : Daemon) (key : Key) : Prop :=
  key.isFull = true ∨ (s.Taken key ↔ ∃! v, s.Listed v ∧ s.matchesPart key v = true)

/-- No two listed instances share their key. -/
def KeysDistinct (s : Daemon) : Prop :=
  ∀ u v, s.Listed u → s.Listed v → s.key u = s.key v → u = v

/-! ## What the search finds -/

theorem taken_iff (linked : s.Linked nodes) {key : Key} :
    s.Taken key ↔ ∃ v ∈ nodes, s.key v = key := by
  simp only [Taken, linked.listed_iff]

/-- A list without repetition has exactly one element that passes a test exactly
when filtering leaves one. -/
theorem onlyOne_filter_iff {l : List DsPtr} (nodup : l.Nodup) (test : DsPtr → Bool) :
    (∃ v, onlyOne (l.filter test) = some v) ↔ ∃! v, v ∈ l ∧ test v = true := by
  refine exists_congr fun v => ?_
  rw [onlyOne_eq_some, filter_eq_singleton_iff nodup]
  constructor
  · exact fun only => ⟨(only v).mpr rfl, fun u => (only u).mp⟩
  · rintro ⟨passes, only⟩ u
    exact ⟨only u, fun same => same ▸ passes⟩

/-- **The search finds an instance** for a full key exactly when the key is
taken, and for any other key exactly when one listed instance is compatible. -/
theorem select_isSome_iff (linked : s.Linked nodes) (key : Key) :
    (∃ v, s.select key nodes = some v) ↔
      if key.isFull then s.Taken key else ∃! v, s.Listed v ∧ s.matchesPart key v = true := by
  simp only [select, linked.listed_iff]
  cases full : key.isFull with
  | false => exact onlyOne_filter_iff linked.nodup (s.matchesPart key)
  | true =>
      simp only [reduceIte]
      rw [taken_iff linked, ← Option.isSome_iff_exists, List.find?_isSome]
      simp only [matchesFull_iff full]

/-- The answer of the conflict check. -/
theorem evrexist_iff_select (linked : s.Linked nodes) {inst : VrrpInst}
    (delay : inst.viVa.delay > 0) (ipnum : inst.viVr.vrIpnum > 0) :
    (∃ made s', s.vrrpCreateInst w inst = .ok (VrrpRet.evrexist.code, made, s')) ↔
      ∃ v, s.select inst.key nodes = some v := by
  simp only [vrrpCreateInst, delay, ipnum, not_true_eq_false, reduceIte, vrrpCheckConflict,
    vrrpSearchVr, linked.search, ok_bind]
  cases s.select inst.key nodes with
  | some v => simp [VrrpRet.code]
  | none =>
      simp only [Option.map_none, ok_bind, ne_eq, not_true_eq_false, reduceIte, reduceCtorEq,
        exists_const, iff_false]
      rintro ⟨made, s', returns⟩
      split at returns
      · cases returns
      · obtain ⟨s₁, -, returns⟩ := bind_eq_ok.mp returns
        cases returns

/-- Finding an instance means that the key is taken, exactly when the search
tells. -/
theorem tells_iff (linked : s.Linked nodes) (key : Key) :
    ((∃ v, s.select key nodes = some v) ↔ s.Taken key) ↔ s.Tells key := by
  rw [select_isSome_iff linked, Tells]
  cases full : key.isFull with
  | true => simp
  | false =>
      simp only [Bool.false_eq_true, reduceIte, false_or]
      exact iff_comm

/-! ## Runs -/

/-- A create that passes the checks of its attributes asks for a key that the
search tells about. -/
def CreatesTold (s : Daemon) (op : Op) : Prop :=
  ∀ inst, op = .command (.create inst) → inst.viVa.delay > 0 → inst.viVr.vrIpnum > 0 →
    s.Tells inst.key

theorem keysDistinct_iff (linked : s.Linked nodes) :
    s.KeysDistinct ↔ s.DistinctAmong (fun _ => True) nodes := by
  simp only [KeysDistinct, DistinctAmong, linked.listed_iff, true_implies]
  exact ⟨fun distinct u memberU v memberV => distinct u v memberU memberV,
    fun distinct u v memberU memberV => distinct u memberU v memberV⟩

/-- The step lemma: a create that is told its key is free keeps the keys
distinct. -/
theorem keysDistinct_step {op : Op} (linked : s.Linked nodes) (distinct : s.KeysDistinct)
    (told : CreatesTold s op) (returns : step w op s = .ok s') : s'.KeysDistinct := by
  obtain ⟨nodes', outcome⟩ := step_list linked returns
  refine (keysDistinct_iff outcome.linked).mpr
    (distinctAmong_step outcome ((keysDistinct_iff linked).mp distinct) ?_)
  intro inst s₁ v here created _ x member taken
  rcases vrrpCreateInst_outcome created with ⟨failed, -⟩ | ⟨-, -, accepted, searched, -⟩
  · exact failed rfl
  · have tells := told inst here accepted.1 accepted.2
    obtain ⟨v, selected⟩ := ((tells_iff linked _).mpr tells).mpr
      ((taken_iff linked).mpr ⟨x, member, taken⟩)
    cases (linked.select_of_search searched).symm.trans selected

/-- The run lemma. -/
theorem keysDistinct_of_run {ops : List Op} (run : Run (step w) CreatesTold initial ops s) :
    s.KeysDistinct := by
  have both : (∃ nodes, s.Linked nodes) ∧ s.KeysDistinct := by
    refine run.invariant (fun s : Daemon => (∃ nodes, s.Linked nodes) ∧ s.KeysDistinct) ?_ ?_
    · refine ⟨⟨[], linked_initial⟩, fun u v listed => ?_⟩
      cases linked_initial.listed_iff.mp listed
    · rintro s op s' ⟨⟨nodes, linked⟩, distinct⟩ told returns
      obtain ⟨nodes', outcome⟩ := step_list linked returns
      exact ⟨⟨nodes', outcome.linked⟩, keysDistinct_step linked distinct told returns⟩
  exact both.2

/-- **When keys are unique.** In every reachable state and for every request with
a positive interval and an address, `vrrp_create_inst` answers
`VRRP_EVREXIST` exactly for the keys that are taken if and only if the search
tells about the request's key. In every run whose creates are all told, no two
listed instances share their key. -/
theorem vrrpCreateInst_evrexist (w : World) :
    (∀ s, Reachable w s → ∀ inst : VrrpInst, inst.viVa.delay > 0 → inst.viVr.vrIpnum > 0 →
      (((∃ made s', s.vrrpCreateInst w inst = .ok (VrrpRet.evrexist.code, made, s')) ↔
        s.Taken inst.key) ↔ s.Tells inst.key)) ∧
    ∀ ops s, Run (step w) CreatesTold initial ops s → s.KeysDistinct := by
  refine ⟨fun s reachable inst delay ipnum => ?_, fun ops s run => keysDistinct_of_run run⟩
  obtain ⟨nodes, linked⟩ := reachable.linked
  rw [evrexist_iff_select linked delay ipnum]
  exact tells_iff linked inst.key

/-- After a first create of VRID 7 the keys are distinct, and a second one is
refused. -/
theorem vrrpCreateInst_evrexist_run :
    ∃ s, Run (step .plain) CreatesTold initial [.create 7 100] s ∧ s.KeysDistinct ∧
      (((∃ made s', s.vrrpCreateInst .plain (.sample 7 50) =
        .ok (VrrpRet.evrexist.code, made, s')) ↔ s.Taken (.sample 7)) ↔ s.Tells (.sample 7)) := by
  have ran : passes (fun _ => true) (step .plain (.create 7 100) initial) = true := by
    decide +kernel
  obtain ⟨s, returns, -⟩ := exists_of_passes ran
  have told : CreatesTold initial (.create 7 100) := by
    rintro inst ⟨⟩ - -
    exact .inl (by decide)
  have run : Run (step .plain) CreatesTold initial [.create 7 100] s := .snoc .nil told returns
  exact ⟨s, run, (vrrpCreateInst_evrexist .plain).2 _ s run,
    (vrrpCreateInst_evrexist .plain).1 s ⟨_, run.forget⟩ (.sample 7 50) (by decide) (by decide)⟩

/-- **A request with VRID 0 defeats the check.** After the create of VRID 7 alone
it is refused although its key is free; after those of VRIDs 0 and 7 it is
accepted, and two listed instances share the key. -/
theorem vrrpCreateInst_evrexist_wildcard :
    (∃ s, Run (step .plain) unguarded initial [.create 7 100] s ∧ ¬ s.Taken (.sample 0) ∧
      ∃ s', s.vrrpCreateInst .plain (.sample 0 100) = .ok (VrrpRet.evrexist.code, none, s')) ∧
    ∃ s, Run (step .plain) unguarded initial [.create 0 100, .create 7 100, .create 0 100] s ∧
      ¬ s.KeysDistinct := by
  constructor
  · have ran : passes (fun s => s.next instRuntimeList == some 1 && s.next 1 == none &&
        s.key 1 == .sample 7 && passes (fun reply => reply.1 == 1 && reply.2.1 == none)
          (s.vrrpCreateInst .plain (.sample 0 100)))
        (exec (step .plain) [.create 7 100] initial) = true := by decide +kernel
    obtain ⟨s, returns, tested⟩ := exists_of_passes ran
    simp only [Bool.and_eq_true, beq_iff_eq] at tested
    obtain ⟨⟨⟨first, last⟩, seven⟩, answered⟩ := tested
    refine ⟨s, run_of_exec returns, ?_, ?_⟩
    · rintro ⟨v, ⟨nodes, segment, member⟩, taken⟩
      have one : Segment s.next (s.next instRuntimeList) [1] none := ⟨first, last⟩
      rw [segment.unique one, List.mem_singleton] at member
      rw [member, seven] at taken
      exact absurd taken (by decide)
    · obtain ⟨⟨ret, made, s'⟩, returns, reply⟩ := exists_of_passes answered
      simp only [Bool.and_eq_true, beq_iff_eq] at reply
      obtain ⟨rfl, rfl⟩ := reply
      exact ⟨s', returns⟩
  · have ran : passes (fun s => s.next instRuntimeList == some 3 && s.next 3 == some 1 &&
        s.next 1 == some 2 && s.next 2 == none && s.key 1 == s.key 3)
        (exec (step .plain) [.create 0 100, .create 7 100, .create 0 100] initial) = true := by
      decide +kernel
    obtain ⟨s, returns, tested⟩ := exists_of_passes ran
    simp only [Bool.and_eq_true, beq_iff_eq] at tested
    obtain ⟨⟨⟨⟨first, second⟩, third⟩, last⟩, same⟩ := tested
    refine ⟨s, run_of_exec returns, fun distinct => ?_⟩
    have segment : Segment s.next (s.next instRuntimeList) [3, 1, 2] none :=
      ⟨first, second, third, last⟩
    have equal := distinct 1 3 ⟨_, segment, by simp⟩ ⟨_, segment, by simp⟩ same
    cases equal

end Daemon

end VrrpDaemon
