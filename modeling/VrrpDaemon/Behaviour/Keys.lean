import VrrpDaemon.Behaviour.Steps

/-!
# Searching in a reachable state

No two listed instances share a key of which no part is missing: a create that
asks for such a key is refused when it is taken. So in a reachable state the two
searches agree. A search finds an instance exactly when that instance is the only
listed one that is compatible with the key (`Reachable.search_iff`).

That the keys stay distinct is shown for the keys of any kind that a create finds
free (`distinctAmong_step`).
-/

set_option autoImplicit false

namespace VrrpDaemon

open Machine

namespace Daemon

variable {w : World} {s s' : Daemon} {nodes nodes' : List DsPtr} {key : Key} {v : DsPtr}

/-- Exactly this one of the listed instances is compatible with the key. -/
def Only (s : Daemon) (key : Key) (v : DsPtr) : Prop :=
  ∀ u, (s.Listed u ∧ s.matchesPart key u = true) ↔ u = v

/-- No two listed instances share a key of this kind. -/
def DistinctAmong (kind : Key → Prop) (s : Daemon) (nodes : List DsPtr) : Prop :=
  ∀ u ∈ nodes, ∀ v ∈ nodes, kind (s.key u) → s.key u = s.key v → u = v

/-! ## The only compatible instance -/

/-- A list without repetition has exactly one element that passes a test exactly
when filtering leaves that one. -/
theorem filter_eq_singleton_iff {l : List DsPtr} (nodup : l.Nodup) (test : DsPtr → Bool) :
    l.filter test = [v] ↔ ∀ u, (u ∈ l ∧ test u = true) ↔ u = v := by
  constructor
  · intro one u
    rw [← List.mem_filter, one, List.mem_singleton]
  · intro only
    refine List.perm_singleton.mp ?_
    refine (List.perm_ext_iff_of_nodup (nodup.filter test) (List.nodup_singleton v)).mpr ?_
    intro u
    rw [List.mem_filter, List.mem_singleton]
    exact only u

theorem Linked.only_iff (linked : s.Linked nodes) :
    s.Only key v ↔ nodes.filter (s.matchesPart key) = [v] := by
  simp only [Only, linked.listed_iff]
  exact (filter_eq_singleton_iff linked.nodup _).symm

theorem onlyOne_eq_some {α : Type} {l : List α} {a : α} : onlyOne l = some a ↔ l = [a] :=
  ⟨onlyOne_mem, fun one => one ▸ rfl⟩

/-- With every part given, the first match is the only one, if no full key is shared. -/
theorem find?_matchesFull (nodup : nodes.Nodup)
    (distinct : s.DistinctAmong (·.isFull = true) nodes) (full : key.isFull = true) :
    nodes.find? (s.matchesFull key) = onlyOne (nodes.filter (s.matchesPart key)) := by
  rw [matchesPart_of_full full]
  cases found : nodes.find? (s.matchesFull key) with
  | none =>
      have nothing : nodes.filter (s.matchesFull key) = [] :=
        List.filter_eq_nil_iff.mpr (List.find?_eq_none.mp found)
      rw [nothing]
      rfl
  | some v =>
      have member := List.mem_of_find?_eq_some found
      have own := (matchesFull_iff full).mp (List.find?_some found)
      have one : nodes.filter (s.matchesFull key) = [v] := by
        refine (filter_eq_singleton_iff nodup _).mpr fun u => ?_
        constructor
        · rintro ⟨memberU, test⟩
          have other := (matchesFull_iff full).mp test
          exact distinct u memberU v member (other ▸ full) (other.trans own.symm)
        · rintro rfl
          exact ⟨member, (matchesFull_iff full).mpr own⟩
      rw [one]
      rfl

/-- Both searches select the only compatible instance, if no full key is shared. -/
theorem select_eq_onlyOne (nodup : nodes.Nodup)
    (distinct : s.DistinctAmong (·.isFull = true) nodes) :
    s.select key nodes = onlyOne (nodes.filter (s.matchesPart key)) := by
  rw [select]
  cases full : key.isFull with
  | false => rfl
  | true => exact find?_matchesFull nodup distinct full

/-- **A search finds the only compatible instance**, if no full key is shared. -/
theorem Linked.search_iff (linked : s.Linked nodes)
    (distinct : s.DistinctAmong (·.isFull = true) nodes) :
    s.vrrpSearchInst key = .ok (some v) ↔ s.Only key v := by
  rw [linked.search, linked.only_iff, Except.ok.injEq, select_eq_onlyOne linked.nodup distinct]
  exact onlyOne_eq_some

/-! ## Keys of a kind stay distinct -/

/-- The step lemma: a create that hands out an instance with a key of the kind
found that key free. -/
theorem distinctAmong_step {kind : Key → Prop} {op : Op}
    (outcome : ListOutcome w op s s' nodes nodes') (distinct : s.DistinctAmong kind nodes)
    (free : ∀ inst s₁ v, op = .command (.create inst) →
      s.vrrpCreateInst w inst = .ok (VrrpRet.success.code, some v, s₁) → kind inst.key →
        ∀ x ∈ nodes, s.key x ≠ inst.key) : s'.DistinctAmong kind nodes' := by
  have old : s'.DistinctAmong kind nodes := by
    intro u memberU v memberV given same
    rw [outcome.keys u memberU] at given same
    rw [outcome.keys v memberV] at same
    exact distinct u memberU v memberV given same
  cases outcome.change with
  | keep => exact old
  | erase =>
      rename_i before after victim _ _
      have shorter : (before ++ after).Sublist (before ++ victim :: after) := by simp
      exact fun u memberU v memberV => old u (shorter.subset memberU) v (shorter.subset memberV)
  | insert creates =>
      rename_i before after _
      obtain ⟨inst, s₁, rfl, created⟩ := creates
      have newKey := (outcome.created inst s₁ s.dsTop rfl created).2
      have taken : kind inst.key → ∀ x ∈ before ++ after, s'.key x ≠ inst.key := by
        intro given x member
        rw [outcome.keys x member]
        exact free inst s₁ s.dsTop rfl created given x member
      have members : ∀ x ∈ before ++ s.dsTop :: after, x = s.dsTop ∨ x ∈ before ++ after := by
        intro x member
        simp only [List.mem_append, List.mem_cons] at member ⊢
        tauto
      intro u listedU v listedV given same
      rcases members u listedU with rfl | memberU <;> rcases members v listedV with rfl | memberV
      · rfl
      · exact absurd (same.symm.trans newKey) (taken (newKey ▸ given) v memberV)
      · have same := same.trans newKey
        exact absurd same (taken (same ▸ given) u memberU)
      · exact old u memberU v memberV given same

/-- A create that succeeds with a full key found it free. -/
theorem free_of_created {inst : VrrpInst} {s₁ : Daemon} (linked : s.Linked nodes)
    (full : inst.key.isFull = true)
    (created : s.vrrpCreateInst w inst = .ok (VrrpRet.success.code, some v, s₁)) :
    ∀ x ∈ nodes, s.key x ≠ inst.key := by
  rcases vrrpCreateInst_outcome created with ⟨failed, -⟩ | ⟨-, -, -, searched, -⟩
  · exact absurd rfl failed
  · have missing := linked.select_of_search searched
    rw [select, if_pos full, List.find?_eq_none] at missing
    exact fun x member own => missing x member ((matchesFull_iff full).mpr own)

/-- **No two listed instances share a full key** in a reachable state. -/
theorem Reachable.fullKeysDistinct (reachable : Reachable w s) :
    ∃ nodes, s.Linked nodes ∧ s.DistinctAmong (·.isFull = true) nodes := by
  obtain ⟨ops, run⟩ := reachable
  refine run.invariant
    (fun s : Daemon => ∃ nodes, s.Linked nodes ∧ s.DistinctAmong (·.isFull = true) nodes)
    ⟨[], linked_initial, by simp [DistinctAmong]⟩ ?_
  rintro s op s' ⟨nodes, linked, distinct⟩ - returns
  obtain ⟨nodes', outcome⟩ := step_list linked returns
  refine ⟨nodes', outcome.linked, distinctAmong_step outcome distinct ?_⟩
  intro inst s₁ v _ created full
  exact free_of_created linked full created

/-- **A search in a reachable state** finds the only compatible instance. -/
theorem Reachable.search_iff (reachable : Reachable w s) :
    s.vrrpSearchInst key = .ok (some v) ↔ s.Only key v := by
  obtain ⟨nodes, linked, distinct⟩ := reachable.fullKeysDistinct
  exact linked.search_iff distinct

theorem Only.listed (only : s.Only key v) : s.Listed v := ((only v).mpr rfl).1

end Daemon

end VrrpDaemon
