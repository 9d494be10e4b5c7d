import VrrpDaemon.Behaviour.Steps
import VrrpDaemon.Machine.Cursor

/-!
# Enumeration of the instances

`vrrp_get_instx` finds its place by the key of the cursor. With keys that are
pairwise different and complete, the search finds the instance of the key
(`Linked.search_key`), so that each call continues where the last one stopped
(`Linked.getInstx_key`).
-/

set_option autoImplicit false

namespace VrrpDaemon

open Machine

/-- A complete key is no wildcard. -/
theorem Key.not_isWildcard_of_isFull {key : Key} (full : key.isFull = true) :
    key.isWildcard = false := by
  simp only [Key.isFull, Bool.and_eq_true, decide_eq_true_eq] at full
  simp [Key.isWildcard, full.1.1]

namespace Daemon

variable {s : Daemon} {nodes : List DsPtr}

/-- **A complete key that one instance has is found.** -/
theorem Linked.search_key (linked : s.Linked nodes) (distinct : (nodes.map s.key).Nodup)
    {v : DsPtr} (member : v ∈ nodes) (full : (s.key v).isFull = true) :
    s.vrrpSearchInst (s.key v) = .ok (some v) := by
  rw [linked.search, select, if_pos full]
  cases found : nodes.find? (s.matchesFull (s.key v)) with
  | none =>
      have missed := List.find?_eq_none.mp found v member
      exact absurd ((matchesFull_iff full).mpr rfl) missed
  | some u =>
      have same : s.key u = s.key v := (matchesFull_iff full).mp (List.find?_some found)
      rw [List.inj_on_of_nodup_map distinct (List.mem_of_find?_eq_some found) member same]

/-- The cursor behind an instance. -/
theorem Linked.getInstx_found (linked : s.Linked nodes) {front back : List DsPtr} {v : DsPtr}
    (split : nodes = front ++ v :: back) {cursor : Key} (given : cursor.ifname ≠ none)
    (found : s.cursorInst cursor = .ok (some v)) :
    s.vrrpGetInstx cursor =
      .ok ((VrrpRet.success.code, some v), (back.head?.map s.key).getD .wildcard) := by
  obtain ⟨name, named⟩ := Option.ne_none_iff_exists'.mp given
  have rest : Segment s.next (s.next v) back none := by
    have whole := linked.doubly.1
    rw [split] at whole
    exact whole.from_node.2
  rw [vrrpGetInstx, found]
  simp only [ok_bind, named, deref_some]
  cases back with
  | nil =>
      rw [show s.next v = none from rest]
      rfl
  | cons n back =>
      rw [rest.1]
      rfl

/-- **A call with the key of an instance** replies with it, and goes on with the
key of the next one. -/
theorem Linked.getInstx_key (linked : s.Linked nodes) (distinct : (nodes.map s.key).Nodup)
    (full : ∀ v ∈ nodes, (s.key v).isFull = true) {front back : List DsPtr} {v : DsPtr}
    (split : nodes = front ++ v :: back) :
    s.vrrpGetInstx (s.key v) =
      .ok ((VrrpRet.success.code, some v), (back.head?.map s.key).getD .wildcard) := by
  have member : v ∈ nodes := by simp [split]
  refine linked.getInstx_found split (Option.some_ne_none _) ?_
  rw [cursorInst, Key.not_isWildcard_of_isFull (full v member)]
  exact linked.search_key distinct member (full v member)

/-- **The cursor enumerates the list.** In every reachable state whose instances
have complete and pairwise different keys: from the wildcard cursor, the calls
of `vrrp_get_instx` up to the wildcard cursor return `VRRP_SUCCESS` and each
listed instance once, in the order of the list, so by VRIDs that do not decrease;
when no instance is listed, the first call returns `VRRP_ENOINST`. -/
theorem vrrpGetInstx_enumerates (w : World) (s : Daemon) (reachable : Reachable w s)
    (nodes : List DsPtr) (segment : Segment s.next (s.next instRuntimeList) nodes none)
    (distinct : (nodes.map s.key).Nodup) (full : ∀ v ∈ nodes, (s.key v).isFull = true) :
    (nodes ≠ [] → ∀ replies,
      Enumerates s.vrrpGetInstx Key.isWildcard .wildcard replies ↔
        replies = nodes.map fun v => (VrrpRet.success.code, some v)) ∧
      nodes.Nodup ∧ nodes.Pairwise (fun u v => s.vrrpId u ≤ s.vrrpId v) ∧
      (nodes = [] → s.vrrpGetInstx .wildcard = .ok ((VrrpRet.enoinst.code, none), .wildcard)) := by
  obtain ⟨others, linked⟩ := reachable.linked
  obtain rfl := segment.unique linked.doubly.1
  refine ⟨fun listed replies => ?_, linked.nodup, linked.sorted, ?_⟩
  · obtain ⟨v, back, rfl⟩ := List.exists_cons_of_ne_nil listed
    have first : v :: back = [] ++ v :: back := rfl
    have found : s.cursorInst .wildcard = .ok (some v) := congrArg Except.ok segment.1
    have start : s.vrrpGetInstx .wildcard = s.vrrpGetInstx (s.key v) := by
      rw [linked.getInstx_key distinct full first,
        linked.getInstx_found first (Option.some_ne_none _) found]
    have goes : ∀ u ∈ v :: back, (s.key u).isWildcard = false :=
      fun u member => Key.not_isWildcard_of_isFull (full u member)
    have stop : Key.wildcard.isWildcard = true := rfl
    have whole : Enumerates s.vrrpGetInstx Key.isWildcard .wildcard
        ((v :: back).map fun u => (VrrpRet.success.code, some u)) :=
      (enumerates_of_keys stop goes (fun _ _ _ => linked.getInstx_key distinct full)
        first).of_start start
    constructor
    · exact fun listed => listed.unique whole
    · rintro rfl
      exact whole
  · rintro rfl
    have nothing : s.cursorInst .wildcard = .ok none := congrArg Except.ok segment
    rw [vrrpGetInstx, nothing]
    rfl

/-- Two instances, the second created listed first. -/
theorem vrrpGetInstx_enumerates_two :
    ∃ s, Reachable .plain s ∧ Enumerates s.vrrpGetInstx Key.isWildcard .wildcard
      [(VrrpRet.success.code, some 2), (VrrpRet.success.code, some 1)] := by
  have ran : passes (fun s => s.next instRuntimeList == some 2 && s.next 2 == some 1 &&
      s.next 1 == none && decide (([2, 1].map s.key).Nodup) &&
        [2, 1].all fun v => (s.key v).isFull)
      (exec (step .plain) [.create 7 100, .create 3 100] initial) = true := by decide +kernel
  obtain ⟨s, returns, tested⟩ := exists_of_passes ran
  simp only [Bool.and_eq_true, beq_iff_eq, decide_eq_true_eq, List.all_eq_true] at tested
  obtain ⟨⟨⟨⟨first, second⟩, last⟩, distinct⟩, full⟩ := tested
  have reachable : Reachable .plain s := ⟨_, run_of_exec returns⟩
  have segment : Segment s.next (s.next instRuntimeList) [2, 1] none := ⟨first, second, last⟩
  exact ⟨s, reachable,
    ((vrrpGetInstx_enumerates .plain s reachable [2, 1] segment distinct full).1
      (List.cons_ne_nil _ _) _).mpr rfl⟩

end Daemon

end VrrpDaemon
