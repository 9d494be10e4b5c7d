import VrrpDaemon.Properties.QueueInsertion
import VrrpDaemon.Properties.TimerQueue
import VrrpDaemon.Behaviour.Returns
import Mathlib.Algebra.Order.Ring.Nat

/-!
# Removal from the timer queue

A removal is right when it leaves the other VRs in their order and with their
expiry times, and the VR without links (`TimerQueue.Removed`).

`vrrp_rmqueue_impl` removes right a VR with a predecessor, as long as the stored
timeouts of the two can be added. At the head it can take out the only VR. Behind
the head of a longer queue it adds the timeout of the head to that of the VR
before it, which is null. A VR that is not queued is taken out by the links it has: without
links it is taken for the only one, and the queue is emptied; with links that were left over
its neighbours are linked to each other (`TimerQueue.Harmless`).

`vrrp_rmqueue` takes a VR without links for one that is not queued. So it spares
the queue where `vrrp_rmqueue_impl` does not, and does not find the only VR.
-/

set_option autoImplicit false

namespace VrrpDaemon

open Machine

/-! ## Expiry times -/

/-- The time from the expiry of the first VR to that of the VR behind the last. -/
def span (timeout : VrPtr → UInt32) (queue : List VrPtr) : Nat :=
  (queue.map fun p => (timeout p).toNat).sum

section Expiries

variable {timeout timeout' : VrPtr → UInt32} {now : Nat} {queue : List VrPtr} {entry : VrPtr}

theorem expiries_append (front back : List VrPtr) :
    expiries timeout now (front ++ back) =
      expiries timeout now front ++ expiries timeout (now + span timeout front) back := by
  induction front generalizing now with
  | nil => simp [expiries, span]
  | cons p front ih =>
      simp only [List.cons_append, expiries, ih, span, List.map_cons, List.sum_cons]
      rw [Nat.add_assoc]

theorem length_expiries : (expiries timeout now queue).length = queue.length := by
  induction queue generalizing now with
  | nil => rfl
  | cons p queue ih => simp [expiries, ih]

theorem expiries_congr (same : ∀ p ∈ queue, timeout' p = timeout p) :
    expiries timeout' now queue = expiries timeout now queue := by
  induction queue generalizing now with
  | nil => rfl
  | cons p queue ih =>
      simp only [expiries]
      rw [same p List.mem_cons_self, ih fun r member => same r (List.mem_cons_of_mem _ member)]

theorem span_congr (same : ∀ p ∈ queue, timeout' p = timeout p) :
    span timeout' queue = span timeout queue := by
  simp only [span]
  rw [List.map_congr_left fun p member => by rw [same p member]]

/-- Leaving out a VR that is not in the row. -/
theorem filter_expiries (outside : entry ∉ queue) :
    (expiries timeout now queue).filter (·.1 ≠ entry) = expiries timeout now queue := by
  induction queue generalizing now with
  | nil => rfl
  | cons p queue ih =>
      have other : p ≠ entry := fun same => outside (same ▸ List.mem_cons_self)
      have rest : entry ∉ queue := fun member => outside (List.mem_cons_of_mem _ member)
      rw [expiries, List.filter_cons_of_pos (by simp [other]), ih rest]

/-- Leaving out a VR that stands behind another. -/
theorem filter_expiries_inner {front back : List VrPtr} {before : VrPtr}
    (nodup : (front ++ before :: entry :: back).Nodup) :
    (expiries timeout now (front ++ before :: entry :: back)).filter (·.1 ≠ entry) =
      expiries timeout now front ++ (before, now + span timeout front) ::
        expiries timeout
          (now + span timeout front + ((timeout before).toNat + (timeout entry).toNat)) back := by
  have distinct := List.nodup_append.mp nodup
  have behind := List.nodup_cons.mp distinct.2.1
  have outFront : entry ∉ front := fun member =>
    distinct.2.2 entry member entry (by simp) rfl
  have other : before ≠ entry := fun same => behind.1 (same ▸ List.mem_cons_self)
  have outBack : entry ∉ back := (List.nodup_cons.mp behind.2).1
  rw [expiries_append, List.filter_append, filter_expiries outFront, expiries, expiries,
    List.filter_cons_of_pos (by simp [other]), List.filter_cons_of_neg (by simp),
    filter_expiries outBack, Nat.add_assoc (now + span timeout front)]

/-- The expiry times fix every timeout but the last. -/
theorem timeout_of_expiries {front back : List VrPtr} {p n : VrPtr}
    (same : expiries timeout' now (front ++ p :: n :: back) =
      expiries timeout now (front ++ p :: n :: back)) : timeout' p = timeout p := by
  rw [expiries_append, expiries_append] at same
  have parts := List.append_inj same (by rw [length_expiries, length_expiries])
  simp only [expiries, List.cons.injEq, Prod.mk.injEq, true_and] at parts
  refine UInt32.toNat_inj.mp ?_
  omega

end Expiries

/-- In a row without repetition a VR is left out where it stands. -/
theorem erase_split {front back : List VrPtr} {entry : VrPtr} (outside : entry ∉ front) :
    (front ++ entry :: back).erase entry = front ++ back := by
  rw [List.erase_append_right _ outside, List.erase_cons_head]

namespace TimerQueue

variable {q q' : TimerQueue} {queue front back : List VrPtr} {entry : VrPtr}

/-- **A right removal.** The second queue is the first without the VR: the others
stand in their order, with the expiry times that they had, and the VR has no
links. -/
structure Removed (entry : VrPtr) (queue : List VrPtr) (q q' : TimerQueue) : Prop where
  holds : q'.Holds (queue.erase entry)
  qnext : q'.qnext entry = none
  qprev : q'.qprev entry = none
  expiries : ∀ now, ∃ now', expiries q'.timeout now' (queue.erase entry) =
    (expiries q.timeout now queue).filter (·.1 ≠ entry)

/-- `vrrp_rmqueue_impl` returns, and has removed the VR right. -/
def RemovesRight (entry : VrPtr) (queue : List VrPtr) (q : TimerQueue) : Prop :=
  ∃ q', q.vrrpRmqueueImpl entry = .ok q' ∧ q.Removed entry queue q'

/-- `vrrp_dequeue` hands out the VR at the head, removed right, or a null pointer
when no VR is queued. -/
def DequeuesRight (queue : List VrPtr) (q : TimerQueue) : Prop :=
  match queue with
  | [] => q.vrrpDequeue = .ok (none, q)
  | head :: _ => ∃ q', q.vrrpDequeue = .ok (some head, q') ∧ q.Removed head queue q'

/-- The VRs queued and their expiry times are as before. -/
def Spared (queue : List VrPtr) (q q' : TimerQueue) : Prop :=
  q'.Holds queue ∧ ∀ now, expiries q'.timeout now queue = expiries q.timeout now queue

/-- The timeout of a VR between two others can be added to that of the one before. -/
def Adds (q : TimerQueue) (entry : VrPtr) : Prop :=
  ∀ before after, q.qprev entry = some before → q.qnext entry = some after →
    (q.timeout before).toNat + (q.timeout entry).toNat < 2 ^ 32

/-! ## Where a VR stands -/

theorem Holds.nodup (holds : q.Holds queue) : queue.Nodup := holds.1.nodup

/-- The links of a VR are its neighbours. -/
theorem Holds.links (holds : q.Holds (front ++ entry :: back)) :
    q.qprev entry = front.getLast? ∧ q.qnext entry = back.head? := by
  refine ⟨?_, holds.1.from_node.2.start_eq⟩
  rcases List.eq_nil_or_concat front with rfl | ⟨front, before, rfl⟩
  · exact holds.2.1
  · have backward := holds.2
    simp only [List.concat_eq_append, List.append_assoc, List.singleton_append] at backward ⊢
    rw [List.getLast?_concat]
    exact (backward_append.mp backward).2.1

/-- A VR without predecessor is the head. -/
theorem Holds.head_of_qprev (holds : q.Holds queue) (member : entry ∈ queue)
    (first : q.qprev entry = none) : ∃ back, queue = entry :: back := by
  obtain ⟨front, back, rfl⟩ := List.append_of_mem member
  have last := holds.links.1.symm.trans first
  rw [List.getLast?_eq_none_iff] at last
  subst last
  exact ⟨back, rfl⟩

theorem Holds.outside_front (holds : q.Holds (front ++ entry :: back)) : entry ∉ front :=
  fun member => (List.nodup_append.mp holds.nodup).2.2 entry member entry List.mem_cons_self rfl

/-! ## Taking out a VR that has a predecessor -/

section Inner

variable {before : VrPtr}

/-- The VR at the end of the front is the one before. -/
theorem Holds.links_inner (holds : q.Holds (front ++ before :: entry :: back)) :
    q.qprev entry = some before ∧ q.qnext entry = back.head? := by
  rw [List.append_cons] at holds
  have links := holds.links
  rw [List.getLast?_concat] at links
  exact links

/-- The links without the VR. -/
theorem Holds.without_inner (holds : q.Holds (front ++ before :: entry :: back)) :
    (q.without entry).Holds (front ++ before :: back) := by
  have links := holds.links_inner
  have distinct := List.nodup_append.mp holds.nodup
  have behind := List.nodup_cons.mp distinct.2.1
  have other : before ≠ entry := fun same => behind.1 (same ▸ List.mem_cons_self)
  have tail := List.nodup_cons.mp behind.2
  have advQ : (q.without entry).advQ = q.advQ := by simp [without, links.1]
  refine ⟨?_, holds.2.unlink holds.nodup ?_ ?_⟩
  · rw [advQ]
    refine holds.1.unlink ?_ fun b notBefore notEntry => ?_
    · simp [without, links.1, Function.update_of_ne other]
    · simp [without, links.1, Function.update_of_ne notBefore, Function.update_of_ne notEntry]
  · intro b isFirst
    have notEntry : b ≠ entry := fun same => tail.1 (same ▸ List.mem_of_head? isFirst)
    simp [without, links.1, links.2.trans isFirst, Function.update_of_ne notEntry]
  · intro b notEntry notFirst
    cases next : q.qnext entry with
    | none => simp [without, next, Function.update_of_ne notEntry]
    | some n =>
        have notNext : b ≠ n := fun same => notFirst (links.2.symm.trans (same ▸ next))
        simp [without, next, Function.update_of_ne notEntry, Function.update_of_ne notNext]

/-- The timeouts without the VR. -/
theorem Holds.timeout_inner (holds : q.Holds (front ++ before :: entry :: back)) :
    (∀ p, p ≠ before → (q.without entry).timeout p = q.timeout p) ∧
      (back ≠ [] → (q.without entry).timeout before = q.timeout before + q.timeout entry) := by
  have links := holds.links_inner
  constructor
  · intro p other
    cases next : q.qnext entry with
    | none => simp [without, next]
    | some n => simp [without, next, links.1, Function.update_of_ne other]
  · intro more
    cases back with
    | nil => exact absurd rfl more
    | cons n back => simp [without, links.1, links.2]

/-- The expiry times without the VR. -/
theorem Holds.expiries_inner (holds : q.Holds (front ++ before :: entry :: back)) (now : Nat) :
    expiries (q.without entry).timeout now (front ++ before :: back) =
      expiries q.timeout now front ++ (before, now + span q.timeout front) ::
        expiries q.timeout (now + span q.timeout front +
          (q.timeout before + q.timeout entry).toNat) back := by
  have distinct := List.nodup_append.mp holds.nodup
  have behind := List.nodup_cons.mp distinct.2.1
  have frontOther : ∀ p ∈ front, p ≠ before := fun p member same =>
    distinct.2.2 p member before List.mem_cons_self same
  have backOther : ∀ p ∈ back, p ≠ before := fun p member same =>
    behind.1 (same ▸ List.mem_cons_of_mem _ member)
  have timeouts := holds.timeout_inner
  rw [expiries_append, expiries_congr fun p member => timeouts.1 p (frontOther p member),
    span_congr fun p member => timeouts.1 p (frontOther p member), expiries,
    expiries_congr fun p member => timeouts.1 p (backOther p member)]
  cases back with
  | nil => rfl
  | cons n back => rw [timeouts.2 (by simp)]

/-- **Behind another VR the removal is right** exactly when the timeouts add. -/
theorem Holds.removed_inner_iff (holds : q.Holds (front ++ before :: entry :: back)) :
    q.Removed entry (front ++ before :: entry :: back) (q.without entry) ↔ q.Adds entry := by
  have links := holds.links_inner
  have erased : (front ++ before :: entry :: back).erase entry = front ++ before :: back := by
    have split := List.append_cons front before (entry :: back)
    rw [split, erase_split (split ▸ holds).outside_front, ← List.append_cons]
  have bound : (q.timeout before + q.timeout entry).toNat =
      ((q.timeout before).toNat + (q.timeout entry).toNat) % 2 ^ 32 := UInt32.toNat_add ..
  have adds : q.Adds entry ↔ (back ≠ [] →
      (q.timeout before).toNat + (q.timeout entry).toNat < 2 ^ 32) := by
    simp only [Adds, links.1, links.2, Option.some.injEq]
    cases back <;> simp
  rw [adds]
  constructor
  · rintro ⟨-, -, -, same⟩ more
    obtain ⟨n, rest, rfl⟩ := List.exists_cons_of_ne_nil more
    obtain ⟨now', same⟩ := same 0
    rw [erased, holds.expiries_inner, filter_expiries_inner holds.nodup] at same
    have parts := List.append_inj same (by rw [length_expiries, length_expiries])
    simp only [expiries, List.cons.injEq, Prod.mk.injEq, true_and] at parts
    omega
  · intro fits
    refine ⟨erased ▸ holds.without_inner, ?_, ?_, fun now => ⟨now, ?_⟩⟩
    · cases prev : q.qprev entry <;> simp [without, prev]
    · cases next : q.qnext entry <;> simp [without, next]
    · rw [erased, holds.expiries_inner, filter_expiries_inner holds.nodup]
      cases back with
      | nil => rfl
      | cons n back => rw [bound, Nat.mod_eq_of_lt (fits (by simp))]

end Inner

/-! ## `vrrp_rmqueue_impl` and `vrrp_dequeue` -/

/-- The only VR is removed right. -/
theorem Holds.removed_only (holds : q.Holds [entry]) : q.Removed entry [entry] (q.without entry) := by
  have links := (show q.Holds ([] ++ entry :: []) from holds).links
  have none : q.qprev entry = none ∧ q.qnext entry = none := links
  refine ⟨?_, ?_, ?_, fun now => ⟨now, ?_⟩⟩
  · rw [List.erase_cons_head]
    exact ⟨by simp [without, none], trivial⟩
  · simp [without, none]
  · simp [without, none]
  · simp [expiries]

/-- **`vrrp_rmqueue_impl` on a queued VR.** -/
theorem removesRight_iff (holds : q.Holds queue) (member : entry ∈ queue) :
    q.RemovesRight entry queue ↔ q.Removable entry ∧ q.Adds entry := by
  constructor
  · rintro ⟨q', returns, removed⟩
    have removable := vrrpRmqueueImpl_returns_iff.mp ⟨q', returns⟩
    rw [vrrpRmqueueImpl_eq removable] at returns
    cases returns
    refine ⟨removable, ?_⟩
    cases first : q.qprev entry with
    | none =>
        intro before after prev
        cases first.symm.trans prev
    | some before =>
        obtain ⟨front, back, rfl⟩ := List.append_of_mem member
        have last := holds.links.1.symm.trans first
        obtain ⟨front, rfl⟩ := List.getLast?_eq_some_iff.mp last
        rw [List.append_assoc] at holds removed
        exact holds.removed_inner_iff.mp removed
  · rintro ⟨removable, adds⟩
    refine ⟨_, vrrpRmqueueImpl_eq removable, ?_⟩
    obtain ⟨front, back, rfl⟩ := List.append_of_mem member
    cases first : q.qprev entry with
    | none =>
        have alone := removable first
        rw [holds.links.1, List.getLast?_eq_none_iff] at first
        rw [holds.links.2, List.head?_eq_none_iff] at alone
        subst first
        subst alone
        exact holds.removed_only
    | some before =>
        obtain ⟨front, rfl⟩ := List.getLast?_eq_some_iff.mp (holds.links.1.symm.trans first)
        rw [List.append_assoc] at holds ⊢
        exact holds.removed_inner_iff.mpr adds

/-- **`vrrp_dequeue`** is right on a queue of at most one VR. -/
theorem dequeuesRight_iff (holds : q.Holds queue) :
    q.DequeuesRight queue ↔ queue.length ≤ 1 := by
  cases queue with
  | nil =>
      have idle : q.advQ = none := holds.1
      simp [DequeuesRight, vrrpDequeue, idle]
  | cons head back =>
      have links := (show q.Holds ([] ++ head :: back) from holds).links
      have queued : q.advQ = some head := holds.1.1
      have removes : q.DequeuesRight (head :: back) ↔ q.RemovesRight head (head :: back) := by
        simp only [DequeuesRight, RemovesRight, vrrpDequeue, queued]
        refine exists_congr fun q' => and_congr_left fun _ => ?_
        cases q.vrrpRmqueueImpl head <;> simp
      rw [removes, removesRight_iff holds List.mem_cons_self]
      have first : q.qprev head = none := links.1
      have adds : q.Adds head := fun before after prev => by cases first.symm.trans prev
      simp only [Removable, first, adds, links.2, true_implies, and_true]
      cases back <;> simp

/-! ## A VR that is not queued -/

/-- The links of a VR do no harm to the queue: it has none and the queue is empty; or it has a
predecessor, a predecessor that is queued has the same successor already, with nothing to add
to its timeout, and a successor that is queued has the same predecessor. -/
def Harmless (entry : VrPtr) (queue : List VrPtr) (q : TimerQueue) : Prop :=
  match q.qprev entry with
  | none => q.qnext entry = none ∧ queue = []
  | some before =>
      (before ∈ queue → q.qnext before = q.qnext entry ∧
        (q.qnext entry ≠ none → q.timeout entry = 0)) ∧
      ∀ after ∈ queue, q.qnext entry = some after → q.qprev after = some before

section Outside

variable {before : VrPtr}

/-- The queue without a VR that has a predecessor, seen from another VR. -/
theorem without_other {p : VrPtr} (prev : q.qprev entry = some before) (other : p ≠ entry) :
    (q.without entry).qnext p = (if p = before then q.qnext entry else q.qnext p) ∧
    (q.without entry).qprev p =
      (if q.qnext entry = some p then some before else q.qprev p) ∧
    (q.without entry).timeout p =
      if p = before ∧ q.qnext entry ≠ none then q.timeout before + q.timeout entry
      else q.timeout p := by
  cases next : q.qnext entry with
  | none => simp [without, prev, next, Function.update_apply, other]
  | some n => simp [without, prev, next, Function.update_apply, other, eq_comm]

/-- A VR with a predecessor that is not queued spares the queue exactly when its links do no
harm. -/
theorem Holds.spared_without_iff (holds : q.Holds queue) (outside : entry ∉ queue)
    (prev : q.qprev entry = some before) :
    q.Spared queue (q.without entry) ↔ q.Harmless entry queue := by
  have head : (q.without entry).advQ = q.advQ := by simp [without, prev]
  have others : ∀ p ∈ queue, p ≠ entry := fun p member same => outside (same ▸ member)
  simp only [Harmless, prev]
  constructor
  · rintro ⟨holds', times⟩
    refine ⟨fun member => ?_, fun after member next => ?_⟩
    · obtain ⟨front, back, rfl⟩ := List.append_of_mem member
      obtain ⟨next, -, timeout⟩ := without_other prev (others before member)
      rw [if_pos rfl] at next
      refine ⟨holds.links.2.trans (holds'.links.2.symm.trans next), fun more => ?_⟩
      cases back with
      | nil => exact absurd (next.symm.trans holds'.links.2) more
      | cons n back =>
          have kept : (q.without entry).timeout before = q.timeout before :=
            timeout_of_expiries (times 0)
          rw [timeout, if_pos ⟨rfl, more⟩] at kept
          exact UInt32.add_eq_left.mp kept
    · obtain ⟨front, back, rfl⟩ := List.append_of_mem member
      obtain ⟨-, first, -⟩ := without_other prev (others after member)
      rw [if_pos next] at first
      exact holds.links.1.trans (holds'.links.1.symm.trans first)
  · rintro ⟨forward, backward⟩
    refine ⟨⟨?_, holds.2.congr fun p member => ?_⟩, fun now => expiries_congr fun p member => ?_⟩
    · rw [head]
      refine holds.1.congr fun p member => ?_
      rw [(without_other prev (others p member)).1]
      split
      · rename_i here
        subst here
        exact (forward member).1.symm
      · rfl
    · rw [(without_other prev (others p member)).2.1]
      split
      · exact (backward p member ‹_›).symm
      · rfl
    · rw [(without_other prev (others p member)).2.2]
      split
      · rename_i here
        obtain ⟨rfl, more⟩ := here
        rw [(forward member).2 more, UInt32.add_zero]
      · rfl

end Outside

/-- **`vrrp_rmqueue_impl` on a VR that is not queued.** -/
theorem rmqueue_spares_iff (holds : q.Holds queue) (outside : entry ∉ queue) :
    (∃ q', q.vrrpRmqueueImpl entry = .ok q' ∧ q.Spared queue q') ↔ q.Harmless entry queue := by
  cases prev : q.qprev entry with
  | some before =>
      rw [← holds.spared_without_iff outside prev]
      have removable : q.Removable entry := fun first => by cases prev.symm.trans first
      rw [vrrpRmqueueImpl_eq removable]
      simp only [Except.ok.injEq, exists_eq_left']
  | none =>
      simp only [Harmless, prev]
      constructor
      · rintro ⟨q', returns, spared, -⟩
        have last := vrrpRmqueueImpl_returns_iff.mp ⟨q', returns⟩ prev
        rw [vrrpRmqueueImpl_eq fun _ => last] at returns
        cases returns
        exact ⟨last, spared.empty_iff.mp (by simp [without, prev, last])⟩
      · rintro ⟨last, rfl⟩
        refine ⟨_, vrrpRmqueueImpl_eq fun _ => last, ⟨?_, trivial⟩, fun _ => rfl⟩
        simp [without, prev, last]

end TimerQueue

namespace Daemon

variable {s : Daemon} {nodes queue : List VrPtr} {key : Key}

/-- `vrrp_rmqueue` with the key of an instance answers with `VRRP_SUCCESS`, and has
removed the VR of the instance right. -/
def RemovesByKey (s : Daemon) (v : DsPtr) (queue : List VrPtr) : Prop :=
  ∃ s', s.vrrpRmqueue (s.key v) = .ok (VrrpRet.success.code, s') ∧
    s.q.Removed (s.ds v).vr queue s'.q

/-- A key that the queue functions refuse or that selects a VR without links is not
answered with `VRRP_SUCCESS`. -/
theorem vrrpRmqueue_success {s' : Daemon}
    (returns : s.vrrpRmqueue key = .ok (VrrpRet.success.code, s')) :
    QueueGiven key ∧ ∃ u, s.vrrpSearchInst key = .ok (some u) ∧
      s.q.qprev (s.ds u).vr ≠ none ∧ s'.q = s.q.without (s.ds u).vr := by
  have given : QueueGiven key := by
    by_contra refused
    rw [vrrpRmqueue_refused refused] at returns
    simp [errnoEinval, VrrpRet.code] at returns
  rcases vrrpRmqueue_outcome returns with ⟨failed, -⟩ | ⟨u, selected, linked, removed⟩
  · exact absurd rfl failed
  · obtain ⟨q, out, rfl⟩ := tryQueue_eq_ok.mp removed
    have removable := TimerQueue.vrrpRmqueueImpl_returns_iff.mp ⟨q, out⟩
    rw [TimerQueue.vrrpRmqueueImpl_eq removable] at out
    cases out
    exact ⟨given, u, selected, fun first => linked ⟨removable first, first⟩, rfl⟩

/-- Taking another VR out leaves a queued one with a link or at its place. -/
theorem not_removed_other {p r : VrPtr} (holds : s.q.Holds queue) (member : p ∈ queue)
    (other : r ≠ p) (linked : s.q.qprev r ≠ none) :
    ¬ s.q.Removed p queue (s.q.without r) := by
  intro removed
  obtain ⟨before, prev⟩ := Option.ne_none_iff_exists'.mp linked
  have first : s.q.qprev p = none := by
    have cleared := removed.qprev
    cases next : s.q.qnext r with
    | none => simpa [TimerQueue.without, next, Function.update_of_ne (Ne.symm other)] using cleared
    | some n =>
        by_cases behind : p = n
        · subst behind
          simp [TimerQueue.without, next, prev, Function.update_of_ne (Ne.symm other)] at cleared
        · simpa [TimerQueue.without, next, Function.update_of_ne (Ne.symm other),
            Function.update_of_ne behind] using cleared
  obtain ⟨back, rfl⟩ := holds.head_of_qprev member first
  have head : (s.q.without r).advQ = some p := by
    simp only [TimerQueue.without, prev]
    exact holds.1.1
  have segment := removed.holds.1
  rw [List.erase_cons_head, head] at segment
  have outside := (List.nodup_cons.mp holds.nodup).1
  cases back with
  | nil => cases segment
  | cons n back =>
      cases segment.1
      exact outside List.mem_cons_self

/-- **`vrrp_rmqueue` with the key of a queued VR.** -/
theorem removesByKey_iff {v : DsPtr} (linked : s.Linked nodes) (listed : v ∈ nodes)
    (holds : s.q.Holds queue) (member : (s.ds v).vr ∈ queue) :
    s.RemovesByKey v queue ↔ QueueGiven (s.key v) ∧ s.vrrpSearchInst (s.key v) = .ok (some v) ∧
      s.q.qprev (s.ds v).vr ≠ none ∧ s.q.Adds (s.ds v).vr := by
  constructor
  · rintro ⟨s', returns, removed⟩
    obtain ⟨given, u, selected, prev, rest⟩ := vrrpRmqueue_success returns
    rw [rest] at removed
    have same : (s.ds u).vr = (s.ds v).vr := by
      by_contra other
      exact not_removed_other holds member other prev removed
    obtain rfl : u = v := by
      rw [← linked.parent u (linked.mem_of_search selected), same, linked.parent v listed]
    have removable : s.q.Removable (s.ds u).vr := fun first => absurd first prev
    have right : s.q.RemovesRight (s.ds u).vr queue :=
      ⟨_, TimerQueue.vrrpRmqueueImpl_eq removable, removed⟩
    exact ⟨given, selected, prev, ((TimerQueue.removesRight_iff holds member).mp right).2⟩
  · rintro ⟨given, selected, prev, adds⟩
    have removable : s.q.Removable (s.ds v).vr := fun first => absurd first prev
    obtain ⟨q', out, removed⟩ :=
      (TimerQueue.removesRight_iff holds member).mpr ⟨removable, adds⟩
    refine ⟨{ s with q := q' }, ?_, removed⟩
    rw [vrrpRmqueue_found given selected, if_neg fun alone => prev alone.2]
    exact bind_eq_ok.mpr ⟨_, tryQueue_eq_ok.mpr ⟨q', out, rfl⟩, rfl⟩

/-- **`vrrp_rmqueue` with a key that selects no queued VR.** -/
theorem vrrpRmqueue_spares_iff (linked : s.Linked nodes) (holds : s.q.Holds queue)
    (outside : ∀ u, s.vrrpSearchInst key = .ok (some u) → (s.ds u).vr ∉ queue) :
    (∃ ret s', s.vrrpRmqueue key = .ok (ret, s') ∧ s.q.Spared queue s'.q) ↔
      (QueueGiven key → ∀ u, s.vrrpSearchInst key = .ok (some u) →
        (s.q.qnext (s.ds u).vr = none ∧ s.q.qprev (s.ds u).vr = none) ∨
          s.q.Harmless (s.ds u).vr queue) := by
  have kept : s.q.Spared queue s.q := ⟨holds, fun _ => rfl⟩
  by_cases given : QueueGiven key
  · have searched := linked.search key
    cases selected : s.select key nodes with
    | none =>
        rw [selected] at searched
        refine iff_of_true ⟨_, s, vrrpRmqueue_missing given searched, kept⟩ fun _ u found => ?_
        cases searched.symm.trans found
    | some u =>
        rw [selected] at searched
        rw [vrrpRmqueue_found given searched]
        simp only [given, forall_const, searched, Except.ok.injEq, Option.some.injEq, forall_eq']
        by_cases alone : s.q.qnext (s.ds u).vr = none ∧ s.q.qprev (s.ds u).vr = none
        · rw [if_pos alone]
          exact iff_of_true ⟨_, s, rfl, kept⟩ (.inl alone)
        · rw [if_neg alone, ← TimerQueue.rmqueue_spares_iff holds (outside u searched)]
          simp only [alone, false_or]
          constructor
          · rintro ⟨ret, s', returns, spared⟩
            obtain ⟨s₁, removed, same⟩ := bind_eq_ok.mp returns
            cases same
            obtain ⟨q', out, rfl⟩ := tryQueue_eq_ok.mp removed
            exact ⟨q', out, spared⟩
          · rintro ⟨q', out, spared⟩
            exact ⟨_, _, bind_eq_ok.mpr ⟨_, tryQueue_eq_ok.mpr ⟨q', out, rfl⟩, rfl⟩, spared⟩
  · exact iff_of_true ⟨_, s, vrrpRmqueue_refused given, kept⟩ fun asked => absurd asked given

/-- **Removal from the queue.** For every list of instances and every queue of VRs:
`vrrp_rmqueue_impl` on a queued VR, `vrrp_dequeue`, `vrrp_rmqueue` with the key of a queued VR,
`vrrp_rmqueue_impl` on another VR, and `vrrp_rmqueue` with a key that selects no queued one. -/
theorem removal_iff (s : Daemon) (nodes : List DsPtr) (queue : List VrPtr)
    (linked : s.Linked nodes) (holds : s.q.Holds queue) :
    (∀ p ∈ queue, s.q.RemovesRight p queue ↔
      (s.q.qprev p = none → s.q.qnext p = none) ∧ s.q.Adds p) ∧
    (s.q.DequeuesRight queue ↔ queue.length ≤ 1) ∧
    (∀ v ∈ nodes, (s.ds v).vr ∈ queue → (s.RemovesByKey v queue ↔
      QueueGiven (s.key v) ∧ s.vrrpSearchInst (s.key v) = .ok (some v) ∧
        s.q.qprev (s.ds v).vr ≠ none ∧ s.q.Adds (s.ds v).vr)) ∧
    (∀ p, p ∉ queue →
      ((∃ q', s.q.vrrpRmqueueImpl p = .ok q' ∧ s.q.Spared queue q') ↔ s.q.Harmless p queue)) ∧
    ∀ key, (∀ v, s.vrrpSearchInst key = .ok (some v) → (s.ds v).vr ∉ queue) →
      ((∃ ret s', s.vrrpRmqueue key = .ok (ret, s') ∧ s.q.Spared queue s'.q) ↔
        (QueueGiven key → ∀ v, s.vrrpSearchInst key = .ok (some v) →
          (s.q.qnext (s.ds v).vr = none ∧ s.q.qprev (s.ds v).vr = none) ∨
            s.q.Harmless (s.ds v).vr queue)) :=
  ⟨fun _ member => TimerQueue.removesRight_iff holds member,
    TimerQueue.dequeuesRight_iff holds,
    fun _ listed member => removesByKey_iff linked listed holds member,
    fun _ outside => TimerQueue.rmqueue_spares_iff holds outside,
    fun _ outside => vrrpRmqueue_spares_iff linked holds outside⟩

/-- A queue of one VR without links. -/
theorem holds_single {q : TimerQueue} {p : VrPtr} (single : q.Single (some p)) : q.Holds [p] :=
  ⟨⟨single.advQ, single.qnext p⟩, single.qprev p, trivial⟩

/-- Creating an instance of priority 255 queues its VR, and `vrrp_rmqueue` with its
key answers -1. -/
theorem queued_master :
    ∃ s nodes, Run (step .plain) unguarded initial [.create 7 255] s ∧ s.Linked nodes ∧
      1 ∈ nodes ∧ (s.ds 1).vr = 0 ∧ s.q.Single (some 0) ∧
      ∃ s', s.vrrpRmqueue (s.key 1) = .ok (-1, s') := by
  have ran : passes (fun s => s.q.advQ == some 0 && s.next instRuntimeList == some 1 &&
      (s.ds 1).vr == 0 && passes (fun reply => reply.1 == -1) (s.vrrpRmqueue (s.key 1)))
        (step .plain (.create 7 255) initial) = true := by decide +kernel
  obtain ⟨s, created, tested⟩ := exists_of_passes ran
  simp only [Bool.and_eq_true, beq_iff_eq] at tested
  obtain ⟨⟨⟨queued, first⟩, vr⟩, refused⟩ := tested
  obtain ⟨⟨ret, s'⟩, answer, status⟩ := exists_of_passes refused
  rw [beq_iff_eq] at status
  dsimp only at status
  subst status
  have safe : QueueSafe .plain initial (.create 7 255) := fun _ _ _ => rfl
  obtain ⟨nodes, timed⟩ := timed_initial.step safe created
  exact ⟨s, nodes, .snoc .nil trivial created, timed.linked, timed.linked.first_mem first, vr,
    queued ▸ timed.single, s', answer⟩

/-- The only VR is removed right, and `vrrp_dequeue` hands it out. -/
theorem removal_only :
    ∃ s, Run (step .plain) unguarded initial [.create 7 255] s ∧
      s.q.RemovesRight 0 [0] ∧ s.q.DequeuesRight [0] := by
  obtain ⟨s, nodes, run, linked, -, -, single, -⟩ := queued_master
  have removal := removal_iff s nodes [0] linked (holds_single single)
  refine ⟨s, run, (removal.1 0 List.mem_cons_self).mpr ⟨fun _ => single.qnext 0, ?_⟩,
    removal.2.1.mpr (Nat.le_refl 1)⟩
  intro before after prev
  cases (single.qprev 0).symm.trans prev

/-- A queue of the VR 0 and, behind it, the VR 1. -/
def twoQueued : TimerQueue :=
  { (TimerQueue.empty.setQnext 0 (some 1)).setQprev 1 (some 0) with advQ := some 0 }

/-- **Removals that go wrong.** The key of the only queued VR is answered with -1.
The head of a longer queue cannot be dequeued. A VR that is not queued empties the
queue. -/
theorem removal_wrong :
    (∃ s, Run (step .plain) unguarded initial [.create 7 255] s ∧ s.q.Holds [(s.ds 1).vr] ∧
      (∃ s', s.vrrpRmqueue (s.key 1) = .ok (-1, s')) ∧ ¬ s.RemovesByKey 1 [(s.ds 1).vr]) ∧
    (twoQueued.Holds [0, 1] ∧ twoQueued.vrrpDequeue = .error .nullDeref ∧
      ¬ twoQueued.DequeuesRight [0, 1]) ∧
    (TimerQueue.oneQueued.Holds [0] ∧ (1 : VrPtr) ∉ [(0 : VrPtr)] ∧
      ¬ ∃ q', TimerQueue.oneQueued.vrrpRmqueueImpl 1 = .ok q' ∧
        TimerQueue.oneQueued.Spared [0] q') := by
  refine ⟨?_, ⟨⟨⟨rfl, rfl, rfl⟩, rfl, rfl, trivial⟩, rfl, ?_⟩,
    ⟨⟨rfl, rfl⟩, rfl, trivial⟩, by decide, ?_⟩
  · obtain ⟨s, nodes, run, -, -, vr, single, s', answer⟩ := queued_master
    refine ⟨s, run, vr ▸ holds_single single, ⟨s', answer⟩, ?_⟩
    rintro ⟨t, returns, -⟩
    cases answer.symm.trans returns
  · rintro ⟨q', returns, -⟩
    cases returns
  · rintro ⟨q', returns, spared, -⟩
    cases returns
    cases spared.1.1

end Daemon

end VrrpDaemon
