import VrrpDaemon.Behaviour.Queue

/-!
# Insertion into the timer queue

`adv_q` is a delta queue: the alarm is armed for its head, and the timeout
stored in a VR is the time from its own expiry to that of the VR behind it. So
the queue and the time left until the head fires encode an expiry time for every
VR (`expiries`), and an insertion is right when it adds the new VR at its own
expiry time and leaves those of the others as they were
(`TimerQueue.InsertsRight`).

`vrrp_enqueue_impl` inserts right into an empty queue only. Into any other it
links the new VR to itself (`vrrpEnqueueImpl_occupied`).
-/

set_option autoImplicit false

namespace VrrpDaemon

open Machine

/-- The expiry times of VRs in a row, when the first one fires at `now`. They are
natural numbers: a stored difference that wrapped would show in them. -/
def expiries (timeout : VrPtr → UInt32) : Nat → List VrPtr → List (VrPtr × Nat)
  | _, [] => []
  | now, p :: queue => (p, now) :: expiries timeout (now + (timeout p).toNat) queue

namespace TimerQueue

/-- The queue is a list of VRs, linked both ways. -/
def Holds (q : TimerQueue) (queue : List VrPtr) : Prop :=
  Segment q.qnext q.advQ queue none ∧ Backward q.qprev none queue

/-- **A right insertion.** The call returns, the entry stands between two parts
of the old queue, none of the VRs before it expires later and none behind it
earlier, and the queue with the interval that the alarm was last armed for
encodes the old expiry times and that of the entry. -/
def InsertsRight (w : World) (vrs : Nat) (entry : VrPtr) (queue : List VrPtr) (q : TimerQueue) :
    Prop :=
  ∃ q' front back events usec, q.vrrpEnqueueImpl w vrs entry = .ok q' ∧ queue = front ++ back ∧
    q'.Holds (front ++ entry :: back) ∧ q'.log = events ++ [.ualarm usec] ∧
    let old := expiries q.timeout (w.ualarm q.ualarmCalls).toNat queue
    let due := (q.timeout entry).toNat
    expiries q'.timeout usec.toNat (front ++ entry :: back) =
        old.take front.length ++ (entry, due) :: old.drop front.length ∧
      (∀ x ∈ old.take front.length, x.2 ≤ due) ∧ ∀ x ∈ old.drop front.length, due ≤ x.2

variable {w : World} {vrs : Nat} {entry : VrPtr} {queue : List VrPtr} {q q' : TimerQueue}

theorem Holds.empty_iff (holds : q.Holds queue) : q.advQ = none ↔ queue = [] := by
  obtain ⟨segment, -⟩ := holds
  cases queue with
  | nil => simpa using segment
  | cons p queue => simp [segment.1]

/-- No VR of a queue is its own predecessor. -/
theorem Holds.qprev_ne_self (holds : q.Holds queue) {p : VrPtr} (member : p ∈ queue) :
    q.qprev p ≠ some p := by
  have nodup := holds.1.nodup
  obtain ⟨front, back, rfl⟩ := List.append_of_mem member
  intro itself
  have backward := (backward_append.mp holds.2).1
  rcases List.eq_nil_or_concat front with rfl | ⟨front, last, rfl⟩
  · exact absurd (backward.1.symm.trans itself) (by simp)
  · simp only [List.concat_eq_append, List.append_assoc, List.singleton_append] at backward nodup
    have before : q.qprev p = some last := (backward_append.mp backward).2.1
    obtain rfl : last = p := Option.some.inj (before.symm.trans itself)
    have once : (last :: last :: back).Nodup := nodup.of_append_right
    simp at once

/-- **A VR entered into a queue with members becomes its own predecessor**, so
the result is not a queue of it. -/
theorem not_holds_of_occupied (occupied : q.advQ ≠ none)
    (returns : q.vrrpEnqueueImpl w vrs entry = .ok q') (member : entry ∈ queue) :
    ¬ q'.Holds queue := by
  obtain ⟨head, first⟩ := Option.ne_none_iff_exists'.mp occupied
  obtain ⟨c, sum, -, qprev, -, -⟩ := vrrpEnqueueImpl_occupied first returns
  have itself : q'.qprev entry = some entry := by rw [qprev, Function.update_self]
  exact fun holds => holds.qprev_ne_self member itself

/-- Into the empty queue a VR without a successor is inserted right. -/
theorem insertsRight_empty (empty : q.advQ = none) (last : q.qnext entry = none) :
    q.InsertsRight w vrs entry [] := by
  refine ⟨_, [], [], q.log ++ [.enqueue entry (q.timeout entry)], q.timeout entry,
    vrrpEnqueueImpl_empty empty, rfl, ⟨?_, ?_⟩, ?_, ?_⟩
  · simp [Segment, last]
  · simp [Backward]
  · rfl
  · simp [expiries]

/-- **`vrrp_enqueue_impl` as a delta-queue insertion.** For every well-formed
queue and every VR outside it, whatever the timeouts and the time left of the
alarm: the insertion is right if and only if the queue is empty and the VR keeps
no link to another. -/
theorem vrrpEnqueueImpl_insertsRight_iff (w : World) (vrs : Nat) (q : TimerQueue)
    (queue : List VrPtr) (entry : VrPtr) (holds : q.Holds queue) (outside : entry ∉ queue) :
    q.InsertsRight w vrs entry queue ↔ q.advQ = none ∧ q.qnext entry = none := by
  constructor
  · rintro ⟨q', front, back, events, usec, returns, rfl, after, -, -⟩
    by_cases empty : q.advQ = none
    · obtain ⟨rfl, rfl⟩ := List.append_eq_nil_iff.mp (holds.empty_iff.mp empty)
      rw [vrrpEnqueueImpl_empty empty] at returns
      cases returns
      exact ⟨empty, after.1.2⟩
    · exact absurd after (not_holds_of_occupied empty returns (by simp))
  · rintro ⟨empty, last⟩
    rw [holds.empty_iff.mp empty]
    exact insertsRight_empty empty last

/-- The VR 0 enters the empty queue. -/
theorem vrrpEnqueueImpl_insertsRight_first :
    (TimerQueue.empty.Holds [] ∧ (0 : VrPtr) ∉ ([] : List VrPtr)) ∧
      TimerQueue.empty.InsertsRight .plain 1 0 [] :=
  have holds : TimerQueue.empty.Holds [] := ⟨rfl, trivial⟩
  ⟨⟨holds, List.not_mem_nil⟩, (vrrpEnqueueImpl_insertsRight_iff .plain 1 .empty [] 0 holds
    List.not_mem_nil).mpr ⟨rfl, rfl⟩⟩

/-- A queue of the VR 0, and the VR 1 with a timeout of one second. -/
def oneQueued : TimerQueue :=
  { TimerQueue.empty.setTimeout 1 1000000 with advQ := some 0 }

/-- **A second VR is not inserted right**: with two seconds left of the alarm,
VR 1 belongs before VR 0 and becomes its own predecessor. -/
theorem vrrpEnqueueImpl_second_wrong :
    oneQueued.Holds [0] ∧ (1 : VrPtr) ∉ [(0 : VrPtr)] ∧
      ¬ oneQueued.InsertsRight { World.plain with ualarm := fun _ => 2000000 } 2 1 [0] := by
  refine ⟨⟨⟨rfl, rfl⟩, rfl, trivial⟩, by decide, ?_⟩
  rintro ⟨q', front, back, events, usec, returns, -, after, -⟩
  exact not_holds_of_occupied (by simp [oneQueued]) returns (by simp) after

end TimerQueue

end VrrpDaemon
