import VrrpDaemon.Behaviour.LoneTimer

/-!
# Room at the head of the queue

`vrrp_enqueue_impl` enters a VR so that it is met once when the queue is empty, or when
its head is followed by no other VR (`Room.enqueue`). In a queue with members the VR
becomes its own predecessor (`Hooked`). Then either it is at the head, or the head is a
VR that cannot be taken out, and this stays so while the VR alone is moved (`Blocked`).
-/

set_option autoImplicit false

namespace VrrpDaemon

open Machine

namespace TimerQueue

/-- There is room before the head: the queue is empty, or its head is followed by no
other VR, and is not this one. -/
def Room (entry : VrPtr) (q : TimerQueue) : Prop :=
  q.advQ = none ∨ ∃ h, h ≠ entry ∧ q.advQ = some h ∧ ∀ n, q.qnext h = some n → n = h

/-- The links of the VR do not lead back to it. -/
def Leaves (entry : VrPtr) (q : TimerQueue) : Prop :=
  ∀ steps, follow q.qnext (q.qnext entry) steps ≠ some entry

/-- The head of the queue is another VR, one that cannot be taken out. -/
def Stuck (entry : VrPtr) (q : TimerQueue) : Prop :=
  ∃ h, h ≠ entry ∧ q.advQ = some h ∧ q.qprev h = none ∧ q.qnext h ≠ none

variable {w : World} {vrs : Nat} {entry h : VrPtr} {place : Place} {q q' : TimerQueue}

/-! ## Entering a VR at the head -/

theorem leaves_last (last : q.qnext entry = none) : q.Leaves entry := by
  intro steps met
  rw [last, follow_none] at met
  cases met

/-- **Entered where there is room, a VR is met once.** -/
theorem Room.enqueue (room : q.Room entry) (leaves : q.advQ = none → q.Leaves entry)
    (returns : q.vrrpEnqueueImpl w vrs entry = .ok q') : Once q'.qnext q'.advQ entry := by
  rcases room with empty | ⟨h, other, queued, own⟩
  · rw [vrrpEnqueueImpl_empty empty] at returns
    cases returns
    exact once_head_iff.mpr (leaves empty)
  · obtain ⟨c, sum, covers, -, advQ, qnext⟩ := vrrpEnqueueImpl_occupied queued returns
    obtain rfl : c = h := scan_own own (fun n same => by cases queued.symm.trans same; rfl) covers
    rw [if_pos rfl] at advQ qnext
    rw [advQ, once_head_iff]
    intro steps met
    have starts : ∀ b, q'.qnext entry = some b → b = c := fun b next => by
      rw [qnext, Function.update_self] at next
      exact (Option.some.inj next).symm
    have closed : ∀ b d, b = c → q'.qnext b = some d → d = c := fun b d here next => by
      subst here
      rw [qnext, Function.update_of_ne other] at next
      exact own d next
    exact other (follow_closed starts closed met).symm

/-- Where a VR stands that is the only one, there is room for others. -/
theorem Stands.room (stands : q.Stands h place) (other : h ≠ entry) : q.Room entry := by
  cases place with
  | out => exact .inl stands.1
  | queued =>
      obtain ⟨queued, last, -⟩ := stands
      refine .inr ⟨h, other, queued, fun n next => ?_⟩
      cases last.symm.trans next
  | looped =>
      obtain ⟨queued, itself, -⟩ := stands
      exact .inr ⟨h, other, queued, fun n next => (Option.some.inj (itself.symm.trans next)).symm⟩

theorem Stands.once (stands : q.Stands entry .queued) : Once q.qnext q.advQ entry := by
  obtain ⟨queued, last, -⟩ := stands
  rw [queued]
  exact once_last last

/-- Once its links are cleared there is room as before. -/
theorem Room.isolate (room : q.Room entry) :
    (q.isolate entry).Room entry ∧ (q.isolate entry).Leaves entry := by
  refine ⟨?_, leaves_last (by simp [TimerQueue.isolate])⟩
  rcases room with empty | ⟨h, other, queued, own⟩
  · exact .inl empty
  · refine .inr ⟨h, other, queued, fun n next => own n ?_⟩
    simpa [TimerQueue.isolate, Function.update_of_ne other] using next

theorem Room.unhookBackward (room : q.Room entry) (returns : q.unhookBackward entry = .ok q') :
    q'.Room entry := by
  unfold TimerQueue.unhookBackward at returns
  split at returns
  · cases returns
    exact room
  · obtain ⟨before, -, returns⟩ := bind_eq_ok.mp returns
    cases returns
    exact room

/-- A VR with nothing before it and something behind it cannot be taken out. -/
theorem unhookBackward_first (first : q.qprev entry = none)
    (returns : q.unhookBackward entry = .ok q') : q.qnext entry = none ∧ q' = q := by
  unfold TimerQueue.unhookBackward at returns
  split at returns
  · rename_i last
    cases returns
    exact ⟨last, rfl⟩
  · rename_i n next
    obtain ⟨before, given, -⟩ := bind_eq_ok.mp returns
    have none : (q.setQprev n (q.qprev entry)).qprev entry = none := by
      rw [setQprev_qprev, first]
      by_cases here : entry = n
      · rw [here, Function.update_self]
      · rw [Function.update_of_ne here, first]
    rw [none] at given
    cases given

/-! ## Entering a VR into a queue with members -/

/-- The head of the queue is this VR, or one that cannot be taken out. -/
def Blocked (entry : VrPtr) (q : TimerQueue) : Prop := q.advQ = some entry ∨ q.Stuck entry

/-- Entered into a queue with members, the VR is its own predecessor, and at the head,
or behind nothing but itself. -/
def Hooked (entry : VrPtr) (q : TimerQueue) : Prop :=
  q.qprev entry = some entry ∧ (q.advQ = some entry ∨ q.qnext entry = some entry ∧ q.Stuck entry)

theorem Hooked.blocked (hooked : q.Hooked entry) : q.Blocked entry :=
  hooked.2.imp_right And.right

/-- A VR that is its own predecessor is not unhooked. -/
theorem unhookForward_self (itself : q.qprev entry = some entry) :
    q.unhookForward entry = q := by
  simp only [unhookForward, itself, setQnext, Function.update_eq_self]

theorem Hooked.unhookBackward (hooked : q.Hooked entry)
    (returns : q.unhookBackward entry = .ok q') : q'.Blocked entry := by
  unfold TimerQueue.unhookBackward at returns
  split at returns
  · cases returns
    exact hooked.blocked
  · rename_i n next
    obtain ⟨before, -, returns⟩ := bind_eq_ok.mp returns
    cases returns
    rcases hooked.2 with head | ⟨itself, h, other, queued, first, after⟩
    · exact .inl head
    · cases itself.symm.trans next
      refine .inr ⟨h, other, queued, ?_, after⟩
      simpa [Function.update_of_ne other] using first

/-- Links of the VR itself do not matter. -/
theorem Blocked.isolate (blocked : q.Blocked entry) : (q.isolate entry).Blocked entry := by
  rcases blocked with head | ⟨h, other, queued, first, after⟩
  · exact .inl head
  · refine .inr ⟨h, other, queued, ?_, ?_⟩
    · simpa [TimerQueue.isolate, Function.update_of_ne other] using first
    · simpa [TimerQueue.isolate, Function.update_of_ne other] using after

theorem Blocked.appendAfter {c : VrPtr} {sum : UInt32} (blocked : q.Blocked entry)
    (returns : q.appendAfter (some c) sum entry = .ok q') : q'.Blocked entry := by
  simp only [TimerQueue.appendAfter, deref_some, ok_bind] at returns
  cases returns
  rcases blocked with head | ⟨h, other, queued, first, after⟩
  · exact .inl head
  · refine .inr ⟨h, other, queued, ?_, ?_⟩
    · simpa [Function.update_of_ne other] using first
    · simp only [setTimeout_qnext, setQnext_qnext, setQprev_qnext, Function.update_of_ne other]
      by_cases here : h = c
      · subst here
        simp
      · rwa [Function.update_of_ne here]

theorem Blocked.insertBefore {c : VrPtr} {sum : UInt32} (blocked : q.Blocked entry)
    (returns : q.insertBefore (some c) sum entry = .ok q') : q'.Blocked entry := by
  obtain ⟨q₁, same, qprev, advQ, qnext⟩ := insertBefore_some q entry c sum
  rw [returns] at same
  cases same
  rcases blocked with head | ⟨h, other, queued, first, after⟩
  · refine .inl ?_
    rw [advQ, head]
    exact ite_self _
  · by_cases here : c = h
    · refine .inl ?_
      rw [advQ, queued, here, if_pos rfl]
    · have behind : some c ≠ q.advQ := fun same => here (Option.some.inj (same.trans queued))
      rw [if_neg behind] at advQ
      refine .inr ⟨h, other, advQ.trans queued, ?_, ?_⟩
      · rw [qprev, Function.update_of_ne other, Function.update_of_ne (Ne.symm here)]
        exact first
      · rw [qnext, Function.update_of_ne other]
        exact after

/-- Wherever the VR is entered, a blocked queue stays blocked. -/
theorem Blocked.insertAt {curr : Option VrPtr} {sum : UInt32} (blocked : q.Blocked entry)
    (returns : q.insertAt curr sum entry = .ok q') : q'.Blocked entry := by
  cases curr with
  | none =>
      rw [insertAt_none] at returns
      cases returns
  | some c =>
      unfold TimerQueue.insertAt at returns
      split at returns
      · exact blocked.appendAfter returns
      · exact blocked.insertBefore returns

end TimerQueue

end VrrpDaemon
