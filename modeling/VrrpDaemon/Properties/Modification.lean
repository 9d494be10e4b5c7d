import VrrpDaemon.Behaviour.Keys
import VrrpDaemon.Behaviour.Timers

/-!
# Modification of an instance

`vrrp_set_inst_prop` stores the attributes it is asked for at the one instance
that its key selects, or changes nothing (`vrrpSetInstProp_atomic`).

A new advertisement interval is to restart the timer of a running instance. The
restart goes through `vrrp_rmqueue` and `vrrp_enqueue` with the key of the
request, and its failure goes unnoticed. It takes place when these accept the key,
when the VR stands behind another one in the queue, which its `qprev` points to, and when
enough is left of the alarm to enter it at the head
(`vrrpSetInstProp_reschedules_iff`). The only VR has no link and is not taken out; the head of
a longer queue points back to itself and stays; and a VR entered further on is lost.
-/

set_option autoImplicit false

namespace VrrpDaemon

open Machine

/-! ## A VR that is taken out and entered again -/

namespace TimerQueue

variable {w : World} {vrs : Nat} {q q₁ q₂ : TimerQueue} {p : VrPtr} {t : UInt32}

/-- The VRs that a walk from the head comes to, up to the last. -/
def Chain (q : TimerQueue) (queue : List VrPtr) : Prop := Segment q.qnext q.advQ queue none

/-- The VR has a place in the second queue, among the other VRs of the first in the order they
had there. -/
def Moved (p : VrPtr) (q q' : TimerQueue) : Prop :=
  ∃ queue front back, q.Chain queue ∧ p ∈ queue ∧ queue.erase p = front ++ back ∧
    q'.Chain (front ++ p :: back)

/-- The VR stands behind the VR that its `qprev` points to. -/
def Follows (p : VrPtr) (q : TimerQueue) : Prop :=
  ∃ front before back, q.Chain (front ++ before :: p :: back) ∧ q.qprev p = some before

/-- A walk that goes on from the head of a row stops behind it. -/
theorem scan_behind {timeout : UInt32} {fuel : Nat} {start : Option VrPtr} {sum last : UInt32}
    {c : VrPtr} {queue : List VrPtr} (chain : Segment q.qnext start queue none)
    (walked : q.scan timeout fuel start sum = .ok (some c, last)) : c ∈ queue := by
  induction fuel generalizing start sum queue with
  | zero =>
      cases start with
      | none => simp [scan] at walked
      | some head =>
          cases queue with
          | nil => cases chain
          | cons head' rest =>
              cases chain.1
              simp only [scan] at walked
              split at walked
              · cases walked
              · cases walked
                exact List.mem_cons_self
  | succ fuel ih =>
      cases start with
      | none => simp [scan] at walked
      | some head =>
          cases queue with
          | nil => cases chain
          | cons head' rest =>
              cases chain.1
              rw [scan] at walked
              split at walked
              · exact List.mem_cons_of_mem _ (ih chain.2 walked)
              · cases walked
                exact List.mem_cons_self

/-- In a row no VR stands before itself. -/
theorem Chain.not_own {queue : List VrPtr} (chain : q.Chain queue) (member : p ∈ queue) :
    q.qnext p ≠ some p := by
  intro own
  obtain ⟨front, back, rfl⟩ := List.append_of_mem member
  have tail := (Segment.from_node chain).2
  rw [own] at tail
  have head := tail.start_eq
  have nodup := (Segment.from_node chain).nodup
  cases back with
  | nil => cases head
  | cons b back =>
      cases head
      exact (List.nodup_cons.mp nodup).1 List.mem_cons_self

/-- The successor of a VR in a row is in the row. -/
theorem Chain.mem_next {queue : List VrPtr} {r : VrPtr} (chain : q.Chain queue) (member : r ∈ queue)
    (next : q.qnext r = some p) : ∃ front back, queue = front ++ r :: p :: back := by
  obtain ⟨front, back, rfl⟩ := List.append_of_mem member
  have tail := (Segment.from_node chain).2
  rw [next] at tail
  cases back with
  | nil => cases tail
  | cons b back =>
      cases tail.1
      exact ⟨front, back, rfl⟩

/-- **The row without a VR** that stands behind the one its `qprev` points to. -/
theorem Chain.without {front back : List VrPtr} {before : VrPtr}
    (chain : q.Chain (front ++ before :: p :: back)) (prev : q.qprev p = some before) :
    (q.without p).Chain (front ++ before :: back) := by
  have behind := (List.nodup_append.mp (Segment.nodup chain)).2.1
  have other : before ≠ p := fun same => (List.nodup_cons.mp behind).1 (same ▸ List.mem_cons_self)
  have head : (q.without p).advQ = q.advQ := by simp [TimerQueue.without, prev]
  rw [Chain, head]
  refine Segment.unlink chain ?_ fun b notBefore notEntry => ?_
  · simp [TimerQueue.without, prev, Function.update_of_ne other]
  · simp [TimerQueue.without, prev, Function.update_of_ne notBefore, Function.update_of_ne notEntry]

/-- Into a row a VR is entered at the head exactly when enough is left of the alarm. -/
theorem Chain.covers_head_iff {queue : List VrPtr} {head c : VrPtr} {remain sum : UInt32}
    (chain : q.Chain (head :: queue)) (covers : q.Covers vrs p remain c sum) :
    c = head ↔ ¬ remain < q.timeout p := by
  rw [Covers, chain.1] at covers
  have outside := (List.nodup_cons.mp (Segment.nodup chain)).1
  by_cases short : remain < q.timeout p
  · refine iff_of_false ?_ (not_not.mpr short)
    rintro rfl
    cases fuel : scanFuel vrs with
    | zero =>
        rw [fuel, scan, if_pos short] at covers
        cases covers
    | succ fuel' =>
        rw [fuel, scan, if_pos short] at covers
        exact outside (scan_behind chain.2 covers)
  · refine iff_of_true ?_ short
    cases fuel : scanFuel vrs <;>
      · rw [fuel, scan, if_neg short] at covers
        cases covers
        rfl

theorem exists_cons (front : List VrPtr) (p : VrPtr) (back : List VrPtr) :
    ∃ first more, front ++ p :: back = first :: more := by
  cases front with
  | nil => exact ⟨p, back, rfl⟩
  | cons first front => exact ⟨first, front ++ p :: back, rfl⟩

/-- A VR in a row that is not the first stands behind another one. -/
theorem Chain.exists_before {queue : List VrPtr} (chain : q.Chain queue) (member : p ∈ queue)
    (notFirst : q.advQ ≠ some p) : ∃ front before back, queue = front ++ before :: p :: back := by
  obtain ⟨front, back, rfl⟩ := List.append_of_mem member
  rcases List.eq_nil_or_concat front with rfl | ⟨front, before, rfl⟩
  · exact absurd chain.1 notFirst
  · exact ⟨front, before, back, by rw [List.concat_eq_append, List.append_assoc]; rfl⟩

/-- A VR that is in the row after it was entered into a queue with VRs was entered at the head:
entered anywhere else it points to itself. -/
theorem Chain.entered_first {head : VrPtr} {front rear : List VrPtr}
    (chain : q₂.Chain (front ++ p :: rear)) (occupied : q.advQ = some head)
    (entered : q.vrrpEnqueueImpl w vrs p = .ok q₂) :
    front = [] ∧ head ≠ p ∧ q₂.qnext = Function.update q.qnext p (some head) ∧
      ∃ sum, q.Covers vrs p (w.ualarm q.ualarmCalls) head sum := by
  obtain ⟨c, sum, covers, -, advQ, qnext⟩ := vrrpEnqueueImpl_occupied occupied entered
  have apart := chain.not_own (p := p) (by simp)
  rw [qnext, Function.update_self] at apart
  obtain rfl : c = head := by
    by_contra inner
    exact apart (if_neg inner)
  rw [if_pos rfl] at apart advQ
  have first : front = [] := by
    cases front with
    | nil => rfl
    | cons first front =>
        cases advQ.symm.trans chain.1
        exact absurd (by simp) (List.nodup_cons.mp (Segment.nodup chain)).1
  exact ⟨first, fun same => apart (congrArg some same), by rw [qnext, if_pos rfl], sum, covers⟩

section Retimed

variable {b : VrPtr} (prev : q.qprev p = some b)
  (back : ((q.without p).setTimeout p t).vrrpEnqueueImpl w vrs p = .ok q₂)
include prev back

/-- A VR that keeps a place was entered at the head, and was taken out from behind another VR. -/
theorem Moved.follows (moved : q.Moved p q₂) : q.Follows p ∧ ¬ w.ualarm q.ualarmCalls < t := by
  have start : (q.without p).advQ = q.advQ := by simp [TimerQueue.without, prev]
  have own : ((q.without p).setTimeout p t).timeout p = t := Function.update_self ..
  obtain ⟨queue, front, rear, chain, member, erased, chain'⟩ := moved
  obtain ⟨head, queued⟩ : ∃ head, q.advQ = some head := by
    cases queue with
    | nil => cases member
    | cons head rest => exact ⟨head, chain.1⟩
  have occupied : ((q.without p).setTimeout p t).advQ = some head := start.trans queued
  obtain ⟨rfl, notHead, qnext, sum, covers⟩ := chain'.entered_first occupied back
  rw [List.nil_append] at chain' erased
  -- it stood behind a VR, which is still in the row
  have notFirst : q.advQ ≠ some p := fun first =>
    notHead (Option.some.inj (queued.symm.trans first))
  obtain ⟨pre, before, rest, rfl⟩ := chain.exists_before member notFirst
  have next : q.qnext before = some p := (Segment.from_node chain).2.start_eq
  have other : before ≠ p := fun same => chain.not_own (by simp) (same ▸ next)
  have kept : before ∈ rear := by
    rw [← erased]
    exact (List.mem_erase_of_ne other).mpr (by simp)
  -- and which points past it now, so that it is the one `qprev` pointed to
  obtain rfl : b = before := by
    by_contra different
    have still : q₂.qnext before = some p := by
      rw [qnext, Function.update_of_ne other, setTimeout_qnext, ← next]
      simp [TimerQueue.without, prev, Function.update_of_ne other,
        Function.update_of_ne (Ne.symm different)]
    obtain ⟨front, back, again⟩ := chain'.mem_next (List.mem_cons_of_mem _ kept) still
    have outside := (List.nodup_cons.mp (Segment.nodup chain')).1
    cases front with
    | nil => exact other (List.cons.inj again).1.symm
    | cons first front =>
        obtain ⟨-, again⟩ := List.cons.inj again
        exact outside (by simp [again])
  refine ⟨⟨pre, b, rest, chain, prev⟩, ?_⟩
  obtain ⟨first, more, split⟩ := exists_cons pre b rest
  have timed : ((q.without p).setTimeout p t).Chain (first :: more) := split ▸ chain.without prev
  cases occupied.symm.trans timed.1
  exact own ▸ (timed.covers_head_iff covers).mp rfl

/-- From behind another VR it is taken out, and entered at the head if enough is left. -/
theorem Follows.moved (follows : q.Follows p) (enough : ¬ w.ualarm q.ualarmCalls < t) :
    q.Moved p q₂ := by
  have own : ((q.without p).setTimeout p t).timeout p = t := Function.update_self ..
  obtain ⟨pre, before, rest, chain, points⟩ := follows
  cases prev.symm.trans points
  obtain ⟨first, more, split⟩ := exists_cons pre b rest
  have timed : ((q.without p).setTimeout p t).Chain (first :: more) := split ▸ chain.without prev
  obtain ⟨c, sum, covers, -, advQ, qnext⟩ := vrrpEnqueueImpl_occupied timed.1 back
  obtain rfl : c = first := (timed.covers_head_iff covers).mpr (own.symm ▸ enough)
  rw [if_pos rfl] at advQ qnext
  have absent : p ∉ pre ++ [b] := fun member => by
    rw [List.append_cons] at chain
    exact (List.nodup_append.mp (Segment.nodup chain)).2.2 p member p List.mem_cons_self rfl
  have erased : (pre ++ b :: p :: rest).erase p = c :: more := by
    rw [List.append_cons, List.erase_append_right _ absent, List.erase_cons_head, ← split]
    simp
  have outside : p ∉ c :: more := by
    rw [← erased]
    exact (Segment.nodup chain).not_mem_erase
  refine ⟨_, [], c :: more, chain, by simp, erased, advQ, ?_⟩
  rw [qnext, Function.update_self]
  have row : Segment ((q.without p).setTimeout p t).qnext (some c) (c :: more) none :=
    ⟨rfl, timed.2⟩
  refine row.congr fun r member => Function.update_of_ne ?_ ..
  rintro rfl
  exact outside member

end Retimed

/-- **A VR that is taken out and entered again keeps a place in the queue** exactly when it
stands behind the VR that its `qprev` points to, and the timeout is not more than what is left
of the alarm. -/
theorem moved_iff (link : ¬ (q.qnext p = none ∧ q.qprev p = none))
    (out : q.vrrpRmqueueImpl p = .ok q₁)
    (back : (q₁.setTimeout p t).vrrpEnqueueImpl w vrs p = .ok q₂) :
    q.Moved p q₂ ↔ q.Follows p ∧ ¬ w.ualarm q.ualarmCalls < t := by
  have removable := vrrpRmqueueImpl_returns_iff.mp ⟨q₁, out⟩
  rw [vrrpRmqueueImpl_eq removable] at out
  cases out
  obtain ⟨b, prev⟩ : ∃ b, q.qprev p = some b :=
    Option.ne_none_iff_exists'.mp fun first => link ⟨removable first, first⟩
  exact ⟨fun moved => moved.follows prev back, fun right => right.1.moved prev back right.2⟩

end TimerQueue

namespace Daemon

variable {w : World} {s s' : Daemon} {nodes : List DsPtr} {key : Key} {v : DsPtr}

/-! ## One instance, or nothing -/

/-- An attribute keeps its value where the request says -1, and has the value asked
for elsewhere, the priority reduced to its 8 bits. -/
structure ModifiedAs (old new : VrrpAttr) (pri delay preeMode acptMode : Int) : Prop where
  pri : new.pri = if pri = -1 then old.pri else UInt8.ofInt pri
  delay : new.delay = if delay = -1 then old.delay else delay
  preeMode : new.preeMode = if preeMode = -1 then old.preeMode else preeMode
  acceptMode : new.acceptMode = if acptMode = -1 then old.acceptMode else acptMode

theorem modifiedAs_of_given {old : VrrpAttr} {pri delay preeMode acptMode : Int}
    (preempt : modeGiven preeMode = true) (accept : modeGiven acptMode = true) :
    ModifiedAs old (modifiedAttr old pri delay preeMode acptMode) pri delay preeMode acptMode where
  pri := by
    rw [modifiedAttr_pri, ite_not]
    rfl
  delay := by
    rw [modifiedAttr_delay, ite_not]
    rfl
  preeMode := by
    rw [modifiedAttr_preeMode]
    exact newMode_eq preempt
  acceptMode := by
    rw [modifiedAttr_acceptMode]
    exact newMode_eq accept

/-- **A modification is atomic.** In every reachable state and for every key and all
values: a modification that does not return `VRRP_SUCCESS` leaves the daemon as it
is. One that does found exactly one listed instance that is compatible with the
key. It stores the attributes asked for there, and changes no attributes of another
instance, no key, no state and nothing of the list. -/
theorem vrrpSetInstProp_atomic (w : World) (s s' : Daemon) (reachable : Reachable w s) (key : Key)
    (pri delay preeMode acptMode ret : Int)
    (returns : s.vrrpSetInstProp w key pri delay preeMode acptMode = .ok (ret, s')) :
    (ret ≠ VrrpRet.success.code → s' = s) ∧
      (ret = VrrpRet.success.code → ∃ v,
        s.Only key v ∧
        ModifiedAs (s.vr v).attr (s'.vr v).attr pri delay preeMode acptMode ∧
        (∀ u, s.Listed u → u ≠ v → (s'.vr u).attr = (s.vr u).attr) ∧
        (∀ u, s.Listed u → s'.key u = s.key u ∧ (s'.ds u).state = (s.ds u).state) ∧
        ∀ nodes, s.Linked nodes → s'.Linked nodes) := by
  have shape := vrrpSetInstProp_shape returns
  rcases vrrpSetInstProp_core returns with ⟨failed, rfl, -⟩ | ⟨rfl, v, modifies, core⟩
  · exact ⟨fun _ => rfl, fun success => absurd success failed⟩
  · refine ⟨fun failed => absurd rfl failed, fun _ => ?_⟩
    have only := reachable.search_iff.mp modifies.2.2
    obtain ⟨nodes, linked⟩ := reachable.linked
    have ds : s'.ds = s.ds := (ds_of_core core).trans rfl
    refine ⟨v, only, ?_, ?_, ?_, fun _ linked => linked.of_shape shape⟩
    · rw [vrrpSetInstProp_attr modifies returns]
      exact modifiedAs_of_given modifies.1 modifies.2.1
    · intro u listed other
      have different : (s.ds u).vr ≠ (s.ds v).vr := fun same =>
        other (linked.vr_inj (linked.listed_iff.mp listed) (linked.listed_iff.mp only.listed) same)
      rw [vr, ds, vrs_of_core core]
      simp [setAttr, Function.update_of_ne different, vr]
    · intro u _
      rw [ds]
      exact ⟨key_of_shape shape u, rfl⟩

/-- A modification of the instance of VRID 7 that selects it by its VRID alone. -/
theorem vrrpSetInstProp_atomic_wildcard :
    ∃ s s' v, Reachable .plain s ∧
      s.vrrpSetInstProp .plain ⟨7, none, afUnspec⟩ 50 3 (-1) (-1) =
        .ok (VrrpRet.success.code, s') ∧
      s.Only ⟨7, none, afUnspec⟩ v ∧
      ModifiedAs (s.vr v).attr (s'.vr v).attr 50 3 (-1) (-1) := by
  have ran : passes (fun s => passes (fun reply => reply.1 == VrrpRet.success.code)
      (s.vrrpSetInstProp .plain ⟨7, none, afUnspec⟩ 50 3 (-1) (-1)))
        (exec (step .plain) [.create 7 100, .create 8 100] initial) = true := by decide +kernel
  obtain ⟨s, returns, modified⟩ := exists_of_passes ran
  obtain ⟨⟨ret, s'⟩, answer, status⟩ := exists_of_passes modified
  rw [beq_iff_eq] at status
  dsimp only at status
  subst status
  have reachable : Reachable .plain s := ⟨_, run_of_exec returns⟩
  obtain ⟨v, only, stored, -⟩ :=
    (vrrpSetInstProp_atomic .plain s s' reachable _ 50 3 (-1) (-1) _ answer).2 rfl
  exact ⟨s, s', v, reachable, answer, only, stored⟩

/-! ## The timer -/

/-- Between the two states the VR of the instance was removed from the queue and entered again,
once, with the interval of these attributes, and no other VR was: the calls say so, and the VR
has a place in the queue among the others, which are in the order they had. -/
structure Rescheduled (s s' : Daemon) (v : DsPtr) (attr : VrrpAttr) : Prop where
  calls : ∃ events, s'.q.log = s.q.log ++ events ∧ events.filter TimerEvent.edits =
    [.rmqueue (s.ds v).vr, .enqueue (s.ds v).vr (runningInterval (s.ds v).state attr)]
  moved : s.q.Moved (s.ds v).vr s'.q

theorem withDelay_withPri {old : VrrpAttr} {pri delay : Int} (given : delay ≠ vrPropUnchange) :
    withDelay (withPri old pri) delay =
      { old with pri := if pri = -1 then old.pri else UInt8.ofInt pri, delay := delay } := by
  rw [withDelay, if_pos given, withPri, vrPropUnchange]
  by_cases kept : pri = -1
  · simp only [kept, ne_eq, not_true_eq_false, reduceIte]
  · simp only [kept, ne_eq, not_false_eq_true, reduceIte]

/-- **A new interval restarts the timer** exactly when the key has a VRID and a
family that the queue functions accept, the VR stands behind the one that its `qprev` points to,
and no less than the new timeout is left of the alarm. In every reachable
state, for every key that selects a running instance and every positive interval. -/
theorem vrrpSetInstProp_reschedules_iff (w : World) (s s' : Daemon) (reachable : Reachable w s)
    (key : Key) (v : DsPtr) (selected : s.vrrpSearchInst key = .ok (some v))
    (running : (s.ds v).state.running = true) (pri delay preeMode acptMode : Int)
    (positive : 0 < delay)
    (returns : s.vrrpSetInstProp w key pri delay preeMode acptMode =
      .ok (VrrpRet.success.code, s')) :
    let attr := { (s.vr v).attr with
      pri := if pri = -1 then (s.vr v).attr.pri else UInt8.ofInt pri
      delay := delay }
    s.Rescheduled s' v attr ↔
      (key.vid ≠ 0 ∧ queueFamily key.af = true) ∧ s.q.Follows (s.ds v).vr ∧
        ¬ w.ualarm s.q.ualarmCalls < runningInterval (s.ds v).state attr := by
  intro attr
  obtain ⟨nodes, linked⟩ := reachable.linked
  rcases vrrpSetInstProp_outcome returns with ⟨failed, -⟩ | ⟨-, u, modifies, s₁, changed, rfl⟩
  · exact absurd rfl failed
  cases selected.symm.trans modifies.2.2
  have given : delay ≠ vrPropUnchange := by
    rw [vrPropUnchange]
    omega
  obtain ⟨s₂, requeued, rfl⟩ := changeDelay_requeue given changed
  rw [withDelay_withPri given] at requeued
  have shape : ((s.setAttr (s.ds v).vr attr).onQueue (·.lock)).shape = s.shape :=
    (shape_onQueue _ _).trans (shape_setAttr _ _ _)
  have searched := (linked.search_congr shape key).trans selected
  rw [changeModes_eq]
  rcases (linked.of_shape shape).requeue_cases searched requeued with
    ⟨accepted, link, q₁, q₂, out, back, rfl⟩ | ⟨refused, rfl⟩
  · -- the VR is taken out and entered again
    have stored : ((s.setAttr (s.ds v).vr attr).onQueue (·.lock)).vr v =
        { s.vr v with attr := attr } := Function.update_self ..
    have interval : ((s.setAttr (s.ds v).vr attr).onQueue (·.lock)).enqueueTimeout v
        (q₁.timeout (s.ds v).vr) = runningInterval (s.ds v).state attr := by
      rw [enqueueTimeout_running (by exact running), stored]
      rfl
    have entered : (q₁.setTimeout (s.ds v).vr (runningInterval (s.ds v).state attr)).vrrpEnqueueImpl
        w s.vrTop (s.ds v).vr = .ok q₂ := interval ▸ back
    have edits : TimerQueue.Edits w s.vrTop s.q _ q₂.unlock :=
      ((TimerQueue.Edits.refl.note .lock rfl).retime out entered).note .unlock rfl
    have moved : s.q.lock.Moved (s.ds v).vr q₂ ↔ _ := TimerQueue.moved_iff link out entered
    constructor
    · exact fun rescheduled => ⟨accepted, moved.mp rescheduled.moved⟩
    · exact fun right => ⟨edits.log, moved.mpr right.2⟩
  · -- the queue is left alone
    refine iff_of_false ?_ ?_
    · rintro ⟨⟨events, logged, calls⟩, -⟩
      have quiet : TimerQueue.Edits w s.vrTop s.q [] (s.q.lock).unlock :=
        (TimerQueue.Edits.refl.note .lock rfl).note .unlock rfl
      rw [quiet.calls_eq logged] at calls
      cases calls
    · rintro ⟨accepted, ⟨front, before, rear, -, prev⟩, -⟩
      refine refused ⟨accepted, fun alone => ?_⟩
      cases prev.symm.trans alone.2

/-- A world in which three seconds are left of every alarm. -/
def threeLeft : World := { World.plain with ualarm := fun _ => 3000000 }

/-- With three seconds left of the alarm the VR of a second master is entered before that of the
first one. A new interval for the first one restarts its timer: its VR is the first one then. -/
theorem vrrpSetInstProp_reschedules_second :
    ∃ s s' v, Reachable threeLeft s ∧ s.q.Chain [1, 0] ∧ (s.ds v).vr = 0 ∧
      s.vrrpSetInstProp threeLeft (.sample 7) (-1) 2 (-1) (-1) = .ok (VrrpRet.success.code, s') ∧
      s'.q.Chain [0, 1] ∧
      s.Rescheduled s' v { (s.vr v).attr with pri := (s.vr v).attr.pri, delay := 2 } := by
  have ran : passes (fun s => passes (· == some 1) (s.vrrpSearchInst (.sample 7)) &&
      decide ((s.ds 1).state = .mast ∧ (s.ds 1).vr = 0 ∧ s.q.advQ = some 1 ∧
        s.q.qnext 1 = some 0 ∧ s.q.qnext 0 = none ∧ s.q.qprev 0 = some 1 ∧
        ¬ threeLeft.ualarm s.q.ualarmCalls < runningInterval (s.ds 1).state
          { (s.vr 1).attr with pri := (s.vr 1).attr.pri, delay := 2 }) &&
      passes (fun reply => decide (reply.1 = VrrpRet.success.code ∧ reply.2.q.advQ = some 0 ∧
          reply.2.q.qnext 0 = some 1 ∧ reply.2.q.qnext 1 = none))
        (s.vrrpSetInstProp threeLeft (.sample 7) (-1) 2 (-1) (-1)))
      (exec (step threeLeft) [.create 7 255, .create 8 255] initial) = true := by decide +kernel
  obtain ⟨s, returns, tested⟩ := exists_of_passes ran
  simp only [Bool.and_eq_true] at tested
  obtain ⟨⟨found, before⟩, modified⟩ := tested
  obtain ⟨master, vr, advQ, next, last, prev, enough⟩ := of_decide_eq_true before
  obtain ⟨v, searched, one⟩ := exists_of_passes found
  obtain rfl := beq_iff_eq.mp one
  obtain ⟨⟨ret, s'⟩, answer, after⟩ := exists_of_passes modified
  obtain ⟨rfl, advQ', next', last'⟩ := of_decide_eq_true after
  have reachable : Reachable _ s := ⟨_, run_of_exec returns⟩
  have chain : s.q.Chain [1, 0] := ⟨advQ, next, last⟩
  refine ⟨s, s', 1, reachable, chain, vr, answer, ⟨advQ', next', last'⟩, ?_⟩
  refine (vrrpSetInstProp_reschedules_iff _ s s' reachable _ 1 searched (by rw [master]; rfl) (-1)
    2 (-1) (-1) (by decide) answer).mpr ⟨by decide, ?_, enough⟩
  exact ⟨[], 1, [], vr.symm ▸ chain, vr.symm ▸ prev⟩

/-- **Timers that are not restarted.** A master alone in the queue gets an interval
of 3 seconds; the daemon only takes the lock and gives it back. A master whose VR is the first
of two gets one of 2 seconds: its VR is entered before itself, and the other one is lost. -/
theorem vrrpSetInstProp_reschedules_only :
    (∃ s s', Run (step .plain) unguarded initial [.create 7 255] s ∧
      s.vrrpSearchInst (.sample 7) = .ok (some 1) ∧ (s.ds 1).state = .mast ∧
      s.vrrpSetInstProp .plain (.sample 7) (-1) 3 (-1) (-1) = .ok (VrrpRet.success.code, s') ∧
      s'.q.log = s.q.log ++ [.lock, .unlock] ∧ ∀ attr, ¬ s.Rescheduled s' 1 attr) ∧
    ∃ s s', Run (step threeLeft) unguarded initial [.create 7 255, .create 8 255] s ∧
      s.vrrpSearchInst (.sample 8) = .ok (some 2) ∧ (s.ds 2).state = .mast ∧
      s.vrrpSetInstProp threeLeft (.sample 8) (-1) 2 (-1) (-1) = .ok (VrrpRet.success.code, s') ∧
      (s'.q.advQ = some (s.ds 2).vr ∧ s'.q.qnext (s.ds 2).vr = some (s.ds 2).vr) ∧
      ∀ attr, ¬ s.Rescheduled s' 2 attr := by
  constructor
  · have ran : passes (fun s => passes (· == some 1) (s.vrrpSearchInst (.sample 7)) &&
        (s.ds 1).state == .mast &&
        passes (fun reply => reply.1 == VrrpRet.success.code &&
            reply.2.q.log == s.q.log ++ [.lock, .unlock])
          (s.vrrpSetInstProp .plain (.sample 7) (-1) 3 (-1) (-1)))
        (exec (step .plain) [.create 7 255] initial) = true := by decide +kernel
    obtain ⟨s, returns, tested⟩ := exists_of_passes ran
    simp only [Bool.and_eq_true, beq_iff_eq] at tested
    obtain ⟨⟨found, master⟩, modified⟩ := tested
    obtain ⟨v, searched, one⟩ := exists_of_passes found
    obtain rfl := beq_iff_eq.mp one
    obtain ⟨⟨ret, s'⟩, answer, reply⟩ := exists_of_passes modified
    simp only [Bool.and_eq_true, beq_iff_eq] at reply
    obtain ⟨rfl, log⟩ := reply
    refine ⟨s, s', run_of_exec returns, searched, master, answer, log, ?_⟩
    rintro attr ⟨⟨events, logged, calls⟩, -⟩
    rw [List.append_cancel_left (logged.symm.trans log)] at calls
    cases calls
  · have ran : passes (fun s => passes (· == some 2) (s.vrrpSearchInst (.sample 8)) &&
        (s.ds 2).state == .mast &&
        passes (fun reply => decide (reply.1 = VrrpRet.success.code ∧
            reply.2.q.advQ = some (s.ds 2).vr ∧
            reply.2.q.qnext (s.ds 2).vr = some (s.ds 2).vr))
          (s.vrrpSetInstProp threeLeft (.sample 8) (-1) 2 (-1) (-1)))
        (exec (step threeLeft) [.create 7 255, .create 8 255] initial) = true := by decide +kernel
    obtain ⟨s, returns, tested⟩ := exists_of_passes ran
    simp only [Bool.and_eq_true, beq_iff_eq] at tested
    obtain ⟨⟨found, master⟩, modified⟩ := tested
    obtain ⟨v, searched, two⟩ := exists_of_passes found
    obtain rfl := beq_iff_eq.mp two
    obtain ⟨⟨ret, s'⟩, answer, after⟩ := exists_of_passes modified
    obtain ⟨rfl, head, own⟩ := of_decide_eq_true after
    refine ⟨s, s', run_of_exec returns, searched, master, answer, ⟨head, own⟩, ?_⟩
    rintro attr ⟨-, queue, front, back, -, -, -, chain⟩
    exact chain.not_own (by simp) own

end Daemon

end VrrpDaemon
