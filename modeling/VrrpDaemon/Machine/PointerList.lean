import Mathlib.Data.List.Nodup

/-!
# Lists threaded through pointers

A linked list in memory is a pair of maps, from a node to the node after it
and to the node before it. `Segment next start nodes stop` says that following
`next` from `start` visits `nodes` in order and arrives at `stop`;
`Backward prev before nodes` says that `prev` of each node is the node before
it, and `before` for the first.

A segment that stops at the null pointer visits every node once
(`Segment.nodup`) and is determined by where it starts (`Segment.unique`).
A segment of a concatenation splits at the seam (`segment_append`), so a splice
only has to be checked where it changes a link. `Doubly.splice` puts a node in,
at the end (`Doubly.append`) or before another one (`Doubly.insert`), and
`Doubly.unlink` takes one out.
-/

set_option autoImplicit false

namespace Machine

universe u

variable {α : Type u}

/-- Following `next` from `start` visits the nodes in order and arrives at
`stop`. -/
def Segment (next : α → Option α) : Option α → List α → Option α → Prop
  | start, [], stop => start = stop
  | start, a :: nodes, stop => start = some a ∧ Segment next (next a) nodes stop

/-- Each node's `prev` is the node before it, and `before` for the first. -/
def Backward (prev : α → Option α) : Option α → List α → Prop
  | _, [] => True
  | before, a :: nodes => prev a = before ∧ Backward prev (some a) nodes

@[simp] theorem segment_nil (next : α → Option α) (start stop : Option α) :
    Segment next start [] stop ↔ start = stop := Iff.rfl

@[simp] theorem segment_cons (next : α → Option α) (start stop : Option α) (a : α)
    (nodes : List α) :
    Segment next start (a :: nodes) stop ↔
      start = some a ∧ Segment next (next a) nodes stop := Iff.rfl

@[simp] theorem backward_nil (prev : α → Option α) (before : Option α) :
    Backward prev before [] := trivial

@[simp] theorem backward_cons (prev : α → Option α) (before : Option α) (a : α)
    (nodes : List α) :
    Backward prev before (a :: nodes) ↔
      prev a = before ∧ Backward prev (some a) nodes := Iff.rfl

/-! ## Segments -/

/-- **A segment of a concatenation splits at the seam.** -/
theorem segment_append {next : α → Option α} {front back : List α} {start stop : Option α} :
    Segment next start (front ++ back) stop ↔
      ∃ seam, Segment next start front seam ∧ Segment next seam back stop := by
  induction front generalizing start with
  | nil => simp
  | cons a front ih => simp [ih, and_assoc]

theorem Segment.congr {next next' : α → Option α} {nodes : List α} {start stop : Option α}
    (segment : Segment next start nodes stop) (same : ∀ a ∈ nodes, next' a = next a) :
    Segment next' start nodes stop := by
  induction nodes generalizing start with
  | nil => exact segment
  | cons a nodes ih =>
      obtain ⟨here, rest⟩ := segment
      refine ⟨here, ?_⟩
      rw [same a List.mem_cons_self]
      exact ih rest fun b member => same b (List.mem_cons_of_mem _ member)

/-- What holds of the first node and along the links holds of every node. -/
theorem Segment.closed {next : α → Option α} {nodes : List α} {start stop : Option α}
    {holds : α → Prop} (segment : Segment next start nodes stop)
    (starts : ∀ a, start = some a → holds a)
    (closed : ∀ a b, holds a → next a = some b → holds b) : ∀ a ∈ nodes, holds a := by
  induction nodes generalizing start with
  | nil => simp
  | cons a nodes ih =>
      obtain ⟨here, rest⟩ := segment
      have first := starts a here
      intro b member
      rcases List.mem_cons.mp member with rfl | later
      · exact first
      · exact ih rest (fun c next => closed a c first next) b later

/-- A list that ends is determined by where it starts. -/
theorem Segment.unique {next : α → Option α} {first second : List α} {start : Option α}
    (one : Segment next start first none) (two : Segment next start second none) :
    first = second := by
  induction first generalizing start second with
  | nil =>
      cases second with
      | nil => rfl
      | cons b second =>
          obtain rfl : start = none := one
          cases two.1
  | cons a first ih =>
      cases second with
      | nil =>
          obtain rfl : start = none := two
          cases one.1
      | cons b second =>
          obtain ⟨rfl, restOne⟩ := one
          obtain ⟨here, restTwo⟩ := two
          cases here
          rw [ih restOne restTwo]

/-- The rest of a list from one of its nodes. -/
theorem Segment.from_node {next : α → Option α} {front back : List α} {start : Option α} {a : α}
    (segment : Segment next start (front ++ a :: back) none) :
    Segment next (some a) (a :: back) none := by
  obtain ⟨seam, -, rest⟩ := segment_append.mp segment
  obtain ⟨rfl, tail⟩ := rest
  exact ⟨rfl, tail⟩

/-- **A list that ends visits every node once**: from a node visited twice the
rest of the list would have two lengths. -/
theorem Segment.nodup {next : α → Option α} {nodes : List α} {start : Option α}
    (segment : Segment next start nodes none) : nodes.Nodup := by
  induction nodes generalizing start with
  | nil => exact List.nodup_nil
  | cons a nodes ih =>
      refine List.nodup_cons.mpr ⟨fun member => ?_, ih segment.2⟩
      obtain ⟨front, back, rfl⟩ := List.append_of_mem member
      have whole : Segment next (some a) (a :: (front ++ a :: back)) none := ⟨rfl, segment.2⟩
      have again : Segment next (some a) (a :: back) none := segment.2.from_node
      have lengths := congrArg List.length (whole.unique again)
      simp at lengths
      omega

/-- A list that ends starts at its first node. -/
theorem Segment.start_eq {next : α → Option α} {nodes : List α} {start : Option α}
    (segment : Segment next start nodes none) : start = nodes.head? := by
  cases nodes with
  | nil => exact segment
  | cons a nodes => exact segment.1

/-- **Leaving out a node**: the one before it points past it. -/
theorem Segment.unlink {next next' : α → Option α} {front back : List α} {start : Option α}
    {a victim : α} (segment : Segment next start (front ++ a :: victim :: back) none)
    (seam : next' a = next victim) (others : ∀ b, b ≠ a → b ≠ victim → next' b = next b) :
    Segment next' start (front ++ a :: back) none := by
  have distinct := List.nodup_append.mp segment.nodup
  have behind := List.nodup_cons.mp distinct.2.1
  have victimBack : victim ∉ back := (List.nodup_cons.mp behind.2).1
  obtain ⟨middle, before, rfl, -, tail⟩ := segment_append.mp segment
  refine segment_append.mpr ⟨some a, before.congr fun b member => others b ?_ ?_, rfl, ?_⟩
  · rintro rfl
    exact distinct.2.2 b member b List.mem_cons_self rfl
  · rintro rfl
    exact distinct.2.2 b member b (by simp) rfl
  · rw [seam]
    refine tail.congr fun b member => others b ?_ ?_
    · rintro rfl
      exact behind.1 (List.mem_cons_of_mem _ member)
    · rintro rfl
      exact victimBack member

/-! ## Following links that may not end -/

/-- The node that is met after a number of steps. -/
def follow (next : α → Option α) (start : Option α) : Nat → Option α
  | 0 => start
  | steps + 1 => (follow next start steps).bind next

/-- The node is met exactly once. -/
def Once (next : α → Option α) (start : Option α) (a : α) : Prop :=
  ∃! steps, follow next start steps = some a

section Follow

variable {next : α → Option α} {start : Option α} {a b : α}

theorem follow_succ (steps : Nat) :
    follow next start (steps + 1) = follow next (start.bind next) steps := by
  induction steps with
  | zero => rfl
  | succ steps ih =>
      rw [follow, ih]
      rfl

/-- What holds of the first node and along the links holds of every node met. -/
theorem follow_closed {holds : α → Prop} (starts : ∀ b, start = some b → holds b)
    (closed : ∀ b c, holds b → next b = some c → holds c) {steps : Nat}
    (met : follow next start steps = some b) : holds b := by
  induction steps generalizing b with
  | zero => exact starts b met
  | succ steps ih =>
      obtain ⟨c, before, linked⟩ := Option.bind_eq_some_iff.mp met
      exact closed c b (ih before) linked

theorem follow_none (steps : Nat) : follow next none steps = none := by
  induction steps with
  | zero => rfl
  | succ steps ih =>
      rw [follow, ih]
      rfl

theorem not_once_none : ¬ Once next none a := by
  rintro ⟨steps, met, -⟩
  rw [follow_none] at met
  cases met

/-- **The first node is met once** exactly if the links behind it never lead back. -/
theorem once_head_iff : Once next (some a) a ↔ ∀ steps, follow next (next a) steps ≠ some a := by
  constructor
  · rintro ⟨first, -, only⟩ steps met
    have again : follow next (some a) (steps + 1) = some a := (follow_succ steps).trans met
    have here := only (steps + 1) again
    rw [← only 0 rfl] at here
    cases here
  · intro avoids
    refine ⟨0, rfl, fun steps met => ?_⟩
    cases steps with
    | zero => rfl
    | succ steps => exact absurd ((follow_succ steps).symm.trans met) (avoids steps)

theorem once_last (last : next a = none) : Once next (some a) a := by
  rw [once_head_iff, last]
  intro steps met
  rw [follow_none] at met
  cases met

end Follow

/-! ## Backward links -/

theorem Backward.congr {prev prev' : α → Option α} {nodes : List α} {before : Option α}
    (backward : Backward prev before nodes) (same : ∀ a ∈ nodes, prev' a = prev a) :
    Backward prev' before nodes := by
  induction nodes generalizing before with
  | nil => trivial
  | cons a nodes ih =>
      obtain ⟨here, rest⟩ := backward
      exact ⟨(same a List.mem_cons_self).trans here,
        ih rest fun b member => same b (List.mem_cons_of_mem _ member)⟩

/-- Backward links of a concatenation, split after a node. -/
theorem backward_append {prev : α → Option α} {front back : List α} {a : α}
    {before : Option α} :
    Backward prev before (front ++ a :: back) ↔
      Backward prev before (front ++ [a]) ∧ Backward prev (some a) back := by
  induction front generalizing before with
  | nil => simp
  | cons b front ih => simp [ih, and_assoc]

/-- **Leaving out a node**: the one behind it points back past it. -/
theorem Backward.unlink {prev prev' : α → Option α} {front back : List α} {before : Option α}
    {a victim : α} (backward : Backward prev before (front ++ a :: victim :: back))
    (nodup : (front ++ a :: victim :: back).Nodup)
    (seam : ∀ b, back.head? = some b → prev' b = some a)
    (others : ∀ b, b ≠ victim → back.head? ≠ some b → prev' b = prev b) :
    Backward prev' before (front ++ a :: back) := by
  have distinct := List.nodup_append.mp nodup
  have behind := List.nodup_cons.mp distinct.2.1
  have tail := List.nodup_cons.mp behind.2
  have notFirst : ∀ b ∈ front ++ [a], back.head? ≠ some b := by
    intro b member first
    have inBack : b ∈ back := List.mem_of_head? first
    rcases List.mem_append.mp member with inFront | isA
    · exact distinct.2.2 b inFront b (by simp [inBack]) rfl
    · obtain rfl := List.mem_singleton.mp isA
      exact behind.1 (List.mem_cons_of_mem _ inBack)
  obtain ⟨backFront, -, backAfter⟩ := backward_append.mp backward
  refine backward_append.mpr
    ⟨backFront.congr fun b member => others b ?_ (notFirst b member), ?_⟩
  · rintro rfl
    rcases List.mem_append.mp member with inFront | isA
    · exact distinct.2.2 b inFront b (by simp) rfl
    · exact behind.1 (by simp [List.mem_singleton.mp isA])
  · cases back with
    | nil => trivial
    | cons c back =>
        refine ⟨seam c rfl, backAfter.2.congr fun b member => others b ?_ ?_⟩
        · rintro rfl
          exact tail.1 (List.mem_cons_of_mem _ member)
        · intro first
          cases first
          exact (List.nodup_cons.mp tail.2).1 member

/-! ## Doubly linked lists with a head node -/

/-- The nodes hang off a head node, linked both ways, and the last one ends the
list. -/
def Doubly (next prev : α → Option α) (head : α) (nodes : List α) : Prop :=
  Segment next (next head) nodes none ∧ Backward prev (some head) nodes

section Doubly

variable {next prev : α → Option α} {head : α} {nodes : List α}

theorem Doubly.whole (doubly : Doubly next prev head nodes) :
    Segment next (some head) (head :: nodes) none :=
  ⟨rfl, doubly.1⟩

theorem Doubly.nodup (doubly : Doubly next prev head nodes) : (head :: nodes).Nodup :=
  doubly.whole.nodup

/-- Each listed node is the one its predecessor points to. -/
theorem Doubly.prev_next (doubly : Doubly next prev head nodes) {a : α} (member : a ∈ nodes) :
    ∃ b, b ∈ head :: nodes ∧ prev a = some b ∧ next b = some a := by
  obtain ⟨front, back, rfl⟩ := List.append_of_mem member
  rcases List.eq_nil_or_concat front with rfl | ⟨front, b, rfl⟩
  · exact ⟨head, List.mem_cons_self, doubly.2.1, doubly.1.1⟩
  · refine ⟨b, by simp, ?_, ?_⟩
    · have backward := doubly.2
      simp only [List.concat_eq_append, List.append_assoc, List.singleton_append] at backward
      exact (backward_append.mp backward).2.1
    · have forward := doubly.1
      simp only [List.concat_eq_append, List.append_assoc, List.singleton_append] at forward
      exact forward.from_node.2.1

/-- Each listed node is pointed back to by its successor, if it has one. -/
theorem Doubly.next_prev (doubly : Doubly next prev head nodes) {a : α} (member : a ∈ nodes) :
    next a = none ∨ ∃ b, b ∈ nodes ∧ next a = some b ∧ prev b = some a := by
  obtain ⟨front, back, rfl⟩ := List.append_of_mem member
  have forward := doubly.1.from_node.2
  cases back with
  | nil => exact .inl forward
  | cons b back =>
      exact .inr ⟨b, by simp, forward.1, (backward_append.mp doubly.2).2.1⟩

/-- The node before a position: the head, or the last node in front of it. -/
theorem exists_seam (head : α) (before : List α) :
    ∃ front a, head :: before = front ++ [a] := by
  rcases List.eq_nil_or_concat (head :: before) with impossible | ⟨front, a, split⟩
  · cases impossible
  · exact ⟨front, a, by simpa using split⟩

/-- **Splicing in a node.** The node goes after the last of `before`: that one
points to it, it points on, and the node that follows points back to it. -/
theorem Doubly.splice {next' prev' : α → Option α} {before after front : List α} {a new : α}
    (doubly : Doubly next prev head (before ++ after)) (seam : head :: before = front ++ [a])
    (fresh : new ∉ head :: (before ++ after))
    (nextSeam : next' a = some new) (nextNew : next' new = next a)
    (nextOther : ∀ b, b ≠ a → b ≠ new → next' b = next b)
    (prevNew : prev' new = some a) (prevAfter : ∀ b, next a = some b → prev' b = some new)
    (prevOther : ∀ b, b ≠ new → next a ≠ some b → prev' b = prev b) :
    Doubly next' prev' head (before ++ new :: after) := by
  have nodup := doubly.nodup
  have whole := doubly.whole
  have back : Backward prev (prev head) (head :: (before ++ after)) := ⟨rfl, doubly.2⟩
  rw [← List.cons_append, seam, List.append_assoc, List.singleton_append] at nodup whole back fresh
  simp only [List.mem_append, List.mem_cons, not_or] at fresh
  obtain ⟨freshFront, freshA, freshAfter⟩ := fresh
  have distinct := List.nodup_append.mp nodup
  have aFront : a ∉ front := fun member => distinct.2.2 a member a List.mem_cons_self rfl
  have aAfter : a ∉ after := (List.nodup_cons.mp distinct.2.1).1
  obtain ⟨middle, head', tail⟩ := segment_append.mp whole
  obtain ⟨rfl, tail⟩ := tail
  have forward : Segment next' (some head) (front ++ a :: new :: after) none := by
    refine segment_append.mpr ⟨some a, head'.congr fun b member => ?_, rfl, nextSeam, ?_⟩
    · exact nextOther b (fun same => aFront (same ▸ member)) fun same => freshFront (same ▸ member)
    · rw [nextNew]
      exact tail.congr fun b member =>
        nextOther b (fun same => aAfter (same ▸ member)) fun same => freshAfter (same ▸ member)
  obtain ⟨backFront, backAfter⟩ := backward_append.mp back
  have notAfter : ∀ b ∈ front ++ [a], next a ≠ some b := by
    intro b member here
    cases after with
    | nil => cases (show next a = none from tail).symm.trans here
    | cons c after =>
        have same : c = b := Option.some.inj (tail.1.symm.trans here)
        subst same
        rcases List.mem_append.mp member with inFront | isA
        · exact distinct.2.2 c inFront c (by simp) rfl
        · exact aAfter (by simp [List.mem_singleton.mp isA])
  have backward : Backward prev' (prev head) (front ++ a :: new :: after) := by
    refine backward_append.mpr ⟨backFront.congr fun b member => ?_, prevNew, ?_⟩
    · refine prevOther b (fun same => ?_) (notAfter b member)
      subst same
      rcases List.mem_append.mp member with inFront | isA
      · exact freshFront inFront
      · exact freshA (List.mem_singleton.mp isA)
    · cases after with
      | nil => trivial
      | cons c after =>
          refine ⟨prevAfter c tail.1, backAfter.2.congr fun b member => ?_⟩
          refine prevOther b (fun same => freshAfter (by simp [← same, member])) fun here => ?_
          have same : c = b := Option.some.inj (tail.1.symm.trans here)
          subst same
          exact (List.nodup_cons.mp (List.nodup_cons.mp distinct.2.1).2).1 member
  have shape : front ++ a :: new :: after = head :: (before ++ new :: after) := by
    rw [← List.cons_append, seam, List.append_assoc, List.singleton_append]
  rw [shape] at forward backward
  exact ⟨forward.2, backward.2⟩

/-- The node before a listed one, from which it is reached and to which it points back. -/
theorem Doubly.seam {before after : List α} {curr : α}
    (doubly : Doubly next prev head (before ++ curr :: after)) :
    ∃ front a, head :: before = front ++ [a] ∧ next a = some curr ∧ prev curr = some a := by
  obtain ⟨front, a, split⟩ := exists_seam head before
  have whole := doubly.whole
  have backward : Backward prev (prev head) (head :: (before ++ curr :: after)) := ⟨rfl, doubly.2⟩
  rw [← List.cons_append, split, List.append_assoc, List.singleton_append] at whole backward
  obtain ⟨middle, -, tail⟩ := segment_append.mp whole
  exact ⟨front, a, split, tail.2.1, (backward_append.mp backward).2.1⟩

/-- **Putting a node at the end** of a list. -/
theorem Doubly.append [DecidableEq α] {front : List α} {a new : α}
    (doubly : Doubly next prev head nodes) (last : head :: nodes = front ++ [a])
    (fresh : new ∉ head :: nodes) :
    Doubly (Function.update (Function.update next a (some new)) new none)
      (Function.update prev new (some a)) head (nodes ++ [new]) := by
  have member : a ∈ head :: nodes := by simp [last]
  have apart : a ≠ new := fun same => fresh (same ▸ member)
  have final : next a = none := by
    have whole := doubly.whole
    rw [last] at whole
    exact whole.from_node.2
  refine Doubly.splice (by simpa using doubly) last (by simpa using fresh) ?_ ?_ ?_ ?_ ?_ ?_
  · simp [Function.update_of_ne apart]
  · simp [final]
  · intro b other notNew
    simp [Function.update_of_ne notNew, Function.update_of_ne other]
  · simp
  · intro b here
    rw [final] at here
    cases here
  · intro b notNew _
    simp [Function.update_of_ne notNew]

/-- **Putting a node before another one.** -/
theorem Doubly.insert [DecidableEq α] {before after : List α} {a curr new : α}
    (doubly : Doubly next prev head (before ++ curr :: after))
    (fresh : new ∉ head :: (before ++ curr :: after)) (back : prev curr = some a) :
    Doubly (Function.update (Function.update next new (some curr)) a (some new))
      (Function.update (Function.update prev new (some a)) curr (some new)) head
      (before ++ new :: curr :: after) := by
  obtain ⟨front, a', split, forward, same⟩ := doubly.seam
  obtain rfl : a = a' := Option.some.inj (back.symm.trans same)
  have currNew : curr ≠ new := fun equal => fresh (by simp [← equal])
  have apart : a ≠ new := by
    rintro rfl
    have member : a ∈ head :: before := by simp [split]
    rcases List.mem_cons.mp member with rfl | member
    · exact fresh List.mem_cons_self
    · exact fresh (by simp [member])
  refine Doubly.splice doubly split fresh ?_ ?_ ?_ ?_ ?_ ?_
  · simp
  · simp [Function.update_of_ne (Ne.symm apart), forward]
  · intro b other notNew
    simp [Function.update_of_ne other, Function.update_of_ne notNew]
  · simp [Function.update_of_ne (Ne.symm currNew)]
  · intro b here
    rw [forward] at here
    cases here
    simp
  · intro b notNew other
    have notCurr : b ≠ curr := fun equal => other (by rw [forward, equal])
    simp [Function.update_of_ne notCurr, Function.update_of_ne notNew]

/-- **Unlinking a node.** The node before it points past it, and the node after
it points back past it. -/
theorem Doubly.unlink {next' prev' : α → Option α} {before after front : List α} {a victim : α}
    (doubly : Doubly next prev head (before ++ victim :: after))
    (seam : head :: before = front ++ [a])
    (nextSeam : next' a = next victim) (nextOther : ∀ b, b ≠ a → next' b = next b)
    (prevAfter : ∀ b, next victim = some b → prev' b = some a)
    (prevOther : ∀ b, next victim ≠ some b → prev' b = prev b) :
    Doubly next' prev' head (before ++ after) := by
  have nodup := doubly.nodup
  have whole := doubly.whole
  have back : Backward prev (prev head) (head :: (before ++ victim :: after)) := ⟨rfl, doubly.2⟩
  have first : next victim = after.head? := doubly.1.from_node.2.start_eq
  rw [← List.cons_append, seam, List.append_assoc, List.singleton_append] at nodup whole back
  have forward : Segment next' (some head) (front ++ a :: after) none :=
    whole.unlink nextSeam fun b notA _ => nextOther b notA
  have backward : Backward prev' (prev head) (front ++ a :: after) :=
    back.unlink nodup (fun b isFirst => prevAfter b (first.trans isFirst))
      fun b _ notFirst => prevOther b fun isNext => notFirst (first.symm.trans isNext)
  have shape : front ++ a :: after = head :: (before ++ after) := by
    rw [← List.cons_append, seam, List.append_assoc, List.singleton_append]
  rw [shape] at forward backward
  exact ⟨forward.2, backward.2⟩

end Doubly

end Machine
