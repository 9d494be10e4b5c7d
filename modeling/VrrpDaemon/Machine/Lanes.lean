import Mathlib.Data.List.Basic

/-!
# Sequences that come in lanes

Items come in through several lanes, each of which keeps its items in order; `lane` is what
came in through one of them. Of an order in which the lanes are merged, this says only what
each lane contributes.

When the items act on a cell by overwriting it, the last item that writes decides
(`lastWrite`). It is the last of its lane; so when all lanes agree on their last write, no
order of merging makes a difference (`lastWrite_of_lanes`).
-/

set_option autoImplicit false

namespace Machine

variable {ι α β : Type}

/-! ## The last write -/

/-- The last value that an item writes. -/
def lastWrite (writes : α → Option β) (items : List α) : Option β :=
  (items.filterMap writes).getLast?

variable {writes : α → Option β}

@[simp] theorem lastWrite_nil : lastWrite writes [] = none := rfl

theorem lastWrite_append (front back : List α) :
    lastWrite writes (front ++ back) = (lastWrite writes back).or (lastWrite writes front) := by
  rw [lastWrite, List.filterMap_append, List.getLast?_append]
  rfl

theorem lastWrite_singleton (a : α) : lastWrite writes [a] = writes a := by
  rw [lastWrite, List.filterMap_cons, List.filterMap_nil]
  cases writes a <;> rfl

theorem lastWrite_cons (a : α) (items : List α) :
    lastWrite writes (a :: items) = (lastWrite writes items).or (writes a) := by
  have split : a :: items = [a] ++ items := rfl
  rw [split, lastWrite_append, lastWrite_singleton]

theorem lastWrite_eq_none {items : List α} :
    lastWrite writes items = none ↔ ∀ a ∈ items, writes a = none := by
  rw [lastWrite, List.getLast?_eq_none_iff, List.filterMap_eq_nil_iff]

/-- What was written last, and by whom. -/
theorem exists_of_lastWrite {items : List α} {b : β} (last : lastWrite writes items = some b) :
    ∃ front a back, items = front ++ a :: back ∧ writes a = some b ∧ lastWrite writes back = none := by
  induction items with
  | nil => cases last
  | cons a items ih =>
      rw [lastWrite_cons] at last
      cases later : lastWrite writes items with
      | none =>
          rw [later, Option.none_or] at last
          exact ⟨[], a, items, rfl, last, later⟩
      | some c =>
          rw [later, Option.some_or] at last
          obtain ⟨front, a', back, rfl, written, silent⟩ := ih (later.trans last)
          exact ⟨a :: front, a', back, rfl, written, silent⟩

/-! ## Lanes -/

variable [DecidableEq ι]

/-- What came in through a lane. -/
def lane (i : ι) (items : List (ι × α)) : List α :=
  (items.filter (·.1 = i)).map Prod.snd

@[simp] theorem lane_nil (i : ι) : lane i ([] : List (ι × α)) = [] := rfl

theorem lane_append (i : ι) (front back : List (ι × α)) :
    lane i (front ++ back) = lane i front ++ lane i back := by
  rw [lane, List.filter_append, List.map_append]
  rfl

theorem lane_cons_self (i : ι) (a : α) (items : List (ι × α)) :
    lane i ((i, a) :: items) = a :: lane i items := by
  rw [lane, List.filter_cons_of_pos (by simp)]
  rfl

theorem lane_cons_other {i j : ι} (other : j ≠ i) (a : α) (items : List (ι × α)) :
    lane i ((j, a) :: items) = lane i items := by
  rw [lane, List.filter_cons_of_neg (by simpa using other)]
  rfl

theorem mem_of_mem_lane {i : ι} {a : α} {items : List (ι × α)} (member : a ∈ lane i items) :
    a ∈ items.map Prod.snd := by
  obtain ⟨item, kept, rfl⟩ := List.mem_map.mp member
  exact List.mem_map_of_mem (List.mem_of_mem_filter kept)

/-- **Lanes that agree on their last write decide it**, however they are merged. -/
theorem lastWrite_of_lanes {lanes : List ι} (nonempty : lanes ≠ []) {items : List (ι × α)}
    (inLanes : ∀ item ∈ items, item.1 ∈ lanes) {last : Option β}
    (agree : ∀ i ∈ lanes, lastWrite writes (lane i items) = last) :
    lastWrite writes (items.map Prod.snd) = last := by
  obtain ⟨i, others, rfl⟩ := List.exists_cons_of_ne_nil nonempty
  cases whole : lastWrite writes (items.map Prod.snd) with
  | none =>
      have silent := lastWrite_eq_none.mp whole
      have none : lastWrite writes (lane i items) = none :=
        lastWrite_eq_none.mpr fun a member => silent a (mem_of_mem_lane member)
      exact none.symm.trans (agree i List.mem_cons_self)
  | some b =>
      obtain ⟨front, a, back, split, written, silent⟩ := exists_of_lastWrite whole
      obtain ⟨before, rest, rfl, sameFront, sameRest⟩ := List.map_eq_append_iff.mp split
      obtain ⟨⟨j, a'⟩, after, rfl, rfl, sameBack⟩ := List.map_eq_cons_iff.mp sameRest
      -- the last write is the last one of its own lane
      have none : lastWrite writes (lane j after) = none := by
        rw [← sameBack] at silent
        exact lastWrite_eq_none.mpr fun a member =>
          lastWrite_eq_none.mp silent a (mem_of_mem_lane member)
      have own : lastWrite writes (lane j (before ++ (j, a') :: after)) = some b := by
        rw [lane_append, lane_cons_self, lastWrite_append, lastWrite_cons, none, written]
        rfl
      have among : j ∈ i :: others := inLanes (j, a') (by simp)
      exact own.symm.trans (agree j among)

end Machine
