import Mathlib.Data.List.Basic

/-!
# Tables of slots

A table has a number of slots; a slot that was never used holds a blank. Writing a slot
that the table does not have is a fault (`storeAt`). A table that is always used at its
first blank slot is filled from the front (`fill`).
-/

set_option autoImplicit false

namespace Machine

variable {ε α : Type}

/-- Write a slot of a table. -/
def storeAt (fault : ε) (table : List α) (i : Nat) (a : α) : Except ε (List α) :=
  if i < table.length then .ok (table.set i a) else .error fault

/-- A table filled from the front. -/
def fill (size : Nat) (blank : α) (entries : List α) : List α :=
  entries ++ List.replicate (size - entries.length) blank

variable {fault : ε} {size : Nat} {blank : α} {entries : List α}

theorem storeAt_of_lt {table : List α} {i : Nat} (inside : i < table.length) (a : α) :
    storeAt fault table i a = .ok (table.set i a) :=
  if_pos inside

theorem storeAt_of_le {table : List α} {i : Nat} (outside : table.length ≤ i) (a : α) :
    storeAt fault table i a = .error fault :=
  if_neg (Nat.not_lt.mpr outside)

theorem length_fill (room : entries.length ≤ size) : (fill size blank entries).length = size := by
  rw [fill, List.length_append, List.length_replicate]
  omega

theorem getElem?_fill {i : Nat} (used : i < entries.length) :
    (fill size blank entries)[i]? = entries[i]? :=
  List.getElem?_append_left used

/-- **A used slot stays** when the table is filled further. -/
theorem getElem?_fill_append {i : Nat} (used : i < entries.length) (a : α) :
    (fill size blank (entries ++ [a]))[i]? = (fill size blank entries)[i]? := by
  have later : i < (entries ++ [a]).length := by
    rw [List.length_append]
    exact Nat.lt_add_right _ used
  rw [getElem?_fill later, getElem?_fill used, List.getElem?_append_left used]

theorem fill_append (a : α) :
    fill size blank (entries ++ [a]) =
      entries ++ a :: List.replicate (size - (entries.length + 1)) blank := by
  rw [fill, List.length_append, List.append_assoc]
  rfl

/-- The first blank slot of a table that has one. -/
theorem fill_eq_append (room : entries.length < size) :
    fill size blank entries =
      entries ++ blank :: List.replicate (size - (entries.length + 1)) blank := by
  have blanks : size - entries.length = size - (entries.length + 1) + 1 := by omega
  rw [fill, blanks, List.replicate_succ]

/-- **Writing the first blank slot** fills the table further. -/
theorem set_fill {i : Nat} (here : entries.length = i) (room : i < size) (a : α) :
    (fill size blank entries).set i a = fill size blank (entries ++ [a]) := by
  subst here
  rw [fill_append, fill_eq_append room, List.set_append_right _ _ (Nat.le_refl _), Nat.sub_self,
    List.set_cons_zero]

theorem modify_append_cons (front back : List α) (a : α) (f : α → α) :
    (front ++ a :: back).modify front.length f = front ++ f a :: back := by
  induction front with
  | nil => rfl
  | cons b front ih => exact congrArg (b :: ·) ih

/-- **Changing the first blank slot** fills the table further. -/
theorem modify_fill {i : Nat} (here : entries.length = i) (room : i < size) (f : α → α) :
    (fill size blank entries).modify i f = fill size blank (entries ++ [f blank]) := by
  subst here
  rw [fill_append, fill_eq_append room, modify_append_cons]

/-- **The first free slot** of a table filled from the front. -/
theorem findIdx?_fill {p : α → Bool} (taken : ∀ a ∈ entries, p a = false) (free : p blank = true) :
    (fill size blank entries).findIdx? p =
      if entries.length < size then some entries.length else none := by
  have passed : entries.findIdx? p = none := List.findIdx?_eq_none_iff.mpr taken
  rw [fill, List.findIdx?_append, passed, List.findIdx?_replicate]
  by_cases room : entries.length < size
  · have blanks : 0 < size - entries.length := by omega
    simp [room, blanks, free]
  · have none : ¬ 0 < size - entries.length := by omega
    simp [room, none]

end Machine
