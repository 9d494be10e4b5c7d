import Mathlib.Data.List.TakeWhile

/-!
# Lists separated by a delimiter

The items of a text are what lies between its delimiters, empty items included
(`List.splitOn`). `strtok` passes over delimiters that stand together, so what it returns
in turn are the items that are not empty (`strtoks_eq`).
-/

set_option autoImplicit false

namespace Machine

variable {α : Type} [DecidableEq α] {d : α} {s : List α}

/-- `strtok`: the first item that is not empty, and what lies behind its delimiter. -/
def strtok (d : α) (s : List α) : Option (List α × List α) :=
  match s.dropWhile (· = d) with
  | [] => none
  | c :: rest => some ((c :: rest).takeWhile (· ≠ d), ((c :: rest).dropWhile (· ≠ d)).tail)

/-- What a number of calls of `strtok` return. -/
def strtoks (d : α) : Nat → List α → List (List α)
  | 0, _ => []
  | calls + 1, s =>
      match strtok d s with
      | none => []
      | some (token, rest) => token :: strtoks d calls rest

/-- There is one item more than delimiters. -/
theorem length_splitOn (d : α) (s : List α) : (s.splitOn d).length = s.count d + 1 := by
  induction s with
  | nil => rfl
  | cons c s ih =>
      rw [List.splitOn_cons_eq_if_modifyHead]
      by_cases same : c = d
      · simp [same, ih]
      · simp [same, ih]

/-- The elements of the items and the delimiters make up the list. -/
theorem length_flatten_splitOn (d : α) (s : List α) :
    (s.splitOn d).flatten.length + (s.splitOn d).length = s.length + 1 := by
  induction s with
  | nil => rfl
  | cons c s ih =>
      rw [List.splitOn_cons_eq_if_modifyHead]
      by_cases same : c = d
      · simp only [same, beq_self_eq_true, reduceIte, List.flatten_cons, List.nil_append,
          List.length_cons]
        omega
      · cases items : s.splitOn d with
        | nil => exact absurd items (List.splitOn_ne_nil d s)
        | cons item items' =>
            rw [items] at ih
            simp only [beq_iff_eq, same, reduceIte, List.modifyHead_cons, List.flatten_cons,
              List.length_append, List.length_cons] at ih ⊢
            omega

/-- **Items that are not empty** take at least two places each, with the delimiters. -/
theorem length_splitOn_le (nonempty : ∀ item ∈ s.splitOn d, item ≠ []) :
    2 * (s.splitOn d).length ≤ s.length + 1 := by
  have places : ∀ items : List (List α), (∀ item ∈ items, item ≠ []) →
      items.length ≤ items.flatten.length := by
    intro items nonempty
    induction items with
    | nil => exact Nat.le_refl _
    | cons item items ih =>
        have here := List.length_pos_iff.mpr (nonempty item List.mem_cons_self)
        have later := ih fun item member => nonempty item (List.mem_cons_of_mem _ member)
        rw [List.flatten_cons, List.length_append, List.length_cons]
        omega
  have whole := length_flatten_splitOn d s
  have less := places _ nonempty
  omega

/-- Delimiters in front are no items. -/
theorem filter_splitOn_dropWhile (s : List α) :
    ((s.dropWhile (· = d)).splitOn d).filter (· ≠ []) = (s.splitOn d).filter (· ≠ []) := by
  induction s with
  | nil => rfl
  | cons c s ih =>
      by_cases same : c = d
      · subst same
        rw [List.dropWhile_cons_of_pos (by simp), ih]
        have item : (c :: s).splitOn c = [] :: s.splitOn c := by
          simp [List.splitOn_cons_eq_if_modifyHead]
        rw [item]
        simp
      · rw [List.dropWhile_cons_of_neg (by simpa using same)]

/-- **`strtok` returns the items that are not empty.** -/
theorem strtoks_eq {calls : Nat} (enough : s.length < calls) :
    strtoks d calls s = (s.splitOn d).filter (· ≠ []) := by
  induction calls generalizing s with
  | zero => exact absurd enough (Nat.not_lt_zero _)
  | succ calls ih =>
      rw [← filter_splitOn_dropWhile, strtoks, strtok]
      cases begins : s.dropWhile (· = d) with
      | nil => simp
      | cons c rest =>
          have start : c ≠ d := by
            have head := List.head?_dropWhile_not (· = d) s
            rw [begins] at head
            simpa using head
          have shorter : rest.length < s.length := by
            have less := (List.dropWhile_sublist (· = d) (l := s)).length_le
            rw [begins] at less
            exact less
          have split := List.takeWhile_append_dropWhile (p := (· ≠ d)) (l := c :: rest)
          have token : (c :: rest).takeWhile (· ≠ d) ≠ [] := by
            simp [start]
          have free : d ∉ (c :: rest).takeWhile (· ≠ d) := fun member => by
            simpa using List.mem_takeWhile_imp member
          simp only
          cases ends : (c :: rest).dropWhile (· ≠ d) with
          | nil =>
              rw [ends, List.append_nil] at split
              rw [split] at free ⊢
              rw [List.splitOn_eq_singleton free, List.tail_nil, ih (by simp; omega)]
              simp
          | cons e behind =>
              have delimiter : e = d := by
                have head := List.head?_dropWhile_not (· ≠ d) (c :: rest)
                rw [ends] at head
                simpa using head
              subst delimiter
              have near : behind.length < calls := by
                have less := (List.dropWhile_sublist (· ≠ e) (l := c :: rest)).length_le
                rw [ends, List.length_cons, List.length_cons] at less
                omega
              rw [ends] at split
              rw [← split, List.splitOn_append_cons_self_of_not_mem free, List.tail_cons, ih near,
                split, List.filter_cons_of_pos (by simpa using token)]

end Machine
