import VrrpDaemon.Machine.Faults

/-!
# Enumeration through a cursor

A store hands out its entries one call at a time: a call takes a cursor and
returns a reply and the cursor for the next call, until the cursor is one that
`ends` the enumeration. `Enumerates` lists the replies. It is a function of the
starting cursor (`Enumerates.unique`), and where the cursors are the keys of
entries in a row, it lists these entries (`enumerates_of_keys`).
-/

set_option autoImplicit false

namespace Machine

universe u

variable {ε κ β α : Type u}

/-- The replies from a cursor on, up to the call whose cursor ends the
enumeration. -/
inductive Enumerates (call : κ → Except ε (β × κ)) (ends : κ → Bool) : κ → List β → Prop where
  | last {c c' : κ} {b : β} (returns : call c = .ok (b, c')) (stop : ends c' = true) :
      Enumerates call ends c [b]
  | more {c c' : κ} {b : β} {later : List β} (returns : call c = .ok (b, c')) (goes : ends c' = false)
      (rest : Enumerates call ends c' later) : Enumerates call ends c (b :: later)

variable {call : κ → Except ε (β × κ)} {ends : κ → Bool}

/-- **A cursor enumerates one list.** -/
theorem Enumerates.unique {c : κ} {first second : List β} (one : Enumerates call ends c first)
    (two : Enumerates call ends c second) : first = second := by
  induction one generalizing second with
  | last returns stop =>
      cases two with
      | last returns' stop' =>
          cases returns.symm.trans returns'
          rfl
      | more returns' goes rest =>
          cases returns.symm.trans returns'
          cases stop.symm.trans goes
  | more returns goes rest ih =>
      cases two with
      | last returns' stop =>
          cases returns.symm.trans returns'
          cases stop.symm.trans goes
      | more returns' goes' rest' =>
          cases returns.symm.trans returns'
          rw [ih rest']

/-- Only the first call looks at the starting cursor. -/
theorem Enumerates.of_start {c c' : κ} {replies : List β} (same : call c = call c')
    (enumerates : Enumerates call ends c' replies) : Enumerates call ends c replies := by
  cases enumerates with
  | last returns stop => exact .last (same.trans returns) stop
  | more returns goes rest => exact .more (same.trans returns) goes rest

/-- **Entries in a row, found by their keys.** When the call at the key of an
entry replies with the entry and goes on with the key of the next one, or with a
cursor that ends the enumeration, the entries from any of them on are
enumerated. -/
theorem enumerates_of_keys {key : α → κ} {reply : α → β} {finish : κ} {nodes : List α}
    (stop : ends finish = true) (goes : ∀ a ∈ nodes, ends (key a) = false)
    (returns : ∀ front a back, nodes = front ++ a :: back →
      call (key a) = .ok (reply a, (back.head?.map key).getD finish))
    {front back : List α} {a : α} (split : nodes = front ++ a :: back) :
    Enumerates call ends (key a) ((a :: back).map reply) := by
  induction back generalizing front a with
  | nil => exact .last (returns front a [] split) stop
  | cons b back ih =>
      have member : b ∈ nodes := by simp [split]
      have later : nodes = (front ++ [a]) ++ b :: back := by simp [split]
      exact .more (returns front a (b :: back) split) (goes b member) (ih later)

end Machine
