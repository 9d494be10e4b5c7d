import VrrpDaemon.Machine.Lanes

/-!
# Options on a command line

`getopt` of the C library, over the words behind the name of a command. A word that starts with
a dash, and has something behind it, has options in it: its letters, up to one that takes an
argument, which is the rest of the word or, if there is none, the next word. Other words are
operands. The word `--` ends the options.

The words are permuted as they are scanned: in the end the options, with the words they took as
arguments, stand in front of the operands (`Scanned.argv`).

Of the arguments that an option is given, the last one counts (`lastArg`).

`getopts_items` is what is found in words that are written as options with arguments, as letters
that are no options, and as operands. `mem_of_given` says where an option was found, and
`takes_of_given` that it is one.
-/

set_option autoImplicit false

namespace Machine

/-- What `getopt` returns in turn: an option with its argument, if it takes one, or a letter that
is no option, or an option whose argument is missing. -/
inductive Opt (α : Type) where
  | given (letter : α) (arg : Option (List α))
  | unknown (letter : α)
  | missing (letter : α)
  deriving DecidableEq

/-- What a scan finds: the options, the words that were taken for options or their arguments,
and the operands. -/
structure Scanned (α : Type) where
  opts : List (Opt α)
  options : List (List α)
  operands : List (List α)
  deriving DecidableEq

variable {α : Type} {dash : α} {takes : α → Option Bool}

/-- An option with its argument, if one is given. -/
def Opt.pair : Opt α → Option (α × List α)
  | given letter arg => some (letter, arg.getD [])
  | unknown _ | missing _ => none

/-- The words as the scan leaves them. -/
def Scanned.argv (s : Scanned α) : List (List α) := s.options ++ s.operands

/-- A word that was taken, with the options that were found in it. -/
def Scanned.take (opts : List (Opt α)) (word : List α) (s : Scanned α) : Scanned α :=
  { s with opts := opts ++ s.opts, options := word :: s.options }

/-- A word that is an operand. -/
def Scanned.pass (word : List α) (s : Scanned α) : Scanned α :=
  { s with operands := word :: s.operands }

/-- The options in the letters of a word, and the one that waits for its argument. The map says
for each option whether it takes one. -/
def letters (takes : α → Option Bool) : List α → List (Opt α) × Option α
  | [] => ([], none)
  | c :: rest =>
      match takes c with
      | none => ((letters takes rest).1.cons (.unknown c), (letters takes rest).2)
      | some false => ((letters takes rest).1.cons (.given c none), (letters takes rest).2)
      | some true => if rest = [] then ([], some c) else ([.given c (some rest)], none)

variable [DecidableEq α]

/-- The options that a text describes: its letters, each with a colon behind it if it takes an
argument. -/
def optstring (colon : α) : List α → α → Option Bool
  | [], _ => none
  | d :: rest, c =>
      if d = c ∧ c ≠ colon then some (rest.head? = some colon) else optstring colon rest c

/-- A word with options in it. -/
def isOption (dash : α) : List α → Bool
  | d :: _ :: _ => d = dash
  | _ => false

/-- The calls of `getopt` over some words, when an option may wait for its argument. -/
def getopts (dash : α) (takes : α → Option Bool) : Option α → List (List α) → Scanned α
  | none, [] => ⟨[], [], []⟩
  | some c, [] => ⟨[.missing c], [], []⟩
  | some c, word :: later => (getopts dash takes none later).take [.given c (some word)] word
  | none, word :: later =>
      if word = [dash, dash] then ⟨[], [word], later⟩
      else if isOption dash word then
        (getopts dash takes (letters takes word.tail).2 later).take (letters takes word.tail).1 word
      else (getopts dash takes none later).pass word

/-- The last argument that an option is given. -/
def lastArg (letter : α) (pairs : List (α × List α)) : Option (List α) :=
  lastWrite (fun pair => if pair.1 = letter then some pair.2 else none) pairs

/-! ## Words that are written in some way -/

/-- How words are written: an option with its argument, behind it in one word or in the next
one; letters that are no options; an operand. -/
inductive Item (α : Type) where
  | attached (letter : α) (arg : List α)
  | separate (letter : α) (arg : List α)
  | foreign (letters : List α)
  | operand (word : List α)
  deriving DecidableEq

namespace Item

/-- The words of an item. -/
def words (dash : α) : Item α → List (List α)
  | attached letter arg => [dash :: letter :: arg]
  | separate letter arg => [[dash, letter], arg]
  | foreign letters => [dash :: letters]
  | operand word => [word]

/-- An item is what it seems to be: its letters are options that take arguments, or none. -/
def Proper (dash : α) (takes : α → Option Bool) : Item α → Prop
  | attached letter arg => letter ≠ dash ∧ takes letter = some true ∧ arg ≠ []
  | separate letter _ => letter ≠ dash ∧ takes letter = some true
  | foreign letters => letters ≠ [] ∧ letters ≠ [dash] ∧ ∀ c ∈ letters, takes c = none
  | operand word => isOption dash word = false

instance (takes : α → Option Bool) : (item : Item α) → Decidable (item.Proper dash takes)
  | attached _ _ => inferInstanceAs (Decidable (_ ∧ _ ∧ _))
  | separate _ _ => inferInstanceAs (Decidable (_ ∧ _))
  | foreign _ => inferInstanceAs (Decidable (_ ∧ _ ∧ _))
  | operand _ => inferInstanceAs (Decidable (_ = _))

/-- What the scan returns for an item. -/
def found : Item α → List (Opt α)
  | attached letter arg | separate letter arg => [.given letter (some arg)]
  | foreign letters => letters.map .unknown
  | operand _ => []

/-- The option of an item, with its argument. -/
def pair : Item α → Option (α × List α)
  | attached letter arg | separate letter arg => some (letter, arg)
  | foreign _ | operand _ => none

/-- The words of an item that stay in front. -/
def front (dash : α) : Item α → List (List α)
  | operand _ => []
  | item => item.words dash

/-- The words of an item that go behind. -/
def back : Item α → List (List α)
  | operand word => [word]
  | _ => []

end Item

omit [DecidableEq α] in
/-- Letters that are no options. -/
theorem letters_foreign {cs : List α} (none : ∀ c ∈ cs, takes c = none) :
    letters takes cs = (cs.map .unknown, .none) := by
  induction cs with
  | nil => rfl
  | cons c cs ih =>
      have rest := ih fun d member => none d (List.mem_cons_of_mem _ member)
      simp [letters, none c List.mem_cons_self, rest]

omit [DecidableEq α] in
/-- An option that takes an argument ends its word. -/
theorem letters_option {c : α} (option : takes c = some true) (arg : List α) :
    letters takes (c :: arg) =
      if arg = [] then ([], some c) else ([.given c (some arg)], none) := by
  rw [letters, option]

omit [DecidableEq α] in
/-- The options of some items. -/
theorem pairs_found (items : List (Item α)) :
    (items.flatMap Item.found).filterMap Opt.pair = items.filterMap Item.pair := by
  induction items with
  | nil => rfl
  | cons item items ih =>
      rw [List.flatMap_cons, List.filterMap_append, ih]
      cases item with
      | attached | separate | operand => rfl
      | foreign cs =>
          have nothing : (cs.map fun c => (Opt.unknown c : Opt α)).filterMap Opt.pair = [] :=
            List.filterMap_eq_nil_iff.mpr fun opt member => by
              obtain ⟨c, -, rfl⟩ := List.mem_map.mp member
              rfl
          rw [Item.found, nothing]
          rfl

/-- What is found in front: an item. -/
theorem getopts_item {item : Item α} (proper : item.Proper dash takes) (later : List (List α)) :
    getopts dash takes none (item.words dash ++ later) =
      { opts := item.found ++ (getopts dash takes none later).opts
        options := item.front dash ++ (getopts dash takes none later).options
        operands := item.back ++ (getopts dash takes none later).operands } := by
  cases item with
  | attached letter arg =>
      obtain ⟨other, option, nonempty⟩ := proper
      have noEnd : dash :: letter :: arg ≠ [dash, dash] := fun same => by
        cases same
        exact other rfl
      have option : letters takes (letter :: arg) = ([.given letter (some arg)], none) := by
        rw [letters_option option, if_neg nonempty]
      simp [Item.words, getopts, noEnd, isOption, option, Scanned.take, Item.found, Item.front,
        Item.back]
  | separate letter arg =>
      obtain ⟨other, option⟩ := proper
      have noEnd : [dash, letter] ≠ [dash, dash] := fun same => by
        cases same
        exact other rfl
      have option : letters takes [letter] = ([], some letter) := by
        rw [letters_option option, if_pos rfl]
      simp [Item.words, getopts, noEnd, isOption, option, Scanned.take, Item.found, Item.front,
        Item.back]
  | foreign cs =>
      obtain ⟨nonempty, other, none⟩ := proper
      have noEnd : dash :: cs ≠ [dash, dash] := fun same => other (List.cons.inj same).2
      have option : isOption dash (dash :: cs) = true := by
        cases cs with
        | nil => exact absurd rfl nonempty
        | cons => simp [isOption]
      simp [Item.words, getopts, noEnd, option, letters_foreign none, Scanned.take, Item.found,
        Item.front, Item.back]
  | operand word =>
      have plain : isOption dash word = false := proper
      have noEnd : word ≠ [dash, dash] := fun same => by
        simp [same, isOption] at plain
      simp [Item.words, getopts, noEnd, plain, Scanned.pass, Item.found, Item.front, Item.back]

/-- **What is found in words that are written as items.** -/
theorem getopts_items {items : List (Item α)} (proper : ∀ item ∈ items, item.Proper dash takes)
    (later : List (List α)) :
    getopts dash takes none (items.flatMap (Item.words dash) ++ later) =
      { opts := items.flatMap Item.found ++ (getopts dash takes none later).opts
        options := items.flatMap (Item.front dash) ++ (getopts dash takes none later).options
        operands := items.flatMap Item.back ++ (getopts dash takes none later).operands } := by
  induction items with
  | nil => rfl
  | cons item items ih =>
      have rest := ih fun other member => proper other (List.mem_cons_of_mem _ member)
      have here := proper item List.mem_cons_self
      rw [List.flatMap_cons, List.append_assoc, getopts_item here, rest]
      simp only [List.flatMap_cons, List.append_assoc]

/-! ## Where an option was found -/

omit [DecidableEq α] in
theorem mem_letters_of_given {c : α} {arg : Option (List α)} {cs : List α}
    (given : .given c arg ∈ (letters takes cs).1) : c ∈ cs := by
  induction cs with
  | nil => cases given
  | cons d cs ih =>
      rw [letters] at given
      split at given
      · rcases List.mem_cons.mp given with same | later
        · cases same
        · exact List.mem_cons_of_mem _ (ih later)
      · rcases List.mem_cons.mp given with same | later
        · cases same
          exact List.mem_cons_self
        · exact List.mem_cons_of_mem _ (ih later)
      · split at given
        · cases given
        · cases List.mem_singleton.mp given
          exact List.mem_cons_self

omit [DecidableEq α] in
theorem mem_letters_of_waits {c : α} {cs : List α} (waits : (letters takes cs).2 = some c) :
    c ∈ cs := by
  induction cs with
  | nil => cases waits
  | cons d cs ih =>
      rw [letters] at waits
      split at waits
      · exact List.mem_cons_of_mem _ (ih waits)
      · exact List.mem_cons_of_mem _ (ih waits)
      · split at waits
        · cases waits
          exact List.mem_cons_self
        · cases waits

/-- **An option is given by a word that starts with a dash and has its letter.** -/
theorem mem_of_given {c : α} {arg : Option (List α)} {waiting : Option α} {ws : List (List α)}
    (given : .given c arg ∈ (getopts dash takes waiting ws).opts) :
    waiting = some c ∨ ∃ cs, dash :: cs ∈ ws ∧ c ∈ cs := by
  induction ws generalizing waiting with
  | nil =>
      cases waiting with
      | none => cases given
      | some d => cases List.mem_singleton.mp given
  | cons word ws ih =>
      cases waiting with
      | some d =>
          rcases List.mem_append.mp given with here | later
          · cases List.mem_singleton.mp here
            exact .inl rfl
          · rcases ih later with waits | ⟨cs, member, inside⟩
            · cases waits
            · exact .inr ⟨cs, List.mem_cons_of_mem _ member, inside⟩
      | none =>
          rw [getopts] at given
          split at given
          · cases given
          · split at given
            · rename_i option
              obtain ⟨cs, rfl⟩ : ∃ cs, word = dash :: cs := by
                match word, option with
                | d :: e :: rest, option => exact ⟨e :: rest, by simpa [isOption] using option⟩
              rcases List.mem_append.mp given with here | later
              · exact .inr ⟨cs, List.mem_cons_self, mem_letters_of_given here⟩
              · rcases ih later with waits | ⟨others, member, inside⟩
                · exact .inr ⟨cs, List.mem_cons_self, mem_letters_of_waits waits⟩
                · exact .inr ⟨others, List.mem_cons_of_mem _ member, inside⟩
            · rcases ih given with waits | ⟨cs, member, inside⟩
              · cases waits
              · exact .inr ⟨cs, List.mem_cons_of_mem _ member, inside⟩

/-! ## What is an option -/

omit [DecidableEq α] in
theorem takes_of_letters {c : α} {cs : List α} :
    (∀ arg, .given c arg ∈ (letters takes cs).1 → takes c ≠ none) ∧
      ((letters takes cs).2 = some c → takes c ≠ none) := by
  induction cs with
  | nil => exact ⟨fun arg given => absurd given List.not_mem_nil, fun waits => by cases waits⟩
  | cons d cs ih =>
      obtain ⟨found, waits⟩ := ih
      cases option : takes d with
      | none =>
          simp only [letters, option]
          refine ⟨fun arg given => found arg ?_, waits⟩
          rcases List.mem_cons.mp given with same | later
          · cases same
          · exact later
      | some argument =>
          cases argument with
          | false =>
              simp only [letters, option]
              refine ⟨fun arg given => ?_, waits⟩
              rcases List.mem_cons.mp given with same | later
              · cases same
                rw [option]
                exact Option.some_ne_none _
              · exact found arg later
          | true =>
              rw [letters_option option]
              split
              · refine ⟨fun arg given => absurd given List.not_mem_nil, fun same => ?_⟩
                cases same
                rw [option]
                exact Option.some_ne_none _
              · refine ⟨fun arg given => ?_, fun same => by cases same⟩
                cases List.mem_singleton.mp given
                rw [option]
                exact Option.some_ne_none _

/-- **Only options are given.** -/
theorem takes_of_given {c : α} {arg : Option (List α)} {waiting : Option α} {ws : List (List α)}
    (option : ∀ d, waiting = some d → takes d ≠ none)
    (given : .given c arg ∈ (getopts dash takes waiting ws).opts) : takes c ≠ none := by
  induction ws generalizing waiting with
  | nil =>
      cases waiting with
      | none => cases given
      | some d => cases List.mem_singleton.mp given
  | cons word ws ih =>
      have nothing : ∀ d, none = some d → takes d ≠ none := fun d same => by cases same
      cases waiting with
      | some d =>
          rcases List.mem_append.mp given with here | later
          · cases List.mem_singleton.mp here
            exact option c rfl
          · exact ih nothing later
      | none =>
          rw [getopts] at given
          split at given
          · cases given
          · split at given
            · rcases List.mem_append.mp given with here | later
              · exact takes_of_letters.1 arg here
              · exact ih (fun d waits => takes_of_letters.2 waits) later
            · exact ih nothing given

end Machine
