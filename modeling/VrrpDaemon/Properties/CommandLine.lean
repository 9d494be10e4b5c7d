import VrrpDaemon.Model.CommandLine

/-!
# How far the command line is read

A line that fits is read into the slots, split at its blanks (`readLine_fits`). A line that
has more arguments than there are slots, or one that is longer than its slot, is written
beyond, and so is what follows the last newline, since the end of the input is not noticed.
So reading is safe exactly for inputs whose lines end with a command that does not return,
and fit up to there (`readLines_iff`).
-/

set_option autoImplicit false

namespace VrrpDaemon

open Machine

/-- The arguments of a line. -/
def words (line : List UInt8) : List (List UInt8) := line.splitOn blank

/-- The arguments of a line, each with its NUL, fit the slots. -/
def LineFits (line : List UInt8) : Prop :=
  (words line).length ≤ subcmdSlots ∧ ∀ word ∈ words line, word.length < cmdMaxLen

/-- The rest of a line fits from slot `i` and offset `j` on. -/
def RoomFrom (i j : Nat) (rest : List (List UInt8)) : Prop :=
  ∃ first others, rest = first :: others ∧ i + others.length < subcmdSlots ∧
    j + first.length < cmdMaxLen ∧ ∀ word ∈ others, word.length < cmdMaxLen

/-- A slot holds an argument with its NUL. -/
def Holds (subcmd : Subcmd) (i : Nat) (word : List UInt8) : Prop :=
  (subcmd i).slice 0 (word.length + 1) = word ++ [0]

/-! ## Lines -/

theorem words_ne_nil (line : List UInt8) : words line ≠ [] := List.splitOn_ne_nil _ _

theorem words_blank (line : List UInt8) : words (blank :: line) = [] :: words line := by
  simp [words, List.splitOn_cons_eq_if_modifyHead]

theorem words_other {c : UInt8} (other : c ≠ blank) {line first : List UInt8}
    {others : List (List UInt8)} (rest : words line = first :: others) :
    words (c :: line) = (c :: first) :: others := by
  rw [words] at rest
  rw [words, List.splitOn_cons_eq_if_modifyHead, rest]
  simp [other]

theorem roomFrom_cons {i j : Nat} {first : List UInt8} {others : List (List UInt8)} :
    RoomFrom i j (first :: others) ↔ i + others.length < subcmdSlots ∧
      j + first.length < cmdMaxLen ∧ ∀ word ∈ others, word.length < cmdMaxLen := by
  constructor
  · rintro ⟨first', others', same, room⟩
    cases same
    exact room
  · exact fun room => ⟨first, others, rfl, room⟩

theorem lineFits_iff (line : List UInt8) : LineFits line ↔ RoomFrom 0 0 (words line) := by
  rw [LineFits]
  cases items : words line with
  | nil => exact absurd items (words_ne_nil line)
  | cons first others =>
      rw [roomFrom_cons, List.forall_mem_cons, List.length_cons, Nat.zero_add, Nat.zero_add]
      rfl

/-! ## Reading a line -/

theorem store_eq {subcmd : Subcmd} {i j : Nat} (slot : i < subcmdSlots) (offset : j < cmdMaxLen)
    (c : UInt8) :
    subcmd.store i j c = .ok (Function.update subcmd i ((subcmd i).put j [c])) :=
  if_pos ⟨slot, offset⟩

theorem store_inside {subcmd subcmd' : Subcmd} {i j : Nat} {c : UInt8}
    (returns : subcmd.store i j c = .ok subcmd') : i < subcmdSlots ∧ j < cmdMaxLen := by
  rw [Subcmd.store] at returns
  split at returns
  · assumption
  · cases returns

theorem readLine_newline (bytes : Nat) (rest : List UInt8) (i j : Nat) (subcmd : Subcmd) :
    readLine (bytes + 1) (newline :: rest) i j subcmd = (do
      let subcmd ← subcmd.store i j 0
      return (i + 1, subcmd, rest)) := rfl

theorem readLine_blank (bytes : Nat) (rest : List UInt8) (i j : Nat) (subcmd : Subcmd) :
    readLine (bytes + 1) (blank :: rest) i j subcmd = (do
      let subcmd ← subcmd.store i j 0
      readLine bytes rest (i + 1) 0 subcmd) := rfl

theorem readLine_other {c : UInt8} (inside : c ≠ newline) (other : c ≠ blank) (bytes : Nat)
    (rest : List UInt8) (i j : Nat) (subcmd : Subcmd) :
    readLine (bytes + 1) (c :: rest) i j subcmd = (do
      let subcmd ← subcmd.store i j c
      readLine bytes rest i (j + 1) subcmd) := by
  show (if c = newline then _ else if c = blank then _ else _) = _
  rw [if_neg inside, if_neg other]

/-- What a slot holds once an argument is ended in it. -/
theorem holds_update (subcmd : Subcmd) (i j : Nat) :
    Holds (Function.update subcmd i ((subcmd i).put j [0])) i ((subcmd i).slice 0 j) := by
  rw [Holds, Function.update_self, Buffer.length_slice]
  exact Buffer.slice_put_next ..

/-- The slots from `i` on hold the arguments of what is left of a line, the first one behind
what the slot has already up to `j`; the slots before are as they were. -/
structure Placed (subcmd subcmd' : Subcmd) (i j : Nat) (rest : List (List UInt8)) : Prop where
  before : ∀ k, k < i → subcmd' k = subcmd k
  holds : ∀ m word, (rest.modifyHead ((subcmd i).slice 0 j ++ ·))[m]? = some word →
    Holds subcmd' (i + m) word

/-- The end of the line. -/
theorem placed_newline (subcmd : Subcmd) (i j : Nat) :
    Placed subcmd (Function.update subcmd i ((subcmd i).put j [0])) i j [[]] where
  before k before := Function.update_of_ne (Nat.ne_of_lt before) ..
  holds m word here := by
    cases m with
    | zero =>
        cases here
        show Holds _ i ((subcmd i).slice 0 j ++ [])
        rw [List.append_nil]
        exact holds_update subcmd i j
    | succ m => cases here

/-- A blank: the slot is done, and the next one is empty. -/
theorem Placed.blank {subcmd subcmd' : Subcmd} {i j : Nat} {rest : List (List UInt8)}
    (later : Placed (Function.update subcmd i ((subcmd i).put j [0])) subcmd' (i + 1) 0 rest) :
    Placed subcmd subcmd' i j ([] :: rest) where
  before k before := by
    rw [later.before k (Nat.lt_succ_of_lt before), Function.update_of_ne (Nat.ne_of_lt before)]
  holds m word here := by
    cases m with
    | zero =>
        cases here
        show Holds subcmd' i ((subcmd i).slice 0 j ++ [])
        rw [List.append_nil, Holds, later.before i (Nat.lt_succ_self i)]
        exact holds_update subcmd i j
    | succ m =>
        have nothing : rest.modifyHead ((Function.update subcmd i ((subcmd i).put j [0]) (i + 1)).slice
            0 0 ++ ·) = rest := by
          cases rest <;> rfl
        have placed := later.holds m word (by rw [nothing]; exact here)
        rwa [Nat.add_assoc, Nat.add_comm 1] at placed

/-- Any other byte goes behind what the slot has. -/
theorem Placed.byte {subcmd subcmd' : Subcmd} {i j : Nat} {c : UInt8} {first : List UInt8}
    {others : List (List UInt8)}
    (later : Placed (Function.update subcmd i ((subcmd i).put j [c])) subcmd' i (j + 1)
      (first :: others)) :
    Placed subcmd subcmd' i j ((c :: first) :: others) where
  before k before := by
    rw [later.before k before, Function.update_of_ne (Nat.ne_of_lt before)]
  holds m word here := by
    refine later.holds m word ?_
    rw [Function.update_self, Buffer.slice_put_next, List.modifyHead_cons, List.append_assoc,
      List.singleton_append]
    exact here

/-- **A line that fits is read**: the slots hold its arguments. -/
theorem readLine_room {line : List UInt8} (noNewline : newline ∉ line) {bytes : Nat}
    (enough : line.length ≤ bytes) (rest : List UInt8) {i j : Nat} (subcmd : Subcmd)
    (room : RoomFrom i j (words line)) :
    ∃ subcmd', readLine (bytes + 1) (line ++ newline :: rest) i j subcmd =
        .ok (i + (words line).length, subcmd', rest) ∧
      Placed subcmd subcmd' i j (words line) := by
  induction line generalizing bytes i j subcmd with
  | nil =>
      have nothing : words [] = [[]] := rfl
      rw [nothing] at room ⊢
      obtain ⟨slot, offset, -⟩ := roomFrom_cons.mp room
      rw [List.length_nil, Nat.add_zero] at slot offset
      refine ⟨Function.update subcmd i ((subcmd i).put j [0]), ?_, placed_newline subcmd i j⟩
      rw [List.nil_append, readLine_newline, store_eq slot offset]
      rfl
  | cons c line ih =>
      obtain ⟨bytes, rfl⟩ : ∃ fewer, bytes = fewer + 1 :=
        Nat.exists_eq_add_one.mpr (Nat.lt_of_lt_of_le (Nat.succ_pos _) enough)
      have fewer : line.length ≤ bytes := Nat.le_of_succ_le_succ enough
      have inside : c ≠ newline := fun same => noNewline (by simp [same])
      have clean : newline ∉ line := fun member => noNewline (List.mem_cons_of_mem _ member)
      obtain ⟨first, others, items⟩ := List.exists_cons_of_ne_nil (words_ne_nil line)
      by_cases separates : c = blank
      · subst separates
        rw [words_blank, items] at room
        obtain ⟨slots, offset, fit⟩ := roomFrom_cons.mp room
        rw [List.length_cons] at slots
        rw [List.length_nil, Nat.add_zero] at offset
        have next : RoomFrom (i + 1) 0 (words line) := by
          rw [items, roomFrom_cons, Nat.zero_add]
          exact ⟨by omega, fit first List.mem_cons_self, (List.forall_mem_cons.mp fit).2⟩
        obtain ⟨subcmd', returns, placed⟩ := ih clean fewer
          (Function.update subcmd i ((subcmd i).put j [0])) next
        rw [words_blank]
        refine ⟨subcmd', ?_, placed.blank⟩
        rw [List.cons_append, readLine_blank, store_eq (by omega) offset, ok_bind, returns,
          List.length_cons, Nat.add_assoc, Nat.add_comm 1]
      · rw [words_other separates items] at room
        obtain ⟨slots, offset, fit⟩ := roomFrom_cons.mp room
        rw [List.length_cons] at offset
        have next : RoomFrom i (j + 1) (words line) := by
          rw [items]
          exact roomFrom_cons.mpr ⟨slots, by omega, fit⟩
        obtain ⟨subcmd', returns, placed⟩ := ih clean fewer
          (Function.update subcmd i ((subcmd i).put j [c])) next
        rw [items] at placed returns
        rw [words_other separates items]
        refine ⟨subcmd', ?_, placed.byte⟩
        rw [List.cons_append, readLine_other inside separates, store_eq (by omega) (by omega),
          ok_bind, returns]
        rfl

/-- **A line that is read fits.** -/
theorem readLine_returns {line : List UInt8} (noNewline : newline ∉ line) {bytes : Nat}
    {rest : List UInt8} {i j : Nat} {subcmd : Subcmd} {result : Nat × Subcmd × List UInt8}
    (returns : readLine bytes (line ++ newline :: rest) i j subcmd = .ok result) :
    RoomFrom i j (words line) := by
  induction line generalizing bytes i j subcmd with
  | nil =>
      cases bytes with
      | zero => cases returns
      | succ bytes =>
          obtain ⟨subcmd', stored, -⟩ := bind_eq_ok.mp returns
          obtain ⟨slot, offset⟩ := store_inside stored
          exact roomFrom_cons.mpr ⟨slot, offset, fun word member => absurd member List.not_mem_nil⟩
  | cons c line ih =>
      have inside : c ≠ newline := fun same => noNewline (by simp [same])
      have clean : newline ∉ line := fun member => noNewline (List.mem_cons_of_mem _ member)
      obtain ⟨first, others, items⟩ := List.exists_cons_of_ne_nil (words_ne_nil line)
      cases bytes with
      | zero => cases returns
      | succ bytes =>
          by_cases separates : c = blank
          · subst separates
            rw [List.cons_append, readLine_blank] at returns
            obtain ⟨subcmd', stored, read⟩ := bind_eq_ok.mp returns
            have later := ih clean read
            rw [items] at later
            obtain ⟨slots, offset, fit⟩ := roomFrom_cons.mp later
            obtain ⟨-, here⟩ := store_inside stored
            rw [words_blank, items]
            refine roomFrom_cons.mpr ⟨?_, here, ?_⟩
            · rw [List.length_cons]
              omega
            · rw [List.forall_mem_cons]
              exact ⟨by omega, fit⟩
          · rw [List.cons_append, readLine_other inside separates] at returns
            obtain ⟨subcmd', stored, read⟩ := bind_eq_ok.mp returns
            have later := ih clean read
            rw [items] at later
            obtain ⟨slots, offset, fit⟩ := roomFrom_cons.mp later
            rw [words_other separates items]
            refine roomFrom_cons.mpr ⟨slots, ?_, fit⟩
            rw [List.length_cons]
            omega

/-- **Without a newline no line is read.** -/
theorem readLine_endless {input : List UInt8} (noNewline : newline ∉ input) {bytes i j : Nat}
    {subcmd : Subcmd} {result : Nat × Subcmd × List UInt8} :
    readLine bytes input i j subcmd ≠ .ok result := by
  intro returns
  induction bytes generalizing input i j subcmd with
  | zero => cases returns
  | succ bytes ih =>
      have clean : newline ∉ (fgetc input).2 ∧ (fgetc input).1 ≠ newline := by
        cases input with
        | nil => exact ⟨noNewline, by decide⟩
        | cons c rest =>
            exact ⟨fun member => noNewline (List.mem_cons_of_mem _ member),
              fun same => noNewline (by simp [← same, fgetc])⟩
      rw [readLine] at returns
      simp only at returns
      rw [if_neg clean.2] at returns
      split at returns
      · obtain ⟨subcmd', -, read⟩ := bind_eq_ok.mp returns
        exact ih clean.1 read
      · obtain ⟨subcmd', -, read⟩ := bind_eq_ok.mp returns
        exact ih clean.1 read

/-! ## The call for a line -/

/-- The call for a line, if its first argument is a command. -/
def callOf (line : List UInt8) : Option CmdCall :=
  (findCmd (text ((words line).headD []))).map fun fn =>
    ⟨fn, (words line).length, (words line).map text⟩

/-- A call has the arguments of its line, and their number. -/
def Exact (line : List UInt8) (outcome : Option CmdCall) : Prop :=
  ∀ call, outcome = some call → call.argc = (words line).length ∧ call.argv = words line

/-- An argument ends at its first NUL. -/
theorem Holds.arg {subcmd : Subcmd} {i : Nat} {word : List UInt8} (holds : Holds subcmd i word)
    (short : word.length < cmdMaxLen) : subcmd.arg i = text word := by
  obtain ⟨more, size⟩ := Nat.exists_eq_add_of_lt short
  have whole : (subcmd i).slice 0 cmdMaxLen =
      (word ++ [0]) ++ (subcmd i).slice (0 + (word.length + 1)) more := by
    have length : cmdMaxLen = word.length + 1 + more := by omega
    rw [length, Buffer.slice_add, holds]
  rw [Subcmd.arg, whole, List.append_assoc]
  exact text_append_zero word _

/-- **Reading a line that fits** leads to its call. -/
theorem readLine_fits {line : List UInt8} (noNewline : newline ∉ line) (fits : LineFits line)
    (rest : List UInt8) (subcmd : Subcmd) :
    ∃ subcmd', readLine (lineBytes (line ++ newline :: rest)) (line ++ newline :: rest) 0 0 subcmd =
        .ok ((words line).length, subcmd', rest) ∧
      lineCall (words line).length subcmd' = callOf line := by
  have room : RoomFrom 0 0 (words line) := (lineFits_iff line).mp fits
  have enough : line.length ≤ (line ++ newline :: rest).length + cmdMaxLen := by
    rw [List.length_append]
    omega
  obtain ⟨subcmd', returns, -, holds⟩ := readLine_room noNewline enough rest subcmd room
  rw [Nat.zero_add] at returns
  obtain ⟨first, others, items⟩ := List.exists_cons_of_ne_nil (words_ne_nil line)
  have args : ∀ m word, (words line)[m]? = some word → subcmd'.arg m = text word := by
    intro m word here
    have placed := holds m word (by rw [← here, items]; rfl)
    rw [Nat.zero_add] at placed
    exact placed.arg (fits.2 word (List.mem_of_getElem? here))
  refine ⟨subcmd', returns, ?_⟩
  have head : subcmd'.arg 0 = text ((words line).headD []) := by
    rw [items]
    exact args 0 first (by rw [items]; rfl)
  have all : (List.range (words line).length).map subcmd'.arg = (words line).map text := by
    refine List.ext_getElem (by simp) fun m inside inside' => ?_
    rw [List.length_map] at inside'
    rw [List.getElem_map, List.getElem_map, List.getElem_range]
    exact args m _ (List.getElem?_eq_getElem inside')
  rw [lineCall, callOf, head, all]

/-- The arguments have a NUL exactly if the line has one. -/
theorem mem_words_iff {c : UInt8} (other : c ≠ blank) (line : List UInt8) :
    (∃ word ∈ words line, c ∈ word) ↔ c ∈ line := by
  induction line with
  | nil => simp [words]
  | cons d line ih =>
      obtain ⟨first, others, items⟩ := List.exists_cons_of_ne_nil (words_ne_nil line)
      rw [items] at ih
      by_cases separates : d = blank
      · subst separates
        rw [words_blank, items, List.mem_cons, ← ih]
        simp [other]
      · rw [words_other separates items, List.mem_cons, ← ih]
        simp [or_assoc]

/-- **A call is exact** if its line has no NUL. -/
theorem callOf_exact_iff (line : List UInt8) :
    Exact line (callOf line) ↔ ((callOf line).isSome → (0 : UInt8) ∉ line) := by
  have same : (words line).map text = words line ↔ (0 : UInt8) ∉ line := by
    rw [← mem_words_iff (by decide) line]
    have each : (words line).map text = words line ↔ ∀ word ∈ words line, text word = word := by
      have pointwise := List.map_inj_left (l := words line) (f := text) (g := id)
      rwa [List.map_id] at pointwise
    rw [each]
    constructor
    · rintro equal ⟨word, member, zero⟩
      exact zero_notMem_text word ((equal word member).symm ▸ zero)
    · intro none word member
      exact text_self fun zero => none ⟨word, member, zero⟩
  rw [Exact, callOf]
  cases findCmd (text ((words line).headD [])) with
  | none => simp
  | some fn => simp [same]

/-! ## Runs -/

variable {w : CmdWorld}

/-- The line ends the reading of lines, as the `k`-th one. -/
def lineEnds (w : CmdWorld) (k : Nat) (line : List UInt8) : Bool :=
  ((callOf line).map (endsReading w k)).getD false

/-- Lines that are read right: they fit, a line that is a command has no NUL, and the last
one is the first whose command does not return. -/
def Session (w : CmdWorld) : Nat → List (List UInt8) → Prop
  | _, [] => False
  | k, line :: later =>
      (newline ∉ line ∧ LineFits line ∧ ((callOf line).isSome → (0 : UInt8) ∉ line)) ∧
        if lineEnds w k line then later = [] else Session w (k + 1) later

/-- The input for some lines, with more behind them. -/
def inputOf (lines : List (List UInt8)) (rest : List UInt8) : List UInt8 :=
  lines.flatMap (· ++ [newline]) ++ rest

/-- Reading the lines of an input ends, without writing beyond a slot, and makes for each
line the call with its arguments. -/
def Tokenizes (w : CmdWorld) (fuel k : Nat) (input : List UInt8) (subcmd : Subcmd) : Prop :=
  ∃ outcomes lines rest, readLines w fuel k input subcmd = .ok outcomes ∧
    input = inputOf lines rest ∧ (∀ line ∈ lines, newline ∉ line) ∧
      List.Forall₂ Exact lines outcomes

theorem inputOf_cons (line : List UInt8) (later : List (List UInt8)) (rest : List UInt8) :
    inputOf (line :: later) rest = line ++ newline :: inputOf later rest := by
  simp [inputOf]

/-- The first line of an input. -/
theorem line_unique {line line' rest rest' : List UInt8} (clean : newline ∉ line)
    (clean' : newline ∉ line') (same : line ++ newline :: rest = line' ++ newline :: rest') :
    line = line' ∧ rest = rest' := by
  induction line generalizing line' with
  | nil =>
      cases line' with
      | nil => exact ⟨rfl, List.tail_eq_of_cons_eq same⟩
      | cons c line' => exact absurd (List.head_eq_of_cons_eq same ▸ List.mem_cons_self) clean'
  | cons c line ih =>
      cases line' with
      | nil => exact absurd (List.head_eq_of_cons_eq same ▸ List.mem_cons_self) clean
      | cons d line' =>
          obtain ⟨rfl, rest⟩ := List.cons.inj same
          obtain ⟨rfl, behind⟩ := ih (fun member => clean (List.mem_cons_of_mem _ member))
            (fun member => clean' (List.mem_cons_of_mem _ member)) rest
          exact ⟨rfl, behind⟩

/-- An input that some line starts. -/
theorem inputOf_line {line rest : List UInt8} (clean : newline ∉ line)
    {lines : List (List UInt8)} {behind : List UInt8}
    (input : line ++ newline :: rest = inputOf lines behind) (some : lines ≠ [])
    (cleans : ∀ line ∈ lines, newline ∉ line) :
    ∃ later, lines = line :: later ∧ rest = inputOf later behind := by
  obtain ⟨line', later, rfl⟩ := List.exists_cons_of_ne_nil some
  rw [inputOf_cons] at input
  obtain ⟨rfl, same⟩ := line_unique clean (cleans line' List.mem_cons_self) input
  exact ⟨later, rfl, same⟩

theorem Session.clean {k : Nat} {lines : List (List UInt8)} (session : Session w k lines) :
    ∀ line ∈ lines, newline ∉ line := by
  induction lines generalizing k with
  | nil => exact fun line member => absurd member List.not_mem_nil
  | cons line later ih =>
      obtain ⟨⟨clean, -⟩, goes⟩ := session
      rw [List.forall_mem_cons]
      refine ⟨clean, ?_⟩
      split at goes
      · rw [goes]
        exact fun line member => absurd member List.not_mem_nil
      · exact ih goes

/-- One line of the loop. -/
theorem readLines_line (w : CmdWorld) {line : List UInt8} (clean : newline ∉ line)
    (fits : LineFits line) (lines k : Nat) (rest : List UInt8) (subcmd : Subcmd) :
    ∃ subcmd', readLines w (lines + 1) k (line ++ newline :: rest) subcmd =
      if lineEnds w k line then .ok [callOf line]
      else do
        let later ← readLines w lines (k + 1) rest subcmd'
        return callOf line :: later := by
  obtain ⟨subcmd', read, call⟩ := readLine_fits clean fits rest subcmd
  refine ⟨slotsBehind w k (callOf line) subcmd', ?_⟩
  rw [readLines, read, ok_bind]
  simp only [call]
  rfl

/-- An input without a newline is not read to an end. -/
theorem not_tokenizes_of_endless {input : List UInt8} (endless : newline ∉ input)
    {fuel k : Nat} {subcmd : Subcmd} : ¬ Tokenizes w fuel k input subcmd := by
  rintro ⟨outcomes, lines, rest, read, -⟩
  cases fuel with
  | zero => cases read
  | succ fuel =>
      obtain ⟨result, line, -⟩ := bind_eq_ok.mp read
      exact readLine_endless endless line

/-- The first line of an input that is read fits. -/
theorem Tokenizes.fits {line rest : List UInt8} (clean : newline ∉ line) {fuel k : Nat}
    {subcmd : Subcmd} (tokenizes : Tokenizes w fuel k (line ++ newline :: rest) subcmd) :
    LineFits line := by
  obtain ⟨outcomes, lines, behind, read, -⟩ := tokenizes
  cases fuel with
  | zero => cases read
  | succ fuel =>
      obtain ⟨result, first, -⟩ := bind_eq_ok.mp read
      exact (lineFits_iff line).mpr (readLine_returns clean first)

/-- **The last line** of a session. -/
theorem tokenizes_last {line rest : List UInt8} (clean : newline ∉ line) (fits : LineFits line)
    {fuel k : Nat} {subcmd : Subcmd} (ends : lineEnds w k line = true) :
    Tokenizes w (fuel + 1) k (line ++ newline :: rest) subcmd ↔
      Exact line (callOf line) := by
  obtain ⟨subcmd', one⟩ := readLines_line w clean fits fuel k rest subcmd
  rw [if_pos ends] at one
  constructor
  · rintro ⟨outcomes, lines, behind, read, input, cleans, exact⟩
    rw [one] at read
    cases read
    have some : lines ≠ [] := fun nothing => by
      rw [nothing] at exact
      cases exact
    obtain ⟨later, rfl, -⟩ := inputOf_line clean input some cleans
    exact (List.forall₂_cons.mp exact).1
  · intro exact
    refine ⟨[callOf line], [line], rest, one, ?_, ?_, .cons exact .nil⟩
    · rw [inputOf_cons]
      rfl
    · rwa [List.forall_mem_singleton]

/-- **A line with others behind it.** -/
theorem tokenizes_cons {line : List UInt8} (clean : newline ∉ line) (fits : LineFits line)
    {k : Nat} (goes : ¬ lineEnds w k line = true) (fuel : Nat) (rest : List UInt8)
    (subcmd : Subcmd) :
    ∃ subcmd', Tokenizes w (fuel + 1) k (line ++ newline :: rest) subcmd ↔
      Exact line (callOf line) ∧ Tokenizes w fuel (k + 1) rest subcmd' := by
  obtain ⟨subcmd', one⟩ := readLines_line w clean fits fuel k rest subcmd
  rw [if_neg goes] at one
  refine ⟨subcmd', ?_, ?_⟩
  · rintro ⟨outcomes, lines, behind, read, input, cleans, exact⟩
    rw [one] at read
    obtain ⟨others, later, whole⟩ := bind_eq_ok.mp read
    cases whole
    have some : lines ≠ [] := fun nothing => by
      rw [nothing] at exact
      cases exact
    obtain ⟨more, rfl, rest⟩ := inputOf_line clean input some cleans
    obtain ⟨here, there⟩ := List.forall₂_cons.mp exact
    exact ⟨here, others, more, behind, later, rest, (List.forall_mem_cons.mp cleans).2, there⟩
  · rintro ⟨here, others, more, behind, later, rfl, cleans, there⟩
    refine ⟨callOf line :: others, line :: more, behind, ?_, ?_, ?_, .cons here there⟩
    · rw [one, later]
      rfl
    · rw [inputOf_cons]
    · exact List.forall_mem_cons.mpr ⟨clean, cleans⟩

/-- The session that an input starts with, by its first line. -/
theorem session_iff {line rest : List UInt8} (clean : newline ∉ line) {k : Nat} :
    (∃ lines behind, line ++ newline :: rest = inputOf lines behind ∧ Session w k lines) ↔
      (LineFits line ∧ Exact line (callOf line)) ∧
        (lineEnds w k line = true ∨
          ∃ lines behind, rest = inputOf lines behind ∧ Session w (k + 1) lines) := by
  rw [callOf_exact_iff]
  constructor
  · rintro ⟨lines, behind, input, session⟩
    have some : lines ≠ [] := fun nothing => by
      rw [nothing] at session
      exact session
    obtain ⟨later, rfl, rest⟩ := inputOf_line clean input some session.clean
    obtain ⟨⟨-, fits, noNul⟩, goes⟩ := session
    refine ⟨⟨fits, noNul⟩, ?_⟩
    split at goes
    · exact .inl ‹_›
    · exact .inr ⟨later, behind, rest, goes⟩
  · rintro ⟨⟨fits, noNul⟩, more⟩
    by_cases ends : lineEnds w k line = true
    · refine ⟨[line], rest, ?_, ⟨clean, fits, noNul⟩, ?_⟩
      · rw [inputOf_cons]
        rfl
      · rw [if_pos ends]
    · obtain ⟨lines, behind, rfl, session⟩ := more.resolve_left ends
      refine ⟨line :: lines, behind, ?_, ⟨clean, fits, noNul⟩, ?_⟩
      · rw [inputOf_cons]
      · rwa [if_neg ends]

theorem tokenizes_iff {fuel k : Nat} {input : List UInt8} {subcmd : Subcmd}
    (enough : input.length < fuel) :
    Tokenizes w fuel k input subcmd ↔
      ∃ lines rest, input = inputOf lines rest ∧ Session w k lines := by
  induction fuel generalizing k input subcmd with
  | zero => omega
  | succ fuel ih =>
      by_cases complete : newline ∈ input
      · obtain ⟨line, rest, rfl, clean⟩ := List.eq_append_cons_of_mem complete
        have shorter : rest.length < fuel := by
          rw [List.length_append, List.length_cons] at enough
          omega
        rw [session_iff clean]
        by_cases fits : LineFits line
        · by_cases ends : lineEnds w k line = true
          · rw [tokenizes_last clean fits ends]
            exact ⟨fun exact => ⟨⟨fits, exact⟩, .inl ends⟩, fun whole => whole.1.2⟩
          · obtain ⟨subcmd', step⟩ := tokenizes_cons clean fits ends fuel rest subcmd
            rw [step, ih shorter]
            constructor
            · exact fun whole => ⟨⟨fits, whole.1⟩, .inr whole.2⟩
            · exact fun whole => ⟨whole.1.2, whole.2.resolve_left ends⟩
        · constructor
          · exact fun tokenizes => absurd (tokenizes.fits clean) fits
          · exact fun whole => absurd whole.1.1 fits
      · constructor
        · exact fun tokenizes => absurd tokenizes (not_tokenizes_of_endless complete)
        · rintro ⟨lines, rest, rfl, session⟩
          cases lines with
          | nil => exact session.elim
          | cons line later =>
              rw [inputOf_cons] at complete
              exact absurd (by simp) complete

/-! ## Reading ends -/

theorem store_ne_diverges {subcmd : Subcmd} {i j : Nat} {c : UInt8} :
    subcmd.store i j c ≠ .error .diverges := by
  rw [Subcmd.store]
  split
  · intro same
    cases same
  · intro same
    cases same

/-- A write beyond a slot, or one that leaves room for less. -/
theorem store_bind_ne_diverges {subcmd : Subcmd} {i j : Nat} {c : UInt8} {α : Type}
    {next : Subcmd → Result α}
    (goes : j < cmdMaxLen → ∀ subcmd, next subcmd ≠ .error .diverges) :
    (subcmd.store i j c >>= next) ≠ .error .diverges := by
  intro diverges
  cases stored : subcmd.store i j c with
  | error fault =>
      rw [stored] at diverges
      cases diverges
      exact store_ne_diverges stored
  | ok subcmd' =>
      rw [stored] at diverges
      exact goes (store_inside stored).2 subcmd' diverges

/-- At the end of the input the slot is filled, and overrun. -/
theorem readLine_nil_ends {bytes i j : Nat} (inside : j ≤ cmdMaxLen)
    (enough : cmdMaxLen < bytes + j) (subcmd : Subcmd) :
    readLine bytes [] i j subcmd ≠ .error .diverges := by
  induction bytes generalizing j subcmd with
  | zero => omega
  | succ bytes ih =>
      show (subcmd.store i j 255 >>= readLine bytes [] i (j + 1)) ≠ .error .diverges
      exact store_bind_ne_diverges fun room subcmd => ih room (by omega) subcmd

/-- **Reading a line ends**, with the line or with a write beyond its slot. -/
theorem readLine_ends {input : List UInt8} {bytes i j : Nat} (inside : j ≤ cmdMaxLen)
    (enough : input.length + cmdMaxLen < bytes) (subcmd : Subcmd) :
    readLine bytes input i j subcmd ≠ .error .diverges := by
  induction input generalizing bytes i j subcmd with
  | nil =>
      rw [List.length_nil] at enough
      exact readLine_nil_ends inside (by omega) subcmd
  | cons c rest ih =>
      obtain ⟨bytes, rfl⟩ : ∃ fewer, bytes = fewer + 1 := Nat.exists_eq_add_one.mpr (by omega)
      have fewer : rest.length + cmdMaxLen < bytes := by
        rw [List.length_cons] at enough
        omega
      by_cases ended : c = newline
      · subst ended
        rw [readLine_newline]
        refine store_bind_ne_diverges fun _ subcmd same => ?_
        cases same
      · by_cases separates : c = blank
        · subst separates
          rw [readLine_blank]
          exact store_bind_ne_diverges fun _ subcmd => ih (Nat.zero_le _) fewer subcmd
        · rw [readLine_other ended separates]
          exact store_bind_ne_diverges fun room subcmd => ih room fewer subcmd

/-- **Reading lines ends**, with a command that does not return or with a write beyond a
slot. -/
theorem readLines_ends (w : CmdWorld) {fuel : Nat} {input : List UInt8}
    (enough : input.length < fuel) (k : Nat) (subcmd : Subcmd) :
    readLines w fuel k input subcmd ≠ .error .diverges := by
  induction fuel generalizing k input subcmd with
  | zero => omega
  | succ fuel ih =>
      intro diverges
      have one : readLine (lineBytes input) input 0 0 subcmd ≠ .error .diverges :=
        readLine_ends (Nat.zero_le _) (Nat.lt_succ_self _) subcmd
      cases read : readLine (lineBytes input) input 0 0 subcmd with
      | error fault =>
          rw [readLines, read] at diverges
          cases diverges
          exact one read
      | ok result =>
          have complete : newline ∈ input := by
            by_contra endless
            exact readLine_endless endless read
          obtain ⟨line, rest, rfl, clean⟩ := List.eq_append_cons_of_mem complete
          have fits := (lineFits_iff line).mpr (readLine_returns clean read)
          obtain ⟨subcmd', step⟩ := readLines_line w clean fits fuel k rest subcmd
          rw [step] at diverges
          split at diverges
          · cases diverges
          · cases later : readLines w fuel (k + 1) rest subcmd' with
            | error fault =>
                rw [later] at diverges
                cases diverges
                refine ih ?_ (k + 1) subcmd' later
                rw [List.length_append, List.length_cons] at enough
                omega
            | ok outcomes =>
                rw [later] at diverges
                cases diverges

/-- **Which inputs are read right.** For every input, whatever the slots hold at first and
whatever the commands leave there, whichever of them return: reading lines ends, without a
write beyond a slot, with the calls that have exactly the arguments of their lines, if and
only if the input starts with lines that fit, those that are commands without a NUL, and the
last of which is the first whose command does not return. In every case reading ends. -/
theorem readLines_iff (w : CmdWorld) (input : List UInt8) (subcmd : Subcmd) :
    (Tokenizes w (input.length + 1) 0 input subcmd ↔
      ∃ lines rest, input = inputOf lines rest ∧ Session w 0 lines) ∧
      readLines w (input.length + 1) 0 input subcmd ≠ .error .diverges :=
  ⟨tokenizes_iff (Nat.lt_succ_self _), readLines_ends w (Nat.lt_succ_self _) 0 subcmd⟩

/-- One command, and then the end of the input. -/
def oneCommand : List UInt8 := ascii "startup -v 7" ++ [newline]

/-- Commands that return, and leave the slots as they are. -/
def returning : CmdWorld where
  returns _ _ := true
  leaves _ _ subcmd := subcmd

/-- **The end of the input overruns a slot.** The line is read right, and its command
returns; then the end of the input is read as bytes of a further line. -/
theorem readLines_overrun :
    ¬ Tokenizes returning (oneCommand.length + 1) 0 oneCommand (fun _ _ => 0) ∧
      readLines returning (oneCommand.length + 1) 0 oneCommand (fun _ _ => 0) =
        .error .overflow := by
  have overrun : readLines returning (oneCommand.length + 1) 0 oneCommand
      (fun _ _ => 0) = .error .overflow := by decide +kernel
  refine ⟨?_, overrun⟩
  rintro ⟨outcomes, lines, rest, read, -⟩
  rw [overrun] at read
  cases read

end VrrpDaemon
