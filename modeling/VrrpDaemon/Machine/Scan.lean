import VrrpDaemon.Machine.Bytes
import VrrpDaemon.Machine.Faults

/-!
# Reading a buffer from front to back

A scan reads a buffer from a cursor on, and returns a value together with the
cursor behind what it read. It carries the proofs that it moves forward, and
that it looks at nothing but the bytes it moves over.

Scans are put together with `do`. A scan that reads back what was written
(`Scan.Reads`) is put together from scans that do (`Scan.Reads.bind`).
-/

set_option autoImplicit false

namespace Machine

/-- A function that reads a buffer from a cursor on. -/
structure Scan (ε α : Type) where
  run : Buffer → Nat → Except ε (α × Nat)
  forward : ∀ {b : Buffer} {off after : Nat} {a : α}, run b off = .ok (a, after) → off ≤ after
  confined : ∀ {b b' : Buffer} {off after : Nat} {a : α}, run b off = .ok (a, after) →
    (∀ i, off ≤ i → i < after → b i = b' i) → run b' off = .ok (a, after)

namespace Scan

variable {ε α β : Type}

/-- Read nothing. -/
def value (a : α) : Scan ε α where
  run _ off := .ok (a, off)
  forward returns := by
    cases returns
    exact Nat.le_refl _
  confined returns _ := by
    cases returns
    rfl

/-- Read one thing, then another. -/
def andThen (first : Scan ε α) (second : α → Scan ε β) : Scan ε β where
  run b off := do
    let (a, after) ← first.run b off
    (second a).run b after
  forward returns := by
    obtain ⟨⟨a, middle⟩, one, two⟩ := bind_eq_ok.mp returns
    exact Nat.le_trans (first.forward one) ((second a).forward two)
  confined returns same := by
    obtain ⟨⟨a, middle⟩, one, two⟩ := bind_eq_ok.mp returns
    have start := first.forward one
    have stop := (second a).forward two
    rw [first.confined one fun i low high => same i low (by omega), ok_bind]
    exact (second a).confined two fun i low high => same i (by omega) high

instance : Monad (Scan ε) where
  pure := value
  bind := andThen

/-- Read a value of fixed width. -/
def cell (cell : Cell α) : Scan ε α where
  run b off := .ok (cell.load b off, off + cell.width)
  forward returns := by
    cases returns
    exact Nat.le_add_right ..
  confined returns same := by
    cases returns
    rw [Cell.load, Cell.load, Buffer.slice_congr same]

/-- A record in memory: its size, and how it is read, which depends on its bytes only. -/
structure Record (α : Type) where
  size : Nat
  load : Buffer → Nat → α
  image : ∀ {b b' : Buffer} {off off' : Nat}, b.slice off size = b'.slice off' size →
    load b off = load b' off'

/-- Read a record. -/
def record (r : Record α) : Scan ε α where
  run b off := .ok (r.load b off, off + r.size)
  forward returns := by
    cases returns
    exact Nat.le_add_right ..
  confined returns same := by
    cases returns
    rw [r.image (Buffer.slice_congr same)]

/-- A text that a NUL ends within a field of some size. -/
abbrev Terminated (size : Nat) : Type :=
  { name : List UInt8 // (0 : UInt8) ∉ name ∧ name.length < size }

/-- A short text is determined by its bytes and its NUL. -/
theorem text_slice_congr {b b' : Buffer} {off size : Nat}
    (short : (text (b.slice off size)).length < size)
    (same : ∀ i, off ≤ i → i < off + (text (b.slice off size)).length + 1 → b i = b' i) :
    text (b'.slice off size) = text (b.slice off size) := by
  refine text_of_slice (zero_notMem_text _) short ?_
  rw [← slice_of_text short]
  exact (Buffer.slice_congr fun i low high => same i low (by omega)).symm

/-- Copy a text into a field of some size, which a longer one overruns. -/
def string (fault : ε) (size : Nat) : Scan ε (Terminated size) where
  run b off :=
    if short : (text (b.slice off size)).length < size then
      .ok (⟨text (b.slice off size), zero_notMem_text _, short⟩,
        off + (text (b.slice off size)).length + 1)
    else .error fault
  forward returns := by
    split at returns
    · cases returns
      omega
    · cases returns
  confined returns same := by
    split at returns
    · rename_i short
      cases returns
      simp only [text_slice_congr short same, short, reduceDIte]
    · cases returns

/-- Read some values of fixed width. -/
def cells (c : Cell α) : Nat → Scan ε (List α)
  | 0 => pure []
  | count + 1 => do
      let a ← cell c
      let later ← cells c count
      pure (a :: later)

@[simp] theorem run_pure (a : α) (b : Buffer) (off : Nat) :
    (pure a : Scan ε α).run b off = .ok (a, off) := rfl

@[simp] theorem run_bind (first : Scan ε α) (second : α → Scan ε β) (b : Buffer) (off : Nat) :
    (first >>= second).run b off = (do
      let (a, after) ← first.run b off
      (second a).run b after) := rfl

/-- **A sequence of values** is read from where it lies. -/
theorem cells_run (c : Cell α) (count : Nat) (b : Buffer) (off : Nat) :
    (cells c count : Scan ε (List α)).run b off =
      .ok (c.loads b off count, off + count * c.width) := by
  induction count generalizing off with
  | zero => simp [cells, Cell.loads]
  | succ count ih =>
      have first : (cell c : Scan ε α).run b off = .ok (c.load b off, off + c.width) := rfl
      have stop : off + c.width + count * c.width = off + (count + 1) * c.width := by
        rw [Nat.succ_mul, Nat.add_assoc, Nat.add_comm c.width]
      have row : c.load b off :: c.loads b (off + c.width) count = c.loads b off (count + 1) := by
        have place : ∀ i, off + c.width + i * c.width = off + (i + 1) * c.width := fun i => by
          rw [Nat.succ_mul, Nat.add_assoc, Nat.add_comm c.width]
        simp [Cell.loads, List.range_succ_eq_map, place]
      simp only [cells, run_bind, first, ok_bind, ih, run_pure, stop, row]

/-- A sequence of values is always there. -/
theorem run_cells (c : Cell α) (count : Nat) (b : Buffer) (off : Nat) :
    ∃ values, (cells c count : Scan ε (List α)).run b off =
      .ok (values, off + count * c.width) :=
  ⟨_, cells_run c count b off⟩

/-! ## Reading back what was written -/

/-- The scan finds the value in its image, whatever lies around it. -/
def Reads (scan : Scan ε α) (image : List UInt8) (a : α) : Prop :=
  ∀ front back residue,
    scan.run (.holding (front ++ (image ++ back)) residue) front.length =
      .ok (a, front.length + image.length)

theorem reads_value (a : α) : (pure a : Scan ε α).Reads [] a := fun _ _ _ => rfl

/-- **Images are read one after the other.** -/
theorem Reads.bind {first : Scan ε α} {second : α → Scan ε β} {image image' : List UInt8} {a : α}
    {x : β} (one : first.Reads image a) (two : (second a).Reads image' x) :
    (first >>= second).Reads (image ++ image') x := by
  intro front back residue
  have behind := two (front ++ image) back residue
  rw [List.length_append, List.append_assoc] at behind
  rw [run_bind, List.append_assoc, one front (image' ++ back) residue, ok_bind,
    List.length_append, ← Nat.add_assoc]
  exact behind

theorem Reads.map {scan : Scan ε α} {image : List UInt8} {a : α} (reads : scan.Reads image a)
    (f : α → β) : (scan >>= fun a => pure (f a)).Reads image (f a) := by
  have whole : (scan >>= fun a => pure (f a)).Reads (image ++ []) (f a) :=
    reads.bind (reads_value (f a))
  rwa [List.append_nil] at whole

theorem reads_cell {c : Cell α} {a : α} (fits : c.Fits a) :
    (cell c : Scan ε α).Reads (c.encode a) a := by
  intro front back residue
  show Except.ok (c.load _ _, _) = _
  rw [Cell.load_holding front back fits, c.length_encode]

/-- **A record is read back from a copy.** -/
theorem reads_record (r : Record α) (source : Buffer) :
    (record r : Scan ε α).Reads (source.slice 0 r.size) (r.load source 0) := by
  intro front back residue
  have copied : (Buffer.holding (front ++ (source.slice 0 r.size ++ back)) residue).slice
      front.length (source.slice 0 r.size).length = source.slice 0 r.size := Buffer.slice_holding ..
  rw [Buffer.length_slice] at copied
  show Except.ok (r.load _ _, _) = _
  rw [r.image copied, Buffer.length_slice]

/-- **A sequence of values is read back.** -/
theorem reads_cells {c : Cell α} {values : List α} (fits : ∀ a ∈ values, c.Fits a) :
    (cells c values.length : Scan ε (List α)).Reads (values.flatMap c.encode) values := by
  induction values with
  | nil => exact reads_value []
  | cons a values ih =>
      have later := ih fun x member => fits x (List.mem_cons_of_mem a member)
      exact (reads_cell (fits a List.mem_cons_self)).bind (later.map fun later => a :: later)

theorem reads_string {fault : ε} {size : Nat} (name : Terminated size) :
    (string fault size).Reads (name.val ++ [0]) name := by
  obtain ⟨name, noNul, short⟩ := name
  intro front back residue
  have here : (Buffer.holding (front ++ (name ++ [0] ++ back)) residue).slice front.length
      (name ++ [0]).length = name ++ [0] := Buffer.slice_holding ..
  rw [List.length_append, List.length_singleton] at here
  have read := text_of_slice noNul short here
  simp only [string, read, short, reduceDIte, List.length_append, List.length_singleton,
    Nat.add_assoc]

end Scan

end Machine
