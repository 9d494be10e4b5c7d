import Mathlib.Algebra.Order.Ring.Nat
import Mathlib.Tactic.Common
import Mathlib.Data.List.TakeWhile

/-!
# Bytes in a buffer

A buffer gives a byte at every offset. `put` copies bytes to an offset, as
`memcpy` does, and `slice` reads some from there: a slice of what was put is
read back (`slice_put`), and a slice that does not meet it is as before
(`slice_put_other`).

A `Cell` is a type of values with an image of fixed width. A value that fits the
cell is loaded where it was stored (`Cell.load_store`). The cells are those of
little-endian machines: a byte, a 32-bit word, and a signed or unsigned 32-bit
integer as an `Int`. A text is the bytes before the first NUL.
-/

set_option autoImplicit false

namespace Machine

/-- Memory from some address on. -/
abbrev Buffer : Type := Nat → UInt8

namespace Buffer

/-- Copy bytes to an offset. -/
def put (b : Buffer) (off : Nat) (bytes : List UInt8) : Buffer :=
  fun i => if off ≤ i then bytes[i - off]?.getD (b i) else b i

/-- The bytes at an offset. -/
def slice (b : Buffer) (off len : Nat) : List UInt8 := (List.range len).map fun i => b (off + i)

/-- A buffer that some bytes were received into. -/
def holding (bytes : List UInt8) (residue : Buffer) : Buffer := residue.put 0 bytes

variable {b : Buffer} {off len : Nat} {bytes : List UInt8}

@[simp] theorem length_slice (b : Buffer) (off len : Nat) : (b.slice off len).length = len := by
  simp [slice]

theorem getElem?_slice {i : Nat} (inside : i < len) : (b.slice off len)[i]? = some (b (off + i)) := by
  simp [slice, inside]

/-- The start of a slice is what was put there, and the rest is as before. -/
theorem slice_put_start (short : bytes.length ≤ len) :
    (b.put off bytes).slice off len =
      bytes ++ b.slice (off + bytes.length) (len - bytes.length) := by
  apply List.ext_getElem?
  intro i
  by_cases inside : i < len
  · rw [getElem?_slice inside]
    by_cases copied : i < bytes.length
    · rw [List.getElem?_append_left copied]
      simp [put, copied]
    · have behind : i - bytes.length < len - bytes.length := by omega
      rw [List.getElem?_append_right (by omega), getElem?_slice behind]
      have place : off + bytes.length + (i - bytes.length) = off + i := by omega
      simp [put, List.getElem?_eq_none (by omega : bytes.length ≤ i), place]
  · rw [List.getElem?_eq_none (by simp; omega), List.getElem?_eq_none (by simp; omega)]

/-- **What was put is read back.** -/
theorem slice_put (b : Buffer) (off : Nat) (bytes : List UInt8) :
    (b.put off bytes).slice off bytes.length = bytes := by
  rw [slice_put_start (Nat.le_refl _)]
  simp [slice]

/-- **Bytes elsewhere are as before.** -/
theorem slice_put_other {off' : Nat} (disjoint : off' + len ≤ off ∨ off + bytes.length ≤ off') :
    (b.put off bytes).slice off' len = b.slice off' len := by
  apply List.map_congr_left
  intro i member
  have inside : i < len := List.mem_range.mp member
  unfold put
  split
  · rw [List.getElem?_eq_none (by omega)]
    rfl
  · rfl

/-- Bytes copied one part after the other. -/
theorem put_append (b : Buffer) (off : Nat) (front back : List UInt8) :
    b.put off (front ++ back) = (b.put off front).put (off + front.length) back := by
  funext i
  unfold put
  by_cases before : off ≤ i
  · by_cases inFront : i - off < front.length
    · have early : ¬ off + front.length ≤ i := by omega
      simp [before, early, List.getElem?_append_left inFront]
    · have late : off + front.length ≤ i := by omega
      have place : i - off - front.length = i - (off + front.length) := by omega
      have past : front[i - off]? = none := List.getElem?_eq_none (by omega)
      simp [before, late, List.getElem?_append_right (by omega : front.length ≤ i - off), place, past]
  · have early : ¬ off + front.length ≤ i := by omega
    simp [before, early]

/-- A slice of a copied slice is read at its source. -/
theorem slice_put_slice {source : Buffer} {start size off' : Nat} (inside : off' + len ≤ size) :
    (b.put off (source.slice start size)).slice (off + off') len =
      source.slice (start + off') len := by
  apply List.map_congr_left
  intro i member
  have near : i < len := List.mem_range.mp member
  have place : off + off' + i - off = off' + i := by omega
  rw [put, if_pos (by omega), place, getElem?_slice (by omega), Nat.add_assoc]
  exact congrArg source (Nat.add_assoc ..).symm

/-- A slice of equal slices. -/
theorem slice_of_slice {b' : Buffer} {off' size start : Nat}
    (same : b.slice off size = b'.slice off' size) (inside : start + len ≤ size) :
    b.slice (off + start) len = b'.slice (off' + start) len := by
  apply List.map_congr_left
  intro i member
  have near : i < len := List.mem_range.mp member
  have entry := congrArg (fun bytes => bytes[start + i]?) same
  simp only [getElem?_slice (by omega : start + i < size), Option.some.injEq] at entry
  rw [Nat.add_assoc, Nat.add_assoc]
  exact entry

/-- Buffers that agree between two offsets have the same slice there. -/
theorem slice_congr {b' : Buffer} (same : ∀ i, off ≤ i → i < off + len → b i = b' i) :
    b.slice off len = b'.slice off len := by
  apply List.map_congr_left
  intro i member
  have near : i < len := List.mem_range.mp member
  exact same (off + i) (by omega) (by omega)

theorem slice_add (b : Buffer) (off first second : Nat) :
    b.slice off (first + second) = b.slice off first ++ b.slice (off + first) second := by
  simp [slice, List.range_add, Nat.add_assoc]

/-- The bytes up to one that is put behind them. -/
theorem slice_put_next (b : Buffer) (off : Nat) (byte : UInt8) :
    (b.put off [byte]).slice 0 (off + 1) = b.slice 0 off ++ [byte] := by
  have before : (b.put off [byte]).slice 0 off = b.slice 0 off :=
    slice_put_other (.inl (Nat.le_of_eq (Nat.zero_add off)))
  have here : (b.put off [byte]).slice (0 + off) 1 = [byte] := by
    rw [Nat.zero_add]
    exact slice_put b off [byte]
  rw [slice_add, before, here]

/-- **What was received is read** where it lies. -/
theorem slice_holding {residue : Buffer} (front bytes back : List UInt8) :
    (holding (front ++ (bytes ++ back)) residue).slice front.length bytes.length = bytes := by
  apply List.ext_getElem?
  intro i
  by_cases inside : i < bytes.length
  · rw [getElem?_slice inside]
    have here : (front ++ (bytes ++ back))[front.length + i]? = some bytes[i] := by
      rw [List.getElem?_append_right (by omega), Nat.add_sub_cancel_left,
        List.getElem?_append_left inside, List.getElem?_eq_getElem inside]
    simp [holding, put, here]
  · rw [List.getElem?_eq_none (by simp; omega), List.getElem?_eq_none (by omega)]

/-- A slice of what was received. -/
theorem slice_holding_take {residue : Buffer} (inside : off + len ≤ bytes.length) :
    (holding bytes residue).slice off len = (bytes.drop off).take len := by
  have middle : ((bytes.drop off).take len).length = len := by
    rw [List.length_take, List.length_drop]
    omega
  have front : (bytes.take off).length = off := List.length_take_of_le (by omega)
  have here : (holding _ residue).slice _ _ = _ := slice_holding (bytes.take off)
    ((bytes.drop off).take len) ((bytes.drop off).drop len)
  rwa [List.take_append_drop, List.take_append_drop, middle, front] at here

end Buffer

/-! ## Little-endian numbers -/

/-- The `width` bytes of a number, the least significant first. -/
def leBytes : Nat → Nat → List UInt8
  | 0, _ => []
  | width + 1, n => UInt8.ofNat n :: leBytes width (n / 256)

/-- The number that the bytes stand for. -/
def ofLe : List UInt8 → Nat
  | [] => 0
  | byte :: bytes => byte.toNat + 256 * ofLe bytes

@[simp] theorem length_leBytes (width n : Nat) : (leBytes width n).length = width := by
  induction width generalizing n with
  | zero => rfl
  | succ width ih => simp [leBytes, ih]

theorem ofLe_leBytes (width n : Nat) : ofLe (leBytes width n) = n % 256 ^ width := by
  induction width generalizing n with
  | zero => simp [leBytes, ofLe, Nat.mod_one]
  | succ width ih =>
      have low : (UInt8.ofNat n).toNat = n % 256 := UInt8.toNat_ofNat' ..
      rw [leBytes, ofLe, ih, low, Nat.pow_succ', Nat.mod_mul]

/-! ## Cells -/

/-- A type of values with an image of fixed width. -/
structure Cell (α : Type) where
  width : Nat
  encode : α → List UInt8
  decode : List UInt8 → α
  Fits : α → Prop
  length_encode : ∀ a, (encode a).length = width
  decode_encode : ∀ a, Fits a → decode (encode a) = a

namespace Cell

variable {α β : Type}

/-- Store a value at an offset. -/
def store (cell : Cell α) (off : Nat) (a : α) (b : Buffer) : Buffer := b.put off (cell.encode a)

/-- Load a value from an offset. -/
def load (cell : Cell α) (b : Buffer) (off : Nat) : α := cell.decode (b.slice off cell.width)

variable {cell : Cell α} {other : Cell β} {b : Buffer} {off off' : Nat} {a : α}

/-- **A value that fits is loaded where it was stored.** -/
theorem load_store (fits : cell.Fits a) : cell.load (cell.store off a b) off = a := by
  unfold load store
  rw [← cell.length_encode a, Buffer.slice_put, cell.decode_encode a fits]

/-- Bytes put elsewhere do not change a value. -/
theorem load_put_other {bytes : List UInt8}
    (disjoint : off' + cell.width ≤ off ∨ off + bytes.length ≤ off') :
    cell.load (b.put off bytes) off' = cell.load b off' := by
  unfold load
  rw [Buffer.slice_put_other disjoint]

/-- A value stored elsewhere does not change a value. -/
theorem load_store_other {x : β} (disjoint : off' + cell.width ≤ off ∨ off + other.width ≤ off') :
    cell.load (other.store off x b) off' = cell.load b off' :=
  load_put_other (by rwa [other.length_encode])

/-- A value in a copied object is that of its source. -/
theorem load_put_slice {source : Buffer} {start size : Nat} (inside : off' + cell.width ≤ size) :
    cell.load (b.put off (source.slice start size)) (off + off') =
      cell.load source (start + off') := by
  unfold load
  rw [Buffer.slice_put_slice inside]

/-- Load values that lie in a row. -/
def loads (cell : Cell α) (b : Buffer) (off count : Nat) : List α :=
  (List.range count).map fun i => cell.load b (off + i * cell.width)

/-- A value of a row lies inside the row. -/
theorem row_inside (cell : Cell α) {i count : Nat} (member : i ∈ List.range count) :
    i * cell.width + cell.width ≤ count * cell.width := by
  rw [← Nat.succ_mul]
  exact Nat.mul_le_mul_right cell.width (List.mem_range.mp member)

/-- The values of a row depend on its bytes only. -/
theorem loads_congr {b' : Buffer} {count : Nat}
    (same : ∀ i, off ≤ i → i < off + count * cell.width → b i = b' i) :
    cell.loads b off count = cell.loads b' off count := by
  apply List.map_congr_left
  intro i member
  have inside := cell.row_inside member
  unfold load
  rw [Buffer.slice_congr fun k low high => same k (by omega) (by omega)]

/-- **A copied row** has the values of its source. -/
theorem loads_put_slice {source : Buffer} {start count : Nat} :
    cell.loads (b.put off (source.slice start (count * cell.width))) off count =
      cell.loads source start count := by
  apply List.map_congr_left
  intro i member
  exact load_put_slice (cell.row_inside member)

/-- **A row grows** by the value that is stored behind it. -/
theorem loads_store_next (fits : cell.Fits a) (b : Buffer) (off count : Nat) :
    cell.loads (cell.store (off + count * cell.width) a b) off (count + 1) =
      cell.loads b off count ++ [a] := by
  have before : cell.loads (cell.store (off + count * cell.width) a b) off count =
      cell.loads b off count := by
    apply List.map_congr_left
    intro i member
    have inside := cell.row_inside member
    exact load_store_other (.inl (by omega))
  rw [loads, List.range_succ, List.map_append, ← loads, before, List.map_singleton,
    load_store fits]

/-- A value in equal slices. -/
theorem load_of_slice {b' : Buffer} {off₁ off₂ size : Nat}
    (same : b.slice off₁ size = b'.slice off₂ size) (inside : off + cell.width ≤ size) :
    cell.load b (off₁ + off) = cell.load b' (off₂ + off) :=
  congrArg cell.decode (Buffer.slice_of_slice same inside)

/-- A value in a received message is that of its image. -/
theorem load_holding {residue : Buffer} (front back : List UInt8) (fits : cell.Fits a) :
    cell.load (.holding (front ++ (cell.encode a ++ back)) residue) front.length = a := by
  unfold load
  rw [← cell.length_encode a, Buffer.slice_holding, cell.decode_encode a fits]

/-- `uint8_t`. -/
def byte : Cell UInt8 where
  width := 1
  encode a := [a]
  decode bytes := bytes.headD 0
  Fits _ := True
  length_encode _ := rfl
  decode_encode _ _ := rfl

/-- `uint32_t`. -/
def word : Cell UInt32 where
  width := 4
  encode a := leBytes 4 a.toNat
  decode bytes := UInt32.ofNat (ofLe bytes)
  Fits _ := True
  length_encode _ := length_leBytes ..
  decode_encode a _ := by
    have small := a.toNat_lt
    rw [ofLe_leBytes, Nat.mod_eq_of_lt (by omega), UInt32.ofNat_toNat]

/-- `unsigned int`, as an integer. -/
def uint : Cell Int where
  width := 4
  encode a := leBytes 4 (a % 2 ^ 32).toNat
  decode bytes := ofLe bytes
  Fits a := 0 ≤ a ∧ a < 2 ^ 32
  length_encode _ := length_leBytes ..
  decode_encode a fits := by
    rw [ofLe_leBytes, Nat.mod_eq_of_lt (by omega)]
    omega

/-- `int`. -/
def int : Cell Int where
  width := 4
  encode a := leBytes 4 (a % 2 ^ 32).toNat
  decode bytes := if ofLe bytes < 2 ^ 31 then ofLe bytes else (ofLe bytes : Int) - 2 ^ 32
  Fits a := -2 ^ 31 ≤ a ∧ a < 2 ^ 31
  length_encode _ := length_leBytes ..
  decode_encode a fits := by
    rw [ofLe_leBytes, Nat.mod_eq_of_lt (by omega)]
    split <;> omega

@[simp] theorem byte_width : byte.width = 1 := rfl
@[simp] theorem word_width : word.width = 4 := rfl
@[simp] theorem uint_width : uint.width = 4 := rfl
@[simp] theorem int_width : int.width = 4 := rfl

@[simp] theorem byte_fits (a : UInt8) : byte.Fits a := trivial
@[simp] theorem word_fits (a : UInt32) : word.Fits a := trivial

end Cell

/-! ## Texts -/

/-- The bytes before the first NUL. -/
def text (bytes : List UInt8) : List UInt8 := bytes.takeWhile (· ≠ 0)

/-- The bytes of a literal. -/
def ascii (literal : String) : List UInt8 := literal.toList.map fun c => UInt8.ofNat c.toNat

/-- A C string: the bytes before its NUL. -/
abbrev CString : Type := { bytes : List UInt8 // (0 : UInt8) ∉ bytes }

theorem zero_notMem_text (bytes : List UInt8) : (0 : UInt8) ∉ text bytes := by
  intro member
  have nonzero := List.mem_takeWhile_imp member
  simp at nonzero

theorem length_text_le (bytes : List UInt8) : (text bytes).length ≤ bytes.length :=
  (List.takeWhile_prefix _).length_le

/-- A text goes on behind bytes without a NUL. -/
theorem text_append_text {bytes : List UInt8} (noNul : (0 : UInt8) ∉ bytes) (rest : List UInt8) :
    text (bytes ++ rest) = bytes ++ text rest := by
  refine List.takeWhile_append_of_pos fun byte member => ?_
  have nonzero : byte ≠ 0 := fun same => noNul (same ▸ member)
  simpa using nonzero

/-- **A terminated text is read back**, whatever follows. -/
theorem text_append {name : List UInt8} (noNul : (0 : UInt8) ∉ name) (rest : List UInt8) :
    text (name ++ 0 :: rest) = name := by
  have ended : text (0 :: rest) = [] := by simp [text]
  rw [text_append_text noNul, ended, List.append_nil]

/-- A text ends at the first NUL at the latest. -/
theorem text_append_zero (bytes rest : List UInt8) : text (bytes ++ 0 :: rest) = text bytes := by
  induction bytes with
  | nil => rfl
  | cons byte bytes ih =>
      by_cases zero : byte = 0
      · simp [text, zero]
      · simpa [text, zero] using ih

/-- A text that does not fill its field is ended by a NUL. -/
theorem eq_text_append {bytes : List UInt8} (short : (text bytes).length < bytes.length) :
    ∃ rest, bytes = text bytes ++ 0 :: rest := by
  have split : bytes.takeWhile (· ≠ 0) ++ bytes.dropWhile (· ≠ 0) = bytes :=
    List.takeWhile_append_dropWhile
  cases behind : bytes.dropWhile (· ≠ 0) with
  | nil =>
      rw [behind, List.append_nil] at split
      exact absurd (congrArg List.length split) (Nat.ne_of_lt short)
  | cons byte rest =>
      have remains : bytes.dropWhile (· ≠ 0) ≠ [] := by
        rw [behind]
        exact nofun
      have stops := List.head_dropWhile_not (fun byte : UInt8 => byte ≠ 0) remains
      simp only [behind, List.head_cons, decide_eq_false_iff_not, not_not] at stops
      rw [behind, stops] at split
      exact ⟨rest, split.symm⟩

/-- The bytes of a short text in a buffer, and its NUL. -/
theorem slice_of_text {b : Buffer} {off size : Nat}
    (short : (text (b.slice off size)).length < size) :
    b.slice off ((text (b.slice off size)).length + 1) = text (b.slice off size) ++ [0] := by
  obtain ⟨rest, split⟩ := eq_text_append (short.trans_eq (Buffer.length_slice b off size).symm)
  generalize text (b.slice off size) = name at short split ⊢
  have size_eq : size = name.length + 1 + (size - (name.length + 1)) := by omega
  rw [size_eq, Buffer.slice_add, List.append_cons] at split
  exact (List.append_inj split (by simp)).1

/-- A text and its NUL are found by looking for the NUL. -/
theorem text_of_slice {b : Buffer} {off size : Nat} {name : List UInt8}
    (noNul : (0 : UInt8) ∉ name) (short : name.length < size)
    (read : b.slice off (name.length + 1) = name ++ [0]) : text (b.slice off size) = name := by
  have size_eq : size = name.length + 1 + (size - (name.length + 1)) := by omega
  rw [size_eq, Buffer.slice_add, read, List.append_assoc]
  exact text_append noNul _

/-- **A short text lies within what was received** exactly when it does so in the
message, whatever the buffer holds behind it. -/
theorem text_holding_iff {bytes : List UInt8} {residue : Buffer} {off size extra : Nat} :
    ((text ((Buffer.holding bytes residue).slice off size)).length < size ∧
        off + (text ((Buffer.holding bytes residue).slice off size)).length + 1 + extra ≤
          bytes.length) ↔
      ((text (bytes.drop off)).length < size ∧
        off + (text (bytes.drop off)).length + 1 + extra ≤ bytes.length) := by
  constructor
  · rintro ⟨short, inside⟩
    have read := slice_of_text short
    rw [Buffer.slice_holding_take (by omega)] at read
    have split := List.take_append_drop
      ((text ((Buffer.holding bytes residue).slice off size)).length + 1) (bytes.drop off)
    rw [read, List.append_assoc] at split
    have same : text (bytes.drop off) = text ((Buffer.holding bytes residue).slice off size) := by
      rw [← split]
      exact text_append (zero_notMem_text _) _
    rw [same]
    exact ⟨short, inside⟩
  · rintro ⟨short, inside⟩
    have within : (text (bytes.drop off)).length < (bytes.drop off).length := by
      rw [List.length_drop]
      omega
    obtain ⟨rest, split⟩ := eq_text_append within
    have noNul := zero_notMem_text (bytes.drop off)
    generalize text (bytes.drop off) = name at short inside split noNul ⊢
    have read : (Buffer.holding bytes residue).slice off (name.length + 1) = name ++ [0] := by
      rw [Buffer.slice_holding_take (by omega), split, List.append_cons, List.take_left' (by simp)]
    rw [text_of_slice noNul short read]
    exact ⟨short, inside⟩

/-- A text that fills its field is read back. -/
theorem text_self {name : List UInt8} (noNul : (0 : UInt8) ∉ name) : text name = name := by
  refine List.takeWhile_eq_self_iff.mpr fun byte member => ?_
  have nonzero : byte ≠ 0 := fun same => noNul (same ▸ member)
  simpa using nonzero

end Machine
