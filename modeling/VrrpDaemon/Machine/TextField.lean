import VrrpDaemon.Machine.Bytes
import VrrpDaemon.Machine.Faults

/-!
# Texts in fields of a fixed size

A text lies in a field of some size when its NUL does. `strcat` appends to the text in a
field, and overruns the field when the longer text does not lie in it; `chop` ends the text
one byte earlier.

`Appends` is what `strcat` has in common with every sequence and every loop of such calls:
the text in the field is extended by a certain one when there is room for it, and overrun when
there is not. It is composed along the program (`Appends.seq`, `Appends.foldlM`).
-/

set_option autoImplicit false

namespace Machine

universe u v

/-- The field of `size` bytes at the start of the buffer holds the text. -/
structure HoldsText (b : Buffer) (size : Nat) (t : List UInt8) : Prop where
  noNul : (0 : UInt8) ∉ t
  short : t.length < size
  read : b.slice 0 (t.length + 1) = t ++ [0]

/-- `strcat`, onto the text in a field. -/
def strcat {ε : Type u} (overrun : ε) (size : Nat) (t : List UInt8) (b : Buffer) :
    Except ε Buffer :=
  let strlen := (text (b.slice 0 size)).length
  if strlen + t.length < size then .ok (b.put strlen (t ++ [0])) else .error overrun

/-- `s[strlen(s) - 1] = 0`: without a last byte this is no byte of the field. -/
def chop {ε : Type u} (overrun : ε) (size : Nat) (b : Buffer) : Except ε Buffer :=
  let strlen := (text (b.slice 0 size)).length
  if strlen = 0 then .error overrun else .ok (b.put (strlen - 1) [0])

variable {ε : Type u} {overrun : ε} {size : Nat} {b : Buffer} {t t' : List UInt8}

/-- What lies before the last byte of a slice. -/
theorem slice_of_snoc {c : UInt8} (read : b.slice 0 (t.length + 1) = t ++ [c]) :
    b.slice 0 t.length = t := by
  rw [Buffer.slice_add] at read
  exact (List.append_inj read (Buffer.length_slice ..)).1

theorem HoldsText.text (holds : HoldsText b size t) : text (b.slice 0 size) = t :=
  text_of_slice holds.noNul holds.short holds.read

/-- A cleared field holds the empty text. -/
theorem holdsText_nil (positive : 0 < size) : HoldsText (fun _ => 0) size [] where
  noNul := List.not_mem_nil
  short := positive
  read := rfl

/-- A text put over the NUL of another goes on behind it. -/
theorem HoldsText.put (holds : HoldsText b size t) (noNul : (0 : UInt8) ∉ t')
    (fits : t.length + t'.length < size) :
    HoldsText (b.put t.length (t' ++ [0])) size (t ++ t') where
  noNul member := (List.mem_append.mp member).elim holds.noNul noNul
  short := by rwa [List.length_append]
  read := by
    have front : (b.put t.length (t' ++ [0])).slice 0 t.length = b.slice 0 t.length :=
      Buffer.slice_put_other (.inl (Nat.le_of_eq (Nat.zero_add _)))
    have start : b.slice 0 t.length = t := slice_of_snoc holds.read
    have behind : (b.put t.length (t' ++ [0])).slice (0 + t.length) (t'.length + 1) = t' ++ [0] := by
      have put := Buffer.slice_put b t.length (t' ++ [0])
      rw [Nat.zero_add]
      rwa [List.length_append, List.length_singleton] at put
    rw [List.length_append, Nat.add_assoc, Buffer.slice_add, front, start, behind,
      List.append_assoc]

/-- **The last byte is taken off** a text that has one. -/
theorem HoldsText.chop {c : UInt8} (overrun : ε) (holds : HoldsText b size (t ++ [c])) :
    ∃ b', chop overrun size b = .ok b' ∧ HoldsText b' size t := by
  have length : (t ++ [c]).length = t.length + 1 := by simp
  have noNul : (0 : UInt8) ∉ t := fun member => holds.noNul (List.mem_append_left _ member)
  have short : t.length < size := by
    have := holds.short
    omega
  refine ⟨b.put t.length [0], ?_, noNul, short, ?_⟩
  · simp only [Machine.chop, holds.text, length]
    rw [if_neg (Nat.succ_ne_zero _), Nat.add_sub_cancel]
  · have whole : b.slice 0 (t ++ [c]).length = t ++ [c] := slice_of_snoc holds.read
    rw [length] at whole
    rw [Buffer.slice_put_next, slice_of_snoc whole]

/-! ## Appending -/

/-- The computation extends the text in a field by a certain text, and overruns the field
when this does not fit. -/
structure Appends (overrun : ε) (size : Nat) (act : Buffer → Except ε Buffer)
    (t' : List UInt8) : Prop where
  fits : ∀ b t, HoldsText b size t → t.length + t'.length < size →
    ∃ b', act b = .ok b' ∧ HoldsText b' size (t ++ t')
  overruns : ∀ b t, HoldsText b size t → size ≤ t.length + t'.length → act b = .error overrun

theorem appends_strcat (noNul : (0 : UInt8) ∉ t') :
    Appends overrun size (strcat overrun size t') t' where
  fits b t holds fits := by
    refine ⟨b.put t.length (t' ++ [0]), ?_, holds.put noNul fits⟩
    simp only [strcat, holds.text]
    rw [if_pos fits]
  overruns b t holds long := by
    simp only [strcat, holds.text]
    rw [if_neg (Nat.not_lt.mpr long)]

namespace Appends

variable {act act' : Buffer → Except ε Buffer} {first second : List UInt8}

/-- Nothing is appended. -/
theorem nil : Appends overrun size .ok [] where
  fits b t holds _ := ⟨b, rfl, by rwa [List.append_nil]⟩
  overruns b t holds long := absurd holds.short (Nat.not_lt.mpr long)

/-- One text is appended, then another. -/
theorem seq (one : Appends overrun size act first) (two : Appends overrun size act' second) :
    Appends overrun size (fun b => act b >>= act') (first ++ second) where
  fits b t holds room := by
    rw [List.length_append] at room
    obtain ⟨b₁, returns₁, holds₁⟩ := one.fits b t holds (by omega)
    obtain ⟨b₂, returns₂, holds₂⟩ := two.fits b₁ _ holds₁ (by rw [List.length_append]; omega)
    refine ⟨b₂, ?_, ?_⟩
    · rw [returns₁, ok_bind, returns₂]
    · rwa [← List.append_assoc]
  overruns b t holds long := by
    rw [List.length_append] at long
    by_cases room : t.length + first.length < size
    · obtain ⟨b₁, returns₁, holds₁⟩ := one.fits b t holds room
      rw [returns₁, ok_bind]
      exact two.overruns b₁ _ holds₁ (by rw [List.length_append]; omega)
    · rw [one.overruns b t holds (Nat.not_lt.mp room)]
      rfl

/-- **A loop appends what its rounds append**, one after the other. -/
theorem foldlM {α : Type v} {items : List α} {act : Buffer → α → Except ε Buffer}
    {piece : α → List UInt8}
    (each : ∀ item ∈ items, Appends overrun size (fun b => act b item) (piece item)) :
    Appends overrun size (fun b => items.foldlM act b) (items.flatMap piece) := by
  induction items with
  | nil => exact nil
  | cons item items ih =>
      simp only [List.foldlM_cons, List.flatMap_cons]
      exact (each item List.mem_cons_self).seq
        (ih fun other member => each other (List.mem_cons_of_mem _ member))

end Appends

end Machine
