import VrrpDaemon.Model.Types
import VrrpDaemon.Machine.Bytes

/-!
# The image of a `vrrp_inst_t`

Advertisements and create requests carry a `vrrp_inst_t` as it lies in memory.
This module gives the offsets of its fields on a 64-bit little-endian machine,
where a pointer has 8 bytes and an enumeration is an `unsigned int`. What lies
between the fields, and the pointer `vr_ip`, is whatever memory held.

A record whose integers fit their fields is read back from its image
(`VrrpInst.load_store`), but for the addresses that `vr_ip` designates.
-/

set_option autoImplicit false

namespace VrrpDaemon

open Machine

/-- `sizeof(vrrp_inst_t)`. -/
def sizeofVrrpInst : Nat := 80

/-! ## Interface names -/

namespace Ifname

/-- Read a `char[32]`. -/
def load (b : Buffer) (off : Nat) : Ifname where
  bytes := text (b.slice off lifnamsiz)
  noNul := zero_notMem_text _
  fits := (length_text_le _).trans_eq (Buffer.length_slice ..)

/-- The bytes that stand for the name in its field: a NUL ends the name, unless
it fills the field. -/
def Image (name : Ifname) (copied : List UInt8) : Prop :=
  (copied = name.bytes ++ [0] ∧ name.bytes.length < lifnamsiz) ∨
    (copied = name.bytes ∧ name.bytes.length = lifnamsiz)

theorem Image.length_le {name : Ifname} {copied : List UInt8} (image : name.Image copied) :
    copied.length ≤ lifnamsiz := by
  rcases image with ⟨rfl, short⟩ | ⟨rfl, full⟩
  · rw [List.length_append, List.length_singleton]
    omega
  · exact Nat.le_of_eq full

/-- **A name is read back from its image**, whatever lies behind it. -/
theorem load_put {name : Ifname} {copied : List UInt8} (image : name.Image copied) (b : Buffer)
    (off : Nat) : load (b.put off copied) off = name := by
  have bytes : text ((b.put off copied).slice off lifnamsiz) = name.bytes := by
    rw [Buffer.slice_put_start image.length_le]
    rcases image with ⟨rfl, -⟩ | ⟨rfl, full⟩
    · rw [List.append_assoc]
      exact text_append name.noNul _
    · have nothing : b.slice (off + name.bytes.length) (lifnamsiz - name.bytes.length) = [] := by
        rw [full, Nat.sub_self]
        rfl
      rw [nothing, List.append_nil]
      exact text_self name.noNul
  exact Ifname.ext bytes

theorem load_put_other {b : Buffer} {off off' : Nat} {copied : List UInt8}
    (disjoint : off' + lifnamsiz ≤ off ∨ off + copied.length ≤ off') :
    load (b.put off copied) off' = load b off' := by
  simp only [load, Buffer.slice_put_other disjoint]

theorem load_store_other {α : Type} {cell : Cell α} {a : α} {b : Buffer} {off off' : Nat}
    (disjoint : off' + lifnamsiz ≤ off ∨ off + cell.width ≤ off') :
    load (cell.store off a b) off' = load b off' :=
  load_put_other (by rwa [cell.length_encode])

/-- The content of a `char[32]` that holds the name. -/
def field (name : Ifname) : List UInt8 := (name.bytes ++ [0]).take lifnamsiz

theorem image_field (name : Ifname) : name.Image name.field := by
  rcases Nat.lt_or_eq_of_le name.fits with short | full
  · refine .inl ⟨List.take_of_length_le ?_, short⟩
    rw [List.length_append, List.length_singleton]
    exact short
  · exact .inr ⟨by rw [field, ← full, List.take_left], full⟩

/-- `strcpy` from a field into another one of that size: a name that no NUL ends
runs past its end. -/
def strcpy (name : Ifname) : Result Ifname :=
  if name.bytes.length < lifnamsiz then .ok name else .error .overflow

/-- What `strcpy` copies. -/
theorem image_strcpy {name : Ifname} (terminated : name.bytes.length < lifnamsiz) :
    name.Image (name.bytes ++ [0]) :=
  .inl ⟨rfl, terminated⟩

end Ifname

/-! ## Records -/

namespace VrrpInst

/-- Store the fields of a record, with what is copied into `vr_ifname`. -/
def storeWith (copied : List UInt8) (inst : VrrpInst) (off : Nat) (b : Buffer) : Buffer :=
  let b := Cell.byte.store off inst.viVa.pri b
  let b := Cell.int.store (off + 4) inst.viVa.delay b
  let b := Cell.uint.store (off + 8) inst.viVa.preeMode b
  let b := Cell.uint.store (off + 12) inst.viVa.acceptMode b
  let b := Cell.byte.store (off + 16) inst.viVr.vrId b
  let b := Cell.int.store (off + 20) inst.viVr.vrAf b
  let b := Cell.word.store (off + 24) inst.viVr.in4 b
  let b := Cell.byte.store (off + 28) inst.viVr.vrIpnum b
  let b := b.put (off + 40) copied
  let b := Cell.byte.store (off + 72) inst.viState b
  Cell.uint.store (off + 76) inst.viActive b

/-- Store a record. -/
def store (inst : VrrpInst) (off : Nat) (b : Buffer) : Buffer :=
  storeWith inst.viVr.vrIfname.field inst off b

/-- Read a record; `vr_ip` designates nothing yet. -/
def load (b : Buffer) (off : Nat) : VrrpInst where
  viVa :=
    { pri := Cell.byte.load b off
      delay := Cell.int.load b (off + 4)
      preeMode := Cell.uint.load b (off + 8)
      acceptMode := Cell.uint.load b (off + 12) }
  viVr :=
    { vrId := Cell.byte.load b (off + 16)
      vrAf := Cell.int.load b (off + 20)
      in4 := Cell.word.load b (off + 24)
      vrIpnum := Cell.byte.load b (off + 28)
      vrIp := []
      vrIfname := .load b (off + 40) }
  viState := Cell.byte.load b (off + 72)
  viActive := Cell.uint.load b (off + 76)

/-- The record with other addresses. -/
def withVrIp (inst : VrrpInst) (vrIp : List UInt32) : VrrpInst :=
  { inst with viVr := { inst.viVr with vrIp := vrIp } }

/-- The integers of the record fit their fields. -/
structure Fits (inst : VrrpInst) : Prop where
  delay : Cell.int.Fits inst.viVa.delay
  preeMode : Cell.uint.Fits inst.viVa.preeMode
  acceptMode : Cell.uint.Fits inst.viVa.acceptMode
  vrAf : Cell.int.Fits inst.viVr.vrAf
  viActive : Cell.uint.Fits inst.viActive

variable {inst : VrrpInst} {b : Buffer} {off : Nat}

/-- **A record is read back from its image.** -/
theorem load_storeWith {copied : List UInt8} (fits : inst.Fits)
    (image : inst.viVr.vrIfname.Image copied) :
    load (storeWith copied inst off b) off = inst.withVrIp [] := by
  have short : copied.length ≤ 32 := image.length_le
  obtain ⟨delay, preeMode, acceptMode, vrAf, viActive⟩ := fits
  have widths : lifnamsiz = 32 ∧ Cell.byte.width = 1 ∧ Cell.word.width = 4 ∧ Cell.int.width = 4 ∧
      Cell.uint.width = 4 := ⟨rfl, rfl, rfl, rfl, rfl⟩
  have byteFits := Cell.byte_fits
  have wordFits := Cell.word_fits
  simp (disch := first | assumption | apply byteFits | apply wordFits | omega) only [load,
    storeWith, withVrIp, Cell.load_store, Cell.load_store_other, Cell.load_put_other,
    Ifname.load_put, Ifname.load_store_other]

/-- Records are read alike from equal images. -/
theorem load_of_slice {b' : Buffer} {off' : Nat}
    (same : b.slice off sizeofVrrpInst = b'.slice off' sizeofVrrpInst) :
    load b off = load b' off' := by
  have name : Ifname.load b (off + 40) = Ifname.load b' (off' + 40) :=
    Ifname.ext (congrArg text (Buffer.slice_of_slice same (by decide)))
  have first : Cell.byte.load b off = Cell.byte.load b' off' :=
    Cell.load_of_slice same (show 0 + Cell.byte.width ≤ sizeofVrrpInst by decide)
  have cells : ∀ {α : Type} (cell : Cell α) (start : Nat), start + cell.width ≤ sizeofVrrpInst →
      cell.load b (off + start) = cell.load b' (off' + start) :=
    fun _ _ inside => Cell.load_of_slice same inside
  simp only [load, name, first, cells Cell.int 4 (by decide), cells Cell.uint 8 (by decide),
    cells Cell.uint 12 (by decide), cells Cell.byte 16 (by decide), cells Cell.int 20 (by decide),
    cells Cell.word 24 (by decide), cells Cell.byte 28 (by decide), cells Cell.byte 72 (by decide),
    cells Cell.uint 76 (by decide)]

/-- A copied record is read as its source. -/
theorem load_put_slice {source : Buffer} :
    load (b.put off (source.slice 0 sizeofVrrpInst)) off = load source 0 := by
  refine load_of_slice ?_
  have copied := Buffer.slice_put b off (source.slice 0 sizeofVrrpInst)
  rwa [Buffer.length_slice] at copied

end VrrpInst

end VrrpDaemon
