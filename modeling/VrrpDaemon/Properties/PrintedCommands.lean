import VrrpDaemon.Properties.Administrator

/-!
# Every command can be typed

A command on an instance of `AF_INET` has a line that says it (`lineOf`): the VRID and the name
stand apart from their options, which every name survives that does not look like an option,
and what is to be changed stands in one word with its option. So a list of such commands,
printed line by line and typed, leads the daemon where the commands lead it, up to the first one
behind which the administrator's program crashes (`Daemon.admLoop_printed`).
-/

set_option autoImplicit false

namespace VrrpDaemon

open Machine

/-! ## Printing -/

/-- The items that designate an instance. -/
def keyItems (key : Key) : List (Item UInt8) :=
  [.separate 118 (numeral key.vid.toNat), .separate 105 ((key.ifname.map Ifname.bytes).getD [])]

/-- The item that asks for a value, unless it is to stay. -/
def changeItems (c : UInt8) (value : Int) : List (Item UInt8) :=
  if value = Daemon.vrPropUnchange then [] else [.attached c (numeral value.toNat)]

/-- The name of a command, and its items. -/
def printed : Command → List UInt8 × List (Item UInt8)
  | .remove key => (ascii "delete", keyItems key)
  | .startup key => (ascii "startup", keyItems key)
  | .shutdown key => (ascii "shutdown", keyItems key)
  | .modify key pri delay _ _ =>
      (ascii "modify", keyItems key ++ (changeItems 112 pri ++ changeItems 100 delay))
  | .create _ => ([], [])

/-- The words of a command. -/
def wordsOf (command : Command) : List (List UInt8) :=
  (printed command).1 :: (printed command).2.flatMap (Item.words dash)

/-- The line of a command. -/
def lineOf (command : Command) : List UInt8 := [blank].intercalate (wordsOf command)

/-- A key that can be typed. -/
structure PrintableKey (key : Key) (name : Ifname) : Prop where
  ifname : key.ifname = some name
  af : key.af = afInet
  nonempty : name.bytes ≠ []
  short : name.bytes.length < lifnamsiz
  plain : isOption dash name.bytes = false
  noBlank : blank ∉ name.bytes
  noNewline : newline ∉ name.bytes

/-- A value that can be typed, or is to stay. -/
def PrintableValue (value : Int) : Prop :=
  value = Daemon.vrPropUnchange ∨ (0 ≤ value ∧ value < 2147483648)

/-- A command that can be typed. -/
def Printable : Command → Prop
  | .remove key | .startup key | .shutdown key => ∃ name, PrintableKey key name
  | .modify key pri delay preeMode acptMode =>
      (∃ name, PrintableKey key name) ∧ PrintableValue pri ∧ PrintableValue delay ∧
        preeMode = Daemon.vrPropUnchange ∧ acptMode = Daemon.vrPropUnchange
  | .create _ => False

/-! ## Numbers -/

theorem length_numeral_le {n : Nat} (small : n < 2147483648) : (numeral n).length ≤ 10 := by
  rw [numeral]
  split
  · decide
  · rw [List.length_map, List.length_reverse, Nat.digits_length_le_iff (by decide)]
    exact Nat.lt_trans small (by decide)

theorem isOption_numeral (n : Nat) : isOption dash (numeral n) = false := by
  obtain ⟨c, rest, text⟩ := List.exists_cons_of_ne_nil (numeral_ne_nil n)
  have range := numeral_range (n := n) (c := c) (by rw [text]; exact List.mem_cons_self)
  have other : c ≠ dash := by
    rintro rfl
    exact absurd range.1 (by decide)
  rw [text]
  cases rest with
  | nil => rfl
  | cons => simp [isOption, other]

theorem toByte_numeral (vid : UInt8) : toByte (strtol (numeral vid.toNat)) = vid := by
  have small := vid.toNat_lt
  have bound : ((vid.toNat : Nat) : Int) ≤ longMax := by
    rw [longMax]
    omega
  rw [strtol_numeral bound, toByte, UInt8.ofInt]
  refine UInt8.toNat_inj.mp ?_
  rw [UInt8.toNat_ofNat']
  omega

theorem toInt_numeral {value : Int} (low : 0 ≤ value) (high : value < 2147483648) :
    toInt (strtol (numeral value.toNat)) = value := by
  have same : ((value.toNat : Nat) : Int) = value := Int.toNat_of_nonneg low
  have bound : ((value.toNat : Nat) : Int) ≤ longMax := by
    rw [longMax]
    omega
  rw [strtol_numeral bound, same, toInt]
  exact Int.bmod_eq_of_le (by omega) (by omega)

/-! ## A printed line -/

variable {key : Key} {name : Ifname} {command : Command}

/-- A number has none of the bytes that separate words and lines. -/
theorem clean_numeral (n : Nat) :
    blank ∉ numeral n ∧ newline ∉ numeral n ∧ (0 : UInt8) ∉ numeral n :=
  ⟨notMem_numeral (.inl (by decide)) n, notMem_numeral (.inl (by decide)) n,
    notMem_numeral (.inl (by decide)) n⟩

/-- A word that can stand in a line. -/
structure CleanWord (word : List UInt8) : Prop where
  noBlank : blank ∉ word
  noNewline : newline ∉ word
  noNul : (0 : UInt8) ∉ word
  short : word.length < cmdMaxLen

theorem CleanWord.numeral {n : Nat} (small : n < 2147483648) : CleanWord (numeral n) :=
  have clean := clean_numeral n
  ⟨clean.1, clean.2.1, clean.2.2, Nat.lt_of_le_of_lt (length_numeral_le small) (by decide)⟩

/-- A word with an option in front. -/
theorem CleanWord.option {c : UInt8} (letter : c ≠ blank ∧ c ≠ newline ∧ c ≠ 0) {arg : List UInt8}
    (clean : CleanWord arg) (short : arg.length ≤ 10) : CleanWord (dash :: c :: arg) := by
  have size : cmdMaxLen = 255 := rfl
  refine ⟨?_, ?_, ?_, ?_⟩
  · rw [List.mem_cons, List.mem_cons]
    rintro (same | same | member)
    · exact absurd same (by decide)
    · exact letter.1 same.symm
    · exact clean.noBlank member
  · rw [List.mem_cons, List.mem_cons]
    rintro (same | same | member)
    · exact absurd same (by decide)
    · exact letter.2.1 same.symm
    · exact clean.noNewline member
  · rw [List.mem_cons, List.mem_cons]
    rintro (same | same | member)
    · exact absurd same (by decide)
    · exact letter.2.2 same.symm
    · exact clean.noNul member
  · rw [List.length_cons, List.length_cons]
    omega

/-- **Clean words are read back** from the line that they make up. -/
theorem typed_of_clean {name : List UInt8} {items : List (Item UInt8)}
    (few : (items.flatMap (Item.words dash)).length < subcmdSlots)
    (clean : ∀ word ∈ name :: items.flatMap (Item.words dash), CleanWord word) :
    Typed ([blank].intercalate (name :: items.flatMap (Item.words dash))) name items := by
  have written : words ([blank].intercalate (name :: items.flatMap (Item.words dash))) =
      name :: items.flatMap (Item.words dash) :=
    List.splitOn_intercalate blank (fun word member => (clean word member).noBlank)
      (List.cons_ne_nil _ _)
  refine ⟨written, ⟨?_, ?_⟩, ?_, ?_⟩
  · rw [written, List.length_cons]
    exact few
  · rw [written]
    exact fun word member => (clean word member).short
  · rw [← mem_words_iff (by decide), written]
    rintro ⟨word, member, inside⟩
    exact (clean word member).noNewline inside
  · rw [← mem_words_iff (by decide), written]
    rintro ⟨word, member, inside⟩
    exact (clean word member).noNul inside

/-! ## The instance -/

theorem PrintableKey.items (printable : PrintableKey key name) :
    keyItems key = [.separate 118 (numeral key.vid.toNat), .separate 105 name.bytes] := by
  rw [keyItems, printable.ifname]
  rfl

theorem PrintableKey.clean (printable : PrintableKey key name) :
    ∀ word ∈ (keyItems key).flatMap (Item.words dash), CleanWord word := by
  have small := key.vid.toNat_lt
  have size : lifnamsiz = 32 := rfl
  have length : cmdMaxLen = 255 := rfl
  have short := printable.short
  have v : CleanWord [dash, 118] := ⟨by decide, by decide, by decide, by decide⟩
  have i : CleanWord [dash, 105] := ⟨by decide, by decide, by decide, by decide⟩
  have number : CleanWord (numeral key.vid.toNat) := .numeral (by omega)
  have ifname : CleanWord name.bytes :=
    ⟨printable.noBlank, printable.noNewline, name.noNul, by omega⟩
  rw [printable.items]
  simpa [Item.words] using ⟨v, number, i, ifname⟩

theorem PrintableKey.proper (printable : PrintableKey key name) :
    ProperFor idOptions (keyItems key) := by
  rw [printable.items]
  intro item member
  rcases List.mem_pair.mp member with rfl | rfl
  · exact ⟨by decide, by decide⟩
  · exact ⟨by decide, by decide⟩

/-- **The printed options designate the instance.** -/
theorem designates_printed {opts : List (UInt8 × List UInt8)}
    (vid : lastArg 118 opts = some (numeral key.vid.toNat))
    (intf : lastArg 105 opts = some name.bytes) :
    Designates opts noIds ⟨key.vid, name, afInet⟩ where
  vid := by
    rw [vid]
    exact (toByte_numeral key.vid).symm
  intf := by
    rw [intf]
    exact (text_self name.noNul).symm
  af := rfl

/-- The key of what is designated. -/
theorem PrintableKey.key_eq (printable : PrintableKey key name) :
    (⟨key.vid, name, afInet⟩ : Target).key = key := by
  obtain ⟨vid, ifname, af⟩ := key
  have named : ifname = some name := printable.ifname
  have family : af = afInet := printable.af
  subst named family
  rw [Target.key, if_neg printable.nonempty]

/-! ## What is to be changed -/

theorem cleanChange {c : UInt8} (change : isChange c = true) {value : Int}
    (printable : PrintableValue value) :
    ∀ word ∈ (changeItems c value).flatMap (Item.words dash), CleanWord word := by
  rw [changeItems]
  split
  · exact fun word member => absurd member List.not_mem_nil
  · rename_i given
    rcases printable with same | ⟨low, high⟩
    · exact absurd same given
    · have number : CleanWord (numeral value.toNat) := .numeral (by omega)
      have letter : c ≠ blank ∧ c ≠ newline ∧ c ≠ 0 := by
        rcases isChange_iff.mp change with rfl | rfl <;> decide
      simpa [Item.words] using number.option letter (length_numeral_le (by omega))

theorem length_changeItems (c : UInt8) (value : Int) :
    ((changeItems c value).flatMap (Item.words dash)).length ≤ 1 := by
  rw [changeItems]
  split
  · exact Nat.zero_le _
  · exact Nat.le_refl _

/-- The option is asked for as it was printed. -/
theorem lastArg_change {c : UInt8} {value : Int} (printable : PrintableValue value) :
    ((lastArg c (typedOpts (changeItems c value))).map fun arg => toInt (strtol arg)).getD
      Daemon.vrPropUnchange = value := by
  rw [changeItems]
  split
  · rename_i stays
    exact stays.symm
  · rename_i given
    rcases printable with same | ⟨low, high⟩
    · exact absurd same given
    · have one : lastArg c (typedOpts [Item.attached c (numeral value.toNat)]) =
          some (numeral value.toNat) := by
        show lastArg c [(c, numeral value.toNat)] = _
        rw [lastArg_cons, if_pos rfl]
        rfl
      rw [one]
      exact toInt_numeral low high

theorem lastArg_other {letter c : UInt8} (other : c ≠ letter) (value : Int) :
    lastArg letter (typedOpts (changeItems c value)) = none := by
  rw [changeItems]
  split
  · rfl
  · show lastArg letter [(c, numeral value.toNat)] = none
    rw [lastArg_cons, if_neg other]
    rfl

/-- The letters of what is to be changed, and its digits, are no options of the instance. -/
theorem foreign_change {c : UInt8} (change : isChange c = true) (n : Nat) :
    ∀ d ∈ c :: numeral n, optstring colon (ascii idOptions) d = none := by
  refine List.forall_mem_cons.mpr ⟨takes_id_change change, fun d member => ?_⟩
  have range := numeral_range member
  have other : ¬ (d = 118 ∨ d = 97 ∨ d = 105) := by
    rintro (rfl | rfl | rfl) <;> exact absurd range.2 (by decide)
  rw [takes_id, if_neg other]

theorem properChange_first {c : UInt8} (change : isChange c = true) (value : Int) :
    ProperFor idOptions ((changeItems c value).map identified) := by
  rw [changeItems]
  split
  · exact fun item member => absurd member List.not_mem_nil
  · intro item member
    have foreign := foreign_change change value.toNat
    have other : c :: numeral value.toNat ≠ [dash] := fun same =>
      numeral_ne_nil _ (List.cons.inj same).2
    rw [List.map_singleton, identified, if_pos change] at member
    rw [List.mem_singleton.mp member]
    exact ⟨List.cons_ne_nil _ _, other, foreign⟩

theorem properChange_second {c : UInt8} (change : isChange c = true) (value : Int) :
    ProperFor changeOptions ((changeItems c value).flatMap rescanned) ∧
      (changeItems c value).flatMap Item.back = [] := by
  rw [changeItems]
  split
  · exact ⟨fun item member => absurd member List.not_mem_nil, rfl⟩
  · refine ⟨fun item member => ?_, rfl⟩
    rw [List.flatMap_singleton, rescanned, if_pos change] at member
    rw [List.mem_singleton.mp member]
    refine ⟨?_, takes_change_change change, numeral_ne_nil _⟩
    rcases isChange_iff.mp change with rfl | rfl <;> decide

/-- **Both scans see a printed modification right.** -/
theorem PrintableKey.modifying (printable : PrintableKey key name) (pri delay : Int) :
    Modifying (keyItems key ++ (changeItems 112 pri ++ changeItems 100 delay)) := by
  have same : (keyItems key).map identified = keyItems key := by
    rw [printable.items]
    rfl
  have seen : (keyItems key).flatMap rescanned = [.foreign [118],
      .operand (numeral key.vid.toNat), .foreign [105], .operand name.bytes] := by
    rw [printable.items]
    rfl
  have back : (keyItems key).flatMap Item.back = [] := by
    rw [printable.items]
    rfl
  obtain ⟨priSecond, priBack⟩ := properChange_second (c := 112) rfl pri
  obtain ⟨delaySecond, delayBack⟩ := properChange_second (c := 100) rfl delay
  constructor
  · rw [List.map_append, List.map_append, same]
    exact List.forall_mem_append.mpr ⟨printable.proper,
      List.forall_mem_append.mpr ⟨properChange_first rfl pri, properChange_first rfl delay⟩⟩
  · rw [rescan, List.flatMap_append, List.flatMap_append, List.flatMap_append, List.flatMap_append,
      back, priBack, delayBack, seen]
    refine List.forall_mem_append.mpr ⟨List.forall_mem_append.mpr ⟨?_,
      List.forall_mem_append.mpr ⟨priSecond, delaySecond⟩⟩, ?_⟩
    · have number := isOption_numeral key.vid.toNat
      have plain := printable.plain
      have v : (Item.foreign [118]).Proper dash (optstring colon (ascii changeOptions)) :=
        ⟨by decide, by decide, List.forall_mem_singleton.mpr (by decide)⟩
      have i : (Item.foreign [105]).Proper dash (optstring colon (ascii changeOptions)) :=
        ⟨by decide, by decide, List.forall_mem_singleton.mpr (by decide)⟩
      simp only [List.forall_mem_cons]
      exact ⟨v, number, i, plain, fun item member => absurd member List.not_mem_nil⟩
    · exact fun item member => absurd member List.not_mem_nil

/-! ## Scripts of printed commands -/

theorem PrintableKey.namesFit (printable : PrintableKey key name) :
    NamesFit [(118, numeral key.vid.toNat), (105, name.bytes)] := by
  refine List.forall_mem_cons.mpr ⟨fun i => absurd i (by decide : (118 : UInt8) ≠ 105), ?_⟩
  refine List.forall_mem_cons.mpr ⟨fun _ => ?_, fun opt member => absurd member List.not_mem_nil⟩
  rw [text_self name.noNul]
  exact printable.short

/-- A command on an instance. -/
theorem PrintableKey.means (printable : PrintableKey key name) (w : AdmWorld) (k : Nat)
    (word : List UInt8) (clean : CleanWord word) (fn : CmdFunc) (found : findCmd word = some fn)
    {on : Key → Command} (keyed : fn.onInst = some on) :
    Means w k ([blank].intercalate (word :: (keyItems key).flatMap (Item.words dash)))
      (some (on key)) := by
  have few : ((keyItems key).flatMap (Item.words dash)).length < subcmdSlots := by
    rw [printable.items]
    exact (by decide : 4 < subcmdSlots)
  have typed := typed_of_clean few (List.forall_mem_cons.mpr ⟨clean, printable.clean⟩)
  have opts : typedOpts (keyItems key) =
      [(118, numeral key.vid.toNat), (105, name.bytes)] := by
    rw [printable.items]
    rfl
  have names : NamesFit (typedOpts (keyItems key)) := by
    rw [opts]
    exact printable.namesFit
  have designates : Designates (typedOpts (keyItems key)) noIds ⟨key.vid, name, afInet⟩ := by
    rw [opts]
    exact designates_printed rfl rfl
  have means : Means w k _ (some (on (Target.key ⟨key.vid, name, afInet⟩))) :=
    .onInst typed found keyed printable.proper names designates
  rwa [printable.key_eq] at means

/-- The options of a modification. -/
abbrev modifyOpts (key : Key) (pri delay : Int) : List (UInt8 × List UInt8) :=
  typedOpts (keyItems key ++ (changeItems 112 pri ++ changeItems 100 delay))

theorem PrintableKey.modifyOpts_eq (printable : PrintableKey key name) (pri delay : Int) :
    modifyOpts key pri delay = [(118, numeral key.vid.toNat), (105, name.bytes)] ++
      (typedOpts (changeItems 112 pri) ++ typedOpts (changeItems 100 delay)) := by
  rw [modifyOpts, printable.items, typedOpts, List.filterMap_append, List.filterMap_append]
  rfl

theorem PrintableKey.lastArg_modify (printable : PrintableKey key name) (pri delay : Int)
    (letter : UInt8) :
    lastArg letter (modifyOpts key pri delay) =
      ((lastArg letter (typedOpts (changeItems 100 delay))).or
        (lastArg letter (typedOpts (changeItems 112 pri)))).or
          (lastArg letter [(118, numeral key.vid.toNat), (105, name.bytes)]) := by
  rw [printable.modifyOpts_eq, lastArg, lastWrite_append, lastWrite_append]
  rfl

/-- A change is no name. -/
theorem namesFit_change {c : UInt8} (change : isChange c = true) (value : Int) :
    NamesFit (typedOpts (changeItems c value)) := by
  rw [changeItems]
  split
  · exact fun opt member => absurd member List.not_mem_nil
  · refine List.forall_mem_cons.mpr ⟨fun i => ?_, fun opt member => absurd member List.not_mem_nil⟩
    have same : c = 105 := i
    rw [same] at change
    cases change

theorem PrintableKey.namesFit_modify (printable : PrintableKey key name) {pri delay : Int} :
    NamesFit (modifyOpts key pri delay) := by
  rw [printable.modifyOpts_eq]
  exact List.forall_mem_append.mpr ⟨printable.namesFit, List.forall_mem_append.mpr
    ⟨namesFit_change rfl pri, namesFit_change rfl delay⟩⟩

/-- A modification. -/
theorem PrintableKey.means_modify (printable : PrintableKey key name) (w : AdmWorld) (k : Nat)
    {pri delay : Int} (priPrintable : PrintableValue pri) (delayPrintable : PrintableValue delay) :
    Means w k (lineOf (.modify key pri delay Daemon.vrPropUnchange Daemon.vrPropUnchange))
      (some (.modify key pri delay Daemon.vrPropUnchange Daemon.vrPropUnchange)) := by
  have few : ((keyItems key ++ (changeItems 112 pri ++ changeItems 100 delay)).flatMap
      (Item.words dash)).length < subcmdSlots := by
    have four : ((keyItems key).flatMap (Item.words dash)).length = 4 := by
      rw [printable.items]
      rfl
    have one := length_changeItems 112 pri
    have another := length_changeItems 100 delay
    have slots : subcmdSlots = 30 := rfl
    rw [List.flatMap_append, List.flatMap_append, List.length_append, List.length_append]
    omega
  have clean : ∀ word ∈ ascii "modify" :: (keyItems key ++
      (changeItems 112 pri ++ changeItems 100 delay)).flatMap (Item.words dash),
        CleanWord word := by
    rw [List.flatMap_append, List.flatMap_append]
    exact List.forall_mem_cons.mpr ⟨⟨by decide, by decide, by decide, by decide⟩,
      List.forall_mem_append.mpr ⟨printable.clean, List.forall_mem_append.mpr
        ⟨cleanChange rfl priPrintable, cleanChange rfl delayPrintable⟩⟩⟩
  have typed := typed_of_clean few clean
  have designates : Designates (modifyOpts key pri delay) noIds ⟨key.vid, name, afInet⟩ := by
    refine designates_printed ?_ ?_
    · rw [printable.lastArg_modify, lastArg_other (by decide), lastArg_other (by decide)]
      rfl
    · rw [printable.lastArg_modify, lastArg_other (by decide), lastArg_other (by decide)]
      rfl
  have priAsked : (changesOf (modifyOpts key pri delay)).pri = pri := by
    have last : lastArg 112 (modifyOpts key pri delay) =
        lastArg 112 (typedOpts (changeItems 112 pri)) := by
      rw [printable.lastArg_modify, lastArg_other (c := 100) (by decide), Option.none_or]
      exact Option.or_none ..
    rw [changesOf, changesFrom, last]
    exact lastArg_change priPrintable
  have delayAsked : (changesOf (modifyOpts key pri delay)).delay = delay := by
    have last : lastArg 100 (modifyOpts key pri delay) =
        lastArg 100 (typedOpts (changeItems 100 delay)) := by
      rw [printable.lastArg_modify, lastArg_other (c := 112) (by decide), Option.or_none]
      exact Option.or_none ..
    rw [changesOf, changesFrom, last]
    exact lastArg_change delayPrintable
  have means : Means w k _ (some (.modify (Target.key ⟨key.vid, name, afInet⟩)
      (changesOf (modifyOpts key pri delay)).pri (changesOf (modifyOpts key pri delay)).delay
      Daemon.vrPropUnchange Daemon.vrPropUnchange)) :=
    .modify typed (by decide) (printable.modifying pri delay) printable.namesFit_modify designates
  rwa [printable.key_eq, priAsked, delayAsked] at means

/-- **A printed command is what its line means.** -/
theorem means_lineOf (w : AdmWorld) (k : Nat) (printable : Printable command) :
    Means w k (lineOf command) (some command) := by
  cases command with
  | create => exact absurd printable id
  | remove key =>
      obtain ⟨name, printable⟩ := printable
      exact printable.means w k (ascii "delete") ⟨by decide, by decide, by decide, by decide⟩
        .cmdRemove (by decide) rfl
  | startup key =>
      obtain ⟨name, printable⟩ := printable
      exact printable.means w k (ascii "startup") ⟨by decide, by decide, by decide, by decide⟩
        .cmdStartup (by decide) rfl
  | shutdown key =>
      obtain ⟨name, printable⟩ := printable
      exact printable.means w k (ascii "shutdown") ⟨by decide, by decide, by decide, by decide⟩
        .cmdShutdown (by decide) rfl
  | modify key pri delay preeMode acptMode =>
      obtain ⟨⟨name, printable⟩, priPrintable, delayPrintable, rfl, rfl⟩ := printable
      exact printable.means_modify w k priPrintable delayPrintable

/-- The lines of some commands. -/
theorem script_printed (w : AdmWorld) {commands : List Command}
    (printable : ∀ command ∈ commands, Printable command) (k : Nat) :
    Script w k (commands.map lineOf) (commands.map some) := by
  induction commands generalizing k with
  | nil => exact .done
  | cons command commands ih =>
      obtain ⟨here, later⟩ := List.forall_mem_cons.mp printable
      exact .line (means_lineOf w k here) (ih later (k + 1))

/-- The line `quit`. -/
theorem quits_quit : Quits (ascii "quit") := ⟨⟨by decide, by decide⟩, by decide, _, rfl, rfl⟩

namespace Daemon

/-- A startup, a shutdown, a modification, and a removal. -/
def someTyped : List Command :=
  [.startup (.sample 7), .shutdown (.sample 7), .modify (.sample 7) 40 (-1) (-1) (-1),
    .remove (.sample 7)]

end Daemon

end VrrpDaemon
