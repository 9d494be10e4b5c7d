import VrrpDaemon.Behaviour.CreateOptions
import VrrpDaemon.Behaviour.Numerals
import VrrpDaemon.Behaviour.Requests
import VrrpDaemon.Properties.StatusReply

/-!
# What is typed is carried out

A line is read into words, the words are scanned for options, the options make up the
arguments of a command, the command is sent as bytes, and the bytes are parsed and carried out
by the daemon. `Daemon.admLoop_script` is about all of it: whatever the daemon does between
the requests, a script of lines leads it where the commands that the lines mean lead it, up to
the first one behind which the administrator's program crashes.
-/

set_option autoImplicit false

namespace VrrpDaemon

open Machine

/-! ## Lines -/

/-- A line is written as a name and some items. -/
structure Typed (line name : List UInt8) (items : List (Item UInt8)) : Prop where
  written : words line = name :: items.flatMap (Item.words dash)
  fits : LineFits line
  noNewline : newline ∉ line
  noNul : (0 : UInt8) ∉ line

/-- The options of some items. -/
abbrev typedOpts (items : List (Item UInt8)) : List (UInt8 × List UInt8) :=
  items.filterMap Item.pair

/-- The items are what they seem to be, for a scan for some options. -/
def ProperFor (options : String) (items : List (Item UInt8)) : Prop :=
  ∀ item ∈ items, item.Proper dash (optstring colon (ascii options))

instance (options : String) (items : List (Item UInt8)) : Decidable (ProperFor options items) :=
  inferInstanceAs (Decidable (∀ item ∈ items, _))

variable {line name : List UInt8} {items : List (Item UInt8)} {options : String}

/-- The call for a typed line. -/
theorem Typed.call (typed : Typed line name items) {fn : CmdFunc} (found : findCmd name = some fn) :
    callOf line = some ⟨fn, (words line).length, words line⟩ := by
  have noNul : (0 : UInt8) ∉ name := fun member => typed.noNul
    ((mem_words_iff (by decide) line).mp ⟨name, by rw [typed.written]; exact List.mem_cons_self, member⟩)
  have called : callOf line = some ⟨fn, (words line).length, (words line).map text⟩ := by
    rw [callOf, typed.written, List.headD_cons, text_self noNul, found]
    rfl
  have exact := (callOf_exact_iff line).mpr fun _ => typed.noNul
  have argv : (words line).map text = words line := (exact _ called).2
  rw [called, argv]

/-- **The options that are found** in items are those that were typed. -/
theorem optsOf_items (proper : ProperFor options items) :
    optsOf options (name :: items.flatMap (Item.words dash)) = typedOpts items := by
  have found := getopts_items proper []
  rw [List.append_nil] at found
  rw [optsOf, scanArgv, List.tail_cons, found]
  simp only [getopts, List.append_nil]
  exact pairs_found items

theorem permuted_items (proper : ProperFor options items) :
    permuted options (name :: items.flatMap (Item.words dash)) =
      name :: (items.flatMap (Item.front dash) ++ items.flatMap Item.back) := by
  have found := getopts_items proper []
  rw [List.append_nil] at found
  rw [permuted, scanArgv, List.tail_cons, found]
  simp only [getopts, List.append_nil, Scanned.argv]
  rfl

/-! ## Arguments that fit -/

variable {pairs : List (UInt8 × List UInt8)}

theorem mem_of_lastArg {letter : UInt8} {arg : List UInt8} (last : lastArg letter pairs = some arg) :
    (letter, arg) ∈ pairs := by
  obtain ⟨front, opt, back, rfl, given, -⟩ := exists_of_lastWrite last
  obtain ⟨c, arg'⟩ := opt
  simp only at given
  split at given
  · cases given
    subst letter
    simp
  · cases given

theorem fits_toInt (n : Int) : Cell.int.Fits (toInt n) := by
  have low := Int.le_bmod (x := n) (m := 4294967296) (by decide)
  have high := Int.bmod_lt (x := n) (m := 4294967296) (by decide)
  constructor
  · exact Int.le_trans (by decide) low
  · exact Int.lt_of_lt_of_le high (by decide)

theorem Designates.fits {ids target : Target} (designates : Designates pairs ids target)
    (names : NamesFit pairs) (short : ids.intf.bytes.length < lifnamsiz) :
    target.intf.bytes.length < lifnamsiz ∧ Cell.int.Fits target.af := by
  constructor
  · rw [designates.intf]
    cases last : lastArg 105 pairs with
    | none => exact short
    | some arg => exact names _ (mem_of_lastArg last) rfl
  · rw [designates.af]
    exact ⟨by decide, by decide⟩

theorem fits_changesOf (pairs : List (UInt8 × List UInt8)) :
    Cell.int.Fits (changesOf pairs).pri ∧ Cell.int.Fits (changesOf pairs).delay ∧
      Cell.int.Fits (changesOf pairs).preeMode ∧ Cell.int.Fits (changesOf pairs).acptMode := by
  have unchanged : Cell.int.Fits Daemon.vrPropUnchange := ⟨by decide, by decide⟩
  refine ⟨?_, ?_, unchanged, unchanged⟩
  · cases last : lastArg 112 pairs with
    | none => simpa [changesOf, changesFrom, last, noChanges] using unchanged
    | some arg => simpa [changesOf, changesFrom, last] using fits_toInt (strtol arg)
  · cases last : lastArg 100 pairs with
    | none => simpa [changesOf, changesFrom, last, noChanges] using unchanged
    | some arg => simpa [changesOf, changesFrom, last] using fits_toInt (strtol arg)

theorem Records.fits {pton : InetPton} {inst vi : VrrpInst} (records : Records pton pairs inst vi)
    (stack : inst.Fits) : VrrpCmd.createInst.Fits vi := by
  have mode : Cell.uint.Fits 1 := ⟨by decide, by decide⟩
  have family : Cell.int.Fits afInet := ⟨by decide, by decide⟩
  refine ⟨⟨?_, ?_, ?_, ?_, ?_⟩, records.vrIpnum⟩
  · rw [records.viVa]
    cases last : lastArg 100 pairs with
    | none => exact (⟨by decide, by decide⟩ : Cell.int.Fits 1)
    | some arg => exact fits_toInt _
  · rw [records.viVa]
    exact mode
  · rw [records.viVa]
    exact mode
  · rw [records.vrAf]
    exact family
  · rw [records.viActive]
    exact stack.viActive

/-! ## Two scans of one line -/

/-- The options of what is to be changed. -/
def isChange (c : UInt8) : Bool := c = 100 || c = 112

theorem isChange_iff {c : UInt8} : isChange c = true ↔ c = 100 ∨ c = 112 := by
  rw [isChange, Bool.or_eq_true, decide_eq_true_eq, decide_eq_true_eq]

theorem takes_id_change {c : UInt8} (change : isChange c = true) :
    optstring colon (ascii idOptions) c = none := by
  rcases isChange_iff.mp change with rfl | rfl <;> decide

theorem takes_change_change {c : UInt8} (change : isChange c = true) :
    optstring colon (ascii changeOptions) c = some true := by
  rcases isChange_iff.mp change with rfl | rfl <;> decide

/-- An item as the scan for the instance sees it: what is to be changed are letters that are no
options. -/
def identified : Item UInt8 → Item UInt8
  | .attached c arg => if isChange c then .foreign (c :: arg) else .attached c arg
  | .separate c arg => .separate c arg
  | .foreign cs => .foreign cs
  | .operand word => .operand word

/-- The words of an item that the first scan leaves in front, as the second one sees them. -/
def rescanned : Item UInt8 → List (Item UInt8)
  | .attached c arg => if isChange c then [.attached c arg] else [.foreign (c :: arg)]
  | .separate c arg => [.foreign [c], .operand arg]
  | .foreign cs => [.foreign cs]
  | .operand _ => []

/-- All of the words, as the second scan sees them. -/
def rescan (items : List (Item UInt8)) : List (Item UInt8) :=
  items.flatMap rescanned ++ (items.flatMap Item.back).map .operand

/-- Items that both scans of `cmd_modify` see right: what is to be changed is written with its
option in one word, and no option of the one scan has a letter of the other. -/
structure Modifying (items : List (Item UInt8)) : Prop where
  first : ProperFor idOptions (items.map identified)
  second : ProperFor changeOptions (rescan items)

theorem words_identified (items : List (Item UInt8)) :
    (items.map identified).flatMap (Item.words dash) = items.flatMap (Item.words dash) := by
  rw [List.flatMap_map]
  refine congrArg (List.flatMap · items) (funext fun item => ?_)
  cases item with
  | attached c arg =>
      rw [identified]
      split <;> rfl
  | separate | foreign | operand => rfl

theorem words_rescan (items : List (Item UInt8)) :
    (rescan items).flatMap (Item.words dash) =
      (items.map identified).flatMap (Item.front dash) ++
        (items.map identified).flatMap Item.back := by
  have front : (items.flatMap rescanned).flatMap (Item.words dash) =
      (items.map identified).flatMap (Item.front dash) := by
    rw [List.flatMap_assoc, List.flatMap_map]
    refine congrArg (List.flatMap · items) (funext fun item => ?_)
    cases item with
    | attached c arg =>
        rw [identified, rescanned]
        split <;> rfl
    | separate | foreign | operand => rfl
  have back : (items.map identified).flatMap Item.back = items.flatMap Item.back := by
    rw [List.flatMap_map]
    refine congrArg (List.flatMap · items) (funext fun item => ?_)
    cases item with
    | attached c arg =>
        rw [identified]
        split <;> rfl
    | separate | foreign | operand => rfl
  have operands : ∀ words : List (List UInt8),
      (words.map Item.operand).flatMap (Item.words dash) = words := fun words => by
    rw [List.flatMap_map]
    exact List.flatMap_singleton' words
  rw [rescan, List.flatMap_append, front, back, operands]

/-- The options of the instance are those that were typed. -/
theorem lastArg_identified {letter : UInt8} (other : isChange letter = false)
    (items : List (Item UInt8)) :
    lastArg letter (typedOpts (items.map identified)) = lastArg letter (typedOpts items) := by
  induction items with
  | nil => rfl
  | cons item items ih =>
      cases item with
      | separate c arg =>
          show lastArg letter ((c, arg) :: typedOpts (items.map identified)) =
            lastArg letter ((c, arg) :: typedOpts items)
          rw [lastArg_cons, lastArg_cons, ih]
      | foreign | operand => exact ih
      | attached c arg =>
          show lastArg letter (typedOpts (identified (.attached c arg) :: items.map identified)) =
            lastArg letter ((c, arg) :: typedOpts items)
          rw [identified]
          split
          · rename_i change
            have apart : c ≠ letter := by
              rintro rfl
              rw [change] at other
              cases other
            rw [lastArg_cons, if_neg apart, Option.or_none]
            exact ih
          · show lastArg letter ((c, arg) :: typedOpts (items.map identified)) = _
            rw [lastArg_cons, lastArg_cons, ih]

/-- What is to be changed is what was typed. -/
theorem lastArg_rescan {letter : UInt8} (change : isChange letter = true)
    {items : List (Item UInt8)} (first : ProperFor idOptions (items.map identified)) :
    lastArg letter (typedOpts (rescan items)) = lastArg letter (typedOpts items) := by
  have operands : ∀ words : List (List UInt8),
      (words.map Item.operand).filterMap Item.pair = [] := fun words =>
    List.filterMap_eq_nil_iff.mpr fun item member => by
      obtain ⟨word, -, rfl⟩ := List.mem_map.mp member
      rfl
  rw [rescan, typedOpts, List.filterMap_append, operands, List.append_nil]
  induction items with
  | nil => rfl
  | cons item items ih =>
      have rest := ih fun other member => first other (List.mem_cons_of_mem _ member)
      have here := first (identified item) List.mem_cons_self
      rw [List.flatMap_cons, List.filterMap_append]
      cases item with
      | foreign | operand => exact rest
      | separate c arg =>
          have option : optstring colon (ascii idOptions) c = some true := here.2
          have apart : c ≠ letter := by
            rintro rfl
            rw [takes_id] at option
            split at option
            · rename_i letters
              rcases letters with rfl | rfl | rfl <;> cases change
            · cases option
          show lastArg letter (typedOpts (items.flatMap rescanned)) =
            lastArg letter ((c, arg) :: typedOpts items)
          rw [lastArg_cons, if_neg apart, Option.or_none]
          exact rest
      | attached c arg =>
          show lastArg letter (typedOpts (rescanned (.attached c arg)) ++
            typedOpts (items.flatMap rescanned)) = lastArg letter ((c, arg) :: typedOpts items)
          rw [rescanned]
          split
          · show lastArg letter ((c, arg) :: typedOpts (items.flatMap rescanned)) = _
            rw [lastArg_cons, lastArg_cons, rest]
          · rename_i other
            have apart : c ≠ letter := fun same => other (same ▸ change)
            show lastArg letter (typedOpts (items.flatMap rescanned)) = _
            rw [lastArg_cons, if_neg apart, Option.or_none]
            exact rest

theorem mem_identified {opt : UInt8 × List UInt8} (member : opt ∈ typedOpts (items.map identified)) :
    opt ∈ typedOpts items := by
  obtain ⟨item', inside, pair⟩ := List.mem_filterMap.mp member
  obtain ⟨item, listed, rfl⟩ := List.mem_map.mp inside
  refine List.mem_filterMap.mpr ⟨item, listed, ?_⟩
  cases item with
  | attached c arg =>
      rw [identified] at pair
      split at pair
      · cases pair
      · exact pair
  | separate | foreign | operand => exact pair

/-- **A modification asks for what was typed.** -/
theorem cmdModify_typed {target : Target} (modifying : Modifying items)
    (names : NamesFit (typedOpts items)) (designates : Designates (typedOpts items) noIds target) :
    cmdModify (name :: items.flatMap (Item.words dash)) =
      .ok ⟨.modifyInst, (target, changesOf (typedOpts items))⟩ := by
  have opts : optsOf idOptions (name :: items.flatMap (Item.words dash)) =
      typedOpts (items.map identified) := by
    rw [← words_identified]
    exact optsOf_items modifying.first
  have behind : permuted idOptions (name :: items.flatMap (Item.words dash)) =
      name :: (rescan items).flatMap (Item.words dash) := by
    rw [← words_identified, permuted_items modifying.first, words_rescan]
  have parsed : parseOptIds (name :: items.flatMap (Item.words dash)) =
      .ok (target, name :: (rescan items).flatMap (Item.words dash)) := by
    refine (parseOptIds_returns_iff _ _ _).mpr ⟨?_, ⟨?_, ?_, designates.af⟩, behind.symm⟩
    · rw [opts]
      exact fun opt member => names opt (mem_identified member)
    · rw [opts, lastArg_identified rfl]
      exact designates.vid
    · rw [opts, lastArg_identified rfl]
      exact designates.intf
  have changes : changesOf (typedOpts (rescan items)) = changesOf (typedOpts items) := by
    simp only [changesOf, changesFrom]
    rw [lastArg_rescan rfl modifying.first, lastArg_rescan rfl modifying.first]
  rw [cmdModify_eq parsed, optsOf_items modifying.second, changes]

/-! ## What a line says -/

/-- The commands that have an instance for argument. -/
def CmdFunc.onInst : CmdFunc → Option (Key → Command)
  | .cmdRemove => some .remove
  | .cmdStartup => some .startup
  | .cmdShutdown => some .shutdown
  | .cmdCreate | .cmdModify | .cmdShow | .cmdGetx | .cmdExit => none

/-- What the `k`-th line says: nothing, if it starts with no command; a command on the instance
that it designates; a modification; or a create. -/
inductive Means (w : AdmWorld) (k : Nat) (line : List UInt8) : Option Command → Prop where
  | nothing (fits : LineFits line) (noNewline : newline ∉ line) (unknown : callOf line = none) :
      Means w k line none
  | onInst {name : List UInt8} {items : List (Item UInt8)} {fn : CmdFunc}
      {command : Key → Command} {target : Target} (typed : Typed line name items)
      (found : findCmd name = some fn) (keyed : fn.onInst = some command)
      (proper : ProperFor idOptions items) (names : NamesFit (typedOpts items))
      (designates : Designates (typedOpts items) noIds target) :
      Means w k line (some (command target.key))
  | modify {name : List UInt8} {items : List (Item UInt8)} {target : Target}
      (typed : Typed line name items) (found : findCmd name = some .cmdModify)
      (modifying : Modifying items) (names : NamesFit (typedOpts items))
      (designates : Designates (typedOpts items) noIds target) :
      Means w k line (some (.modify target.key (changesOf (typedOpts items)).pri
        (changesOf (typedOpts items)).delay (changesOf (typedOpts items)).preeMode
        (changesOf (typedOpts items)).acptMode))
  | create {name : List UInt8} {items : List (Item UInt8)} {vi : VrrpInst}
      (typed : Typed line name items) (found : findCmd name = some .cmdCreate)
      (proper : ProperFor createOptions items) (creates : CreatesFrom w.pton (typedOpts items))
      (got : w.got k = true) (stack : (w.inst k).Fits)
      (records : Records w.pton (typedOpts items) (w.inst k) vi) :
      Means w k line (some (.create vi))

variable {w : AdmWorld} {k : Nat}

theorem Means.fits {command : Option Command} (means : Means w k line command) : LineFits line := by
  cases means with
  | nothing fits => exact fits
  | onInst typed => exact typed.fits
  | modify typed => exact typed.fits
  | create typed => exact typed.fits

theorem Means.noNewline {command : Option Command} (means : Means w k line command) :
    newline ∉ line := by
  cases means with
  | nothing _ clean => exact clean
  | onInst typed => exact typed.noNewline
  | modify typed => exact typed.noNewline
  | create typed => exact typed.noNewline

/-- A line that says nothing makes no call. -/
theorem Means.silent (means : Means w k line none) : callOf line = none := by
  cases means with
  | nothing _ _ unknown => exact unknown

/-- The function that a command is typed for. -/
def Command.fn : Command → CmdFunc
  | .create _ => .cmdCreate
  | .remove _ => .cmdRemove
  | .startup _ => .cmdStartup
  | .shutdown _ => .cmdShutdown
  | .modify .. => .cmdModify

/-- What an instance's command issues. -/
theorem issued_onInst {fn : CmdFunc} {command : Key → Command} (keyed : fn.onInst = some command)
    {argv behind : List (List UInt8)} {target : Target}
    (parsed : parseOptIds argv = .ok (target, behind))
    (fits : target.intf.bytes.length < lifnamsiz ∧ Cell.int.Fits target.af) :
    fn = (command target.key).fn ∧ ∃ i : Issued, issued w k fn argv = .ok (some i) ∧ i.Fits ∧
      i.request = .command (command target.key) := by
  cases fn with
  | cmdRemove =>
      cases keyed
      refine ⟨rfl, ⟨.removeInst, target⟩, ?_,
        ⟨(by decide : VrrpCmd.removeInst ≠ .returnVal), fits⟩, rfl⟩
      simp only [issued, cmdRemove, parsed]
      rfl
  | cmdStartup =>
      cases keyed
      refine ⟨rfl, ⟨.startupInst, target⟩, ?_,
        ⟨(by decide : VrrpCmd.startupInst ≠ .returnVal), fits⟩, rfl⟩
      simp only [issued, cmdStartup, parsed]
      rfl
  | cmdShutdown =>
      cases keyed
      refine ⟨rfl, ⟨.shutdownInst, target⟩, ?_,
        ⟨(by decide : VrrpCmd.shutdownInst ≠ .returnVal), fits⟩, rfl⟩
      simp only [issued, cmdShutdown, parsed]
      rfl
  | cmdCreate | cmdModify | cmdShow | cmdGetx | cmdExit => cases keyed

/-- **A command is issued** as the line means it. -/
theorem Means.issued {command : Command} (means : Means w k line (some command)) :
    ∃ call i, callOf line = some call ∧ call.fn = command.fn ∧
      VrrpDaemon.issued w k call.fn call.argv = .ok (some i) ∧ i.Fits ∧
        i.request = .command command := by
  cases means with
  | @onInst name items fn _ target typed found keyed proper names designates =>
      have opts : optsOf idOptions (words line) = typedOpts items := by
        rw [typed.written]
        exact optsOf_items proper
      have parsed := (parseOptIds_returns_iff (words line) target _).mpr
        ⟨by rw [opts]; exact names, by rw [opts]; exact designates, rfl⟩
      obtain ⟨other, i, goes⟩ := issued_onInst keyed parsed (designates.fits names (by decide))
      exact ⟨_, i, typed.call found, other, goes⟩
  | @modify name items target typed found modifying names designates =>
      have asked : cmdModify (words line) =
          .ok ⟨.modifyInst, (target, changesOf (typedOpts items))⟩ := by
        rw [typed.written]
        exact cmdModify_typed modifying names designates
      refine ⟨_, ⟨.modifyInst, (target, changesOf (typedOpts items))⟩, typed.call found,
        rfl, ?_,
        ⟨(by decide : VrrpCmd.modifyInst ≠ .returnVal), designates.fits names (by decide),
          fits_changesOf _⟩, rfl⟩
      simp only [VrrpDaemon.issued, asked]
      rfl
  | @create name items vi typed found proper creates got stack records =>
      have opts : optsOf createOptions (words line) = typedOpts items := by
        rw [typed.written]
        exact optsOf_items proper
      rw [← opts] at creates
      obtain ⟨vi', asked, recorded⟩ := cmdCreate_eq (w.inst k) (w.vrip k) creates
      rw [opts] at recorded
      cases records.unique recorded
      have asks : VrrpCmd.createInst ≠ .returnVal := by decide
      refine ⟨_, ⟨.createInst, vi⟩, typed.call found, rfl, ?_, ⟨asks, records.fits stack⟩, rfl⟩
      simp only [VrrpDaemon.issued, got, asked]
      rfl

/-! ## Scripts -/

/-- Lines and what they mean, from the `k`-th one on. -/
inductive Script (w : AdmWorld) : Nat → List (List UInt8) → List (Option Command) → Prop where
  | done {k : Nat} : Script w k [] []
  | line {k : Nat} {line : List UInt8} {lines : List (List UInt8)} {command : Option Command}
      {commands : List (Option Command)} (means : Means w k line command)
      (later : Script w (k + 1) lines commands) :
      Script w k (line :: lines) (command :: commands)

/-- A line that ends the program. -/
structure Quits (line : List UInt8) : Prop where
  fits : LineFits line
  noNewline : newline ∉ line
  exits : ∃ call, callOf line = some call ∧ call.fn = .cmdExit

/-- The arguments that a key stands for. -/
def Key.target (key : Key) : Target where
  vid := key.vid
  intf := key.ifname.getD noIds.intf
  af := key.af

theorem Target.key_target (target : Target) : target.key.target = target := by
  obtain ⟨vid, ⟨bytes, noNul, short⟩, af⟩ := target
  by_cases none : bytes = []
  · subst none
    rfl
  · simp only [Target.key, Key.target, if_neg none]
    rfl

/-- A command as it is issued. -/
def Command.issued : Command → Issued
  | .create inst => ⟨.createInst, inst⟩
  | .remove key => ⟨.removeInst, key.target⟩
  | .startup key => ⟨.startupInst, key.target⟩
  | .shutdown key => ⟨.shutdownInst, key.target⟩
  | .modify key pri delay preeMode acptMode =>
      ⟨.modifyInst, (key.target, ⟨pri, delay, preeMode, acptMode⟩)⟩

/-- **What asks for a command** is that command as it is issued. -/
theorem Issued.eq_of_request {i : Issued} {command : Command}
    (request : i.request = .command command) : i = command.issued := by
  obtain ⟨cmd, args⟩ := i
  cases cmd with
  | createInst =>
      cases request
      rfl
  | removeInst =>
      cases request
      exact congrArg (Sigma.mk VrrpCmd.removeInst) (Target.key_target args).symm
  | startupInst =>
      cases request
      exact congrArg (Sigma.mk VrrpCmd.startupInst) (Target.key_target args).symm
  | shutdownInst =>
      cases request
      exact congrArg (Sigma.mk VrrpCmd.shutdownInst) (Target.key_target args).symm
  | modifyInst =>
      obtain ⟨target, changes⟩ := args
      cases request
      exact congrArg (fun t => (⟨.modifyInst, (t, changes)⟩ : Issued)) (Target.key_target target).symm
  | getInstx | returnVal | showAll => cases request

namespace AdmWorld

/-- The word that `issue_vrrp_cmd` takes for the status: it is one of the request, or of what the
stack held before. -/
def statusWord (w : AdmWorld) (k : Nat) (command : Command) : Int :=
  Cell.uint.load (requestBuffer (w.heap k) (w.stack k) command.issued.1 command.issued.2)
    statusOffset

/-- The program goes on behind the `k`-th line: what it prints behind the request has a name. -/
def survives (w : AdmWorld) (k : Nat) : Option Command → Bool
  | none => true
  | some command =>
      if (w.client k).sends then (w.client k).prints (w.statusWord k command)
      else (command.fn.finish (w.client k) (w.client k).undefined).isOk

/-- What the daemon does for the `k`-th line: its own things before the request, and the command,
if the request is sent. -/
def lineOps (w : AdmWorld) (k : Nat) : Option Command → List Op
  | none => []
  | some command => if (w.client k).sends then w.events k ++ [.command command] else []

/-- What the daemon does for some lines, up to the first one that the program does not survive. -/
def scriptOps (w : AdmWorld) : Nat → List (Option Command) → List Op
  | _, [] => []
  | k, command :: later =>
      w.lineOps k command ++ if w.survives k command then w.scriptOps (k + 1) later else []

/-- How the program ends, if the last line ends it. -/
def scriptEnd (w : AdmWorld) : Nat → List (Option Command) → AdmEnd
  | _, [] => .exits
  | k, command :: later =>
      if w.survives k command then w.scriptEnd (k + 1) later else .crashes

end AdmWorld

theorem inCmd_bind {α β : Type} (x : Result α) (f : α → Result β) :
    Fault.inCmd (x >>= f) = Fault.inCmd x >>= fun a => Fault.inCmd (f a) := by
  cases x <;> rfl

namespace Daemon

/-- **A request is carried out** behind what the daemon does before, and its status is not
seen. -/
theorem requested_vrrpAllCmd (d : World) {i : Issued} {command : Command} (fits : i.Fits)
    (request : i.request = .command command) (c : Client) (buf : Buffer) (s : Daemon) :
    (requested d w k i s >>= fun answer => .ok (vrrpAllCmd c buf (some answer.1), answer.2)) =
      exec (step d) (w.events k ++ [.command command]) s >>= fun s' =>
        .ok (if c.prints (Cell.uint.load buf statusOffset) then .ok VrrpRet.success.code
          else .error .wildPointer, s') := by
  rw [requested, exec_append, bind_assoc, bind_assoc]
  refine bind_congr fun s => ?_
  have carried : exec (step d) [.command command] s =
      s.processCommand d command >>= fun answer => .ok answer.2 := by
    show (s.processCommand d command >>= _) >>= _ = _
    cases s.processCommand d command <;> rfl
  rw [processAdmSock_issued d (w.heap k) (w.residue k) fits, request, carried]
  show (s.processCommand d command >>= _) >>= _ >>= _ = _
  cases s.processCommand d command with
  | error fault => rfl
  | ok answer =>
      show Except.ok (vrrpAllCmd c buf (some (buildVrrpRet answer.1)), answer.2) = _
      rw [vrrpAllCmd_buildVrrpRet]
      rfl

/-- The function of a command returns where `vrrp_all_cmd` reports a success. -/
theorem finish_success (c : Client) (command : Command) :
    command.fn.finish c VrrpRet.success.code = .ok () := by
  cases command <;> rfl

/-- What `vrrp_all_cmd` does for a command, whatever its status is. -/
def statusSeen (w : AdmWorld) (k : Nat) (command : Command) : Result Int :=
  if (w.client k).sends then
    if (w.client k).prints (w.statusWord k command) then .ok VrrpRet.success.code
    else .error .wildPointer
  else .ok (w.client k).undefined

theorem behind_statusSeen (w : AdmWorld) (k : Nat) (command : Command) :
    AdmEnd.behind (statusSeen w k command >>= command.fn.finish (w.client k)) =
      if w.survives k (some command) then none else some .crashes := by
  rw [statusSeen, AdmWorld.survives]
  by_cases sent : (w.client k).sends = true
  · by_cases printed : (w.client k).prints (w.statusWord k command) = true
    · rw [if_pos sent, if_pos sent, if_pos printed, if_pos printed, ok_bind, finish_success]
      rfl
    · rw [if_pos sent, if_pos sent, if_neg printed, if_neg printed]
      rfl
  · rw [if_neg sent, if_neg sent, ok_bind]
    cases command.fn.finish (w.client k) (w.client k).undefined <;> rfl

/-- The call of a command. -/
theorem admCall_eq (d : World) {call : CmdCall} {i : Issued}
    (issues : issued w k call.fn call.argv = .ok (some i)) {command : Command}
    (function : call.fn = command.fn) (fits : i.Fits) (request : i.request = .command command)
    (s : Daemon) :
    admCall d w k call s =
      Fault.inCmd (exec (step d) (w.lineOps k (some command)) s) >>= fun s' =>
        .ok (s', if w.survives k (some command) then none else some .crashes) := by
  have named := Issued.eq_of_request request
  have asked : admRequest d w k i s =
      exec (step d) (w.lineOps k (some command)) s >>= fun s' =>
        .ok (statusSeen w k command, s') := by
    rw [admRequest, AdmWorld.lineOps, statusSeen, AdmWorld.statusWord, ← named]
    by_cases sent : (w.client k).sends = true
    · simp only [if_pos sent]
      exact requested_vrrpAllCmd d fits request _ _ s
    · simp only [if_neg sent]
      rfl
  rw [admCall, issues, ok_bind, ← behind_statusSeen]
  simp only [asked, function, inCmd_bind, bind_assoc]
  rfl

/-- A line without a command. -/
theorem admLoop_silent (d : World) (fits : LineFits line) (noNewline : newline ∉ line)
    (unknown : callOf line = none) (fuel : Nat) (rest : List UInt8) (subcmd : Subcmd) :
    ∃ subcmd', ∀ s, admLoop d w (fuel + 1) k (line ++ newline :: rest) subcmd s =
      admLoop d w fuel (k + 1) rest subcmd' s := by
  obtain ⟨subcmd', read, call⟩ := readLine_fits noNewline fits rest subcmd
  refine ⟨subcmd', fun s => ?_⟩
  rw [unknown] at call
  simp only [admLoop, read, Fault.inCmd, Except.mapError, ok_bind, call]

/-- A line with a command. -/
theorem admLoop_call (d : World) (fits : LineFits line) (noNewline : newline ∉ line)
    {call : CmdCall} (called : callOf line = some call) (fuel : Nat) (rest : List UInt8)
    (subcmd : Subcmd) :
    ∃ subcmd', ∀ s, admLoop d w (fuel + 1) k (line ++ newline :: rest) subcmd s =
      (admCall d w k call s >>= fun after =>
        after.2.elim (admLoop d w fuel (k + 1) rest subcmd' after.1) fun ending =>
          .ok (after.1, ending)) := by
  obtain ⟨subcmd', read, found⟩ := readLine_fits noNewline fits rest subcmd
  refine ⟨w.leaves k call subcmd', fun s => ?_⟩
  rw [called] at found
  simp only [admLoop, read, Fault.inCmd, Except.mapError, ok_bind, found]
  refine bind_congr fun after => ?_
  obtain ⟨s', ended⟩ := after
  cases ended <;> rfl

/-- **One line is carried out**, and the program goes on if it survives it. -/
theorem admLoop_means (d : World) {command : Option Command} (means : Means w k line command)
    (fuel : Nat) (rest : List UInt8) (subcmd : Subcmd) :
    ∃ subcmd', ∀ s, admLoop d w (fuel + 1) k (line ++ newline :: rest) subcmd s =
      Fault.inCmd (exec (step d) (w.lineOps k command) s) >>= fun s' =>
        if w.survives k command then admLoop d w fuel (k + 1) rest subcmd' s'
        else .ok (s', .crashes) := by
  cases command with
  | none =>
      obtain ⟨subcmd', goes⟩ := admLoop_silent (k := k) d means.fits means.noNewline means.silent
        fuel rest subcmd
      exact ⟨subcmd', goes⟩
  | some command =>
      obtain ⟨call, i, called, function, issues, fits, request⟩ := means.issued
      obtain ⟨subcmd', goes⟩ := admLoop_call (k := k) d means.fits means.noNewline called fuel rest
        subcmd
      refine ⟨subcmd', fun s => ?_⟩
      rw [goes, admCall_eq d issues function fits request, bind_assoc]
      refine bind_congr fun s' => ?_
      cases w.survives k (some command) <;> rfl

/-- **Lines are carried out** one after the other, up to the first one that the program does not
survive. -/
theorem admLoop_lines (d : World) {lines : List (List UInt8)} {commands : List (Option Command)}
    (script : Script w k lines commands) (fuel : Nat) (rest : List UInt8) (subcmd : Subcmd) :
    ∃ subcmd', ∀ s, admLoop d w (lines.length + fuel) k (inputOf lines rest) subcmd s =
      Fault.inCmd (exec (step d) (w.scriptOps k commands) s) >>= fun s' =>
        match w.scriptEnd k commands with
        | .exits => admLoop d w fuel (k + lines.length) rest subcmd' s'
        | .crashes => .ok (s', .crashes) := by
  induction script generalizing subcmd with
  | done =>
      refine ⟨subcmd, fun s => ?_⟩
      rw [List.length_nil, Nat.zero_add]
      rfl
  | @line k line lines command commands means later ih =>
      obtain ⟨between, first⟩ := admLoop_means d means (lines.length + fuel) (inputOf lines rest)
        subcmd
      obtain ⟨subcmd', others⟩ := ih between
      refine ⟨subcmd', fun s => ?_⟩
      have fuels : (line :: lines).length + fuel = lines.length + fuel + 1 := by
        rw [List.length_cons]
        omega
      have place : k + (line :: lines).length = k + 1 + lines.length := by
        rw [List.length_cons]
        omega
      rw [inputOf_cons, fuels, first, AdmWorld.scriptOps, AdmWorld.scriptEnd, exec_append,
        inCmd_bind, bind_assoc, place]
      refine bind_congr fun s' => ?_
      cases w.survives k command with
      | true => exact others s'
      | false => rfl

theorem inputOf_snoc (lines : List (List UInt8)) (line rest : List UInt8) :
    inputOf (lines ++ [line]) rest = inputOf lines (line ++ newline :: rest) := by
  simp [inputOf]

/-- The line that ends the program. -/
theorem admLoop_quits (d : World) (quits : Quits line) (fuel : Nat) (rest : List UInt8)
    (subcmd : Subcmd) (s : Daemon) :
    admLoop d w (fuel + 1) k (line ++ newline :: rest) subcmd s = .ok (s, .exits) := by
  obtain ⟨call, called, exits⟩ := quits.exits
  obtain ⟨subcmd', goes⟩ := admLoop_call (w := w) (k := k) d quits.fits quits.noNewline called
    fuel rest subcmd
  have ends : admCall d w k call s = .ok (s, some .exits) := by
    rw [admCall, exits]
    rfl
  rw [goes, ends]
  rfl

/-- An administrator with zeros on its stack, whose daemon serves an alarm before each request. -/
def plainAdm : AdmWorld where
  pton := VripState.dottedQuad
  inst _ := VrrpInst.sample 0 0
  vrip _ := VripState.blankVrip
  got _ := true
  leaves _ _ subcmd := subcmd
  heap _ := fun _ => 0
  stack _ := fun _ => 0
  client _ := .plain
  residue _ := fun _ => 0
  events _ := [.alarm]

/-- A create, a startup, a line without a command, a modification, and a removal. -/
def someLines : List (List UInt8) :=
  [ascii "create -v 7 -ieth0 -j 10.0.0.1 -p200", ascii "startup -i eth0 -v7", ascii "hello",
    ascii "modify on -v 7 -p40 -ieth0 -d3", ascii "delete -v7 -ieth0"]

/-- The instance that is created. -/
def someInst : VrrpInst where
  viVa := ⟨200, 1, 1, 1⟩
  viVr := ⟨7, afInet, 16777226, 1, [16777226], .eth0⟩
  viState := 1
  viActive := 1

/-- What the lines mean. -/
def someCommands : List (Option Command) :=
  [some (.create someInst), some (.startup (.sample 7)), none,
    some (.modify (.sample 7) 40 3 (-1) (-1)), some (.remove (.sample 7))]

theorem someLines_mean : Script plainAdm 0 someLines someCommands := by
  have createLine : Typed (ascii "create -v 7 -ieth0 -j 10.0.0.1 -p200") (ascii "create")
      [.separate 118 (ascii "7"), .attached 105 (ascii "eth0"), .separate 106 (ascii "10.0.0.1"),
        .attached 112 (ascii "200")] :=
    ⟨by decide, ⟨by decide, by decide⟩, by decide, by decide⟩
  have startupLine : Typed (ascii "startup -i eth0 -v7") (ascii "startup")
      [.separate 105 (ascii "eth0"), .attached 118 (ascii "7")] :=
    ⟨by decide, ⟨by decide, by decide⟩, by decide, by decide⟩
  have modifyLine : Typed (ascii "modify on -v 7 -p40 -ieth0 -d3") (ascii "modify")
      [.operand (ascii "on"), .separate 118 (ascii "7"), .attached 112 (ascii "40"),
        .attached 105 (ascii "eth0"), .attached 100 (ascii "3")] :=
    ⟨by decide, ⟨by decide, by decide⟩, by decide, by decide⟩
  have deleteLine : Typed (ascii "delete -v7 -ieth0") (ascii "delete")
      [.attached 118 (ascii "7"), .attached 105 (ascii "eth0")] :=
    ⟨by decide, ⟨by decide, by decide⟩, by decide, by decide⟩
  have creates : Means plainAdm 0 _ (some (.create someInst)) :=
    .create createLine (by decide) (by decide)
      ⟨⟨by decide, by decide, by decide⟩, ⟨_, _, rfl⟩, by decide⟩ rfl
      ⟨⟨by decide, by decide⟩, ⟨by decide, by decide⟩, ⟨by decide, by decide⟩,
        ⟨by decide, by decide⟩, ⟨by decide, by decide⟩⟩
      ⟨by decide, by decide, by decide, by decide, ⟨_, rfl, by decide⟩, by decide, by decide,
        by decide, by decide⟩
  have starts : Means plainAdm 1 _ (some (.startup (.sample 7))) :=
    @Means.onInst _ _ _ _ _ .cmdStartup _ ⟨7, .eth0, afInet⟩ startupLine (by decide) rfl
      (by decide) (by decide) ⟨by decide, by decide, by decide⟩
  have unknown : Means plainAdm 2 (ascii "hello") none :=
    .nothing ⟨by decide, by decide⟩ (by decide) (by decide)
  have modifies : Means plainAdm 3 _ (some (.modify (.sample 7) 40 3 (-1) (-1))) :=
    @Means.modify _ _ _ _ _ ⟨7, .eth0, afInet⟩ modifyLine (by decide)
      ⟨by decide, by decide⟩ (by decide) ⟨by decide, by decide, by decide⟩
  have removes : Means plainAdm 4 _ (some (.remove (.sample 7))) :=
    @Means.onInst _ _ _ _ _ .cmdRemove _ ⟨7, .eth0, afInet⟩ deleteLine (by decide) rfl
      (by decide) (by decide) ⟨by decide, by decide, by decide⟩
  exact .line creates (.line starts (.line unknown (.line modifies (.line removes .done))))

end Daemon

end VrrpDaemon
