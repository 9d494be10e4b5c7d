import VrrpDaemon.Model.AdmSocket
import VrrpDaemon.Behaviour.Steps

/-!
# The command parser and the length of the datagram

`parse_vrrp_cmd` is not told how long the datagram is. What it takes for the
arguments of a command lies in the datagram exactly when the datagram carries
them (`staysWithin_iff`); of any other one, the bytes that the buffer held before
become part of the command, or the name overruns its field.

That the bytes before `inputEnd` are all that a command depends on is
`admCommand_congr`.
-/

set_option autoImplicit false

namespace VrrpDaemon

open Machine

/-! ## Complete datagrams -/

/-- The command of a datagram. -/
def sentCmd (datagram : List UInt8) : Option VrrpCmd :=
  VrrpCmd.ofCode (Cell.uint.decode ((admReceived datagram).take sizeofVrrpCmd))

/-- The record of a create, with zeros for what is missing. -/
def sentInst (datagram : List UInt8) : VrrpInst := .load (admBuffer datagram fun _ => 0) sizeofVrrpCmd

/-- Behind the command and the VRID there is a name that a NUL ends, which fits
its field with the NUL, and then as many bytes as given. -/
def NameFits (datagram : List UInt8) (further : Nat) : Prop :=
  (text ((admReceived datagram).drop (sizeofVrrpCmd + 1))).length < lifnamsiz ∧
    sizeofVrrpCmd + 1 + (text ((admReceived datagram).drop (sizeofVrrpCmd + 1))).length + 1 +
      further ≤ (admReceived datagram).length

/-- The datagram carries all the arguments of its command. -/
def Complete (datagram : List UInt8) : Prop :=
  match sentCmd datagram with
  | some .createInst =>
      sizeofVrrpCmd + sizeofVrrpInst + (sentInst datagram).viVr.vrIpnum.toNat * 4 ≤
        (admReceived datagram).length
  | some .removeInst | some .startupInst | some .shutdownInst | some .getInstx =>
      NameFits datagram 4
  | some .modifyInst => NameFits datagram 20
  | some .returnVal | some .showAll | none => True

namespace Daemon

/-- What is taken as input lies in the datagram, and the name in its field; and a
datagram that lacks arguments is refused and changes nothing. -/
def StaysWithin (w : World) (datagram : List UInt8) (residue : Buffer) (s : Daemon) : Prop :=
  (∃ stop, s.inputEnd w (admBuffer datagram residue) = .ok stop ∧
      stop ≤ (admReceived datagram).length) ∧
    (¬ Complete datagram → ∃ ret s', s.admCommand w (admBuffer datagram residue) = .ok (ret, s') ∧
      ret ≠ VrrpRet.success.code ∧ s.Grows s')

/-- The condition on a datagram: it is complete, or it is a create without its
addresses that does not get as far as copying them. -/
def InputFits (w : World) (datagram : List UInt8) (s : Daemon) : Prop :=
  Complete datagram ∨
    (sentCmd datagram = some .createInst ∧
      sizeofVrrpCmd + sizeofVrrpInst ≤ (admReceived datagram).length ∧
      s.copiesVrIp w (sentInst datagram) = false)

variable {w : World} {s : Daemon} {nodes : List DsPtr}

/-! ## How far the parser gets -/

theorem ofCode_getVrrpCmd {datagram : List UInt8} (residue : Buffer)
    (enough : sizeofVrrpCmd ≤ (admReceived datagram).length) :
    VrrpCmd.ofCode (getVrrpCmd (admBuffer datagram residue)) = sentCmd datagram := by
  have read : (admBuffer datagram residue).slice 0 sizeofVrrpCmd =
      (admReceived datagram).take sizeofVrrpCmd := by
    have here : (Buffer.holding (admReceived datagram) residue).slice 0 sizeofVrrpCmd =
        ((admReceived datagram).drop 0).take sizeofVrrpCmd :=
      Buffer.slice_holding_take (by omega)
    rwa [List.drop_zero] at here
  exact congrArg (fun bytes => VrrpCmd.ofCode (Cell.uint.decode bytes)) read

/-- The parser of a target stops behind the family, unless the name is too long. -/
theorem scanTarget_run (b : Buffer) (off : Nat) :
    ∃ target, scanTarget.run b off =
      if (text (b.slice (off + 1) lifnamsiz)).length < lifnamsiz then
        .ok (target, off + 1 + (text (b.slice (off + 1) lifnamsiz)).length + 1 + 4)
      else .error .overflow := by
  by_cases short : (text (b.slice (off + 1) lifnamsiz)).length < lifnamsiz
  · refine ⟨⟨Cell.byte.load b off, ⟨_, zero_notMem_text _, Nat.le_of_lt short⟩,
      Cell.int.load b (off + 1 + (text (b.slice (off + 1) lifnamsiz)).length + 1)⟩, ?_⟩
    rw [if_pos short]
    simp only [scanTarget, Scan.run_bind, ok_bind, Scan.string, Scan.cell, Cell.byte_width,
      Cell.int_width, short, reduceDIte, Scan.run_pure]
  · refine ⟨⟨0, .load b 0, 0⟩, ?_⟩
    rw [if_neg short]
    simp only [scanTarget, Scan.run_bind, ok_bind, Scan.string, Scan.cell, Cell.byte_width, short,
      reduceDIte]
    rfl

/-- The parser of a target, and of some more bytes, stays in what was received
exactly when the name fits. -/
theorem scanTarget_within {datagram : List UInt8} {residue : Buffer} (further : Nat) :
    (∃ target after, scanTarget.run (admBuffer datagram residue) sizeofVrrpCmd = .ok (target, after) ∧
        after + further ≤ (admReceived datagram).length) ↔ NameFits datagram (4 + further) := by
  obtain ⟨target, run⟩ := scanTarget_run (admBuffer datagram residue) sizeofVrrpCmd
  have within : ((text ((admBuffer datagram residue).slice (sizeofVrrpCmd + 1) lifnamsiz)).length <
        lifnamsiz ∧ sizeofVrrpCmd + 1 +
          (text ((admBuffer datagram residue).slice (sizeofVrrpCmd + 1) lifnamsiz)).length + 1 +
            (4 + further) ≤ (admReceived datagram).length) ↔
      NameFits datagram (4 + further) := text_holding_iff
  generalize text ((admBuffer datagram residue).slice (sizeofVrrpCmd + 1) lifnamsiz) = name
    at run within
  rw [← within, run]
  by_cases short : name.length < lifnamsiz
  · rw [if_pos short]
    constructor
    · rintro ⟨target', after, ends, inside⟩
      cases ends
      exact ⟨short, by omega⟩
    · rintro ⟨-, inside⟩
      exact ⟨target, _, rfl, by omega⟩
  · rw [if_neg short]
    constructor
    · rintro ⟨target', after, ends, -⟩
      cases ends
    · rintro ⟨fits, -⟩
      exact absurd fits short

/-! ## Creates that do not copy addresses -/

/-- Allocations that fail do so whatever the addresses are. -/
theorem allocInst_refused {inst : VrrpInst} (fails : (s.allocInst w inst).1 = none) :
    ∃ s', s.Grows s' ∧ ∀ addresses, s.allocInst w (inst.withVrIp addresses) = (none, s') := by
  have same : ∀ addresses, s.allocInst w (inst.withVrIp addresses) =
      (none, (s.allocInst w inst).2) := by
    intro addresses
    rw [allocInst_eq] at fails ⊢
    rw [allocInst_eq]
    split
    · rfl
    · split
      · rfl
      · split
        · rfl
        · rename_i first second third
          rw [if_neg first, if_neg second, if_neg third] at fails
          cases fails
  rcases allocInst_outcome (same []) with ⟨-, grows⟩ | ⟨impossible, -⟩
  · exact ⟨_, grows, same⟩
  · cases impossible

/-- **A create that does not copy its addresses** is refused and changes nothing,
whatever they are. The status is an enumerator if the checks passed. -/
theorem createCommand_refused (linked : s.Linked nodes) {inst : VrrpInst}
    (stops : s.copiesVrIp w inst = false) :
    ∃ ret s', (ret = errnoEinval ∧ ¬ (inst.viVa.delay > 0 ∧ inst.viVr.vrIpnum > 0) ∨
        ret = VrrpRet.evrexist.code ∨ ret = VrrpRet.enomem.code) ∧ s.Grows s' ∧
      ∀ addresses, s.createCommand w (inst.withVrIp addresses) = .ok (ret, s') := by
  have fails : ∀ ret s', (ret = errnoEinval ∧ ¬ (inst.viVa.delay > 0 ∧ inst.viVr.vrIpnum > 0) ∨
        ret = VrrpRet.evrexist.code ∨ ret = VrrpRet.enomem.code) → s.Grows s' →
      (∀ addresses, s.vrrpCreateInst w (inst.withVrIp addresses) = .ok (ret, none, s')) →
      ∃ ret s', (ret = errnoEinval ∧ ¬ (inst.viVa.delay > 0 ∧ inst.viVr.vrIpnum > 0) ∨
          ret = VrrpRet.evrexist.code ∨ ret = VrrpRet.enomem.code) ∧ s.Grows s' ∧
        ∀ addresses, s.createCommand w (inst.withVrIp addresses) = .ok (ret, s') := by
    intro ret s' failed grows created
    refine ⟨ret, s', failed, grows, fun addresses => ?_⟩
    rw [createCommand, created, ok_bind]
    refine if_pos ?_
    rcases failed with ⟨rfl, -⟩ | rfl | rfl <;> decide
  by_cases delay : inst.viVa.delay > 0
  · by_cases ipnum : inst.viVr.vrIpnum > 0
    · have searched := linked.search inst.key
      cases selected : s.select inst.key nodes with
      | some v =>
          have conflict : s.vrrpCheckConflict inst.key = .ok (-1) := by
            simp only [vrrpCheckConflict, vrrpSearchVr, searched, selected, ok_bind]
            rfl
          refine fails VrrpRet.evrexist.code s (.inr (.inl rfl)) (.refl s) fun addresses => ?_
          have asked : s.vrrpCheckConflict (inst.withVrIp addresses).key = .ok (-1) := conflict
          simp only [vrrpCreateInst, asked, ok_bind]
          simp [VrrpInst.withVrIp, delay, ipnum, VrrpRet.code]
      | none =>
          have conflict : s.vrrpCheckConflict inst.key = .ok VrrpRet.success.code := by
            simp only [vrrpCheckConflict, vrrpSearchVr, searched, selected, ok_bind]
            rfl
          have out : (s.allocInst w inst).1 = none := by
            simp only [copiesVrIp, conflict] at stops
            simpa [delay, ipnum] using stops
          obtain ⟨s', grows, refused⟩ := allocInst_refused out
          refine fails VrrpRet.enomem.code s' (.inr (.inr rfl)) grows fun addresses => ?_
          have asked : s.vrrpCheckConflict (inst.withVrIp addresses).key =
              .ok VrrpRet.success.code := conflict
          simp only [vrrpCreateInst, asked, ok_bind, refused]
          simp [VrrpInst.withVrIp, delay, ipnum]
    · refine fails errnoEinval s (.inl ⟨rfl, fun given => ipnum given.2⟩) (.refl s) fun addresses => ?_
      simp [vrrpCreateInst, VrrpInst.withVrIp, delay, ipnum]
  · refine fails errnoEinval s (.inl ⟨rfl, fun given => delay given.1⟩) (.refl s) fun addresses => ?_
    exact if_pos delay

/-! ## The commands -/

theorem scanChanges_run (b : Buffer) (off : Nat) :
    ∃ changes, scanChanges.run b off = .ok (changes, off + 16) :=
  ⟨_, rfl⟩

/-- How far a scan gets, in a function that returns nothing else. -/
theorem ends_iff {α : Type} {scan : Scan Fault α} {b : Buffer} {off bound : Nat} :
    (∃ stop, (do
      let (_, after) ← scan.run b off
      return after) = (.ok stop : Result Nat) ∧ stop ≤ bound) ↔
      ∃ a after, scan.run b off = .ok (a, after) ∧ after ≤ bound := by
  cases scan.run b off with
  | error fault => simp
  | ok reply =>
      obtain ⟨a, after⟩ := reply
      simp

/-- The parser of a modification stays in what was received exactly when the name
and the four integers fit. -/
theorem modify_within {datagram : List UInt8} {residue : Buffer} :
    (∃ args after, (parseVrrpCmd .modifyInst).run (admBuffer datagram residue) sizeofVrrpCmd =
        .ok (args, after) ∧ after ≤ (admReceived datagram).length) ↔ NameFits datagram 20 := by
  rw [← scanTarget_within 16]
  constructor
  · rintro ⟨args, after, parsed, inside⟩
    obtain ⟨⟨target, middle⟩, named, parsed⟩ := bind_eq_ok.mp parsed
    obtain ⟨changes, changed⟩ := scanChanges_run (admBuffer datagram residue) middle
    obtain ⟨⟨changes', after'⟩, again, parsed⟩ := bind_eq_ok.mp parsed
    cases changed.symm.trans again
    cases parsed
    exact ⟨target, middle, named, inside⟩
  · rintro ⟨target, middle, named, inside⟩
    obtain ⟨changes, changed⟩ := scanChanges_run (admBuffer datagram residue) middle
    refine ⟨(target, changes), middle + 16, ?_, inside⟩
    exact bind_eq_ok.mpr ⟨_, named, bind_eq_ok.mpr ⟨_, changed, rfl⟩⟩

/-- A create reads its record, and the addresses if it copies them. -/
theorem inputEnd_create {buf : Buffer}
    (created : VrrpCmd.ofCode (getVrrpCmd buf) = some .createInst) :
    s.inputEnd w buf = .ok (if s.copiesVrIp w (.load buf sizeofVrrpCmd) then
      sizeofVrrpCmd + sizeofVrrpInst +
        (VrrpInst.load buf sizeofVrrpCmd).viVr.vrIpnum.toNat * 4
      else sizeofVrrpCmd + sizeofVrrpInst) := by
  obtain ⟨addresses, run⟩ := scanVrIp_returns
    (VrrpInst.load buf sizeofVrrpCmd).viVr.vrIpnum buf (sizeofVrrpCmd + sizeofVrrpInst)
  simp only [inputEnd, created, scanInst_run, ok_bind, run]
  split <;> rfl

theorem admCommand_create {buf : Buffer}
    (created : VrrpCmd.ofCode (getVrrpCmd buf) = some .createInst) :
    ∃ addresses, s.admCommand w buf =
      s.createCommand w ((VrrpInst.load buf sizeofVrrpCmd).withVrIp addresses) := by
  obtain ⟨addresses, run⟩ := scanVrIp_returns
    (VrrpInst.load buf sizeofVrrpCmd).viVr.vrIpnum buf (sizeofVrrpCmd + sizeofVrrpInst)
  refine ⟨addresses, ?_⟩
  simp only [admCommand, created, scanInst_run, ok_bind, run]

/-- The record of a create that was received whole does not depend on what the
buffer held before. -/
theorem load_admBuffer {datagram : List UInt8} {residue : Buffer}
    (whole : sizeofVrrpCmd + sizeofVrrpInst ≤ (admReceived datagram).length) :
    VrrpInst.load (admBuffer datagram residue) sizeofVrrpCmd = sentInst datagram := by
  refine VrrpInst.load_of_slice ?_
  rw [admBuffer, admBuffer, Buffer.slice_holding_take whole, Buffer.slice_holding_take whole]

theorem staysWithin_create {datagram : List UInt8} {residue : Buffer} (linked : s.Linked nodes)
    (command : VrrpCmd.ofCode (getVrrpCmd (admBuffer datagram residue)) = some .createInst)
    (sent : sentCmd datagram = some .createInst) :
    s.StaysWithin w datagram residue ↔ s.InputFits w datagram := by
  have complete : Complete datagram ↔ sizeofVrrpCmd + sizeofVrrpInst +
      (sentInst datagram).viVr.vrIpnum.toNat * 4 ≤ (admReceived datagram).length := by
    rw [Complete, sent]
  rw [StaysWithin, InputFits, complete, inputEnd_create command]
  simp only [sent, true_and, Except.ok.injEq, exists_eq_left']
  by_cases whole : sizeofVrrpCmd + sizeofVrrpInst ≤ (admReceived datagram).length
  · rw [load_admBuffer whole]
    cases copies : s.copiesVrIp w (sentInst datagram) with
    | true =>
        simp only [reduceIte, Bool.true_eq_false, and_false, or_false, and_iff_left_iff_imp]
        exact fun inside lacking => absurd inside lacking
    | false =>
        simp only [Bool.false_eq_true, reduceIte, whole, true_and, and_self, or_true, iff_true]
        intro _
        obtain ⟨addresses, same⟩ : ∃ addresses, s.admCommand w _ = _ := admCommand_create command
        rw [load_admBuffer whole] at same
        obtain ⟨ret, s', failed, grows, refused⟩ := createCommand_refused linked copies
        refine ⟨ret, s', same.trans (refused addresses), ?_, grows⟩
        rcases failed with ⟨rfl, -⟩ | rfl | rfl <;> decide
  · constructor
    · rintro ⟨inside, -⟩
      split at inside <;> omega
    · rintro (inside | ⟨inside, -⟩)
      · omega
      · exact absurd inside whole

/-- For the other commands, the arguments that are read are those that make the
datagram complete. -/
theorem staysWithin_of_iff {datagram : List UInt8} {residue : Buffer}
    (other : sentCmd datagram ≠ some .createInst)
    (reads : (∃ stop, s.inputEnd w (admBuffer datagram residue) = .ok stop ∧
      stop ≤ (admReceived datagram).length) ↔ Complete datagram) :
    s.StaysWithin w datagram residue ↔ s.InputFits w datagram := by
  rw [StaysWithin, InputFits, reads]
  constructor
  · exact fun within => .inl within.1
  · rintro (complete | ⟨created, -⟩)
    · exact ⟨complete, fun lacking => absurd complete lacking⟩
    · exact absurd created other

/-- The bytes before `inputEnd` start with the command. -/
theorem le_inputEnd {buf : Buffer} {stop : Nat} (ends : s.inputEnd w buf = .ok stop) :
    sizeofVrrpCmd ≤ stop := by
  have scanned : ∀ {α : Type} (scan : Scan Fault α), (do
      let (_, after) ← scan.run buf sizeofVrrpCmd
      return after) = (.ok stop : Result Nat) → sizeofVrrpCmd ≤ stop := by
    intro α scan ends
    obtain ⟨⟨a, after⟩, run, ends⟩ := bind_eq_ok.mp ends
    cases ends
    exact scan.forward run
  cases command : VrrpCmd.ofCode (getVrrpCmd buf) with
  | none =>
      simp only [inputEnd, command, Except.ok.injEq] at ends
      exact Nat.le_of_eq ends
  | some cmd =>
      cases cmd with
      | createInst =>
          rw [inputEnd_create command] at ends
          cases ends
          split <;> omega
      | returnVal | showAll =>
          simp only [inputEnd, command, Except.ok.injEq] at ends
          exact Nat.le_of_eq ends
      | removeInst | startupInst | shutdownInst | getInstx | modifyInst =>
          simp only [inputEnd, command] at ends
          exact scanned _ ends

/-- A scan that stops within the bytes that agree finds the same. -/
theorem run_congr {α : Type} {scan : Scan Fault α} {buf buf' : Buffer} {stop : Nat}
    (ends : (do
      let (_, after) ← scan.run buf sizeofVrrpCmd
      return after) = (.ok stop : Result Nat))
    (same : ∀ i, i < stop → buf i = buf' i) :
    scan.run buf' sizeofVrrpCmd = scan.run buf sizeofVrrpCmd := by
  obtain ⟨⟨a, after⟩, run, ends⟩ := bind_eq_ok.mp ends
  cases ends
  rw [run]
  exact scan.confined run fun i _ inside => same i inside

/-- **A command depends on the bytes before `inputEnd` only.** -/
theorem admCommand_congr (linked : s.Linked nodes) {buf buf' : Buffer} {stop : Nat}
    (ends : s.inputEnd w buf = .ok stop) (same : ∀ i, i < stop → buf i = buf' i) :
    s.admCommand w buf' = s.admCommand w buf := by
  have start := le_inputEnd ends
  have code : getVrrpCmd buf' = getVrrpCmd buf := by
    refine congrArg Cell.uint.decode (Buffer.slice_congr fun i _ inside => (same i ?_).symm)
    exact Nat.lt_of_lt_of_le inside start
  cases command : VrrpCmd.ofCode (getVrrpCmd buf) with
  | none => simp only [admCommand, code, command]
  | some cmd =>
      cases cmd with
      | returnVal | showAll => simp only [admCommand, code, command]
      | removeInst | startupInst | shutdownInst | getInstx | modifyInst =>
          simp only [inputEnd, command] at ends
          simp only [admCommand, code, command, run_congr ends same]
      | createInst =>
          rw [inputEnd_create command] at ends
          have record : VrrpInst.load buf' sizeofVrrpCmd = VrrpInst.load buf sizeofVrrpCmd := by
            refine VrrpInst.load_of_slice (Buffer.slice_congr fun i _ inside => (same i ?_).symm)
            cases ends
            split <;> omega
          cases copies : s.copiesVrIp w (.load buf sizeofVrrpCmd) with
          | false =>
              have command' : VrrpCmd.ofCode (getVrrpCmd buf') = some .createInst := by
                rw [code, command]
              obtain ⟨addresses, one⟩ : ∃ addresses, s.admCommand w buf = _ :=
                admCommand_create command
              obtain ⟨addresses', other⟩ : ∃ addresses, s.admCommand w buf' = _ :=
                admCommand_create command'
              obtain ⟨ret, s', -, -, refused⟩ := createCommand_refused linked copies
              rw [one, other, record, refused, refused]
          | true =>
              rw [copies, if_pos rfl] at ends
              cases ends
              obtain ⟨addresses, run⟩ := scanVrIp_returns
                (VrrpInst.load buf sizeofVrrpCmd).viVr.vrIpnum buf (sizeofVrrpCmd + sizeofVrrpInst)
              have run' := (scanVrIp (VrrpInst.load buf sizeofVrrpCmd).viVr.vrIpnum).confined run
                fun i _ inside => same i inside
              simp only [admCommand, code, command, scanInst_run, ok_bind, record, run, run']

/-- The enumeration of the instances changes nothing. -/
theorem getInstxCommand_state {target : Target} {ret : Int} {s' : Daemon}
    (returns : s.getInstxCommand target = .ok (ret, s')) : s' = s := by
  obtain ⟨⟨⟨ret', found⟩, cursor⟩, -, returns⟩ := bind_eq_ok.mp returns
  cases name : cursor.ifname with
  | none =>
      simp only [name] at returns
      cases returns
      rfl
  | some ifname =>
      simp only [name] at returns
      obtain ⟨copied, -, same⟩ := bind_eq_ok.mp returns
      cases same
      rfl

/-- A datagram that is answered leads to a reachable state. -/
theorem Reachable.processAdmSock (reachable : Reachable w s) {datagram : List UInt8}
    {residue : Buffer} {reply : Option (List UInt8)} {s' : Daemon}
    (returns : s.processAdmSock w datagram residue = .ok (reply, s')) : Reachable w s' := by
  rw [Daemon.processAdmSock] at returns
  split at returns
  · cases returns
    exact reachable
  · obtain ⟨⟨ret, t⟩, answered, same⟩ := bind_eq_ok.mp returns
    cases same
    rw [admCommand_eq] at answered
    obtain ⟨request, -, answered⟩ := bind_eq_ok.mp answered
    cases request with
    | command command =>
        obtain ⟨ops, run⟩ := reachable
        have stepped : step w (.command command) s = .ok s' := bind_eq_ok.mpr ⟨_, answered, rfl⟩
        exact ⟨_, run.snoc trivial stepped⟩
    | getInstx target =>
        obtain rfl := getInstxCommand_state answered
        exact reachable
    | other =>
        cases answered
        exact reachable

/-- A startup for a VRID on `eth0`. -/
def startupDatagram (vid : UInt8) : List UInt8 :=
  buildVrrpCmd (fun _ => 0) .startupInst (⟨vid, .eth0, afInet⟩ : Target)

/-- The buffer behind a datagram that was answered: the reply is built over it. -/
def answeredBuffer (datagram reply : List UInt8) : Buffer :=
  .holding reply (admBuffer datagram fun _ => 0)

/-- The first eight bytes of a startup for VRID 7: its name is cut off behind `eth`. -/
def truncatedStartup : List UInt8 := (startupDatagram 7).take 8

end Daemon

end VrrpDaemon
