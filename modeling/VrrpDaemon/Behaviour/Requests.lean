import VrrpDaemon.Model.Administrator
import VrrpDaemon.Properties.CommandRoundTrip

/-!
# What is issued is asked for

The bytes that `build_vrrp_cmd` sends are those of a request, which `process_adm_sock` finds in
its buffer, whatever that held before, and answers (`processAdmSock_issued`). The arguments have
to fit what they are sent in, and the whole of them a datagram.
-/

set_option autoImplicit false

namespace VrrpDaemon

open Machine

namespace Issued

/-- What is asked for. -/
def request : Issued → Daemon.Request
  | ⟨.createInst, vi⟩ => .command (.create vi)
  | ⟨.removeInst, target⟩ => .command (.remove (Target.key target))
  | ⟨.startupInst, target⟩ => .command (.startup (Target.key target))
  | ⟨.shutdownInst, target⟩ => .command (.shutdown (Target.key target))
  | ⟨.modifyInst, (target, changes)⟩ =>
      .command (.modify target.key changes.pri changes.delay changes.preeMode changes.acptMode)
  | ⟨.getInstx, target⟩ => .getInstx target
  | ⟨.returnVal, _⟩ | ⟨.showAll, _⟩ => .other

/-- The arguments fit, and they are not those of a reply. -/
def Fits (issued : Issued) : Prop := issued.1 ≠ .returnVal ∧ issued.1.Fits issued.2

end Issued

/-! ## How long a command is -/

theorem length_targetBytes {target : Target} (short : target.intf.bytes.length < lifnamsiz) :
    target.bytes.length < 38 := by
  have size : lifnamsiz = 32 := rfl
  simp only [Target.bytes, List.length_append, Cell.byte.length_encode, Cell.int.length_encode,
    Cell.byte_width, Cell.int_width, List.length_singleton]
  omega

theorem length_changesBytes (changes : Changes) : changes.bytes.length = 16 := by
  simp only [Changes.bytes, List.length_append, Cell.int.length_encode, Cell.int_width]

/-- The addresses that are sent. -/
theorem length_addressBytes (addresses : List UInt32) :
    (addresses.flatMap Cell.word.encode).length = addresses.length * 4 := by
  induction addresses with
  | nil => rfl
  | cons address addresses ih =>
      rw [List.flatMap_cons, List.length_append, ih, Cell.word.length_encode, Cell.word_width,
        List.length_cons]
      omega

theorem length_createBytes (inst : VrrpInst) (heap : Buffer) :
    (inst.bytes heap ++
      (inst.viVr.vrIp.take inst.viVr.vrIpnum.toNat).flatMap Cell.word.encode).length ≤ 1100 := by
  have few := inst.viVr.vrIpnum.toNat_lt
  have taken : (inst.viVr.vrIp.take inst.viVr.vrIpnum.toNat).length ≤ inst.viVr.vrIpnum.toNat :=
    List.length_take_le _ _
  have record : sizeofVrrpInst = 80 := rfl
  rw [List.length_append, length_instBytes, length_addressBytes, record]
  omega

theorem length_argBytes_le (heap : Buffer) (issued : Issued) (fits : issued.Fits) :
    (argBytes heap issued.1 issued.2).length ≤ 1100 := by
  obtain ⟨cmd, args⟩ := issued
  cases cmd with
  | createInst => exact length_createBytes args heap
  | removeInst | startupInst | shutdownInst | getInstx =>
      exact Nat.le_trans (Nat.le_of_lt (length_targetBytes fits.2.1)) (by decide)
  | modifyInst =>
      obtain ⟨target, changes⟩ := args
      have short := length_targetBytes fits.2.1.1
      have rest := length_changesBytes changes
      show (target.bytes ++ changes.bytes).length ≤ 1100
      rw [List.length_append]
      omega
  | returnVal | showAll => exact Nat.zero_le _

/-- **A command fits a datagram.** -/
theorem length_buildVrrpCmd (heap : Buffer) (issued : Issued) (fits : issued.Fits) :
    sizeofVrrpCmd ≤ (buildVrrpCmd heap issued.1 issued.2).length ∧
      (buildVrrpCmd heap issued.1 issued.2).length ≤ admBufSize := by
  have start : (Cell.uint.encode issued.1.code).length = 4 := Cell.uint.length_encode _
  have behind := length_argBytes_le heap issued fits
  rw [buildVrrpCmd, List.length_append, start, sizeofVrrpCmd, admBufSize]
  omega

namespace Daemon

/-! ## What is found in the buffer -/

theorem scan_target (heap residue : Buffer) (cmd : VrrpCmd) (args : cmd.Args) {target : Target}
    (bytes : argBytes heap cmd args = target.bytes)
    (short : target.intf.bytes.length < lifnamsiz) (family : Cell.int.Fits target.af) :
    ∃ after, scanTarget.run (.holding (buildVrrpCmd heap cmd args) residue) sizeofVrrpCmd =
      .ok (target, after) := by
  have parsed := reads_target short family (Cell.uint.encode cmd.code) [] residue
  rw [List.append_nil, Cell.uint.length_encode, ← bytes] at parsed
  exact ⟨_, parsed⟩

theorem scan_changes {target : Target} {changes : Changes}
    (fits : VrrpCmd.modifyInst.Fits (target, changes)) (heap residue : Buffer) :
    ∃ after, (parseVrrpCmd .modifyInst).run
        (.holding (buildVrrpCmd heap .modifyInst (target, changes)) residue) sizeofVrrpCmd =
      .ok ((target, changes), after) := by
  obtain ⟨⟨short, family⟩, pri, delay, preeMode, acptMode⟩ := fits
  refine ⟨_, parse_of_reads ?_ residue⟩
  exact (reads_target short family).bind
    ((reads_changes pri delay preeMode acptMode).map fun changes => (target, changes))

/-- The record of a create, and the addresses behind it. -/
theorem scan_create {inst : VrrpInst} (fits : VrrpCmd.createInst.Fits inst) (heap residue : Buffer) :
    ∃ vrIp after,
      scanInst.run (.holding (buildVrrpCmd heap .createInst inst) residue) sizeofVrrpCmd =
        .ok (inst.withVrIp [], vrIp) ∧
      (scanVrIp (inst.withVrIp []).viVr.vrIpnum).run
        (.holding (buildVrrpCmd heap .createInst inst) residue) vrIp =
          .ok (inst.viVr.vrIp, after) := by
  obtain ⟨record, announced⟩ := fits
  have record := reads_inst record heap (Cell.uint.encode VrrpCmd.createInst.code)
    (inst.viVr.vrIp.flatMap Cell.word.encode) residue
  have behind := reads_vrIp announced
    (Cell.uint.encode VrrpCmd.createInst.code ++ inst.bytes heap) [] residue
  have sent : buildVrrpCmd heap .createInst inst = Cell.uint.encode VrrpCmd.createInst.code ++
      (inst.bytes heap ++ inst.viVr.vrIp.flatMap Cell.word.encode) := by
    show _ ++ (_ ++ List.flatMap Cell.word.encode (List.take _ inst.viVr.vrIp)) = _
    rw [← announced, List.take_length]
  rw [List.append_nil, List.append_assoc, ← sent, List.length_append] at behind
  rw [← sent] at record
  exact ⟨_, _, record, behind⟩

/-- **The request is found in the buffer.** -/
theorem parseRequest_issued (heap residue : Buffer) (issued : Issued) (fits : issued.Fits) :
    parseRequest (.holding (buildVrrpCmd heap issued.1 issued.2) residue) =
      .ok issued.request := by
  obtain ⟨cmd, args⟩ := issued
  obtain ⟨asked, fits⟩ := fits
  have found : VrrpCmd.ofCode (getVrrpCmd (.holding (buildVrrpCmd heap cmd args) residue)) =
      some cmd := by
    rw [getVrrpCmd_buildVrrpCmd, VrrpCmd.ofCode_code]
  rw [parseRequest, found]
  cases cmd with
  | returnVal => exact absurd rfl asked
  | showAll => rfl
  | removeInst | startupInst | shutdownInst | getInstx =>
      obtain ⟨after, parsed⟩ := scan_target heap residue _ args rfl fits.1 fits.2
      simp only [parsed, ok_bind]
      rfl
  | modifyInst =>
      obtain ⟨target, changes⟩ := args
      obtain ⟨after, parsed⟩ := scan_changes fits heap residue
      simp only [parsed, ok_bind]
      rfl
  | createInst =>
      obtain ⟨vrIp, after, record, addresses⟩ := scan_create fits heap residue
      simp only [record, addresses, ok_bind]
      rfl

/-- **A request is answered** as it was issued. -/
theorem processAdmSock_issued (d : World) (heap residue : Buffer) {issued : Issued}
    (fits : issued.Fits) (s : Daemon) :
    s.processAdmSock d (buildVrrpCmd heap issued.1 issued.2) residue =
      (s.respond d issued.request >>= fun answer =>
        .ok (some (buildVrrpRet answer.1), answer.2)) := by
  obtain ⟨enough, room⟩ := length_buildVrrpCmd heap issued fits
  have whole : admReceived (buildVrrpCmd heap issued.1 issued.2) =
      buildVrrpCmd heap issued.1 issued.2 := List.take_of_length_le room
  rw [processAdmSock, whole, if_neg (Nat.not_lt.mpr enough), admBuffer, whole, admCommand_eq,
    parseRequest_issued heap residue issued fits, ok_bind]
  rfl

end Daemon

end VrrpDaemon
