import VrrpDaemon.Model.CommandCodec
import VrrpDaemon.Model.System

/-!
# A command is parsed as it was built

The writer and the reader of a command agree on every offset: for each command,
`parse_vrrp_cmd` recovers the arguments that `build_vrrp_cmd` was given, and
stops where the bytes of the command end. For a create it stops behind the
record, where the addresses are (`parseVrrpCmd_buildVrrpCmd`).
-/

set_option autoImplicit false

namespace VrrpDaemon

open Machine

/-- The arguments fit what they are sent in: the name leaves room for a NUL, the
integers are an `int`'s, and there are as many addresses as announced. -/
def VrrpCmd.Fits : (cmd : VrrpCmd) → cmd.Args → Prop
  | .createInst, vi => VrrpInst.Fits vi ∧ vi.viVr.vrIp.length = vi.viVr.vrIpnum.toNat
  | .removeInst, target | .startupInst, target | .shutdownInst, target | .getInstx, target =>
      target.intf.bytes.length < lifnamsiz ∧ Cell.int.Fits target.af
  | .modifyInst, (target, changes) =>
      (target.intf.bytes.length < lifnamsiz ∧ Cell.int.Fits target.af) ∧
        Cell.int.Fits changes.pri ∧ Cell.int.Fits changes.delay ∧
          Cell.int.Fits changes.preeMode ∧ Cell.int.Fits changes.acptMode
  | .returnVal, _ | .showAll, _ => True

/-- The arguments as the parser finds them: `vr_ip` of a record designates
nothing yet. -/
def VrrpCmd.received : (cmd : VrrpCmd) → cmd.Args → cmd.Args
  | .createInst, vi => VrrpInst.withVrIp vi []
  | .removeInst, target | .startupInst, target | .shutdownInst, target | .getInstx, target => target
  | .modifyInst, args => args
  | .returnVal, status => status
  | .showAll, nothing => nothing

/-- What lies between the pointer's last value and the end of the message: the
addresses of a create, which `vrrp_create_vr` copies from there, and nothing for
the other commands. -/
def VrrpCmd.Behind (buf : Buffer) (after length : Nat) : (cmd : VrrpCmd) → cmd.Args → Prop
  | .createInst, vi => (scanVrIp vi.viVr.vrIpnum).run buf after = .ok (vi.viVr.vrIp, length)
  | .removeInst, _ | .startupInst, _ | .shutdownInst, _ | .getInstx, _ | .modifyInst, _
  | .returnVal, _ | .showAll, _ => after = length

/-! ## The parts of a command -/

theorem reads_target {target : Target} (short : target.intf.bytes.length < lifnamsiz)
    (fits : Cell.int.Fits target.af) : scanTarget.Reads target.bytes target := by
  have name : (Scan.string Fault.overflow lifnamsiz).Reads (target.intf.bytes ++ [0])
      ⟨target.intf.bytes, target.intf.noNul, short⟩ :=
    Scan.reads_string ⟨target.intf.bytes, target.intf.noNul, short⟩
  exact (Scan.reads_cell (Cell.byte_fits target.vid)).bind (name.bind ((Scan.reads_cell fits).map _))

theorem reads_changes {changes : Changes} (pri : Cell.int.Fits changes.pri)
    (delay : Cell.int.Fits changes.delay) (preeMode : Cell.int.Fits changes.preeMode)
    (acptMode : Cell.int.Fits changes.acptMode) : scanChanges.Reads changes.bytes changes :=
  (Scan.reads_cell pri).bind ((Scan.reads_cell delay).bind ((Scan.reads_cell preeMode).bind
    ((Scan.reads_cell acptMode).map _)))

theorem length_instBytes (inst : VrrpInst) (heap : Buffer) :
    (inst.bytes heap).length = sizeofVrrpInst :=
  Buffer.length_slice ..

theorem reads_inst {inst : VrrpInst} (fits : inst.Fits) (heap : Buffer) :
    scanInst.Reads (inst.bytes heap) (inst.withVrIp []) := by
  intro front back residue
  have image : (Buffer.holding (front ++ (inst.bytes heap ++ back)) residue).slice front.length
      sizeofVrrpInst = (inst.store 0 heap).slice 0 sizeofVrrpInst := by
    have here : (Buffer.holding (front ++ (inst.bytes heap ++ back)) residue).slice front.length
        (inst.bytes heap).length = inst.bytes heap := Buffer.slice_holding ..
    rwa [length_instBytes] at here
  have loaded : VrrpInst.load (inst.store 0 heap) 0 = inst.withVrIp [] :=
    VrrpInst.load_storeWith fits (Ifname.image_field _)
  show Except.ok (VrrpInst.load _ _, _) = _
  rw [VrrpInst.load_of_slice image, loaded, length_instBytes]

theorem reads_vrIp {vrIpnum : UInt8} {vrIp : List UInt32} (announced : vrIp.length = vrIpnum.toNat) :
    (scanVrIp vrIpnum).Reads (vrIp.flatMap Cell.word.encode) vrIp := by
  rw [scanVrIp, ← announced]
  exact Scan.reads_cells fun a _ => Cell.word_fits a

/-! ## The law -/

theorem getVrrpCmd_buildVrrpCmd (heap residue : Buffer) (cmd : VrrpCmd) (args : cmd.Args) :
    getVrrpCmd (.holding (buildVrrpCmd heap cmd args) residue) = cmd.code :=
  Cell.load_holding [] (argBytes heap cmd args) cmd.code_fits

/-- The commands but for a create are read to their end. -/
theorem parse_of_reads {cmd : VrrpCmd} {args : cmd.Args} {heap : Buffer}
    (reads : (parseVrrpCmd cmd).Reads (argBytes heap cmd args) args) (residue : Buffer) :
    (parseVrrpCmd cmd).run (.holding (buildVrrpCmd heap cmd args) residue) sizeofVrrpCmd =
      .ok (args, (buildVrrpCmd heap cmd args).length) := by
  have parsed := reads (Cell.uint.encode cmd.code) [] residue
  rwa [List.append_nil, Cell.uint.length_encode, ← Cell.uint.length_encode cmd.code,
    ← List.length_append] at parsed

/-- **Commands are parsed as they were built.** For every command of the
administrator and all arguments that fit, whatever the record's memory and the
receiver's buffer held before: `get_vrrp_cmd` recovers the command,
`parse_vrrp_cmd` its arguments, and the bytes they read, with the addresses that
a create copies, are those of the message, to its last one. -/
theorem parseVrrpCmd_buildVrrpCmd (cmd : VrrpCmd) (args : cmd.Args) (asked : cmd ≠ .returnVal)
    (fits : cmd.Fits args) (heap residue : Buffer) :
    VrrpCmd.ofCode (getVrrpCmd (.holding (buildVrrpCmd heap cmd args) residue)) = some cmd ∧
    ∃ after,
      (parseVrrpCmd cmd).run (.holding (buildVrrpCmd heap cmd args) residue) sizeofVrrpCmd =
        .ok (cmd.received args, after) ∧
      after ≤ (buildVrrpCmd heap cmd args).length ∧
      cmd.Behind (.holding (buildVrrpCmd heap cmd args) residue) after
        (buildVrrpCmd heap cmd args).length args := by
  refine ⟨by rw [getVrrpCmd_buildVrrpCmd, VrrpCmd.ofCode_code], ?_⟩
  cases cmd with
  | returnVal => exact absurd rfl asked
  | createInst =>
      obtain ⟨instFits, announced⟩ := fits
      have sent : buildVrrpCmd heap .createInst args =
          (Cell.uint.encode VrrpCmd.createInst.code ++ VrrpInst.bytes args heap) ++
            (args.viVr.vrIp.flatMap Cell.word.encode ++ []) := by
        rw [buildVrrpCmd, argBytes, ← announced, List.take_length, List.append_nil,
          List.append_assoc]
      have start : (Cell.uint.encode VrrpCmd.createInst.code).length = sizeofVrrpCmd :=
        Cell.uint.length_encode _
      have parsed := reads_inst instFits heap (Cell.uint.encode VrrpCmd.createInst.code)
        (args.viVr.vrIp.flatMap Cell.word.encode) residue
      have behind := reads_vrIp announced
        (Cell.uint.encode VrrpCmd.createInst.code ++ VrrpInst.bytes args heap) [] residue
      rw [← sent, List.length_append, start] at behind
      rw [← List.append_assoc, ← List.append_nil (args.viVr.vrIp.flatMap Cell.word.encode), ← sent,
        start] at parsed
      refine ⟨sizeofVrrpCmd + (VrrpInst.bytes args heap).length, parsed, ?_, ?_⟩
      · rw [sent, List.length_append, List.length_append, start]
        exact Nat.le_add_right ..
      · rw [VrrpCmd.Behind, behind]
        simp [sent, start, Nat.add_assoc]
  | removeInst | startupInst | shutdownInst | getInstx =>
      refine ⟨_, parse_of_reads ?_ residue, Nat.le_refl _, rfl⟩
      exact reads_target fits.1 fits.2
  | modifyInst =>
      obtain ⟨target, changes⟩ := args
      obtain ⟨⟨short, af⟩, pri, delay, preeMode, acptMode⟩ := fits
      refine ⟨_, parse_of_reads ?_ residue, Nat.le_refl _, rfl⟩
      exact (reads_target short af).bind
        ((reads_changes pri delay preeMode acptMode).map fun changes => (target, changes))
  | showAll =>
      refine ⟨_, parse_of_reads ?_ residue, Nat.le_refl _, rfl⟩
      exact Scan.reads_value ()

/-- A create for VRID 7 on `eth0`, with one address. -/
theorem parseVrrpCmd_buildVrrpCmd_create :
    ∃ after,
      (parseVrrpCmd .createInst).run (.holding (buildVrrpCmd (fun _ => 0) .createInst
        (VrrpInst.sample 7 100)) fun _ => 255) sizeofVrrpCmd =
        .ok ((VrrpInst.sample 7 100).withVrIp [], after) ∧
      (scanVrIp 1).run (.holding (buildVrrpCmd (fun _ => 0) .createInst
        (VrrpInst.sample 7 100)) fun _ => 255) after = .ok ([0], 88) := by
  have fits : VrrpCmd.Fits .createInst (VrrpInst.sample 7 100) :=
    ⟨⟨⟨by decide, by decide⟩, ⟨by decide, by decide⟩, ⟨by decide, by decide⟩,
      ⟨by decide, by decide⟩, ⟨by decide, by decide⟩⟩, rfl⟩
  obtain ⟨-, after, parsed, -, behind⟩ := parseVrrpCmd_buildVrrpCmd .createInst
    (VrrpInst.sample 7 100) nofun fits (fun _ => 0) fun _ => 255
  exact ⟨after, parsed, behind⟩

end VrrpDaemon
