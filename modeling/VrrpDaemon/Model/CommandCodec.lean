import VrrpDaemon.Machine.Scan
import VrrpDaemon.Model.Layout

/-!
# Commands as bytes

`build_vrrp_cmd` of the administrator's side and `parse_vrrp_cmd` of the
daemon's. Both start with the command; what follows depends on it. The record of
a create is sent as it lies in memory, with the addresses behind it.

`parse_vrrp_cmd` copies the name to a `char[32]` with `strcpy`, and gets no
length. What it reads besides is moved over with a pointer, so the bytes it reads
are those before the pointer's last value, which stands next to its result.
-/

set_option autoImplicit false

namespace VrrpDaemon

open Machine

/-- `vrrp_cmd_t`. -/
inductive VrrpCmd where
  | returnVal
  | createInst
  | removeInst
  | startupInst
  | shutdownInst
  | modifyInst
  | showAll
  | getInstx
  deriving DecidableEq, Repr

/-- The arguments by which a command designates an instance. -/
structure Target where
  vid : UInt8
  intf : Ifname
  af : Int

/-- The arguments of a modification. -/
structure Changes where
  pri : Int
  delay : Int
  preeMode : Int
  acptMode : Int

namespace VrrpCmd

/-- The value of the enumerator. -/
def code : VrrpCmd → Int
  | .returnVal => 0
  | .createInst => 1
  | .removeInst => 2
  | .startupInst => 3
  | .shutdownInst => 4
  | .modifyInst => 5
  | .showAll => 6
  | .getInstx => 7

/-- The command that a value stands for, if there is one. -/
def ofCode (code : Int) : Option VrrpCmd :=
  [.returnVal, .createInst, .removeInst, .startupInst, .shutdownInst, .modifyInst, .showAll,
    .getInstx].find? fun cmd => cmd.code = code

theorem ofCode_code (cmd : VrrpCmd) : ofCode cmd.code = some cmd := by
  cases cmd <;> rfl

theorem code_fits (cmd : VrrpCmd) : Cell.uint.Fits cmd.code := by
  cases cmd <;> exact ⟨by decide, by decide⟩

/-- The arguments of a command. -/
def Args : VrrpCmd → Type
  | .createInst => VrrpInst
  | .removeInst | .startupInst | .shutdownInst | .getInstx => Target
  | .modifyInst => Target × Changes
  | .returnVal => Int
  | .showAll => Unit

end VrrpCmd

/-- `sizeof(vrrp_cmd_t)`. -/
def sizeofVrrpCmd : Nat := 4

/-! ## Writing a command -/

/-- The bytes of a target: the VRID, the name with its NUL, and the family. -/
def Target.bytes (target : Target) : List UInt8 :=
  Cell.byte.encode target.vid ++ (target.intf.bytes ++ [0] ++ Cell.int.encode target.af)

/-- The bytes of the arguments of a modification. -/
def Changes.bytes (changes : Changes) : List UInt8 :=
  Cell.int.encode changes.pri ++ (Cell.int.encode changes.delay ++
    (Cell.int.encode changes.preeMode ++ Cell.int.encode changes.acptMode))

/-- The bytes of a record, in memory that held something before. -/
def VrrpInst.bytes (inst : VrrpInst) (heap : Buffer) : List UInt8 :=
  (inst.store 0 heap).slice 0 sizeofVrrpInst

/-- What `build_vrrp_cmd` writes behind the command. -/
def argBytes (heap : Buffer) : (cmd : VrrpCmd) → cmd.Args → List UInt8
  | .createInst, vi =>
      VrrpInst.bytes vi heap ++
        (vi.viVr.vrIp.take vi.viVr.vrIpnum.toNat).flatMap Cell.word.encode
  | .removeInst, target | .startupInst, target | .shutdownInst, target | .getInstx, target =>
      Target.bytes target
  | .modifyInst, (target, changes) => target.bytes ++ changes.bytes
  | .returnVal, _ | .showAll, _ => []

/-- `build_vrrp_cmd`, whose result is the length of what it writes. -/
def buildVrrpCmd (heap : Buffer) (cmd : VrrpCmd) (args : cmd.Args) : List UInt8 :=
  Cell.uint.encode cmd.code ++ argBytes heap cmd args

/-! ## Reading a command -/

/-- `get_vrrp_cmd`. -/
def getVrrpCmd (buf : Buffer) : Int := Cell.uint.load buf 0

/-- The start of `parse_vrrp_cmd`, for the commands on an instance. -/
def scanTarget : Scan Fault Target := do
  let vid ← Scan.cell Cell.byte
  let intf ← Scan.string .overflow lifnamsiz
  let af ← Scan.cell Cell.int
  pure ⟨vid, ⟨intf.val, intf.property.1, Nat.le_of_lt intf.property.2⟩, af⟩

/-- The case `CMD_MODIFY_INST`. -/
def scanChanges : Scan Fault Changes := do
  let prio ← Scan.cell Cell.int
  let delay ← Scan.cell Cell.int
  let preeMode ← Scan.cell Cell.int
  let acptMode ← Scan.cell Cell.int
  pure ⟨prio, delay, preeMode, acptMode⟩

/-- The case `CMD_CREATE_INST`: the record. The pointer moves over it, and is then
stored in `vr_ip`. -/
def scanInst : Scan Fault VrrpInst where
  run b off := .ok (.load b off, off + sizeofVrrpInst)
  forward returns := by
    cases returns
    exact Nat.le_add_right ..
  confined returns same := by
    cases returns
    rw [VrrpInst.load_of_slice (Buffer.slice_congr same)]

/-- `parse_vrrp_cmd`, from behind the command on. -/
def parseVrrpCmd : (cmd : VrrpCmd) → Scan Fault cmd.Args
  | .createInst => scanInst
  | .removeInst | .startupInst | .shutdownInst | .getInstx => scanTarget
  | .modifyInst => do
      let target ← scanTarget
      let changes ← scanChanges
      pure (target, changes)
  | .returnVal => (Scan.cell Cell.uint : Scan Fault Int)
  | .showAll => (pure () : Scan Fault Unit)

/-- The addresses that `vrrp_create_vr` copies. -/
def scanVrIp (vrIpnum : UInt8) : Scan Fault (List UInt32) := Scan.cells Cell.word vrIpnum.toNat

/-! ## What a create reads of any buffer -/

theorem scanInst_run (buf : Buffer) (off : Nat) :
    scanInst.run buf off = .ok (.load buf off, off + sizeofVrrpInst) := rfl

theorem scanVrIp_returns (vrIpnum : UInt8) (buf : Buffer) (off : Nat) :
    ∃ addresses, (scanVrIp vrIpnum).run buf off = .ok (addresses, off + vrIpnum.toNat * 4) :=
  Scan.run_cells ..

end VrrpDaemon
