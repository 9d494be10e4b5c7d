import VrrpDaemon.Machine.Bytes
import VrrpDaemon.Machine.Items
import VrrpDaemon.Model.Types

/-!
# The command line of the administrator

`main` of `vrrpadm.c` reads a line from its standard input byte by byte into the slots of
`subcmd`, one slot for each argument, looks the first argument up in `cmds`, and calls the
function that stands there. The byte is read into a `char`, so at the end of the input the
value of `EOF` is a byte like any other, and reading goes on.

Neither index of `subcmd` is compared with a bound. Writing outside of a slot is a fault.
-/

set_option autoImplicit false

namespace VrrpDaemon

open Machine

/-- `\n`. -/
def newline : UInt8 := 10

/-- The blank that separates arguments. -/
def blank : UInt8 := 32

/-- The number of slots of `subcmd`. -/
def subcmdSlots : Nat := 30

/-- `CMDMAXLEN`, the size of a slot. -/
def cmdMaxLen : Nat := 255

/-- `subcmd`: the bytes of its slots. -/
abbrev Subcmd : Type := Nat → Buffer

/-- `subcmd[i][j] = c`. -/
def Subcmd.store (subcmd : Subcmd) (i j : Nat) (c : UInt8) : Result Subcmd :=
  if i < subcmdSlots ∧ j < cmdMaxLen then
    .ok (Function.update subcmd i ((subcmd i).put j [c]))
  else .error .overflow

/-- The argument in a slot. -/
def Subcmd.arg (subcmd : Subcmd) (i : Nat) : List UInt8 := text ((subcmd i).slice 0 cmdMaxLen)

/-! ## Reading a line -/

/-- `c = fgetc(stdin)`, with what is left of the input. -/
def fgetc : List UInt8 → UInt8 × List UInt8
  | [] => (255, [])
  | c :: rest => (c, rest)

/-- The loop that reads a line, from slot `i` and offset `j` on, for a number of bytes:
`argc`, the slots and what is left of the input. -/
def readLine : Nat → List UInt8 → Nat → Nat → Subcmd → Result (Nat × Subcmd × List UInt8)
  | 0, _, _, _, _ => .error .diverges
  | bytes + 1, input, i, j, subcmd =>
      let (c, rest) := fgetc input
      if c = newline then do
        let subcmd ← subcmd.store i j 0
        return (i + 1, subcmd, rest)
      else if c = blank then do
        let subcmd ← subcmd.store i j 0
        readLine bytes rest (i + 1) 0 subcmd
      else do
        let subcmd ← subcmd.store i j c
        readLine bytes rest i (j + 1) subcmd

/-- As many bytes as a line can take: those of the input, and those of a slot behind them. -/
def lineBytes (input : List UInt8) : Nat := input.length + cmdMaxLen + 1

/-! ## Commands -/

/-- The functions of the table `cmds`. -/
inductive CmdFunc where
  | cmdCreate
  | cmdRemove
  | cmdStartup
  | cmdShutdown
  | cmdModify
  | cmdShow
  | cmdGetx
  | cmdExit
  deriving DecidableEq

/-- `cmds`. -/
def cmds : List (List UInt8 × CmdFunc) :=
  [(ascii "create", .cmdCreate), (ascii "delete", .cmdRemove), (ascii "startup", .cmdStartup),
    (ascii "shutdown", .cmdShutdown), (ascii "modify", .cmdModify), (ascii "show", .cmdShow),
    (ascii "getx", .cmdGetx), (ascii "exit", .cmdExit), (ascii "quit", .cmdExit),
    (ascii "q", .cmdExit)]

/-- The function for a first argument. -/
def findCmd (name : List UInt8) : Option CmdFunc := (cmds.find? (·.1 = name)).map Prod.snd

/-- What is passed to the function of a command. -/
structure CmdCall where
  fn : CmdFunc
  argc : Nat
  argv : List (List UInt8)
  deriving DecidableEq

/-- What the functions of the commands do, as far as `main` sees it: whether the one that is
called for the `k`-th line returns, and what it leaves in the slots, since `getopt` permutes
its arguments. `cmd_exit` ends the program. -/
structure CmdWorld where
  returns : Nat → CmdCall → Bool
  leaves : Nat → CmdCall → Subcmd → Subcmd

/-- A call ends the reading of lines. -/
def endsReading (w : CmdWorld) (k : Nat) (call : CmdCall) : Bool :=
  call.fn = .cmdExit || !w.returns k call

/-- The slots behind the `k`-th line. -/
def slotsBehind (w : CmdWorld) (k : Nat) (call : Option CmdCall) (subcmd : Subcmd) : Subcmd :=
  (call.map fun call => w.leaves k call subcmd).getD subcmd

/-- The call for the arguments in the slots, if the first one is a command. -/
def lineCall (argc : Nat) (subcmd : Subcmd) : Option CmdCall :=
  (findCmd (subcmd.arg 0)).map fun fn => ⟨fn, argc, (List.range argc).map subcmd.arg⟩

/-- The loop of `main`, from the `k`-th line on, for a number of lines: the calls it makes,
line by line. -/
def readLines (w : CmdWorld) : Nat → Nat → List UInt8 → Subcmd →
    Result (List (Option CmdCall))
  | 0, _, _, _ => .error .diverges
  | lines + 1, k, input, subcmd => do
      let (argc, subcmd, rest) ← readLine (lineBytes input) input 0 0 subcmd
      let call := lineCall argc subcmd
      if (call.map (endsReading w k)).getD false then return [call]
      else do
        let later ← readLines w lines (k + 1) rest (slotsBehind w k call subcmd)
        return call :: later

end VrrpDaemon
