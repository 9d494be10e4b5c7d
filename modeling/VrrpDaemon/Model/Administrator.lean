import VrrpDaemon.Machine.Options
import VrrpDaemon.Model.AdmSocket
import VrrpDaemon.Model.CommandLine
import VrrpDaemon.Model.Notation
import VrrpDaemon.Model.ParseVrip

/-!
# The administrator

What the functions of the table `cmds` of `vrrpadm.c` make of their arguments, and the loop of
`main` with a daemon that it talks to.

`parse_opt_ids` takes the options that designate an instance. The scan moves the operands
behind the options, in `argv` itself, and `cmd_modify` scans `argv` a second time for what is
to be changed, with other options. Each scan passes over the options of the other one as over
letters that it does not know, and takes what they have for an argument as it comes.

`cmd_create` stores the addresses and the name through a pointer that only `-v` sets. The
pointer is not set before, as the record is not, of which only some fields are stored.
-/

set_option autoImplicit false

namespace VrrpDaemon

open Machine

/-- How the functions of the commands fail: with a fault, or by freeing a pointer that was
moved. -/
inductive CmdFault where
  | fault (fault : Fault)
  | invalidFree
  deriving DecidableEq

/-- What a function of the administrator computes, unless it fails. -/
abbrev CmdResult (α : Type) := Except CmdFault α

/-- A fault in what a function calls. -/
def Fault.inCmd {α : Type} (result : Result α) : CmdResult α := result.mapError .fault

/-! ## Numbers -/

/-- `isspace`. -/
def isspace (c : UInt8) : Bool := c = 32 || (9 ≤ c && c ≤ 13)

/-- The digits in front of a text, in base 8, 10 or 16. -/
def frontDigits (base : Nat) : List UInt8 → List Nat
  | [] => []
  | c :: rest =>
      match (hexDigit c).filter (· < base) with
      | some digit => digit :: frontDigits base rest
      | none => []

/-- The number in front of a text: hexadecimal behind `0x`, octal behind `0`, else decimal. -/
def magnitude (text : List UInt8) : Nat :=
  if text.head? = some 48 then
    if text[1]? = some 120 ∨ text[1]? = some 88 then digitsValue 16 (frontDigits 16 (text.drop 2))
    else digitsValue 8 (frontDigits 8 text)
  else digitsValue 10 (frontDigits 10 text)

/-- `LONG_MAX`. -/
def longMax : Int := 9223372036854775807

/-- `strtol` in base 0. -/
def strtol (text : List UInt8) : Int :=
  let text := text.dropWhile isspace
  if text.head? = some 45 then max (-longMax - 1) (-(magnitude text.tail : Int))
  else if text.head? = some 43 then min longMax (magnitude text.tail)
  else min longMax (magnitude text)

/-- What an `int` keeps of a `long`. -/
def toInt (n : Int) : Int := Int.bmod n 4294967296

/-- What a `vrid_t` or a `vrpri_t` keeps of a `long`. -/
def toByte (n : Int) : UInt8 := UInt8.ofInt n

/-! ## Options -/

/-- `-`. -/
def dash : UInt8 := 45

/-- The calls of `getopt` with some options, from `argv[1]` on. -/
def scanArgv (options : String) (argv : List (List UInt8)) : Scanned UInt8 :=
  getopts dash (optstring colon (ascii options)) none argv.tail

/-- The options that are found, with `optarg`. For what is no option, and for an option whose
argument is missing, the `default` of every `switch` does nothing but print. -/
def optsOf (options : String) (argv : List (List UInt8)) : List (UInt8 × List UInt8) :=
  (scanArgv options argv).opts.filterMap Opt.pair

/-- `argv` behind the scan. -/
def permuted (options : String) (argv : List (List UInt8)) : List (List UInt8) :=
  argv.take 1 ++ (scanArgv options argv).argv

/-- `strcpy` to the array of an interface's name. -/
def copyIfname (arg : List UInt8) : Result Ifname :=
  if short : (text arg).length < lifnamsiz then
    .ok ⟨text arg, zero_notMem_text _, Nat.le_of_lt short⟩
  else .error .overflow

/-! ## The commands on an instance -/

/-- The options of `parse_opt_ids`. -/
def idOptions : String := "v:a:i:"

/-- The `switch` of `parse_opt_ids`. The family is `AF_INET` from the start. -/
def optId (ids : Target) (opt : UInt8 × List UInt8) : Result Target :=
  let (c, optarg) := opt
  -- 'v', 'a', 'i'
  if c = 118 then .ok { ids with vid := toByte (strtol optarg) }
  else if c = 97 then
    .ok (if toInt (strtol optarg) = 4 then { ids with af := afInet } else ids)
  else if c = 105 then do
    let intf ← copyIfname optarg
    return { ids with intf }
  else .ok ids

/-- What `parse_opt_ids` starts with. -/
def noIds : Target where
  vid := 0
  intf := ⟨[], Ifname.zero_notMem_nil, Nat.zero_le _⟩
  af := afInet

/-- `parse_opt_ids`, with `argv` behind it. -/
def parseOptIds (argv : List (List UInt8)) : Result (Target × List (List UInt8)) := do
  let ids ← (optsOf idOptions argv).foldlM optId noIds
  return (ids, permuted idOptions argv)

/-- A command with its arguments, as it is passed to `vrrp_all_cmd`. -/
abbrev Issued : Type := Σ cmd : VrrpCmd, cmd.Args

/-- `cmd_remove`. -/
def cmdRemove (argv : List (List UInt8)) : CmdResult Issued := do
  let (ids, _) ← Fault.inCmd (parseOptIds argv)
  return ⟨.removeInst, ids⟩

/-- `cmd_startup`. -/
def cmdStartup (argv : List (List UInt8)) : CmdResult Issued := do
  let (ids, _) ← Fault.inCmd (parseOptIds argv)
  return ⟨.startupInst, ids⟩

/-- `cmd_shutdown`. -/
def cmdShutdown (argv : List (List UInt8)) : CmdResult Issued := do
  let (ids, _) ← Fault.inCmd (parseOptIds argv)
  return ⟨.shutdownInst, ids⟩

/-- `cmd_getx`, up to `cmd_get_instx`. -/
def cmdGetx (argv : List (List UInt8)) : CmdResult Issued := do
  let (ids, _) ← Fault.inCmd (parseOptIds argv)
  return ⟨.getInstx, ids⟩

/-! ## Modifying an instance -/

/-- The modes that the sub-options set, in order; others are passed over. -/
def optFlag (modes : Int × Int) (item : List UInt8) : Int × Int :=
  if item = ascii "preempt" then (1, modes.2)
  else if item = ascii "un_preempt" then (0, modes.2)
  else if item = ascii "accept" then (modes.1, 1)
  else if item = ascii "not_accept" then (modes.1, 0)
  else modes

/-- `process_opt_flags`. `getsubopt` takes what is before an `=`, and moves the pointer that
is freed in the end; nothing is moved if there are no sub-options. -/
def processOptFlags (opts : List UInt8) (modes : Int × Int) : CmdResult (Int × Int) :=
  let modes := ((opts.splitOn comma).map (·.takeWhile (· ≠ 61))).foldl optFlag modes
  if opts = [] then .ok modes else .error .invalidFree

/-- The options of `cmd_modify`. -/
def changeOptions : String := "d:p:A:P"

/-- What `cmd_modify` starts with. -/
def noChanges : Changes where
  pri := Daemon.vrPropUnchange
  delay := Daemon.vrPropUnchange
  preeMode := Daemon.vrPropUnchange
  acptMode := Daemon.vrPropUnchange

/-- The `switch` of `cmd_modify`. -/
def optChange (changes : Changes) (opt : UInt8 × List UInt8) : CmdResult Changes :=
  let (c, optarg) := opt
  -- 'd', 'p', 'o'
  if c = 100 then .ok { changes with delay := toInt (strtol optarg) }
  else if c = 112 then .ok { changes with pri := toInt (strtol optarg) }
  else if c = 111 then do
    let (preeMode, acptMode) ← processOptFlags optarg (changes.preeMode, changes.acptMode)
    return { changes with preeMode, acptMode }
  else .ok changes

/-- `cmd_modify`. The second scan goes over `argv` as the first one leaves it. -/
def cmdModify (argv : List (List UInt8)) : CmdResult Issued := do
  let (ids, argv) ← Fault.inCmd (parseOptIds argv)
  let changes ← (optsOf changeOptions argv).foldlM optChange noChanges
  return ⟨.modifyInst, (ids, changes)⟩

/-! ## Creating an instance -/

/-- The options of `cmd_create`. -/
def createOptions : String := "A:d:i:j:o:p:v:"

/-- The local variables of `cmd_create`: the attributes, the record, of which `vi_va` is stored
at the end and whose addresses are in `vrip`, whether `cv` is set, and `pip[0]`. -/
structure CreateLocals where
  va : VrrpAttr
  inst : VrrpInst
  vrip : VripState
  cv : Bool
  pip : Option (List UInt8)

/-- What `cmd_create` starts with: what is on the stack, and the attributes by default. -/
def CreateLocals.start (inst : VrrpInst) (vrip : VripState) : CreateLocals where
  va := ⟨100, 1, 1, 1⟩
  inst := { inst with viState := VrrpState.init.code }
  vrip := vrip
  cv := false
  pip := none

/-- `parse_vrip(optarg, cv)`, whose result is not looked at. -/
def CreateLocals.parseVrip (pton : InetPton) (got : Bool) (arg : List UInt8)
    (l : CreateLocals) : Result CreateLocals := do
  let (_, vrip) ← l.vrip.parseVrip pton got ⟨text arg, zero_notMem_text _⟩
  return { l with vrip }

/-- The `switch` of `cmd_create`. -/
def optCreate (pton : InetPton) (got : Bool) (l : CreateLocals) (opt : UInt8 × List UInt8) :
    CmdResult CreateLocals :=
  let (c, optarg) := opt
  -- 'A', 'd', 'i', 'j', 'o', 'p', 'v'
  if c = 65 then
    if l.cv then Fault.inCmd (l.parseVrip pton got optarg) else .error (.fault .nullDeref)
  else if c = 100 then .ok { l with va := { l.va with delay := toInt (strtol optarg) } }
  else if c = 105 then
    if l.cv then do
      let vrIfname ← Fault.inCmd (copyIfname optarg)
      return { l with inst := { l.inst with viVr := { l.inst.viVr with vrIfname } } }
    else .error (.fault .nullDeref)
  else if c = 106 then
    if l.cv then Fault.inCmd ({ l with pip := some optarg }.parseVrip pton got optarg)
    else .error (.fault .nullDeref)
  else if c = 111 then do
    let (preeMode, acceptMode) ← processOptFlags optarg (l.va.preeMode, l.va.acceptMode)
    return { l with va := { l.va with preeMode, acceptMode } }
  else if c = 112 then .ok { l with va := { l.va with pri := toByte (strtol optarg) } }
  else if c = 118 then
    .ok { l with
      cv := true
      inst := { l.inst with viVr := { l.inst.viVr with vrId := toByte (strtol optarg) } } }
  else .ok l

/-- `handle_ij`: the primary address, which `inet_pton` stores if it is one. Without `-j` there
is no text to read. -/
def handleIj (pton : InetPton) (pip : Option (List UInt8)) (vrAf : Int) (in4 : UInt32) :
    Result UInt32 :=
  if vrAf = afInet then do
    let pip ← deref pip
    return (pton.parse (text pip)).getD in4
  else .ok in4

/-- The addresses that `vr_ip` designates. -/
def VripState.addresses (s : VripState) : Result (List UInt32) :=
  if s.v.vrIpnum = 0 then .ok []
  else do
    let block ← deref s.v.vrIp
    return s.m.vrIp block s.v.vrIpnum

/-- The record as it is passed to `vrrp_all_cmd`. -/
def CreateLocals.issue (in4 : UInt32) (l : CreateLocals) : Result VrrpInst := do
  let vrIp ← l.vrip.addresses
  let vrip := l.vrip.v
  let viVr := { l.inst.viVr with in4, vrAf := vrip.vrAf, vrIpnum := vrip.vrIpnum, vrIp }
  return { l.inst with viVa := l.va, viVr }

/-- `cmd_create`, with what is on the stack, and whether `malloc` succeeds. -/
def cmdCreate (pton : InetPton) (got : Bool) (inst : VrrpInst) (vrip : VripState)
    (argv : List (List UInt8)) : CmdResult Issued := do
  let l ← (optsOf createOptions argv).foldlM (optCreate pton got) (.start inst vrip)
  let in4 ← Fault.inCmd (handleIj pton l.pip l.vrip.v.vrAf l.inst.viVr.in4)
  let vi ← Fault.inCmd (l.issue in4)
  return ⟨.createInst, vi⟩

/-! ## The loop of `main` -/

/-- What the administrator does not decide, for the `k`-th line: what is on the stack and in
memory, whether `malloc` succeeds, how `getopt` leaves the slots, what the buffers of
`vrrp_all_cmd` and of the daemon hold, and what `issue_vrrp_cmd` finds around them; and what the
daemon does before the request of the line arrives. -/
structure AdmWorld where
  pton : InetPton
  inst : Nat → VrrpInst
  vrip : Nat → VripState
  got : Nat → Bool
  leaves : Nat → CmdCall → Subcmd → Subcmd
  heap : Nat → Buffer
  stack : Nat → Buffer
  client : Nat → Client
  residue : Nat → Buffer
  events : Nat → List Op

/-- What the function of a command asks for; `cmd_exit` ends the program, and `cmd_show_all`
does not return. -/
def issued (w : AdmWorld) (k : Nat) (fn : CmdFunc) (argv : List (List UInt8)) :
    CmdResult (Option Issued) :=
  match fn with
  | .cmdCreate => some <$> cmdCreate w.pton (w.got k) (w.inst k) (w.vrip k) argv
  | .cmdRemove => some <$> cmdRemove argv
  | .cmdStartup => some <$> cmdStartup argv
  | .cmdShutdown => some <$> cmdShutdown argv
  | .cmdModify => some <$> cmdModify argv
  | .cmdGetx => some <$> cmdGetx argv
  | .cmdShow => .error (.fault .diverges)
  | .cmdExit => .ok none

/-- What the function of a command does with what `vrrp_all_cmd` returns. `cmd_create` does not
look at it. The others print the name of a failure (`vrrp_strerror`), and `cmd_getx` displays a
record that it was not given. -/
def CmdFunc.finish (c : Client) (fn : CmdFunc) (ret : Int) : Result Unit :=
  match fn with
  | .cmdCreate => .ok ()
  | _ =>
      if ret = VrrpRet.success.code then
        if fn = .cmdGetx then .error .nullDeref else .ok ()
      else if c.prints ret then .ok () else .error .wildPointer

/-- How the program ends: by `cmd_exit`, or in a fault of its own behind a request, which leaves
the daemon as it is. -/
inductive AdmEnd where
  | exits
  | crashes
  deriving DecidableEq

/-- What the function of a command does to the program. -/
def AdmEnd.behind : Result Unit → Option AdmEnd
  | .ok () => none
  | .error _ => some .crashes

namespace Daemon

/-- A request arrives at the daemon, once it has done some other things, and is answered;
without an answer the administrator waits for ever. -/
def requested (d : World) (w : AdmWorld) (k : Nat) (issued : Issued) (s : Daemon) :
    Result (List UInt8 × Daemon) := do
  let s ← exec (step d) (w.events k) s
  let (reply, s) ← s.processAdmSock d (buildVrrpCmd (w.heap k) issued.1 issued.2) (w.residue k)
  match reply with
  | none => .error .diverges
  | some reply => return (reply, s)

/-- `vrrp_all_cmd` of the `k`-th line: what it returns, unless it faults, and the daemon. -/
def admRequest (d : World) (w : AdmWorld) (k : Nat) (issued : Issued) (s : Daemon) :
    Result (Result Int × Daemon) :=
  let request := requestBuffer (w.heap k) (w.stack k) issued.1 issued.2
  if (w.client k).sends then do
    let (reply, s) ← requested d w k issued s
    return (vrrpAllCmd (w.client k) request (some reply), s)
  else return (vrrpAllCmd (w.client k) request none, s)

/-- The call of a function: the daemon behind it, and how the program ends at it, if it does. -/
def admCall (d : World) (w : AdmWorld) (k : Nat) (call : CmdCall) (s : Daemon) :
    CmdResult (Daemon × Option AdmEnd) := do
  match ← issued w k call.fn call.argv with
  | none => return (s, some .exits)
  | some i => do
      let (ret, s) ← Fault.inCmd (admRequest d w k i s)
      return (s, AdmEnd.behind (ret >>= call.fn.finish (w.client k)))

/-- The loop of `main` of `vrrpadm.c`, from the `k`-th line on, for a number of lines: the
daemon when the program ends, and how it does. -/
def admLoop (d : World) (w : AdmWorld) : Nat → Nat → List UInt8 → Subcmd → Daemon →
    CmdResult (Daemon × AdmEnd)
  | 0, _, _, _, _ => .error (.fault .diverges)
  | lines + 1, k, input, subcmd, s => do
      let (argc, subcmd, rest) ← Fault.inCmd (readLine (lineBytes input) input 0 0 subcmd)
      match lineCall argc subcmd with
      | none => admLoop d w lines (k + 1) rest subcmd s
      | some call => do
          let (s, ended) ← admCall d w k call s
          match ended with
          | none => admLoop d w lines (k + 1) rest (w.leaves k call subcmd) s
          | some ending => return (s, ending)

end Daemon

end VrrpDaemon
