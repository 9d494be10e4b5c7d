import VrrpDaemon.Model.TimerQueue

/-!
# The state of the daemon

The global variables of `vrrpd` and the heap they point into: the list of
instances headed by `inst_runtime_list`, the records of instances and VRs, the
timer queue and the table `flag`. `effects` is the log of what the daemon does:
the states its instances change to, the children it forks, the signals it sends
them and the advertisements it writes.

The macros `vrrp_id` to `vrrp_accept` of `vrrpd_impl.h` read an instance's
fields through its VR.

`Daemon.shape` collects what only `vrrp_create_inst` and `vrrp_destroy_inst`
change: the links of the list, and which VR, key and parent the records have.
-/

set_option autoImplicit false

namespace VrrpDaemon

/-- What the daemon does, in order. `state` carries the state of the instance
before and after; `fork` carries the pid of the child, or none when the call
failed. -/
inductive Effect where
  | state (v : DsPtr) (old new : VrrpState)
  | fork (v : DsPtr) (child : Option Nat)
  | sigint (v : DsPtr) (pid : Nat)
  | advert (v : DsPtr) (frame : Frame)
  deriving DecidableEq

/-- The globals of the daemon and its heap. -/
structure Daemon where
  next : DsPtr → Option DsPtr
  prev : DsPtr → Option DsPtr
  ds : DsPtr → VrrpdDs
  vrs : VrPtr → VrrpdVrDs
  dsTop : DsPtr
  vrTop : VrPtr
  q : TimerQueue
  flag : UInt8 → Bool
  mallocCalls : Nat
  forkCalls : Nat
  effects : List Effect

namespace Daemon

/-- A cleared `vrrpd_ds_t`. -/
def blankDs : VrrpdDs where
  vr := 0
  active := 0
  state := .none
  pid := 0

/-- A cleared `vrrpd_vr_ds_t`. -/
def blankVr : VrrpdVrDs where
  attr := ⟨0, 0, 0, 0⟩
  vr := ⟨0, 0, 0, 0, [], ⟨[], by simp, by simp⟩⟩
  parent := instRuntimeList

/-- The daemon as it starts: no instance, no VR queued, no flag set. The header
`inst_runtime_list` is the only node there is. -/
def initial : Daemon where
  next _ := none
  prev _ := none
  ds _ := blankDs
  vrs _ := blankVr
  dsTop := instRuntimeList + 1
  vrTop := 0
  q := .empty
  flag _ := false
  mallocCalls := 0
  forkCalls := 0
  effects := []

/-! ## Fields of an instance -/

section Macros

variable (s : Daemon) (v : DsPtr)

/-- The VR of the instance. -/
def vr : VrrpdVrDs := s.vrs (s.ds v).vr

/-- The macro `vrrp_id`. -/
def vrrpId : UInt8 := (s.vr v).vr.vrId
/-- The macro `vrrp_ifname`. -/
def vrrpIfname : Ifname := (s.vr v).vr.vrIfname
/-- The macro `vrrp_af`. -/
def vrrpAf : Int := (s.vr v).vr.vrAf
/-- The macro `vrrp_pri`. -/
def vrrpPri : UInt8 := (s.vr v).attr.pri
/-- The macro `vrrp_delay`. -/
def vrrpDelay : Int := (s.vr v).attr.delay

end Macros

/-! ## Updates -/

/-- Store an instance's record. -/
def setDs (s : Daemon) (v : DsPtr) (record : VrrpdDs) : Daemon :=
  { s with ds := Function.update s.ds v record }


/-- Store an instance's pid. -/
def setPid (s : Daemon) (v : DsPtr) (pid : Nat) : Daemon :=
  s.setDs v { s.ds v with pid := pid }

/-- Store a VR's attributes. -/
def setAttr (s : Daemon) (p : VrPtr) (attr : VrrpAttr) : Daemon :=
  { s with vrs := Function.update s.vrs p { s.vrs p with attr := attr } }

/-- Store an entry of the table `flag`. -/
def setFlag (s : Daemon) (x : UInt8) (up : Bool) : Daemon :=
  { s with flag := Function.update s.flag x up }

/-- Record an effect. -/
def emit (s : Daemon) (effect : Effect) : Daemon :=
  { s with effects := s.effects ++ [effect] }

/-- Store an instance's state, and record the change. -/
def setState (s : Daemon) (v : DsPtr) (state : VrrpState) : Daemon :=
  (s.setDs v { s.ds v with state := state }).emit (.state v (s.ds v).state state)

/-- Do something to the timer queue. -/
def onQueue (s : Daemon) (act : TimerQueue → TimerQueue) : Daemon :=
  { s with q := act s.q }

/-- Do something to the timer queue that may fault. -/
def tryQueue (s : Daemon) (act : TimerQueue → Result TimerQueue) : Result Daemon := do
  let q ← act s.q
  .ok { s with q := q }

/-! ## The shape of the heap -/

/-- What only the creation and the destruction of an instance change. -/
structure Shape where
  next : DsPtr → Option DsPtr
  prev : DsPtr → Option DsPtr
  vrOf : DsPtr → VrPtr
  vr : VrPtr → VrrpVr
  parent : VrPtr → DsPtr
  dsTop : DsPtr
  vrTop : VrPtr

/-- The shape of the daemon's heap. -/
def shape (s : Daemon) : Shape where
  next := s.next
  prev := s.prev
  vrOf v := (s.ds v).vr
  vr p := (s.vrs p).vr
  parent p := (s.vrs p).parent
  dsTop := s.dsTop
  vrTop := s.vrTop

theorem shape_setDs {s : Daemon} {v : DsPtr} {record : VrrpdDs}
    (same : record.vr = (s.ds v).vr) : (s.setDs v record).shape = s.shape := by
  have vrOf : (fun u => ((s.setDs v record).ds u).vr) = fun u => (s.ds u).vr := by
    funext u
    by_cases here : u = v
    · subst here
      simpa [setDs] using same
    · simp [setDs, Function.update_of_ne here]
  simp only [shape, vrOf]
  rfl

@[simp] theorem shape_setState (s : Daemon) (v : DsPtr) (state : VrrpState) :
    (s.setState v state).shape = s.shape := by
  have stored : (s.setDs v { s.ds v with state := state }).shape = s.shape := shape_setDs rfl
  exact stored

@[simp] theorem shape_setPid (s : Daemon) (v : DsPtr) (pid : Nat) :
    (s.setPid v pid).shape = s.shape := shape_setDs rfl

@[simp] theorem shape_setAttr (s : Daemon) (p : VrPtr) (attr : VrrpAttr) :
    (s.setAttr p attr).shape = s.shape := by
  have fixed : ∀ r, ((s.setAttr p attr).vrs r).vr = (s.vrs r).vr ∧
      ((s.setAttr p attr).vrs r).parent = (s.vrs r).parent := by
    intro r
    by_cases here : r = p
    · subst here
      simp [setAttr]
    · simp [setAttr, Function.update_of_ne here]
  have vr : (fun r => ((s.setAttr p attr).vrs r).vr) = fun r => (s.vrs r).vr :=
    funext fun r => (fixed r).1
  have parent : (fun r => ((s.setAttr p attr).vrs r).parent) = fun r => (s.vrs r).parent :=
    funext fun r => (fixed r).2
  simp only [shape, vr, parent]
  rfl

@[simp] theorem shape_setFlag (s : Daemon) (x : UInt8) (up : Bool) :
    (s.setFlag x up).shape = s.shape := rfl

@[simp] theorem shape_emit (s : Daemon) (effect : Effect) :
    (s.emit effect).shape = s.shape := rfl

@[simp] theorem shape_onQueue (s : Daemon) (act : TimerQueue → TimerQueue) :
    (s.onQueue act).shape = s.shape := rfl

theorem tryQueue_eq_ok {s s' : Daemon} {act : TimerQueue → Result TimerQueue} :
    s.tryQueue act = .ok s' ↔ ∃ q, act s.q = .ok q ∧ s' = { s with q := q } := by
  unfold tryQueue
  rw [Machine.bind_eq_ok]
  simp only [Except.ok.injEq, eq_comm]

theorem vr_of_shape {s s' : Daemon} (same : s'.shape = s.shape) (v : DsPtr) :
    (s'.ds v).vr = (s.ds v).vr :=
  congrFun (congrArg Shape.vrOf same) v

theorem dsTop_of_shape {s s' : Daemon} (same : s'.shape = s.shape) : s'.dsTop = s.dsTop :=
  congrArg Shape.dsTop same

/-- The key of an instance. -/
def Shape.key (shape : Shape) (v : DsPtr) : Key where
  vid := (shape.vr (shape.vrOf v)).vrId
  ifname := some (shape.vr (shape.vrOf v)).vrIfname
  af := (shape.vr (shape.vrOf v)).vrAf

/-- The VRID, interface name and address family of an instance. -/
def key (s : Daemon) (v : DsPtr) : Key where
  vid := s.vrrpId v
  ifname := some (s.vrrpIfname v)
  af := s.vrrpAf v

theorem key_eq (s : Daemon) (v : DsPtr) : s.key v = s.shape.key v := rfl

end Daemon

end VrrpDaemon
