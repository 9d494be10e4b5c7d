import VrrpDaemon.Machine.Faults

/-!
# The daemon's data types

The records of `libvrrp.h` and the constants of `vrrp.h`, as the daemon holds
them. Addresses of instances (`vrrpd_ds_t *`) and of virtual routers
(`vrrpd_vr_ds_t *`) are natural numbers; a pointer that may be null is an
`Option`. Objects are never freed (the calls to `free` are commented out), so
an address that was handed out stays valid.

A VR is the only one of its instance: the `next` field of `vrrpd_vr_ds_t` is
cleared by `vrrp_create_inst` and never written again. The record of an
instance and its VR are split by what the daemon does with the fields: the
links of `inst_runtime_list` and those of `adv_q` are kept apart from the data
(`VrrpDaemon.Model.Daemon`, `VrrpDaemon.Model.TimerQueue`).
-/

set_option autoImplicit false

namespace VrrpDaemon

/-- How a call fails: through a null pointer, in a loop that never ends, by
writing past the end of a field, by a signal that ends the caller itself, or through
what lies behind a table of pointers. -/
inductive Fault where
  | nullDeref
  | diverges
  | overflow
  | killed
  | wildPointer
  deriving DecidableEq, Repr

/-- What a C function computes, unless it faults. -/
abbrev Result (α : Type) := Except Fault α

/-- Read through a pointer. -/
def deref {α : Type} : Option α → Result α
  | some a => .ok a
  | none => .error .nullDeref

@[simp] theorem deref_some {α : Type} (a : α) : deref (some a) = .ok a := rfl

@[simp] theorem deref_none {α : Type} : deref (none : Option α) = .error .nullDeref := rfl

/-- `vrrpd_ds_t *`. -/
abbrev DsPtr := Nat

/-- `vrrpd_vr_ds_t *`. -/
abbrev VrPtr := Nat

/-- `&inst_runtime_list`, the node that heads the list of instances. -/
def instRuntimeList : DsPtr := 0

/-! ## Constants -/

/-- `AF_UNSPEC`. -/
def afUnspec : Int := 0
/-- `AF_INET`. -/
def afInet : Int := 2
/-- `AF_INET6`. -/
def afInet6 : Int := 10

/-- `LIFNAMSIZ`, the size of the field an interface name is kept in. -/
def lifnamsiz : Nat := 32

/-- `IPPROTO_VRRP`. -/
def ipprotoVrrp : Nat := 112
/-- `VRRP_IP_TTL`. -/
def vrrpIpTtl : Nat := 255

/-- `vrrp_ret_t`. -/
inductive VrrpRet where
  | success
  | evrexist
  | einval
  | enoroute
  | evrip
  | enoinst
  | emulinst
  | enomem
  | esys
  deriving DecidableEq, Repr

/-- The value of the enumerator. -/
def VrrpRet.code : VrrpRet → Int
  | .success => 0
  | .evrexist => 1
  | .einval => 2
  | .enoroute => 3
  | .evrip => 4
  | .enoinst => 5
  | .emulinst => 6
  | .enomem => 7
  | .esys => 8

/-- The `EINVAL` of `errno.h`, which the macro `vrrp_check` returns. -/
def errnoEinval : Int := 22

/-- `vrrp_state_t`, `VRRP_STATE_NONE` to `VRRP_STATE_BACK`. -/
inductive VrrpState where
  | none
  | init
  | mast
  | back
  deriving DecidableEq, Repr

/-- The byte that stands for the state. -/
def VrrpState.code : VrrpState → UInt8
  | .none => 0
  | .init => 1
  | .mast => 2
  | .back => 3

/-- The states of an instance that takes part in the protocol, with a timer
running. -/
def VrrpState.running : VrrpState → Bool
  | .mast | .back => true
  | .none | .init => false

/-! ## Interface names -/

/-- The content of a `char[32]` that holds an interface name: the bytes before
the first NUL, at most 32 of them. -/
@[ext] structure Ifname where
  bytes : List UInt8
  noNul : (0 : UInt8) ∉ bytes
  fits : bytes.length ≤ lifnamsiz
  deriving DecidableEq

/-- `strncmp` on two strings, each the bytes before its NUL. -/
def strncmp : List UInt8 → List UInt8 → Nat → Int
  | _, _, 0 => 0
  | [], [], _ + 1 => 0
  | a :: _, [], _ + 1 => a.toNat
  | [], b :: _, _ + 1 => -(b.toNat : Int)
  | a :: as, b :: bs, n + 1 =>
      if a = b then strncmp as bs n else (a.toNat : Int) - b.toNat

theorem strncmp_eq_zero_iff {as bs : List UInt8} {n : Nat} (noNulA : (0 : UInt8) ∉ as)
    (noNulB : (0 : UInt8) ∉ bs) (fitsA : as.length ≤ n) (fitsB : bs.length ≤ n) :
    strncmp as bs n = 0 ↔ as = bs := by
  induction n generalizing as bs with
  | zero =>
      have emptyA : as = [] := List.eq_nil_of_length_eq_zero (Nat.le_zero.mp fitsA)
      have emptyB : bs = [] := List.eq_nil_of_length_eq_zero (Nat.le_zero.mp fitsB)
      simp [emptyA, emptyB, strncmp]
  | succ n ih =>
      have nonzero : ∀ c : UInt8, c ≠ 0 → c.toNat ≠ 0 := fun c different same =>
        different (UInt8.toNat_inj.mp same)
      cases as with
      | nil =>
          cases bs with
          | nil => simp [strncmp]
          | cons b bs =>
              have := nonzero b fun same => noNulB (by simp [same])
              simp only [strncmp]
              constructor
              · omega
              · intro impossible; cases impossible
      | cons a as =>
          cases bs with
          | nil =>
              have := nonzero a fun same => noNulA (by simp [same])
              simp only [strncmp]
              constructor
              · omega
              · intro impossible; cases impossible
          | cons b bs =>
              simp only [strncmp]
              by_cases same : a = b
              · subst same
                rw [if_pos rfl, ih (fun member => noNulA (List.mem_cons_of_mem _ member))
                  (fun member => noNulB (List.mem_cons_of_mem _ member))
                  (Nat.le_of_succ_le_succ fitsA) (Nat.le_of_succ_le_succ fitsB)]
                simp
              · rw [if_neg same]
                have : a.toNat ≠ b.toNat := fun equal => same (UInt8.toNat_inj.mp equal)
                constructor
                · omega
                · intro equal; cases equal; exact absurd rfl same

/-- **Names that fit their field compare equal exactly when they are equal.** -/
theorem Ifname.strncmp_iff (a b : Ifname) : strncmp a.bytes b.bytes lifnamsiz = 0 ↔ a = b := by
  rw [strncmp_eq_zero_iff a.noNul b.noNul a.fits b.fits]
  cases a
  cases b
  simp

/-! ## Records -/

/-- `vrrp_attr_t`. -/
structure VrrpAttr where
  pri : UInt8
  delay : Int
  preeMode : Int
  acceptMode : Int
  deriving DecidableEq

/-- `vrrp_vr_t`; `vrIp` is the array that the pointer `vr_ip` designates. -/
structure VrrpVr where
  vrId : UInt8
  vrAf : Int
  in4 : UInt32
  vrIpnum : UInt8
  vrIp : List UInt32
  vrIfname : Ifname
  deriving DecidableEq

/-- `vrrp_inst_t`: what a create request and an advertisement carry. -/
structure VrrpInst where
  viVa : VrrpAttr
  viVr : VrrpVr
  viState : UInt8
  viActive : Int
  deriving DecidableEq

/-- `vrrpd_ds_t` without the links of the list of instances. -/
structure VrrpdDs where
  vr : VrPtr
  active : Int
  state : VrrpState
  pid : Nat
  deriving DecidableEq

/-- `vrrpd_vr_ds_t` without the links and the timeout of the timer queue. -/
structure VrrpdVrDs where
  attr : VrrpAttr
  vr : VrrpVr
  parent : DsPtr
  deriving DecidableEq

/-- The part of a received frame that the daemon looks at: three fields of the
IP header and the `vrrp_inst_t` that follows it. -/
structure Frame where
  version : Nat
  protocol : Nat
  ttl : Nat
  inst : VrrpInst
  deriving DecidableEq

/-- The arguments by which commands and frames designate an instance. A null
or empty name, `AF_UNSPEC` and VRID 0 act as wildcards in `vrrp_search_inst`. -/
structure Key where
  vid : UInt8
  ifname : Option Ifname
  af : Int
  deriving DecidableEq

/-- The key a create request asks for. -/
def VrrpInst.key (inst : VrrpInst) : Key :=
  ⟨inst.viVr.vrId, some inst.viVr.vrIfname, inst.viVr.vrAf⟩

/-! ## Times -/

/-- The macro `VRRP_SEC2USEC`. -/
def vrrpSec2usec (t : Int) : Int := t * 1000000

/-- A C `int` stored into the unsigned `vrrp_timeout_t`. -/
def toTimeout (t : Int) : UInt32 := UInt32.ofInt t

/-- What the daemon does not decide: what the `k`-th call of `ualarm` returns,
the pid or the failure of the `k`-th `fork`, whether the `k`-th `malloc`
succeeds, and the value an uninitialised local happens to hold. -/
structure World where
  ualarm : Nat → UInt32
  fork : Nat → Option Nat
  malloc : Nat → Bool
  uninitialised : Int

end VrrpDaemon
