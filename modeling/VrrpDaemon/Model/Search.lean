import VrrpDaemon.Model.Daemon

/-!
# Searching the list of instances

`vrrp_search_inst` and the two loops behind it, of `vrrpd_impl.c`. A key whose
parts are all given is looked up by `vrrp_search_inst_full`, which returns the
first match. Any other key goes to `vrrp_search_inst_part`, where a missing part
matches everything and a second match makes the result null.

A loop along the list is bounded by the number of instances allocated: a longer
walk has come back to a node and never ends. Along a list that ends the loops
return what `List.find?` and `List.filter` say (`vrrpSearchInst_eq`).
-/

set_option autoImplicit false

namespace VrrpDaemon

open Machine

/-- `ifname == NULL || ifname[0] == '\0'`. -/
def nameMissing : Option Ifname → Bool
  | none => true
  | some name => name.bytes.isEmpty

/-- `!strncmp(ifname, name, LIFNAMSIZ)` for a pointer that is not null. -/
def sameName (ifname : Option Ifname) (name : Ifname) : Bool :=
  match ifname with
  | none => false
  | some given => strncmp given.bytes name.bytes lifnamsiz = 0

/-- Every part of the key is given. -/
def Key.isFull (key : Key) : Bool :=
  key.vid ≠ 0 && !nameMissing key.ifname && key.af ≠ 0

/-- No part of the key is given: where `vrrp_get_instx` starts, and what it
returns at the end. -/
def Key.isWildcard (key : Key) : Bool :=
  key.vid = 0 && key.af = afUnspec && nameMissing key.ifname

theorem Ifname.zero_notMem_nil : (0 : UInt8) ∉ ([] : List UInt8) := List.not_mem_nil

/-- `(0, "", AF_UNSPEC)`. -/
def Key.wildcard : Key := ⟨0, some ⟨[], Ifname.zero_notMem_nil, Nat.zero_le _⟩, afUnspec⟩

namespace Daemon

/-- The test in the loop of `vrrp_search_inst_full`. -/
def matchesFull (s : Daemon) (key : Key) (curr : DsPtr) : Bool :=
  s.vrrpId curr = key.vid && s.vrrpAf curr = key.af && sameName key.ifname (s.vrrpIfname curr)

/-- The three nested tests in the loop of `vrrp_search_inst_part`. -/
def matchesPart (s : Daemon) (key : Key) (curr : DsPtr) : Bool :=
  (key.vid = 0 || s.vrrpId curr = key.vid) &&
    (key.af = afUnspec || s.vrrpAf curr = key.af) &&
      (nameMissing key.ifname || sameName key.ifname (s.vrrpIfname curr))

/-- The loop of `vrrp_search_inst_full`. -/
def searchFullLoop (s : Daemon) (key : Key) : Nat → Option DsPtr → Result (Option DsPtr)
  | _, none => .ok none
  | 0, some _ => .error .diverges
  | fuel + 1, some curr =>
      if s.matchesFull key curr then .ok (some curr)
      else searchFullLoop s key fuel (s.next curr)

/-- The loop of `vrrp_search_inst_part`, with the variables `num` and `rtn`. -/
def searchPartLoop (s : Daemon) (key : Key) :
    Nat → Nat → Option DsPtr → Option DsPtr → Result (Option DsPtr)
  | _, _, rtn, none => .ok rtn
  | 0, _, _, some _ => .error .diverges
  | fuel + 1, num, rtn, some curr =>
      if s.matchesPart key curr then
        if num + 1 > 1 then .ok none
        else searchPartLoop s key fuel (num + 1) (some curr) (s.next curr)
      else searchPartLoop s key fuel num rtn (s.next curr)

/-- `vrrp_search_inst_full`. -/
def vrrpSearchInstFull (s : Daemon) (key : Key) : Result (Option DsPtr) :=
  s.searchFullLoop key s.dsTop (s.next instRuntimeList)

/-- `vrrp_search_inst_part`. -/
def vrrpSearchInstPart (s : Daemon) (key : Key) : Result (Option DsPtr) :=
  s.searchPartLoop key s.dsTop 0 none (s.next instRuntimeList)

/-- `vrrp_search_inst`. -/
def vrrpSearchInst (s : Daemon) (key : Key) : Result (Option DsPtr) :=
  if key.isFull then s.vrrpSearchInstFull key else s.vrrpSearchInstPart key

/-- `vrrp_search_vr`. -/
def vrrpSearchVr (s : Daemon) (key : Key) : Result (Option VrPtr) := do
  let curr ← s.vrrpSearchInst key
  .ok (curr.map fun v => (s.ds v).vr)

/-- `vrrp_check_conflict`. -/
def vrrpCheckConflict (s : Daemon) (key : Key) : Result Int := do
  match ← s.vrrpSearchVr key with
  | none => .ok VrrpRet.success.code
  | some _ => .ok (-1)

/-! ## What the loops return along a list that ends -/

theorem searchFullLoop_eq {s : Daemon} {key : Key} {nodes : List DsPtr} {start : Option DsPtr}
    {fuel : Nat} (segment : Segment s.next start nodes none) (enough : nodes.length ≤ fuel) :
    s.searchFullLoop key fuel start = .ok (nodes.find? (s.matchesFull key)) := by
  induction nodes generalizing start fuel with
  | nil =>
      obtain rfl : start = none := segment
      cases fuel <;> rfl
  | cons v nodes ih =>
      obtain ⟨rfl, rest⟩ := segment
      cases fuel with
      | zero => cases enough
      | succ fuel =>
          simp only [searchFullLoop, List.find?_cons]
          cases found : s.matchesFull key v with
          | true => rfl
          | false => exact ih rest (Nat.le_of_succ_le_succ enough)

/-- After a first match the loop looks for a second one. -/
theorem searchPartLoop_one {s : Daemon} {nodes : List DsPtr} {start : Option DsPtr}
    {fuel : Nat} (key : Key) (first : DsPtr) (segment : Segment s.next start nodes none)
    (enough : nodes.length ≤ fuel) :
    s.searchPartLoop key fuel 1 (some first) start =
      .ok (if nodes.filter (s.matchesPart key) = [] then some first else none) := by
  induction nodes generalizing start fuel with
  | nil =>
      obtain rfl : start = none := segment
      cases fuel <;> rfl
  | cons v nodes ih =>
      obtain ⟨rfl, rest⟩ := segment
      cases fuel with
      | zero => cases enough
      | succ fuel =>
          simp only [searchPartLoop, List.filter_cons]
          cases found : s.matchesPart key v with
          | true => simp
          | false => simpa using ih rest (Nat.le_of_succ_le_succ enough)

/-- The only element of a list, if it has exactly one. -/
def onlyOne {α : Type} : List α → Option α
  | [a] => some a
  | _ => none

theorem searchPartLoop_eq {s : Daemon} {key : Key} {nodes : List DsPtr} {start : Option DsPtr}
    {fuel : Nat} (segment : Segment s.next start nodes none) (enough : nodes.length ≤ fuel) :
    s.searchPartLoop key fuel 0 none start =
      .ok (onlyOne (nodes.filter (s.matchesPart key))) := by
  induction nodes generalizing start fuel with
  | nil =>
      obtain rfl : start = none := segment
      cases fuel <;> rfl
  | cons v nodes ih =>
      obtain ⟨rfl, rest⟩ := segment
      cases fuel with
      | zero => cases enough
      | succ fuel =>
          simp only [searchPartLoop, List.filter_cons]
          cases found : s.matchesPart key v with
          | true =>
              have one := searchPartLoop_one key v rest
                (Nat.le_of_succ_le_succ enough)
              simp only [reduceIte, Nat.zero_add, gt_iff_lt, Nat.lt_irrefl, one]
              cases nodes.filter (s.matchesPart key) with
              | nil => rfl
              | cons w others => rfl
          | false => simpa using ih rest (Nat.le_of_succ_le_succ enough)

/-- The instance that `vrrp_search_inst` selects among the listed ones. -/
def select (s : Daemon) (key : Key) (nodes : List DsPtr) : Option DsPtr :=
  if key.isFull then nodes.find? (s.matchesFull key)
  else onlyOne (nodes.filter (s.matchesPart key))

/-- **The search terminates along a list that ends, and selects by the key.** -/
theorem vrrpSearchInst_eq {s : Daemon} {key : Key} {nodes : List DsPtr}
    (segment : Segment s.next (s.next instRuntimeList) nodes none)
    (enough : nodes.length ≤ s.dsTop) : s.vrrpSearchInst key = .ok (s.select key nodes) := by
  unfold vrrpSearchInst select
  cases key.isFull with
  | true => exact searchFullLoop_eq segment enough
  | false => exact searchPartLoop_eq segment enough

theorem onlyOne_mem {α : Type} {l : List α} {a : α} (only : onlyOne l = some a) : l = [a] := by
  match l, only with
  | [b], rfl => rfl

/-- A selected instance is listed. -/
theorem select_mem {s : Daemon} {key : Key} {nodes : List DsPtr} {v : DsPtr}
    (selected : s.select key nodes = some v) : v ∈ nodes := by
  unfold select at selected
  split at selected
  · exact List.mem_of_find?_eq_some selected
  · have member : v ∈ nodes.filter (s.matchesPart key) := by simp [onlyOne_mem selected]
    exact (List.mem_filter.mp member).1

/-- With every part given, both tests ask for the same key. -/
theorem matchesPart_of_full {s : Daemon} {key : Key} (full : key.isFull = true) :
    s.matchesPart key = s.matchesFull key := by
  funext v
  simp only [Key.isFull, Bool.and_eq_true, decide_eq_true_eq, Bool.not_eq_eq_eq_not,
    Bool.not_true] at full
  obtain ⟨⟨vid, name⟩, af⟩ := full
  simp [matchesPart, matchesFull, vid, name, af, afUnspec]

/-- **With every part given, an instance matches exactly when the key is its own.** -/
theorem matchesFull_iff {s : Daemon} {key : Key} (full : key.isFull = true) {v : DsPtr} :
    s.matchesFull key v = true ↔ s.key v = key := by
  obtain ⟨vid, name, af⟩ := key
  cases name with
  | none => simp [Key.isFull, nameMissing] at full
  | some name =>
      simp only [matchesFull, sameName, Bool.and_eq_true, decide_eq_true_eq,
        Ifname.strncmp_iff, key, Key.mk.injEq, Option.some.injEq]
      constructor
      · rintro ⟨⟨rfl, rfl⟩, rfl⟩
        exact ⟨rfl, rfl, rfl⟩
      · rintro ⟨rfl, rfl, rfl⟩
        exact ⟨⟨rfl, rfl⟩, rfl⟩

/-- The tests read only the shape of the heap. -/
theorem matchesFull_congr {s s' : Daemon} (same : s'.shape = s.shape) :
    s'.matchesFull = s.matchesFull := by
  have keys : ∀ v, s'.key v = s.key v := fun v => by rw [key_eq, key_eq, same]
  funext key v
  have parts := keys v
  simp only [Daemon.key, Key.mk.injEq, Option.some.injEq] at parts
  simp only [matchesFull, parts.1, parts.2.1, parts.2.2]

theorem matchesPart_congr {s s' : Daemon} (same : s'.shape = s.shape) :
    s'.matchesPart = s.matchesPart := by
  have keys : ∀ v, s'.key v = s.key v := fun v => by rw [key_eq, key_eq, same]
  funext key v
  have parts := keys v
  simp only [Daemon.key, Key.mk.injEq, Option.some.injEq] at parts
  simp only [matchesPart, parts.1, parts.2.1, parts.2.2]

/-- Selection reads only the shape of the heap. -/
theorem select_congr {s s' : Daemon} (same : s'.shape = s.shape) :
    s'.select = s.select := by
  funext key nodes
  simp only [select, matchesFull_congr same, matchesPart_congr same]

end Daemon

end VrrpDaemon
