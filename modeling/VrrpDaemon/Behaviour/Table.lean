import VrrpDaemon.Behaviour.Keys
import VrrpDaemon.Behaviour.Queue
import VrrpDaemon.Model.Table

/-!
# The table that the daemon shows

The listed instances, read off the records in memory, are a table of virtual routers
(`Daemon.table`). A key finds in it what `vrrp_search_inst` finds (`Linked.find_table`), and a
step that alters one instance alters one router (`Turns.table`).
-/

set_option autoImplicit false

namespace VrrpDaemon

open Machine

namespace Daemon

variable {w : World} {s s' : Daemon} {nodes : List DsPtr} {key : Key} {v : DsPtr}

/-- What the records of an instance say of a virtual router. -/
def router (s : Daemon) (v : DsPtr) : VirtualRouter where
  vr := (s.vr v).vr
  attr := (s.vr v).attr
  state := (s.ds v).state
  active := (s.ds v).active

theorem router_state (s : Daemon) (v : DsPtr) : (s.router v).state = (s.ds v).state := rfl

/-- The table of the listed instances. -/
def table (s : Daemon) (nodes : List DsPtr) : Table := ⟨nodes.map s.router, s.flag⟩

/-- The daemon shows the table: it is that of the instances in its list. No two of them share a
full key. -/
def Presents (s : Daemon) (t : Table) : Prop :=
  ∃ nodes, s.Linked nodes ∧ s.DistinctAmong (·.isFull = true) nodes ∧ t = s.table nodes

theorem presents_initial : initial.Presents .empty :=
  ⟨[], linked_initial, by simp [DistinctAmong], rfl⟩

/-! ## Searching -/

theorem fits_router (key : Key) (v : DsPtr) : (s.router v).fits key = s.matchesPart key v := rfl

theorem onlyOne_map {α β : Type} (f : α → β) (l : List α) :
    onlyOne (l.map f) = (onlyOne l).map f := by
  match l with
  | [] | [_] | _ :: _ :: _ => rfl

/-- **A key finds in the table what it finds in the list.** -/
theorem Linked.find_table (linked : s.Linked nodes)
    (distinct : s.DistinctAmong (·.isFull = true) nodes) {found : Option DsPtr}
    (searched : s.vrrpSearchInst key = .ok found) :
    (s.table nodes).find key = found.map s.router := by
  have tests : VirtualRouter.fits key ∘ s.router = s.matchesPart key := funext (fits_router key)
  have selected := linked.select_of_search searched
  rw [select_eq_onlyOne linked.nodup distinct] at selected
  rw [Table.find, table, List.filter_map, tests, onlyOne_map, selected]

/-- A found instance is the only one that the key fits. -/
theorem Linked.fits_iff (linked : s.Linked nodes)
    (distinct : s.DistinctAmong (·.isFull = true) nodes)
    (searched : s.vrrpSearchInst key = .ok (some v)) {u : DsPtr} (member : u ∈ nodes) :
    (s.router u).fits key = true ↔ u = v := by
  have only := (linked.search_iff distinct).mp searched u
  rw [linked.listed_iff, and_iff_right member] at only
  rw [fits_router, only]

/-! ## Altering one instance -/

/-- One instance, as a router, is altered, and nothing else that the table shows. -/
structure Turns (s s' : Daemon) (nodes : List DsPtr) (v : DsPtr)
    (f : VirtualRouter → VirtualRouter) : Prop where
  here : s'.router v = f (s.router v)
  others : ∀ u ∈ nodes, u ≠ v → s'.router u = s.router u
  flag : s'.flag = s.flag

/-- **An altered instance is an altered router.** -/
theorem Turns.table {f : VirtualRouter → VirtualRouter} (turns : s.Turns s' nodes v f)
    (linked : s.Linked nodes) (distinct : s.DistinctAmong (·.isFull = true) nodes)
    (searched : s.vrrpSearchInst key = .ok (some v)) :
    s'.table nodes = (s.table nodes).change key f := by
  rw [Daemon.table, Daemon.table, Table.change, turns.flag, List.map_map]
  congr 1
  refine List.map_congr_left fun u member => ?_
  rw [Function.comp_apply]
  by_cases own : u = v
  · rw [if_pos ((linked.fits_iff distinct searched member).mpr own), own, turns.here]
  · rw [if_neg fun fits => own ((linked.fits_iff distinct searched member).mp fits),
      turns.others u member own]

/-- Altered twice. -/
theorem Turns.trans {s₁ : Daemon} {f g : VirtualRouter → VirtualRouter}
    (first : s.Turns s₁ nodes v f) (second : s₁.Turns s' nodes v g) :
    s.Turns s' nodes v fun r => g (f r) where
  here := by rw [second.here, first.here]
  others u member other := by rw [second.others u member other, first.others u member other]
  flag := second.flag.trans first.flag

/-- The queue is not seen. -/
theorem router_of_core (same : s'.core = s.core) : s'.router = s.router := by
  funext v
  rw [router, router, vr, vr, ds_of_core same, vrs_of_core same]

theorem table_of_core (same : s'.core = s.core) : s'.table nodes = s.table nodes := by
  rw [table, table, router_of_core same, flag_of_core same]

theorem Turns.of_core {t t' : Daemon} {f : VirtualRouter → VirtualRouter}
    (turns : s.Turns s' nodes v f) (before : t.core = s.core) (after : t'.core = s'.core) :
    t.Turns t' nodes v f where
  here := by rw [router_of_core after, router_of_core before, turns.here]
  others u member other := by
    rw [router_of_core after, router_of_core before, turns.others u member other]
  flag := by rw [flag_of_core after, flag_of_core before, turns.flag]

/-- No transition changes the member `active`. -/
theorem active_stable : Stable fun s v => (s.ds v).active where
  core _ := rfl
  state s v state := by
    funext u
    by_cases here : u = v
    · rw [here, setState_ds_self]
    · rw [setState_ds_other _ _ _ here]
  pid s v pid := by
    funext u
    by_cases here : u = v <;> simp [setPid, setDs, here]
  flag _ _ _ := rfl
  emit _ _ := rfl
  forks _ _ := rfl

/-- Where the records of VRs stay, only the states of routers change. -/
theorem router_of_stable (shape : s'.shape = s.shape) (vrs : s'.vrs = s.vrs)
    (active : (s'.ds v).active = (s.ds v).active) :
    s'.router v = (s.router v).enter (s'.ds v).state := by
  rw [router, router, VirtualRouter.enter, vr, vr, vrs, vr_of_shape shape, active]

theorem turns_setState (state : VrrpState) :
    s.Turns (s.setState v state) nodes v (·.enter state) := by
  have own : ∀ u, (s.setState v state).router u =
      (s.router u).enter ((s.setState v state).ds u).state := fun u =>
    router_of_stable (shape_stable.state s v state) (vrs_stable.state s v state)
      (congrFun (active_stable.state s v state) u)
  refine ⟨?_, fun u _ other => ?_, rfl⟩
  · rw [own, setState_ds_self]
  · rw [own, setState_ds_other _ _ _ other]
    rfl

theorem turns_execution (trans : VrrpStateTrans) (f : VirtualRouter → VirtualRouter)
    (turns : s.Turns s' nodes v f) : s.Turns (s'.executed w trans v) nodes v f := by
  have own : ∀ u, (s'.executed w trans v).router u = s'.router u := fun u => by
    rw [router_of_stable (shape_stable.execution trans v) (vrs_stable.execution trans v)
      (congrFun (active_stable.execution trans v) u), state_execution]
    rfl
  exact ⟨(own v).trans turns.here, fun u member other => (own u).trans (turns.others u member other),
    (flag_execution trans).trans turns.flag⟩

theorem turns_promote (trans : VrrpStateTrans) :
    s.Turns (s.promote w trans v) nodes v (·.enter .mast) :=
  turns_execution trans _ (turns_setState .mast)

theorem turns_leave (trans : VrrpStateTrans) (state : VrrpState) :
    s.Turns (s.leave w trans state v) nodes v (·.enter state) :=
  turns_execution trans _ (turns_setState state)

/-- The attributes of a VR are those of one instance. -/
theorem Linked.turns_setAttr (linked : s.Linked nodes) (member : v ∈ nodes) (attr : VrrpAttr) :
    s.Turns (s.setAttr (s.ds v).vr attr) nodes v fun r => { r with attr := attr } where
  here := by simp [router, vr, setAttr]
  others u memberU other := by
    have apart : (s.ds u).vr ≠ (s.ds v).vr := fun same =>
      other (linked.vr_inj memberU member same)
    simp [router, vr, setAttr, Function.update_of_ne apart]
  flag := rfl

end Daemon

end VrrpDaemon
