import VrrpDaemon.Behaviour.Steps

/-!
# The effects of leaving `MAST`

An instance that leaves `MAST` sends an advertisement of priority 0 and signals
its router. `Orderly` is the grammar of logs in which this happens exactly once
for each departure and at no other time: a departure is a block of three
effects, and an entry into `MAST` is a block of two.

The daemon writes such logs as long as its steps meet `EffectsSafe`: a master
leaves only when its last fork had succeeded, only masters are destroyed, and no
master of priority 0 is served by an alarm (`departures_of_run`).
-/

set_option autoImplicit false

namespace VrrpDaemon

open Machine

/-! ## Orderly logs -/

/-- What `fork` returned when the instance last entered `MAST`, if it ever did. -/
def lastFork (v : DsPtr) (log : List Effect) : Option (Option Nat) :=
  log.foldl (fun last effect =>
    match effect with
    | .fork u child => if u = v then some child else last
    | _ => last) none

/-- Logs in which the effects of leaving `MAST` happen once for each departure and
at no other time. -/
inductive Orderly : List Effect → Prop where
  | nil : Orderly []
  | advert {log : List Effect} {v : DsPtr} {frame : Frame} (before : Orderly log)
      (regular : frame.inst.viVa.pri ≠ 0) : Orderly (log ++ [.advert v frame])
  | move {log : List Effect} {v : DsPtr} {old new : VrrpState} (before : Orderly log)
      (notFrom : old ≠ .mast) (notTo : new ≠ .mast) : Orderly (log ++ [.state v old new])
  | enter {log : List Effect} {v : DsPtr} {old : VrrpState} {child : Option Nat}
      (before : Orderly log) (notFrom : old ≠ .mast) :
      Orderly (log ++ [.state v old .mast, .fork v child])
  | leave {log : List Effect} {v : DsPtr} {new : VrrpState} {frame : Frame} {pid : Nat}
      (before : Orderly log) (target : new = .back ∨ new = .init) (stop : frame.inst.viVa.pri = 0)
      (real : pid ≠ 0) (own : lastFork v log = some (some pid))
      (first : ∀ u, .sigint u pid ∉ log) :
      Orderly (log ++ [.state v .mast new, .advert v frame, .sigint v pid])

/-- A position in an extended log lies in the old part or in the new one. -/
theorem split_append {α : Type} {log block pre post : List α} {x : α}
    (split : log ++ block = pre ++ x :: post) :
    (∃ rest, log = pre ++ x :: rest ∧ post = rest ++ block) ∨
      ∃ front, pre = log ++ front ∧ block = front ++ x :: post := by
  rcases List.append_eq_append_iff.mp split with ⟨front, before, inside⟩ | ⟨rest, before, inside⟩
  · exact .inr ⟨front, before, inside⟩
  · cases rest with
    | nil => exact .inr ⟨[], by simpa using before.symm, inside.symm⟩
    | cons y rest =>
        obtain ⟨rfl, after⟩ := List.cons.inj inside
        exact .inl ⟨rest, before, after⟩

/-- What a log says about the effects of leaving `MAST`, position by position. -/
structure Departs (log : List Effect) : Prop where
  /-- Priority 0 is sent only right after a move from `MAST` to `BACK` or `INIT`. -/
  advert : ∀ pre v frame post, log = pre ++ .advert v frame :: post → frame.inst.viVa.pri = 0 →
    ∃ front new, pre = front ++ [.state v .mast new] ∧ (new = .back ∨ new = .init)
  /-- Each move out of `MAST` sends priority 0 and a signal. -/
  moves : ∀ pre v new post, log = pre ++ .state v .mast new :: post →
    ∃ frame pid rest, post = .advert v frame :: .sigint v pid :: rest ∧ frame.inst.viVa.pri = 0
  /-- A signal goes to the child of the last entry into `MAST`, for the first time. -/
  signal : ∀ pre v pid post, log = pre ++ .sigint v pid :: post →
    pid ≠ 0 ∧ lastFork v pre = some (some pid) ∧ ∀ u, .sigint u pid ∉ pre
  /-- Children are forked only on an entry into `MAST`. -/
  fork : ∀ pre v child post, log = pre ++ .fork v child :: post →
    ∃ front old, pre = front ++ [.state v old .mast]

/-- Effects that are no forks do not change the last fork. -/
theorem lastFork_append (v : DsPtr) (log block : List Effect)
    (none : ∀ u child, .fork u child ∉ block) : lastFork v (log ++ block) = lastFork v log := by
  unfold lastFork
  rw [List.foldl_append]
  generalize List.foldl _ _ log = last
  induction block generalizing last with
  | nil => rfl
  | cons effect block ih =>
      rw [List.foldl_cons]
      have here : effect ∈ effect :: block := List.mem_cons_self
      cases effect with
      | fork u child => exact absurd here (none u child)
      | state | sigint | advert =>
          exact ih (fun u child member => none u child (List.mem_cons_of_mem _ member)) last

theorem lastFork_fork (u v : DsPtr) (log : List Effect) (child : Option Nat) :
    lastFork v (log ++ [.fork u child]) = if u = v then some child else lastFork v log := by
  simp [lastFork, List.foldl_append]

/-- The last fork is in the log. -/
theorem mem_of_lastFork {v : DsPtr} {log : List Effect} {child : Option Nat}
    (last : lastFork v log = some child) : .fork v child ∈ log := by
  induction log using List.reverseRecOn with
  | nil => cases last
  | append_singleton log effect ih =>
      cases effect with
      | fork u other =>
          rw [lastFork_fork] at last
          split at last
          · rename_i here
            subst here
            cases last
            simp
          · exact List.mem_append_left _ (ih last)
      | state | sigint | advert =>
          rw [lastFork_append _ _ _ (by simp)] at last
          exact List.mem_append_left _ (ih last)

/-- A log that departs as it should, extended by a block whose own positions are
right behind it. -/
theorem Departs.append {log block : List Effect} (departs : Departs log)
    (advert : ∀ (front : List Effect) v frame (post : List Effect),
      block = front ++ .advert v frame :: post → frame.inst.viVa.pri = 0 →
        ∃ (before : List Effect) (new : VrrpState),
          log ++ front = before ++ [.state v .mast new] ∧ (new = .back ∨ new = .init))
    (moves : ∀ (front : List Effect) v new (post : List Effect),
      block = front ++ .state v .mast new :: post →
        ∃ (frame : Frame) (pid : Nat) (rest : List Effect),
          post = .advert v frame :: .sigint v pid :: rest ∧ frame.inst.viVa.pri = 0)
    (signal : ∀ (front : List Effect) v pid (post : List Effect),
      block = front ++ .sigint v pid :: post →
        pid ≠ 0 ∧ lastFork v (log ++ front) = some (some pid) ∧ ∀ u, .sigint u pid ∉ log ++ front)
    (fork : ∀ (front : List Effect) v child (post : List Effect),
      block = front ++ .fork v child :: post →
        ∃ (before : List Effect) (old : VrrpState), log ++ front = before ++ [.state v old .mast]) :
    Departs (log ++ block) where
  advert pre v frame post split stop := by
    rcases split_append split with ⟨rest, before, -⟩ | ⟨front, rfl, inside⟩
    · exact departs.advert pre v frame rest before stop
    · exact advert front v frame post inside stop
  moves pre v new post split := by
    rcases split_append split with ⟨rest, before, rfl⟩ | ⟨front, rfl, inside⟩
    · obtain ⟨frame, pid, tail, rfl, stop⟩ := departs.moves pre v new rest before
      exact ⟨frame, pid, tail ++ block, rfl, stop⟩
    · exact moves front v new post inside
  signal pre v pid post split := by
    rcases split_append split with ⟨rest, before, -⟩ | ⟨front, rfl, inside⟩
    · exact departs.signal pre v pid rest before
    · exact signal front v pid post inside
  fork pre v child post split := by
    rcases split_append split with ⟨rest, before, -⟩ | ⟨front, rfl, inside⟩
    · exact departs.fork pre v child rest before
    · exact fork front v child post inside

/-- **An orderly log departs as it should.** -/
theorem Orderly.departs {log : List Effect} (orderly : Orderly log) : Departs log := by
  induction orderly with
  | nil => exact ⟨by simp, by simp, by simp, by simp⟩
  | advert _ regular ih =>
      refine ih.append ?_ ?_ ?_ ?_ <;> simp [List.cons_eq_append_iff]
      rintro front v frame post - - rfl - stop
      exact absurd stop regular
  | move _ notFrom notTo ih =>
      refine ih.append ?_ ?_ ?_ ?_ <;> simp [List.cons_eq_append_iff]
      rintro front v new post - - here
      exact absurd here.symm notFrom
  | enter _ notFrom ih =>
      refine ih.append ?_ ?_ ?_ ?_ <;> simp [List.cons_eq_append_iff]
      · rintro front v new post - - here
        exact absurd here.symm notFrom
      · rintro front v child post rfl rfl - -
        exact ⟨_, _, rfl⟩
  | leave _ target stop real own first ih =>
      refine ih.append ?_ ?_ ?_ ?_ <;> simp [List.cons_eq_append_iff]
      · rintro front v frame post rfl rfl - - -
        exact ⟨_, _, rfl, target⟩
      · rintro front v new post - rfl - rfl
        exact ⟨_, ⟨_, _, rfl⟩, stop⟩
      · rintro front v pid post rfl rfl rfl -
        refine ⟨real, ?_, by simpa using first⟩
        rw [lastFork_append _ _ _ (by simp)]
        exact own

/-! ## The invariant -/

/-- `fork` returns positive pids, and no pid twice. -/
structure World.ForksFresh (w : World) : Prop where
  positive : ∀ k, w.fork k ≠ some 0
  injective : ∀ j k p, w.fork j = some p → w.fork k = some p → j = k

namespace Daemon

variable {w : World} {s s' : Daemon} {nodes : List DsPtr}

/-- Every child is accounted for: it has been signalled, or it is the router of
an instance in `MAST`, forked when that entered it. -/
structure Accounted (w : World) (s : Daemon) (nodes : List DsPtr) : Prop where
  linked : s.Linked nodes
  backups : ∀ v, (s.ds v).state = .back → v ∈ nodes
  orderly : Orderly s.effects
  allocated : ∀ v c, .fork v c ∈ s.effects → v < s.dsTop
  issued : ∀ v p, .fork v (some p) ∈ s.effects → ∃ k, k < s.forkCalls ∧ w.fork k = some p
  owner : ∀ u v p, .fork u (some p) ∈ s.effects → .fork v (some p) ∈ s.effects → u = v
  signalled : ∀ v p, .sigint v p ∈ s.effects → .fork v (some p) ∈ s.effects
  router : ∀ v, (s.ds v).state = .mast → ∀ p, lastFork v s.effects = some (some p) →
    (s.ds v).pid = p ∧ .sigint v p ∉ s.effects
  settled : ∀ v p, .fork v (some p) ∈ s.effects → .sigint v p ∈ s.effects ∨
    ((s.ds v).state = .mast ∧ lastFork v s.effects = some (some p))
  unlinked : ∀ v, v ∉ nodes → (s.ds v).state = .mast → ∀ p, lastFork v s.effects ≠ some (some p)

theorem accounted_initial : Accounted w initial [] where
  linked := linked_initial
  backups _ impossible := by cases impossible
  orderly := .nil
  allocated := nofun
  issued := nofun
  owner := nofun
  signalled := nofun
  router _ impossible := by cases impossible
  settled := nofun
  unlinked _ _ impossible := by cases impossible

namespace Accounted

/-- Changes that touch neither states nor effects are no part of the account. -/
theorem congr (accounted : Accounted w s nodes) (shape : s'.shape = s.shape) (ds : s'.ds = s.ds)
    (effects : s'.effects = s.effects) (forkCalls : s'.forkCalls = s.forkCalls) :
    Accounted w s' nodes where
  linked := accounted.linked.of_shape shape
  backups := by rw [ds]; exact accounted.backups
  orderly := by rw [effects]; exact accounted.orderly
  allocated := by
    rw [effects, dsTop_of_shape shape]
    exact accounted.allocated
  issued := by rw [effects, forkCalls]; exact accounted.issued
  owner := by rw [effects]; exact accounted.owner
  signalled := by rw [effects]; exact accounted.signalled
  router := by rw [effects, ds]; exact accounted.router
  settled := by rw [effects, ds]; exact accounted.settled
  unlinked := by rw [effects, ds]; exact accounted.unlinked

/-- The queue is no part of the account. -/
theorem of_core (accounted : Accounted w s nodes) (same : s'.core = s.core) :
    Accounted w s' nodes :=
  accounted.congr (shape_of_core same) (ds_of_core same) (effects_of_core same)
    (forkCalls_of_core same)

/-- An instance that enters `MAST` gets a new child. -/
theorem promote {v : DsPtr} {trans : VrrpStateTrans} (accounted : Accounted w s nodes)
    (fresh : w.ForksFresh) (enters : trans = .initToMast ∨ trans = .backToMast)
    (member : v ∈ nodes) (notMaster : (s.ds v).state ≠ .mast) :
    Accounted w (s.promote w trans v) nodes := by
  have shape : (s.promote w trans v).shape = s.shape := shape_promote trans v
  rw [promote_eq w v s enters] at shape ⊢
  generalize returned : w.fork s.forkCalls = child at shape ⊢
  have unused : ∀ u p, .fork u (some p) ∈ s.effects → child ≠ some p := by
    intro u p forked now
    obtain ⟨k, below, earlier⟩ := accounted.issued u p forked
    exact Nat.ne_of_lt below (fresh.injective _ _ p earlier (returned.trans now))
  have forks : ∀ u p, .fork u (some p) ∈ s.effects ++
      ([.state v (s.ds v).state .mast, .fork v child] : List Effect) ↔
      .fork u (some p) ∈ s.effects ∨ (u = v ∧ some p = child) := by simp
  have signals : ∀ u p, .sigint u p ∈ s.effects ++
      ([.state v (s.ds v).state .mast, .fork v child] : List Effect) ↔
      .sigint u p ∈ s.effects := by simp
  have last : ∀ u, lastFork u
      (s.effects ++ ([.state v (s.ds v).state .mast, .fork v child] : List Effect)) =
      if v = u then some child else lastFork u s.effects := by
    intro u
    rw [List.append_cons, lastFork_fork, lastFork_append _ _ _ (by simp)]
  refine ⟨accounted.linked.of_shape shape, ?_, accounted.orderly.enter notMaster, ?_, ?_, ?_, ?_,
    ?_, ?_, ?_⟩
  · intro u backup
    by_cases here : u = v
    · exact here ▸ member
    · exact accounted.backups u (by simpa [Function.update_of_ne here] using backup)
  · intro u c forked
    have cases_ : .fork u c ∈ s.effects ∨ u = v ∧ c = child := by simpa using forked
    rcases cases_ with old | ⟨rfl, -⟩
    · exact accounted.allocated u c old
    · exact accounted.linked.allocated u member
  · intro u p forked
    rcases (forks u p).mp forked with old | ⟨-, now⟩
    · obtain ⟨k, below, earlier⟩ := accounted.issued u p old
      exact ⟨k, Nat.lt_succ_of_lt below, earlier⟩
    · exact ⟨s.forkCalls, Nat.lt_succ_self _, returned.trans now.symm⟩
  · intro u u' p forked forked'
    rcases (forks u p).mp forked with old | ⟨rfl, now⟩ <;>
      rcases (forks u' p).mp forked' with old' | ⟨rfl, now'⟩
    · exact accounted.owner u u' p old old'
    · exact absurd now'.symm (unused u p old)
    · exact absurd now.symm (unused u' p old')
    · rfl
  · intro u p signal
    exact (forks u p).mpr (.inl (accounted.signalled u p ((signals u p).mp signal)))
  · intro u master p own
    dsimp only at master own ⊢
    rw [last] at own
    rw [signals]
    by_cases here : u = v
    · subst here
      rw [if_pos rfl, Option.some.injEq] at own
      refine ⟨by simp [own], fun signal => ?_⟩
      exact unused u p (accounted.signalled u p signal) own
    · rw [if_neg (Ne.symm here)] at own
      rw [Function.update_of_ne here] at master ⊢
      exact accounted.router u master p own
  · intro u p forked
    dsimp only
    rw [signals, last]
    by_cases here : u = v
    · subst here
      rcases (forks u p).mp forked with old | ⟨-, now⟩
      · rcases accounted.settled u p old with done | ⟨master, -⟩
        · exact .inl done
        · exact absurd master notMaster
      · exact .inr ⟨by simp, by simp [now]⟩
    · rw [if_neg (Ne.symm here), Function.update_of_ne here]
      rcases (forks u p).mp forked with old | ⟨same, -⟩
      · exact accounted.settled u p old
      · exact absurd same here
  · intro u absent master p
    dsimp only at master ⊢
    have here : u ≠ v := fun same => absent (same ▸ member)
    rw [Function.update_of_ne here] at master
    rw [last, if_neg (Ne.symm here)]
    exact accounted.unlinked u absent master p

/-- An instance that leaves `MAST` signals the child of its last entry. -/
theorem leave {v : DsPtr} {trans : VrrpStateTrans} {state : VrrpState} {pid : Nat}
    (accounted : Accounted w s nodes) (fresh : w.ForksFresh)
    (leaves : trans = .mastToBack ∨ trans = .mastToInit) (target : state = .back ∨ state = .init)
    (member : v ∈ nodes) (master : (s.ds v).state = .mast)
    (stands : lastFork v s.effects = some (some pid)) :
    Accounted w (s.leave w trans state v) nodes := by
  have shape : (s.leave w trans state v).shape = s.shape := shape_leave trans state v
  obtain ⟨own, unsignalled⟩ := accounted.router v master pid stands
  have forked := mem_of_lastFork stands
  rw [leave_eq w v s leaves, master, own] at shape ⊢
  generalize built : (s.setState v state).vrrpBuildPkt v 0 = frame at shape ⊢
  have stop : frame.inst.viVa.pri = 0 := by
    rw [← built]
    rfl
  have ds : ∀ u, u ≠ v → (s.setState v state).ds u = s.ds u := fun u other =>
    setState_ds_other v s state other
  have notMaster : ((s.setState v state).ds v).state ≠ .mast := by
    rw [setState_ds_self]
    rcases target with rfl | rfl <;> simp
  have forks : ∀ u c,
      .fork u c ∈ s.effects ++
        ([.state v .mast state, .advert v frame, .sigint v pid] : List Effect) ↔
        .fork u c ∈ s.effects := by simp
  have signals : ∀ u p,
      .sigint u p ∈ s.effects ++
        ([.state v .mast state, .advert v frame, .sigint v pid] : List Effect) ↔
        .sigint u p ∈ s.effects ∨ (u = v ∧ p = pid) := by simp
  have last : ∀ u,
      lastFork u (s.effects ++
        ([.state v .mast state, .advert v frame, .sigint v pid] : List Effect)) =
        lastFork u s.effects := fun u => lastFork_append _ _ _ (by simp)
  have once : ∀ u, .sigint u pid ∉ s.effects := by
    intro u signal
    have same := accounted.owner u v pid (accounted.signalled u pid signal) forked
    exact unsignalled (same ▸ signal)
  have real : pid ≠ 0 := by
    rintro rfl
    obtain ⟨k, -, returned⟩ := accounted.issued v 0 forked
    exact fresh.positive k returned
  refine ⟨accounted.linked.of_shape shape, ?_,
    accounted.orderly.leave target stop real stands once, ?_, ?_, ?_, ?_, ?_, ?_, ?_⟩
  · intro u backup
    by_cases here : u = v
    · exact here ▸ member
    · exact accounted.backups u (by rw [← ds u here]; exact backup)
  · intro u c forked
    exact accounted.allocated u c ((forks u c).mp forked)
  · intro u p forked
    exact accounted.issued u p ((forks u _).mp forked)
  · intro u u' p forked forked'
    exact accounted.owner u u' p ((forks u _).mp forked) ((forks u' _).mp forked')
  · intro u p signal
    rcases (signals u p).mp signal with old | ⟨rfl, rfl⟩
    · exact (forks u _).mpr (accounted.signalled u p old)
    · exact (forks u _).mpr forked
  · intro u masterU p own
    dsimp only at masterU own ⊢
    have here : u ≠ v := by
      rintro rfl
      exact notMaster masterU
    rw [last] at own
    rw [ds u here] at masterU ⊢
    obtain ⟨same, silent⟩ := accounted.router u masterU p own
    refine ⟨same, fun signal => ?_⟩
    rcases (signals u p).mp signal with old | ⟨same, -⟩
    · exact silent old
    · exact here same
  · intro u p forkedU
    dsimp only
    rw [signals, last]
    rcases accounted.settled u p ((forks u _).mp forkedU) with done | ⟨masterU, standsU⟩
    · exact .inl (.inl done)
    · by_cases here : u = v
      · subst here
        cases stands.symm.trans standsU
        exact .inl (.inr ⟨rfl, rfl⟩)
      · rw [ds u here]
        exact .inr ⟨masterU, standsU⟩
  · intro u absent masterU p
    dsimp only at masterU ⊢
    have here : u ≠ v := fun same => absent (same ▸ member)
    rw [ds u here] at masterU
    rw [last]
    exact accounted.unlinked u absent masterU p

/-- A block of effects without forks and signals, with no change of any state into
or out of `MAST`. -/
theorem extend {block : List Effect} (accounted : Accounted w s nodes)
    (shape : s'.shape = s.shape) (forkCalls : s'.forkCalls = s.forkCalls)
    (effects : s'.effects = s.effects ++ block) (orderly : Orderly (s.effects ++ block))
    (noFork : ∀ u c, .fork u c ∉ block) (noSignal : ∀ u p, .sigint u p ∉ block)
    (backups : ∀ v, (s'.ds v).state = .back → v ∈ nodes)
    (masters : ∀ v, (s'.ds v).state = .mast ↔ (s.ds v).state = .mast)
    (pids : ∀ v, (s'.ds v).pid = (s.ds v).pid) : Accounted w s' nodes := by
  have forks : ∀ u c, .fork u c ∈ s'.effects ↔ .fork u c ∈ s.effects := fun u c => by
    simp [effects, noFork u c]
  have signals : ∀ u p, .sigint u p ∈ s'.effects ↔ .sigint u p ∈ s.effects := fun u p => by
    simp [effects, noSignal u p]
  have last : ∀ u, lastFork u s'.effects = lastFork u s.effects := fun u => by
    rw [effects, lastFork_append _ _ _ noFork]
  refine ⟨accounted.linked.of_shape shape, backups, by rw [effects]; exact orderly, ?_, ?_, ?_, ?_,
    ?_, ?_, ?_⟩
  · simp only [forks, dsTop_of_shape shape]
    exact accounted.allocated
  · simp only [forks, forkCalls]
    exact accounted.issued
  · simp only [forks]
    exact accounted.owner
  · simp only [forks, signals]
    exact accounted.signalled
  · simp only [last, signals, masters, pids]
    exact accounted.router
  · simp only [forks, last, signals, masters]
    exact accounted.settled
  · simp only [last, masters]
    exact accounted.unlinked

/-- A change between states other than `MAST`. -/
theorem move {v : DsPtr} {state : VrrpState} (accounted : Accounted w s nodes)
    (member : v ∈ nodes) (notFrom : (s.ds v).state ≠ .mast) (notTo : state ≠ .mast) :
    Accounted w (s.setState v state) nodes := by
  refine accounted.extend (shape_setState ..) rfl rfl (accounted.orderly.move notFrom notTo)
    (by simp) (by simp) ?_ ?_ ?_
  · intro u backup
    by_cases here : u = v
    · exact here ▸ member
    · rw [setState_ds_other v s state here] at backup
      exact accounted.backups u backup
  · intro u
    by_cases here : u = v
    · subst here
      rw [setState_ds_self]
      exact ⟨fun now => absurd now notTo, fun before => absurd before notFrom⟩
    · rw [setState_ds_other v s state here]
  · intro u
    by_cases here : u = v
    · subst here
      rw [setState_ds_self]
    · rw [setState_ds_other v s state here]

/-- A regular advertisement. -/
theorem advert {v : DsPtr} (accounted : Accounted w s nodes) (regular : s.vrrpPri v ≠ 0) :
    Accounted w (s.vrrpSendAdv v 1) nodes := by
  have pri : (s.vrrpBuildPkt v 1).inst.viVa.pri ≠ 0 := regular
  exact accounted.extend rfl rfl rfl (accounted.orderly.advert pri) (by simp) (by simp)
    accounted.backups (fun _ => Iff.rfl) fun _ => rfl

/-- An allocation. -/
theorem of_grows (accounted : Accounted w s nodes) (grows : s.Grows s') :
    Accounted w s' nodes := by
  have running : ∀ v state, state.running = true → (s'.ds v).state = state → s'.ds v = s.ds v := by
    intro v state running now
    rcases grows.idle v with same | ⟨-, idle⟩
    · exact same
    · rw [now, running] at idle
      cases idle
  refine ⟨accounted.linked.of_grows grows, ?_, ?_, ?_, ?_, ?_, ?_, ?_, ?_, ?_⟩
  · intro v backup
    have same := running v .back rfl backup
    rw [same] at backup
    exact accounted.backups v backup
  · rw [grows.effects]
    exact accounted.orderly
  · rw [grows.effects]
    exact fun v c forked => Nat.lt_of_lt_of_le (accounted.allocated v c forked) grows.dsTop
  · rw [grows.effects, grows.forkCalls]
    exact accounted.issued
  · rw [grows.effects]
    exact accounted.owner
  · rw [grows.effects]
    exact accounted.signalled
  · intro v master p
    have same := running v .mast rfl master
    rw [grows.effects]
    rw [same] at master ⊢
    exact accounted.router v master p
  · intro v p
    rw [grows.effects]
    intro forked
    rw [grows.ds v (accounted.allocated v _ forked)]
    exact accounted.settled v p forked
  · intro v absent master p
    have same := running v .mast rfl master
    rw [grows.effects]
    rw [same] at master
    exact accounted.unlinked v absent master p

/-- A new instance in the list. -/
theorem link {inst : VrrpInst} (accounted : Accounted w s nodes)
    (returns : (s.withInst inst).linkInst s.dsTop = .ok s') :
    ∃ nodes', Accounted w s' nodes' ∧ s.dsTop ∈ nodes' ∧ (s'.ds s.dsTop).state = .init := by
  have grown := accounted.of_grows (grows_withInst inst s)
  obtain ⟨next, prev, before, after, rfl, rfl, linked⟩ := accounted.linked.link returns
  have more : ∀ v, v ∈ before ++ after → v ∈ before ++ s.dsTop :: after := by
    intro v member
    simp only [List.mem_append, List.mem_cons] at member ⊢
    tauto
  have new : ((s.withInst inst).ds s.dsTop).state = .init := by simp [withInst]
  exact ⟨_, { grown with
    linked := linked
    backups := fun v backup => more v (grown.backups v backup)
    unlinked := fun v absent => grown.unlinked v fun member => absent (more v member) },
    by simp, new⟩

/-- An instance leaves the list when it is no backup, and no master with a child. -/
theorem unlink {v : DsPtr} (accounted : Accounted w s nodes) (member : v ∈ nodes)
    (notBackup : (s.ds v).state ≠ .back)
    (alone : (s.ds v).state = .mast → ∀ p, lastFork v s.effects ≠ some (some p))
    (returns : s.unlinkInst v = .ok s') : ∃ nodes', Accounted w s' nodes' := by
  obtain ⟨next, prev, before, after, rfl, rfl, linked⟩ := accounted.linked.unlink member returns
  have rest : ∀ u, u ≠ v → u ∈ before ++ v :: after → u ∈ before ++ after := by
    intro u other member
    simp only [List.mem_append, List.mem_cons] at member ⊢
    tauto
  refine ⟨_, { accounted with linked := linked, backups := ?_, unlinked := ?_ }⟩
  · intro u backup
    refine rest u (fun same => ?_) (accounted.backups u backup)
    subst same
    exact notBackup backup
  · intro u absent master
    by_cases here : u = v
    · subst here
      exact alone master
    · exact accounted.unlinked u (fun member => absent (rest u here member)) master

end Accounted

/-! ## Steps -/

/-- When the instance last entered `MAST`, the fork of its router succeeded. -/
def ForkStands (s : Daemon) (v : DsPtr) : Prop := ∃ pid, lastFork v s.effects = some (some pid)

/-- The operations whose effects are right: a master is shut down or demoted only
when its fork stands; only masters are destroyed, by their VRID when the fork
stands and without it when it does not; and no alarm advertises a master of
priority 0. -/
def EffectsSafe (s : Daemon) : Op → Prop
  | .command (.shutdown key) =>
      ∀ v, key.af = afInet → key.vid ≠ 0 → s.vrrpSearchInst key = .ok (some v) →
        (s.ds v).state = .mast → s.ForkStands v
  | .command (.remove key) =>
      ∀ v, key.af = afInet → s.vrrpSearchInst key = .ok (some v) →
        (s.ds v).state = .mast ∧ (key.vid ≠ 0 ↔ s.ForkStands v)
  | .frame af ifname frame =>
      ∀ v, frame.accepted = true → frame.inst.viVr.vrId ≠ 0 →
        s.vrrpSearchInst ⟨frame.inst.viVr.vrId, some ifname, af⟩ = .ok (some v) →
          (s.ds v).state = .mast → s.vrrpPri v < frame.inst.viVa.pri → s.ForkStands v
  | .alarm =>
      ∀ p, s.q.advQ = some p → (s.ds (s.vrs p).parent).state = .mast →
        s.vrrpPri (s.vrs p).parent ≠ 0
  | .command (.create _) | .command (.startup _) | .command (.modify ..) => True

namespace Accounted

theorem b2m {v : DsPtr} (accounted : Accounted w s nodes) (fresh : w.ForksFresh)
    (member : v ∈ nodes) (notMaster : (s.ds v).state ≠ .mast)
    (returns : s.vrrpStateB2m w v = .ok s') : Accounted w s' nodes :=
  (accounted.promote fresh (.inr rfl) member notMaster).of_core (vrrpStateB2m_core returns)

theorem i2b {v : DsPtr} (accounted : Accounted w s nodes) (fresh : w.ForksFresh)
    (member : v ∈ nodes) (idle : (s.ds v).state = .init)
    (returns : s.vrrpStateI2b w v = .ok s') : Accounted w s' nodes := by
  have core := vrrpStateI2b_core returns
  have backup : Accounted w (s.setState v .back) nodes :=
    accounted.move member (by rw [idle]; simp) (by simp)
  split at core
  · exact (backup.promote fresh (.inr rfl) member (by simp)).of_core core
  · exact backup.of_core core

theorem m2i {v : DsPtr} (accounted : Accounted w s nodes) (fresh : w.ForksFresh)
    (member : v ∈ nodes) (master : (s.ds v).state = .mast) (stands : s.ForkStands v)
    (returns : s.vrrpStateM2i w v = .ok s') : Accounted w s' nodes := by
  obtain ⟨pid, own⟩ := stands
  exact (accounted.leave fresh (.inr rfl) (.inr rfl) member master own).of_core
    (vrrpStateM2i_core returns)

theorem b2i {v : DsPtr} (accounted : Accounted w s nodes) (member : v ∈ nodes)
    (backup : (s.ds v).state = .back) (returns : s.vrrpStateB2i v = .ok s') :
    Accounted w s' nodes :=
  (accounted.move member (by rw [backup]; simp) (by simp)).of_core (vrrpStateB2i_core returns)

theorem m2b {v : DsPtr} (accounted : Accounted w s nodes) (fresh : w.ForksFresh)
    (member : v ∈ nodes) (master : (s.ds v).state = .mast) (stands : s.ForkStands v)
    (returns : s.vrrpStateM2b w v = .ok s') : Accounted w s' nodes := by
  obtain ⟨pid, own⟩ := stands
  have left := accounted.leave fresh (.inl rfl) (.inl rfl) member master own
  have core := vrrpStateM2b_core returns
  split at core
  · refine (left.promote fresh (.inr rfl) member ?_).of_core core
    rw [state_leave_self]
    simp
  · exact left.of_core core

/-- The step lemma for frames. -/
theorem frame {af : Int} {ifname : Ifname} {frame : Frame} (accounted : Accounted w s nodes)
    (fresh : w.ForksFresh) (safe : s.EffectsSafe (.frame af ifname frame))
    (returns : s.processVrrpdSock w af ifname frame = .ok s') : Accounted w s' nodes := by
  have cleared : Accounted w (s.cleared frame) nodes := accounted.congr rfl rfl rfl rfl
  have heard : Accounted w (s.heard frame) nodes := accounted.congr rfl rfl rfl rfl
  rcases processVrrpdSock_outcome returns with
    rfl | ⟨-, -, first, found, rfl | ⟨backup, promoted⟩⟩ |
    ⟨accepted, -, rfl | ⟨curr, searched, given, processed⟩⟩
  · exact accounted
  · exact cleared
  · refine cleared.b2m fresh (accounted.linked.first_mem found) ?_ promoted
    show (s.ds first).state ≠ .mast
    rw [backup]
    simp
  · exact heard
  · have member := heard.linked.mem_of_search searched
    have parent := heard.linked.parent curr member
    rcases vrrpProcessIncomingAdv_outcome processed with
      rfl | ⟨-, timeout, rearmed⟩ | ⟨master, greater, demoted⟩
    · exact heard
    · exact heard.of_core (rearm_core rearmed)
    · rw [parent] at master demoted
      have same : (s.heard frame).shape = s.shape := rfl
      rw [accounted.linked.search_congr same] at searched
      exact heard.m2b fresh member master (safe curr accepted given searched master greater)
        demoted

/-- The step lemma for alarms. -/
theorem alarm (accounted : Accounted w s nodes) (fresh : w.ForksFresh)
    (safe : s.EffectsSafe .alarm) (returns : s.signalAlarm w = .ok s') :
    Accounted w s' nodes := by
  rcases signalAlarm_core returns with ⟨-, core⟩ | ⟨p, queued, core⟩
  · exact accounted.of_core core
  · refine Accounted.of_core ?_ core
    simp only [served]
    split
    · rename_i master
      exact accounted.advert (safe p queued master)
    · rename_i backup
      exact accounted.promote fresh (.inr rfl) (accounted.backups _ backup)
        (by rw [backup]; simp)
    · exact accounted
    · exact accounted

/-- The step lemma for creates. -/
theorem create {inst : VrrpInst} {ret : Int} (accounted : Accounted w s nodes)
    (fresh : w.ForksFresh) (returns : s.createCommand w inst = .ok (ret, s')) :
    ∃ nodes', Accounted w s' nodes' := by
  rcases createCommand_outcome returns with
    ⟨status, -, -, grows⟩ | ⟨s₁, -, linked, started⟩
  · exact ⟨nodes, accounted.of_grows grows⟩
  · obtain ⟨nodes', accounted', member, idle⟩ := accounted.link linked
    refine ⟨nodes', ?_⟩
    rcases started with ⟨-, rfl⟩ | ⟨-, status, s₂, promoted, rfl⟩
    · exact accounted'
    · refine (accounted'.promote fresh (.inl rfl) member (by rw [idle]; simp)).of_core ?_
      rw [core_onQueue, (vrrpStateI2m_core promoted).2]

/-- The step lemma for destroys. -/
theorem destroy {key : Key} {ret : Int} (accounted : Accounted w s nodes) (fresh : w.ForksFresh)
    (safe : s.EffectsSafe (.command (.remove key)))
    (returns : s.vrrpDestroyInst w key = .ok (ret, s')) : ∃ nodes', Accounted w s' nodes' := by
  rcases vrrpDestroyInst_core returns with ⟨-, rfl⟩ | ⟨family, v, t, selected, core, unlinked⟩
  · exact ⟨nodes, accounted⟩
  · obtain ⟨master, given⟩ := safe v family selected
    have member := accounted.linked.mem_of_search selected
    have left : Accounted w t nodes ∧ (t.ds v).state ≠ .back ∧
        ((t.ds v).state = .mast → ∀ p, lastFork v t.effects ≠ some (some p)) := by
      rw [ds_of_core core, effects_of_core core]
      simp only [departed, master, reduceIte] at core ⊢
      split
      · rename_i missing
        rw [if_pos missing] at core
        refine ⟨accounted.of_core core, by rw [master]; simp, fun _ p own => ?_⟩
        exact given.mpr ⟨p, own⟩ missing
      · rename_i named
        rw [if_neg named] at core
        obtain ⟨pid, own⟩ := given.mp named
        refine ⟨(accounted.leave fresh (.inr rfl) (.inr rfl) member master own).of_core core, ?_, ?_⟩
        · rw [state_leave_self]
          simp
        · rw [state_leave_self]
          simp
    exact left.1.unlink member left.2.1 left.2.2 unlinked

/-- The step lemma. -/
theorem step {op : Op} (accounted : Accounted w s nodes) (fresh : w.ForksFresh)
    (safe : s.EffectsSafe op) (returns : Daemon.step w op s = .ok s') :
    ∃ nodes', Accounted w s' nodes' := by
  cases op with
  | frame af ifname frame => exact ⟨nodes, accounted.frame fresh safe returns⟩
  | alarm => exact ⟨nodes, accounted.alarm fresh safe returns⟩
  | command command =>
      obtain ⟨⟨status, s₁⟩, processed, returns⟩ := bind_eq_ok.mp returns
      cases returns
      cases command with
      | create inst => exact accounted.create fresh processed
      | remove key => exact accounted.destroy fresh safe processed
      | startup key =>
          rcases vrrpStartupInst_outcome processed with
            rfl | ⟨v, -, -, selected, idle, started⟩
          · exact ⟨nodes, accounted⟩
          · exact ⟨nodes, accounted.i2b fresh (accounted.linked.mem_of_search selected) idle started⟩
      | shutdown key =>
          rcases vrrpShutdownInst_outcome processed with
            rfl | ⟨v, family, given, selected, ⟨master, stopped⟩ | ⟨backup, stopped⟩⟩
          · exact ⟨nodes, accounted⟩
          · exact ⟨nodes, accounted.m2i fresh (accounted.linked.mem_of_search selected) master
              (safe v family given selected master) stopped⟩
          · exact ⟨nodes, accounted.b2i (accounted.linked.mem_of_search selected) backup stopped⟩
      | modify key pri delay preeMode acptMode =>
          rcases vrrpSetInstProp_core processed with ⟨-, rfl, -⟩ | ⟨-, v, -, core⟩
          · exact ⟨nodes, accounted⟩
          · exact ⟨nodes, (accounted.congr (shape_setAttr ..) rfl rfl rfl).of_core core⟩

end Accounted

/-- **The effects of leaving `MAST` over runs of safe steps.** In every state that
such a run reaches, the log has priority 0 only right after a move from `MAST`
to `BACK` or `INIT`; each such move is followed by one advertisement of priority
0 and one signal; a signal goes to the child forked when the instance last
entered `MAST`, for the first time, and never to pid 0; and the children of an
instance that is not listed have all been signalled. -/
theorem departures_of_run {w : World} (fresh : w.ForksFresh) {ops : List Op} {s : Daemon}
    (run : Run (step w) EffectsSafe initial ops s) :
    Departs s.effects ∧
      ∀ v, ¬ s.Listed v → ∀ pid, .fork v (some pid) ∈ s.effects → .sigint v pid ∈ s.effects := by
  have account : ∃ nodes, Accounted w s nodes := by
    refine run.invariant (fun s : Daemon => ∃ nodes, Accounted w s nodes)
      ⟨[], accounted_initial⟩ ?_
    rintro s op s' ⟨nodes, accounted⟩ safe returns
    exact accounted.step fresh safe returns
  obtain ⟨nodes, accounted⟩ := account
  refine ⟨accounted.orderly.departs, fun v unlisted pid forked => ?_⟩
  rw [accounted.linked.listed_iff] at unlisted
  rcases accounted.settled v pid forked with done | ⟨master, own⟩
  · exact done
  · exact absurd own (accounted.unlinked v unlisted master pid)

theorem forksFresh_plain : World.plain.ForksFresh where
  positive k := by simp [World.plain]
  injective j k p first second := by
    simp only [World.plain, Option.some.injEq] at first second
    exact Nat.succ.inj (first.trans second.symm)

/-- A run that creates a master and shuts it down. -/
theorem departures_of_run_shutdown :
    ∃ s, Run (step .plain) EffectsSafe initial [.create 7 255, .shutdown 7] s ∧
      Departs s.effects := by
  have ran : passes (fun s => lastFork 1 s.effects == some (some 1) &&
      passes (fun found => found == some 1) (s.vrrpSearchInst (.sample 7)) &&
        passes (fun _ => true) (step .plain (.shutdown 7) s))
      (step .plain (.create 7 255) initial) = true := by decide +kernel
  obtain ⟨s₁, created, tested⟩ := exists_of_passes ran
  simp only [Bool.and_eq_true, beq_iff_eq] at tested
  obtain ⟨⟨stands, found⟩, stopped⟩ := tested
  obtain ⟨v, searched, one⟩ := exists_of_passes found
  rw [beq_iff_eq] at one
  subst one
  obtain ⟨s₂, stopped, -⟩ := exists_of_passes stopped
  have safe : s₁.EffectsSafe (.shutdown 7) := by
    intro v _ _ selected _
    cases searched.symm.trans selected
    exact ⟨1, stands⟩
  have run : Run (step .plain) EffectsSafe initial [.create 7 255, .shutdown 7] s₂ :=
    .snoc (.snoc .nil trivial created) safe stopped
  exact ⟨s₂, run, (departures_of_run forksFresh_plain run).1⟩

/-- **An instance that is no master is destroyed like one.** If it never was a master, the
daemon signals pid 0, its own process group. If it was, and has been shut down, the daemon
sends priority 0 for it once more, and signals the same child again. -/
theorem departures_destroy_idle :
    (∃ s, Run (step .plain) unguarded initial [.create 7 100] s ∧
      step .plain (.remove 7) s = .error .killed) ∧
    ∃ s, Run (step .plain) unguarded initial [.create 7 255, .shutdown 7, .remove 7] s ∧
      ¬ Departs s.effects := by
  constructor
  · have ran : passes (fun s => fault (step .plain (.remove 7) s) == some .killed)
        (exec (step .plain) [.create 7 100] initial) = true := by decide +kernel
    obtain ⟨s, returns, tested⟩ := exists_of_passes ran
    exact ⟨s, run_of_exec returns, fault_eq_some.mp (beq_iff_eq.mp tested)⟩
  · have ran : passes (fun s => s.effects.getLast? == some (.sigint 1 1) &&
        decide (.sigint 1 1 ∈ s.effects.dropLast))
        (exec (step .plain) [.create 7 255, .shutdown 7, .remove 7] initial) = true := by
      decide +kernel
    obtain ⟨s, returns, tested⟩ := exists_of_passes ran
    simp only [Bool.and_eq_true, beq_iff_eq, decide_eq_true_eq, List.getLast?_eq_some_iff] at tested
    obtain ⟨⟨earlier, split⟩, before⟩ := tested
    rw [split, List.dropLast_concat] at before
    exact ⟨s, run_of_exec returns, fun departs =>
      (departs.signal earlier 1 1 [] split).2.2 1 before⟩

end Daemon

end VrrpDaemon
