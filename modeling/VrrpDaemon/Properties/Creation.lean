import VrrpDaemon.Behaviour.Allocation
import VrrpDaemon.Model.AddressBlock

/-!
# The effect of a create

`vrrp_create_inst` always returns. A request that it does not grant, because of its
arguments, because its key is taken or because one of the three allocations fails,
leaves the list, the listed instances and the queue as they were (`Kept`). One that
it grants gives a single new instance, which stands in the list before the first one
whose VRID is not smaller and is not queued (`Inserted`); its addresses are stored
apart from the request (`StoredApart`), in the block that `vrrp_create_vr` copies them to
(`vrrpCreateVr_copyVrIp`).
-/

set_option autoImplicit false

namespace VrrpDaemon

open Machine

/-! ## Queues that read the same -/

/-- The VRs met from `adv_q` on are the same, with their links and timeouts. -/
structure TimerQueue.ReadsAs (q q' : TimerQueue) : Prop where
  advQ : q'.advQ = q.advQ
  entries : ∀ steps p, follow q.qnext q.advQ steps = some p →
    q'.qnext p = q.qnext p ∧ q'.qprev p = q.qprev p ∧ q'.timeout p = q.timeout p

/-- Only allocated VRs are met in a queue inside. -/
theorem TimerQueue.Inside.met {q : TimerQueue} {top : VrPtr} (inside : q.Inside top) {steps : Nat}
    {p : VrPtr} (met : follow q.qnext q.advQ steps = some p) : p < top :=
  @follow_closed _ q.qnext q.advQ p (· < top) inside.advQ (fun b c _ => inside.qnext b c) steps met

namespace Daemon

variable {w : World} {s s' : Daemon} {nodes : List DsPtr} {inst : VrrpInst}

/-- The listed instances and the queue are as they were. -/
structure Kept (s s' : Daemon) (nodes : List DsPtr) : Prop where
  instances : ∀ v ∈ nodes, s'.ds v = s.ds v ∧ s'.vr v = s.vr v
  queue : s.q.ReadsAs s'.q

/-- The addresses of the instance are stored apart from the request. The request's
pointer designates its addresses in a buffer that is in use. Whatever is written to
this buffer after the create, the pointer of the new VR designates the addresses of
the instance. -/
def StoredApart (inst : VrrpInst) (v : DsPtr) (s' : Daemon) : Prop :=
  ∀ (m m' : Memory) (buffer size vrIp : Nat), buffer + size ≤ m.top →
    m.vrIp vrIp inst.viVr.vrIpnum = inst.viVr.vrIp.take inst.viVr.vrIpnum.toNat →
    (∀ i, ¬ (buffer ≤ i ∧ i < buffer + size) →
      m'.bytes i = (m.copyVrIp vrIp inst.viVr.vrIpnum).2.bytes i) →
    m'.vrIp (m.copyVrIp vrIp inst.viVr.vrIpnum).1 inst.viVr.vrIpnum = (s'.vr v).vr.vrIp

/-- The instance `v` is the one that a request asked for, new in the list `nodes`. -/
structure Inserted (inst : VrrpInst) (s : Daemon) (nodes : List DsPtr) (v : DsPtr)
    (s' : Daemon) : Prop where
  fresh : v ∉ nodes
  place : ∃ before after, nodes = before ++ after ∧ s'.Linked (before ++ v :: after) ∧
    (∀ u ∈ before, s.vrrpId u < inst.viVr.vrId) ∧ ∀ u ∈ after, inst.viVr.vrId ≤ s.vrrpId u
  state : (s'.ds v).state = .init
  attr : (s'.vr v).attr = inst.viVa
  key : s'.key v = inst.key
  record : (s'.vr v).vr =
    { inst.viVr with vrIp := inst.viVr.vrIp.take inst.viVr.vrIpnum.toNat }
  unqueued : ∀ steps, follow s'.q.qnext s'.q.advQ steps ≠ some (s'.ds v).vr
  apart : StoredApart inst v s'

/-! ## What is kept -/

theorem Grows.reads (grows : s.Grows s') (inside : s.q.Inside s.vrTop) : s.q.ReadsAs s'.q := by
  refine ⟨grows.advQ, fun steps p met => ?_⟩
  have old := inside.met met
  refine ⟨?_, ?_, grows.timeout p old⟩
  · rcases grows.qnext p with same | ⟨new, -⟩
    · exact same
    · exact absurd old (Nat.not_lt.mpr new)
  · rcases grows.qprev p with same | ⟨new, -⟩
    · exact same
    · exact absurd old (Nat.not_lt.mpr new)

/-- A heap that grows keeps what is listed and queued. -/
theorem Linked.kept_of_grows (linked : s.Linked nodes) (inside : s.q.Inside s.vrTop)
    (grows : s.Grows s') : s.Kept s' nodes := by
  exact ⟨fun v member => linked.records_of_grows grows member, grows.reads inside⟩

/-- No VR beyond the allocated ones is met after the heap has grown. -/
theorem Grows.unmet (grows : s.Grows s') (inside : s.q.Inside s.vrTop) (steps : Nat) :
    follow s'.q.qnext s'.q.advQ steps ≠ some s.vrTop := by
  intro met
  have starts : ∀ b, s'.q.advQ = some b → b < s.vrTop := grows.advQ ▸ inside.advQ
  have closed : ∀ b c, b < s.vrTop → s'.q.qnext b = some c → c < s.vrTop := by
    intro b c below next
    rcases grows.qnext b with same | ⟨new, -⟩
    · exact inside.qnext b c (same.symm.trans next)
    · exact absurd below (Nat.not_lt.mpr new)
  have old : s.vrTop < s.vrTop := @follow_closed _ _ _ _ (· < s.vrTop) starts closed steps met
  exact Nat.lt_irrefl _ old

/-! ## What is new -/

/-- The new instance reads as the request, whatever its links. -/
theorem vr_withInst (next prev : DsPtr → Option DsPtr) :
    ((s.withInst inst).withLinks next prev).vr s.dsTop =
      { attr := inst.viVa
        vr := { inst.viVr with vrIp := inst.viVr.vrIp.take inst.viVr.vrIpnum.toNat }
        parent := s.dsTop } := by
  simp [vr, withLinks, withInst]

/-- The new VR's pointer designates the addresses of the request. -/
theorem storedApart_of_record {v : DsPtr}
    (record : (s'.vr v).vr.vrIp = inst.viVr.vrIp.take inst.viVr.vrIpnum.toNat) :
    StoredApart inst v s' := by
  intro m m' buffer size vrIp inUse designates same
  rw [record, ← designates]
  refine Memory.vrIp_copyVrIp_apart fun i beyond => same i ?_
  rintro ⟨-, inside⟩
  omega

/-- **The stored addresses are those of the copy.** Where the parser read the request's addresses
at a pointer into some memory, and `malloc` succeeds, `vrrp_create_vr` stores what the block
designates that they are copied to. -/
theorem vrrpCreateVr_copyVrIp (m : Memory) {vrIp after : Nat} {va : VrrpAttr} {vr : VrrpVr}
    {p : VrPtr} (read : (scanVrIp vr.vrIpnum).run m.bytes vrIp = .ok (vr.vrIp, after))
    (stored : (s.vrrpCreateVr w va vr p).1 = VrrpRet.success.code) :
    ((s.vrrpCreateVr w va vr p).2.vrs p).vr.vrIp =
      (m.copyVrIp vrIp vr.vrIpnum).2.vrIp (m.copyVrIp vrIp vr.vrIpnum).1 vr.vrIpnum := by
  rw [Memory.scanVrIp_run, Except.ok.injEq, Prod.mk.injEq] at read
  have count : (m.vrIp vrIp vr.vrIpnum).length = vr.vrIpnum.toNat := by
    simp [Memory.vrIp, Cell.loads]
  rw [Memory.vrIp_copyVrIp, read.1]
  rw [read.1] at count
  have got : w.malloc s.mallocCalls = true := by
    cases fails : w.malloc s.mallocCalls with
    | true => rfl
    | false =>
        simp only [vrrpCreateVr, malloc, fails, Bool.not_false, reduceIte] at stored
        cases stored
  simp only [vrrpCreateVr, malloc, got, Bool.not_true, Bool.false_eq_true, reduceIte,
    Function.update_self, ← count, List.take_length]

/-- **Linking the new instance** puts it in its place. -/
theorem Linked.inserted (linked : s.Linked nodes) (inside : s.q.Inside s.vrTop)
    (returns : (s.withInst inst).linkInst s.dsTop = .ok s') :
    s.Kept s' nodes ∧ Inserted inst s nodes s.dsTop s' := by
  have fresh : s.dsTop ∉ nodes := fun member =>
    Nat.lt_irrefl _ (linked.allocated s.dsTop member)
  have grows := grows_withInst inst s
  obtain ⟨next, prev, before, after, rfl, split, listed, below, above⟩ := linked.link_place returns
  have record := @vr_withInst s inst next prev
  have own : (((s.withInst inst).withLinks next prev).ds s.dsTop).vr = s.vrTop := by
    simp [withLinks, withInst]
  refine ⟨?_, fresh, ⟨before, after, split, listed, below, above⟩, ?_, ?_, ?_, ?_, ?_, ?_⟩
  · have kept := linked.kept_of_grows inside grows
    exact ⟨kept.instances, kept.queue⟩
  · simp [withLinks, withInst]
  · rw [record]
  · simp only [key, vrrpId, vrrpIfname, vrrpAf, record, VrrpInst.key]
  · rw [record]
  · rw [own]
    exact grows.unmet inside
  · apply storedApart_of_record
    rw [record]

/-! ## Every create returns -/

/-- **A create returns** on a linked list. -/
theorem Linked.vrrpCreateInst_returns (linked : s.Linked nodes) (w : World) (inst : VrrpInst) :
    ∃ ret made s', s.vrrpCreateInst w inst = .ok (ret, made, s') := by
  simp only [vrrpCreateInst, vrrpCheckConflict, vrrpSearchVr, linked.search, ok_bind]
  split
  · exact ⟨_, _, _, rfl⟩
  · split
    · exact ⟨_, _, _, rfl⟩
    · cases s.select inst.key nodes with
      | some v => exact ⟨_, _, _, rfl⟩
      | none =>
          simp only [Option.map_none, ok_bind, ne_eq, not_true_eq_false, reduceIte]
          split
          · exact ⟨_, _, _, rfl⟩
          · rename_i allocated
            rcases allocInst_outcome allocated with ⟨impossible, -⟩ | ⟨same, rfl⟩
            · cases impossible
            · cases same
              have grown := linked.of_grows (grows_withInst inst s)
              have fresh : s.dsTop ∉ nodes := fun member =>
                Nat.lt_irrefl _ (linked.allocated s.dsTop member)
              obtain ⟨s', link⟩ := grown.exists_linkInst fresh
              simp only [link, ok_bind]
              exact ⟨_, _, _, rfl⟩

/-- **The exact effect of a create.** In every reachable state and for every request,
whichever of its allocations fail, `vrrp_create_inst` returns. Without
`VRRP_SUCCESS` it leaves the list, the listed instances and the queue unchanged. With
`VRRP_SUCCESS` the list is the old one with a new instance in front of the first one
whose VRID is not smaller, as the request asks for it, in `INIT` and not queued, and
`*vim` designates it; the other instances and the queue are unchanged. -/
theorem vrrpCreateInst_effect_exact (reachable : Reachable w s) (inst : VrrpInst) :
    ∃ nodes ret made s', s.Linked nodes ∧ s.vrrpCreateInst w inst = .ok (ret, made, s') ∧
      s.Kept s' nodes ∧
      (ret ≠ VrrpRet.success.code → made = none ∧ s'.Linked nodes) ∧
      (ret = VrrpRet.success.code → ∃ v, made = some v ∧ Inserted inst s nodes v s') := by
  obtain ⟨nodes, linked⟩ := reachable.linked
  have inside := reachable.allocated.queue
  obtain ⟨ret, made, s', returns⟩ := linked.vrrpCreateInst_returns w inst
  refine ⟨nodes, ret, made, s', linked, returns, ?_⟩
  rcases vrrpCreateInst_outcome returns with ⟨failed, rfl, grows⟩ | ⟨done, rfl, -, -, link⟩
  · exact ⟨linked.kept_of_grows inside grows, fun _ => ⟨rfl, linked.of_grows grows⟩,
      fun granted => absurd granted failed⟩
  · obtain ⟨kept, inserted⟩ := linked.inserted inside link
    exact ⟨kept, fun failed => absurd done failed, fun _ => ⟨s.dsTop, rfl, inserted⟩⟩

/-- A world in which the eighth `malloc` fails. -/
def shortOfMemory : World := { World.plain with malloc := fun k => k != 7 }

/-- An instance of VRID 7 is created between those of VRIDs 5 and 9. Where there is no memory for
its VR, all is as before. -/
theorem vrrpCreateInst_effect_between :
    (∃ s s', Reachable .plain s ∧
      s.vrrpCreateInst .plain (.sample 7 100) = .ok (VrrpRet.success.code, some 3, s') ∧
      s.Kept s' [1, 2] ∧ Inserted (.sample 7 100) s [1, 2] 3 s' ∧ s'.next 1 = some 3) ∧
    ∃ s s', Reachable shortOfMemory s ∧
      s.vrrpCreateInst shortOfMemory (.sample 7 100) = .ok (VrrpRet.enomem.code, none, s') ∧
      s.Kept s' [1, 2] ∧ s'.Linked [1, 2] := by
  have listed : ∀ {s : Daemon} {nodes}, s.Linked nodes → s.next instRuntimeList = some 1 →
      s.next 1 = some 2 → s.next 2 = none → nodes = [1, 2] :=
    fun linked first second last => linked.doubly.1.unique ⟨first, second, last⟩
  constructor
  · have ran : passes (fun s => s.next instRuntimeList == some 1 && s.next 1 == some 2 &&
        s.next 2 == none && passes (fun reply => reply.1 == VrrpRet.success.code &&
          reply.2.1 == some 3 && reply.2.2.next 1 == some 3)
            (s.vrrpCreateInst .plain (.sample 7 100)))
        (exec (step .plain) [.create 5 100, .create 9 100] initial) = true := by decide +kernel
    obtain ⟨s, created, tested⟩ := exists_of_passes ran
    simp only [Bool.and_eq_true, beq_iff_eq] at tested
    obtain ⟨⟨⟨first, second⟩, last⟩, answered⟩ := tested
    obtain ⟨⟨ret, made, s'⟩, returns, replied⟩ := exists_of_passes answered
    simp only [Bool.and_eq_true, beq_iff_eq] at replied
    obtain ⟨⟨rfl, rfl⟩, behind⟩ := replied
    have reachable : Reachable .plain s := ⟨_, run_of_exec created⟩
    obtain ⟨nodes, ret, made, s₁, linked, returns₁, kept, -, granted⟩ :=
      vrrpCreateInst_effect_exact reachable (.sample 7 100)
    cases returns.symm.trans returns₁
    obtain rfl := listed linked first second last
    obtain ⟨v, same, inserted⟩ := granted rfl
    cases same
    exact ⟨s, s', reachable, returns, kept, inserted, behind⟩
  · have ran : passes (fun s => s.next instRuntimeList == some 1 && s.next 1 == some 2 &&
        s.next 2 == none && passes (fun reply => reply.1 == VrrpRet.enomem.code)
            (s.vrrpCreateInst shortOfMemory (.sample 7 100)))
        (exec (step shortOfMemory) [.create 5 100, .create 9 100] initial) = true := by
      decide +kernel
    obtain ⟨s, created, tested⟩ := exists_of_passes ran
    simp only [Bool.and_eq_true, beq_iff_eq] at tested
    obtain ⟨⟨⟨first, second⟩, last⟩, answered⟩ := tested
    obtain ⟨⟨ret, made, s'⟩, returns, replied⟩ := exists_of_passes answered
    obtain rfl := beq_iff_eq.mp replied
    have reachable : Reachable shortOfMemory s := ⟨_, run_of_exec created⟩
    obtain ⟨nodes, ret, made, s₁, linked, returns₁, kept, refused, -⟩ :=
      vrrpCreateInst_effect_exact reachable (.sample 7 100)
    cases returns.symm.trans returns₁
    obtain rfl := listed linked first second last
    obtain ⟨rfl, still⟩ := refused (by decide)
    exact ⟨s, s', reachable, returns, kept, still⟩

end Daemon

end VrrpDaemon
