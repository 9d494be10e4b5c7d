import VrrpDaemon.Behaviour.Advertised
import VrrpDaemon.Machine.Recoding
import VrrpDaemon.Properties.MalformedFrames
import VrrpDaemon.Properties.Primacy
import VrrpDaemon.Properties.ShowReply

/-!
# Routers that exchange datagrams

On the segment of `VrrpDaemon.Model.Lan` the routers exchange frames. Here they exchange what
`vrrp_send_adv` writes to a socket and `process_vrrpd_sock` reads from one: bytes, with what the
sender's memory held between the fields of a record, read at fixed offsets in a buffer that was
cleared.

Every run of the routers with datagrams is one with frames, in which the routers are in the same
states (`datagrams_refine`). So what holds after every run with frames holds after every run with
datagrams, such as that the best router stays the master (`best_reigns_datagrams`). This needs
that what the records of VRs hold is read back from its image: the integers fit their fields, and
a NUL ends the name. It does where this holds of the records that requests carry (`Op.Fits`), as no
frame changes the records of VRs.
-/

set_option autoImplicit false

namespace VrrpDaemon

open Machine

/-! ## Datagrams -/

/-- The bytes that `vrrp_build_pkt` writes for a frame, in memory that held something before. -/
def Frame.bytes (frame : Frame) (heap : Buffer) : List UInt8 :=
  createEthernetHeader frame.inst.viVr.vrId ++ createIpHeader frame.inst.viVr.in4 ++
    frame.inst.headerBytes heap

/-- What a receiver finds in its buffer. -/
def Frame.read (datagram : List UInt8) : Frame := .load (vrrpRecvAdv4 datagram)

namespace Daemon

/-- What is read back from its image: the integers fit their fields, and a NUL ends the name. -/
def Standard.image : Standard where
  vr record := record.Fits ∧ record.vr.vrIfname.bytes.length < lifnamsiz
  active := Cell.uint.Fits
  frame frame := ∃ (s : Daemon) (p : DsPtr) (priority : Int), frame = s.vrrpBuildPkt p priority ∧
    (s.createVrrpHeader p priority).Fits ∧ (s.vrrpIfname p).bytes.length < lifnamsiz
  blank := ⟨by decide, by decide⟩
  built s p priority record active := by
    obtain ⟨⟨delay, preeMode, acceptMode, vrAf⟩, terminated⟩ := record
    exact ⟨s, p, priority, rfl, ⟨delay, preeMode, acceptMode, vrAf, active⟩, terminated⟩

/-- The records of the daemon are read back from their images. -/
def Proper (s : Daemon) : Prop := Conforms .image s.effects s

/-- The daemon as it starts is proper. -/
theorem proper_initial : initial.Proper := by
  have blank : blankVr.Fits := ⟨⟨by decide, by decide⟩, ⟨by decide, by decide⟩,
    ⟨by decide, by decide⟩, ⟨by decide, by decide⟩⟩
  have unnamed : blankVr.vr.vrIfname.bytes.length < lifnamsiz := by decide
  exact .start (fun _ => ⟨blank, unnamed⟩) fun _ => Standard.image.blank

/-- What was written before does not matter. -/
theorem Conforms.proper {old : List Effect} {s : Daemon} (conforms : Conforms .image old s) :
    s.Proper := .start conforms.vrs conforms.active

/-- A mode that was set is 0 or 1. -/
theorem newMode_fits {old : Int} (fits : Cell.uint.Fits old) (mode : Int) :
    Cell.uint.Fits (newMode old mode) := by
  unfold newMode
  split
  · split
    · exact ⟨by decide, by decide⟩
    · split
      · exact ⟨by decide, by decide⟩
      · exact fits
  · exact fits

end Daemon

/-- The integers of the operation fit their types, and a NUL ends the name of a VR that it is to
create. -/
def Op.Fits : Op → Prop
  | .command (.create inst) => inst.Fits ∧ inst.viVr.vrIfname.bytes.length < lifnamsiz
  | .command (.modify _ _ delay _ _) => Cell.int.Fits delay
  | .command (.remove _) | .command (.startup _) | .command (.shutdown _) => True
  | .frame .. | .alarm => True

/-- Such an operation asks for nothing that would not be read back. -/
theorem Op.Fits.admits {op : Op} (fits : op.Fits) : Daemon.Standard.image.Admits op := by
  cases op with
  | alarm | frame => trivial
  | command command =>
      cases command with
      | remove | startup | shutdown => trivial
      | create inst =>
          obtain ⟨⟨delay, preeMode, acceptMode, vrAf, viActive⟩, terminated⟩ := fits
          exact ⟨viActive, fun vrIp parent => ⟨⟨delay, preeMode, acceptMode, vrAf⟩, terminated⟩⟩
      | modify key pri delay preeMode acptMode =>
          rintro record ⟨⟨old, preempts, accepts, family⟩, terminated⟩
          refine ⟨⟨?_, ?_, ?_, family⟩, terminated⟩
          · show Cell.int.Fits (Daemon.modifiedAttr record.attr pri delay preeMode acptMode).delay
            rw [Daemon.modifiedAttr_delay]
            split
            · exact fits
            · exact old
          · show Cell.uint.Fits
              (Daemon.modifiedAttr record.attr pri delay preeMode acptMode).preeMode
            rw [Daemon.modifiedAttr_preeMode]
            exact Daemon.newMode_fits preempts preeMode
          · show Cell.uint.Fits
              (Daemon.modifiedAttr record.attr pri delay preeMode acptMode).acceptMode
            rw [Daemon.modifiedAttr_acceptMode]
            exact Daemon.newMode_fits accepts acptMode

/-- The datagram is one that a proper daemon wrote. -/
def Dispatched (datagram : List UInt8) : Prop :=
  ∃ frame heap, datagram = Frame.bytes frame heap ∧ Daemon.Standard.image.frame frame

namespace Frame

variable {frame : Frame}

/-- A datagram is no longer than the buffer of its receiver. -/
theorem length_bytes_le (frame : Frame) (heap : Buffer) :
    (frame.bytes heap).length ≤ recvSize := by
  have header : (createEthernetHeader frame.inst.viVr.vrId).length = 14 := rfl
  have ip : (createIpHeader frame.inst.viVr.in4).length = 20 := by
    simp [createIpHeader]
  have record : (frame.inst.headerBytes heap).length = 80 := Buffer.length_slice ..
  rw [bytes, List.length_append, List.length_append, header, ip, record]
  decide

/-- **A frame is read from its bytes.** -/
theorem read_bytes (good : Daemon.Standard.image.frame frame) (heap : Buffer) :
    read (frame.bytes heap) = frame := by
  have whole : (frame.bytes heap).take recvSize = frame.bytes heap :=
    List.take_of_length_le (length_bytes_le frame heap)
  rw [read, vrrpRecvAdv4, whole]
  obtain ⟨s, p, priority, rfl, fits, terminated⟩ := good
  exact load_pktBytes fits terminated heap fun _ => 0

/-- A NUL ends the name in a frame that was written. -/
theorem terminated (good : Daemon.Standard.image.frame frame) :
    frame.inst.viVr.vrIfname.bytes.length < lifnamsiz := by
  obtain ⟨s, p, priority, rfl, -, short⟩ := good
  exact short

end Frame

/-! ## The segment -/

/-- The integers that the router is given fit their types, and a NUL ends the name of a VR that it
is to create. -/
def LanAction.Fits : LanAction → Prop
  | .advertise => True
  | .operate op => op.Fits

namespace Lan

variable {ι : Type} (lan : Lan ι)

/-- The routers as nodes that exchange datagrams. `heap` is what the memory of a record held
before it was written. -/
def wire (heap : Daemon → Buffer) : Protocol Fault ι LanAction (List UInt8) Daemon where
  act := lan.protocol.act
  receive i datagram s := s.processVrrpdSockBytes (lan.world i) afInet lan.ifname datagram
  sent s s' := (s.written s').map fun frame => frame.bytes (heap s')
  peers := lan.peers

variable {lan} {heap : Daemon → Buffer}

/-- What a daemon sends is read back. -/
theorem sends_read {s s' : Daemon} (conforms : Daemon.Conforms .image s.effects s') :
    s'.Proper ∧ ((lan.wire heap).sent s s').map Frame.read = lan.protocol.sent s s' ∧
      ∀ datagram ∈ (lan.wire heap).sent s s', Dispatched datagram := by
  have good := conforms.written
  refine ⟨conforms.proper, ?_, fun datagram member => ?_⟩
  · show ((s.written s').map fun frame => frame.bytes (heap s')).map Frame.read = s.written s'
    rw [List.map_map]
    calc (s.written s').map (Frame.read ∘ fun frame => frame.bytes (heap s'))
        = (s.written s').map id :=
          List.map_congr_left fun frame member => Frame.read_bytes (good frame member) _
      _ = s.written s' := List.map_id _
  · obtain ⟨frame, written, rfl⟩ := List.mem_map.mp member
    exact ⟨frame, heap s', rfl, good frame written⟩

/-- A router handles a datagram as it handles the frame. -/
theorem wire_receive (i : ι) {datagram : List UInt8} (s : Daemon)
    (dispatched : Dispatched datagram) :
    (lan.wire heap).receive i datagram s = lan.protocol.receive i (Frame.read datagram) s := by
  obtain ⟨frame, memory, rfl, good⟩ := dispatched
  have found : Frame.read (frame.bytes memory) = frame := Frame.read_bytes good memory
  rw [found]
  exact Daemon.processVrrpdSockBytes_eq found fun _ _ => Frame.terminated good

/-- **The datagrams encode the frames.** -/
theorem recodes (lan : Lan ι) (heap : Daemon → Buffer) :
    Recodes (lan.wire heap) lan.protocol Frame.read Daemon.Proper Dispatched LanAction.Fits where
  act _ _ _ := rfl
  peers := rfl
  receive i datagram s _ dispatched := wire_receive i s dispatched
  acted i action s s' proper fits acts := by
    refine sends_read ?_
    cases action with
    | advertise =>
        cases acts
        unfold Daemon.advertise
        split
        · exact proper.send _ 1
        · exact proper
    | operate op => exact proper.step (Op.Fits.admits fits) acts
  received i datagram s s' proper _ takes := sends_read (proper.hear takes)

/-- What can happen: datagrams in flight are handled, and the requests' records fit. -/
def Feasible (n : Net ι (List UInt8) Daemon) (event : NetEvent ι LanAction (List UInt8)) : Prop :=
  event.Enabled n ∧ event.Fit LanAction.Fits

/-- No router is asked for a priority beyond that of `best`, and `best` is asked for nothing that
ends its instance or changes its priority. -/
def Uncontested {μ : Type} (lan : Lan ι) (best : ι) (nodes : ι → Daemon)
    (event : NetEvent ι LanAction μ) : Prop :=
  ∀ i op, event = .act i (.operate op) →
    op.Asks ((nodes best).vrrpPri (lan.inst best)) ∧
      (i = best → (nodes best).Unchallenged (lan.inst best) op)

/-- What can happen while `best` is spared. -/
def UndisputedWire (lan : Lan ι) (best : ι) (n : Net ι (List UInt8) Daemon)
    (event : NetEvent ι LanAction (List UInt8)) : Prop :=
  Feasible n event ∧ lan.Uncontested best n.node event

variable {best : ι} {start : ι → Daemon}

/-- This does not depend on how messages are written. -/
theorem Uncontested.decode {nodes : ι → Daemon} {event : NetEvent ι LanAction (List UInt8)}
    (uncontested : lan.Uncontested best nodes event) :
    lan.Uncontested best nodes (event.decode Frame.read) := by
  intro i op same
  cases event with
  | act j action =>
      cases same
      exact uncontested i op rfl
  | deliver e => cases same

variable [DecidableEq ι]

/-- A run with datagrams is a run with frames, whatever else is asked of the events. -/
theorem wire_run (allows : (ι → Daemon) → lan.Event → Prop)
    {events : List (NetEvent ι LanAction (List UInt8))} {n : Net ι (List UInt8) Daemon}
    (proper : ∀ i, (start i).Proper)
    (runs : Run (lan.wire heap).step
      (fun n event => Feasible n event ∧ allows n.node (event.decode Frame.read))
      ⟨start, []⟩ events n) :
    ∃ m : lan.State,
      Run lan.protocol.step (fun m event => event.Enabled m ∧ allows m.node event) ⟨start, []⟩
        (events.map (NetEvent.decode Frame.read)) m ∧
      Decoded Frame.read Daemon.Proper Dispatched n m := by
  have initially : Decoded Frame.read Daemon.Proper Dispatched
      (⟨start, []⟩ : Net ι (List UInt8) Daemon) (⟨start, []⟩ : lan.State) := by
    refine ⟨rfl, proper, fun e member => absurd member List.not_mem_nil, ?_⟩
    exact List.Perm.nil
  exact (lan.recodes heap).run initially runs

/-- **Datagrams refine frames.** In every run in which routers that begin with proper records
exchange datagrams, in any order and whatever memory held before they were written, the routers
do what they do when they exchange frames: there is a run with the same events and with frames,
in which the routers get to the same states. The frames that are then in flight are those that
the datagrams in flight are read as. -/
theorem datagrams_refine (lan : Lan ι) (heap : Daemon → Buffer) (start : ι → Daemon)
    (proper : ∀ i, (start i).Proper) (events : List (NetEvent ι LanAction (List UInt8)))
    (n : Net ι (List UInt8) Daemon)
    (runs : Run (lan.wire heap).step Feasible ⟨start, []⟩ events n) :
    ∃ m : lan.State,
      Run lan.protocol.step (fun m event => event.Enabled m) ⟨start, []⟩
        (events.map (NetEvent.decode Frame.read)) m ∧
      m.node = n.node ∧ (n.flight.map (Envelope.decode Frame.read)).Perm m.flight := by
  have free : Run (lan.wire heap).step (fun n event => Feasible n event ∧ True) ⟨start, []⟩
      events n := runs.mono fun n event feasible => ⟨feasible, trivial⟩
  obtain ⟨m, followed, decoded⟩ := wire_run (fun _ _ => True) proper free
  exact ⟨m, followed.mono fun _ _ allowed => allowed.1, decoded.same.symm, decoded.flight⟩

/-- **The best router stays the master, whatever the bytes.** What the routers do when they
exchange frames holds when they exchange datagrams: where one is a master and no VR has a greater
priority, and as long as none is asked for one and no daemon ends, it stays a master with its
priority, and nothing with a greater one is read from a datagram that is on its way. -/
theorem best_reigns_datagrams (lan : Lan ι) (heap : Daemon → Buffer) (best : ι)
    (start : ι → Daemon) (proper : ∀ i, (start i).Proper)
    (unrivalled : lan.Unrivalled best ⟨start, []⟩)
    (events : List (NetEvent ι LanAction (List UInt8))) (n : Net ι (List UInt8) Daemon)
    (runs : Run (lan.wire heap).step (lan.UndisputedWire best) ⟨start, []⟩ events n) :
    ((n.node best).ds (lan.inst best)).state = .mast ∧
      (n.node best).vrrpPri (lan.inst best) = (start best).vrrpPri (lan.inst best) ∧
      ∀ e ∈ n.flight,
        (Frame.read e.message).inst.viVa.pri ≤ (start best).vrrpPri (lan.inst best) := by
  obtain ⟨m, followed, decoded⟩ := wire_run (lan.Uncontested best) proper
    (runs.mono fun n event allowed => ⟨allowed.1, allowed.2.decode⟩)
  have ruled : Ruled lan best ((start best).vrrpPri (lan.inst best)) m := by
    refine followed.invariant _ unrivalled.ruled fun m event m' ruled allowed returns => ?_
    exact ruled_step ruled allowed ((ruled.nodes best).reigns rfl).own returns
  have reigns := (ruled.nodes best).reigns rfl
  rw [← decoded.same] at reigns
  refine ⟨reigns.master, reigns.own, fun e member => ?_⟩
  have read : e.decode Frame.read ∈ m.flight :=
    decoded.flight.mem_iff.mp (List.mem_map_of_mem member)
  exact ruled.messages _ read

/-! ## Two routers that exchange a datagram -/

/-- The integers of the sample fit, and its name has a NUL behind it. -/
theorem fits_create (vid pri : UInt8) : (Op.create vid pri).Fits := by
  have off : Cell.uint.Fits 0 := ⟨by decide, by decide⟩
  have on : Cell.uint.Fits 1 := ⟨by decide, by decide⟩
  have delay : Cell.int.Fits 1 := ⟨by decide, by decide⟩
  have family : Cell.int.Fits afInet := ⟨by decide, by decide⟩
  have named : Ifname.eth0.bytes.length < lifnamsiz := by decide
  exact ⟨⟨delay, on, off, family, on⟩, named⟩

theorem duoUp_proper (i : Side) : (duoUp.node i).Proper := by
  have ran : ∀ i, passes (fun _ => true) (exec (Daemon.step .plain) (duoOps i) Daemon.initial) =
      true := by
    intro i
    cases i <;> decide
  obtain ⟨returns, -⟩ := eq_outcome Daemon.initial (ran i)
  have fits : ∀ op ∈ duoOps i, op.Fits := by
    cases i with
    | left => exact List.forall_mem_cons.mpr ⟨fits_create 7 200,
        List.forall_mem_singleton.mpr trivial⟩
    | right => exact List.forall_mem_cons.mpr ⟨fits_create 7 100,
        List.forall_mem_singleton.mpr trivial⟩
  have admits : ∀ op ∈ duoOps i, Daemon.Standard.image.Admits op :=
    fun op member => (fits op member).admits
  exact (Daemon.proper_initial.exec admits returns).proper

/-- Memory that holds `0xaa`, as a heap may after a `free`. -/
def staleHeap (_ : Daemon) : Buffer := fun _ => 0xaa

/-- An advertisement of priority 200, as a datagram. -/
def duoDatagram (source target : Side) : Envelope Side (List UInt8) :=
  ⟨source, target, (trioFrame 200 .mast).bytes fun _ => 0xaa⟩

/-- The left router advertises its greater priority, and the right one reads the datagram. It
steps down, as it does for the frame. -/
theorem datagrams_refine_duo : ∃ m : pair.State,
    Run pair.protocol.step (fun m event => event.Enabled m) ⟨duoUp.node, []⟩
      [.act .left .advertise, .deliver ((duoDatagram .left .right).decode Frame.read)] m ∧
    pair.stateOf m .right ≠ .mast := by
  have ran : passes (fun n₁ => decide (duoDatagram .left .right ∈ n₁.flight) &&
      passes (fun n₂ => decide (((n₂.node .right).ds 1).state ≠ .mast))
        ((pair.wire staleHeap).step (.deliver (duoDatagram .left .right)) n₁))
      ((pair.wire staleHeap).step (.act .left .advertise) ⟨duoUp.node, []⟩) = true := by
    decide +kernel
  obtain ⟨n₁, advertised, tested₁⟩ := exists_of_passes ran
  simp only [Bool.and_eq_true, decide_eq_true_eq] at tested₁
  obtain ⟨n₂, delivered, yields⟩ := exists_of_passes tested₁.2
  have first : Run (pair.wire staleHeap).step Feasible ⟨duoUp.node, []⟩
      [.act .left .advertise] n₁ := .snoc .nil ⟨trivial, trivial⟩ advertised
  have run : Run (pair.wire staleHeap).step Feasible ⟨duoUp.node, []⟩
      [.act .left .advertise, .deliver (duoDatagram .left .right)] n₂ :=
    first.snoc ⟨tested₁.1, trivial⟩ delivered
  obtain ⟨m, followed, same, -⟩ :=
    datagrams_refine pair staleHeap duoUp.node duoUp_proper _ n₂ run
  refine ⟨m, followed, ?_⟩
  rw [stateOf, same]
  exact of_decide_eq_true yields

/-- The right router is given the priority of the left one. -/
def duoRaiseWire : NetEvent Side LanAction (List UInt8) :=
  .act .right (.operate (.command (.modify (.sample 7) 200 (-1) (-1) (-1))))

/-- The right router is given the priority of the left one, and the left one reads the datagram
with it. It stays a master. -/
theorem best_reigns_datagrams_duo : ∃ n : Net Side (List UInt8) Daemon,
    Run (pair.wire staleHeap).step (pair.UndisputedWire .left) ⟨duoUp.node, []⟩
      [duoRaiseWire, .act .right .advertise, .deliver (duoDatagram .right .left)] n ∧
    ((n.node .left).ds 1).state = .mast := by
  have ran : passes (fun n₁ => passes (fun n₂ =>
        decide (duoDatagram .right .left ∈ n₂.flight) &&
          passes (fun _ => true)
            ((pair.wire staleHeap).step (.deliver (duoDatagram .right .left)) n₂))
        ((pair.wire staleHeap).step (.act .right .advertise) n₁))
      ((pair.wire staleHeap).step duoRaiseWire ⟨duoUp.node, []⟩) = true := by
    decide +kernel
  obtain ⟨n₁, raised, tested₁⟩ := exists_of_passes ran
  obtain ⟨n₂, advertised, tested₂⟩ := exists_of_passes tested₁
  simp only [Bool.and_eq_true, decide_eq_true_eq] at tested₂
  obtain ⟨n₃, delivered, -⟩ := exists_of_passes tested₂.2
  have top : (duoUp.node .left).vrrpPri 1 = 200 := by decide
  have interval : Cell.int.Fits (-1) := ⟨by decide, by decide⟩
  have raises : pair.UndisputedWire .left ⟨duoUp.node, []⟩ duoRaiseWire := by
    refine ⟨⟨trivial, interval⟩, fun i op same => ?_⟩
    cases same
    refine ⟨fun _ => ?_, fun here => by cases here⟩
    show UInt8.ofInt 200 ≤ (duoUp.node .left).vrrpPri 1
    rw [top]
    decide
  have sends : pair.UndisputedWire .left n₁ (.act .right .advertise) :=
    ⟨⟨trivial, trivial⟩, fun i op same => by cases same⟩
  have reads : pair.UndisputedWire .left n₂ (.deliver (duoDatagram .right .left)) :=
    ⟨⟨tested₂.1, trivial⟩, fun i op same => by cases same⟩
  have run := ((Run.nil.snoc raises raised).snoc sends advertised).snoc reads delivered
  obtain ⟨master, -, -⟩ := best_reigns_datagrams pair staleHeap .left duoUp.node duoUp_proper
    duoUp_unrivalled _ n₃ run
  exact ⟨n₃, run, master⟩

end Lan

end VrrpDaemon
