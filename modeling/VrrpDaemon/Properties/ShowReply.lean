import VrrpDaemon.Model.ShowAll
import VrrpDaemon.Model.ShowReply
import VrrpDaemon.Properties.CommandRoundTrip
import VrrpDaemon.Properties.StatusReply

/-!
# The instance of a show request is not sent

The functions that build the reply write it so that it can be read: behind the status lie
the two records, the addresses and the cursor (`reads_instx`). But `sendto` is given the
size of a pointer difference for a length, and that is where the status ends. So no byte of
the instance is sent, whatever the instance is (`Daemon.processAdmSock_truncates`).
-/

set_option autoImplicit false

namespace VrrpDaemon

open Machine

/-! ## Reading what is built -/

/-- What lies behind the status of the reply to a show request: the instance with the
attributes and the key of its VR, the addresses, and the cursor. -/
structure Instx where
  active : Int
  state : UInt8
  pid : Int
  attr : VrrpAttr
  vr : VrrpVr
  vrIp : List UInt32
  next : Target

/-- The fields of a `vrrpd_ds_t`. -/
def dsRecord : Scan.Record (Int × UInt8 × Int) where
  size := sizeofVrrpdDs
  load b off := (Cell.uint.load b (off + 8), Cell.byte.load b (off + 12),
    Cell.int.load b (off + 16))
  image same := by
    rw [Cell.load_of_slice same (by decide), Cell.load_of_slice same (by decide),
      Cell.load_of_slice same (by decide)]

/-- The fields of a `vrrpd_vr_ds_t`, which starts as a `vrrp_inst_t` does. -/
def vrDsRecord : Scan.Record (VrrpAttr × VrrpVr) where
  size := sizeofVrrpdVrDs
  load b off := ((VrrpInst.load b off).viVa, (VrrpInst.load b off).viVr)
  image {b b' off off'} same := by
    have first : b.slice off sizeofVrrpInst = b'.slice off' sizeofVrrpInst :=
      Buffer.slice_of_slice same (show 0 + sizeofVrrpInst ≤ sizeofVrrpdVrDs by decide)
    rw [VrrpInst.load_of_slice first]

/-- Read an instance behind a status. -/
def scanInstx : Scan Fault Instx := do
  let (active, state, pid) ← Scan.record dsRecord
  let (attr, vr) ← Scan.record vrDsRecord
  let vrIp ← scanVrIp vr.vrIpnum
  let next ← scanTarget
  pure ⟨active, state, pid, attr, vr, vrIp, next⟩

/-- The integers of a VR's record fit their fields. -/
structure VrrpdVrDs.Fits (record : VrrpdVrDs) : Prop where
  delay : Cell.int.Fits record.attr.delay
  preeMode : Cell.uint.Fits record.attr.preeMode
  acceptMode : Cell.uint.Fits record.attr.acceptMode
  vrAf : Cell.int.Fits record.vr.vrAf

/-- **The record of a VR is read back**, but for what its pointers designate. -/
theorem VrrpdVrDs.load_store {record : VrrpdVrDs} (fits : record.Fits) (timeout : UInt32)
    (b : Buffer) :
    (VrrpInst.load (record.store timeout b) 0).viVa = record.attr ∧
      (VrrpInst.load (record.store timeout b) 0).viVr = { record.vr with vrIp := [] } := by
  have short : record.vr.vrIfname.field.length ≤ 32 := record.vr.vrIfname.image_field.length_le
  have image := record.vr.vrIfname.image_field
  obtain ⟨delay, preeMode, acceptMode, vrAf⟩ := fits
  have widths : lifnamsiz = 32 ∧ Cell.byte.width = 1 ∧ Cell.word.width = 4 ∧ Cell.int.width = 4 ∧
      Cell.uint.width = 4 := ⟨rfl, rfl, rfl, rfl, rfl⟩
  have byteFits := Cell.byte_fits
  have wordFits := Cell.word_fits
  simp (disch := first | assumption | apply byteFits | apply wordFits | omega) only [VrrpInst.load,
    VrrpdVrDs.store, Nat.zero_add, Cell.load_store, Cell.load_store_other, Cell.load_put_other,
    Ifname.load_put, Ifname.load_store_other, and_self]

/-- The integers of an instance's record fit their fields. -/
structure VrrpdDs.Fits (record : VrrpdDs) : Prop where
  active : Cell.uint.Fits record.active
  pid : Cell.int.Fits record.pid

theorem reads_ds {record : VrrpdDs} (fits : record.Fits) (b : Buffer) :
    (Scan.record dsRecord : Scan Fault (Int × UInt8 × Int)).Reads
      ((record.store b).slice 0 sizeofVrrpdDs) (record.active, record.state.code, record.pid) := by
  obtain ⟨active, pid⟩ := fits
  have widths : Cell.byte.width = 1 ∧ Cell.int.width = 4 ∧ Cell.uint.width = 4 := ⟨rfl, rfl, rfl⟩
  have byteFits := Cell.byte_fits
  have loaded : dsRecord.load (record.store b) 0 =
      (record.active, record.state.code, (record.pid : Int)) := by
    simp (disch := first | assumption | apply byteFits | omega) only [dsRecord, VrrpdDs.store,
      Nat.zero_add, Cell.load_store, Cell.load_store_other]
  rw [← loaded]
  exact Scan.reads_record dsRecord (record.store b)

theorem reads_vrDs {record : VrrpdVrDs} (fits : record.Fits) (timeout : UInt32) (b : Buffer) :
    (Scan.record vrDsRecord : Scan Fault (VrrpAttr × VrrpVr)).Reads
      ((record.store timeout b).slice 0 sizeofVrrpdVrDs)
      (record.attr, { record.vr with vrIp := [] }) := by
  obtain ⟨attr, vr⟩ := VrrpdVrDs.load_store fits timeout b
  have loaded : vrDsRecord.load (record.store timeout b) 0 =
      (record.attr, { record.vr with vrIp := [] }) := congrArg₂ Prod.mk attr vr
  rw [← loaded]
  exact Scan.reads_record vrDsRecord (record.store timeout b)

namespace Daemon

variable {m : RecordMemory} {s : Daemon} {v : DsPtr} {next : Target}

/-- The bytes behind the status. -/
def instxBytes (m : RecordMemory) (s : Daemon) (v : DsPtr) (next : Target) : List UInt8 :=
  s.dsBytes m v ++ (s.vrBytes m (s.ds v).vr ++
    ((s.vrAddresses (s.ds v).vr).flatMap Cell.word.encode ++ next.bytes))

theorem buildVrrpRetGetInstx_eq :
    s.buildVrrpRetGetInstx m v next = .ok (s.instxBytes m v next) := by
  simp only [buildVrrpRetGetInstx, buildVrrpVrBuf, deref_some, ok_bind, pure_eq_ok, instxBytes,
    List.append_nil, List.append_assoc]

/-- **The instance, its addresses and the cursor are read from what is built**, whatever
memory held and whatever lies around it. -/
theorem reads_instx (m : RecordMemory) (ds : (s.ds v).Fits) (vr : (s.vr v).Fits)
    (announced : (s.vr v).vr.vrIp.length = (s.vr v).vr.vrIpnum.toNat)
    (short : next.intf.bytes.length < lifnamsiz) (af : Cell.int.Fits next.af) :
    scanInstx.Reads (s.instxBytes m v next)
      { active := (s.ds v).active, state := (s.ds v).state.code, pid := (s.ds v).pid,
        attr := (s.vr v).attr, vr := { (s.vr v).vr with vrIp := [] },
        vrIp := (s.vr v).vr.vrIp, next } := by
  have addresses : s.vrAddresses (s.ds v).vr = (s.vr v).vr.vrIp := by
    rw [vrAddresses, ← Daemon.vr, ← announced, List.take_length]
  rw [instxBytes, addresses]
  exact (reads_ds ds _).bind ((reads_vrDs vr _ _).bind ((reads_vrIp announced).bind
    ((reads_target short af).map _)))

/-! ## What is sent -/

/-- A search that succeeds hands out an instance. -/
theorem vrrpGetInstx_success {cursor after : Key} {implp : Option DsPtr}
    (found : s.vrrpGetInstx cursor = .ok ((VrrpRet.success.code, implp), after)) :
    ∃ v, implp = some v := by
  obtain ⟨inst, -, replied⟩ := bind_eq_ok.mp found
  cases inst with
  | none => cases replied
  | some v =>
      obtain ⟨name, -, replied⟩ := bind_eq_ok.mp replied
      refine ⟨v, ?_⟩
      split at replied
      · cases replied
        rfl
      · cases replied
        rfl

theorem length_instxBytes_pos : 0 < (s.instxBytes m v next).length := by
  rw [instxBytes, List.length_append, dsBytes, Buffer.length_slice]
  exact Nat.lt_of_lt_of_le (by decide) (Nat.le_add_right ..)

/-- **What is sent is the status**, whatever was built behind it. -/
theorem sentReply_append (ret : Int) (behind : List UInt8) :
    sentReply (buildVrrpRet ret ++ behind) = buildVrrpRet ret :=
  List.take_left' (length_buildVrrpRet ret)

theorem sentReply_status (ret : Int) : sentReply (buildVrrpRet ret) = buildVrrpRet ret :=
  List.take_of_length_le (Nat.le_of_eq (length_buildVrrpRet ret))

/-- The reply to a show request starts with the status. -/
theorem instxReply_sent (m : RecordMemory) {cursor after : Key} {ret : Int} {implp : Option DsPtr}
    (found : s.vrrpGetInstx cursor = .ok ((ret, implp), after)) (next : Target) :
    ∃ reply, s.instxReply m ret implp next = .ok reply ∧ sentReply reply = buildVrrpRet ret := by
  unfold instxReply
  by_cases success : ret = VrrpRet.success.code
  · obtain ⟨v, rfl⟩ := vrrpGetInstx_success (success ▸ found)
    rw [if_pos success, deref_some, ok_bind, buildVrrpRetGetInstx_eq]
    exact ⟨_, rfl, sentReply_append ..⟩
  · rw [if_neg success]
    exact ⟨_, rfl, sentReply_status ret⟩

/-- The local variables of a show request hold what the command returns. -/
theorem getInstxLocals_cases (target : Target) (s : Daemon) :
    (∃ fault, s.getInstxLocals target = .error fault ∧ s.getInstxCommand target = .error fault) ∨
      ∃ cursor after ret implp next, s.vrrpGetInstx cursor = .ok ((ret, implp), after) ∧
        s.getInstxLocals target = .ok ((ret, implp), next) ∧
          s.getInstxCommand target = .ok (ret, s) := by
  unfold getInstxCommand getInstxLocals
  cases looked : s.vrrpGetInstx ⟨target.vid, some target.intf, target.af⟩ with
  | error fault => exact .inl ⟨fault, rfl, rfl⟩
  | ok found =>
      obtain ⟨⟨ret, implp⟩, after⟩ := found
      cases named : after.ifname with
      | none =>
          refine .inr ⟨_, after, ret, implp, ⟨after.vid, target.intf, after.af⟩, looked, ?_⟩
          simp only [ok_bind, named, pure_eq_ok, and_self]
      | some name =>
          cases copied : name.strcpy with
          | error fault =>
              refine .inl ⟨fault, ?_⟩
              simp only [ok_bind, named, copied, error_bind, and_self]
          | ok intf =>
              refine .inr ⟨_, after, ret, implp, ⟨after.vid, intf, after.af⟩, looked, ?_⟩
              simp only [ok_bind, named, copied, pure_eq_ok, and_self]

/-- For any other command the status is all that is built. -/
theorem admReply_status (m : RecordMemory) (w : World) {buf : Buffer} (s : Daemon)
    (other : VrrpCmd.ofCode (getVrrpCmd buf) ≠ some .getInstx) :
    s.admReply m w buf = (s.admCommand w buf).map fun r => (buildVrrpRet r.1, r.2) := by
  unfold admReply
  split
  · exact absurd ‹_› other
  · cases s.admCommand w buf with
    | error fault => rfl
    | ok returned => rfl

/-- **`process_adm_sock` sends the start of what it built.** -/
theorem processAdmSock_eq (m : RecordMemory) (w : World) (datagram : List UInt8) (residue : Buffer)
    (s : Daemon) (long : sizeofVrrpCmd ≤ (admReceived datagram).length) :
    s.processAdmSock w datagram residue =
      (s.admReply m w (admBuffer datagram residue)).map fun r => (some (sentReply r.1), r.2) := by
  rw [processAdmSock, if_neg (Nat.not_lt.mpr long)]
  by_cases shown : VrrpCmd.ofCode (getVrrpCmd (admBuffer datagram residue)) = some .getInstx
  · rw [admReply, admCommand, shown]
    cases scanTarget.run (admBuffer datagram residue) sizeofVrrpCmd with
    | error fault => rfl
    | ok parsed =>
        obtain ⟨target, after⟩ := parsed
        obtain ⟨fault, locals, returned⟩ |
          ⟨cursor, behind, ret, implp, next, found, locals, returned⟩ :=
          getInstxLocals_cases target s
        · simp only [ok_bind, locals, returned, error_bind]
          rfl
        · obtain ⟨reply, built, sent⟩ := instxReply_sent m found next
          simp only [ok_bind, locals, returned, built, pure_eq_ok, Except.map, sent]
  · rw [admReply_status m w s shown]
    cases s.admCommand w (admBuffer datagram residue) with
    | error fault => rfl
    | ok returned => simp only [ok_bind, pure_eq_ok, Except.map, sentReply_status]

/-- A request is answered with the bytes that were built, all of them. -/
def SendsWhole (m : RecordMemory) (w : World) (datagram : List UInt8) (residue : Buffer)
    (s : Daemon) : Prop :=
  ∃ reply s', s.admReply m w (admBuffer datagram residue) = .ok (reply, s') ∧
    s.processAdmSock w datagram residue = .ok (some reply, s')

/-- A datagram asks for an instance, and the search for it succeeds. -/
structure Shows (datagram : List UInt8) (residue : Buffer) (s : Daemon) (v : DsPtr)
    (next : Target) : Prop where
  long : sizeofVrrpCmd ≤ (admReceived datagram).length
  command : VrrpCmd.ofCode (getVrrpCmd (admBuffer datagram residue)) = some .getInstx
  found : ∃ target after, scanTarget.run (admBuffer datagram residue) sizeofVrrpCmd =
      .ok (target, after) ∧
    s.getInstxLocals target = .ok ((VrrpRet.success.code, some v), next)

/-- What is built for an instance that was found. -/
theorem Shows.built {datagram : List UInt8} {residue : Buffer}
    (shows : Shows datagram residue s v next)
    (m : RecordMemory) (w : World) :
    s.admReply m w (admBuffer datagram residue) =
      .ok (buildVrrpRet VrrpRet.success.code ++ s.instxBytes m v next, s) := by
  obtain ⟨-, command, target, after, parsed, found⟩ := shows
  rw [admReply, command]
  simp only [parsed, ok_bind, found, instxReply, reduceIte, deref_some, buildVrrpRetGetInstx_eq,
    pure_eq_ok]

/-- What is sent for it. -/
theorem Shows.sent {datagram : List UInt8} {residue : Buffer}
    (shows : Shows datagram residue s v next)
    (w : World) :
    s.processAdmSock w datagram residue =
      .ok (some (buildVrrpRet VrrpRet.success.code), s) := by
  have nothing : RecordMemory := ⟨fun _ _ => 0, fun _ _ => 0⟩
  rw [processAdmSock_eq nothing w datagram residue s shows.long, shows.built nothing w]
  simp only [Except.map, sentReply_append]

theorem Shows.not_sendsWhole {datagram : List UInt8} {residue : Buffer}
    (shows : Shows datagram residue s v next) (m : RecordMemory) (w : World) :
    ¬ s.SendsWhole m w datagram residue := by
  rintro ⟨reply, s', built, sent⟩
  rw [shows.built m w] at built
  rw [shows.sent w] at sent
  cases built
  have same := congrArg Prod.fst (Except.ok.inj sent)
  have nothing := List.self_eq_append_right.mp (Option.some.inj same)
  exact absurd (congrArg List.length nothing) (Nat.ne_of_gt length_instxBytes_pos)

/-- **No show request is answered whole.** In every state, for every datagram that asks for
an instance which is found, with any addresses and any cursor: behind the status the
records, the addresses and the cursor are built, and what is sent is the status alone. -/
theorem processAdmSock_truncates (m : RecordMemory) (w : World) (datagram : List UInt8)
    (residue : Buffer) (s : Daemon) (v : DsPtr) (next : Target)
    (shows : Shows datagram residue s v next) :
    ¬ s.SendsWhole m w datagram residue ∧
      s.admReply m w (admBuffer datagram residue) =
        .ok (buildVrrpRet VrrpRet.success.code ++ s.instxBytes m v next, s) ∧
      s.processAdmSock w datagram residue =
        .ok (some (buildVrrpRet VrrpRet.success.code), s) :=
  ⟨shows.not_sendsWhole m w, shows.built m w, shows.sent w⟩

/-- The request for the first instance. -/
def firstRequest : List UInt8 := buildVrrpCmd (fun _ => 0) .getInstx (showTarget 0)

theorem firstRequest_shows :
    ∃ s, Reachable .plain s ∧ Shows firstRequest (fun _ => 0) s 1 (showTarget 0) := by
  have ran : passes (fun s => s.next instRuntimeList == some 1 && s.next 1 == none)
      (exec (step .plain) [.create 7 100] initial) = true := by decide +kernel
  obtain ⟨s, returns, tested⟩ := exists_of_passes ran
  simp only [Bool.and_eq_true, beq_iff_eq] at tested
  obtain ⟨first, last⟩ := tested
  have reads : scanTarget.Reads (showTarget 0).bytes (showTarget 0) :=
    reads_target (by decide) ⟨by decide, by decide⟩
  have parsed : scanTarget.run (admBuffer firstRequest fun _ => 0) sizeofVrrpCmd =
      .ok (showTarget 0, firstRequest.length) :=
    @parse_of_reads .getInstx (showTarget 0) (fun _ => 0) reads fun _ => 0
  have found : s.getInstxLocals (showTarget 0) =
      .ok ((VrrpRet.success.code, some 1), showTarget 0) := by
    have start : s.cursorInst .wildcard = .ok (some 1) := congrArg Except.ok first
    have looked : s.vrrpGetInstx .wildcard =
        .ok ((VrrpRet.success.code, some 1), .wildcard) := by
      rw [vrrpGetInstx, start, ok_bind]
      simp only [last]
      rfl
    have asked : s.vrrpGetInstx ⟨(showTarget 0).vid, some (showTarget 0).intf, (showTarget 0).af⟩ =
        .ok ((VrrpRet.success.code, some 1), .wildcard) := looked
    rw [getInstxLocals, asked]
    rfl
  exact ⟨s, ⟨_, run_of_exec returns⟩, by decide, by decide +kernel, showTarget 0, _, parsed, found⟩

/-- A show request for the first instance, once there is one. -/
theorem processAdmSock_truncates_first : ∃ s, Reachable .plain s ∧
    ¬ s.SendsWhole ⟨fun _ _ => 0, fun _ _ => 0⟩ .plain firstRequest fun _ => 0 := by
  obtain ⟨s, reachable, shows⟩ := firstRequest_shows
  exact ⟨s, reachable, (processAdmSock_truncates ⟨fun _ _ => 0, fun _ _ => 0⟩ .plain firstRequest
    (fun _ => 0) s 1 (showTarget 0) shows).1⟩

/-- **The reply lacks the instance.** After a create, the request for the first instance
succeeds, and the reply that was built is not what is sent. -/
theorem processAdmSock_statusOnly : ∃ s, Reachable .plain s ∧
    Shows firstRequest (fun _ => 0) s 1 (showTarget 0) ∧
      ¬ s.SendsWhole ⟨fun _ _ => 0, fun _ _ => 0⟩ .plain firstRequest fun _ => 0 := by
  obtain ⟨s, reachable, shows⟩ := firstRequest_shows
  exact ⟨s, reachable, shows, shows.not_sendsWhole ⟨fun _ _ => 0, fun _ _ => 0⟩ .plain⟩

end Daemon

end VrrpDaemon
