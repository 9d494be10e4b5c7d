import VrrpDaemon.Model.AdmSocket

/-!
# The status that the administrator sees

The daemon's reply has the status in its second word, and the administrator looks
for it in the fifth, which the reply does not reach. What is found there is left
over from the request or from before, and `vrrp_all_cmd` turns any reply into
`VRRP_SUCCESS` (`vrrpAllCmd_status`).
-/

set_option autoImplicit false

namespace VrrpDaemon

open Machine

/-- The administrator sees the status of a reply: `issue_vrrp_cmd` decodes it from
the reply, whatever else is in its buffer, and `vrrp_all_cmd` returns it. -/
structure SeesStatus (c : Client) (request : Buffer) (status : VrrpRet) : Prop where
  decoded : ∀ buf, ∃ len, issueVrrpCmd c buf (some (buildVrrpRet status.code)) =
    .ok (some status.code, len)
  returned : vrrpAllCmd c request (some (buildVrrpRet status.code)) = .ok status.code

theorem length_buildVrrpRet (rval : Int) :
    (buildVrrpRet rval).length = sizeofVrrpCmd + sizeofVrrpRet := by
  rw [buildVrrpRet, List.length_append, Cell.length_encode, Cell.length_encode]
  rfl

/-- A reply is answered with its length, and with the word that the buffer holds
at the offset looked at, if its name can be printed. -/
theorem issueVrrpCmd_buildVrrpRet (c : Client) (buf : Buffer) (rval : Int) :
    issueVrrpCmd c buf (some (buildVrrpRet rval)) =
      if c.prints (Cell.uint.load buf statusOffset) then
        .ok (some (Cell.uint.load buf statusOffset), 8)
      else .error .wildPointer := by
  have code : getVrrpCmd (.holding (buildVrrpRet rval) buf) = VrrpCmd.returnVal.code :=
    Cell.load_holding [] (Cell.uint.encode rval) VrrpCmd.returnVal.code_fits
  have length := length_buildVrrpRet rval
  have beyond : Cell.uint.load (.holding (buildVrrpRet rval) buf) statusOffset =
      Cell.uint.load buf statusOffset := by
    refine Cell.load_put_other (.inr ?_)
    rw [length]
    decide
  simp only [issueVrrpCmd, code, ne_eq, not_true_eq_false, reduceIte, length, beyond]
  rfl

theorem vrrpAllCmd_buildVrrpRet (c : Client) (request : Buffer) (rval : Int) :
    vrrpAllCmd c request (some (buildVrrpRet rval)) =
      if c.prints (Cell.uint.load request statusOffset) then .ok VrrpRet.success.code
      else .error .wildPointer := by
  rw [vrrpAllCmd, issueVrrpCmd_buildVrrpRet]
  split <;> rfl

/-- A name that the table has is printed. -/
theorem Client.prints_of_lt {c : Client} {i : Int} (low : 0 ≤ i) (high : i < vrrpRetsLength) :
    c.prints i = true := by
  rw [Client.prints, decide_eq_true low, decide_eq_true high]
  rfl

/-- **No status is seen.** For every command with any arguments and every status
of the reply, the administrator does not see the status: it is not decoded from
the reply. The value decoded and the value returned are those of the status
exactly when it is `VRRP_SUCCESS` and the word looked at happens to be 0 in the
buffer of the request. -/
theorem vrrpAllCmd_status (c : Client) (heap residue : Buffer) (cmd : VrrpCmd)
    (args : cmd.Args) (status : VrrpRet) :
    ¬ SeesStatus c (requestBuffer heap residue cmd args) status ∧
      ((∃ len, issueVrrpCmd c (requestBuffer heap residue cmd args)
            (some (buildVrrpRet status.code)) = .ok (some status.code, len)) ∧
          vrrpAllCmd c (requestBuffer heap residue cmd args)
            (some (buildVrrpRet status.code)) = .ok status.code ↔
        status = .success ∧
          Cell.uint.load (requestBuffer heap residue cmd args) statusOffset = 0) := by
  constructor
  · rintro ⟨decoded, -⟩
    -- two buffers that differ in the word looked at
    obtain ⟨len, one⟩ := decoded fun _ => 0
    obtain ⟨len', other⟩ := decoded fun k => if k = 16 then 1 else 0
    have zero : Cell.uint.load (fun _ => 0) statusOffset = 0 := by decide
    have next : Cell.uint.load (fun k => if k = 16 then 1 else 0) statusOffset = 1 := by decide
    rw [issueVrrpCmd_buildVrrpRet, zero, if_pos (Client.prints_of_lt (by decide) (by decide)),
      Except.ok.injEq, Prod.mk.injEq, Option.some.injEq] at one
    rw [issueVrrpCmd_buildVrrpRet, next, if_pos (Client.prints_of_lt (by decide) (by decide)),
      Except.ok.injEq, Prod.mk.injEq, Option.some.injEq] at other
    exact absurd (one.1.trans other.1.symm) (by decide)
  · rw [issueVrrpCmd_buildVrrpRet, vrrpAllCmd_buildVrrpRet]
    constructor
    · rintro ⟨⟨len, decoded⟩, returned⟩
      split at decoded
      · rename_i printed
        rw [if_pos printed, Except.ok.injEq] at returned
        rw [Except.ok.injEq, Prod.mk.injEq, Option.some.injEq] at decoded
        have success : status = .success := by
          cases status <;> first | rfl | cases returned
        subst success
        exact ⟨rfl, decoded.1⟩
      · cases decoded
    · rintro ⟨rfl, zero⟩
      rw [zero, if_pos (Client.prints_of_lt (by decide) (by decide)),
        if_pos (Client.prints_of_lt (by decide) (by decide))]
      exact ⟨⟨8, rfl⟩, rfl⟩

/-- An administrator that sends its requests, and has no texts behind `vrrp_rets`. -/
def Client.plain : Client where
  behindLen := 0
  readable _ := false
  undefined := 0

/-- **A failure is reported as a success.** The daemon answers a startup with
`VRRP_ENOINST`; `issue_vrrp_cmd` decodes a word that it did not receive, and
`vrrp_all_cmd` returns `VRRP_SUCCESS`. -/
theorem vrrpAllCmd_failure :
    vrrpAllCmd .plain (requestBuffer (fun _ => 0) (fun _ => 0) .startupInst
        (⟨7, .eth0, afInet⟩ : Target)) (some (buildVrrpRet VrrpRet.enoinst.code)) =
      .ok VrrpRet.success.code ∧
      (∀ len, issueVrrpCmd .plain (requestBuffer (fun _ => 0) (fun _ => 0) .startupInst
        (⟨7, .eth0, afInet⟩ : Target)) (some (buildVrrpRet VrrpRet.enoinst.code)) ≠
          .ok (some VrrpRet.enoinst.code, len)) ∧
      ¬ SeesStatus .plain (requestBuffer (fun _ => 0) (fun _ => 0) .startupInst
        (⟨7, .eth0, afInet⟩ : Target)) .enoinst := by
  have zero : Cell.uint.load (requestBuffer (fun _ => 0) (fun _ => 0) .startupInst
      (⟨7, .eth0, afInet⟩ : Target)) statusOffset = 0 := by decide +kernel
  have printed : Client.plain.prints 0 = true := Client.prints_of_lt (by decide) (by decide)
  refine ⟨?_, fun len decoded => ?_, fun sees => ?_⟩
  · rw [vrrpAllCmd_buildVrrpRet, zero, if_pos printed]
  · rw [issueVrrpCmd_buildVrrpRet, zero, if_pos printed] at decoded
    cases decoded
  · have returned := sees.returned
    rw [vrrpAllCmd_buildVrrpRet, zero, if_pos printed] at returned
    cases returned

end VrrpDaemon
