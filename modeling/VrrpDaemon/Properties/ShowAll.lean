import VrrpDaemon.Model.ShowAll
import VrrpDaemon.Properties.StatusReply

/-!
# Showing all instances does not end

An 8-bit counter is always below 256, and `vrrp_all_cmd` reports a success for every
well-formed reply, whatever its status. So `cmd_show_all` asks for VRID 0 to 255 over
and over, unless it stops in a fault (`cmdShowAll_never`).
-/

set_option autoImplicit false

namespace VrrpDaemon

open Machine

/-- A reply starts with `CMD_RETURN_VAL` and a status; an instance may follow. -/
def WellFormedReply (reply : List UInt8) : Prop :=
  ∃ (status : Int) (rest : List UInt8), reply = buildVrrpRet status ++ rest

namespace ShowWorld

variable {w : ShowWorld}

/-- `cmd_show_all` returns, having asked for no VRID twice. -/
def ShowsOnce (w : ShowWorld) : Prop :=
  ∃ rounds, (cmdShowAll w rounds).2 = .returned ∧ (cmdShowAll w rounds).1.Nodup

/-- **Every well-formed reply counts as a success**, if what is printed of it does no harm. -/
theorem vrrpAllCmd_wellFormed (c : Client) (request : Buffer) {reply : List UInt8}
    (wellFormed : WellFormedReply reply) {ret : Int}
    (returns : vrrpAllCmd c request (some reply) = .ok ret) : ret = VrrpRet.success.code := by
  obtain ⟨status, rest, rfl⟩ := wellFormed
  have code : getVrrpCmd (.holding (buildVrrpRet status ++ rest) request) =
      VrrpCmd.returnVal.code := by
    rw [buildVrrpRet, List.append_assoc]
    exact Cell.load_holding [] (Cell.uint.encode status ++ rest) VrrpCmd.returnVal.code_fits
  obtain ⟨⟨decoded, len⟩, issued, same⟩ := bind_eq_ok.mp returns
  cases same
  have length : len = ((buildVrrpRet status ++ rest).length : Int) := by
    simp only [issueVrrpCmd, code, ne_eq, not_true_eq_false, reduceIte] at issued
    split at issued
    · split at issued
      · cases issued
        rfl
      · cases issued
    · cases issued
      rfl
  exact if_pos (by omega)

/-- The counter passes the test of the loop. -/
theorem counter_lt (vid : UInt8) : (vid + 1).toNat < 256 := UInt8.toNat_lt _

/-- **The loop does not return** by itself. -/
theorem showAllLoop_not_returned (answers : ∀ k, WellFormedReply (w.answer k)) (rounds : Nat) :
    ∀ k vid, (showAllLoop w rounds k vid).2 ≠ .returned := by
  induction rounds with
  | zero => exact fun k vid => nofun
  | succ rounds ih =>
      intro k vid
      rw [showAllLoop]
      cases asked : cmdGetInstx w k vid with
      | error fault => exact nofun
      | ok ret =>
          have success := vrrpAllCmd_wellFormed _ _ (answers k) asked
          simp only [success, ne_eq, not_true_eq_false, reduceIte, counter_lt]
          split
          · exact nofun
          · exact ih (k + 1) (vid + 1)

/-- A round comes to its end: what is printed of the reply does no harm, nor does what is
displayed and freed. -/
structure Passes (w : ShowWorld) (k : Nat) : Prop where
  printed : ∀ vid, ∃ ret, cmdGetInstx w k vid = .ok ret
  usable : w.usable k = true

/-- **The VRIDs asked for** as long as the rounds come to their end. -/
theorem showAllLoop_requests (answers : ∀ k, WellFormedReply (w.answer k)) (rounds : Nat) :
    ∀ k vid, (∀ i, i < rounds → w.Passes (k + i)) →
      (showAllLoop w rounds k vid).1 = (List.range rounds).map fun i => vid + UInt8.ofNat i := by
  induction rounds with
  | zero => exact fun k vid _ => rfl
  | succ rounds ih =>
      intro k vid passes
      have here : w.Passes k := passes 0 (Nat.succ_pos rounds)
      obtain ⟨ret, asked⟩ := here.printed vid
      have success := vrrpAllCmd_wellFormed _ _ (answers k) asked
      have later := ih (k + 1) (vid + 1) fun i inside => by
        rw [Nat.add_assoc, Nat.add_comm 1 i]
        exact passes (i + 1) (Nat.succ_lt_succ inside)
      rw [showAllLoop, asked]
      simp only [success, ne_eq, not_true_eq_false, reduceIte, here.usable, counter_lt,
        Bool.not_true, Bool.false_eq_true, later, List.range_succ_eq_map, List.map_cons,
        List.map_map]
      refine congrArg₂ List.cons (by simp) (List.map_congr_left fun i _ => ?_)
      simp only [Function.comp_apply, Nat.succ_eq_add_one, UInt8.ofNat_add, UInt8.add_assoc]
      exact congrArg (vid + ·) (UInt8.add_comm ..)

/-- **Showing all instances never ends properly.** Whatever well-formed replies the daemon
gives, with statuses of success or failure, `cmd_show_all` does not return: it stops in a
fault, or it makes as many requests as one likes, for the VRIDs from 0 to 255 over and
over. -/
theorem cmdShowAll_never (w : ShowWorld) (answers : ∀ k, WellFormedReply (w.answer k)) :
    ¬ w.ShowsOnce ∧ (∀ rounds, (cmdShowAll w rounds).2 ≠ .returned) ∧
      ∀ rounds, (∀ i, i < rounds → w.Passes i) →
        (cmdShowAll w rounds).1 = (List.range rounds).map UInt8.ofNat := by
  have stays : ∀ rounds, (cmdShowAll w rounds).2 ≠ .returned :=
    fun rounds => showAllLoop_not_returned answers rounds 0 0
  refine ⟨fun once => ?_, stays, fun rounds passes => ?_⟩
  · obtain ⟨rounds, returned, -⟩ := once
    exact stays rounds returned
  · have asked := showAllLoop_requests answers rounds 0 0 fun i inside => by
      rw [Nat.zero_add]
      exact passes i inside
    simpa [cmdShowAll] using asked

/-- A daemon without instances, and a pointer that faults when it is displayed. -/
def empty : ShowWorld where
  answer _ := buildVrrpRet VrrpRet.enoinst.code
  residue _ _ := 0
  client _ := .plain
  usable _ := false

theorem empty_answers (k : Nat) : WellFormedReply (empty.answer k) :=
  ⟨VrrpRet.enoinst.code, [], (List.append_nil _).symm⟩

/-- With no instance at all the first reply is displayed, through a pointer that is none. -/
theorem cmdShowAll_never_empty : ¬ empty.ShowsOnce ∧ cmdShowAll empty 1 = ([0], .faulted) :=
  have never := cmdShowAll_never empty empty_answers
  ⟨never.1, by decide +kernel⟩

/-- **The report that there is no instance is shown**, which ends in a fault after the first
request. -/
theorem cmdShowAll_faults : (∀ k, WellFormedReply (empty.answer k)) ∧ ¬ empty.ShowsOnce ∧
    cmdShowAll empty 1 = ([0], .faulted) := by
  refine ⟨empty_answers, fun once => ?_, by decide +kernel⟩
  obtain ⟨rounds, returned, -⟩ := once
  exact showAllLoop_not_returned empty_answers rounds 0 0 returned

end ShowWorld

end VrrpDaemon
