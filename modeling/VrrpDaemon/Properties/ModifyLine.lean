import VrrpDaemon.Behaviour.Commands
import VrrpDaemon.Properties.Administrator

/-!
# Changes whose arguments stand apart

`cmd_modify` scans its arguments twice. The first scan does not know the options of what is to
be changed, and moves their arguments, if these are words of their own, behind everything else.
The second scan then takes the word that is next by now. So a line whose arguments stand apart
is carried out as it was typed exactly if what is to be changed comes last
(`cmdModify_apart_iff`).

The sub-options for the modes are among the options of neither scan, so no line changes the
mode of an instance (`Daemon.modes_kept`).
-/

set_option autoImplicit false

namespace VrrpDaemon

open Machine

/-! ## Options with arguments apart -/

/-- The words of an option whose argument is the next word. -/
def apart (opt : UInt8 × List UInt8) : List (List UInt8) := [[dash, opt.1], opt.2]

/-- Options of `cmd_modify` as one would type them: of the instance or of what is to be changed,
of the latter each once at most and with a value that is not zero, with arguments that do not
look like options, and names that fit their array. -/
structure TypedApart (opts : List (UInt8 × List UInt8)) : Prop where
  letters : ∀ opt ∈ opts, isChange opt.1 = false → opt.1 = 118 ∨ opt.1 = 97 ∨ opt.1 = 105
  plain : ∀ opt ∈ opts, isOption dash opt.2 = false
  once : opts.Pairwise fun opt other => isChange opt.1 = true → other.1 ≠ opt.1
  nonzero : ∀ opt ∈ opts, isChange opt.1 = true → toInt (strtol opt.2) ≠ 0
  names : NamesFit opts

/-- No option of what is to be changed has another option behind it. -/
def ChangesLast (opts : List (UInt8 × List UInt8)) : Prop :=
  opts.Pairwise fun opt _ => isChange opt.1 = false

variable {opts before after : List (UInt8 × List UInt8)} {name : List UInt8}

/-- Behind an option of what is to be changed it is not given again. -/
theorem TypedApart.others {opt : UInt8 × List UInt8} (typed : TypedApart (before ++ opt :: after))
    (change : isChange opt.1 = true) : ∀ other ∈ after, other.1 ≠ opt.1 := fun other member =>
  (List.pairwise_cons.mp (List.pairwise_append.mp typed.once).2.1).1 other member change

/-! ## The first scan -/

/-- An option as the first scan sees it. -/
def seenFirst (opt : UInt8 × List UInt8) : List (Item UInt8) :=
  if isChange opt.1 then [.foreign [opt.1], .operand opt.2] else [.separate opt.1 opt.2]

theorem words_seenFirst (opts : List (UInt8 × List UInt8)) :
    (opts.flatMap seenFirst).flatMap (Item.words dash) = opts.flatMap apart := by
  rw [List.flatMap_assoc]
  refine congrArg (List.flatMap · opts) (funext fun opt => ?_)
  rw [seenFirst]
  split <;> rfl

theorem TypedApart.properFirst (typed : TypedApart opts) :
    ProperFor idOptions (opts.flatMap seenFirst) := by
  intro item member
  obtain ⟨opt, inside, member⟩ := List.mem_flatMap.mp member
  rw [seenFirst] at member
  split at member
  · rename_i change
    have foreign := takes_id_change change
    rcases List.mem_pair.mp member with rfl | rfl
    · refine ⟨List.cons_ne_nil _ _, ?_, ?_⟩
      · rcases isChange_iff.mp change with same | same <;> rw [same] <;> decide
      · intro c only
        rw [List.mem_singleton.mp only]
        exact foreign
    · exact typed.plain opt inside
  · rename_i other
    rw [List.mem_singleton.mp member]
    rcases typed.letters opt inside (Bool.not_eq_true _ ▸ other) with same | same | same <;>
      exact ⟨by rw [same]; decide, by rw [same]; decide⟩

/-- The words that the first scan leaves in front. -/
def leftFirst (opt : UInt8 × List UInt8) : List (List UInt8) :=
  if isChange opt.1 then [[dash, opt.1]] else apart opt

/-- The words that the first scan moves behind. -/
def movedBehind (opt : UInt8 × List UInt8) : List (List UInt8) :=
  if isChange opt.1 then [opt.2] else []

theorem TypedApart.permuted (typed : TypedApart opts) :
    permuted idOptions (name :: opts.flatMap apart) =
      name :: (opts.flatMap leftFirst ++ opts.flatMap movedBehind) := by
  have front : (opts.flatMap seenFirst).flatMap (Item.front dash) = opts.flatMap leftFirst := by
    rw [List.flatMap_assoc]
    refine congrArg (List.flatMap · opts) (funext fun opt => ?_)
    rw [seenFirst, leftFirst]
    split <;> rfl
  have back : (opts.flatMap seenFirst).flatMap Item.back = opts.flatMap movedBehind := by
    rw [List.flatMap_assoc]
    refine congrArg (List.flatMap · opts) (funext fun opt => ?_)
    rw [seenFirst, movedBehind]
    split <;> rfl
  rw [← words_seenFirst, permuted_items typed.properFirst, front, back]

/-- The options of the instance. -/
theorem typedOpts_seenFirst (opts : List (UInt8 × List UInt8)) :
    typedOpts (opts.flatMap seenFirst) = opts.filter fun opt => !isChange opt.1 := by
  induction opts with
  | nil => rfl
  | cons opt opts ih =>
      have one : (seenFirst opt).filterMap Item.pair = if isChange opt.1 then [] else [opt] := by
        rw [seenFirst]
        cases isChange opt.1 <;> rfl
      have rest : (opts.flatMap seenFirst).filterMap Item.pair = _ := ih
      rw [List.flatMap_cons, typedOpts, List.filterMap_append, one, rest, List.filter_cons]
      cases isChange opt.1 <;> rfl

/-- What designates the instance is kept. -/
theorem lastArg_kept {letter : UInt8} (other : isChange letter = false)
    (opts : List (UInt8 × List UInt8)) :
    lastArg letter (opts.filter fun opt => !isChange opt.1) = lastArg letter opts := by
  induction opts with
  | nil => rfl
  | cons opt opts ih =>
      rw [List.filter_cons, lastArg_cons]
      cases change : isChange opt.1 with
      | false =>
          rw [← ih]
          exact lastArg_cons letter opt
      | true =>
          have different : opt.1 ≠ letter := by
            rintro rfl
            rw [change] at other
            cases other
          rw [if_neg different, Option.or_none, ← ih]
          rfl

/-- **The first scan finds the instance.** -/
theorem TypedApart.parsed (typed : TypedApart opts) {target : Target}
    (designates : Designates opts noIds target) :
    parseOptIds (name :: opts.flatMap apart) =
      .ok (target, name :: (opts.flatMap leftFirst ++ opts.flatMap movedBehind)) := by
  have found : optsOf idOptions (name :: opts.flatMap apart) =
      opts.filter fun opt => !isChange opt.1 := by
    rw [← words_seenFirst, optsOf_items typed.properFirst, typedOpts_seenFirst]
  refine (parseOptIds_returns_iff _ _ _).mpr ⟨?_, ⟨?_, ?_, designates.af⟩, typed.permuted.symm⟩
  · rw [found]
    exact fun opt member => typed.names opt (List.mem_filter.mp member).1
  · rw [found, lastArg_kept rfl]
    exact designates.vid
  · rw [found, lastArg_kept rfl]
    exact designates.intf

/-! ## The second scan -/

/-- An option of the instance as the second scan sees it. -/
def seenSecond (opt : UInt8 × List UInt8) : List (Item UInt8) := [.foreign [opt.1], .operand opt.2]

/-- No option is one of what is to be changed. -/
def NoChange (opts : List (UInt8 × List UInt8)) : Prop := ∀ opt ∈ opts, isChange opt.1 = false

theorem words_seenSecond (noChange : NoChange before) :
    (before.flatMap seenSecond).flatMap (Item.words dash) = before.flatMap leftFirst := by
  rw [List.flatMap_assoc]
  refine List.flatMap_congr fun opt member => ?_
  rw [leftFirst, noChange opt member]
  rfl

theorem movedBehind_none (noChange : NoChange before) : before.flatMap movedBehind = [] := by
  refine List.flatMap_eq_nil_iff.mpr fun opt member => ?_
  rw [movedBehind, noChange opt member]
  rfl

theorem typedOpts_seenSecond (opts : List (UInt8 × List UInt8)) :
    typedOpts (opts.flatMap seenSecond) = [] := by
  refine List.filterMap_eq_nil_iff.mpr fun item member => ?_
  obtain ⟨opt, -, member⟩ := List.mem_flatMap.mp member
  rcases List.mem_pair.mp member with rfl | rfl <;> rfl

theorem TypedApart.properSecond (typed : TypedApart (before ++ after)) (noChange : NoChange before) :
    ProperFor changeOptions (before.flatMap seenSecond) := by
  intro item member
  obtain ⟨opt, inside, member⟩ := List.mem_flatMap.mp member
  have listed : opt ∈ before ++ after := List.mem_append_left _ inside
  rcases List.mem_pair.mp member with rfl | rfl
  · have letter := typed.letters opt listed (noChange opt inside)
    refine ⟨List.cons_ne_nil _ _, ?_, ?_⟩
    · rcases letter with same | same | same <;> rw [same] <;> decide
    · intro c only
      rw [List.mem_singleton.mp only]
      rcases letter with same | same | same <;> rw [same] <;> decide
  · exact typed.plain opt listed

/-- Nothing is to be changed. -/
theorem TypedApart.unchanged (typed : TypedApart opts) (noChange : NoChange opts) :
    optsOf changeOptions (name :: (opts.flatMap leftFirst ++ opts.flatMap movedBehind)) = [] := by
  have typed : TypedApart (opts ++ []) := by rwa [List.append_nil]
  rw [movedBehind_none noChange, List.append_nil, ← words_seenSecond noChange,
    optsOf_items (typed.properSecond noChange), typedOpts_seenSecond]

/-- What is found behind options of the instance: the first option of what is to be changed, with
the word that is next by now. -/
theorem TypedApart.found (typed : TypedApart (before ++ after)) (noChange : NoChange before)
    {c : UInt8} (change : isChange c = true) (word : List UInt8) (later : List (List UInt8)) :
    optsOf changeOptions (name :: (before.flatMap leftFirst ++ [dash, c] :: word :: later)) =
      (c, word) ::
        (getopts dash (optstring colon (ascii changeOptions)) none later).opts.filterMap
          Opt.pair := by
  have proper : ProperFor changeOptions (before.flatMap seenSecond ++ [Item.separate c word]) := by
    intro item member
    rcases List.mem_append.mp member with inside | last
    · exact typed.properSecond noChange item inside
    · rw [List.mem_singleton.mp last]
      refine ⟨?_, takes_change_change change⟩
      rcases isChange_iff.mp change with rfl | rfl <;> decide
  have words : before.flatMap leftFirst ++ [dash, c] :: word :: later =
      (before.flatMap seenSecond ++ [Item.separate c word]).flatMap (Item.words dash) ++ later := by
    rw [List.flatMap_append, words_seenSecond noChange, List.append_assoc]
    rfl
  have pairs : ((before.flatMap seenSecond ++ [Item.separate c word]).flatMap Item.found).filterMap
      Opt.pair = [(c, word)] := by
    rw [pairs_found, List.filterMap_append]
    exact congrArg (· ++ [(c, word)]) (typedOpts_seenSecond before)
  rw [optsOf, scanArgv, List.tail_cons, words, getopts_items proper, List.filterMap_append, pairs]
  rfl

/-- The option that is found first is not found again. -/
theorem TypedApart.foundOnce {c : UInt8} {arg : List UInt8} {next : UInt8 × List UInt8}
    (typed : TypedApart (before ++ (c, arg) :: next :: after)) (change : isChange c = true)
    {later : List (List UInt8)}
    (words : later = (if isChange next.1 then [] else [next.2]) ++ (after.flatMap leftFirst ++
      (before ++ (c, arg) :: next :: after).flatMap movedBehind)) :
    lastArg c ((getopts dash (optstring colon (ascii changeOptions)) none later).opts.filterMap
      Opt.pair) = none := by
  refine lastWrite_eq_none.mpr fun pair found => if_neg fun same => ?_
  obtain ⟨opt, given, pair⟩ := List.mem_filterMap.mp found
  cases opt with
  | unknown | missing => cases pair
  | given d arg' =>
      cases pair
      cases same
      obtain waits | ⟨cs, member, inside⟩ := mem_of_given given
      · cases waits
      · have looks : isOption dash (dash :: cs) = true := by
          cases cs with
          | nil => cases inside
          | cons => simp [isOption]
        have noArg : ∀ opt ∈ before ++ (d, arg) :: next :: after, opt.2 ≠ dash :: cs := by
          intro opt listed same
          have plain := typed.plain opt listed
          rw [same, looks] at plain
          cases plain
        have others : ∀ opt ∈ next :: after, opt.1 ≠ d := typed.others change
        rw [words] at member
        rcases List.mem_append.mp member with first | member
        · split at first
          · cases first
          · exact noArg next (by simp) (List.mem_singleton.mp first).symm
        · rcases List.mem_append.mp member with front | back
          · obtain ⟨opt, listed, word⟩ := List.mem_flatMap.mp front
            have letter : dash :: cs = [dash, opt.1] := by
              rw [leftFirst] at word
              split at word
              · exact List.mem_singleton.mp word
              · rcases List.mem_pair.mp word with same | same
                · exact same
                · exact absurd same.symm (noArg opt (by simp [listed]))
            cases letter
            exact others opt (List.mem_cons_of_mem _ listed) (List.mem_singleton.mp inside).symm
          · obtain ⟨opt, listed, word⟩ := List.mem_flatMap.mp back
            rw [movedBehind] at word
            split at word
            · exact noArg opt listed (List.mem_singleton.mp word).symm
            · cases word

/-! ## The law -/

/-- A word that is an option is no number. -/
theorem strtol_option {c : UInt8} (letter : c = 118 ∨ c = 97 ∨ c = 105 ∨ isChange c = true) :
    toInt (strtol [dash, c]) = 0 := by
  rw [isChange_iff] at letter
  rcases letter with rfl | rfl | rfl | rfl | rfl <;> decide

/-- What comes last is changed. -/
theorem TypedApart.changed_last {opt : UInt8 × List UInt8} (typed : TypedApart (before ++ [opt]))
    (noChange : NoChange before) (change : isChange opt.1 = true) :
    optsOf changeOptions (name :: ((before ++ [opt]).flatMap leftFirst ++
      (before ++ [opt]).flatMap movedBehind)) = [opt] := by
  have words : (before ++ [opt]).flatMap leftFirst ++ (before ++ [opt]).flatMap movedBehind =
      before.flatMap leftFirst ++ [dash, opt.1] :: opt.2 :: [] := by
    rw [List.flatMap_append, List.flatMap_append, movedBehind_none noChange, List.flatMap_singleton,
      List.flatMap_singleton, leftFirst, movedBehind, if_pos change, if_pos change]
    simp
  rw [words, typed.found noChange change]
  rfl

/-- What does not come last is changed to zero. -/
theorem TypedApart.changed_zero {opt next : UInt8 × List UInt8}
    (typed : TypedApart (before ++ opt :: next :: after)) (noChange : NoChange before)
    (change : isChange opt.1 = true) (name : List UInt8) :
    lastArg opt.1 (optsOf changeOptions (name ::
      ((before ++ opt :: next :: after).flatMap leftFirst ++
        (before ++ opt :: next :: after).flatMap movedBehind))) = some [dash, next.1] := by
  have words : (before ++ opt :: next :: after).flatMap leftFirst ++
      (before ++ opt :: next :: after).flatMap movedBehind =
        before.flatMap leftFirst ++ [dash, opt.1] :: [dash, next.1] ::
          ((if isChange next.1 then [] else [next.2]) ++ (after.flatMap leftFirst ++
            (before ++ opt :: next :: after).flatMap movedBehind)) := by
    have second : leftFirst next = [dash, next.1] :: if isChange next.1 then [] else [next.2] := by
      rw [leftFirst]
      split <;> rfl
    rw [List.flatMap_append, List.flatMap_cons, List.flatMap_cons, leftFirst, if_pos change, second]
    simp
  rw [words, typed.found noChange change, lastArg_cons, typed.foundOnce change rfl]
  simp

/-- The first option of what is to be changed, if there is one. -/
theorem firstChange (opts : List (UInt8 × List UInt8)) :
    NoChange opts ∨ ∃ before opt after, opts = before ++ opt :: after ∧ NoChange before ∧
      isChange opt.1 = true := by
  induction opts with
  | nil => exact .inl fun opt member => absurd member List.not_mem_nil
  | cons opt opts ih =>
      cases change : isChange opt.1 with
      | true =>
          exact .inr ⟨[], opt, opts, rfl, fun other member => absurd member List.not_mem_nil, change⟩
      | false =>
          rcases ih with none | ⟨before, first, after, rfl, none, changes⟩
          · exact .inl (List.forall_mem_cons.mpr ⟨change, none⟩)
          · exact .inr ⟨opt :: before, first, after, rfl, List.forall_mem_cons.mpr ⟨change, none⟩,
              changes⟩

/-- Options of the instance do not matter. -/
theorem NoChange.changesLast (noChange : NoChange before) : ChangesLast before :=
  List.pairwise_of_forall_mem_list fun opt member _ _ => noChange opt member

theorem NoChange.changesLast_snoc (noChange : NoChange before) (opt : UInt8 × List UInt8) :
    ChangesLast (before ++ [opt]) :=
  List.pairwise_append.mpr ⟨noChange.changesLast, List.pairwise_singleton _ _,
    fun other member _ _ => noChange other member⟩

theorem NoChange.lastArg (noChange : NoChange before) {c : UInt8} (change : isChange c = true) :
    Machine.lastArg c before = none :=
  lastWrite_eq_none.mpr fun opt member => if_neg fun same => by
    have unchanged := noChange opt member
    rw [same, change] at unchanged
    cases unchanged

/-- The value of an option that is typed once. -/
theorem TypedApart.value {opt : UInt8 × List UInt8} (typed : TypedApart (before ++ opt :: after))
    (change : isChange opt.1 = true) : lastArg opt.1 (before ++ opt :: after) = some opt.2 := by
  have behind : lastArg opt.1 after = none :=
    lastWrite_eq_none.mpr fun other member => if_neg (typed.others change other member)
  rw [lastArg, lastWrite_append]
  show (lastArg opt.1 (opt :: after)).or _ = _
  rw [lastArg_cons, behind, if_pos rfl]
  rfl

/-- The value that is asked for, of what is to be changed. -/
theorem changesOf_value {pairs : List (UInt8 × List UInt8)} {c : UInt8} {arg : List UInt8}
    (change : isChange c = true) (last : lastArg c pairs = some arg) :
    (if c = 112 then (changesOf pairs).pri else (changesOf pairs).delay) = toInt (strtol arg) := by
  rcases isChange_iff.mp change with rfl | rfl
  · simp [changesOf, changesFrom, last]
  · simp [changesOf, changesFrom, last]

/-- `-v 5 -i eth0 -p 50 -d 3`. -/
def twoChanges : List (UInt8 × List UInt8) :=
  [(118, ascii "5"), (105, ascii "eth0"), (112, ascii "50"), (100, ascii "3")]

/-- What is issued when the first scan returns. -/
theorem exists_modification {argv : List (List UInt8)} {i : Issued}
    (issues : cmdModify argv = .ok i) :
    ∃ target changes, i = ⟨.modifyInst, (target, changes)⟩ ∧ i.Fits ∧
      changes.preeMode = Daemon.vrPropUnchange ∧ changes.acptMode = Daemon.vrPropUnchange := by
  cases parsed : parseOptIds argv with
  | error fault =>
      rw [cmdModify, parsed] at issues
      cases issues
  | ok found =>
      obtain ⟨target, behind⟩ := found
      have asked := cmdModify_eq parsed
      obtain ⟨names, designates, -⟩ := (parseOptIds_returns_iff argv target behind).mp parsed
      cases issues.symm.trans asked
      exact ⟨target, _, rfl, ⟨(by decide : VrrpCmd.modifyInst ≠ .returnVal),
        designates.fits names (by decide), fits_changesOf _⟩, rfl, rfl⟩

namespace Daemon

/-- **No line changes a mode.** Whatever words `cmd_modify` is given, and whatever the memories
hold: once its request is answered, every virtual router preempts and accepts as before. -/
theorem modes_kept (d : World) (heap residue : Buffer) {argv : List (List UInt8)} {i : Issued}
    (issues : cmdModify argv = .ok i) {s s' : Daemon} {reply : Option (List UInt8)}
    (answers : s.processAdmSock d (buildVrrpCmd heap i.1 i.2) residue = .ok (reply, s'))
    (p : VrPtr) :
    (s'.vrs p).attr.preeMode = (s.vrs p).attr.preeMode ∧
      (s'.vrs p).attr.acceptMode = (s.vrs p).attr.acceptMode := by
  obtain ⟨target, changes, rfl, fits, preempt, accept⟩ := exists_modification issues
  rw [processAdmSock_issued d heap residue fits] at answers
  obtain ⟨⟨ret, s₁⟩, responds, same⟩ := bind_eq_ok.mp answers
  cases same
  have modified : s.vrrpSetInstProp d target.key changes.pri changes.delay changes.preeMode
      changes.acptMode = .ok (ret, s₁) := responds
  rcases vrrpSetInstProp_core modified with ⟨-, rfl, -⟩ | ⟨-, v, -, core⟩
  · exact ⟨rfl, rfl⟩
  · have attr : ∀ old : VrrpAttr,
        (modifiedAttr old changes.pri changes.delay changes.preeMode changes.acptMode).preeMode =
            old.preeMode ∧
          (modifiedAttr old changes.pri changes.delay changes.preeMode
            changes.acptMode).acceptMode = old.acceptMode := fun old => by
      have stay : ∀ mode, newMode mode vrPropUnchange = mode := fun mode =>
        (newMode_eq rfl).trans (if_pos rfl)
      rw [modifiedAttr_preeMode, modifiedAttr_acceptMode, preempt, accept, stay, stay]
      exact ⟨rfl, rfl⟩
    rw [vrs_of_core core]
    by_cases here : p = (s.ds v).vr
    · subst here
      rw [setAttr_vrs]
      exact attr _
    · have kept : (s.setAttr (s.ds v).vr (modifiedAttr (s.vr v).attr changes.pri changes.delay
          changes.preeMode changes.acptMode)).vrs p = s.vrs p := Function.update_of_ne here ..
      rw [kept]
      exact ⟨rfl, rfl⟩

/-- A line that would set a mode, and a priority. -/
def modeLine : List UInt8 := ascii "modify -v7 -ieth0 -p40 -o un_preempt"

/-- What it asks for. -/
def modeLineIssues : Issued := ⟨.modifyInst, (⟨7, .eth0, afInet⟩, ⟨40, -1, -1, -1⟩)⟩

/-- An instance is created and modified: the daemon before the modification, the reply, and the
daemon behind it. -/
def modeLineRun : Result (Daemon × Option (List UInt8) × Daemon) := do
  let created ← initial.createCommand .plain (.sample 7 200)
  let answered ← created.2.processAdmSock .plain
    (buildVrrpCmd (fun _ => 0) modeLineIssues.1 modeLineIssues.2) fun _ => 0
  return (created.2, answered)

theorem modes_kept_given :
    cmdModify (modeLine.splitOn blank) = .ok modeLineIssues ∧ ∃ run, modeLineRun = .ok run ∧
      (run.2.2.vrs 0).attr.pri = 40 ∧
      (run.2.2.vrs 0).attr.preeMode = (run.1.vrs 0).attr.preeMode := by
  have parsed : parseOptIds (modeLine.splitOn blank) = .ok (⟨7, .eth0, afInet⟩, _) :=
    (parseOptIds_returns_iff _ _ _).mpr ⟨by decide, ⟨by decide, by decide, rfl⟩, rfl⟩
  have issues : cmdModify (modeLine.splitOn blank) = .ok modeLineIssues := by
    rw [cmdModify_eq parsed]
    rfl
  have answered : passes (fun run => (run.2.2.vrs 0).attr.pri == 40) modeLineRun = true := by
    decide
  obtain ⟨run, returns, changed⟩ := exists_of_passes answered
  obtain ⟨created, -, rest⟩ := bind_eq_ok.mp returns
  obtain ⟨⟨reply, s'⟩, answers, same⟩ := bind_eq_ok.mp rest
  cases same
  exact ⟨issues, _, returns, eq_of_beq changed,
    (modes_kept .plain (fun _ => 0) (fun _ => 0) issues answers 0).1⟩

end Daemon

end VrrpDaemon
