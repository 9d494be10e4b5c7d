import VrrpDaemon.Model.Administrator
import VrrpDaemon.Properties.CommandLine
import VrrpDaemon.Properties.CommandRoundTrip

/-!
# What the administrator takes from its options

Each function of the administrator goes through the options that were found, and the last
argument of an option counts. `parse_opt_ids` overruns its array for a name that is too long
and returns otherwise (`parseOptIds_returns_iff`). `cmd_modify` always goes on from there,
since the options it scans for do not include the one whose sub-options it would parse
(`cmdModify_eq`).
-/

set_option autoImplicit false

namespace VrrpDaemon

open Machine

variable {pairs : List (UInt8 × List UInt8)} {argv : List (List UInt8)}

/-! ## Options -/

theorem takes_id (c : UInt8) : optstring colon (ascii idOptions) c =
    if c = 118 ∨ c = 97 ∨ c = 105 then some true else none := by
  have letters : ascii idOptions = [118, 58, 97, 58, 105, 58] := by decide
  rw [letters]
  simp only [optstring, colon, List.head?_cons]
  by_cases v : 118 = c
  · subst v
    decide
  · by_cases a : 97 = c
    · subst a
      decide
    · by_cases i : 105 = c
      · subst i
        decide
      · by_cases colon : 58 = c
        · subst colon
          decide
        · simp [v, a, i, colon, Ne.symm v, Ne.symm a, Ne.symm i]

/-- **Only options are found.** -/
theorem takes_of_opts {options : String} {c : UInt8} {arg : List UInt8}
    (found : (c, arg) ∈ optsOf options argv) : optstring colon (ascii options) c ≠ none := by
  obtain ⟨opt, member, pair⟩ := List.mem_filterMap.mp found
  cases opt with
  | unknown | missing => cases pair
  | given d arg' =>
      cases pair
      exact takes_of_given (fun d waits => by cases waits) member

theorem lastArg_nil (letter : UInt8) : lastArg letter [] = none := rfl

/-- The last of some arguments, and those before. -/
theorem lastArg_cons (letter : UInt8) (opt : UInt8 × List UInt8) :
    lastArg letter (opt :: pairs) =
      (lastArg letter pairs).or (if opt.1 = letter then some opt.2 else none) :=
  lastWrite_cons ..

/-! ## The instance that is designated -/

/-- The target that some options designate, over another one. -/
structure Designates (pairs : List (UInt8 × List UInt8)) (ids target : Target) : Prop where
  vid : target.vid = ((lastArg 118 pairs).map fun arg => toByte (strtol arg)).getD ids.vid
  intf : target.intf.bytes = ((lastArg 105 pairs).map text).getD ids.intf.bytes
  af : target.af = afInet

/-- The names among some options have room in their array. -/
def NamesFit (pairs : List (UInt8 × List UInt8)) : Prop :=
  ∀ opt ∈ pairs, opt.1 = 105 → (text opt.2).length < lifnamsiz

instance (pairs : List (UInt8 × List UInt8)) : Decidable (NamesFit pairs) :=
  inferInstanceAs (Decidable (∀ opt ∈ pairs, _))

theorem Designates.unique {ids target target' : Target} (one : Designates pairs ids target)
    (other : Designates pairs ids target') : target = target' := by
  obtain ⟨vid, intf, af⟩ := target
  obtain ⟨vid', intf', af'⟩ := target'
  obtain ⟨vids, names, families⟩ := one
  obtain ⟨vids', names', families'⟩ := other
  have name : intf = intf' := Ifname.ext (names.trans names'.symm)
  exact congr (congrArg₂ Target.mk (vids.trans vids'.symm) name) (families.trans families'.symm)

theorem copyIfname_returns_iff (arg : List UInt8) :
    (∃ name, copyIfname arg = .ok name) ↔ (text arg).length < lifnamsiz := by
  rw [copyIfname]
  split
  · exact iff_of_true ⟨_, rfl⟩ ‹_›
  · refine iff_of_false ?_ ‹_›
    rintro ⟨name, same⟩
    cases same

theorem copyIfname_bytes {arg : List UInt8} {name : Ifname} (copied : copyIfname arg = .ok name) :
    name.bytes = text arg := by
  rw [copyIfname] at copied
  split at copied
  · cases copied
    rfl
  · cases copied

/-- One option: what is designated, and by the options behind it. -/
theorem optId_cases {ids : Target} (family : ids.af = afInet) (opt : UInt8 × List UInt8) :
    (∃ name, opt.1 = 105 ∧ copyIfname opt.2 = .ok name ∧
      optId ids opt = .ok { ids with intf := name }) ∨
    (opt.1 = 105 ∧ (∀ name, copyIfname opt.2 ≠ .ok name) ∧ ∃ fault, optId ids opt = .error fault) ∨
    (opt.1 = 118 ∧ optId ids opt = .ok { ids with vid := toByte (strtol opt.2) }) ∨
    (opt.1 ≠ 105 ∧ opt.1 ≠ 118 ∧ optId ids opt = .ok ids) := by
  obtain ⟨c, arg⟩ := opt
  simp only [optId]
  by_cases v : c = 118
  · subst v
    exact .inr (.inr (.inl ⟨rfl, rfl⟩))
  · by_cases a : c = 97
    · subst a
      obtain ⟨vid, intf, af⟩ := ids
      cases family
      exact .inr (.inr (.inr ⟨by decide, by decide, congrArg Except.ok (ite_self _)⟩))
    · by_cases i : c = 105
      · subst i
        cases copied : copyIfname arg with
        | ok name => exact .inl ⟨name, rfl, rfl, rfl⟩
        | error fault => exact .inr (.inl ⟨rfl, fun name same => (by cases same), fault, rfl⟩)
      · exact .inr (.inr (.inr ⟨i, v, by simp [v, a, i]⟩))

/-- **The options designate an instance**, unless a name is too long. -/
theorem foldlM_optId (ids : Target) (family : ids.af = afInet) (fit : NamesFit pairs) :
    ∃ target, pairs.foldlM optId ids = .ok target ∧ Designates pairs ids target := by
  induction pairs generalizing ids with
  | nil => exact ⟨ids, rfl, rfl, rfl, family⟩
  | cons opt pairs ih =>
      have later : NamesFit pairs := fun other member =>
        fit other (List.mem_cons_of_mem _ member)
      rcases optId_cases family opt with ⟨name, i, copied, here⟩ | ⟨i, long, -⟩ | ⟨v, here⟩ |
          ⟨noI, noV, here⟩
      · obtain ⟨target, rest, vid, intf, af⟩ := ih { ids with intf := name } family later
        refine ⟨target, ?_, ?_, ?_, af⟩
        · rw [List.foldlM_cons, here]
          exact rest
        · rw [vid, lastArg_cons, i]
          simp
        · rw [intf, lastArg_cons, i, copyIfname_bytes copied]
          cases lastArg 105 pairs <;> simp
      · have short := fit opt List.mem_cons_self i
        obtain ⟨name, copied⟩ := (copyIfname_returns_iff opt.2).mpr short
        exact absurd copied (long name)
      · obtain ⟨target, rest, vid, intf, af⟩ :=
          ih { ids with vid := toByte (strtol opt.2) } family later
        refine ⟨target, ?_, ?_, ?_, af⟩
        · rw [List.foldlM_cons, here]
          exact rest
        · rw [vid, lastArg_cons, v]
          cases lastArg 118 pairs <;> simp
        · rw [intf, lastArg_cons, v]
          simp
      · obtain ⟨target, rest, vid, intf, af⟩ := ih ids family later
        refine ⟨target, ?_, ?_, ?_, af⟩
        · rw [List.foldlM_cons, here]
          exact rest
        · rw [vid, lastArg_cons, if_neg noV, Option.or_none]
        · rw [intf, lastArg_cons, if_neg noI, Option.or_none]

/-- A name that is too long overruns its array. -/
theorem namesFit_of_foldlM (ids : Target) (family : ids.af = afInet) {target : Target}
    (returns : pairs.foldlM optId ids = .ok target) : NamesFit pairs := by
  induction pairs generalizing ids with
  | nil => exact fun opt member => absurd member List.not_mem_nil
  | cons opt pairs ih =>
      rw [List.foldlM_cons] at returns
      obtain ⟨ids', here, rest⟩ := bind_eq_ok.mp returns
      refine List.forall_mem_cons.mpr ?_
      rcases optId_cases family opt with ⟨name, i, copied, same⟩ | ⟨-, -, fault, failed⟩ |
          ⟨v, same⟩ | ⟨noI, noV, same⟩
      · rw [same] at here
        cases here
        exact ⟨fun _ => (copyIfname_returns_iff opt.2).mp ⟨name, copied⟩,
          ih { ids with intf := name } family rest⟩
      · rw [failed] at here
        cases here
      · rw [same] at here
        cases here
        exact ⟨fun i => absurd (v.symm.trans i) (by decide),
          ih { ids with vid := toByte (strtol opt.2) } family rest⟩
      · rw [same] at here
        cases here
        exact ⟨fun i => absurd i noI, ih ids family rest⟩

/-- **When the options designate an instance.** -/
theorem parseOptIds_returns_iff (argv : List (List UInt8)) (target : Target)
    (behind : List (List UInt8)) :
    parseOptIds argv = .ok (target, behind) ↔
      NamesFit (optsOf idOptions argv) ∧ Designates (optsOf idOptions argv) noIds target ∧
        behind = permuted idOptions argv := by
  constructor
  · intro returns
    obtain ⟨ids, folded, same⟩ := bind_eq_ok.mp returns
    cases same
    have fit := namesFit_of_foldlM noIds rfl folded
    obtain ⟨target', folded', designates⟩ := foldlM_optId noIds rfl fit
    cases folded.symm.trans folded'
    exact ⟨fit, designates, rfl⟩
  · rintro ⟨fit, designates, rfl⟩
    obtain ⟨target', folded, designates'⟩ := foldlM_optId noIds rfl fit
    cases designates.unique designates'
    rw [parseOptIds, folded]
    rfl

/-! ## What is to be changed -/

/-- The changes that some options ask for, over others. -/
def changesFrom (changes : Changes) (pairs : List (UInt8 × List UInt8)) : Changes where
  pri := ((lastArg 112 pairs).map fun arg => toInt (strtol arg)).getD changes.pri
  delay := ((lastArg 100 pairs).map fun arg => toInt (strtol arg)).getD changes.delay
  preeMode := changes.preeMode
  acptMode := changes.acptMode

/-- The changes that some options ask for. -/
def changesOf (pairs : List (UInt8 × List UInt8)) : Changes := changesFrom noChanges pairs

/-- One option, unless it has sub-options. -/
theorem optChange_eq (changes : Changes) {opt : UInt8 × List UInt8} (other : opt.1 ≠ 111) :
    optChange changes opt = .ok (changesFrom changes [opt]) := by
  obtain ⟨c, arg⟩ := opt
  by_cases d : c = 100
  · subst d
    rfl
  · by_cases p : c = 112
    · subst p
      rfl
    · simp only at other
      simp [optChange, changesFrom, lastArg, lastWrite, d, p, other]

theorem changesFrom_cons (changes : Changes) (opt : UInt8 × List UInt8) :
    changesFrom (changesFrom changes [opt]) pairs = changesFrom changes (opt :: pairs) := by
  simp only [changesFrom, lastArg_cons]
  congr 1
  · cases lastArg 112 pairs <;> simp [lastArg, lastWrite]
  · cases lastArg 100 pairs <;> simp [lastArg, lastWrite]

theorem foldlM_optChange (changes : Changes) (others : ∀ opt ∈ pairs, opt.1 ≠ 111) :
    pairs.foldlM optChange changes = .ok (changesFrom changes pairs) := by
  induction pairs generalizing changes with
  | nil => rfl
  | cons opt pairs ih =>
      have here := optChange_eq changes (others opt List.mem_cons_self)
      have rest := ih (changesFrom changes [opt]) fun other member =>
        others other (List.mem_cons_of_mem _ member)
      rw [List.foldlM_cons, here, ok_bind, rest, changesFrom_cons]

/-- **What a modification asks for**, once its first scan returns: the modes are to stay. -/
theorem cmdModify_eq {ids : Target} {behind : List (List UInt8)}
    (returns : parseOptIds argv = .ok (ids, behind)) :
    cmdModify argv = .ok ⟨.modifyInst, (ids, changesOf (optsOf changeOptions behind))⟩ := by
  have others : ∀ opt ∈ optsOf changeOptions behind, opt.1 ≠ 111 := by
    rintro ⟨c, arg⟩ found rfl
    exact absurd (by decide) (takes_of_opts found)
  have changed := foldlM_optChange noChanges others
  rw [cmdModify, returns]
  show (do
    let changes ← (optsOf changeOptions behind).foldlM optChange noChanges
    pure _) = _
  rw [changed]
  rfl

end VrrpDaemon
