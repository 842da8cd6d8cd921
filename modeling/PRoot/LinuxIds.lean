import Mathlib.Tactic.SplitIfs

/-!
# User and group ids

The rules by which Linux changes the ids of a process, and the capabilities `CAP_SETUID` and
`CAP_SETGID` with them.

* `setid`, `setreid`, `setresid`, `setfsid`: the ids of one kind change;
* `Cred.call`: a call, and what it does to the capabilities;
* `Cred.Sound`, `Cred.call_sound`: the capabilities are effective exactly while the effective user
  id is 0.
-/

namespace Linux

/-- A user or group id, of 32 bits. -/
abbrev Id := UInt32

/-- The argument that leaves an id as it is. -/
def unset : Id := 0xffffffff

/-- The ids of one kind. -/
@[ext]
structure Ids where
  real : Id
  effective : Id
  saved : Id
  fs : Id
  deriving DecidableEq, Repr

inductive IdKind
  | user | group
  deriving DecidableEq, Repr

/-- The result of a call; `previous` is that of `setfsuid` and `setfsgid`. -/
inductive IdResult
  | done | EPERM | EINVAL | ENOSYS
  | previous (id : Id)
  deriving DecidableEq, Repr

namespace Ids

variable (privileged : Bool) (ids : Ids)

/-- An id is the real, effective or saved one. -/
def has (id : Id) : Bool := id = ids.real || id = ids.effective || id = ids.saved

/-- `setuid` and `setgid`. -/
def setid (id : Id) : IdResult × Ids :=
  if id = unset then (.EINVAL, ids)
  else if privileged then (.done, ⟨id, id, id, id⟩)
  else if id = ids.real || id = ids.saved then (.done, { ids with effective := id, fs := id })
  else (.EPERM, ids)

/-- What an unprivileged process may give to `setreuid` or `setregid`. -/
def maySetreid (real effective : Id) : Bool :=
  (real = unset || real = ids.real || real = ids.effective) &&
    (effective = unset || ids.has effective)

/-- The ids after `setreuid` or `setregid`. -/
def reid (real effective : Id) : Ids :=
  let effective' := if effective = unset then ids.effective else effective
  { real := if real = unset then ids.real else real
    effective := effective'
    saved := if real ≠ unset || effective ≠ unset && effective ≠ ids.real then effective'
      else ids.saved
    fs := effective' }

/-- `setreuid` and `setregid`. -/
def setreid (real effective : Id) : IdResult × Ids :=
  if privileged || ids.maySetreid real effective then (.done, ids.reid real effective)
  else (.EPERM, ids)

/-- What an unprivileged process may give to `setresuid` or `setresgid`. -/
def maySetresid (real effective saved : Id) : Bool :=
  (real = unset || ids.has real) && (effective = unset || ids.has effective) &&
    (saved = unset || ids.has saved)

/-- The ids after `setresuid` or `setresgid`. -/
def resid (real effective saved : Id) : Ids :=
  let effective' := if effective = unset then ids.effective else effective
  { real := if real = unset then ids.real else real
    effective := effective'
    saved := if saved = unset then ids.saved else saved
    fs := effective' }

/-- `setresuid` and `setresgid`. -/
def setresid (real effective saved : Id) : IdResult × Ids :=
  if privileged || ids.maySetresid real effective saved then
    (.done, ids.resid real effective saved)
  else (.EPERM, ids)

/-- `setfsuid` and `setfsgid`. -/
def setfsid (id : Id) : IdResult × Ids :=
  (.previous ids.fs,
    if id ≠ unset && (privileged || ids.has id || id = ids.fs) then { ids with fs := id } else ids)

/-- A program is executed; `owner` is the new effective id, if it is a setuid or setgid one. -/
def exec (owner : Option Id) : Ids :=
  { ids with
    effective := owner.getD ids.effective
    saved := owner.getD ids.effective
    fs := owner.getD ids.effective }

/-- One of the ids is 0, the one for files apart. -/
def anyRoot : Bool := ids.has 0

end Ids

/-- A program file: the bits of its mode, and its owner and group. -/
structure Program where
  setuid : Bool
  setgid : Bool
  groupExec : Bool
  owner : Id
  group : Id
  deriving DecidableEq, Repr

/-- The calls that change ids.  `sigsys` says that the call was trapped by a seccomp policy, which
is nothing to Linux itself. -/
inductive IdCall
  | setid (kind : IdKind) (id : Id) (sigsys : Bool)
  | setreid (kind : IdKind) (real effective : Id) (sigsys : Bool)
  | setresid (kind : IdKind) (real effective saved : Id) (sigsys : Bool)
  | setfsid (kind : IdKind) (id : Id) (sigsys : Bool)
  /-- `prctl(PR_SET_KEEPCAPS)`. -/
  | keepCaps (arg : Nat)
  | execve (program : Program)
  deriving DecidableEq, Repr

/-- The ids of a process, and whether it has `CAP_SETUID` and `CAP_SETGID`. -/
structure Cred where
  user : Ids
  group : Ids
  permitted : Bool
  effective : Bool
  keepCaps : Bool
  deriving DecidableEq, Repr

namespace Cred

variable (cred : Cred)

def ids : IdKind → Ids
  | .user => cred.user
  | .group => cred.group

def setIds (kind : IdKind) (ids : Ids) : Cred :=
  match kind with
  | .user => { cred with user := ids }
  | .group => { cred with group := ids }

/-- The capabilities follow the user ids: they are lost when no id is 0 any more, unless they are
kept, and are effective only while the effective id is 0. -/
def fixCaps (before : Ids) : Cred :=
  let lost := before.anyRoot && !cred.user.anyRoot && !cred.keepCaps
  let permitted := cred.permitted && !lost
  { cred with
    permitted
    effective :=
      if before.effective = 0 && cred.user.effective ≠ 0 then false
      else if before.effective ≠ 0 && cred.user.effective = 0 then permitted
      else cred.effective && !lost }

/-- The ids of one kind change, and the capabilities with them. -/
def update (kind : IdKind) (change : IdResult × Ids) : IdResult × Cred :=
  (change.1, (cred.setIds kind change.2).fixCaps cred.user)

/-- A call of the process. -/
def call : IdCall → IdResult × Cred
  | .setid kind id _ => cred.update kind ((cred.ids kind).setid cred.effective id)
  | .setreid kind real effective _ =>
      cred.update kind ((cred.ids kind).setreid cred.effective real effective)
  | .setresid kind real effective saved _ =>
      cred.update kind ((cred.ids kind).setresid cred.effective real effective saved)
  | .setfsid kind id _ => cred.update kind ((cred.ids kind).setfsid cred.effective id)
  | .keepCaps arg => if arg ≤ 1 then (.done, { cred with keepCaps := arg = 1 }) else (.EINVAL, cred)
  | .execve program =>
      let user := cred.user.exec (if program.setuid then some program.owner else none)
      (.done,
        { user
          group := cred.group.exec
            (if program.setgid && program.groupExec then some program.group else none)
          permitted := user.real = 0 || user.effective = 0
          effective := user.effective = 0
          keepCaps := false })

/-- The credentials of a process that is started with some ids. -/
def initial (uid gid : Id) : Cred where
  user := ⟨uid, uid, uid, uid⟩
  group := ⟨gid, gid, gid, gid⟩
  permitted := uid = 0
  effective := uid = 0
  keepCaps := false

/-- The results of the calls that a process makes, and its ids after each. -/
def trace (cred : Cred) : List IdCall → List (IdResult × Ids × Ids)
  | [] => []
  | idCall :: calls =>
      let (result, cred) := cred.call idCall
      (result, cred.user, cred.group) :: cred.trace calls

/-- The capabilities are effective exactly while the effective user id is 0, and permitted while one
of the user ids is. -/
structure Sound : Prop where
  effective : cred.effective = true ↔ cred.user.effective = 0
  permitted : cred.user.anyRoot = true → cred.permitted = true

end Cred

/-! ## The capabilities -/

theorem Cred.ids_update (cred : Cred) (kind kind' : IdKind) (change : IdResult × Ids) :
    (cred.update kind change).2.ids kind' = if kind' = kind then change.2 else cred.ids kind' := by
  cases kind <;> cases kind' <;> rfl

namespace Ids

variable {ids : Ids}

theorem has_iff {id : Id} :
    ids.has id = true ↔ id = ids.real ∨ id = ids.effective ∨ id = ids.saved := by
  simp only [has, Bool.or_eq_true, decide_eq_true_eq, or_assoc]

@[simp] theorem has_real : ids.has ids.real = true := has_iff.mpr (.inl rfl)

@[simp] theorem has_effective : ids.has ids.effective = true := has_iff.mpr (.inr (.inl rfl))

@[simp] theorem has_saved : ids.has ids.saved = true := has_iff.mpr (.inr (.inr rfl))

/-- Ids that are all among those of a process. -/
theorem has_of_has {ids' : Ids} {id : Id} (h : ids'.has id = true)
    (hreal : ids.has ids'.real = true) (heffective : ids.has ids'.effective = true)
    (hsaved : ids.has ids'.saved = true) :
    ids.has id = true := by
  rcases has_iff.mp h with rfl | rfl | rfl
  · exact hreal
  · exact heffective
  · exact hsaved

/-- An id that is given, or the one that there is. -/
theorem has_given {given old : Id} (hold : ids.has old = true)
    (hmay : given = unset ∨ ids.has given = true) :
    ids.has (if given = unset then old else given) = true := by
  split_ifs with hunset
  · exact hold
  · exact hmay.resolve_left hunset

theorem setid_eq {privileged : Bool} {id : Id} (hid : id ≠ unset) :
    ids.setid privileged id =
      if privileged || (id = ids.real || id = ids.saved) then
        (.done, if privileged then ⟨id, id, id, id⟩ else { ids with effective := id, fs := id })
      else (.EPERM, ids) := by
  rw [setid, if_neg hid]
  cases privileged <;> rfl

/-- **A process that is not privileged only gets ids that it has.** -/
theorem setid_has {id other : Id} (h : (ids.setid false id).2.has other = true) :
    ids.has other = true := by
  unfold setid at h
  rw [if_neg Bool.false_ne_true] at h
  split_ifs at h with hunset hmay
  · exact h
  · have hid : ids.has id = true := by
      rw [Bool.or_eq_true, decide_eq_true_eq, decide_eq_true_eq] at hmay
      exact has_iff.mpr (hmay.imp_right .inr)
    exact has_of_has h has_real hid has_saved
  · exact h

theorem setreid_has {real effective other : Id}
    (h : (ids.setreid false real effective).2.has other = true) : ids.has other = true := by
  unfold setreid at h
  rw [Bool.false_or] at h
  by_cases hmay : ids.maySetreid real effective = true
  · rw [if_pos hmay] at h
    simp only [maySetreid, Bool.and_eq_true, Bool.or_eq_true, decide_eq_true_eq] at hmay
    obtain ⟨hreal, heffective⟩ := hmay
    have heffective := has_given has_effective heffective
    have hreal : real = unset ∨ ids.has real = true := by
      rcases hreal with (hreal | hreal) | hreal
      · exact .inl hreal
      · exact .inr (hreal ▸ has_real)
      · exact .inr (hreal ▸ has_effective)
    refine has_of_has h (has_given has_real hreal) heffective ?_
    show ids.has (if _ then _ else ids.saved) = true
    by_cases hsaved : (real ≠ unset || effective ≠ unset && effective ≠ ids.real) = true
    · rw [if_pos hsaved]
      exact heffective
    · rw [if_neg hsaved]
      exact has_saved
  · rw [if_neg hmay] at h
    exact h

theorem setresid_has {real effective saved other : Id}
    (h : (ids.setresid false real effective saved).2.has other = true) :
    ids.has other = true := by
  unfold setresid at h
  rw [Bool.false_or] at h
  by_cases hmay : ids.maySetresid real effective saved = true
  · rw [if_pos hmay] at h
    simp only [maySetresid, Bool.and_eq_true, Bool.or_eq_true, decide_eq_true_eq] at hmay
    obtain ⟨⟨hreal, heffective⟩, hsaved⟩ := hmay
    exact has_of_has h (has_given has_real hreal) (has_given has_effective heffective)
      (has_given has_saved hsaved)
  · rw [if_neg hmay] at h
    exact h

theorem setfsid_has {privileged : Bool} {id other : Id}
    (h : (ids.setfsid privileged id).2.has other = true) : ids.has other = true := by
  unfold setfsid at h
  dsimp only at h
  split_ifs at h <;> exact h

end Ids

namespace Cred

variable {cred : Cred}

namespace Sound

theorem effective_eq_false (h : cred.Sound) (hzero : cred.user.effective ≠ 0) :
    cred.effective = false :=
  Bool.eq_false_iff.mpr fun heffective => hzero (h.effective.mp heffective)

/-- The effective id is one of the ids. -/
theorem anyRoot_of_effective {ids : Ids} (h : ids.effective = 0) : ids.anyRoot = true :=
  Ids.has_iff.mpr (.inr (.inl h.symm))

/-- The user ids change, and none of them becomes 0 when none was. -/
theorem fixCaps_sound (h : cred.Sound) {user : Ids}
    (hroot : user.anyRoot = true → cred.user.anyRoot = true) :
    (({ cred with user } : Cred).fixCaps cred.user).Sound := by
  have hkept : user.anyRoot = true →
      (cred.user.anyRoot && !user.anyRoot && !cred.keepCaps) = false := fun hafter => by
    rw [hafter, Bool.not_true, Bool.and_false, Bool.false_and]
  constructor
  · show (if cred.user.effective = 0 && user.effective ≠ 0 then false
      else if cred.user.effective ≠ 0 && user.effective = 0 then cred.permitted && !_
      else cred.effective && !_) = true ↔ user.effective = 0
    by_cases hbefore : cred.user.effective = 0 <;> by_cases hafter : user.effective = 0
    · simp [hbefore, hafter, hkept (anyRoot_of_effective hafter), h.effective.mpr hbefore]
    · simp [hbefore, hafter]
    · have hpermitted := h.permitted (hroot (anyRoot_of_effective hafter))
      simp [hbefore, hafter, hkept (anyRoot_of_effective hafter), hpermitted]
    · simp [hbefore, hafter, h.effective_eq_false hbefore]
  · intro hafter
    show (cred.permitted && !(cred.user.anyRoot && !user.anyRoot && !cred.keepCaps)) = true
    rw [hkept hafter, h.permitted (hroot hafter), Bool.not_false, Bool.and_true]

theorem update_user_sound (h : cred.Sound) {change : IdResult × Ids}
    (hhas : cred.effective = false → ∀ id, change.2.has id = true → cred.user.has id = true) :
    (cred.update .user change).2.Sound := by
  refine h.fixCaps_sound fun hafter => ?_
  cases heffective : cred.effective with
  | true => exact anyRoot_of_effective (h.effective.mp heffective)
  | false => exact hhas heffective 0 hafter

theorem update_group_sound (h : cred.Sound) (change : IdResult × Ids) :
    (cred.update .group change).2.Sound :=
  let h' : ({ cred with group := change.2 } : Cred).Sound := ⟨h.effective, h.permitted⟩
  h'.fixCaps_sound id

/-- A call of the ids of one kind that only gives an unprivileged process ids that it has. -/
theorem update_sound (h : cred.Sound) (kind : IdKind) (change : Ids → Bool → IdResult × Ids)
    (hhas : ∀ ids id, (change ids false).2.has id = true → ids.has id = true) :
    (cred.update kind (change (cred.ids kind) cred.effective)).2.Sound := by
  cases kind with
  | user =>
      refine h.update_user_sound fun heffective id hid => ?_
      rw [heffective] at hid
      exact hhas _ id hid
  | group => exact h.update_group_sound _

end Sound

theorem initial_sound (uid gid : Id) : (initial uid gid).Sound := by
  refine ⟨decide_eq_true_iff, fun hroot => ?_⟩
  rcases Ids.has_iff.mp hroot with hroot | hroot | hroot <;> exact decide_eq_true hroot.symm

/-- **The capabilities stay effective exactly while the effective user id is 0.** -/
theorem call_sound (h : cred.Sound) (idCall : IdCall) : (cred.call idCall).2.Sound := by
  cases idCall with
  | setid kind id sigsys =>
      exact h.update_sound kind (fun ids privileged => ids.setid privileged id)
        fun _ _ => Ids.setid_has
  | setreid kind real effective sigsys =>
      exact h.update_sound kind
        (fun ids privileged => ids.setreid privileged real effective)
        fun _ _ => Ids.setreid_has
  | setresid kind real effective saved sigsys =>
      exact h.update_sound kind
        (fun ids privileged => ids.setresid privileged real effective saved)
        fun _ _ => Ids.setresid_has
  | setfsid kind id sigsys =>
      exact h.update_sound kind (fun ids privileged => ids.setfsid privileged id)
        fun _ _ => Ids.setfsid_has
  | keepCaps arg =>
      show (if arg ≤ 1 then _ else _ : IdResult × Cred).2.Sound
      split_ifs
      · exact ⟨h.effective, h.permitted⟩
      · exact h
  | execve program =>
      refine ⟨decide_eq_true_iff, fun hroot => ?_⟩
      rcases Ids.has_iff.mp hroot with hreal | heffective | hsaved
      · exact Bool.or_eq_true_iff.mpr (.inl (decide_eq_true hreal.symm))
      · exact Bool.or_eq_true_iff.mpr (.inr (decide_eq_true heffective.symm))
      · exact Bool.or_eq_true_iff.mpr (.inr (decide_eq_true hsaved.symm))

end Cred

end Linux
