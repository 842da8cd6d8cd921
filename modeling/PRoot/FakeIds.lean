import PRoot.LinuxIds

/-!
# Fake user and group ids

The ids that `fake_id0` keeps for a tracee, beside those that Linux would give it.

* `Config.call`: what the extension makes of a call;
* `Config.followsLinux`: the calls for which it is what Linux does;
* `ids_follow_iff`: in a run, all results and ids are those of Linux exactly if each call is one of
  these.
-/

namespace PRoot

open Linux

/-- The credentials of a tracee, as `fake_id0` keeps them. -/
structure Config where
  user : Ids
  group : Ids
  capsActive : Bool
  keepCaps : Bool
  deriving DecidableEq, Repr

namespace Config

variable (config : Config)

/-- `INITIALIZATION`. -/
def initial (uid gid : Id) : Config where
  user := ⟨uid, uid, uid, uid⟩
  group := ⟨gid, gid, gid, gid⟩
  capsActive := uid = 0
  keepCaps := false

def ids : IdKind → Ids
  | .user => config.user
  | .group => config.group

def setIds (kind : IdKind) (ids : Ids) : Config :=
  match kind with
  | .user => { config with user := ids }
  | .group => { config with group := ids }

def privileged : Bool := config.user.effective = 0 || config.capsActive

/-- `MAYBE_DROP_CAPS`. -/
def maybeDropCaps (prevRoot : Bool) : Config :=
  if prevRoot && !config.keepCaps && !config.user.anyRoot then { config with capsActive := false }
  else config

/-- The ids of one kind become others, and the capabilities may be dropped with them. -/
def change (kind : IdKind) (ids : Ids) : Config :=
  (config.setIds kind ids).maybeDropCaps config.user.anyRoot

/-- `SETXID`. -/
def setXid (kind : IdKind) (id : Id) : IdResult × Config :=
  let ids := config.ids kind
  if config.privileged || ids.has id then
    let ids := if config.privileged then { ids with real := id, saved := id } else ids
    (.done, config.change kind { ids with effective := id, fs := id })
  else (.EPERM, config)

/-- `UNCHANGED_ID`. -/
def unchangedId (id old : Id) : Bool := id = unset || id = old

/-- What `SETREXID` allows without privileges. -/
def allowsReXid (ids : Ids) (real effective : Id) : Bool :=
  unchangedId effective ids.effective && unchangedId real ids.real ||
    real = ids.effective && (effective = ids.real || unchangedId effective ids.effective) ||
    effective = ids.real && (real = ids.effective || unchangedId real ids.real) ||
    effective = ids.saved && unchangedId real ids.real

/-- The ids after `SETREXID`. -/
def reXid (ids : Ids) (real effective : Id) : Ids :=
  let ids :=
    if effective ≠ unset then
      { ids with
        saved := if effective ≠ ids.real then effective else ids.saved
        effective
        fs := effective }
    else ids
  if real ≠ unset then
    { ids with saved := if effective ≠ unset then effective else ids.saved, real }
  else ids

/-- `SETREXID`. -/
def setReXid (kind : IdKind) (real effective : Id) : IdResult × Config :=
  if config.privileged || allowsReXid (config.ids kind) real effective then
    (.done, config.change kind (reXid (config.ids kind) real effective))
  else (.EPERM, config)

/-- What `SETRESXID` allows without privileges. -/
def allowsResXid (ids : Ids) (real effective saved : Id) : Bool :=
  (real = unset || ids.has real) && (effective = unset || ids.has effective) &&
    (saved = unset || ids.has saved)

/-- The ids after `SETRESXID`. -/
def resXid (ids : Ids) (real effective saved : Id) : Ids :=
  let ids := if real ≠ unset then { ids with real } else ids
  let ids := if effective ≠ unset then { ids with effective, fs := effective } else ids
  if saved ≠ unset then { ids with saved } else ids

/-- `SETRESXID`. -/
def setResXid (kind : IdKind) (real effective saved : Id) : IdResult × Config :=
  if config.privileged || allowsResXid (config.ids kind) real effective saved then
    (.done, config.change kind (resXid (config.ids kind) real effective saved))
  else (.EPERM, config)

/-- `SETFSXID`. -/
def setFsXid (kind : IdKind) (id : Id) : IdResult × Config :=
  let ids := config.ids kind
  (.previous ids.fs,
    if config.privileged || id = ids.fs || ids.has id then config.setIds kind { ids with fs := id }
    else config)

/-- The end of a call, in `handle_sysexit_end`; the kernel executes the `prctl`. -/
def handleSysexitEnd : IdCall → IdResult × Config
  | .setid kind id _ => config.setXid kind id
  | .setreid kind real effective _ => config.setReXid kind real effective
  | .setresid kind real effective saved _ => config.setResXid kind real effective saved
  | .setfsid kind id _ => config.setFsXid kind id
  | .keepCaps arg =>
      if arg ≤ 1 then (.done, { config with keepCaps := arg ≠ 0 }) else (.EINVAL, config)
  | .execve _ => (.done, config)

/-- A call that was trapped, in `handle_sigsys`; nobody knows `setfsuid` and `setfsgid` there. -/
def handleSigsys : IdCall → IdResult × Config
  | .setid kind id _ => config.setXid kind id
  | .setreid kind real effective _ => config.setReXid kind real effective
  | .setresid kind real effective saved _ => config.setResXid kind real effective saved
  | _ => (.ENOSYS, config)

/-- An `execve` that succeeds, in `handle_sysexit_start`. -/
def handleSysexitStart (program : Program) : Config :=
  let config := { config with keepCaps := false }
  let config :=
    if program.setuid then
      { config with user := { config.user with effective := 0, saved := 0 }, capsActive := true }
    else config
  if program.setgid then
    { config with group := { config.group with effective := 0, saved := 0 } }
  else config

/-- A call of the tracee. -/
def call (idCall : IdCall) : IdResult × Config :=
  match idCall with
  | .setid _ _ true | .setreid _ _ _ true | .setresid _ _ _ _ true | .setfsid _ _ true =>
      config.handleSigsys idCall
  | .execve program => (config.handleSysexitStart program).handleSysexitEnd idCall
  | _ => config.handleSysexitEnd idCall

/-! ## Beside Linux -/

/-- The results of the calls that a tracee makes, and its ids after each. -/
def trace (config : Config) : List IdCall → List (IdResult × Ids × Ids)
  | [] => []
  | idCall :: calls =>
      let (result, config) := config.call idCall
      (result, config.user, config.group) :: config.trace calls

end Config

namespace Config

variable (config : Config)

/-- The effective user id is 0. -/
def root : Bool := config.user.effective = 0

/-- The real id becomes the effective one while the effective id becomes the saved one. -/
def swaps (ids : Ids) (real effective : Id) : Bool :=
  real ≠ unset && real ≠ ids.real && real = ids.effective && effective ≠ unset &&
    effective ≠ ids.effective && effective ≠ ids.real && effective = ids.saved

/-- **A call that does what Linux does.**  A process whose capabilities are thought to be active
has the effective user id 0; -1 is not given to `setuid` or `setgid`, nor an effective id that is
neither the real nor the saved one; `setreuid` or `setregid` does not swap ids with the saved one,
and sets the effective id unless the ids that follow it are alike; `setfsuid` and `setfsgid` are not
trapped; and a program that is executed finds or makes the ids alike, and sets ids to 0 only. -/
def followsLinux : IdCall → Bool
  | .setid kind id _ =>
      let ids := config.ids kind
      id ≠ unset && (config.root ||
        if config.capsActive then ids.real = id && ids.saved = id
        else id ≠ ids.effective || id = ids.real || id = ids.saved)
  | .setreid kind real effective _ =>
      let ids := config.ids kind
      if config.root || ids.maySetreid real effective then
        (config.root || config.capsActive || !swaps ids real effective) &&
          (effective ≠ unset ||
            ids.fs = ids.effective && (real = unset || ids.saved = ids.effective))
      else !config.capsActive
  | .setresid kind real effective saved _ =>
      let ids := config.ids kind
      if config.root || ids.maySetresid real effective saved then
        effective ≠ unset || ids.fs = ids.effective
      else !config.capsActive
  | .setfsid kind id sigsys =>
      let ids := config.ids kind
      !sigsys && (id = ids.fs ||
        if id = unset then !(config.root || config.capsActive || ids.has id)
        else config.root || ids.has id || !config.capsActive)
  | .keepCaps _ => true
  | .execve program =>
      (if program.setuid then program.owner = 0 && config.user.fs = 0
        else config.user.saved = config.user.effective && config.user.fs = config.user.effective) &&
      (if program.setgid then
          if program.groupExec then program.group = 0 && config.group.fs = 0
          else config.group.effective = 0 && config.group.fs = 0
        else config.group.saved = config.group.effective &&
          config.group.fs = config.group.effective)

/-- Every call of a run does what Linux does. -/
def allFollowLinux (config : Config) : List IdCall → Bool
  | [] => true
  | idCall :: calls => config.followsLinux idCall && (config.call idCall).2.allFollowLinux calls

end Config

/-! ## Which calls do -/

/-- The ids that are kept are those of Linux. -/
def AlikeIds (config : Config) (cred : Cred) : Prop := ∀ kind, config.ids kind = cred.ids kind

theorem AlikeIds.of_eq {config : Config} {cred : Cred} (huser : config.user = cred.user)
    (hgroup : config.group = cred.group) : AlikeIds config cred := fun kind => by
  cases kind with
  | user => exact huser
  | group => exact hgroup

/-- A call has the result that it has on Linux, and leaves the ids that it leaves there. -/
def AlikeAfter (fake : IdResult × Config) (real : IdResult × Cred) : Prop :=
  fake.1 = real.1 ∧ AlikeIds fake.2 real.2

namespace Config

variable (config : Config)

theorem ids_maybeDropCaps (prevRoot : Bool) (kind : IdKind) :
    (config.maybeDropCaps prevRoot).ids kind = config.ids kind := by
  unfold maybeDropCaps
  split_ifs
  · cases kind <;> rfl
  · rfl

theorem ids_setIds (kind kind' : IdKind) (ids : Ids) :
    (config.setIds kind ids).ids kind' = if kind' = kind then ids else config.ids kind' := by
  cases kind <;> cases kind' <;> rfl

theorem ids_setFsXid (kind kind' : IdKind) (id : Id) :
    (config.setFsXid kind id).2.ids kind' =
      if kind' = kind then
        if config.privileged || id = (config.ids kind).fs || (config.ids kind).has id then
          { config.ids kind with fs := id }
        else config.ids kind
      else config.ids kind' := by
  unfold setFsXid
  dsimp only
  split_ifs with hallowed hkind hkind
  · rw [ids_setIds, if_pos hkind]
  · rw [ids_setIds, if_neg hkind]
  · rw [hkind]
  · rfl

theorem handleSysexitStart_user (program : Program) :
    (config.handleSysexitStart program).user =
      if program.setuid then { config.user with effective := 0, saved := 0 } else config.user := by
  unfold handleSysexitStart
  cases program.setuid <;> cases program.setgid <;> rfl

theorem handleSysexitStart_group (program : Program) :
    (config.handleSysexitStart program).group =
      if program.setgid then { config.group with effective := 0, saved := 0 }
      else config.group := by
  unfold handleSysexitStart
  cases program.setuid <;> cases program.setgid <;> rfl

theorem ids_change (kind kind' : IdKind) (ids : Ids) :
    (config.change kind ids).ids kind' = if kind' = kind then ids else config.ids kind' :=
  (ids_maybeDropCaps ..).trans (config.ids_setIds kind kind' ids)

end Config

theorem Config.privileged_eq (config : Config) :
    config.privileged = (config.root || config.capsActive) := rfl

theorem Config.maySetresid_eq (ids : Ids) (real effective saved : Id) :
    ids.maySetresid real effective saved = Config.allowsResXid ids real effective saved := rfl

theorem Config.allowsReXid_eq (ids : Ids) (real effective : Id) :
    Config.allowsReXid ids real effective =
      (ids.maySetreid real effective && !Config.swaps ids real effective) := by
  unfold Config.allowsReXid Config.swaps Ids.maySetreid Config.unchangedId Ids.has
  rw [Bool.eq_iff_iff]
  simp only [Bool.or_eq_true, Bool.and_eq_true, Bool.not_eq_true', Bool.and_eq_false_iff,
    decide_eq_true_eq, decide_eq_false_iff_not, ne_eq]
  grind

/-- When `SETREXID` leaves the ids that Linux leaves. -/
theorem Config.reXid_eq_iff (ids : Ids) (real effective : Id) :
    Config.reXid ids real effective = ids.reid real effective ↔
      effective ≠ unset ∨ ids.fs = ids.effective ∧ (real = unset ∨ ids.saved = ids.effective) := by
  unfold Config.reXid Ids.reid
  by_cases heffective : effective = unset <;> by_cases hreal : real = unset <;>
    simp [heffective, hreal, Ids.ext_iff, and_comm]

/-- When `SETRESXID` leaves the ids that Linux leaves. -/
theorem Config.resXid_eq_iff (ids : Ids) (real effective saved : Id) :
    Config.resXid ids real effective saved = ids.resid real effective saved ↔
      effective ≠ unset ∨ ids.fs = ids.effective := by
  unfold Config.resXid Ids.resid
  by_cases heffective : effective = unset <;> by_cases hreal : real = unset <;>
    by_cases hsaved : saved = unset <;> simp [heffective, hreal, hsaved, Ids.ext_iff]

namespace AlikeIds

variable {config : Config} {cred : Cred} (h : AlikeIds config cred) (hsound : cred.Sound)

include h

/-- A kind of ids becomes others on both sides. -/
theorem of_changed_iff {config' : Config} {kind : IdKind} {ids : Ids} {change : IdResult × Ids}
    (hids : ∀ kind', config'.ids kind' = if kind' = kind then ids else config.ids kind') :
    AlikeIds config' (cred.update kind change).2 ↔ ids = change.2 := by
  constructor
  · intro hafter
    have hkind := hafter kind
    rwa [hids, cred.ids_update, if_pos rfl, if_pos rfl] at hkind
  · intro hsame kind'
    rw [hids, cred.ids_update, hsame, h kind']

/-- A call that leaves the ids as they are on Linux. -/
theorem kept_iff {kind : IdKind} {change : IdResult × Ids} :
    AlikeIds config (cred.update kind change).2 ↔ config.ids kind = change.2 := by
  refine h.of_changed_iff fun kind' => ?_
  split_ifs with hkind
  · rw [hkind]
  · rfl

/-- A call that changes ids if it may. -/
theorem change_if_iff {kind : IdKind} {may may' : Bool} {ids ids' : Ids} :
    AlikeAfter (if may then (.done, config.change kind ids) else (.EPERM, config))
        (cred.update kind (if may' then (.done, ids') else (.EPERM, cred.ids kind))) ↔
      if may' then may = true ∧ ids = ids' else may = false := by
  have hchange : AlikeIds (config.change kind ids) (cred.update kind (.done, ids')).2 ↔
      ids = ids' :=
    h.of_changed_iff (config.ids_change kind · ids)
  have hkept : AlikeIds config (cred.update kind (.EPERM, cred.ids kind)).2 :=
    h.kept_iff.mpr (h kind)
  cases may <;> cases may'
  · exact ⟨fun _ => rfl, fun _ => ⟨rfl, hkept⟩⟩
  · simp [AlikeAfter, Cred.update]
  · simp [AlikeAfter, Cred.update]
  · exact and_congr ⟨fun _ => rfl, fun _ => rfl⟩ hchange

omit h in
theorem zero_eq_and_iff {id fs : Id} : 0 = id ∧ fs = id ↔ id = 0 ∧ fs = 0 := by
  constructor <;> rintro ⟨rfl, rfl⟩ <;> exact ⟨rfl, rfl⟩

theorem execve_iff (program : Program) :
    AlikeAfter (.done, config.handleSysexitStart program) (cred.call (.execve program)) ↔
      config.followsLinux (.execve program) = true := by
  have hafter : AlikeAfter (.done, config.handleSysexitStart program)
        (cred.call (.execve program)) ↔
      (config.handleSysexitStart program).user = (cred.call (.execve program)).2.user ∧
        (config.handleSysexitStart program).group = (cred.call (.execve program)).2.group := by
    exact (and_iff_right rfl).trans ⟨fun h => ⟨h .user, h .group⟩, fun h => .of_eq h.1 h.2⟩
  rw [hafter]
  unfold Config.followsLinux
  dsimp only
  rw [Bool.and_eq_true]
  have huser : config.user = cred.user := h .user
  have hgroup : config.group = cred.group := h .group
  refine and_congr ?_ ?_
  · rw [Config.handleSysexitStart_user]
    show _ = cred.user.exec (if program.setuid then some program.owner else none) ↔ _
    rw [← huser]
    unfold Ids.exec
    cases program.setuid <;> simp [Ids.ext_iff]
    all_goals exact zero_eq_and_iff
  · rw [Config.handleSysexitStart_group]
    show _ = cred.group.exec
      (if program.setgid && program.groupExec then some program.group else none) ↔ _
    rw [← hgroup]
    unfold Ids.exec
    cases program.setgid <;> cases program.groupExec <;> simp [Ids.ext_iff]
    all_goals exact zero_eq_and_iff

include hsound

theorem root_eq : cred.effective = config.root := by
  rw [Bool.eq_iff_iff, hsound.effective, Config.root, decide_eq_true_iff]
  exact iff_of_eq (congrArg (·.effective = 0) (h .user).symm)

theorem setid_iff (kind : IdKind) (id : Id) (sigsys : Bool) :
    AlikeAfter (config.setXid kind id) (cred.call (.setid kind id sigsys)) ↔
      config.followsLinux (.setid kind id sigsys) = true := by
  have hcall : cred.call (.setid kind id sigsys) =
      cred.update kind ((cred.ids kind).setid cred.effective id) := rfl
  unfold Config.followsLinux
  by_cases hunset : id = unset
  · -- Linux refuses -1, and the extension never answers `EINVAL`.
    have hrefused : (cred.call (.setid kind id sigsys)).1 = .EINVAL := by
      rw [hcall, Ids.setid, if_pos hunset]
      rfl
    have hanswer : (config.setXid kind id).1 ≠ .EINVAL := by
      unfold Config.setXid
      dsimp only
      split_ifs <;> simp
    refine ⟨fun hafter => (hanswer (hafter.1.trans hrefused)).elim, fun hfollows => ?_⟩
    simp [hunset] at hfollows
  · rw [hcall, Ids.setid_eq hunset]
    refine h.change_if_iff.trans ?_
    rw [← h kind, h.root_eq hsound, Config.privileged_eq]
    unfold Ids.has
    dsimp only
    cases config.root <;> cases config.capsActive <;> simp [hunset, Ids.ext_iff]
    · by_cases hreal : id = (config.ids kind).real <;>
        by_cases hsaved : id = (config.ids kind).saved <;> simp [hreal, hsaved]
    · exact ⟨fun hall => ⟨hall.2.1.symm, hall.2.2.symm⟩, fun hall =>
        ⟨.inl hall.1.symm, hall.1.symm, hall.2.symm⟩⟩

theorem setreid_iff (kind : IdKind) (real effective : Id) (sigsys : Bool) :
    AlikeAfter (config.setReXid kind real effective)
        (cred.call (.setreid kind real effective sigsys)) ↔
      config.followsLinux (.setreid kind real effective sigsys) = true := by
  refine h.change_if_iff.trans ?_
  rw [← h kind, h.root_eq hsound, Config.allowsReXid_eq, Config.reXid_eq_iff]
  unfold Config.followsLinux
  dsimp only
  rw [Config.privileged_eq]
  cases config.root <;> cases (config.ids kind).maySetreid real effective <;>
    cases config.capsActive <;> simp

theorem setresid_iff (kind : IdKind) (real effective saved : Id) (sigsys : Bool) :
    AlikeAfter (config.setResXid kind real effective saved)
        (cred.call (.setresid kind real effective saved sigsys)) ↔
      config.followsLinux (.setresid kind real effective saved sigsys) = true := by
  refine h.change_if_iff.trans ?_
  rw [← h kind, h.root_eq hsound, Config.resXid_eq_iff]
  unfold Config.followsLinux
  dsimp only
  rw [Config.privileged_eq, ← Config.maySetresid_eq]
  cases config.root <;> cases (config.ids kind).maySetresid real effective saved <;>
    cases config.capsActive <;> simp

theorem setfsid_iff (kind : IdKind) (id : Id) :
    AlikeAfter (config.setFsXid kind id) (cred.call (.setfsid kind id false)) ↔
      config.followsLinux (.setfsid kind id false) = true := by
  have hcall : cred.call (.setfsid kind id false) =
      cred.update kind ((cred.ids kind).setfsid cred.effective id) := rfl
  have hresult : (config.setFsXid kind id).1 = (cred.call (.setfsid kind id false)).1 :=
    congrArg (fun ids : Ids => IdResult.previous ids.fs) (h kind)
  refine (and_iff_right hresult).trans ?_
  rw [hcall, h.of_changed_iff (config.ids_setFsXid kind · id), ← h kind, h.root_eq hsound,
    Config.privileged_eq]
  unfold Ids.setfsid Config.followsLinux
  dsimp only
  by_cases hfs : id = (config.ids kind).fs
  · simp [hfs]
  · by_cases hunset : id = unset
    · subst hunset
      cases config.root <;> cases config.capsActive <;> cases (config.ids kind).has unset <;>
        simp [Ids.ext_iff, hfs]
    · cases config.root <;> cases config.capsActive <;> cases (config.ids kind).has id <;>
        simp [Ids.ext_iff, hfs, hunset]

/-- **When a call does what Linux does.** -/
theorem call_iff (idCall : IdCall) :
    AlikeAfter (config.call idCall) (cred.call idCall) ↔ config.followsLinux idCall = true := by
  cases idCall with
  | setid kind id sigsys => cases sigsys <;> exact h.setid_iff hsound kind id _
  | setreid kind real effective sigsys =>
      cases sigsys <;> exact h.setreid_iff hsound kind real effective _
  | setresid kind real effective saved sigsys =>
      cases sigsys <;> exact h.setresid_iff hsound kind real effective saved _
  | setfsid kind id sigsys =>
      cases sigsys with
      | false => exact h.setfsid_iff hsound kind id
      | true =>
          -- The extension does not know the call when it is trapped.
          refine iff_of_false (fun hafter => ?_) Bool.false_ne_true
          cases hafter.1
  | keepCaps arg =>
      refine iff_of_true ?_ rfl
      unfold Config.call Config.handleSysexitEnd Cred.call AlikeAfter
      dsimp only
      split_ifs
      · exact ⟨rfl, .of_eq (h .user) (h .group)⟩
      · exact ⟨rfl, h⟩
  | execve program => exact h.execve_iff program

end AlikeIds

/-! ## Runs -/

theorem trace_eq_iff {config : Config} {cred : Cred} (h : AlikeIds config cred)
    (hsound : cred.Sound) (calls : List IdCall) :
    config.trace calls = cred.trace calls ↔ config.allFollowLinux calls = true := by
  induction calls generalizing config cred with
  | nil => exact iff_of_true rfl rfl
  | cons idCall calls ih =>
      have hcall := h.call_iff hsound idCall
      rw [Config.allFollowLinux, Bool.and_eq_true, ← hcall]
      simp only [Config.trace, Cred.trace, List.cons.injEq, Prod.mk.injEq]
      constructor
      · rintro ⟨⟨hresult, huser, hgroup⟩, hrest⟩
        have hafter : AlikeIds (config.call idCall).2 (cred.call idCall).2 := .of_eq huser hgroup
        exact ⟨⟨hresult, hafter⟩, (ih hafter (Cred.call_sound hsound idCall)).mp hrest⟩
      · rintro ⟨⟨hresult, hafter⟩, hrest⟩
        exact ⟨⟨hresult, hafter .user, hafter .group⟩,
          (ih hafter (Cred.call_sound hsound idCall)).mpr hrest⟩

/-- **The fake ids are those of Linux.**  Whatever ids a tracee starts with and whatever calls it
makes, their results and the ids after each of them are those that Linux would give it, exactly if
each call is one of those that `fake_id0` treats as Linux does. -/
theorem ids_follow_iff (uid gid : Id) (calls : List IdCall) :
    (Config.initial uid gid).trace calls = (Cred.initial uid gid).trace calls ↔
      (Config.initial uid gid).allFollowLinux calls = true :=
  trace_eq_iff (.of_eq rfl rfl) (Cred.initial_sound uid gid) calls

/-- The effective id of root is given up, and then every id is set. -/
theorem ids_astray :
    (Config.initial 0 0).trace [.setresid .user unset 1000 unset false, .setid .user 1001 false] ≠
      (Cred.initial 0 0).trace
        [.setresid .user unset 1000 unset false, .setid .user 1001 false] := by
  decide

end PRoot
