import PRoot.CanonRun
import PRoot.Link2symlink
import PRoot.ListInv
import PRoot.SysnumTables

/-!
# Names that directories do not list

With the workaround of `f2fs-bug.c` a file exists if the listing of its directory has its
name.  Not every listing has all names: threads have no entry in "/proc", and no directory
lists the name "/".

* `lookup_same_iff`: the files whose lookup does not depend on the workaround;
* `canonicalize_shown`: a run that looks up no other file is the run without the workaround;
* `workaround_transparent`: this for `canonicalize`, and for `translated_path`.
-/

namespace PRoot

variable {W : Type} {k : Kernel W}

/-- The same host, where the workaround is enabled or not. -/
def Kernel.withWorkaround (k : Kernel W) (enabled : Bool) : Kernel W :=
  { k with f2fsBugDetected := enabled }

/-- `should_skip_file_access_due_to_f2fs_bug` with its assertion: PRoot aborts where this is
`none`. -/
def skipFileAccess (k : Kernel W) (world : W) (path : CStr) : Option Bool :=
  if k.f2fsBugDetected ∧ ¬ path.length < pathMax - 1 then none
  else some (shouldSkipFileAccess k world path)

/-- PRoot aborts when it looks up a guest path. -/
def AbortsAt (k : Kernel W) (sys : Sys W) (guestPath : CStr) : Prop :=
  ∃ hostPath changed, substituteBinding sys.bindings .guest guestPath = (hostPath, .ok changed) ∧
    skipFileAccess k sys.world hostPath = none

/-- The directory of a path lists its name, or cannot be listed. -/
def Named (k : Kernel W) (world : W) (path : CStr) : Prop :=
  ∀ entries, k.opendir world (dirname path) = some entries → basename path ∈ entries

/-- The host path of a guest path is not as long as paths may get, and what exists there has
its name listed. -/
def LookupShown (k : Kernel W) (sys : Sys W) (guestPath : CStr) : Prop :=
  ∀ hostPath changed, substituteBinding sys.bindings .guest guestPath = (hostPath, .ok changed) →
    hostPath.length < pathMax - 1 ∧
      ∀ type, statHost (k.withWorkaround false) sys.world hostPath = .ok type →
        Named k sys.world hostPath

/-! ## One lookup -/

theorem shouldSkip_iff {world : W} {path : CStr} :
    shouldSkipFileAccess (k.withWorkaround true) world path = true ↔ ¬ Named k world path := by
  have hdir : (k.withWorkaround true).opendir world (dirname path) =
      k.opendir world (dirname path) := rfl
  have hon : (k.withWorkaround true).f2fsBugDetected = true := rfl
  rw [shouldSkipFileAccess, Bool.and_eq_true, hdir, hon]
  unfold Named
  cases k.opendir world (dirname path) with
  | none => simp
  | some entries => simp

theorem statHost_named {world : W} {path : CStr} (h : Named k world path) :
    statHost (k.withWorkaround true) world path = statHost (k.withWorkaround false) world path := by
  have hoff : ¬ shouldSkipFileAccess (k.withWorkaround false) world path = true :=
    Bool.false_ne_true
  rw [statHost, if_neg (mt shouldSkip_iff.mp (not_not_intro h)), statHost, if_neg hoff]
  rfl

theorem statHost_hidden {world : W} {path : CStr} (h : ¬ Named k world path) :
    statHost (k.withWorkaround true) world path = .error .ENOENT := by
  rw [statHost, if_pos (shouldSkip_iff.mpr h)]

theorem skipFileAccess_enabled {world : W} {path : CStr} :
    skipFileAccess (k.withWorkaround true) world path = none ↔ ¬ path.length < pathMax - 1 := by
  unfold skipFileAccess
  by_cases h : path.length < pathMax - 1
  · rw [if_neg fun hboth => hboth.2 h]
    exact ⟨fun heq => (Option.some_ne_none _ heq).elim, fun hlong => absurd h hlong⟩
  · rw [if_pos ⟨rfl, h⟩]
    exact ⟨fun _ => h, fun _ => rfl⟩

variable {sys : Sys W} {guestPath hostPath : CStr}

/-- Without glue a lookup depends on the host only through the status of the host path. -/
theorem substituteBindingStat_status (hglue : sys.tracee.glueType = none) {changed : Bool}
    (hs : substituteBinding sys.bindings .guest guestPath = (hostPath, .ok changed))
    (finality : Finality) :
    substituteBindingStat k sys finality guestPath =
      (sys, ((match statHost k sys.world hostPath with
        | .ok type => checkType finality false (some type)
        | .error _ => checkType finality true none).map (·, hostPath))) := by
  unfold substituteBindingStat
  rw [hs, hglue]
  simp only
  cases statHost k sys.world hostPath <;> rfl

/-- **The lookups that do not depend on the workaround.** -/
theorem lookup_same_iff (hglue : sys.tracee.glueType = none) :
    (¬ AbortsAt (k.withWorkaround true) sys guestPath ∧ ∀ finality,
      substituteBindingStat (k.withWorkaround true) sys finality guestPath =
        substituteBindingStat (k.withWorkaround false) sys finality guestPath) ↔
      LookupShown k sys guestPath := by
  constructor
  · rintro ⟨habort, hsame⟩ hostPath changed hs
    have hshort : hostPath.length < pathMax - 1 := by
      by_contra hlong
      exact habort ⟨hostPath, changed, hs, skipFileAccess_enabled.mpr hlong⟩
    refine ⟨hshort, fun type htype => ?_⟩
    by_contra hhidden
    -- in the middle of a path a hidden file is missing, whatever it is
    have hmiddle := hsame .notFinal
    rw [substituteBindingStat_status hglue hs, substituteBindingStat_status hglue hs, htype,
      statHost_hidden hhidden] at hmiddle
    cases type <;> cases hmiddle
  · intro h
    refine ⟨?_, fun finality => ?_⟩
    · rintro ⟨hostPath, changed, hs, hnone⟩
      exact skipFileAccess_enabled.mp hnone (h hostPath changed hs).1
    · rcases hs : substituteBinding sys.bindings .guest guestPath with ⟨hostPath, e | changed⟩
      · rw [substituteBindingStat, substituteBindingStat, hs]
      · rw [substituteBindingStat_status hglue hs, substituteBindingStat_status hglue hs]
        by_cases hnamed : Named k sys.world hostPath
        · rw [statHost_named hnamed]
        · rw [statHost_hidden hnamed]
          cases hstat : statHost (k.withWorkaround false) sys.world hostPath with
          | error e => rfl
          | ok type => exact absurd ((h hostPath changed hs).2 type hstat) hnamed

/-! ## Runs -/

theorem looksSame_shown (hglue : sys.tracee.glueType = none) :
    LooksSame (k.withWorkaround false) (k.withWorkaround true) sys sys (LookupShown k sys) where
  limit := rfl
  stat := fun finality path hshown => by
    rw [((lookup_same_iff hglue).mpr hshown).2 finality]
    exact Prod.ext (substituteBindingStat_static hglue) rfl
  link := fun _ _ _ _ => rfl

/-- **Canonicalization does not depend on the workaround** where it looks up no other file. -/
theorem canonicalize_shown {fuel level : Nat} {userPath : CStr} {deref : Bool} {out : Outcome W}
    (hglue : sys.tracee.glueType = none)
    (hout : canonicalize (k.withWorkaround false) fuel sys userPath deref guestPath level =
      some out)
    (hlook : ∀ path, .look path ∈ out.log → LookupShown k sys path) :
    Canonicalizes (k.withWorkaround true) sys userPath deref guestPath level out := by
  have hsame : { out with sys := sys } = out := by rw [← canonicalize_static hglue hout]
  exact hsame ▸ canonicalize_carry hglue (looksSame_shown hglue) hout hlook

/-! ## `translated_path` -/

variable {α : Type}

/-- The calls `translated_path` leaves alone. -/
def linkSysnums : List Sysnum :=
  [.PR_unlink, .PR_unlinkat, .PR_link, .PR_linkat, .PR_rename, .PR_renameat, .PR_renameat2]

/-- `translated_path`, for the call at hand; PRoot aborts where this is `none`. -/
def translatedPathOf (k : Kernel W) (world : W) (sysnum : Sysnum) (fs : Files α) (path : CStr) :
    Option CStr :=
  if sysnum ∈ linkSysnums then some path
  else
    match skipFileAccess k world path with
    | none => none
    | some true => some path
    | some false => some (translatedPath fs path)

/-- A faked hard link, and the file it stands for. -/
def FakedLink (fs : Files α) (path final : CStr) : Prop :=
  ∃ intermediate, myReadlink fs path = .ok intermediate ∧ '/' ∈ intermediate ∧
    isL2s intermediate = true ∧ myReadlink fs intermediate = .ok final

theorem translatedPath_iff {fs : Files α} {path final : CStr} (hne : final ≠ path) :
    translatedPath fs path = final ↔ FakedLink fs path final := by
  unfold translatedPath FakedLink
  cases hread : myReadlink fs path with
  | error e => simp [hne.symm]
  | ok intermediate =>
      simp only [Except.ok.injEq, exists_eq_left']
      by_cases hl2s : '/' ∈ intermediate ∧ isL2s intermediate = true
      · rw [if_pos hl2s]
        cases hfinal : myReadlink fs intermediate with
        | error e => simp [hne.symm]
        | ok final' => simp [hl2s]
      · rw [if_neg hl2s]
        constructor
        · exact fun heq => absurd heq.symm hne
        · exact fun hlink => absurd ⟨hlink.1, hlink.2.1⟩ hl2s

/-- **The paths whose translation does not depend on the workaround.** -/
theorem translatedPathOf_same_iff {world : W} {sysnum : Sysnum} {fs : Files α} {path : CStr} :
    translatedPathOf (k.withWorkaround true) world sysnum fs path =
        translatedPathOf (k.withWorkaround false) world sysnum fs path ↔
      (sysnum ∉ linkSysnums → path.length < pathMax - 1 ∧
        ∀ final, FakedLink fs path final → final ≠ path → Named k world path) := by
  unfold translatedPathOf
  by_cases hlink : sysnum ∈ linkSysnums
  · simp [hlink]
  rw [if_neg hlink, if_neg hlink]
  have hoff : skipFileAccess (k.withWorkaround false) world path = some false := rfl
  rw [hoff]
  by_cases hshort : path.length < pathMax - 1
  · have hon : skipFileAccess (k.withWorkaround true) world path =
        some (shouldSkipFileAccess (k.withWorkaround true) world path) :=
      if_neg fun hboth => hboth.2 hshort
    rw [hon]
    by_cases hnamed : Named k world path
    · have hshow : shouldSkipFileAccess (k.withWorkaround true) world path = false :=
        Bool.eq_false_iff.mpr (mt shouldSkip_iff.mp (not_not_intro hnamed))
      simp [hshow, hshort, hnamed]
    · rw [shouldSkip_iff.mpr hnamed]
      simp only [Option.some.injEq]
      constructor
      · intro heq hnot
        refine ⟨hshort, fun final hfaked hne => ?_⟩
        exact absurd (heq.trans ((translatedPath_iff hne).mpr hfaked)).symm hne
      · intro h
        by_contra hne
        have hfaked := (translatedPath_iff (Ne.symm hne)).mp rfl
        exact hnamed ((h hlink).2 _ hfaked (Ne.symm hne))
  · rw [skipFileAccess_enabled.mpr hshort]
    simp [hlink, hshort]

/-! ## The workaround as a whole -/

/-- **The workaround is transparent where names are listed.**  Without glue, a lookup is the
same with it exactly if the host path is shorter than `PATH_MAX - 1` and, if it exists, its
name is listed or its directory cannot be listed; a canonicalization whose lookups are all of
this kind comes to the same and does not abort; and so does `translated_path` exactly if the
name of a faked hard link is listed in the same way. -/
theorem workaround_transparent (hglue : sys.tracee.glueType = none) :
    (∀ guestPath, (¬ AbortsAt (k.withWorkaround true) sys guestPath ∧ ∀ finality,
      substituteBindingStat (k.withWorkaround true) sys finality guestPath =
        substituteBindingStat (k.withWorkaround false) sys finality guestPath) ↔
      LookupShown k sys guestPath) ∧
    (∀ fuel userPath deref guestPath level out,
      canonicalize (k.withWorkaround false) fuel sys userPath deref guestPath level = some out →
      (∀ path, .look path ∈ out.log → LookupShown k sys path) →
      Canonicalizes (k.withWorkaround true) sys userPath deref guestPath level out ∧
        ∀ path, .look path ∈ out.log → ¬ AbortsAt (k.withWorkaround true) sys path) ∧
    ∀ sysnum (fs : Files α) path,
      translatedPathOf (k.withWorkaround true) sys.world sysnum fs path =
          translatedPathOf (k.withWorkaround false) sys.world sysnum fs path ↔
        (sysnum ∉ linkSysnums → path.length < pathMax - 1 ∧
          ∀ final, FakedLink fs path final → final ≠ path → Named k sys.world path) := by
  refine ⟨fun guestPath => lookup_same_iff hglue, ?_, fun sysnum fs path => ?_⟩
  · intro fuel userPath deref guestPath level out hout hlook
    refine ⟨canonicalize_shown hglue hout hlook, fun path hpath => ?_⟩
    exact ((lookup_same_iff hglue).mpr (hlook path hpath)).1
  · exact translatedPathOf_same_iff

/-- A host where 1 is a process and 7 one of its threads. -/
def threadHost : Kernel Unit :=
  { Kernel.frozen [("/proc".toList, .dir), ("/proc/1".toList, .dir), ("/proc/7".toList, .dir),
      ("/proc/7/stat".toList, .reg)] [] with
    opendir := fun _ path => if path = slash then some ["proc".toList] else some ["1".toList] }

/-- The directory of processes is listed, and is found. -/
theorem threadHost_proc :
    ∃ out, Canonicalizes (threadHost.withWorkaround true) (rootedSys slash) "/proc".toList true
      slash 0 out ∧ out.result = .ok "/proc".toList := by
  have hrun : (canonicalize (threadHost.withWorkaround false) 2 (rootedSys slash) "/proc".toList
      true slash 0).map (fun out => (out.log, out.result)) =
        some ([.enter 0, .look "/proc".toList, .leave 0 none], .ok "/proc".toList) := by
    decide
  obtain ⟨out, hout, heq⟩ := Option.map_eq_some_iff.mp hrun
  obtain ⟨hlog, hr⟩ := Prod.mk.inj heq
  refine ⟨out, ?_, hr⟩
  refine ((workaround_transparent (α := Unit) rfl).2.1 _ _ _ _ _ out hout fun path hpath => ?_).1
  have hproc : path = "/proc".toList := by simpa [hlog] using hpath
  subst hproc
  intro hostPath changed hs
  have hsame : substituteBinding (rootedSys slash).bindings .guest "/proc".toList =
      ("/proc".toList, .ok false) := by decide
  obtain ⟨rfl, -⟩ := Prod.mk.inj (hsame.symm.trans hs)
  refine ⟨by decide, fun type htype entries hentries => ?_⟩
  obtain rfl := Option.some.inj hentries
  decide

/-- The directory of a thread is not listed, and is not found with the workaround; and with it
PRoot aborts at a path as long as paths may get. -/
theorem threadHost_thread :
    (canonicalize (threadHost.withWorkaround false) 5 (rootedSys slash) "/proc/7/stat".toList true
      slash 0).map Outcome.result = some (.ok "/proc/7/stat".toList) ∧
    (canonicalize (threadHost.withWorkaround true) 5 (rootedSys slash) "/proc/7/stat".toList true
      slash 0).map Outcome.result = some (.error .ENOENT) ∧
    translatedPathOf (threadHost.withWorkaround true) () .PR_open ([] : Files Unit)
      ('/' :: List.replicate (pathMax - 2) 'a') = none := by
  refine ⟨by decide, by decide, ?_⟩
  have hlong : ¬ ('/' :: List.replicate (pathMax - 2) 'a').length < pathMax - 1 := by
    rw [List.length_cons, List.length_replicate]
    decide
  rw [translatedPathOf, if_neg (by decide), skipFileAccess_enabled.mpr hlong]

end PRoot
