import PRoot.Execve

/-!
# An execve that fails

What is kept of the running program when `execve` or `execveat` returns an error.  The enter
stage replaces its description before anything else can fail after the expansion of the
program, and the exit stage writes some fields before it looks at the result.

* `KeepsProgram`: nothing that describes the running program changed;
* `Unaffected`: the failure comes early enough, or what is overwritten is overwritten with
  itself;
* `failed_execve_keeps_iff`: the one is the other.
-/

namespace PRoot

/-- What describes the running program is as it was: for the tracee at hand, and for those
that share its heap. -/
structure KeepsProgram (sys sys' : ExecSys) : Prop where
  exe : sys'.tracee.exe = sys.tracee.exe
  loadInfo : sys'.tracee.loadInfo = sys.tracee.loadInfo
  heap : sys'.tracee.heap = sys.tracee.heap
  heaps : sys'.heaps = sys.heaps
  others : sys'.others = sys.others
  isAarch32 : sys'.tracee.isAarch32 = sys.tracee.isAarch32
  seenExecve : sys'.tracee.seenExecve = sys.tracee.seenExecve
  auxvFd : sys'.tracee.auxvFd = sys.tracee.auxvFd
  ignoreLoaderSyscalls : sys'.tracee.ignoreLoaderSyscalls = sys.tracee.ignoreLoaderSyscalls

section

variable (K : ExecHost) (call : ExecCall)

/-- What can be said of a new program, whether its loader is ready, or nothing where the
program crashes PRoot. -/
def describe (qemu : Bool) (hostPath userPath : CStr) (rawPath : Option CStr) :
    Option (Option LoadInfo × Except Errno Unit) :=
  if !K.allocates .loadInfo then some (none, .error .ENOMEM)
  else
    match collectLoadInfo K qemu hostPath userPath rawPath .zero with
    | .error status loadInfo => some (some loadInfo, .error status)
    | .ok _ loadInfo =>
        (computeLoadAddresses K loadInfo).map fun loadInfo =>
          (some loadInfo,
            match K.loaderPath (K.hasLoader32bit && loadInfo.elfHeader.isClass32) with
            | none => .error .ENOENT
            | some loaderPath => call.setSysargPath loaderPath)

/-- A description is of a 32-bit program. -/
def describesClass32 (loadInfo : Option LoadInfo) : Bool :=
  (loadInfo.map (·.elfHeader.isClass32)).getD false

/-- A runner changes nothing of a tracee that runs one already; where the kernel refuses it,
the tracee has to have started a program before, and to have no auxiliary vector open. -/
def RunnerUnaffected (hostPath : CStr) (sys : ExecSys) : Prop :=
  sys.tracee.loadInfo = none ∧ (sys.heaps sys.tracee.heap).disabled = true ∧
    (call.setSysargPath hostPath = .ok () → sys.tracee.seenExecve = true ∧ sys.tracee.auxvFd = -1)

/-- A program changes nothing of a tracee that is described as this program is, as far as its
description can be collected; where the kernel refuses the loader, the tracee has to hide its
system calls already, to have no auxiliary vector open, and to be of the same class. -/
def LoaderUnaffected (hostPath userPath : CStr) (rawPath : Option CStr) (sys : ExecSys) : Prop :=
  ∀ loadInfo answer,
    describe K call sys.tracee.qemu.isSome hostPath userPath rawPath = some (loadInfo, answer) →
    sys.tracee.loadInfo = loadInfo ∧
      (answer = .ok () → sys.tracee.ignoreLoaderSyscalls = true ∧ sys.tracee.auxvFd = -1 ∧
        (K.host = .ARCH_ARM64 → sys.tracee.isAarch32 = describesClass32 loadInfo))

/-- **Nothing is lost by a failure**: it comes from the directory, the path, the expansion of
scripts or that of the runner; or later, and all that was overwritten until then had that
value before. -/
def Unaffected (sys : ExecSys) : Prop :=
  call.dirFd.any (· ≠ execAtFdcwd) = true ∨
  if isLoadDone call sys.tracee then
    sys.tracee.ignoreLoaderSyscalls = false ∧ sys.tracee.seenExecve = true ∧
      sys.tracee.auxvFd = -1
  else
    match expandProgram K call sys.tracee with
    | (_, .error _) => True
    | (tracee, .ok (hostPath, userPath, rawPath)) =>
        if tracee.skipProotLoader then RunnerUnaffected call hostPath sys
        else LoaderUnaffected K call hostPath userPath rawPath sys

end

section

variable {K : ExecHost} {call : ExecCall} {sys sys' : ExecSys} {status : Errno}

theorem KeepsProgram.refl (sys : ExecSys) : KeepsProgram sys sys :=
  ⟨rfl, rfl, rfl, rfl, rfl, rfl, rfl, rfl, rfl⟩

/-- The expansion of a program changes nothing that describes the running one. -/
theorem expandProgram_keeps {answer : Except Errno (CStr × CStr × Option CStr)}
    {tracee : ExecTracee} (h : expandProgram K call sys.tracee = (tracee, answer)) :
    ∃ newExe hostExe skipProotLoader,
      tracee = { sys.tracee with newExe, hostExe, skipProotLoader } := by
  unfold expandProgram at h
  cases hpath : call.userPath with
  | error status =>
      rw [hpath] at h
      cases h
      exact ⟨_, _, _, rfl⟩
  | ok askedPath =>
      simp only [hpath] at h
      split at h
      · cases h
        exact ⟨_, _, _, rfl⟩
      cases hscript : expandShebang K call.arrays askedPath with
      | error status =>
          rw [hscript] at h
          cases h
          exact ⟨_, _, _, rfl⟩
      | ok program =>
          obtain ⟨hostPath, userPath, isScript⟩ := program
          simp only [hscript] at h
          split at h
          · cases h
            exact ⟨_, _, _, rfl⟩
          split at h
          · cases h
            exact ⟨_, _, _, rfl⟩
          · cases h
            exact ⟨_, _, _, rfl⟩

/-- The loader stage replaces the description, and hides the loader once it is ready. -/
theorem enterLoader_eq (hostPath userPath : CStr) (rawPath : Option CStr) (sys : ExecSys) :
    enterLoader K call hostPath userPath rawPath sys =
      match describe K call sys.tracee.qemu.isSome hostPath userPath rawPath with
      | none => .crash
      | some (loadInfo, .error status) => .status (.error status) (sys.setLoadInfo loadInfo)
      | some (loadInfo, .ok _) =>
          .status (.ok ())
            { sys with tracee := { sys.tracee with loadInfo, ignoreLoaderSyscalls := true } } := by
  unfold enterLoader describe
  by_cases hroom : K.allocates .loadInfo = true
  case neg => simp only [hroom, Bool.not_false, if_true]
  simp only [hroom, Bool.not_true, Bool.false_eq_true, if_false]
  cases collectLoadInfo K sys.tracee.qemu.isSome hostPath userPath rawPath .zero with
  | error status loadInfo => rfl
  | ok _ loadInfo =>
      cases hplace : computeLoadAddresses K loadInfo with
      | none => simp only [hplace, Option.map_none]
      | some placed =>
          simp only [hplace, Option.map_some]
          cases K.loaderPath (K.hasLoader32bit && placed.elfHeader.isClass32) with
          | none => rfl
          | some loaderPath =>
              simp only
              cases call.setSysargPath loaderPath with
              | error status => rfl
              | ok value => rfl

theorem disableHeap_heaps_iff :
    sys.disableHeap.heaps = sys.heaps ↔ (sys.heaps sys.tracee.heap).disabled = true := by
  constructor
  · intro h
    rw [← h]
    simp [ExecSys.disableHeap]
  · intro h
    funext address
    by_cases heq : address = sys.tracee.heap
    · subst heq
      simp only [ExecSys.disableHeap, if_true, ← h]
    · simp only [ExecSys.disableHeap, if_neg heq]

/-- The exit stage of a runner that the kernel refused. -/
theorem exit_runner {result : Except Errno Unit} (hskip : sys.tracee.skipProotLoader = true) :
    translateExecveExit K call result sys =
      ({ sys with tracee := { sys.tracee with auxvFd := -1, seenExecve := true } }, result) := by
  simp only [translateExecveExit, hskip, if_true]

/-- The exit stage of a loader that the kernel refused. -/
theorem exit_loader (hskip : sys.tracee.skipProotLoader = false)
    (hdone : isLoadDone call sys.tracee = false) :
    translateExecveExit K call (.error status) sys =
      ({ sys with tracee := { sys.tracee with
          auxvFd := -1
          isAarch32 := if K.host = .ARCH_ARM64 then describesClass32 sys.tracee.loadInfo
            else sys.tracee.isAarch32 } }, .error status) := by
  unfold translateExecveExit
  dsimp only
  rw [if_neg (by rw [hskip]; exact Bool.false_ne_true)]
  refine (if_neg fun h => Bool.false_ne_true (hdone.symm.trans h)).trans ?_
  by_cases harm : K.host = .ARCH_ARM64
  · simp only [harm, if_true, describesClass32]
  · simp only [harm, if_false]

/-- The exit stage of a load that is done. -/
theorem exit_done {result : Except Errno Unit} (hskip : sys.tracee.skipProotLoader = false)
    (hdone : isLoadDone call sys.tracee = true) :
    (translateExecveExit K call result sys).2 = .ok () := by
  unfold translateExecveExit
  dsimp only
  rw [if_neg (by rw [hskip]; exact Bool.false_ne_true)]
  exact congrArg Prod.snd (if_pos hdone)

/-- The exit stage reports no error of its own. -/
theorem exit_ok (value : Unit) : (translateExecveExit K call (.ok value) sys).2 = .ok () := by
  unfold translateExecveExit
  dsimp only
  split
  · rfl
  · split <;> rfl

/-- A call that hands a runner to the kernel and fails. -/
theorem runner_keeps_iff {newExe : Option CStr} {hostExe hostPath : CStr}
    (h : conclude K call call.kernel (enterRunner call hostPath { sys with tracee :=
      { sys.tracee with newExe, hostExe, skipProotLoader := true } }) =
        some (sys', .error status)) :
    KeepsProgram sys sys' ↔ RunnerUnaffected call hostPath sys := by
  have hheaps : sys.disableHeap.heaps = sys.heaps ↔
      (sys.heaps sys.tracee.heap).disabled = true := disableHeap_heaps_iff
  unfold enterRunner at h
  unfold RunnerUnaffected
  cases hpath : call.setSysargPath hostPath with
  | error refused =>
      rw [hpath] at h
      cases h
      constructor
      · intro hkeeps
        exact ⟨hkeeps.loadInfo.symm, hheaps.mp hkeeps.heaps, by intro h; cases h⟩
      · intro ⟨hinfo, hdisabled, _⟩
        exact ⟨rfl, hinfo.symm, rfl, hheaps.mpr hdisabled, rfl, rfl, rfl, rfl, rfl⟩
  | ok value =>
      rw [hpath, conclude, exit_runner rfl] at h
      obtain ⟨rfl, _⟩ := Prod.mk.inj (Option.some.inj h)
      constructor
      · intro hkeeps
        exact ⟨hkeeps.loadInfo.symm, hheaps.mp hkeeps.heaps,
          fun _ => ⟨hkeeps.seenExecve.symm, hkeeps.auxvFd.symm⟩⟩
      · intro ⟨hinfo, hdisabled, hlate⟩
        obtain ⟨hseen, hauxv⟩ := hlate rfl
        exact ⟨rfl, hinfo.symm, rfl, hheaps.mpr hdisabled, rfl, rfl, hseen.symm, hauxv.symm, rfl⟩

/-- A call that hands the loader to the kernel and fails. -/
theorem loader_keeps_iff {newExe : Option CStr} {hostExe hostPath userPath : CStr}
    {rawPath : Option CStr} (hdone : isLoadDone call sys.tracee = false)
    (h : conclude K call call.kernel (enterLoader K call hostPath userPath rawPath { sys with
      tracee := { sys.tracee with newExe, hostExe, skipProotLoader := false } }) =
        some (sys', .error status)) :
    KeepsProgram sys sys' ↔ LoaderUnaffected K call hostPath userPath rawPath sys := by
  rw [enterLoader_eq] at h
  unfold LoaderUnaffected
  cases hdescribe : describe K call sys.tracee.qemu.isSome hostPath userPath rawPath with
  | none =>
      simp only [hdescribe] at h
      cases h
  | some described =>
      obtain ⟨loadInfo, answer⟩ := described
      simp only [hdescribe] at h
      cases answer with
      | error refused =>
          cases h
          constructor
          · intro hkeeps _ _ heq
            cases heq
            exact ⟨hkeeps.loadInfo.symm, by intro h; cases h⟩
          · intro hcond
            obtain ⟨hinfo, _⟩ := hcond _ _ rfl
            exact ⟨rfl, hinfo.symm, rfl, rfl, rfl, rfl, rfl, rfl, rfl⟩
      | ok value =>
          obtain ⟨refused, hkernel⟩ : ∃ refused, call.kernel = .error refused := by
            cases hkernel : call.kernel with
            | error refused => exact ⟨refused, rfl⟩
            | ok value =>
                rw [hkernel] at h
                have hresult := congrArg Prod.snd (Option.some.inj h)
                rw [exit_ok] at hresult
                cases hresult
          simp only [hkernel, conclude] at h
          rw [exit_loader rfl (by exact hdone)] at h
          obtain ⟨rfl, _⟩ := Prod.mk.inj (Option.some.inj h)
          constructor
          · intro hkeeps _ _ heq
            cases heq
            refine ⟨hkeeps.loadInfo.symm, fun _ =>
              ⟨hkeeps.ignoreLoaderSyscalls.symm, hkeeps.auxvFd.symm, ?_⟩⟩
            intro harm
            have hclass := hkeeps.isAarch32
            simp only [harm, if_true] at hclass
            exact hclass.symm
          · intro hcond
            obtain ⟨hinfo, hlate⟩ := hcond _ _ rfl
            obtain ⟨hignore, hauxv, hclass⟩ := hlate rfl
            refine ⟨rfl, hinfo.symm, rfl, rfl, rfl, ?_, rfl, hauxv.symm, hignore.symm⟩
            by_cases harm : K.host = .ARCH_ARM64
            · simp only [harm, if_true, hclass harm]
            · simp only [harm, if_false]

/-- A notification that a load is done, taken for a call of a runner that fails. -/
theorem done_keeps_iff {result : Except Errno Unit}
    (hdone : isLoadDone call sys.tracee = true)
    (h : conclude K call result (.status (.ok ()) { sys with tracee :=
      { sys.tracee with ignoreLoaderSyscalls := false } }) = some (sys', .error status)) :
    KeepsProgram sys sys' ↔
      sys.tracee.ignoreLoaderSyscalls = false ∧ sys.tracee.seenExecve = true ∧
        sys.tracee.auxvFd = -1 := by
  cases hskip : sys.tracee.skipProotLoader with
  | false =>
      have hresult := congrArg Prod.snd (Option.some.inj h)
      rw [exit_done (by exact hskip) (by exact hdone)] at hresult
      cases hresult
  | true =>
      rw [conclude, exit_runner (by exact hskip)] at h
      obtain ⟨rfl, _⟩ := Prod.mk.inj (Option.some.inj h)
      constructor
      · intro hkeeps
        exact ⟨hkeeps.ignoreLoaderSyscalls.symm, hkeeps.seenExecve.symm, hkeeps.auxvFd.symm⟩
      · intro ⟨hignore, hseen, hauxv⟩
        exact ⟨rfl, rfl, rfl, rfl, rfl, rfl, hseen.symm, hauxv.symm, hignore.symm⟩

/-- **A failed execve changes nothing** exactly when it fails before the description of the
running program is given up, or had nothing to change. -/
theorem failed_execve_keeps_iff (h : execve K call sys = some (sys', .error status)) :
    KeepsProgram sys sys' ↔ Unaffected K call sys := by
  unfold execve at h
  unfold Unaffected
  by_cases hdir : call.dirFd.any (· ≠ execAtFdcwd) = true
  · rw [if_pos hdir] at h
    cases h
    exact iff_of_true (.refl sys) (.inl hdir)
  rw [if_neg hdir] at h
  rw [or_iff_right hdir]
  unfold translateExecveEnter at h
  cases hdone : isLoadDone call sys.tracee with
  | true =>
      simp only [hdone, if_true] at h ⊢
      exact done_keeps_iff hdone h
  | false =>
      simp only [hdone, Bool.false_eq_true, if_false] at h ⊢
      cases hexpand : expandProgram K call sys.tracee with
      | mk tracee answer =>
          obtain ⟨newExe, hostExe, skip, rfl⟩ := expandProgram_keeps hexpand
          rw [hexpand] at h
          cases answer with
          | error refused =>
              cases h
              exact iff_of_true ⟨rfl, rfl, rfl, rfl, rfl, rfl, rfl, rfl, rfl⟩ trivial
          | ok program =>
              obtain ⟨hostPath, userPath, rawPath⟩ := program
              cases skip with
              | true => exact runner_keeps_iff h
              | false => exact loader_keeps_iff hdone h

end

/-! ## A file that is no program -/

/-- A host where every file holds five bytes of text. -/
def hostOfNotes : ExecHost where
  host := .ARCH_ARM64
  pageSize := 4096
  binprmBufSize := 128
  maxSymlinks := 40
  forceForeign := false
  useLoaderForQemu := false
  errno := none
  allocates := fun _ => true
  translatePath := fun path => .ok path
  detranslatePath := fun path => some path
  accessF := fun _ => true
  accessX := fun _ => true
  lstat := fun _ => true
  openFile := fun _ => .ok ⟨.ok [0x68, 0x65, 0x6c, 0x6c, 0x6f], 2 ^ 40⟩
  loaderPath := fun _ => some "/libloader.so".toList

/-- `execve("/notes")`. -/
def execveNotes : ExecCall where
  dirFd := none
  arg1 := 0x1000
  arg4 := 0
  arg5 := 0
  arg6 := 0
  userPath := .ok "/notes".toList
  arrays := ⟨.ok ["notes".toList], .ok [], fun _ => .ok (), fun _ => .ok ()⟩
  runnerArgv := fun argv runner => .ok (runner ++ argv)
  hostEnvp := fun _ envp => .ok envp
  setSysargPath := fun _ => .ok ()
  kernel := .ok ()
  voided := .ok ()

/-- A shell that runs. -/
def sysOfShell : ExecSys where
  tracee := {
    exe := "/bin/sh".toList
    newExe := none
    hostExe := "/bin/sh".toList
    loadInfo := some { LoadInfo.zero with userPath := some "/bin/sh".toList }
    heap := 0
    isAarch32 := false
    seenExecve := true
    auxvFd := -1
    ignoreLoaderSyscalls := false
    skipProotLoader := false
    ptraced := false
    qemu := none }
  others := []
  heaps := fun _ => ⟨0x5000, 4096, false⟩
  nextHeap := 1

/-- The result of a call, and the path of the program its tracee is then said to run. -/
def resultAndPath (outcome : Option (ExecSys × Except Errno Unit)) :
    Option (Option Errno × Option CStr) :=
  outcome.map fun (sys, answer) =>
    (match answer with
      | .error status => some status
      | .ok _ => none, sys.tracee.loadInfo.bind (·.userPath))

/-- The call fails, and its tracee is said to run the file all the same. -/
theorem execveNotes_outcome : ∃ sys',
    execve hostOfNotes execveNotes sysOfShell = some (sys', .error .ENOEXEC) ∧
      sys'.tracee.loadInfo.bind (·.userPath) = some "/notes".toList := by
  have houtcome : resultAndPath (execve hostOfNotes execveNotes sysOfShell) =
      some (some .ENOEXEC, some "/notes".toList) := by
    decide
  cases hcall : execve hostOfNotes execveNotes sysOfShell with
  | none =>
      rw [hcall] at houtcome
      cases houtcome
  | some outcome =>
      obtain ⟨sys', answer⟩ := outcome
      rw [hcall] at houtcome
      obtain ⟨hanswer, hpath⟩ := Prod.mk.inj (Option.some.inj houtcome)
      cases answer with
      | ok value => cases hanswer
      | error status =>
          cases hanswer
          exact ⟨sys', rfl, hpath⟩

theorem failed_execve_keeps_iff_notes : ∃ sys',
    execve hostOfNotes execveNotes sysOfShell = some (sys', .error .ENOEXEC) ∧
      (KeepsProgram sysOfShell sys' ↔ Unaffected hostOfNotes execveNotes sysOfShell) := by
  obtain ⟨sys', hcall, _⟩ := execveNotes_outcome
  exact ⟨sys', hcall, failed_execve_keeps_iff hcall⟩

theorem failed_execve_keeps_fails :
    ¬ ∀ (K : ExecHost) (call : ExecCall) (sys sys' : ExecSys) (status : Errno),
      execve K call sys = some (sys', .error status) → KeepsProgram sys sys' := by
  intro hclaim
  obtain ⟨sys', hcall, hpath⟩ := execveNotes_outcome
  have hkeeps := hclaim _ _ _ _ _ hcall
  rw [hkeeps.loadInfo] at hpath
  exact absurd hpath (by decide)

end PRoot
