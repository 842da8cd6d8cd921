import PRoot.Shebang

/-!
# Execve

`translate_execve_enter` and `translate_execve_exit`, with what they keep of the program a
tracee runs, and the whole call: the enter stage, what the kernel answers, the exit stage.

* `translateExecveEnter`: the description of the new program replaces that of the old one;
* `translateExecveExit`: the new program is started;
* `execve`: the call as its tracee sees it.
-/

namespace PRoot

/-- `Heap`. -/
structure Heap where
  base : BitVec 64
  size : BitVec 64
  disabled : Bool
  deriving DecidableEq, Repr

/-- `Tracee`, as far as the program it runs goes.  Heaps are shared by reference, so a tracee
holds the address of its heap. -/
structure ExecTracee where
  exe : CStr
  newExe : Option CStr
  hostExe : CStr
  loadInfo : Option LoadInfo
  heap : Nat
  isAarch32 : Bool
  seenExecve : Bool
  auxvFd : Int
  ignoreLoaderSyscalls : Bool
  skipProotLoader : Bool
  /-- It has a `ptracer`. -/
  ptraced : Bool
  qemu : Option (List CStr)

/-- The tracee at hand, the other ones, and the heaps at their addresses. -/
structure ExecSys where
  tracee : ExecTracee
  others : List ExecTracee
  heaps : Nat → Heap
  nextHeap : Nat

namespace ExecSys

variable (sys : ExecSys)

/-- `talloc_unlink` and `talloc_zero` of `load_info`. -/
def setLoadInfo (loadInfo : Option LoadInfo) : ExecSys :=
  { sys with tracee := { sys.tracee with loadInfo } }

/-- `tracee->heap->disabled = true`. -/
def disableHeap : ExecSys :=
  { sys with heaps := fun address =>
      if address = sys.tracee.heap then { sys.heaps address with disabled := true }
      else sys.heaps address }

/-- Another tracee refers to the heap of the tracee at hand. -/
def sharesHeap : Bool := sys.others.any (·.heap = sys.tracee.heap)

/-- "New processes have no heap." -/
def newHeap : ExecSys :=
  let empty : Heap := ⟨0, 0, false⟩
  if sys.sharesHeap then
    { sys with
      tracee := { sys.tracee with heap := sys.nextHeap }
      heaps := fun address => if address = sys.nextHeap then empty else sys.heaps address
      nextHeap := sys.nextHeap + 1 }
  else
    { sys with heaps := fun address =>
        if address = sys.tracee.heap then empty else sys.heaps address }

end ExecSys

/-- One call of `execve` or `execveat`: what its arguments say, and what the host answers
while it is translated. -/
structure ExecCall where
  /-- The directory of an `execveat`; `execve` has none. -/
  dirFd : Option Int
  /-- The arguments of the call as registers. -/
  arg1 : BitVec 64
  arg4 : BitVec 64
  arg5 : BitVec 64
  arg6 : BitVec 64
  /-- `get_sysarg_path`. -/
  userPath : Except Errno CStr
  arrays : ExecArrays
  /-- What is done with `argv[]` and `envp[]` for a runner: rewriting `argv[]`,
  `rebuild_host_ldso_paths`. -/
  runnerArgv : List CStr → List CStr → Except Errno (List CStr)
  hostEnvp : CStr → List CStr → Except Errno (List CStr)
  /-- `set_sysarg_path` of `SYSARG_1`. -/
  setSysargPath : CStr → Except Errno Unit
  /-- What the kernel answers to the translated call. -/
  kernel : Except Errno Unit
  /-- What the register of the result holds after a call that was cancelled. -/
  voided : Except Errno Unit

/-- `AT_FDCWD`, as the `int` that `execveat` is compared with. -/
def execAtFdcwd : Int := -100

/-- The outcome of a stage: a status, or `SIGSEGV`. -/
inductive ExecStage
  | status (answer : Except Errno Unit) (sys : ExecSys)
  | crash

section

variable (K : ExecHost) (call : ExecCall)

/-- `IS_NOTIFICATION_PTRACED_LOAD_DONE`. -/
def isLoadDone (tracee : ExecTracee) : Bool :=
  tracee.ptraced && call.arg1 = 1 && call.arg4 = 2 && call.arg5 = 3 && call.arg6 = 4

/-- `expand_runner`: whether it wants the loader skipped, and the program from both points
of view. -/
def expandRunner (qemu : List CStr) (hostPath userPath : CStr) :
    Bool × Except Errno (CStr × CStr) :=
  match call.arrays.envp with
  | .error status => (false, .error status)
  | .ok envp =>
      let foreign := !isHostElf K.host K.forceForeign (K.openFile hostPath)
      let skip := foreign && !K.useLoaderForQemu
      let runner := qemu.headD []
      let hostPath' := if foreign then runner else hostPath
      let userPath' :=
        if foreign then if skip then runner else hostRootfs ++ runner else userPath
      let done : Except Errno (CStr × CStr) := do
        if foreign then
          let argv ← call.arrays.argv
          let argv ← call.runnerArgv argv (qemu ++ [userPath])
          call.arrays.pushArgv argv
        let envp ← call.hostEnvp hostPath' envp
        call.arrays.pushEnvp envp
        .ok (hostPath', userPath')
      (skip, done)

/-- "Remember the new value for `/proc/self/exe`." -/
def rememberExe (tracee : ExecTracee) (hostPath : CStr) : ExecTracee :=
  { tracee with
    hostExe := hostPath
    newExe := K.detranslatePath hostPath
    skipProotLoader := false }

/-- `translate_execve_enter` until the description of the running program is given up: the
program to execute, from both points of view, and the path that was asked for. -/
def expandProgram (tracee : ExecTracee) :
    ExecTracee × Except Errno (CStr × CStr × Option CStr) :=
  match call.userPath with
  | .error status => (tracee, .error status)
  | .ok askedPath =>
      if !K.allocates .rawPath then (tracee, .error .ENOMEM)
      else
        match expandShebang K call.arrays askedPath with
        | .error status => (tracee, .error (if status = .EISDIR then .EACCES else status))
        | .ok (hostPath, userPath, isScript) =>
            let rawPath := if isScript || tracee.qemu.isSome then some askedPath else none
            let tracee := rememberExe K tracee hostPath
            match tracee.qemu with
            | none => (tracee, .ok (hostPath, userPath, rawPath))
            | some qemu =>
                match expandRunner K call qemu hostPath userPath with
                | (skip, .error status) =>
                    ({ tracee with skipProotLoader := skip }, .error status)
                | (skip, .ok (hostPath, userPath)) =>
                    ({ tracee with skipProotLoader := skip }, .ok (hostPath, userPath, rawPath))

/-- The rest of `translate_execve_enter` for a runner that is executed as it is. -/
def enterRunner (hostPath : CStr) (sys : ExecSys) : ExecStage :=
  .status (call.setSysargPath hostPath) (sys.setLoadInfo none).disableHeap

/-- The rest of `translate_execve_enter` for a program that the loader loads. -/
def enterLoader (hostPath userPath : CStr) (rawPath : Option CStr) (sys : ExecSys) : ExecStage :=
  if !K.allocates .loadInfo then .status (.error .ENOMEM) (sys.setLoadInfo none)
  else
    match collectLoadInfo K sys.tracee.qemu.isSome hostPath userPath rawPath .zero with
    | .error status loadInfo => .status (.error status) (sys.setLoadInfo (some loadInfo))
    | .ok _ loadInfo =>
        match computeLoadAddresses K loadInfo with
        | none => .crash
        | some loadInfo =>
            let sys := sys.setLoadInfo (some loadInfo)
            match K.loaderPath (K.hasLoader32bit && loadInfo.elfHeader.isClass32) with
            | none => .status (.error .ENOENT) sys
            | some loaderPath =>
                match call.setSysargPath loaderPath with
                | .error status => .status (.error status) sys
                | .ok _ =>
                    .status (.ok ())
                      { sys with tracee := { sys.tracee with ignoreLoaderSyscalls := true } }

/-- `translate_execve_enter`. -/
def translateExecveEnter (sys : ExecSys) : ExecStage :=
  if isLoadDone call sys.tracee then
    .status (.ok ()) { sys with tracee := { sys.tracee with ignoreLoaderSyscalls := false } }
  else
    match expandProgram K call sys.tracee with
    | (tracee, .error status) => .status (.error status) { sys with tracee }
    | (tracee, .ok (hostPath, userPath, rawPath)) =>
        let sys := { sys with tracee }
        if tracee.skipProotLoader then enterRunner call hostPath sys
        else enterLoader K call hostPath userPath rawPath sys

/-- `translate_execve_exit`, given the result of the call: the tracees afterwards and the
result the tracee gets. -/
def translateExecveExit (result : Except Errno Unit) (sys : ExecSys) :
    ExecSys × Except Errno Unit :=
  let tracee := { sys.tracee with auxvFd := -1 }
  if tracee.skipProotLoader then
    ({ sys with tracee := { tracee with seenExecve := true } }, result)
  else if isLoadDone call tracee then ({ sys with tracee }, .ok ())
  else
    let tracee :=
      if K.host = .ARCH_ARM64 then
        -- The enter stage left a load info.
        { tracee with isAarch32 := (tracee.loadInfo.map (·.elfHeader.isClass32)).getD false }
      else tracee
    match result with
    | .error status => ({ sys with tracee }, .error status)
    | .ok _ =>
        let tracee := { tracee with seenExecve := true, exe := tracee.newExe.getD tracee.exe }
        (({ sys with tracee } : ExecSys).newHeap, .ok ())

/-- What follows the enter stage: an error cancels the call, and the exit stage is skipped. -/
def conclude (result : Except Errno Unit) : ExecStage → Option (ExecSys × Except Errno Unit)
  | .crash => none
  | .status (.error status) sys => some (sys, .error status)
  | .status (.ok _) sys => some (translateExecveExit K call result sys)

/-- **The whole call**: the tracees afterwards and the result the tracee gets, unless PRoot
crashed. -/
def execve (sys : ExecSys) : Option (ExecSys × Except Errno Unit) :=
  if call.dirFd.any (· ≠ execAtFdcwd) then some (sys, .error .ENOSYS)
  else
    conclude K call (if isLoadDone call sys.tracee then call.voided else call.kernel)
      (translateExecveEnter K call sys)

end

end PRoot
