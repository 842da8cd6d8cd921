import PRoot.Canon

/-!
# Mounts

The functions that edit the binding lists: `new_binding` and
`initialize_bindings` of `path/binding.c` at start-up, and the emulation of
`mount`, `umount` and `pivot_root` of `syscall/enter.c` afterwards.  Whether a
call is refused and what is reported to the user is left out, and so are the
bindings induced by a former configuration: no tracee is reconfigured.
-/

namespace PRoot

variable {W : Type}

namespace Sys

/-- `remove_binding_from_all_lists`, for the tracee at hand. -/
def removeBinding (sys : Sys W) (binding : Binding) : Sys W :=
  sys.setBindings (removeBindingFromAllLists sys.bindings binding)

/-- Set `tracee->glue_type`. -/
def setGlueType (sys : Sys W) (glueType : Option FileType) : Sys W :=
  { sys with tracee := { sys.tracee with glueType } }

end Sys

/-! ## Start-up -/

/-- `get_root`, while the bindings are still pending. -/
def getPendingRoot (bindings : Bindings) : Option CStr :=
  bindings.pending.getLast?.bind fun binding =>
    if comparePaths binding.guest.path slash ≠ .pathsAreEqual then none
    else some binding.host.path

/-- `new_binding`, and whether it succeeds. -/
def newBinding (k : Kernel W) (sys : Sys W) (host : CStr) (guest : Option CStr) : Sys W × Bool :=
  match k.realpath sys.world host with
  | .error _ => (sys, false)
  | .ok hostPath =>
      let guest := guest.getD host
      let base := if guest.head? = some '/' then .ok slash else k.getcwd sys.world
      match base >>= fun base => joinPaths [base, guest] with
      | .error _ => (sys, false)
      | .ok guestPath =>
          let binding : Binding := ⟨sys.nextAddr, .ofCStr hostPath, .ofCStr guestPath, false⟩
          ({ sys.setBindings (insortBinding sys.bindings .pending binding) with
              nextAddr := sys.nextAddr + 1 }, true)

/-- The options that bind: "-r", which has to succeed, and "-b", also for the
bindings recommended along with "-R" and "-S". -/
inductive BindOption
  | r (value : CStr)
  | b (host : CStr) (guest : Option CStr)
  deriving DecidableEq, Repr

/-- `handle_option_r` and `handle_option_b`. -/
def handleOption (k : Kernel W) (sys : Sys W) : BindOption → Option (Sys W)
  | .r value =>
      let (sys, succeeds) := newBinding k sys value (some slash)
      if succeeds then some sys else none
  | .b host guest => some (newBinding k sys host guest).1

/-- `pre_initialize_bindings`: the default root is "/". -/
def preInitializeBindings (k : Kernel W) (sys : Sys W) : Option (Sys W) :=
  if getPendingRoot sys.bindings = none then handleOption k sys (.r slash) else some sys

/-- The type of the glue for a binding from a host path. -/
def glueTypeOf (k : Kernel W) (world : W) (hostPath : CStr) : FileType :=
  match k.lstat world hostPath with
  | .error _ | .ok .blk | .ok .chr => .reg
  | .ok type => type

/-- The path `initialize_binding` canonicalizes, and whether its last component
is followed: a final '!' says not to. -/
def bindingTarget (path : CStr) : CStr × Bool :=
  if path.getLast? = some '!' then (path.dropLast, false) else (path, true)

/-- `initialize_binding`.  On an error the type of the glue stays set. -/
def initializeBinding (k : Kernel W) (fuel : Nat) (sys : Sys W) (binding : Binding) :
    Option (Sys W) :=
  if comparePaths binding.guest.path slash ≠ .pathsAreEqual then
    let (path, dereference) := bindingTarget binding.guest.path
    let sys := sys.setGlueType (some (glueTypeOf k sys.world binding.host.path))
    (canonicalize k fuel sys path dereference slash 0).map fun outcome =>
      match outcome.result with
      | .error _ => outcome.sys
      | .ok guestPath =>
          let sys := outcome.sys.setGlueType none
          let binding := { binding with guest := .ofCStr (chopFinality guestPath) }
          sys.setBindings (insortBinding2 sys.bindings binding)
  else some (sys.setBindings (insortBinding2 sys.bindings binding))

/-- The loop of `initialize_bindings`. -/
def initializeAll (k : Kernel W) (fuel : Nat) : Sys W → List Binding → Option (Sys W)
  | sys, [] => some sys
  | sys, binding :: rest =>
      (initializeBinding k fuel sys binding).bind (initializeAll k fuel · rest)

/-- `initialize_bindings`, where `get_root` finds a root as it asserts: from the
last pending binding to the first. -/
def initializeBindings (k : Kernel W) (fuel : Nat) (sys : Sys W) : Option (Sys W) :=
  if getPendingRoot sys.bindings = none then none
  else
    (initializeAll k fuel sys sys.bindings.pending.reverse).map fun sys =>
      sys.setBindings { sys.bindings with pending := [] }

/-- Start-up, as far as bindings are concerned. -/
def startUp (k : Kernel W) (fuel : Nat) (sys : Sys W) (options : List BindOption) :
    Option (Sys W) :=
  (options.foldlM (handleOption k) sys).bind fun sys =>
    (preInitializeBindings k sys).bind (initializeBindings k fuel)

/-! ## `enter.c` -/

/-- The canonicalization of `guest_canonicalize`. -/
def resolveGuest (k : Kernel W) (fuel : Nat) (sys : Sys W) (userPath : CStr) :
    Option (Outcome W) :=
  if userPath.head? = some '/' then canonicalize k fuel sys userPath true slash 0
  else
    match getcwd2 sys with
    | .error e => some ⟨sys, [], .error e⟩
    | .ok cwd => canonicalize k fuel sys userPath true cwd 0

/-- `guest_canonicalize`. -/
def guestCanonicalize (k : Kernel W) (fuel : Nat) (sys : Sys W) (userPath : CStr) :
    Option (Outcome W) :=
  (resolveGuest k fuel sys userPath).map fun outcome =>
    { outcome with result := outcome.result.map chopFinality }

/-- `MS_REMOUNT`. -/
def msRemount : Nat := 32

/-- `MS_BIND`. -/
def msBind : Nat := 4096

/-- The host side `emulate_mount` chooses, if it does anything, before its
finality is chopped. -/
def mountSource (k : Kernel W) (fuel : Nat) (sys : Sys W) (srcUser fstype : CStr) (flags : Nat) :
    Option (Sys W × Option CStr) :=
  if flags &&& msRemount ≠ 0 then some (sys, none)
  else if flags &&& msBind ≠ 0 then
    (translatePath k fuel sys atFdCwd srcUser true).map fun outcome =>
      (outcome.sys, outcome.result.toOption)
  else if fstype = "proc".toList then some (sys, some "/proc".toList)
  else if fstype = "sysfs".toList then some (sys, some "/sys".toList)
  else if fstype = "devtmpfs".toList then some (sys, some "/dev".toList)
  else if fstype = "devpts".toList then some (sys, some "/dev/pts".toList)
  else if fstype = "tmpfs".toList then
    let (world, tmpdir) := k.createTempDirectory sys.world "proot-tmpfs-".toList
    some ({ sys with world }, tmpdir)
  else some (sys, none)

/-- `emulate_mount`. -/
def emulateMount (k : Kernel W) (fuel : Nat) (sys : Sys W) (srcUser targetUser fstype : CStr)
    (flags : Nat) : Option (Sys W) :=
  (mountSource k fuel sys srcUser fstype flags).bind fun
    | (sys, none) => some sys
    | (sys, some hostPath) =>
        (guestCanonicalize k fuel sys targetUser).map fun outcome =>
          match outcome.result with
          | .error _ => outcome.sys
          | .ok guestPath => outcome.sys.insortBinding3 (chopFinality hostPath) guestPath

/-- `emulate_umount`. -/
def emulateUmount (k : Kernel W) (fuel : Nat) (sys : Sys W) (targetUser : CStr) :
    Option (Sys W) :=
  (guestCanonicalize k fuel sys targetUser).map fun outcome =>
    match outcome.result with
    | .error _ => outcome.sys
    | .ok guestPath =>
        if guestPath = slash then outcome.sys
        else
          match getBinding outcome.sys.bindings .guest guestPath with
          | none => outcome.sys
          | some binding =>
              if binding.guest.path ≠ guestPath then outcome.sys
              else outcome.sys.removeBinding binding

/-- Where `emulate_pivot_root` shows the previous root again: `put_old` as a
path under the new root. -/
def putOldAfter (newRootGuest putOldGuest : CStr) : Option CStr :=
  let newRootLen := newRootGuest.length
  if newRootLen > 0 ∧ putOldGuest.take newRootLen = newRootGuest ∧
      (putOldGuest[newRootLen]? = some '/' ∨ newRootGuest = slash) then
    let after := putOldGuest.drop (if newRootLen = 1 then 0 else newRootLen)
    if after[0]? = some '/' ∧ after[1]? ≠ none then some after else none
  else none

/-- One turn of the loop of `emulate_pivot_root`, for a binding `b` of the
snapshot. -/
def pivotBinding (newRootGuest : CStr) (putOld : Option CStr) (root : Binding) (sys : Sys W)
    (b : Binding) : Sys W :=
  if b.addr = root.addr ∨ b.guest.path = slash then sys
  else
    let newRootLen := newRootGuest.length
    if newRootLen > 0 ∧ b.guest.path.length > newRootLen ∧
        b.guest.path.take newRootLen = newRootGuest ∧ b.guest.path[newRootLen]? = some '/' then
      -- what lives under the new root moves with it
      (sys.insortBinding3 b.host.path (b.guest.path.drop newRootLen)).removeBinding b
    else
      match putOld with
      | none => sys
      | some after =>
          if b.guest.path.take after.length = after ∧
              (b.guest.path[after.length]? = none ∨ b.guest.path[after.length]? = some '/') then
            sys
          else if (after ++ b.guest.path).length ≥ pathMax then sys
          else sys.insortBinding3 b.host.path (after ++ b.guest.path)

/-- The end of `emulate_pivot_root`, once its paths are known.  The loop reads
the bindings as they were in the snapshot. -/
def switchRoot (sys : Sys W) (newRootHost newRootGuest putOldGuest : CStr) : Sys W :=
  match getBinding sys.bindings .guest slash with
  | none => sys
  | some root =>
      let putOld := putOldAfter newRootGuest putOldGuest
      let switched := (sys.removeBinding root).insortBinding3 newRootHost slash
      let exposed := match putOld with
        | none => switched
        | some after => switched.insortBinding3 root.host.path after
      sys.bindings.guest.foldl (pivotBinding newRootGuest putOld root) exposed

/-- Where `emulate_pivot_root` resolves `put_old` from. -/
def putOldBase (newRootGuest putOldUser : CStr) : CStr :=
  if putOldUser.head? = some '/' then slash else newRootGuest

/-- `emulate_pivot_root`. -/
def emulatePivotRoot (k : Kernel W) (fuel : Nat) (sys : Sys W) (newRootUser putOldUser : CStr) :
    Option (Sys W) :=
  (translatePath k fuel sys atFdCwd newRootUser true).bind fun outcome =>
    match outcome.result with
    | .error _ => some outcome.sys
    | .ok newRootHost =>
        (guestCanonicalize k fuel outcome.sys newRootUser).bind fun outcome =>
          match outcome.result with
          | .error _ => some outcome.sys
          | .ok newRootGuest =>
              let base := putOldBase newRootGuest putOldUser
              (canonicalize k fuel outcome.sys putOldUser true base 0).map fun outcome =>
                match outcome.result with
                | .error _ => outcome.sys
                | .ok putOldGuest =>
                    switchRoot outcome.sys (chopFinality newRootHost) newRootGuest putOldGuest

/-! ## Runs -/

/-- What can happen to the lists once they are in effect: the emulated calls,
the translation of a path, which may need glue, and what other programs do to
the host or the tracee to its working directory in between. -/
inductive Op (W : Type)
  | mount (srcUser targetUser fstype : CStr) (flags : Nat)
  | umount (targetUser : CStr)
  | pivotRoot (newRootUser putOldUser : CStr)
  | translate (dirFd : Int) (userPath : CStr) (derefFinal : Bool)
  | chdir (cwd : CStr)
  | host (world : W)

/-- Set `tracee->fs->cwd`. -/
def Sys.setCwd (sys : Sys W) (cwd : CStr) : Sys W :=
  { sys with
    spaces := fun addr =>
      if addr = sys.tracee.fs then { sys.spaces addr with cwd } else sys.spaces addr }

/-- One operation. -/
def Op.run (k : Kernel W) (fuel : Nat) (sys : Sys W) : Op W → Option (Sys W)
  | .mount srcUser targetUser fstype flags =>
      emulateMount k fuel sys srcUser targetUser fstype flags
  | .umount targetUser => emulateUmount k fuel sys targetUser
  | .pivotRoot newRootUser putOldUser => emulatePivotRoot k fuel sys newRootUser putOldUser
  | .translate dirFd userPath derefFinal =>
      (translatePath k fuel sys dirFd userPath derefFinal).map (·.sys)
  | .chdir cwd => some (sys.setCwd cwd)
  | .host world => some { sys with world }

end PRoot
