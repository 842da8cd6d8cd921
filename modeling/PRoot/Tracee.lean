import Mathlib.Data.List.DropRight
import PRoot.Binding

/-!
# Tracees and the host

What PRoot keeps for the processes it watches, and the operations of the host
it calls.  The host is a parameter: `Kernel W` gathers the system calls and
settings the translated code depends on, over an unspecified type `W` of host
states.  Name spaces and binding lists are shared by reference between tracees,
so a tracee holds the address of its name space, and a name space the address
of its lists.
-/

namespace PRoot

/-- The file types of `S_IFMT`. -/
inductive FileType
  | reg | dir | lnk | chr | blk | fifo | sock
  deriving DecidableEq, Repr

/-- The host.  Calls that may change it return its next state. -/
structure Kernel (W : Type) where
  /-- `MAXSYMLINKS` of the platform's `<sys/param.h>`. -/
  maxSymlinks : Nat
  /-- What the probe of `f2fs-bug.c` found. -/
  f2fsBugDetected : Bool
  /-- `PROOT_DONT_POLLUTE_ROOTFS` is set. -/
  dontPolluteRootfs : Bool
  lstat : W → CStr → Except Errno FileType
  readlink : W → CStr → Except Errno CStr
  /-- The names an opened directory lists. -/
  opendir : W → CStr → Option (List CStr)
  realpath : W → CStr → Except Errno CStr
  getcwd : W → Except Errno CStr
  mkdir : W → CStr → Nat → W × Except Errno Unit
  mknod : W → CStr → Nat → FileType → W × Except Errno Unit
  /-- `create_temp_directory`, given the prefix of the name. -/
  createTempDirectory : W → CStr → W × Option CStr

/-- `FileSystemNameSpace`: the address of its lists and its working directory. -/
structure FileSystemNameSpace where
  bindings : Nat
  cwd : CStr
  deriving DecidableEq, Repr

/-- `Tracee`, as far as paths depend on it.  `fs` is the address of its name
space; no `glueType` is the source's 0. -/
structure Tracee where
  pid : Int
  fs : Nat
  exe : CStr
  glue : Option CStr
  glueType : Option FileType
  deriving DecidableEq, Repr

/-- The state path translation works on: the host, the tracee at hand and the
other ones, the name spaces and lists at their addresses, and the next free
address. -/
structure Sys (W : Type) where
  world : W
  tracee : Tracee
  others : List Tracee
  spaces : Nat → FileSystemNameSpace
  lists : Nat → Bindings
  nextAddr : Nat

namespace Sys

variable {W : Type}

/-- `tracee->fs` of any tracee. -/
def fsOf (sys : Sys W) (tracee : Tracee) : FileSystemNameSpace := sys.spaces tracee.fs

/-- `tracee->fs->bindings` of any tracee. -/
def bindingsOf (sys : Sys W) (tracee : Tracee) : Bindings := sys.lists (sys.fsOf tracee).bindings

/-- The bindings of the tracee at hand. -/
def bindings (sys : Sys W) : Bindings := sys.bindingsOf sys.tracee

/-- The working directory of the tracee at hand. -/
def cwd (sys : Sys W) : CStr := (sys.fsOf sys.tracee).cwd

/-- Change the lists of the tracee at hand. -/
def setBindings (sys : Sys W) (bindings : Bindings) : Sys W :=
  { sys with
    lists := fun addr =>
      if addr = (sys.fsOf sys.tracee).bindings then bindings else sys.lists addr }

/-- `insort_binding3` into the lists of the tracee at hand. -/
def insortBinding3 (sys : Sys W) (hostPath guestPath : CStr) : Sys W :=
  { sys.setBindings (PRoot.insortBinding3 sys.bindings sys.nextAddr hostPath guestPath) with
    nextAddr := sys.nextAddr + 1 }

/-- `get_tracee`, with no creation. -/
def getTracee (sys : Sys W) (pid : Int) : Option Tracee :=
  if sys.tracee.pid = pid then some sys.tracee else sys.others.find? (·.pid = pid)

@[simp] theorem setBindings_bindings (sys : Sys W) (bindings : Bindings) :
    (sys.setBindings bindings).bindings = bindings := by
  simp [Sys.bindings, bindingsOf, setBindings, fsOf]

@[simp] theorem setBindings_setBindings (sys : Sys W) (bindings bindings' : Bindings) :
    (sys.setBindings bindings).setBindings bindings' = sys.setBindings bindings' := by
  have hlists : ((sys.setBindings bindings).setBindings bindings').lists =
      (sys.setBindings bindings').lists := by
    funext addr
    show (if addr = (sys.fsOf sys.tracee).bindings then bindings'
      else if addr = (sys.fsOf sys.tracee).bindings then bindings else sys.lists addr) = _
    by_cases h : addr = (sys.fsOf sys.tracee).bindings
    · rw [if_pos h]
      exact (if_pos h).symm
    · rw [if_neg h, if_neg h]
      exact (if_neg h).symm
  exact congrArg (fun lists => { sys with lists }) hlists

@[simp] theorem insortBinding3_bindings (sys : Sys W) (hostPath guestPath : CStr) :
    (sys.insortBinding3 hostPath guestPath).bindings =
      PRoot.insortBinding3 sys.bindings sys.nextAddr hostPath guestPath :=
  setBindings_bindings sys _

end Sys

/-! ## A host that does not change -/

/-- A host with the given files and link texts, where nothing can be created. -/
def Kernel.frozen (files : List (CStr × FileType)) (links : List (CStr × CStr)) : Kernel Unit where
  maxSymlinks := 20
  f2fsBugDetected := false
  dontPolluteRootfs := false
  lstat _ path := match files.lookup path with
    | some type => .ok type
    | none => .error .ENOENT
  readlink _ path := match links.lookup path with
    | some text => .ok text
    | none => .error .EINVAL
  opendir _ _ := none
  realpath _ path := match files.lookup path with
    | some _ => .ok path
    | none => .error .ENOENT
  getcwd _ := .ok slash
  mkdir world _ _ := (world, .error .EACCES)
  mknod world _ _ _ := (world, .error .EACCES)
  createTempDirectory world _ := (world, none)

/-- One tracee with the given lists, in the directory "/". -/
def Sys.lone (bindings : Bindings) (nextAddr : Nat) : Sys Unit where
  world := ()
  tracee := ⟨1, 0, "/bin/sh".toList, none, none⟩
  others := []
  spaces _ := ⟨0, slash⟩
  lists _ := bindings
  nextAddr := nextAddr

/-! ## `f2fs-bug.c` -/

/-- The path without its trailing separators, for `dirname` and `basename`. -/
def dropTrailing (path : CStr) : CStr := path.rdropWhile (· = '/')

/-- `dirname`. -/
def dirname (path : CStr) : CStr :=
  if path.all (· = '/') then (if path = [] then ['.'] else slash)
  else
    let parent := (dropTrailing path).rdropWhile (· ≠ '/')
    if parent = [] then ['.']
    else if dropTrailing parent = [] then slash
    else dropTrailing parent

/-- `basename`. -/
def basename (path : CStr) : CStr :=
  if path.all (· = '/') then (if path = [] then ['.'] else slash)
  else (dropTrailing path).rtakeWhile (· ≠ '/')

/-- `should_skip_file_access_due_to_f2fs_bug`. -/
def shouldSkipFileAccess {W : Type} (k : Kernel W) (world : W) (path : CStr) : Bool :=
  k.f2fsBugDetected &&
    match k.opendir world (dirname path) with
    | none => false
    | some entries => !entries.contains (basename path)

end PRoot
