import PRoot.HostFiles
import PRoot.Proc

/-!
# Hard links as symbolic links

`extension/link2symlink/link2symlink.c`: a file with several names is moved to a "final"
file, whose name ends in the number of its names; an "intermediate" symbolic link leads
there, and the names of the file are symbolic links to the intermediate one.

* `moveAndSymlinkPath`: a name more;
* `decrementLinkCount`: a name less;
* `LinkCall.run`: the calls of a tracee, with what the kernel does afterwards.
-/

namespace PRoot

variable {α : Type}

/-- `PREFIX`. -/
def l2sStart : CStr := ".l2s.".toList

/-- The name at the end of a path starts with `PREFIX`. -/
def isL2s (path : CStr) : Bool := l2sStart.isPrefixOf (baseName path)

/-- `"%04d"`. -/
def format04 (n : Int) : CStr :=
  if n < 0 then '-' :: (Nat.toDigits 10 n.natAbs).leftpad 3 '0'
  else (Nat.toDigits 10 n.natAbs).leftpad 4 '0'

/-- The count in the name of a final file. -/
def linkCount (final : CStr) : Int := atoi (final.drop (final.length - 4))

/-- The name of a final file, with another count. -/
def withCount (final : CStr) (count : Int) : CStr :=
  final.take (final.length - 4) ++ format04 count

/-- What PRoot does to the files of the host, and where it gives up. -/
abbrev HostM (α β : Type) : Type := EStateM Errno (Files α) β

/-- A call whose failure is passed on as the -1 it returns. -/
def call (op : Files α → Except Errno (Files α)) : HostM α Unit := fun fs =>
  match op fs with
  | .ok fs' => .ok () fs'
  | .error _ => .error .EPERM fs

/-- A value that may be missing. -/
def orFail {β : Type} (value : Except Errno β) : HostM α β := fun fs =>
  match value with
  | .ok b => .ok b fs
  | .error status => .error status fs

/-- The files after something was done to them, successfully or not. -/
def after {β : Type} (todo : HostM α β) (fs : Files α) : Files α :=
  match todo fs with
  | .ok _ fs' => fs'
  | .error _ fs' => fs'

/-- `my_readlink`. -/
def myReadlink (fs : Files α) (path : CStr) : Except Errno CStr :=
  match fs.readlink path with
  | .error _ => .error .EPERM
  | .ok value => if value.length ≥ pathMax then .error .ENAMETOOLONG else .ok value

/-- `rename`, and the intermediate link put anew. -/
def moveFinal (intermediate final newFinal : CStr) : HostM α Unit := do
  call fun fs => fs.rename final newFinal .none
  call fun fs => fs.unlink intermediate
  call fun fs => fs.symlink newFinal intermediate

/-- The path of the intermediate link of a file, without the number at its end;
`l2sDirectory` is `PROOT_L2S_DIR`. -/
def intermediatePath (l2sDirectory : Option CStr) (original : CStr) : Except Errno CStr :=
  let name := baseName original
  let directory := original.take (original.length - name.length)
  match l2sDirectory with
  | some l2sDirectory =>
      if l2sDirectory = [] then besides name directory
      else if l2sStart.length + l2sDirectory.length + directory.length + 6 ≥ pathMax then
        .error .ENAMETOOLONG
      else
        let slashed := if l2sDirectory.getLast? = some '/' then l2sDirectory else l2sDirectory ++ slash
        .ok (slashed ++ l2sStart ++ name)
  | none => besides name directory
where
  besides (name directory : CStr) : Except Errno CStr :=
    if l2sStart.length + (directory ++ name).length + 5 ≥ pathMax then .error .ENAMETOOLONG
    else .ok (directory ++ l2sStart ++ name)

/-- The first number from `suffix` on that no intermediate link has, or the last one that
is tried. -/
def intermediateSuffix (fs : Files α) (path : CStr) : Nat → Nat → Nat
  | 0, suffix => suffix
  | n + 1, suffix =>
      if fs.access (path ++ format04 suffix) then intermediateSuffix fs path n (suffix + 1)
      else suffix

/-- The intermediate link for a file; 999 numbers are tried. -/
def newIntermediate (fs : Files α) (path : CStr) : CStr :=
  path ++ format04 (intermediateSuffix fs path 998 1)

/-- The first link: "Move the original content to the new path." -/
def firstLink (original path : CStr) : HostM α CStr := do
  let intermediate := newIntermediate (← get) path
  let final := intermediate ++ ".0002".toList
  call fun fs => fs.rename original final .none
  call fun fs => fs.symlink final intermediate
  call fun fs => fs.symlink intermediate original
  return intermediate

/-- A further link: "Move the original content to new location, by incrementing count at
end of path." -/
def furtherLink (intermediate : CStr) : HostM α CStr := do
  let final ← orFail (myReadlink (← get) intermediate)
  moveFinal intermediate final (withCount final (linkCount final + 1))
  return intermediate

/-- `decrement_link_count`. -/
def decrementLinkCount (original : CStr) : HostM α Unit := do
  match (← get).get original with
  | some (.link _) =>
      let intermediate ← orFail (myReadlink (← get) original)
      if isL2s intermediate then
        match myReadlink (← get) intermediate with
        | .error _ => return
        | .ok final =>
            let count := linkCount final - 1
            if count > 0 then moveFinal intermediate final (withCount final count)
            else
              call fun fs => fs.unlink intermediate
              call fun fs => fs.unlink final
  | _ => return

/-- The last step of `move_and_symlink_path`: the new name, or the end of the new count. -/
def symlinkNewName (original intermediate newName : CStr) (granted : Bool) : HostM α Unit := fun fs =>
  match if granted then fs.symlink intermediate newName else .error .EACCES with
  | .ok fs' => .ok () fs'
  | .error status => .error status (after (decrementLinkCount original) fs)

/-- `move_and_symlink_path`.  Where `granted` is false the host refuses the new name. -/
def moveAndSymlinkPath (l2sDirectory : Option CStr) (original newName : CStr) (granted : Bool) :
    HostM α Unit := do
  match (← get).get original with
  | none => throw .ENOENT
  | some .dir => throw .EPERM
  | some (.link _) =>
      let value ← orFail (myReadlink (← get) original)
      let intermediate ← if isL2s value then furtherLink value else firstLink original value
      symlinkNewName original intermediate newName granted
  | some (.file _) =>
      let path ← orFail (intermediatePath l2sDirectory original)
      let intermediate ← firstLink original path
      symlinkNewName original intermediate newName granted

/-- `translated_path`: a name of an emulated hard link stands for the final file. -/
def translatedPath (fs : Files α) (path : CStr) : CStr :=
  match myReadlink fs path with
  | .error _ => path
  | .ok intermediate =>
      if '/' ∈ intermediate ∧ isL2s intermediate then
        match myReadlink fs intermediate with
        | .error _ => path
        | .ok final => final
      else path

/-- What is read when a path is opened. -/
def readPath (fs : Files α) (path : CStr) : Option α :=
  match fs.follow 41 (translatedPath fs path) with
  | some (.file data) => some data
  | _ => none

/-- The calls of a tracee that concern names.  Where `granted` is false the kernel refuses
a call whatever the files are. -/
inductive LinkCall (α : Type)
  | link (oldpath newpath : CStr) (granted : Bool)
  | unlink (path : CStr) (granted : Bool)
  | rename (oldpath newpath : CStr) (flags : RenameFlags α) (granted : Bool)
  deriving DecidableEq, Repr

/-- The call of the tracee itself. -/
def kernelCall (granted : Bool) (op : Files α → Except Errno (Files α)) : HostM α Unit := fun fs =>
  match if granted then op fs else .error .EACCES with
  | .ok fs' => .ok () fs'
  | .error status => .error status fs

/-- `link2symlink_callback` at `SYSCALL_ENTER_END`, and then the call itself, if it is
left. -/
def LinkCall.run (l2sDirectory : Option CStr) : LinkCall α → HostM α Unit
  | .link oldpath newpath granted => moveAndSymlinkPath l2sDirectory oldpath newpath granted
  | .unlink path granted => do
      decrementLinkCount path
      kernelCall granted fun fs => fs.unlink path
  | .rename oldpath newpath flags granted => do
      decrementLinkCount newpath
      kernelCall granted fun fs => fs.rename oldpath newpath flags

/-- The files after a run. -/
def runCalls (l2sDirectory : Option CStr) (fs : Files α) (calls : List (LinkCall α)) : Files α :=
  calls.foldl (fun fs linkCall => after (linkCall.run l2sDirectory) fs) fs

end PRoot
