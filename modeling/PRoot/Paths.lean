import Mathlib.Data.List.Basic
import PRoot.SepPath

/-!
# Paths as C strings

The string functions of `path/path.c` and the two helpers of `path/canon.c`
that cut a path into components.  A C string is the list of its characters
before the terminator, so reading it at its length yields no character.  The
fixed buffers of the source appear only through the length checks the source
makes on them.
-/

namespace PRoot

/-- A C string, without its terminator. -/
abbrev CStr := List Char

/-- `PATH_MAX` of `<linux/limits.h>`. -/
def pathMax : Nat := 4096

/-- `NAME_MAX` of `<linux/limits.h>`. -/
def nameMax : Nat := 255

/-- The error numbers PRoot itself produces or passes on. -/
inductive Errno
  | EPERM | ENOENT | EACCES | EEXIST | ENOTDIR | EINVAL | ENAMETOOLONG | ELOOP
  | EBADF | ECHILD | ENOMEM | ENOSYS | ERANGE | E2BIG | EAGAIN | EFAULT | EFBIG | EIDRM | EINTR
  | ENOEXEC | ENOMSG | ENOSPC | EISDIR | ENOTEMPTY | ENOTSUP | EMFILE | ENFILE | ELIBBAD
  | ETXTBSY | EPROTONOSUPPORT | ESRCH
  deriving DecidableEq, Repr

/-- How a path ends (`Finality`). -/
inductive Finality
  | notFinal | finalNormal | finalSlash | finalDot
  deriving DecidableEq, Repr

/-- `IS_FINAL`. -/
def Finality.isFinal (finality : Finality) : Bool := finality ≠ .notFinal

/-- The outcome of comparing two paths (`Comparison`). -/
inductive Comparison
  | pathsAreEqual | path1IsPrefix | path2IsPrefix | pathsAreNotComparable
  deriving DecidableEq, Repr

/-- The root path. -/
def slash : CStr := ['/']

/-! ## `path.c` -/

/-- One round of the loop of `join_paths`. -/
def joinPath (result path : CStr) : Except Errno CStr :=
  if result ≠ [] ∧ result.getLast? ≠ some '/' ∧ path.head? ≠ some '/' then
    let newLength := result.length + path.length + 1
    if newLength + 1 ≥ pathMax then .error .ENAMETOOLONG else .ok (result ++ '/' :: path)
  else if result ≠ [] ∧ result.getLast? = some '/' ∧ path.head? = some '/' then
    let newLength := result.length + path.length - 1
    if newLength + 1 ≥ pathMax then .error .ENAMETOOLONG else .ok (result ++ path.drop 1)
  else
    let newLength := result.length + path.length
    if newLength + 1 ≥ pathMax then .error .ENAMETOOLONG else .ok (result ++ path)

/-- `join_paths`. -/
def joinPaths (paths : List CStr) : Except Errno CStr := paths.foldlM joinPath []

/-- `chop_finality`: meant to remove a trailing "/" or "/.", but it takes any
final '.' for the second. -/
def chopFinality (path : CStr) : CStr :=
  if path.getLast? = some '.' then
    if path.length = 2 then path.take 1 else path.take (path.length - 2)
  else if path.getLast? = some '/' then
    if 1 < path.length then path.take (path.length - 1) else path
  else path

/-- `compare_paths2`.  The sentinel is the character of the longer path right
after the shorter one; `none` is the terminator. -/
def comparePaths2 (path1 : CStr) (length1 : Nat) (path2 : CStr) (length2 : Nat) : Comparison :=
  if length1 = 0 ∨ length2 = 0 then .pathsAreNotComparable
  else
    let length1 := if path1[length1 - 1]? = some '/' then length1 - 1 else length1
    let length2 := if path2[length2 - 1]? = some '/' then length2 - 1 else length2
    let lengthMin := if length1 < length2 then length1 else length2
    let sentinel := if length1 < length2 then path2[lengthMin]? else path1[lengthMin]?
    if sentinel ≠ some '/' ∧ sentinel ≠ none then .pathsAreNotComparable
    else if path1.take lengthMin ≠ path2.take lengthMin then .pathsAreNotComparable
    else if length1 = length2 then .pathsAreEqual
    else if length1 < length2 then .path1IsPrefix
    else .path2IsPrefix

/-- `compare_paths`. -/
def comparePaths (path1 path2 : CStr) : Comparison :=
  comparePaths2 path1 path1.length path2 path2.length

/-- The comparisons that make the first path a container of the second. -/
def Comparison.contains (comparison : Comparison) : Bool :=
  comparison = .pathsAreEqual ∨ comparison = .path1IsPrefix

/-- `substitute_path_prefix`: the path afterwards and what is returned.  On
`ENAMETOOLONG` the path is left as it was. -/
def substitutePathPrefix (path : CStr) (oldPrefixLength : Nat) (newPrefix : CStr)
    (newPrefixLength : Nat) : CStr × Except Errno Nat :=
  if newPrefixLength = 1 then
    -- "/foo" -> "/": substitute "/foo/bin" with "/bin", not "//bin"
    let newLength := path.length - oldPrefixLength
    if newLength ≠ 0 then (path.drop oldPrefixLength, .ok newLength) else (slash, .ok 1)
  else if oldPrefixLength = 1 then
    -- "/" -> "/foo": substitute "/bin" with "/foo/bin", not "/foobin"
    let newLength := newPrefixLength + path.length
    if newLength ≥ pathMax then (path, .error .ENAMETOOLONG)
    else if path.length > 1 then (newPrefix ++ path, .ok newLength)
    else (newPrefix, .ok newPrefixLength)
  else
    let newLength := path.length - oldPrefixLength + newPrefixLength
    if newLength ≥ pathMax then (path, .error .ENAMETOOLONG)
    else (newPrefix ++ path.drop oldPrefixLength, .ok newLength)

/-! ## `canon.c` -/

/-- `while (offset > 1 && test(path[offset])) offset--`. -/
def skipBackward (test : Char → Bool) (path : CStr) : Nat → Nat
  | 0 => 0
  | offset + 1 =>
      if 1 < offset + 1 ∧ (path[offset + 1]?).any test then skipBackward test path offset
      else offset + 1

/-- `pop_component`. -/
def popComponent (path : CStr) : CStr :=
  let offset := path.length - 1
  if offset = 0 then path
  else
    let offset := skipBackward (· = '/') path offset
    let offset := skipBackward (· ≠ '/') path offset
    path.take offset

/-- `next_component`: the first component at the cursor, how it ends the path
and where the cursor stands afterwards. -/
def nextComponent (cursor : CStr) : Except Errno (CStr × Finality × CStr) :=
  let start := cursor.dropWhile (· = '/')
  let component := start.takeWhile (· ≠ '/')
  let after := start.dropWhile (· ≠ '/')
  if component.length ≥ nameMax then .error .ENAMETOOLONG
  else
    let wantDir := after.head? = some '/'
    let cursor := after.dropWhile (· = '/')
    if cursor = [] then .ok (component, if wantDir then .finalSlash else .finalNormal, cursor)
    else .ok (component, .notFinal, cursor)

end PRoot
