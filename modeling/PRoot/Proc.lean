import Mathlib.Algebra.Group.Int.Defs
import Mathlib.Algebra.Group.Nat.Defs
import PRoot.Tracee

/-!
# Emulated links of /proc, and detranslation

`path/proc.c`, and `detranslate_path` of `path/path.c`, which uses it.
-/

namespace PRoot

variable {W : Type}

/-! ## Numbers as text -/

/-- `"%d"`. -/
def formatInt (n : Int) : CStr := (Int.repr n).toList

/-- `isspace`, in the "C" locale. -/
def isSpace (c : Char) : Bool :=
  c = ' ' || c = '\t' || c = '\n' || c = '\x0b' || c = '\x0c' || c = '\r'

/-- The value of decimal digits. -/
def digitsValue (digits : CStr) : Nat :=
  digits.foldl (fun n c => 10 * n + (c.toNat - '0'.toNat)) 0

/-- What `strtol` in base 10 yields: the value, whether it had to saturate
(`ERANGE`), and whether there was a digit at all. -/
structure Strtol where
  value : Int
  erange : Bool
  converted : Bool
  deriving DecidableEq, Repr

/-- `strtol`, in base 10, for a 64-bit `long`. -/
def strtol (text : CStr) : Strtol :=
  let text := text.dropWhile isSpace
  let negative := text.head? = some '-'
  let text := if text.head? = some '-' ∨ text.head? = some '+' then text.drop 1 else text
  let digits := text.takeWhile Char.isDigit
  let value : Int := if negative then - (digitsValue digits : Int) else digitsValue digits
  if digits = [] then ⟨0, false, false⟩
  else if value > 2 ^ 63 - 1 then ⟨2 ^ 63 - 1, true, true⟩
  else if value < - 2 ^ 63 then ⟨- 2 ^ 63, true, true⟩
  else ⟨value, false, true⟩

/-- `atoi`: the low 32 bits of what `strtol` yields. -/
def atoi (text : CStr) : Int := (strtol text).value.bmod (2 ^ 32)

/-! ## `proc.c` -/

/-- The path "/proc". -/
def procPath : CStr := "/proc".toList

/-- The path "/proc/<PID>". -/
def procPidPath (pid : Int) : CStr := "/proc/".toList ++ formatInt pid

/-- The path "/proc/<PID>/fd". -/
def procPidFdPath (pid : Int) : CStr := procPidPath pid ++ "/fd".toList

/-- `Action`, with the emulated link text where there is one. -/
inductive Action
  | default
  | canonicalize (result : CStr)
  | dontCanonicalize (result : CStr)
  deriving DecidableEq, Repr

/-- `SUBSTITUTE`: the link "/proc/<PID>/`name`" reads as `text`. -/
def substitute (component name text : CStr) (otherwise : Except Errno Action) :
    Except Errno Action :=
  if component = name then
    if text.length ≥ pathMax then .error .EPERM else .ok (.canonicalize text)
  else otherwise

/-- The links of "/proc/<PID>", for the process `pid`. -/
def readlinkProcPid (sys : Sys W) (pid : Int) (component : CStr) : Except Errno Action :=
  match sys.getTracee pid with
  | none => .ok .default
  | some knownTracee =>
      substitute component "exe".toList knownTracee.exe <|
      substitute component "cwd".toList (sys.fsOf knownTracee).cwd <|
      substitute component "root".toList (getRoot (sys.bindingsOf knownTracee)) <|
      .ok .default

/-- The links of "/proc/<PID>/fd", where `base` is that directory. -/
def readlinkProcPidFd (base component : CStr) : Except Errno Action :=
  let number := strtol component
  if number.erange ∨ ¬ number.converted then .error .EPERM
  else
    let result := base ++ '/' :: component
    if result.length ≥ pathMax then .error .EPERM else .ok (.dontCanonicalize result)

/-- `readlink_proc`.  The names of processes fit the 64 bytes the source gives
them.  Where `readlink_proc2` passes the base "/proc", the source reads the
number from what it has cut off, and answers `DEFAULT` for every number. -/
def readlinkProc (sys : Sys W) (base component : CStr) (comparison : Comparison) :
    Except Errno Action :=
  match comparison with
  | .pathsAreEqual =>
      if component ≠ "self".toList then .ok .default
      else .ok (.canonicalize (procPidPath sys.tracee.pid))
  | .path1IsPrefix =>
      let pid := atoi (base.drop "/proc/".toList.length)
      if pid = 0 then .ok .default
      else
        match comparePaths (procPidPath pid) base with
        | .pathsAreEqual => readlinkProcPid sys pid component
        | .path1IsPrefix =>
            match comparePaths (procPidFdPath pid) base with
            | .pathsAreEqual => readlinkProcPidFd base component
            | _ => .ok .default
        | _ => .ok .default
  | _ => .ok .default

/-- The last '/' of a path splits it (`strrchr`). -/
def splitLast (path : CStr) : CStr × CStr :=
  ((path.rdropWhile (· ≠ '/')).dropLast, path.rtakeWhile (· ≠ '/'))

/-- `readlink_proc2`: the emulated text, if the link is emulated.  Errors of
`readlink_proc` count as "not emulated". -/
def readlinkProc2 (sys : Sys W) (referer : CStr) : Except Errno (Option CStr) :=
  if referer.length ≥ pathMax then .error .ENAMETOOLONG
  else
    let (base, component) := splitLast referer
    if component = [] then .ok none
    else
      match readlinkProc sys base component .path1IsPrefix with
      | .ok (.canonicalize result) => .ok (if result = [] then none else some result)
      | _ => .ok none

/-! ## `detranslate_path` -/

/-- The part of `detranslate_path` after the bindings: remove the root. -/
def detranslateRoot (bindings : Bindings) (path : CStr) (sanityCheck : Bool) :
    Except Errno (CStr × Nat) :=
  match comparePaths (getRoot bindings) path with
  | .path1IsPrefix =>
      let prefixLength := if (getRoot bindings).length = 1 then 0 else (getRoot bindings).length
      let newLength := path.length - prefixLength
      .ok ((path.drop prefixLength).take newLength, newLength + 1)
  | .pathsAreEqual => .ok (slash, 2)
  | _ => if sanityCheck then .error .EPERM else .ok (path, 0)

/-- The part of `detranslate_path` that resolves bindings. -/
def detranslateBinding (bindings : Bindings) (path : CStr) (sanityCheck followBinding : Bool) :
    Except Errno (CStr × Nat) :=
  if followBinding then
    match substituteBinding bindings .host path with
    | (path', .ok false) => .ok (path', 0)
    | (path', .ok true) => .ok (path', path'.length + 1)
    | (_, .error _) => detranslateRoot bindings path sanityCheck
  else detranslateRoot bindings path sanityCheck

/-- Whether a link outside the root and the text it holds belong to one
binding.  The source asserts that the link belongs to a binding. -/
def sameHostBinding (bindings : Bindings) (path referrer : CStr) : Bool :=
  match getPathBinding bindings .host path, getPathBinding bindings .host referrer with
  | some bindingReferree, some bindingReferrer =>
      comparePaths bindingReferree bindingReferrer = .pathsAreEqual
  | _, _ => false

/-- `detranslate_path`: the path afterwards and what is returned, the size of
the path with its terminator, or 0 when nothing had to be done. -/
def detranslatePath (sys : Sys W) (path : CStr) (referrer : Option CStr) :
    Except Errno (CStr × Nat) :=
  if path.length ≥ pathMax then .error .ENAMETOOLONG
  else if path.head? ≠ some '/' then .ok (path, 0)
  else
    match referrer with
    | none => detranslateBinding sys.bindings path true true
    | some referrer =>
        if comparePaths procPath referrer = .path1IsPrefix then
          match readlinkProc2 sys referrer with
          | .error e => .error e
          | .ok (some result) => .ok (result, result.length + 1)
          | .ok none => detranslateBinding sys.bindings path false true
        else if belongsToGuestfs sys.bindings referrer then
          detranslateBinding sys.bindings path false false
        else
          detranslateBinding sys.bindings path false (sameHostBinding sys.bindings path referrer)

end PRoot
