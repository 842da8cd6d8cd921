import PRoot.LoadInfo

/-!
# Scripts

`execve/shebang.c`: the interpreter that the first line of a script asks for, and the
arguments it is started with.

* `extractShebang`: the first line of a file;
* `expandShebang`: the program that is left when all the scripts are expanded.
-/

namespace PRoot

/-- A blank of a first line. -/
def isBlank (c : Char) : Bool := c = ' ' || c = '\t'

/-- An end of a first line. -/
def isEndOfLine (c : Char) : Bool := c = '\n' || c = '\r'

/-- What a buffer holds up to its first `'\0'`. -/
def upToNul (buffer : CStr) : CStr := buffer.takeWhile (· ≠ '\x00')

section

variable (bufSize : Nat)

/-- "Skip leading spaces." -/
def skipSpaces : Nat → CStr → Except Errno (Nat × Char × CStr)
  | _, [] => .error .ENOEXEC
  | currentLength, tmp :: rest =>
      if isBlank tmp ∧ currentLength + 1 < bufSize then skipSpaces (currentLength + 1) rest
      else .ok (currentLength + 1, tmp, rest)

/-- "Slurp the argument until the end-of-line." -/
def slurpArgument (argument : CStr) (currentLength : Nat) (tmp : Char) (rest : CStr) : CStr :=
  if currentLength < bufSize then
    if isEndOfLine tmp then
      -- Trailing spaces go, but never the first character.
      upToNul (argument.take 1 ++ ((argument.drop 1).reverse.dropWhile isBlank).reverse)
    else
      match rest with
      | [] => []
      | next :: rest => slurpArgument (argument ++ [tmp]) (currentLength + 1) next rest
  else upToNul argument

/-- "Slurp the interpreter path until the first space or end-of-line."  The character before
the end of the file is dropped. -/
def slurpPath (userPath : CStr) (currentLength : Nat) (tmp : Char) (rest : CStr) : CStr × CStr :=
  if currentLength < bufSize then
    if isEndOfLine tmp then (upToNul userPath, [])
    else if ¬ isBlank tmp ∧ 1 < userPath.length ∧ userPath.getLast? = some '\x00' then
      (upToNul userPath, slurpArgument bufSize [] currentLength tmp rest)
    else
      match rest with
      | [] => (upToNul userPath, [])
      | next :: rest =>
          slurpPath (userPath ++ [if isBlank tmp then '\x00' else tmp]) (currentLength + 1) next rest
  else (upToNul userPath, [])

end

/-- `extract_shebang` of a file that was opened: the interpreter and its argument. -/
def extractShebang (bufSize : Nat) (file : OpenFile) : Except Errno (Option (CStr × CStr)) :=
  match file.content with
  | .error status => .error status
  | .ok bytes =>
      match bytes.map fun byte => Char.ofNat byte.toNat with
      | '#' :: '!' :: line =>
          match skipSpaces bufSize 2 line with
          | .error status => .error status
          | .ok (currentLength, tmp, rest) =>
              .ok (some (slurpPath bufSize [] currentLength tmp rest))
      | _ => .ok none

/-- The pointer arrays of an `execve`: what is fetched of `argv` and `envp`, and whether
a new array can be pushed. -/
structure ExecArrays where
  argv : Except Errno (List CStr)
  envp : Except Errno (List CStr)
  pushArgv : List CStr → Except Errno Unit
  pushEnvp : List CStr → Except Errno Unit

/-- `resize_array_of_xpointers` and `write_xpointees` at the start of `argv`: the name of the
script is no more. -/
def scriptArgv (argv : List CStr) (userPath argument oldUserPath : CStr) : List CStr :=
  if argument ≠ [] then userPath :: argument :: oldUserPath :: argv.tail
  else userPath :: oldUserPath :: argv.tail

section

variable (K : ExecHost) (arrays : ExecArrays)

/-- The rounds of the loop of `expand_shebang`, as many as are left: the program, from both
points of view, and `argv[]` once it was fetched. -/
def expandRounds (userPath : CStr) (argv : Option (List CStr)) :
    Nat → Except Errno (CStr × CStr × Option (List CStr))
  | 0 => .error .ELOOP
  | left + 1 => do
      let round := K.maxSymlinks - (left + 1)
      let hostPath ← K.translateAndCheckExec userPath
      if !K.allocates (.oldUserPath round) then throw .ENOMEM
      let file ← K.openFile hostPath
      match ← extractShebang K.binprmBufSize file with
      | none => .ok (hostPath, userPath, argv)
      | some (interpreter, argument) =>
          let _ ← K.translateAndCheckExec interpreter
          let old ← match argv with
            | some argv => .ok argv
            | none => arrays.argv
          if !K.allocates (.resizedArgv round) then throw .ENOMEM
          if !K.allocates (.writtenArgv round) then throw .ENOMEM
          expandRounds interpreter (some (scriptArgv old interpreter argument userPath)) left

/-- `expand_shebang`: the program from both points of view, and whether it is the
interpreter of a script. -/
def expandShebang (userPath : CStr) : Except Errno (CStr × CStr × Bool) := do
  let (hostPath, userPath, argv) ← expandRounds K arrays userPath none K.maxSymlinks
  match argv with
  | none => .ok (hostPath, userPath, false)
  | some argv => do
      arrays.pushArgv argv
      .ok (hostPath, userPath, true)

end

end PRoot
