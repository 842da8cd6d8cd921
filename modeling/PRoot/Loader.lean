import PRoot.LoadScript

/-!
# The loader

`loader/loader.c`: the program that the kernel starts in the place of another one.  It follows
a load script, then starts that program.  A `word_t` of the loader has `size` bytes.

* `LoaderMemory`, `LoaderKernel`: what it works on, and with;
* `clear`, `basename`: its helpers;
* `interpret`: what it does for a statement;
* `start`: the loop of `_start`.
-/

namespace PRoot

namespace Loader

/-- `word_t` of a loader. -/
abbrev Word (size : Nat) := BitVec (8 * size)

/-- The memory of a loader: the bytes that are there – none where nothing is mapped, nor on the
pages of a mapping beyond the end of its file – and the protection of each address. -/
structure LoaderMemory (size : Nat) where
  space : AddressSpace (8 * size)
  prot : Word size → Word size

/-- The system calls of a loader.  A path and a name are what the kernel reads at their address,
if it can. -/
inductive LoaderCall (size : Nat)
  | CLOSE (fd : Word size)
  | OPEN (path : Option Bytes)
  | MMAP (addr length prot flags fd offset : Word size)
  | MPROTECT (addr length prot : Word size)
  | PRCTL (name : Option Bytes)
  deriving DecidableEq

/-- The calls that were made, in order, and what each of them answered. -/
abbrev LoaderTrace (size : Nat) := List (LoaderCall size × Word size)

/-- What the kernel answers to a call after others, and what it makes of the memory. -/
abbrev LoaderKernel (size : Nat) :=
  LoaderTrace size → LoaderMemory size → LoaderCall size → Word size × LoaderMemory size

/-- The memory, the calls and the variables of `_start`. -/
structure LoaderState (size : Nat) where
  memory : LoaderMemory size
  calls : LoaderTrace size
  fd : Word size
  atBase : Word size
  resetAtBase : Bool

/-- Why a loader does not go on: a signal, `EXIT`, or the program has started. -/
inductive LoaderEnd (size : Nat)
  | fault
  | EXIT (status : Nat)
  | EXECVE (stackPointer entryPoint : Word size)
  | BRANCH (stackPointer entryPoint : Word size)
  | outOfFuel
  deriving DecidableEq

abbrev LoaderM (size : Nat) := EStateM (LoaderEnd size) (LoaderState size)

section

variable {size : Nat}

/-- What the memory gives access to: `PROT_READ` to what can be read, `PROT_WRITE` to what can
be written. -/
def LoaderMemory.accessible (memory : LoaderMemory size) (access : Word size) :
    AddressSpace (8 * size) :=
  fun x => if memory.prot x &&& access ≠ 0 then memory.space x else none

/-- The string at an address. -/
def stringAt (space : AddressSpace (8 * size)) : Nat → Word size → Option Bytes
  | 0, _ => none
  | rounds + 1, a =>
      match space a with
      | none => none
      | some byte => if byte = 0 then some [] else (stringAt space rounds (a + 1)).map (byte :: ·)

/-- The string that the kernel reads at an address. -/
def LoaderMemory.string (memory : LoaderMemory size) (a : Word size) : Option Bytes :=
  stringAt (memory.accessible 1) (2 ^ (8 * size)) a

def readBytes (a : Word size) (count : Nat) : LoaderM size Bytes := fun s =>
  match (s.memory.accessible 1).load a count with
  | none => .error .fault s
  | some bytes => .ok bytes s

def writeBytes (a : Word size) (bytes : Bytes) : LoaderM size Unit := fun s =>
  if ((s.memory.accessible 2).load a bytes.length).isSome then
    match s.memory.space.store a bytes with
    | none => .error .fault s
    | some space => .ok () { s with memory := { s.memory with space := space } }
  else .error .fault s

/-- The word at an address. -/
def readWord (a : Word size) : LoaderM size (Word size) := do
  return BitVec.ofNat _ (littleEndian (← readBytes a size))

def writeWord (a value : Word size) : LoaderM size Unit :=
  writeBytes a (wordBytes size value.toNat)

/-- An address, that many words further. -/
abbrev Word.plus (a : Word size) (words : Nat) : Word size := a + BitVec.ofNat _ (words * size)

/-- `FATAL`. -/
def fatal {α : Type} : LoaderM size α := throw (.EXIT 182)

/-- `SYSCALL`. -/
def syscall (kernel : LoaderKernel size) (call : LoaderCall size) : LoaderM size (Word size) :=
  fun s =>
    let (answer, memory) := kernel s.calls s.memory call
    .ok answer { s with memory := memory, calls := s.calls ++ [(call, answer)] }

/-- `while (cursor < end) *cursor++ = 0`, for an object of that size. -/
def clearWhile (objectSize : Nat) : Nat → Word size → Word size → LoaderM size Unit
  | 0, _, _ => pure ()
  | rounds + 1, cursor, stop =>
      if cursor < stop then do
        writeBytes cursor (List.replicate objectSize 0)
        clearWhile objectSize rounds (cursor + BitVec.ofNat _ objectSize) stop
      else pure ()

/-- `clear`. -/
def clear (start stop : Word size) : LoaderM size Unit := do
  let startBytes := start.toNat % size
  let endBytes := stop.toNat % size
  let startAligned :=
    if startBytes ≠ 0 then start + BitVec.ofNat _ size - BitVec.ofNat _ startBytes else start
  let endAligned := stop - BitVec.ofNat _ endBytes
  clearWhile 1 (startAligned.toNat - start.toNat) start startAligned
  clearWhile size (endAligned.toNat - startAligned.toNat) startAligned endAligned
  clearWhile 1 (stop.toNat - endAligned.toNat) endAligned stop

/-- The first loop of `basename`: the end of the string. -/
def findEnd : Nat → Word size → LoaderM size (Word size)
  | 0, _ => throw .outOfFuel
  | fuel + 1, cursor => do
      if (← readBytes cursor 1) ≠ [0] then findEnd fuel (cursor + 1) else return cursor

/-- The second one: back to the last `/`. -/
def findSlash (string : Word size) : Nat → Word size → LoaderM size (Word size)
  | 0, _ => throw .outOfFuel
  | fuel + 1, cursor => do
      if (← readBytes cursor 1) ≠ [0x2F] ∧ cursor > string then
        findSlash string fuel (cursor - 1)
      else return cursor

/-- `basename`. -/
def basename (fuel : Nat) (string : Word size) : LoaderM size (Word size) := do
  let cursor ← findSlash string fuel (← findEnd fuel string)
  return if cursor ≠ string then cursor + 1 else cursor

/-- `MMAP_OFFSET_SHIFT`. -/
def mmapOffsetShift (size : Nat) : Nat := if size = 4 then 12 else 0

/-! ## What is done for a statement

`stmt` reads the words of the statement: it is asked each time that the source reads one. -/

variable (kernel : LoaderKernel size) (stmt : Nat → LoaderM size (Word size))

def closeFile : LoaderM size Unit := do
  let status ← syscall kernel (.CLOSE (← get).fd)
  if asInt status.toNat < 0 then fatal

def openFile : LoaderM size Unit := do
  let stringAddress ← stmt 1
  let fd ← syscall kernel (.OPEN ((← get).memory.string stringAddress))
  modify fun s => { s with fd := fd }
  if asInt fd.toNat < 0 then fatal
  modify fun s => { s with resetAtBase := true }

/-- `LOAD_ACTION_MMAP_FILE`. -/
def mmapFile : LoaderM size Unit := do
  let status ← syscall kernel (.MMAP (← stmt 1) (← stmt 2) (← stmt 3) 0x12 (← get).fd
    ((← stmt 4) >>> mmapOffsetShift size))
  if status ≠ (← stmt 1) then fatal
  if (← stmt 5) ≠ 0 then
    clear ((← stmt 1) + (← stmt 2) - (← stmt 5)) ((← stmt 1) + (← stmt 2))
  if (← get).resetAtBase then
    let addr ← stmt 1
    modify fun s => { s with atBase := addr, resetAtBase := false }

/-- `LOAD_ACTION_MMAP_ANON`. -/
def mmapAnon : LoaderM size Unit := do
  let status ← syscall kernel (.MMAP (← stmt 1) (← stmt 2) (← stmt 3) 0x32 (-1) 0)
  if status ≠ (← stmt 1) then fatal

/-- "Skip envp[]". -/
def skipEnvp : Nat → Word size → LoaderM size (Word size)
  | 0, _ => throw .outOfFuel
  | fuel + 1, cursor2 => do
      let cursor2 := cursor2.plus 1
      if (← readWord cursor2) ≠ 0 then skipEnvp fuel cursor2 else return cursor2

/-- "Adjust auxv[]". -/
def adjustAuxv (atExecfn : Word size) : Nat → Word size → LoaderM size Unit
  | 0, _ => throw .outOfFuel
  | fuel + 1, cursor2 => do
      match (← readWord cursor2).toNat with
      | 3 => writeWord (cursor2.plus 1) (← stmt 3)
      | 4 => writeWord (cursor2.plus 1) (← stmt 4)
      | 5 => writeWord (cursor2.plus 1) (← stmt 5)
      | 9 => writeWord (cursor2.plus 1) (← stmt 6)
      | 7 => writeWord (cursor2.plus 1) (← get).atBase
      | 31 => writeWord (cursor2.plus 1) atExecfn
      | _ => pure ()
      let cursor2 := cursor2.plus 2
      if (← readWord cursor2) ≠ 0 then adjustAuxv atExecfn fuel cursor2

/-- `LOAD_ACTION_START`, and `LOAD_ACTION_START_TRACED`. -/
def startProgram (fuel : Nat) (traced : Bool) : LoaderM size Nat := do
  let cursor2 ← stmt 1
  let argc ← readWord cursor2
  let atExecfn ← readWord (cursor2.plus 1)
  closeFile kernel
  let cursor2 ← skipEnvp fuel (cursor2 + (argc + 1) * BitVec.ofNat _ size)
  adjustAuxv stmt atExecfn fuel (cursor2.plus 1)
  let name ← basename fuel (← stmt 7)
  let _ ← syscall kernel (.PRCTL ((← get).memory.string name))
  if traced then throw (.EXECVE (← stmt 1) (← stmt 2))
  else throw (.BRANCH (← stmt 1) (← stmt 2))

/-- The `switch` of `_start`: how many words the statement has. -/
def interpret (fuel : Nat) : LoaderM size Nat := do
  match (← stmt 0).toNat with
  | 0 => do
      closeFile kernel
      openFile kernel stmt
      return 2
  | 1 => do
      openFile kernel stmt
      return 2
  | 2 => do
      mmapFile kernel stmt
      return 6
  | 3 => do
      mmapAnon kernel stmt
      return 6
  | 4 => do
      let _ ← syscall kernel (.MPROTECT (← stmt 1) 1 0x1000007)
      return 2
  | 5 => startProgram kernel stmt fuel true
  | 6 => startProgram kernel stmt fuel false
  | _ => fatal

/-- The words of a statement in memory. -/
def statementAt (cursor : Word size) (i : Nat) : LoaderM size (Word size) :=
  readWord (cursor.plus i)

/-- `_start`. -/
def start : Nat → Word size → LoaderM size Unit
  | 0, _ => throw .outOfFuel
  | fuel + 1, cursor => do
      let words ← interpret kernel (statementAt cursor) fuel
      start fuel (cursor.plus words)

end

/-- The state of a loader that starts. -/
def LoaderState.initial {size : Nat} (memory : LoaderMemory size) : LoaderState size where
  memory := memory
  calls := []
  fd := -1
  atBase := 0
  resetAtBase := true

end Loader

end PRoot
