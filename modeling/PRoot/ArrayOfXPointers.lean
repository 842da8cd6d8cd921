import PRoot.MemoryPaths
import PRoot.WordBytes

/-!
# Arrays of pointers

`execve/aoxp.c`, and what it uses of `tracee/mem.c`: the pointer arrays of a tracee, `argv[]` for
one.  An array is fetched, its entries are edited, and it is pushed back into the memory of the
tracee.

* `fetchArrayOfXPointers`: the pointers up to the null one;
* `Edit`, `applyEdits`: resizes, reads and writes;
* `pushArrayOfXPointers`: a new array, below the stack of the tracee.
-/

namespace PRoot

/-- What ends an operation: an assertion that fails, or a status. -/
inductive XStop
  | abort
  | errno (status : Errno)
  deriving DecidableEq

/-- `XPointer`.  Its local copy is a string with its end, if there is one. -/
structure XPointer (host : Host) where
  remote : Address host
  localCopy : Option Bytes
  deriving DecidableEq

/-- A tracee that has a pointer array. -/
structure XTracee (host : Host) where
  /-- `process_vm_readv` and `process_vm_writev` are there. -/
  processVm : Bool
  pageSize : Nat
  /-- `ARG_MAX` of `<linux/limits.h>`. -/
  argMax : Nat
  argMax_lt : argMax < 2 ^ 31 - 1
  /-- `is_32on64_mode`, on 64-bit hosts. -/
  is32on64 : Bool
  word64 : is32on64 = true → host.word = 8
  /-- The stack pointer when the system call was entered. -/
  originalStackPointer : Address host

/-- What changes: the memory, the register that points to the array, the stack pointer. -/
structure XState (host : Host) where
  space : Space host
  reg : Address host
  stackPointer : Address host

section

variable {host : Host} (T : XTracee host)

/-- `sizeof_word`. -/
def XTracee.sizeofWord : Nat := if T.is32on64 then host.word / 2 else host.word

/-- `peek_reg`, and the end of `peek_word`. -/
def XTracee.peekReg (value : Address host) : Address host :=
  if T.is32on64 then value &&& BitVec.ofNat _ 0xFFFFFFFF else value

/-- `peek_word`.  `ptrace` reads a whole word of the host. -/
def peekWord (m : Space host) (address : Address host) : Except Errno (Address host) :=
  let address := untagPointer host address
  match if T.processVm then processVmReadv m address T.sizeofWord else none with
  | some bytes => .ok (BitVec.ofNat _ (littleEndian bytes))
  | none =>
      match peekData m address with
      | none => .error .EFAULT
      | some bytes => .ok (T.peekReg (BitVec.ofNat _ (littleEndian bytes)))

/-- The loop of `fetch_array_of_xpointers`, from an index on, as far as there is room. -/
def fetchXPointers (m : Space host) (address : Address host) :
    Nat → Nat → Except Errno (List (XPointer host))
  | 0, _ => .error .ENOMEM
  | room + 1, i =>
      match peekWord T m (address.plus (i * T.sizeofWord)) with
      | .error status => .error status
      | .ok pointer =>
          if pointer = 0 then .ok [⟨0, none⟩]
          else (fetchXPointers m address room (i + 1)).map (⟨pointer, none⟩ :: ·)

/-- `fetch_array_of_xpointers`, of all the entries up to the null pointer. -/
def fetchArrayOfXPointers (room : Nat) (s : XState host) :
    Except Errno (List (XPointer host)) :=
  fetchXPointers T s.space (T.peekReg s.reg) room 0

/-- `read_xpointee_as_string`: the entry with its local copy. -/
def readXPointee (m : Space host) (entry : XPointer host) : Except Errno (XPointer host) :=
  if entry.localCopy.isSome then .ok entry
  else if entry.remote = 0 then .ok entry
  else
    match readString T.processVm T.pageSize m entry.remote T.argMax with
    | .error status => .error status
    | .ok (status, tmp) =>
        if status < 0 ∨ (T.argMax : Int) ≤ status then .error .ENOMEM
        else .ok { entry with localCopy := some (throughNul tmp) }

/-- `resize_array_of_xpointers`. -/
def resizeArrayOfXPointers {α : Type} (zero : α) (array : List α) (index : Nat) (delta : Int) :
    Except XStop (List α) :=
  if ¬ index < array.length then .error .abort
  else if delta = 0 then .ok array
  else if delta > 0 then
    .ok (array.take index ++ List.replicate delta.toNat zero ++ array.drop index)
  else if ¬ (-delta).toNat ≤ index then .error .abort
  else .ok (array.take (index - (-delta).toNat) ++ array.drop index)

/-- The operations on a fetched array. -/
inductive Edit
  | resize (index : Nat) (delta : Int)
  | read (index : Nat)
  | write (index : Nat) (string : Bytes)

/-- One operation. -/
def applyEdit (m : Space host) (array : List (XPointer host)) :
    Edit → Except XStop (List (XPointer host))
  | .resize index delta => resizeArrayOfXPointers ⟨0, none⟩ array index delta
  | .read index =>
      match array[index]? with
      | none => .error .abort
      | some entry =>
          match readXPointee T m entry with
          | .error status => .error (.errno status)
          | .ok entry => .ok (array.set index entry)
  | .write index string =>
      match array[index]? with
      | none => .error .abort
      | some entry =>
          .ok (array.set index { entry with localCopy := some (throughNul string) })

/-- Operations, one after another. -/
def applyEdits (m : Space host) (array : List (XPointer host)) (edits : List Edit) :
    Except XStop (List (XPointer host)) :=
  edits.foldlM (applyEdit T m) array

/-- `alloc_mem`, in the enter stage: where the memory is, and the stack pointer then. -/
def allocMem (stackPointer : Address host) (size : Nat) : Option (Address host) :=
  let stackPointer := T.peekReg stackPointer
  let size :=
    if stackPointer = T.peekReg T.originalStackPointer then size + host.redZoneSize else size
  if 0 < size ∧ stackPointer.toNat ≤ size then none
  else some (stackPointer - BitVec.ofNat _ size)

/-- The fallback of `writev_data`: "iterative-write". -/
def writePieces (m : Space host) (dest : Address host) :
    List Bytes → Space host × Except Errno Unit
  | [] => (m, .ok ())
  | piece :: pieces =>
      match MemoryAccess.writeData T.processVm m dest piece with
      | (m, .error status) => (m, .error status)
      | (m, .ok _) => writePieces m (dest.plus piece.length) pieces

/-- `writev_data`.  One call takes `UIO_MAXIOV` pieces. -/
def writevData (m : Space host) (destTracee : Address host) (pieces : List Bytes) :
    Space host × Except Errno Unit :=
  let dest := untagPointer host destTracee
  match if T.processVm ∧ pieces.length ≤ 1024 then processVmWritev m dest pieces.flatten
    else none with
  | some m => (m, .ok ())
  | none => writePieces T m dest pieces

/-- The pointers of a new array: those of local copies lie in the block from an address on, at
an offset that grows. -/
def podValues (traceePtr : Address host) : Nat → List (XPointer host) → List (Address host)
  | _, [] => []
  | totalSize, entry :: array =>
      match entry.localCopy with
      | none => entry.remote :: podValues traceePtr totalSize array
      | some string =>
          traceePtr.plus totalSize :: podValues traceePtr (totalSize + string.length) array

/-- The pieces of the block after the array. -/
def modifiedPointees (array : List (XPointer host)) : List Bytes := array.filterMap (·.localCopy)

/-- `total_size`. -/
def blockSize (array : List (XPointer host)) : Nat :=
  array.length * T.sizeofWord + (modifiedPointees array).flatten.length

/-- `push_array_of_xpointers`: what changed, and how it ends. -/
def pushArrayOfXPointers (s : XState host) (array : List (XPointer host)) :
    XState host × Except XStop Unit :=
  let pointees := modifiedPointees array
  if pointees = [] then (s, .ok ())
  else if ¬ pointees.length + 1 < array.length + 1 then (s, .error .abort)
  else
    match allocMem T s.stackPointer (blockSize T array) with
    | none => (s, .error (.errno .E2BIG))
    | some traceePtr =>
        let s := { s with stackPointer := traceePtr }
        let pod := ((podValues traceePtr (array.length * T.sizeofWord) array).map
          BitVec.toNat).flatMap (wordBytes T.sizeofWord)
        match writevData T s.space traceePtr (pod :: pointees) with
        | (space, .error status) => ({ s with space }, .error (.errno status))
        | (space, .ok _) => ({ s with space, reg := traceePtr }, .ok ())

end

end PRoot
