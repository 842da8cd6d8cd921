import Mathlib.Data.List.TakeWhile
import PRoot.AddressSpace
import PRoot.Paths
import PRoot.Registers

/-!
# Access to the memory of a tracee

`tracee/mem.c`: bytes are transferred by `process_vm_readv` and `process_vm_writev`, or word
by word with `ptrace` where these fail or do not exist.

* `readData`, `writeData`, `readString`: the transfers, with `process_vm` or without;
* `MappedMemory`: what the memory of a tracee is like.
-/

namespace PRoot

/-- An address of a tracee, as a `word_t`. -/
abbrev Address (host : Host) := BitVec (8 * host.word)

/-- What is at each address of a tracee. -/
abbrev Space (host : Host) := AddressSpace (8 * host.word)

abbrev Bytes := List (BitVec 8)

/-- The return value of a function of type `int`. -/
def asInt (value : Nat) : Int := Int.bmod value (2 ^ 32)

/-- `untag_pointer`. -/
def untagPointer (host : Host) (address : Address host) : Address host :=
  (host.untagPointer (address.setWidth 64)).setWidth _

section

variable {host : Host}

/-- An address after another one. -/
abbrev Address.plus (a : Address host) (i : Nat) : Address host := a + BitVec.ofNat _ i

/-- `process_vm_readv` of one range: "these system calls won't perform a partial transfer that
splits a single iovec element".  A single call transfers less than 2 GiB. -/
def processVmReadv (m : Space host) (a : Address host) (size : Nat) : Option Bytes :=
  if size ≤ 0x7ffff000 then m.load a size else none

/-- `process_vm_writev`. -/
def processVmWritev (m : Space host) (a : Address host) (bytes : Bytes) : Option (Space host) :=
  if bytes.length ≤ 0x7ffff000 then m.store a bytes else none

/-- `PTRACE_PEEKDATA`: the bytes of a word. -/
def peekData (m : Space host) (a : Address host) : Option Bytes := m.load a host.word

/-- `PTRACE_POKEDATA`. -/
def pokeData (m : Space host) (a : Address host) (word : Bytes) : Option (Space host) :=
  m.store a word

/-- "Copy one word by one word": what is transferred, and whether it is all. -/
def peekWords (m : Space host) (a : Address host) : Nat → Bytes × Bool
  | 0 => ([], true)
  | i + 1 =>
      match peekData m a with
      | none => ([], false)
      | some word =>
          let (bytes, done) := peekWords m (a.plus host.word) i
          (word ++ bytes, done)

/-- The fallback of `read_data`. -/
def peekBytes (m : Space host) (a : Address host) (size : Nat) : Bytes × Except Errno Unit :=
  let trailing := size % host.word
  let full := (size - trailing) / host.word
  let (bytes, done) := peekWords m a full
  if !done then (bytes, .error .EFAULT)
  else if trailing = 0 then (bytes, .ok ())
  else
    match peekData m (a.plus (full * host.word)) with
    | none => (bytes, .error .EFAULT)
    | some word => (bytes ++ word.take trailing, .ok ())

/-- `read_data`: the bytes that are transferred, and its status. -/
def MemoryAccess.readData (processVm : Bool) (m : Space host) (srcTracee : Address host)
    (size : Nat) : Bytes × Except Errno Unit :=
  let src := untagPointer host srcTracee
  match if processVm then processVmReadv m src size else none with
  | some bytes => (bytes, .ok ())
  | none => peekBytes m src size

/-- The same for words that are written. -/
def pokeWords (m : Space host) (a : Address host) (src : Bytes) : Nat → Space host × Bool
  | 0 => (m, true)
  | i + 1 =>
      match pokeData m a (src.take host.word) with
      | none => (m, false)
      | some m => pokeWords m (a.plus host.word) (src.drop host.word) i

/-- The fallback of `write_data`: in the last word, "we have to overwrite only the relevant"
bytes. -/
def pokeBytes (m : Space host) (a : Address host) (src : Bytes) :
    Space host × Except Errno Unit :=
  let trailing := src.length % host.word
  let full := (src.length - trailing) / host.word
  let (m, done) := pokeWords m a src full
  if !done then (m, .error .EFAULT)
  else if trailing = 0 then (m, .ok ())
  else
    let last := a.plus (full * host.word)
    match peekData m last with
    | none => (m, .error .EFAULT)
    | some word =>
        match pokeData m last (src.drop (full * host.word) ++ word.drop trailing) with
        | none => (m, .error .EFAULT)
        | some m => (m, .ok ())

/-- `write_data`: the memory afterwards, and its status. -/
def MemoryAccess.writeData (processVm : Bool) (m : Space host) (destTracee : Address host)
    (src : Bytes) : Space host × Except Errno Unit :=
  let dest := untagPointer host destTracee
  match if processVm then processVmWritev m dest src else none with
  | some m => (m, .ok ())
  | none => pokeBytes m dest src

/-- The bytes up to the first end-of-string, with it. -/
def throughNul (bytes : Bytes) : Bytes := bytes.takeWhile (· ≠ 0) ++ [0]

/-- "Read the string by chunk", while there are chunks that may have its end.  What is left of
`max_size` is read from an address on. -/
def readChunks (chunkSize : Nat) (m : Space host) : Nat → Address host → Nat → Option Bytes
  | 0, _, _ => none
  | rounds + 1, a, left =>
      let available := chunkSize - a.toNat % chunkSize
      let size := if available < left then available else left
      match processVmReadv m a size with
      | none => none
      | some bytes =>
          if 0 ∈ bytes then some (throughNul bytes)
          else if size < left then
            (readChunks chunkSize m rounds (a.plus size) (left - size)).map (bytes ++ ·)
          else none

/-- "Stop once an end-of-string is detected": what is read word by word, and whether the end
was there. -/
def peekStringWords (m : Space host) (a : Address host) : Nat → Except Errno (Bytes × Bool)
  | 0 => .ok ([], false)
  | i + 1 =>
      match peekData m a with
      | none => .error .EFAULT
      | some word =>
          if 0 ∈ word then .ok (throughNul word, true)
          else
            match peekStringWords m (a.plus host.word) i with
            | .error status => .error status
            | .ok (bytes, ended) => .ok (word ++ bytes, ended)

/-- The fallback of `read_string`: what it returns, and what is in the buffer then. -/
def peekString (m : Space host) (a : Address host) (maxSize : Nat) :
    Except Errno (Int × Bytes) :=
  let trailing := maxSize % host.word
  let full := (maxSize - trailing) / host.word
  match peekStringWords m a full with
  | .error status => .error status
  | .ok (bytes, true) => .ok (asInt bytes.length, bytes)
  | .ok (bytes, false) =>
      -- This word is read even when no byte of it is needed.
      match peekData m (a.plus (full * host.word)) with
      | none => .error .EFAULT
      | some word =>
          let last := word.take trailing
          if 0 ∈ last then
            .ok (asInt (bytes ++ throughNul last).length, bytes ++ throughNul last)
          else .ok (asInt (full * host.word + trailing + 1), bytes ++ last)

/-- `chunk_size`: "a chunk shall not cross a page boundary". -/
def chunkSize (pageSize : Nat) : Nat := if 0 < pageSize ∧ pageSize < 1024 then pageSize else 1024

/-- `read_string`. -/
def readString (processVm : Bool) (pageSize : Nat) (m : Space host) (srcTracee : Address host)
    (maxSize : Nat) : Except Errno (Int × Bytes) :=
  let src := untagPointer host srcTracee
  match if processVm then readChunks (chunkSize pageSize) m (maxSize + 1) src maxSize else none with
  | some bytes => .ok (asInt bytes.length, bytes)
  | none => peekString m src maxSize

/-- The memory of a tracee: pages that are mapped or not, with any content. -/
structure MappedMemory (host : Host) where
  space : Space host
  /-- The number of bits of an offset in a page. -/
  pageBits : Nat
  pageBits_le : pageBits ≤ 8 * host.word
  paged : ∀ a b : Address host, a.toNat / 2 ^ pageBits = b.toNat / 2 ^ pageBits →
    (space a).isSome → (space b).isSome

/-- `sysconf(_SC_PAGE_SIZE)`. -/
def MappedMemory.pageSize (memory : MappedMemory host) : Nat := 2 ^ memory.pageBits

end

end PRoot
