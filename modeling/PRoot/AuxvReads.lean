import PRoot.IdViews
import PRoot.IpcThreads
import PRoot.SendmsgFixups

/-!
# Reads of the auxiliary vector

A tracee that reads "/proc/self/auxv", or asks for its auxiliary vector by `prctl`, is given
`execfn_addr` for the value of `AT_EXECFN`, which the kernel has for the loader (`open`, `read` and
`prctl` in `syscall/exit.c`, `close` in `syscall/enter.c`).  PRoot remembers one descriptor.

* `AuxvTracee.enter`, `AuxvTracee.exit`: the two stages;
* `auxvKernel`: what the kernel does, with any vector;
* `AuxvSys.step`: a call of a tracee, with or without `seccomp`;
* `scan_patches`: the loop, at the boundary of an entry;
* `careful_run_exact`: a run where no call goes wrong.
-/

namespace PRoot

variable {host : Host}

/-! ## The vector of the kernel -/

/-- `AT_EXECFN`. -/
def atExecfn : Nat := 31

/-- `PR_GET_AUXV`. -/
def prGetAuxv : BitVec 64 := 0x41555856

/-- The auxiliary vector of a program, of words of `w` bytes, in the `saved` bytes that the kernel
has for it. -/
structure KernelAuxv (w : Nat) where
  vectors : List ElfAuxVector
  saved : Nat
  type_ne : ∀ vector ∈ vectors, vector.type ≠ 0
  words : ∀ value ∈ auxvWords vectors, value < 256 ^ w
  once : (vectors.filter (·.type = atExecfn)).length ≤ 1
  room : (auxvWords vectors).length * w ≤ saved
  saved_lt : saved < 2 ^ 31

/-- What is in "/proc/self/auxv". -/
def auxvBytes (w : Nat) (vectors : List ElfAuxVector) : Bytes :=
  (auxvWords vectors).flatMap (wordBytes w)

/-- Only the value of `AT_EXECFN` is replaced. -/
def ElfAuxVector.withExecfn (execfn : Nat) (vector : ElfAuxVector) : ElfAuxVector :=
  if vector.type = atExecfn then { vector with value := execfn } else vector

/-! ## What PRoot does -/

/-- `Tracee`, as far as reads of the vector go. -/
structure AuxvTracee (host : Host) where
  execfnAddr : Address host
  auxvFd : Int
  sysexitPending : Bool
  deriving DecidableEq

/-- The calls, with the answers of the kernel: the number of the descriptor and whether it is one of
the vector, the number of a descriptor or a child, or what is read.  Of what is read from the vector
only the size counts.  There is no answer to `close`. -/
inductive AuxvCall
  /-- `open`, `openat` and `openat2`. -/
  | opens (path : CStr) (answer : Except Errno (Nat × Bool))
  | dup (oldFd : Int) (answer : Except Errno Nat)
  | dup2 (oldFd : Int) (answer : Except Errno Nat)
  | fork (answer : Except Errno Nat)
  | close (regs : SyscallRegs)
  | closeRange (first last : Int)
  | read (regs : SyscallRegs) (answer : Except Errno Bytes)
  | prctl (regs : SyscallRegs) (answer : Except Errno Unit)

def procSelfAuxv : CStr := "/proc/self/auxv".toList

/-- A descriptor in a register. -/
def fdArg (host : Host) (abi : Abi) (value : BitVec 64) : Int :=
  ((peek host abi value).setWidth 32).toInt

/-- The loop over a buffer, from an offset on, for so many entries. -/
def scanAuxv (w : Nat) (execfn : Address host) (m : Space host) (buf : Address host) :
    Nat → Nat → Space host
  | 0, _ => m
  | entries + 1, offset =>
      match peekWordAt w m (untagPointer host (buf.plus offset)) with
      | none => m
      | some type =>
          if type = 0 then m
          else if type = atExecfn then
            (pokeWordAt w m (untagPointer host (buf.plus (offset + w))) execfn.toNat).getD m
          else scanAuxv w execfn m buf entries (offset + 2 * w)

namespace AuxvTracee

variable (abi : Abi) (t : AuxvTracee host)

/-- The exit stage is not skipped: always without `seccomp`, and else if it is pending. -/
def seesExit (seccomp : Bool) : Bool := !seccomp || t.sysexitPending

/-- The cases of `translate_syscall_enter`. -/
def enter : AuxvCall → AuxvTracee host
  | .opens path _ =>
      if t.execfnAddr ≠ 0 ∧ path = procSelfAuxv then { t with sysexitPending := true } else t
  | .close regs =>
      if 0 ≤ t.auxvFd ∧ fdArg host abi regs.arg1 = t.auxvFd then { t with auxvFd := -1 } else t
  | .prctl regs _ =>
      if peek host abi regs.arg1 = prGetAuxv then { t with sysexitPending := true } else t
  | _ => t

/-- The cases of `translate_syscall_exit`. -/
def exit (m : Space host) (syscallResult : BitVec 64) :
    AuxvCall → AuxvTracee host × Space host
  | .opens path _ =>
      if fdArg host abi syscallResult < 0 then (t, m)
      else if t.execfnAddr = 0 then (t, m)
      else if path ≠ procSelfAuxv then (t, m)
      else ({ t with auxvFd := fdArg host abi syscallResult, sysexitPending := true }, m)
  | .read regs _ =>
      let result : Address host := sysarg abi syscallResult
      if t.auxvFd < 0 ∨ t.execfnAddr = 0 then (t, m)
      else if result = 0 ∨ result.toInt < 0 then (t, m)
      else if fdArg host abi regs.arg1 ≠ t.auxvFd then (t, m)
      else
        ({ t with sysexitPending := true },
          scanAuxv (sizeofWord host abi) t.execfnAddr m (sysarg abi regs.arg2)
            (result.toNat / (2 * sizeofWord host abi)) 0)
  | .prctl regs _ =>
      let result : Address host := sysarg abi syscallResult
      if peek host abi regs.arg1 ≠ prGetAuxv then (t, m)
      else if fdArg host abi syscallResult < 0 then (t, m)
      else if t.execfnAddr = 0 then (t, m)
      else if (sysarg abi regs.arg3 : Address host) < result then (t, m)
      else
        (t, scanAuxv (sizeofWord host abi) t.execfnAddr m (sysarg abi regs.arg2)
          (result.toNat / (2 * sizeofWord host abi)) 0)
  | _ => (t, m)

end AuxvTracee

/-! ## What the kernel does -/

/-- An open file: whether it is the vector, and where it is read. -/
structure AuxvFile where
  isAuxv : Bool
  offset : Nat
  deriving DecidableEq, Repr

/-- A process: what PRoot keeps of it, its descriptors and its memory. -/
structure AuxvProcess (host : Host) where
  tracee : AuxvTracee host
  fds : Int → Option Nat
  memory : Space host

/-- The processes, by their numbers, and the files that have been opened. -/
structure AuxvSys (host : Host) where
  processes : Nat → Option (AuxvProcess host)
  files : List AuxvFile

/-- A range of the memory of a user, which no tag gets into. -/
def UserRange (a : Address host) (size : Nat) : Prop :=
  (untagPointer host a).toNat + size ≤ 2 ^ min 56 (8 * host.word)

instance (a : Address host) (size : Nat) : Decidable (UserRange a size) :=
  inferInstanceAs (Decidable (_ ≤ _))

namespace AuxvProcess

variable (p : AuxvProcess host)

def setFd (fd : Int) (file : Option Nat) : AuxvProcess host :=
  { p with fds := fun other => if other = fd then file else p.fds other }

/-- A descriptor is made, where there was none. -/
def newFd (fd : Nat) (file : Nat) : Option (AuxvProcess host) :=
  if fd < 2 ^ 31 ∧ p.fds fd = none then some (p.setFd fd (some file)) else none

/-- `copy_to_user`, of all the bytes. -/
def copyToUser (buf : Address host) (bytes : Bytes) : Option (AuxvProcess host) :=
  if UserRange buf bytes.length then
    (p.memory.store (untagPointer host buf) bytes).map fun memory => { p with memory }
  else none

end AuxvProcess

/-- What the kernel leaves after a call. -/
structure AuxvOutcome (host : Host) where
  files : List AuxvFile
  process : AuxvProcess host
  result : Except Errno Nat

/-- What the kernel does for a process, unless it would not have that answer. -/
def auxvKernel (abi : Abi) (auxv : List ElfAuxVector) (saved : Nat) (files : List AuxvFile)
    (p : AuxvProcess host) : AuxvCall → Option (AuxvOutcome host)
  | .opens _ (.ok (fd, isAuxv)) =>
      (p.newFd fd files.length).map fun p => ⟨files ++ [⟨isAuxv, 0⟩], p, .ok fd⟩
  | .dup oldFd (.ok fd) =>
      (p.fds oldFd).bind fun file => (p.newFd fd file).map fun p => ⟨files, p, .ok fd⟩
  | .dup2 oldFd (.ok fd) =>
      (p.fds oldFd).map fun file => ⟨files, p.setFd fd (some file), .ok fd⟩
  | .fork (.ok child) => some ⟨files, p, .ok child⟩
  | .close regs => some ⟨files, p.setFd (fdArg host abi regs.arg1) none, .ok 0⟩
  | .closeRange first last =>
      some ⟨files,
        { p with fds := fun fd => if first ≤ fd ∧ fd ≤ last then none else p.fds fd }, .ok 0⟩
  | .read regs (.ok data) =>
      (p.fds (fdArg host abi regs.arg1)).bind fun id => files[id]?.bind fun file =>
        let bytes :=
          if file.isAuxv then
            ((auxvBytes (sizeofWord host abi) auxv).drop file.offset).take data.length
          else data
        if bytes.length = data.length ∧ data.length < 2 ^ 31 ∧
            data.length ≤ (sysarg abi regs.arg3 : Address host).toNat then
          (p.copyToUser (sysarg abi regs.arg2) bytes).map fun p =>
            ⟨files.set id { file with offset := file.offset + data.length }, p, .ok data.length⟩
        else none
  | .prctl regs (.ok ()) =>
      if (peek host abi regs.arg1).setWidth 32 = prGetAuxv.setWidth 32 then
        let bytes := auxvBytes (sizeofWord host abi) auxv
        (p.copyToUser (sysarg abi regs.arg2)
          ((bytes ++ List.replicate (saved - bytes.length) 0).take
            (sysarg abi regs.arg3 : Address host).toNat)).map fun p => ⟨files, p, .ok saved⟩
      else none
  | .opens _ (.error status) | .dup _ (.error status) | .dup2 _ (.error status)
  | .fork (.error status) | .read _ (.error status) | .prctl _ (.error status) =>
      some ⟨files, p, .error status⟩

/-! ## Calls -/

/-- The exit stage, if it is not skipped. -/
def AuxvProcess.leave (abi : Abi) (seccomp : Bool) (p : AuxvProcess host)
    (result : Except Errno Nat) (call : AuxvCall) : AuxvProcess host :=
  if p.tracee.seesExit seccomp then
    let exits :=
      AuxvTracee.exit abi
        { p.tracee with sysexitPending := p.tracee.sysexitPending && !seccomp }
        p.memory (statusWord (result.map (BitVec.ofNat 32))) call
    { p with tracee := exits.1, memory := exits.2 }
  else p

/-- The child that a call makes. -/
def AuxvCall.child : AuxvCall → Option Nat
  | .fork (.ok child) => some child
  | _ => none

namespace AuxvSys

variable (abi : Abi) (auxv : List ElfAuxVector) (saved : Nat) (s : AuxvSys host)

/-- The process is as it is after the call, and its child, if there is one, as at the call. -/
def finish (pid : Nat) (call : AuxvCall) (child p : AuxvProcess host) (files : List AuxvFile) :
    Option (AuxvSys host) :=
  if call.child.all fun number => number ≠ pid && (s.processes number).isNone then
    some
      { processes := fun other =>
          if other = pid then some p
          else if call.child = some other then some child
          else s.processes other
        files }
  else none

/-- A call where nobody traces the processes, and its result. -/
def untraced (pid : Nat) (call : AuxvCall) : Option (AuxvSys host × Except Errno Nat) :=
  (s.processes pid).bind fun p =>
    (auxvKernel abi auxv saved s.files p call).bind fun outcome =>
      (s.finish pid call outcome.process outcome.process outcome.files).map fun s =>
        (s, outcome.result)

variable (seccomp : Bool)

/-- The stages of a call, around what the kernel does, and the result. -/
def step (pid : Nat) (call : AuxvCall) : Option (AuxvSys host × Except Errno Nat) :=
  (s.processes pid).bind fun p =>
    (auxvKernel abi auxv saved s.files { p with tracee := p.tracee.enter abi call } call).bind
      fun outcome =>
        (s.finish pid call outcome.process (outcome.process.leave abi seccomp outcome.result call)
          outcome.files).map fun s => (s, outcome.result)

end AuxvSys

/-! ## Runs where no call goes wrong -/

/-- Where the entry of `AT_EXECFN` is. -/
def ExecfnAt (auxv : List ElfAuxVector) (i : Nat) : Prop :=
  ∃ vector, auxv[i]? = some vector ∧ vector.type = atExecfn

/-- Some bytes of the value of `AT_EXECFN` are among those. -/
def TouchesExecfn (w : Nat) (auxv : List ElfAuxVector) (offset size : Nat) : Prop :=
  ∃ i, ExecfnAt auxv i ∧ offset < 2 * w * (i + 1) ∧ 2 * w * i + w < offset + size

/-- The whole entry of `AT_EXECFN` is among those bytes. -/
def CoversExecfn (w : Nat) (auxv : List ElfAuxVector) (offset size : Nat) : Prop :=
  ∀ i, ExecfnAt auxv i → offset ≤ 2 * w * i ∧ 2 * w * (i + 1) ≤ offset + size

namespace AuxvProcess

variable (abi : Abi) (seccomp : Bool) (A : KernelAuxv (sizeofWord host abi))
  (files : List AuxvFile) (p : AuxvProcess host)

/-- The file of a descriptor. -/
def fileOf (fd : Int) : Option AuxvFile := (p.fds fd).bind fun id => files[id]?

/-- The exit stage of a call with that descriptor looks for the vector. -/
def Looks (fd : Int) : Prop :=
  p.tracee.seesExit seccomp = true ∧ 0 ≤ fd ∧ p.tracee.auxvFd = fd

/-- A call that does not go wrong. -/
def Careful : AuxvCall → Prop
  | .opens path (.ok (_, isAuxv)) => path = procSelfAuxv → isAuxv = true
  | .dup2 oldFd (.ok fd) =>
      p.tracee.auxvFd = fd → ∃ file, p.fileOf files oldFd = some file ∧ file.isAuxv = true
  | .closeRange first last => ¬ (first ≤ p.tracee.auxvFd ∧ p.tracee.auxvFd ≤ last)
  | .read regs (.ok data) =>
      ∀ file, p.fileOf files (fdArg host abi regs.arg1) = some file → file.isAuxv = true →
        (p.Looks seccomp (fdArg host abi regs.arg1) →
          data.length < 2 * sizeofWord host abi ∨ 2 * sizeofWord host abi ∣ file.offset) ∧
        (TouchesExecfn (sizeofWord host abi) A.vectors file.offset data.length →
          p.Looks seccomp (fdArg host abi regs.arg1) ∧
            CoversExecfn (sizeofWord host abi) A.vectors file.offset data.length)
  | .read regs (.error _) =>
      p.Looks seccomp (fdArg host abi regs.arg1) → is32on64Mode host abi = false
  | .prctl regs (.ok ()) =>
      TouchesExecfn (sizeofWord host abi) A.vectors 0
          (sysarg abi regs.arg3 : Address host).toNat →
        peek host abi regs.arg1 = prGetAuxv ∧
          A.saved ≤ (sysarg abi regs.arg3 : Address host).toNat
  | _ => True

/-- The descriptor that PRoot remembers is one of the vector. -/
def Tracks : Prop :=
  0 ≤ p.tracee.auxvFd →
    ∃ file, p.fileOf files p.tracee.auxvFd = some file ∧ file.isAuxv = true

end AuxvProcess

namespace AuxvSys

variable (abi : Abi) (seccomp : Bool) (A : KernelAuxv (sizeofWord host abi)) (s : AuxvSys host)

/-- Programs that have just been started, with that `execfn_addr`. -/
def Started (execfn : Address host) : Prop :=
  execfn ≠ 0 ∧ ∀ pid p, s.processes pid = some p →
    p.tracee.execfnAddr = execfn ∧ p.tracee.auxvFd = -1

/-- Calls of processes, none of which goes wrong. -/
inductive CarefulRun : AuxvSys host → AuxvSys host → Prop
  | refl (s : AuxvSys host) : CarefulRun s s
  | call {s s' s'' : AuxvSys host} {pid : Nat} {p : AuxvProcess host} {call : AuxvCall}
      {result : Except Errno Nat} (run : CarefulRun s s') (process : s'.processes pid = some p)
      (careful : p.Careful abi seccomp A s'.files call)
      (step : s'.step abi A.vectors A.saved seccomp pid call = some (s'', result)) :
      CarefulRun s s''

/-- **The vector is patched exactly:** all memory and the result are as a kernel leaves them that
has `execfn_addr` for the value of `AT_EXECFN`. -/
def PatchedExactly (execfn : Address host) (pid : Nat) (call : AuxvCall) (s' : AuxvSys host)
    (result : Except Errno Nat) : Prop :=
  ∃ t, s.untraced abi (A.vectors.map (·.withExecfn execfn.toNat)) A.saved pid call =
      some (t, result) ∧
    ∀ other, (s'.processes other).map (·.memory) = (t.processes other).map (·.memory)

end AuxvSys

/-! ## Bytes of the vector -/

section

variable {w execfn : Nat} {vector : ElfAuxVector} {auxv : List ElfAuxVector}

theorem auxvBytes_cons : auxvBytes w (vector :: auxv) =
    wordBytes w vector.type ++ (wordBytes w vector.value ++ auxvBytes w auxv) := by
  unfold auxvBytes auxvWords
  rw [List.flatMap_cons, List.append_assoc, List.flatMap_append, List.flatMap_cons,
    List.flatMap_cons, List.flatMap_nil, List.append_nil, List.append_assoc]

theorem auxvBytes_length : (auxvBytes w auxv).length = 2 * w * (auxv.length + 1) := by
  induction auxv with
  | nil =>
      change (wordBytes w 0 ++ (wordBytes w 0 ++ [])).length = _
      simp only [List.length_append, wordBytes_length, List.length_nil]
      omega
  | cons vector auxv ih =>
      rw [auxvBytes_cons, List.length_append, List.length_append, wordBytes_length,
        wordBytes_length, ih, List.length_cons, Nat.mul_add _ (auxv.length + 1)]
      omega

theorem withExecfn_type : (vector.withExecfn execfn).type = vector.type := by
  unfold ElfAuxVector.withExecfn
  split <;> rfl

theorem withExecfn_other (h : vector.type ≠ atExecfn) : vector.withExecfn execfn = vector :=
  if_neg h

theorem ExecfnAt.cons {i : Nat} (h : ExecfnAt auxv i) : ExecfnAt (vector :: auxv) (i + 1) := by
  obtain ⟨found, hfound, htype⟩ := h
  exact ⟨found, by rwa [List.getElem?_cons_succ], htype⟩

/-- Bytes that are not of the value of `AT_EXECFN` stay. -/
theorem auxvBytes_other {k : Nat}
    (h : ∀ i, ExecfnAt auxv i → k < 2 * w * i + w ∨ 2 * w * (i + 1) ≤ k) :
    (auxvBytes w (auxv.map (·.withExecfn execfn)))[k]? = (auxvBytes w auxv)[k]? := by
  induction auxv generalizing k with
  | nil => rfl
  | cons vector auxv ih =>
      rw [List.map_cons, auxvBytes_cons, auxvBytes_cons, withExecfn_type]
      simp only [List.getElem?_append, wordBytes_length]
      by_cases hfirst : k < w
      · rw [if_pos hfirst, if_pos hfirst]
      · rw [if_neg hfirst, if_neg hfirst]
        by_cases hsecond : k - w < w
        · have hother : vector.type ≠ atExecfn := by
            intro htype
            have := h 0 ⟨vector, rfl, htype⟩
            omega
          rw [if_pos hsecond, if_pos hsecond, withExecfn_other hother]
        · rw [if_neg hsecond, if_neg hsecond]
          apply ih
          intro i hi
          have hnext := h (i + 1) hi.cons
          simp only [Nat.mul_add] at hnext ⊢
          omega

theorem patched_length :
    (auxvBytes w (auxv.map (·.withExecfn execfn))).length = (auxvBytes w auxv).length := by
  rw [auxvBytes_length, auxvBytes_length, List.length_map]

/-- What is read apart from the value of `AT_EXECFN` is not to be patched. -/
theorem auxvBytes_untouched {offset size : Nat} (h : ¬ TouchesExecfn w auxv offset size)
    (tail : Bytes) :
    ((auxvBytes w (auxv.map (·.withExecfn execfn)) ++ tail).drop offset).take size =
      ((auxvBytes w auxv ++ tail).drop offset).take size := by
  apply List.ext_getElem?
  intro k
  rw [List.getElem?_take, List.getElem?_take, List.getElem?_drop, List.getElem?_drop,
    List.getElem?_append, List.getElem?_append, patched_length]
  by_cases hk : k < size
  · have hother : (auxvBytes w (auxv.map (·.withExecfn execfn)))[offset + k]? =
        (auxvBytes w auxv)[offset + k]? := by
      apply auxvBytes_other
      intro i hi
      by_contra hin
      exact h ⟨i, hi, by omega, by omega⟩
    rw [if_pos hk, if_pos hk, hother]
  · rw [if_neg hk, if_neg hk]

end

/-! ## The loop -/

section

variable {m : Space host} {a buf execfn : Address host} {w : Nat} {auxv : List ElfAuxVector}

/-- An address in a range of a user has no tag that could change. -/
theorem UserRange.untag_plus {size i : Nat} (h : UserRange a size) (hi : i < size) :
    untagPointer host (a.plus i) = (untagPointer host a).plus i := by
  unfold UserRange at h
  apply BitVec.eq_of_toNat_eq
  rw [BitVec.toNat_add, untagPointer_toNat, BitVec.toNat_add, BitVec.toNat_ofNat]
  rw [untagPointer_toNat] at h ⊢
  have hlt := a.isLt
  cases host with
  | ARCH_ARM64 =>
      rw [if_pos rfl] at h ⊢
      rw [if_pos rfl]
      change _ ≤ 2 ^ 56 at h
      change a.toNat < 2 ^ 64 at hlt
      change (a.toNat + i % 2 ^ 64) % 2 ^ 64 % 2 ^ 56 = (a.toNat % 2 ^ 56 + i % 2 ^ 64) % 2 ^ 64
      omega
  | _ =>
      rw [if_neg (by decide)] at h ⊢
      rw [if_neg (by decide)]

theorem UserRange.size_le {size : Nat} (h : UserRange a size) : size ≤ 2 ^ (8 * host.word) := by
  unfold UserRange at h
  have hle : 2 ^ min 56 (8 * host.word) ≤ 2 ^ (8 * host.word) :=
    Nat.pow_le_pow_right (by decide) (Nat.min_le_right _ _)
  omega

theorem withExecfn_none {value : Nat} (h : ∀ vector ∈ auxv, vector.type ≠ atExecfn) :
    auxv.map (·.withExecfn value) = auxv := by
  calc auxv.map (·.withExecfn value) = auxv.map id :=
        List.map_congr_left fun vector hvector => withExecfn_other (h vector hvector)
    _ = auxv := List.map_id auxv

/-- What is read that has the first entry whole. -/
theorem auxvBytes_take {vector : ElfAuxVector} {rest : Nat} {tail : Bytes} :
    (auxvBytes w (vector :: auxv) ++ tail).take (2 * w + rest) =
      wordBytes w vector.type ++
        (wordBytes w vector.value ++ (auxvBytes w auxv ++ tail).take rest) := by
  have hentry : (wordBytes w vector.type ++ wordBytes w vector.value).length = 2 * w := by
    rw [List.length_append, wordBytes_length, wordBytes_length, Nat.two_mul]
  rw [auxvBytes_cons, ← List.append_assoc, List.append_assoc _ _ tail, ← hentry,
    List.take_length_add_append, List.append_assoc]

/-- **The loop patches what it is to patch**, if it starts at an entry, and no part of the value
of `AT_EXECFN` is in the buffer without the whole entry. -/
theorem scan_patches (hw : 0 < w) (htype : ∀ vector ∈ auxv, vector.type ≠ 0)
    (hwords : ∀ vector ∈ auxv, vector.type < 256 ^ w)
    (honce : (auxv.filter (·.type = atExecfn)).length ≤ 1) {total offset size : Nat}
    {tail : Bytes} (huser : UserRange buf total) (htotal : offset + size ≤ total)
    (hload : m.load ((untagPointer host buf).plus offset) size =
      some ((auxvBytes w auxv ++ tail).take size))
    (hcut : ∀ i, ExecfnAt auxv i → 2 * w * (i + 1) ≤ size ∨ size ≤ 2 * w * i + w) :
    m.store ((untagPointer host buf).plus offset)
        ((auxvBytes w (auxv.map (·.withExecfn execfn.toNat)) ++ tail).take size) =
      some (scanAuxv w execfn m buf (size / (2 * w)) offset) := by
  have hspace := huser.size_le
  induction auxv generalizing offset size with
  | nil =>
      have hlength := AddressSpace.load_length hload
      have hsame := AddressSpace.store_self (show m.load ((untagPointer host buf).plus offset)
          ((auxvBytes w [] ++ tail).take size).length = some ((auxvBytes w [] ++ tail).take size) by
        rwa [hlength])
      rw [List.map_nil, hsame]
      congr 1
      cases hentries : size / (2 * w) with
      | zero => rfl
      | succ entries =>
          have hsize : 2 * w ≤ size := by
            by_contra hshort
            rw [Nat.div_eq_of_lt (Nat.not_le.mp hshort)] at hentries
            cases hentries
          have hpeek : m.load ((untagPointer host buf).plus offset) w = some (wordBytes w 0) := by
            rw [AddressSpace.load_take hload (by omega), List.take_take, Nat.min_eq_left (by omega)]
            exact congrArg some (by
              change ((wordBytes w 0 ++ _) ++ tail).take w = _
              rw [List.append_assoc, List.take_left' (wordBytes_length w 0)])
          unfold scanAuxv peekWordAt
          rw [huser.untag_plus (by omega), hpeek, Option.map_some, littleEndian_wordBytes]
          simp
  | cons vector auxv ih =>
      by_cases hshort : size < 2 * w
      · rw [Nat.div_eq_of_lt hshort]
        have huntouched : ¬ TouchesExecfn w (vector :: auxv) 0 size := by
          rintro ⟨i, hi, -, htouch⟩
          rcases hcut i hi with hcut | hcut
          · have hle := Nat.le_mul_of_pos_right (2 * w) (Nat.succ_pos i)
            exact absurd (Nat.le_trans hle hcut) (Nat.not_le.mpr hshort)
          · omega
        have hsame := @auxvBytes_untouched w execfn.toNat (vector :: auxv) 0 size huntouched tail
        rw [List.drop_zero, List.drop_zero] at hsame
        rw [hsame]
        exact AddressSpace.store_self (by rw [AddressSpace.load_length hload]; exact hload)
      · obtain ⟨rest, rfl⟩ := Nat.exists_eq_add_of_le (Nat.not_lt.mp hshort)
        rw [List.map_cons, auxvBytes_take, withExecfn_type]
        rw [auxvBytes_take] at hload
        have htypeLength := wordBytes_length w vector.type
        have hvalueLength := wordBytes_length w vector.value
        have hlength := AddressSpace.load_length hload
        have hfirst : m.load ((untagPointer host buf).plus offset) w =
            some (wordBytes w vector.type) := by
          rw [AddressSpace.load_take hload (by omega), List.take_left' htypeLength]
        have hbehind : m.load ((untagPointer host buf).plus (offset + w)) (w + rest) =
            some (wordBytes w vector.value ++ (auxvBytes w auxv ++ tail).take rest) := by
          have hdrop := AddressSpace.load_drop hload (show w ≤ 2 * w + rest by omega)
          rwa [AddressSpace.add_offset, List.drop_left' htypeLength,
            show 2 * w + rest - w = w + rest by omega] at hdrop
        have hrest : m.load ((untagPointer host buf).plus (offset + 2 * w)) rest =
            some ((auxvBytes w auxv ++ tail).take rest) := by
          have hdrop := AddressSpace.load_drop hbehind (Nat.le_add_right w rest)
          rwa [AddressSpace.add_offset, List.drop_left' hvalueLength, Nat.add_sub_cancel_left,
            Nat.add_assoc, ← Nat.two_mul] at hdrop
        rw [Nat.add_comm (2 * w) rest, Nat.add_div_right _ (by omega)]
        unfold scanAuxv peekWordAt
        rw [huser.untag_plus (by omega), hfirst, Option.map_some, littleEndian_wordBytes,
          Nat.mod_eq_of_lt (hwords vector List.mem_cons_self)]
        dsimp only
        rw [if_neg (htype vector List.mem_cons_self)]
        by_cases hexecfn : vector.type = atExecfn
        · -- the value is replaced, and no other entry is of that type
          have hothers : ∀ other ∈ auxv, other.type ≠ atExecfn := by
            intro other hother hothertype
            rw [List.filter_cons_of_pos (by simpa using hexecfn), List.length_cons] at honce
            have hmem : other ∈ auxv.filter (·.type = atExecfn) :=
              List.mem_filter.mpr ⟨hother, by simpa using hothertype⟩
            have := List.length_pos_of_mem hmem
            omega
          have hnew : vector.withExecfn execfn.toNat = { vector with value := execfn.toNat } :=
            if_pos hexecfn
          rw [if_pos hexecfn, huser.untag_plus (show offset + w < total by omega), hnew,
            withExecfn_none hothers]
          obtain ⟨m', hpoke⟩ := @pokeWordAt_isSome host w m
            ((untagPointer host buf).plus (offset + w)) execfn.toNat
            (by rw [AddressSpace.load_take hbehind (Nat.le_add_right w rest)]; rfl)
          have hwithin := @AddressSpace.store_within _ m _ _ (wordBytes w execfn.toNat) _ w hload
            (by rw [wordBytes_length]; omega) (by omega)
          rw [List.take_left' htypeLength, wordBytes_length, ← List.drop_drop,
            List.drop_left' htypeLength, List.drop_left' hvalueLength, List.append_assoc,
            AddressSpace.add_offset] at hwithin
          rw [hwithin, hpoke]
          exact hpoke
        · rw [if_neg hexecfn, withExecfn_other hexecfn]
          have hnext := @ih (fun other h => htype other (List.mem_cons_of_mem _ h))
            (fun other h => hwords other (List.mem_cons_of_mem _ h))
            (by rwa [List.filter_cons_of_neg (by simpa using hexecfn)] at honce)
            (offset + 2 * w) rest (by omega) hrest (by
              intro i hi
              have hcut := hcut (i + 1) hi.cons
              simp only [Nat.mul_add] at hcut ⊢
              omega)
          have hentry : (wordBytes w vector.type ++ wordBytes w vector.value).length = 2 * w := by
            rw [List.length_append, wordBytes_length, wordBytes_length, Nat.two_mul]
          have hsize : ((auxvBytes w (auxv.map (·.withExecfn execfn.toNat)) ++
              tail).take rest).length = rest := by
            have hold := AddressSpace.load_length hrest
            rwa [List.length_take, List.length_append, patched_length, ← List.length_append,
              ← List.length_take]
          have hwithin := AddressSpace.store_within hload
            (show 2 * w + _ ≤ 2 * w + rest from Nat.add_le_add_left (Nat.le_of_eq hsize) _)
            (by omega)
          rw [← List.append_assoc, List.take_left' hentry, hsize,
            List.drop_eq_nil_of_le (Nat.le_of_eq (by rw [List.append_assoc, hlength])),
            List.append_nil, List.append_assoc, AddressSpace.add_offset] at hwithin
          rw [hwithin, hnext]

end

/-! ## Results in registers -/

section

variable {abi : Abi}

theorem toInt_ofNat_small {k n : Nat} (hn : 2 * n < 2 ^ k) : (BitVec.ofNat k n).toInt = n := by
  have hsmall : (BitVec.ofNat k n).toNat = n := by
    rw [BitVec.toNat_ofNat, Nat.mod_eq_of_lt (by omega)]
  rw [BitVec.toInt_eq_toNat_of_lt (by rwa [hsmall]), hsmall]

theorem statusWord_ok {n : Nat} (hn : n < 2 ^ 31) :
    statusWord (.ok (BitVec.ofNat 32 n)) = BitVec.ofNat 64 n := by
  apply BitVec.eq_of_toInt_eq
  unfold statusWord
  dsimp only
  rw [BitVec.toInt_signExtend_of_le (by decide), toInt_ofNat_small (by omega),
    toInt_ofNat_small (by omega)]

theorem fdArg_ofNat {n : Nat} (hn : n < 2 ^ 31) : fdArg host abi (BitVec.ofNat 64 n) = n := by
  unfold fdArg
  rw [peek_setWidth (Nat.le_refl 32), BitVec.setWidth_ofNat_of_le (by decide),
    toInt_ofNat_small (by omega)]

theorem sysarg_ofNat {n : Nat} (hn : n < 2 ^ 31) :
    (sysarg abi (BitVec.ofNat 64 n) : Address host).toNat = n := by
  have hword : 2 ^ 31 ≤ 2 ^ (8 * host.word) := by cases host <;> decide
  unfold sysarg
  rw [peek_small (by rw [BitVec.toNat_ofNat]; omega), BitVec.toNat_setWidth, BitVec.toNat_ofNat,
    Nat.mod_eq_of_lt (show n < 2 ^ 64 by omega), Nat.mod_eq_of_lt (Nat.lt_of_lt_of_le hn hword)]

theorem Errno.code_range (status : Errno) : 0 < status.code ∧ status.code < 4096 := by
  cases status <;> decide

theorem fdArg_error (status : Errno) : fdArg host abi (statusWord (.error status)) < 0 := by
  have hcode := status.code_range
  unfold fdArg statusWord
  dsimp only
  rw [peek_setWidth (Nat.le_refl 32), BitVec.toInt_neg_iff, BitVec.toNat_setWidth,
    BitVec.toNat_neg, BitVec.toNat_ofNat]
  omega

/-- A failure is seen, but where a word of the tracee is half a word of PRoot. -/
theorem sysarg_error (h : is32on64Mode host abi = false) (status : Errno) :
    (sysarg abi (statusWord (.error status)) : Address host).toInt < 0 := by
  have hcode := status.code_range
  have hwide : sizeofWord host abi = host.word := by
    unfold sizeofWord
    rw [h]
    rfl
  unfold sysarg statusWord
  dsimp only
  rw [BitVec.toInt_neg_iff, BitVec.toNat_setWidth]
  by_cases hfour : sizeofWord host abi = 4
  · unfold peek
    rw [if_pos hfour, and_low, show host.word = 4 by omega, BitVec.toNat_neg, BitVec.toNat_ofNat]
    omega
  · have hword : host.word = 4 ∨ host.word = 8 := by cases host <;> decide
    unfold peek
    rw [if_neg hfour, show host.word = 8 by omega, BitVec.toNat_neg, BitVec.toNat_ofNat]
    omega

end

/-! ## One call -/

section

variable {abi : Abi} {seccomp : Bool} {A : KernelAuxv (sizeofWord host abi)} {saved : Nat}
  {auxv : List ElfAuxVector} {files files' : List AuxvFile} {p p' : AuxvProcess host}
  {call : AuxvCall} {result : Except Errno Nat} {regs : SyscallRegs} {execfn : Address host}
  {m m' : Space host}

variable {answer : Except Errno Unit}

theorem enter_prctl {t : AuxvTracee host} (h : peek host abi regs.arg1 = prGetAuxv) :
    t.enter abi (.prctl regs answer) = { t with sysexitPending := true } :=
  if_pos h

theorem enter_execfnAddr (abi : Abi) (t : AuxvTracee host) (call : AuxvCall) :
    (t.enter abi call).execfnAddr = t.execfnAddr := by
  cases call <;> dsimp only [AuxvTracee.enter] <;> split_ifs <;> rfl

theorem leave_unseen (h : p.tracee.seesExit seccomp = false) :
    p.leave abi seccomp result call = p := by
  unfold AuxvProcess.leave
  rw [h]
  rfl

/-- Only `read` and `prctl` change memory when they are left. -/
theorem leave_memory (hread : ∀ regs answer, call ≠ .read regs answer)
    (hprctl : ∀ regs answer, call ≠ .prctl regs answer) :
    (p.leave abi seccomp result call).memory = p.memory := by
  cases hsees : p.tracee.seesExit seccomp with
  | false => rw [leave_unseen hsees]
  | true =>
      unfold AuxvProcess.leave
      rw [if_pos hsees]
      cases call with
      | read regs answer => exact absurd rfl (hread regs answer)
      | prctl regs answer => exact absurd rfl (hprctl regs answer)
      | opens path answer =>
          dsimp only [AuxvTracee.exit]
          split_ifs <;> rfl
      | _ => rfl

/-- A `read` that looks for the vector scans what was read. -/
theorem leave_looks {n : Nat} {answer : Except Errno Bytes} (hn : n < 2 ^ 31)
    (hexecfn : p.tracee.execfnAddr = execfn) (hne : execfn ≠ 0)
    (hlooks : p.Looks seccomp (fdArg host abi regs.arg1)) :
    (p.leave abi seccomp (.ok n) (.read regs answer)).memory =
      scanAuxv (sizeofWord host abi) execfn p.memory (sysarg abi regs.arg2)
        (n / (2 * sizeofWord host abi)) 0 := by
  obtain ⟨hsees, hfd, hsame⟩ := hlooks
  have hresult := @sysarg_ofNat host abi n hn
  unfold AuxvProcess.leave
  rw [if_pos hsees]
  dsimp only [AuxvTracee.exit, Except.map]
  rw [statusWord_ok hn, hsame, hexecfn, if_neg (by rintro (h | h); exacts [by omega, hne h])]
  by_cases hzero : n = 0
  · rw [if_pos (.inl (BitVec.eq_of_toNat_eq (by rw [hresult, hzero]; rfl))), hzero, Nat.zero_div]
    rfl
  · have hpos : ¬ ((sysarg abi (BitVec.ofNat 64 n) : Address host) = 0 ∨
        (sysarg abi (BitVec.ofNat 64 n) : Address host).toInt < 0) := by
      have hword : 2 ^ 32 ≤ 2 ^ (8 * host.word) := by cases host <;> decide
      rintro (h | h)
      · rw [h] at hresult
        exact hzero hresult.symm
      · rw [BitVec.toInt_neg_iff, hresult] at h
        omega
    rw [if_neg hpos, if_neg (by simp), hresult]

/-- Any other one leaves what was read. -/
theorem leave_read (hlooks : ¬ p.Looks seccomp (fdArg host abi regs.arg1))
    {answer : Except Errno Bytes} :
    (p.leave abi seccomp result (.read regs answer)).memory = p.memory := by
  cases hsees : p.tracee.seesExit seccomp with
  | false => rw [leave_unseen hsees]
  | true =>
      unfold AuxvProcess.leave
      rw [if_pos hsees]
      dsimp only [AuxvTracee.exit]
      split_ifs with hnone hempty hother
      · rfl
      · rfl
      · rfl
      · refine absurd ⟨hsees, ?_, (not_not.mp hother).symm⟩ hlooks
        rw [not_not.mp hother]
        exact Int.not_lt.mp fun h => hnone (.inl h)

/-- A `read` that fails leaves the memory, where the failure is seen. -/
theorem leave_read_error {status : Errno} {answer : Except Errno Bytes}
    (h : p.Looks seccomp (fdArg host abi regs.arg1) → is32on64Mode host abi = false) :
    (p.leave abi seccomp (.error status) (.read regs answer)).memory = p.memory := by
  by_cases hlooks : p.Looks seccomp (fdArg host abi regs.arg1)
  · unfold AuxvProcess.leave
    rw [if_pos hlooks.1]
    dsimp only [AuxvTracee.exit, Except.map]
    split_ifs with hnone hempty hother
    · rfl
    · rfl
    · rfl
    · exact absurd (.inr (sysarg_error (h hlooks) status)) hempty
  · exact leave_read hlooks

/-- What the kernel reads is not changed by what PRoot knows. -/
theorem auxvKernel_tracee (t : AuxvTracee host) :
    auxvKernel abi auxv saved files { p with tracee := t } call =
      (auxvKernel abi auxv saved files p call).map fun outcome =>
        { outcome with process := { outcome.process with tracee := t } } := by
  have hnew : ∀ fd file, ({ p with tracee := t } : AuxvProcess host).newFd fd file =
      (p.newFd fd file).map fun p => { p with tracee := t } := by
    intro fd file
    unfold AuxvProcess.newFd
    dsimp only
    split_ifs <;> rfl
  have hcopy : ∀ buf bytes, ({ p with tracee := t } : AuxvProcess host).copyToUser buf bytes =
      (p.copyToUser buf bytes).map fun p => { p with tracee := t } := by
    intro buf bytes
    unfold AuxvProcess.copyToUser
    split_ifs
    · rw [Option.map_map, Function.comp_def]
    · rfl
  cases call with
  | opens path answer =>
      obtain status | ⟨fd, isAuxv⟩ := answer
      · rfl
      · dsimp only [auxvKernel]
        rw [hnew, Option.map_map, Option.map_map]
        rfl
  | dup oldFd answer =>
      obtain status | fd := answer
      · rfl
      · dsimp only [auxvKernel]
        cases p.fds oldFd with
        | none => rfl
        | some file =>
            rw [Option.bind_some, Option.bind_some, hnew, Option.map_map, Option.map_map]
            rfl
  | dup2 oldFd answer =>
      obtain status | fd := answer
      · rfl
      · dsimp only [auxvKernel]
        rw [Option.map_map]
        rfl
  | fork answer => cases answer <;> rfl
  | close regs => rfl
  | closeRange first last => rfl
  | read regs answer =>
      obtain status | data := answer
      · rfl
      · dsimp only [auxvKernel]
        cases p.fds (fdArg host abi regs.arg1) with
        | none => rfl
        | some id =>
            rw [Option.bind_some, Option.bind_some]
            cases files[id]? with
            | none => rfl
            | some file =>
                rw [Option.bind_some, Option.bind_some, hcopy]
                split_ifs
                · rw [Option.map_map, Option.map_map]
                  rfl
                · rfl
                · rw [Option.map_map, Option.map_map]
                  rfl
                · rfl
  | prctl regs answer =>
      obtain status | ⟨⟩ := answer
      · rfl
      · dsimp only [auxvKernel]
        rw [hcopy]
        split_ifs
        · rw [Option.map_map, Option.map_map]
          rfl
        · rfl

theorem copyToUser_eq_some_iff {buf : Address host} {bytes : Bytes} :
    p.copyToUser buf bytes = some p' ↔ UserRange buf bytes.length ∧
      ∃ memory, p.memory.store (untagPointer host buf) bytes = some memory ∧
        p' = { p with memory } := by
  unfold AuxvProcess.copyToUser
  rw [Option.ite_none_right_eq_some, Option.map_eq_some_iff]
  simp only [eq_comm]

/-- The vector from an entry on. -/
theorem auxvBytes_drop {w j : Nat} (hj : j ≤ auxv.length) :
    (auxvBytes w auxv).drop (2 * w * j) = auxvBytes w (auxv.drop j) := by
  induction auxv generalizing j with
  | nil =>
      obtain rfl := Nat.le_zero.mp hj
      rw [Nat.mul_zero, List.drop_zero, List.drop_zero]
  | cons vector auxv ih =>
      cases j with
      | zero => rw [Nat.mul_zero, List.drop_zero, List.drop_zero]
      | succ j =>
          have hentry : (wordBytes w vector.type ++ wordBytes w vector.value).length = 2 * w := by
            rw [List.length_append, wordBytes_length, wordBytes_length, Nat.two_mul]
          rw [auxvBytes_cons, ← List.append_assoc, Nat.mul_succ, Nat.add_comm, ← List.drop_drop,
            List.drop_left' hentry, ih (Nat.le_of_succ_le_succ hj), List.drop_succ_cons]

theorem KernelAuxv.type_lt {w : Nat} (A : KernelAuxv w) {vector : ElfAuxVector}
    (h : vector ∈ A.vectors) : vector.type < 256 ^ w := by
  apply A.words
  unfold auxvWords
  exact List.mem_append_left _ (List.mem_flatMap.mpr ⟨vector, h, List.mem_cons_self⟩)

/-- **What is read from an entry on is patched,** if it has the whole entry of `AT_EXECFN` or no
part of its value. -/
theorem scan_exact {w : Nat} (hw : 0 < w) (A : KernelAuxv w) {buf : Address host} {j size : Nat}
    {tail : Bytes} (hj : j ≤ A.vectors.length) (huser : UserRange buf size)
    (hstore : m.store (untagPointer host buf)
      (((auxvBytes w A.vectors ++ tail).drop (2 * w * j)).take size) = some m')
    (hlength : (((auxvBytes w A.vectors ++ tail).drop (2 * w * j)).take size).length = size)
    (hcovers : TouchesExecfn w A.vectors (2 * w * j) size →
      CoversExecfn w A.vectors (2 * w * j) size) :
    m.store (untagPointer host buf)
        (((auxvBytes w (A.vectors.map (·.withExecfn execfn.toNat)) ++ tail).drop
          (2 * w * j)).take size) =
      some (scanAuxv w execfn m' buf (size / (2 * w)) 0) := by
  have hend : 2 * w * j ≤ (auxvBytes w A.vectors).length := by
    rw [auxvBytes_length]
    exact Nat.mul_le_mul_left _ (by omega)
  have hplain : (auxvBytes w A.vectors ++ tail).drop (2 * w * j) =
      auxvBytes w (A.vectors.drop j) ++ tail := by
    rw [List.drop_append_of_le_length hend, auxvBytes_drop hj]
  have hpatched : (auxvBytes w (A.vectors.map (·.withExecfn execfn.toNat)) ++ tail).drop
      (2 * w * j) = auxvBytes w ((A.vectors.drop j).map (·.withExecfn execfn.toNat)) ++ tail := by
    rw [List.drop_append_of_le_length (by rwa [patched_length]),
      auxvBytes_drop (by rwa [List.length_map]), List.map_drop]
  rw [hplain] at hstore hlength
  rw [hpatched]
  have hpatchedLength :
      ((auxvBytes w ((A.vectors.drop j).map (·.withExecfn execfn.toNat)) ++
        tail).take size).length = ((auxvBytes w (A.vectors.drop j) ++ tail).take size).length := by
    rw [List.length_take, List.length_take, List.length_append, List.length_append, patched_length]
  have hload := AddressSpace.load_store hstore (by rw [hlength]; exact huser.size_le)
  rw [hlength, ← BitVec.add_zero (untagPointer host buf)] at hload
  rw [← AddressSpace.store_again hstore hpatchedLength]
  have hcut : ∀ i, ExecfnAt (A.vectors.drop j) i →
      2 * w * (i + 1) ≤ size ∨ size ≤ 2 * w * i + w := by
    rintro i ⟨vector, hvector, htype⟩
    rw [List.getElem?_drop] at hvector
    have hat : ExecfnAt A.vectors (j + i) := ⟨vector, hvector, htype⟩
    by_cases htouches : size ≤ 2 * w * i + w
    · exact .inr htouches
    · have hcovered := hcovers ⟨j + i, hat, by simp only [Nat.mul_add]; omega,
        by rw [Nat.mul_add]; omega⟩ (j + i) hat
      simp only [Nat.mul_add] at hcovered ⊢
      exact .inl (by omega)
  have hscan := @scan_patches host m' buf execfn w (A.vectors.drop j) hw
    (fun vector h => A.type_ne vector (List.mem_of_mem_drop h))
    (fun vector h => A.type_lt (List.mem_of_mem_drop h))
    (Nat.le_trans (((List.drop_sublist j A.vectors).filter _).length_le) A.once) size 0 size tail
    huser (by omega) hload hcut
  rwa [show (untagPointer host buf).plus 0 = untagPointer host buf from BitVec.add_zero _] at hscan

theorem zero_lt_sizeofWord : 0 < sizeofWord host abi := by
  cases host <;> cases abi <;> decide

/-- What is read from the vector is what is in memory in the end. -/
theorem read_auxv {file : AuxvFile} {n : Nat} {answer : Except Errno Bytes}
    (hexecfn : p'.tracee.execfnAddr = execfn) (hne : execfn ≠ 0) (hn : n < 2 ^ 31)
    (huser : UserRange (sysarg abi regs.arg2 : Address host) n)
    (hlength : (((auxvBytes (sizeofWord host abi) A.vectors).drop file.offset).take n).length = n)
    (hstore : m.store (untagPointer host (sysarg abi regs.arg2))
      (((auxvBytes (sizeofWord host abi) A.vectors).drop file.offset).take n) = some p'.memory)
    (hboundary : p'.Looks seccomp (fdArg host abi regs.arg1) →
      n < 2 * sizeofWord host abi ∨ 2 * sizeofWord host abi ∣ file.offset)
    (htouches : TouchesExecfn (sizeofWord host abi) A.vectors file.offset n →
      p'.Looks seccomp (fdArg host abi regs.arg1) ∧
        CoversExecfn (sizeofWord host abi) A.vectors file.offset n) :
    m.store (untagPointer host (sysarg abi regs.arg2))
        (((auxvBytes (sizeofWord host abi)
          (A.vectors.map (·.withExecfn execfn.toNat))).drop file.offset).take n) =
      some (p'.leave abi seccomp (.ok n) (.read regs answer)).memory := by
  have huntouched (h : ¬ TouchesExecfn (sizeofWord host abi) A.vectors file.offset n) :=
    @auxvBytes_untouched _ execfn.toNat _ _ _ h []
  simp only [List.append_nil] at huntouched
  by_cases hlooks : p'.Looks seccomp (fdArg host abi regs.arg1)
  · rw [leave_looks hn hexecfn hne hlooks]
    by_cases hshort : n < 2 * sizeofWord host abi
    · have hpart : ¬ TouchesExecfn (sizeofWord host abi) A.vectors file.offset n := by
        intro h
        obtain ⟨i, hi, -⟩ := id h
        have hcovers := (htouches h).2 i hi
        rw [Nat.mul_add] at hcovers
        omega
      rw [Nat.div_eq_of_lt hshort, huntouched hpart, hstore]
      rfl
    · obtain ⟨j, hj⟩ := (hboundary hlooks).resolve_left hshort
      have hend : j ≤ A.vectors.length := by
        have hpos := @zero_lt_sizeofWord host abi
        rw [List.length_take, List.length_drop, auxvBytes_length] at hlength
        by_contra hlater
        have hpast := Nat.mul_le_mul_left (2 * sizeofWord host abi) (Nat.not_le.mp hlater)
        rw [← hj] at hpast
        simp only [Nat.succ_eq_add_one] at hpast
        omega
      rw [hj] at hlength hstore htouches ⊢
      have hscan := @scan_exact host execfn m p'.memory _ zero_lt_sizeofWord A
        (sysarg abi regs.arg2) j n [] hend huser
      simp only [List.append_nil] at hscan
      exact hscan hstore hlength fun h => (htouches h).2
  · rw [leave_read hlooks, huntouched fun h => hlooks (htouches h).1, hstore]

/-- A `prctl` that is seen as one for the vector scans it, if there is room for all of it. -/
theorem leave_prctl_looks (hsaved : saved < 2 ^ 31) (hexecfn : p.tracee.execfnAddr = execfn)
    (hne : execfn ≠ 0) (hsees : p.tracee.seesExit seccomp = true)
    (hoption : peek host abi regs.arg1 = prGetAuxv)
    (hroom : saved ≤ (sysarg abi regs.arg3 : Address host).toNat) :
    (p.leave abi seccomp (.ok saved) (.prctl regs answer)).memory =
      scanAuxv (sizeofWord host abi) execfn p.memory (sysarg abi regs.arg2)
        (saved / (2 * sizeofWord host abi)) 0 := by
  have hresult := @sysarg_ofNat host abi saved hsaved
  unfold AuxvProcess.leave
  rw [if_pos hsees]
  dsimp only [AuxvTracee.exit, Except.map]
  have hfits : ¬ (sysarg abi regs.arg3 : Address host) < sysarg abi (BitVec.ofNat 64 saved) := by
    rw [BitVec.lt_def, hresult]
    exact Nat.not_lt.mpr hroom
  rw [statusWord_ok hsaved, if_neg (not_not.mpr hoption), fdArg_ofNat hsaved,
    if_neg (by omega), hexecfn, if_neg hne, if_neg hfits, hresult]

/-- Any other one leaves what the kernel has written. -/
theorem leave_prctl (hsaved : saved < 2 ^ 31) (h : ¬ (peek host abi regs.arg1 = prGetAuxv ∧
      saved ≤ (sysarg abi regs.arg3 : Address host).toNat)) :
    (p.leave abi seccomp (.ok saved) (.prctl regs answer)).memory = p.memory := by
  cases hsees : p.tracee.seesExit seccomp with
  | false => rw [leave_unseen hsees]
  | true =>
      unfold AuxvProcess.leave
      rw [if_pos hsees]
      dsimp only [AuxvTracee.exit, Except.map]
      rw [statusWord_ok hsaved]
      split_ifs with hoption hfails hnone hfits
      · rfl
      · rfl
      · rfl
      · rfl
      · refine absurd ⟨not_not.mp hoption, ?_⟩ h
        rw [BitVec.lt_def, sysarg_ofNat hsaved] at hfits
        exact Nat.not_lt.mp hfits

theorem leave_prctl_error {status : Errno} :
    (p.leave abi seccomp (.error status) (.prctl regs answer)).memory = p.memory := by
  cases hsees : p.tracee.seesExit seccomp with
  | false => rw [leave_unseen hsees]
  | true =>
      unfold AuxvProcess.leave
      rw [if_pos hsees]
      dsimp only [AuxvTracee.exit, Except.map]
      rw [if_pos (fdArg_error status)]
      split_ifs <;> rfl

/-- What `prctl` gives of the vector is what is in memory in the end. -/
theorem prctl_auxv (hexecfn : p'.tracee.execfnAddr = execfn) (hne : execfn ≠ 0)
    (hsees : peek host abi regs.arg1 = prGetAuxv → p'.tracee.seesExit seccomp = true) {size : Nat}
    (hsize : size = (sysarg abi regs.arg3 : Address host).toNat) {tail : Bytes}
    (htail : (auxvBytes (sizeofWord host abi) A.vectors ++ tail).length = A.saved)
    (huser : UserRange (sysarg abi regs.arg2 : Address host)
      ((auxvBytes (sizeofWord host abi) A.vectors ++ tail).take size).length)
    (hstore : m.store (untagPointer host (sysarg abi regs.arg2))
      ((auxvBytes (sizeofWord host abi) A.vectors ++ tail).take size) = some p'.memory)
    (htouches : TouchesExecfn (sizeofWord host abi) A.vectors 0 size →
      peek host abi regs.arg1 = prGetAuxv ∧ A.saved ≤ size) :
    m.store (untagPointer host (sysarg abi regs.arg2))
        ((auxvBytes (sizeofWord host abi) (A.vectors.map (·.withExecfn execfn.toNat)) ++
          tail).take size) =
      some (p'.leave abi seccomp (.ok A.saved) (.prctl regs answer)).memory := by
  by_cases hlooks : peek host abi regs.arg1 = prGetAuxv ∧ A.saved ≤ size
  · have hpatched : (auxvBytes (sizeofWord host abi)
        (A.vectors.map (·.withExecfn execfn.toNat)) ++ tail).length = A.saved := by
      rw [List.length_append, patched_length, ← List.length_append, htail]
    rw [leave_prctl_looks A.saved_lt hexecfn hne (hsees hlooks.1) hlooks.1 (hsize ▸ hlooks.2)]
    rw [List.take_of_length_le (by omega)] at huser hstore
    rw [List.take_of_length_le (by omega)]
    have hscan := @scan_exact host execfn m p'.memory _ zero_lt_sizeofWord A
      (sysarg abi regs.arg2) 0 A.saved tail (Nat.zero_le _) (by rwa [htail] at huser)
    rw [Nat.mul_zero, List.drop_zero, List.drop_zero, List.take_of_length_le (by omega),
      List.take_of_length_le (by omega)] at hscan
    refine hscan hstore htail fun _ i hi => ⟨Nat.zero_le _, ?_⟩
    obtain ⟨vector, hvector, -⟩ := hi
    have hlt := (List.getElem?_eq_some_iff.mp hvector).1
    have hle := Nat.mul_le_mul_left (2 * sizeofWord host abi) (Nat.succ_le_of_lt hlt)
    rw [List.length_append, auxvBytes_length, Nat.mul_add] at htail
    simp only [Nat.succ_eq_add_one] at hle
    omega
  · have huntouched := @auxvBytes_untouched _ execfn.toNat _ _ _
      (fun h => hlooks (htouches h)) tail
    rw [List.drop_zero, List.drop_zero] at huntouched
    rw [leave_prctl A.saved_lt (by rwa [← hsize]), huntouched, hstore]

variable {outcome : AuxvOutcome host}

theorem kernel_tracee (h : auxvKernel abi auxv saved files p call = some outcome) :
    outcome.process.tracee = p.tracee := by
  have hsame := @auxvKernel_tracee host abi saved auxv files p call p.tracee
  rw [h, Option.map_some] at hsame
  exact congrArg (fun outcome => outcome.process.tracee) (Option.some.inj hsame)

/-- The calls that neither read nor ask for the vector. -/
theorem auxvKernel_other (auxv other : List ElfAuxVector)
    (hread : ∀ regs answer, call ≠ .read regs answer)
    (hprctl : ∀ regs answer, call ≠ .prctl regs answer) :
    auxvKernel abi other saved files p call = auxvKernel abi auxv saved files p call := by
  cases call with
  | read regs answer => exact absurd rfl (hread regs answer)
  | prctl regs answer => exact absurd rfl (hprctl regs answer)
  | opens path answer => obtain status | ⟨fd, isAuxv⟩ := answer <;> rfl
  | dup oldFd answer => cases answer <;> rfl
  | dup2 oldFd answer => cases answer <;> rfl
  | fork answer => cases answer <;> rfl
  | _ => rfl

/-- **What a process gets is exact**, if the call does not go wrong. -/
theorem call_exact (hexecfn : p.tracee.execfnAddr = execfn) (hne : execfn ≠ 0)
    (htracks : p.Tracks files) (hcareful : p.Careful abi seccomp A files call)
    (hkernel : auxvKernel abi A.vectors A.saved files
      { p with tracee := p.tracee.enter abi call } call = some outcome) :
    auxvKernel abi (A.vectors.map (·.withExecfn execfn.toNat)) A.saved files p call =
      some { outcome with process := { outcome.process with
        tracee := p.tracee
        memory := (outcome.process.leave abi seccomp outcome.result call).memory } } := by
  have hplain : auxvKernel abi A.vectors A.saved files p call =
      some { outcome with process := { outcome.process with tracee := p.tracee } } := by
    have hback := @auxvKernel_tracee host abi A.saved A.vectors files
      { p with tracee := p.tracee.enter abi call } call p.tracee
    rw [hkernel, Option.map_some] at hback
    exact hback
  by_cases hother : (∀ regs answer, call ≠ .read regs answer) ∧
      ∀ regs answer, call ≠ .prctl regs answer
  · rw [auxvKernel_other A.vectors _ hother.1 hother.2, hplain, leave_memory hother.1 hother.2]
  · cases call with
    | read regs answer =>
        obtain status | data := answer
        · obtain rfl := Option.some.inj hkernel
          rw [leave_read_error (by exact hcareful)]
          rfl
        · dsimp only [auxvKernel] at hkernel ⊢
          obtain ⟨id, hid, hkernel⟩ := Option.bind_eq_some_iff.mp hkernel
          obtain ⟨file, hfile, hkernel⟩ := Option.bind_eq_some_iff.mp hkernel
          obtain ⟨⟨hlength, hlt, hcount⟩, hkernel⟩ := Option.ite_none_right_eq_some.mp hkernel
          obtain ⟨left, hcopy, rfl⟩ := Option.map_eq_some_iff.mp hkernel
          obtain ⟨huser, memory, hstore, rfl⟩ := copyToUser_eq_some_iff.mp hcopy
          have hof : p.fileOf files (fdArg host abi regs.arg1) = some file :=
            Option.bind_eq_some_iff.mpr ⟨id, hid, hfile⟩
          rw [show p.fds (fdArg host abi regs.arg1) = some id from hid, Option.bind_some, hfile,
            Option.bind_some]
          cases hauxv : file.isAuxv with
          | false =>
              have hlooks : ¬ p.Looks seccomp (fdArg host abi regs.arg1) := by
                rintro ⟨-, hfd, hsame⟩
                obtain ⟨tracked, htracked, hisAuxv⟩ := htracks (hsame ▸ hfd)
                rw [hsame, hof] at htracked
                rw [← Option.some.inj htracked, hauxv] at hisAuxv
                cases hisAuxv
              rw [hauxv] at hlength huser hstore
              rw [if_neg Bool.false_ne_true] at hlength huser hstore ⊢
              rw [if_pos ⟨hlength, hlt, hcount⟩, leave_read (by exact hlooks),
                copyToUser_eq_some_iff (p := p) |>.mpr ⟨huser, memory, hstore, rfl⟩]
              rfl
          | true =>
              obtain ⟨hboundary, htouches⟩ := hcareful file hof hauxv
              rw [hauxv] at hlength huser hstore
              rw [if_pos rfl] at hlength huser hstore ⊢
              have hpatched : ((((auxvBytes (sizeofWord host abi)
                  (A.vectors.map (·.withExecfn execfn.toNat))).drop file.offset).take
                    data.length).length) = data.length := by
                rwa [List.length_take, List.length_drop, patched_length, ← List.length_drop,
                  ← List.length_take]
              have hexact := @read_auxv host abi seccomp A { p with memory } regs execfn p.memory
                file data.length (.ok data) hexecfn hne hlt (by rwa [hlength] at huser) hlength
                hstore hboundary htouches
              rw [if_pos ⟨hpatched, hlt, hcount⟩, copyToUser_eq_some_iff (p := p) |>.mpr
                ⟨by rw [hpatched]; rwa [hlength] at huser, _, hexact, rfl⟩]
              rfl
    | prctl regs answer =>
        obtain status | ⟨⟩ := answer
        · obtain rfl := Option.some.inj hkernel
          rw [leave_prctl_error]
          rfl
        · dsimp only [auxvKernel] at hkernel ⊢
          obtain ⟨hoption, hkernel⟩ := Option.ite_none_right_eq_some.mp hkernel
          obtain ⟨left, hcopy, rfl⟩ := Option.map_eq_some_iff.mp hkernel
          obtain ⟨huser, memory, hstore, rfl⟩ := copyToUser_eq_some_iff.mp hcopy
          rw [if_pos hoption, patched_length]
          have hroom : (auxvBytes (sizeofWord host abi) A.vectors).length ≤ A.saved := by
            have h := A.room
            rwa [← rowBytes_length] at h
          have htail : (auxvBytes (sizeofWord host abi) A.vectors ++ List.replicate
              (A.saved - (auxvBytes (sizeofWord host abi) A.vectors).length) 0).length =
                A.saved := by
            rw [List.length_append, List.length_replicate]
            omega
          have hsees : peek host abi regs.arg1 = prGetAuxv →
              (p.tracee.enter abi (.prctl regs (.ok ()))).seesExit seccomp = true := by
            intro h
            rw [enter_prctl h]
            exact Bool.or_true _
          have hkept := (enter_execfnAddr abi p.tracee (.prctl regs (.ok ()))).trans hexecfn
          have hexact := @prctl_auxv host abi seccomp A
            { p with tracee := p.tracee.enter abi (.prctl regs (.ok ())), memory } regs execfn
            p.memory (.ok ()) hkept hne hsees _ rfl _ htail huser hstore hcareful
          rw [copyToUser_eq_some_iff (p := p) |>.mpr ⟨?_, _, hexact, rfl⟩]
          · rfl
          · rwa [List.length_take, List.length_append, patched_length, ← List.length_append,
              ← List.length_take]
    | _ => exact absurd ⟨nofun, nofun⟩ hother

/-! ## What PRoot remembers -/

/-- Open files stay what they are. -/
def FilesKept (files files' : List AuxvFile) : Prop :=
  ∀ (id : Nat) (file : AuxvFile), files[id]? = some file →
    ∃ file', files'[id]? = some file' ∧ file'.isAuxv = file.isAuxv

theorem FilesKept.refl (files : List AuxvFile) : FilesKept files files :=
  fun _ file h => ⟨file, h, rfl⟩

theorem FilesKept.append (files others : List AuxvFile) : FilesKept files (files ++ others) := by
  intro id file h
  have hlt := (List.getElem?_eq_some_iff.mp h).1
  exact ⟨file, by rwa [List.getElem?_append_left hlt], rfl⟩

theorem FilesKept.set {id : Nat} {file new : AuxvFile} (h : files[id]? = some file)
    (hnew : new.isAuxv = file.isAuxv) : FilesKept files (files.set id new) := by
  intro other old hold
  by_cases hsame : id = other
  · subst hsame
    obtain rfl := Option.some.inj (h.symm.trans hold)
    exact ⟨new, List.getElem?_set_self (List.getElem?_eq_some_iff.mp h).1, hnew⟩
  · exact ⟨old, by rwa [List.getElem?_set_ne hsame], rfl⟩

namespace AuxvProcess

theorem Tracks.kept (h : p.Tracks files) (hfiles : FilesKept files files') : p.Tracks files' := by
  intro hfd
  obtain ⟨file, hfile, hauxv⟩ := h hfd
  obtain ⟨id, hid, hfile⟩ := Option.bind_eq_some_iff.mp hfile
  obtain ⟨file', hfile', hsame⟩ := hfiles id file hfile
  exact ⟨file', Option.bind_eq_some_iff.mpr ⟨id, hid, hfile'⟩, hsame.trans hauxv⟩

/-- Another descriptor is made, replaced or closed. -/
theorem Tracks.setFd (h : p.Tracks files) {fd : Int} (hother : p.tracee.auxvFd ≠ fd)
    (file : Option Nat) : (p.setFd fd file).Tracks files := by
  intro hfd
  obtain ⟨tracked, htracked, hauxv⟩ := h hfd
  refine ⟨tracked, ?_, hauxv⟩
  unfold fileOf AuxvProcess.setFd
  dsimp only
  rwa [if_neg hother]

/-- A descriptor that is made is not the one that PRoot remembers. -/
theorem Tracks.newFd (h : p.Tracks files) {fd file : Nat} (hnew : p.newFd fd file = some p') :
    fd < 2 ^ 31 ∧ p' = p.setFd fd (some file) ∧ p'.Tracks files := by
  unfold AuxvProcess.newFd at hnew
  obtain ⟨⟨hlt, hfree⟩, hsome⟩ := Option.ite_none_right_eq_some.mp hnew
  obtain rfl := Option.some.inj hsome
  refine ⟨hlt, rfl, fun hfd => h.setFd ?_ _ hfd⟩
  intro hsame
  obtain ⟨tracked, htracked, -⟩ := h hfd
  obtain ⟨id, hid, -⟩ := Option.bind_eq_some_iff.mp htracked
  rw [show (p.setFd fd (some file)).tracee.auxvFd = p.tracee.auxvFd from rfl] at hfd
  rw [hsame, hfree] at hid
  cases hid

theorem Tracks.enter (h : p.Tracks files) (abi : Abi) (call : AuxvCall) :
    ({ p with tracee := p.tracee.enter abi call } : AuxvProcess host).Tracks files := by
  have hfd : (p.tracee.enter abi call).auxvFd = p.tracee.auxvFd ∨
      (p.tracee.enter abi call).auxvFd = -1 := by
    cases call <;> dsimp only [AuxvTracee.enter] <;>
      first | exact .inl rfl | (split_ifs <;> simp)
  intro hnonneg
  rcases hfd with hfd | hfd
  · dsimp only at hnonneg ⊢
    rw [hfd] at hnonneg ⊢
    exact h hnonneg
  · dsimp only at hnonneg
    rw [hfd] at hnonneg
    exact absurd hnonneg (by decide)

end AuxvProcess

/-- Only `open` and its kin make PRoot remember another descriptor. -/
theorem leave_auxvFd (hopens : ∀ path answer, call ≠ .opens path answer) :
    (p.leave abi seccomp result call).tracee.auxvFd = p.tracee.auxvFd := by
  unfold AuxvProcess.leave
  split_ifs
  · cases call with
    | opens path answer => exact absurd rfl (hopens path answer)
    | read regs answer =>
        dsimp only [AuxvTracee.exit]
        split_ifs <;> rfl
    | prctl regs answer =>
        dsimp only [AuxvTracee.exit]
        split_ifs <;> rfl
    | _ => rfl
  · rfl

theorem leave_fds : (p.leave abi seccomp result call).fds = p.fds := by
  unfold AuxvProcess.leave
  split_ifs <;> rfl

theorem leave_execfnAddr :
    (p.leave abi seccomp result call).tracee.execfnAddr = p.tracee.execfnAddr := by
  unfold AuxvProcess.leave
  split_ifs
  · cases call <;> dsimp only [AuxvTracee.exit] <;> split_ifs <;> rfl
  · rfl

theorem leave_tracks (hopens : ∀ path answer, call ≠ .opens path answer) (h : p.Tracks files) :
    (p.leave abi seccomp result call).Tracks files := by
  unfold AuxvProcess.Tracks AuxvProcess.fileOf
  rw [leave_auxvFd hopens, leave_fds]
  exact h

/-- The kernel leaves the descriptor that PRoot remembers, in a call that does not go wrong. -/
theorem kernel_tracks (htracks : p.Tracks files) (hcareful : p.Careful abi seccomp A files call)
    (hkernel : auxvKernel abi A.vectors A.saved files
      { p with tracee := p.tracee.enter abi call } call = some outcome) :
    FilesKept files outcome.files ∧ outcome.process.Tracks outcome.files := by
  have hentered := htracks.enter abi call
  cases call with
  | opens path answer =>
      obtain status | ⟨fd, isAuxv⟩ := answer
      · obtain rfl := Option.some.inj hkernel
        exact ⟨.refl files, hentered⟩
      · obtain ⟨left, hnew, rfl⟩ := Option.map_eq_some_iff.mp hkernel
        have hkept := FilesKept.append files [⟨isAuxv, 0⟩]
        exact ⟨hkept, (hentered.newFd hnew).2.2.kept hkept⟩
  | dup oldFd answer =>
      obtain status | fd := answer
      · obtain rfl := Option.some.inj hkernel
        exact ⟨.refl files, hentered⟩
      · obtain ⟨file, hfile, hkernel⟩ := Option.bind_eq_some_iff.mp hkernel
        obtain ⟨left, hnew, rfl⟩ := Option.map_eq_some_iff.mp hkernel
        exact ⟨.refl files, (hentered.newFd hnew).2.2⟩
  | dup2 oldFd answer =>
      obtain status | fd := answer
      · obtain rfl := Option.some.inj hkernel
        exact ⟨.refl files, hentered⟩
      · obtain ⟨id, hid, rfl⟩ := Option.map_eq_some_iff.mp hkernel
        refine ⟨.refl files, ?_⟩
        by_cases hsame : p.tracee.auxvFd = fd
        · intro hfd
          obtain ⟨file, hfile, hauxv⟩ := hcareful hsame
          refine ⟨file, ?_, hauxv⟩
          obtain ⟨other, hother, hfile⟩ := Option.bind_eq_some_iff.mp hfile
          obtain rfl := Option.some.inj (hid.symm.trans hother)
          exact Option.bind_eq_some_iff.mpr ⟨id, if_pos hsame, hfile⟩
        · exact hentered.setFd hsame _
  | fork answer =>
      cases answer with
      | error status =>
          obtain rfl := Option.some.inj hkernel
          exact ⟨.refl files, hentered⟩
      | ok child =>
          obtain rfl := Option.some.inj hkernel
          exact ⟨.refl files, hentered⟩
  | close regs =>
      obtain rfl := Option.some.inj hkernel
      refine ⟨.refl files, fun hfd => hentered.setFd ?_ _ hfd⟩
      -- the descriptor is forgotten before it is closed
      intro hsame
      dsimp only [AuxvTracee.enter, AuxvProcess.setFd] at hfd hsame
      split_ifs at hfd hsame with hclosed
      · exact absurd hfd (show ¬ (0 : Int) ≤ -1 by decide)
      · exact hclosed ⟨hfd, hsame.symm⟩
  | closeRange first last =>
      obtain rfl := Option.some.inj hkernel
      refine ⟨.refl files, fun hfd => ?_⟩
      obtain ⟨file, hfile, hauxv⟩ := htracks hfd
      obtain ⟨id, hid, hfile⟩ := Option.bind_eq_some_iff.mp hfile
      exact ⟨file, Option.bind_eq_some_iff.mpr ⟨id, (if_neg hcareful).trans hid, hfile⟩, hauxv⟩
  | read regs answer =>
      obtain status | data := answer
      · obtain rfl := Option.some.inj hkernel
        exact ⟨.refl files, hentered⟩
      · obtain ⟨id, hid, hkernel⟩ := Option.bind_eq_some_iff.mp hkernel
        obtain ⟨file, hfile, hkernel⟩ := Option.bind_eq_some_iff.mp hkernel
        obtain ⟨-, hkernel⟩ := Option.ite_none_right_eq_some.mp hkernel
        obtain ⟨left, hcopy, rfl⟩ := Option.map_eq_some_iff.mp hkernel
        obtain ⟨-, memory, -, rfl⟩ := copyToUser_eq_some_iff.mp hcopy
        have hkept : FilesKept files
            (files.set id { file with offset := file.offset + data.length }) := .set hfile rfl
        exact ⟨hkept, hentered.kept hkept⟩
  | prctl regs answer =>
      obtain status | ⟨⟩ := answer
      · obtain rfl := Option.some.inj hkernel
        exact ⟨.refl files, hentered⟩
      · obtain ⟨-, hkernel⟩ := Option.ite_none_right_eq_some.mp hkernel
        obtain ⟨left, hcopy, rfl⟩ := Option.map_eq_some_iff.mp hkernel
        obtain ⟨-, memory, -, rfl⟩ := copyToUser_eq_some_iff.mp hcopy
        exact ⟨.refl files, hentered⟩

/-- `open` and its kin make PRoot remember their own descriptor, if anything. -/
theorem leave_opens {path : CStr} {answer : Except Errno (Nat × Bool)} {fd : Nat}
    (hfd : fd < 2 ^ 31) :
    (p.leave abi seccomp (.ok fd) (.opens path answer)).tracee.auxvFd = p.tracee.auxvFd ∨
      path = procSelfAuxv ∧
        (p.leave abi seccomp (.ok fd) (.opens path answer)).tracee.auxvFd = fd := by
  unfold AuxvProcess.leave
  split_ifs
  · dsimp only [AuxvTracee.exit, Except.map]
    rw [statusWord_ok hfd]
    split_ifs with hfails hnone hother
    · exact .inl rfl
    · exact .inl rfl
    · exact .inl rfl
    · exact .inr ⟨not_not.mp hother, fdArg_ofNat hfd⟩
  · exact .inl rfl

theorem leave_opens_error {path : CStr} {answer : Except Errno (Nat × Bool)} {status : Errno} :
    (p.leave abi seccomp (.error status) (.opens path answer)).tracee.auxvFd =
      p.tracee.auxvFd := by
  unfold AuxvProcess.leave
  split_ifs
  · dsimp only [AuxvTracee.exit, Except.map]
    rw [if_pos (fdArg_error status)]
  · rfl

/-- **PRoot remembers a descriptor of the vector**, or none, after a call that does not go wrong. -/
theorem call_tracks (htracks : p.Tracks files) (hcareful : p.Careful abi seccomp A files call)
    (hkernel : auxvKernel abi A.vectors A.saved files
      { p with tracee := p.tracee.enter abi call } call = some outcome) :
    (outcome.process.leave abi seccomp outcome.result call).Tracks outcome.files := by
  have hkernelTracks := (kernel_tracks htracks hcareful hkernel).2
  cases call with
  | opens path answer =>
      obtain status | ⟨fd, isAuxv⟩ := answer
      · obtain rfl := Option.some.inj hkernel
        unfold AuxvProcess.Tracks AuxvProcess.fileOf
        rw [leave_opens_error, leave_fds]
        exact hkernelTracks
      · obtain ⟨left, hnew, rfl⟩ := Option.map_eq_some_iff.mp hkernel
        obtain ⟨hlt, rfl, -⟩ := (htracks.enter abi _).newFd hnew
        unfold AuxvProcess.Tracks AuxvProcess.fileOf
        rw [leave_fds]
        rcases leave_opens hlt with hsame | ⟨hpath, hfd⟩
        · rw [hsame]
          exact hkernelTracks
        · rw [hfd]
          refine fun _ => ⟨⟨isAuxv, 0⟩, ?_, hcareful hpath⟩
          exact Option.bind_eq_some_iff.mpr ⟨files.length, if_pos rfl, List.getElem?_concat_length⟩
  | _ => exact leave_tracks nofun hkernelTracks

end

/-! ## Runs -/

namespace AuxvSys

variable {abi : Abi} {seccomp : Bool} {A : KernelAuxv (sizeofWord host abi)}
  {s s' s₀ : AuxvSys host} {pid : Nat} {call : AuxvCall} {result : Except Errno Nat}
  {p : AuxvProcess host} {execfn : Address host}

/-- What holds in a run: PRoot remembers descriptors of the vector only. -/
def Tracking (execfn : Address host) (s : AuxvSys host) : Prop :=
  ∀ pid p, s.processes pid = some p → p.tracee.execfnAddr = execfn ∧ p.Tracks s.files

theorem Started.tracking (h : s.Started execfn) : s.Tracking execfn := by
  intro pid p hp
  obtain ⟨hexecfn, hfd⟩ := h.2 pid p hp
  refine ⟨hexecfn, fun hnonneg => ?_⟩
  rw [hfd] at hnonneg
  exact absurd hnonneg (by decide)

/-- The parts of a call. -/
theorem step_parts (h : s.step abi A.vectors A.saved seccomp pid call = some (s', result))
    (hp : s.processes pid = some p) :
    ∃ outcome, auxvKernel abi A.vectors A.saved s.files
        { p with tracee := p.tracee.enter abi call } call = some outcome ∧
      outcome.result = result ∧
      s.finish pid call outcome.process (outcome.process.leave abi seccomp outcome.result call)
        outcome.files = some s' := by
  unfold step at h
  rw [hp, Option.bind_some] at h
  obtain ⟨outcome, hkernel, hrest⟩ := Option.bind_eq_some_iff.mp h
  obtain ⟨left, hfinish, hsame⟩ := Option.map_eq_some_iff.mp hrest
  obtain ⟨rfl, rfl⟩ := Prod.mk.inj hsame
  exact ⟨outcome, hkernel, rfl, hfinish⟩

/-- **One call is exact**, if it does not go wrong. -/
theorem step_exact (hne : execfn ≠ 0) (htracking : s.Tracking execfn)
    (hp : s.processes pid = some p) (hcareful : p.Careful abi seccomp A s.files call)
    (h : s.step abi A.vectors A.saved seccomp pid call = some (s', result)) :
    PatchedExactly abi A s execfn pid call s' result := by
  obtain ⟨outcome, hkernel, rfl, hfinish⟩ := step_parts h hp
  obtain ⟨hexecfn, htracks⟩ := htracking pid p hp
  have hexact := call_exact hexecfn hne htracks hcareful hkernel
  unfold finish at hfinish
  obtain ⟨hfree, hs'⟩ := Option.ite_none_right_eq_some.mp hfinish
  obtain rfl := Option.some.inj hs'
  unfold PatchedExactly untraced finish
  rw [hp, Option.bind_some, hexact, Option.bind_some, if_pos hfree]
  refine ⟨_, rfl, fun other => ?_⟩
  dsimp only
  by_cases hself : other = pid
  · rw [if_pos hself, if_pos hself]
    rfl
  · rw [if_neg hself, if_neg hself]
    by_cases hchild : call.child = some other
    · rw [if_pos hchild, if_pos hchild, Option.map_some, Option.map_some]
      congr 1
      exact (leave_memory (by rintro _ _ rfl; cases hchild) (by rintro _ _ rfl; cases hchild)).symm
    · rw [if_neg hchild, if_neg hchild]

/-- A call that does not go wrong keeps what holds in a run. -/
theorem step_tracking (htracking : s.Tracking execfn) (hp : s.processes pid = some p)
    (hcareful : p.Careful abi seccomp A s.files call)
    (h : s.step abi A.vectors A.saved seccomp pid call = some (s', result)) :
    s'.Tracking execfn := by
  obtain ⟨outcome, hkernel, rfl, hfinish⟩ := step_parts h hp
  obtain ⟨hexecfn, htracks⟩ := htracking pid p hp
  obtain ⟨hkept, hchild⟩ := kernel_tracks htracks hcareful hkernel
  have hself := call_tracks htracks hcareful hkernel
  have hkernelExecfn : outcome.process.tracee.execfnAddr = execfn := by
    rw [kernel_tracee hkernel, enter_execfnAddr, hexecfn]
  unfold finish at hfinish
  obtain ⟨hfree, hs'⟩ := Option.ite_none_right_eq_some.mp hfinish
  obtain rfl := Option.some.inj hs'
  intro other q hq
  dsimp only at hq ⊢
  split_ifs at hq
  · obtain rfl := Option.some.inj hq
    exact ⟨by rw [leave_execfnAddr, hkernelExecfn], hself⟩
  · obtain rfl := Option.some.inj hq
    exact ⟨hkernelExecfn, hchild⟩
  · exact ⟨(htracking other q hq).1, (htracking other q hq).2.kept hkept⟩

/-- What holds in a run where no call goes wrong. -/
theorem CarefulRun.tracking (hrun : CarefulRun abi seccomp A s s') (h : s.Tracking execfn) :
    s'.Tracking execfn := by
  induction hrun with
  | refl => exact h
  | call run hp hcareful hstep ih => exact step_tracking ih hp hcareful hstep

/-- **Reads of the auxiliary vector are patched exactly** in a run where no call goes wrong. -/
theorem careful_run_exact (hstarted : s₀.Started execfn) (hrun : CarefulRun abi seccomp A s₀ s)
    (hp : s.processes pid = some p) (hcareful : p.Careful abi seccomp A s.files call)
    (hstep : s.step abi A.vectors A.saved seccomp pid call = some (s', result)) :
    PatchedExactly abi A s execfn pid call s' result :=
  step_exact hstarted.1 (hrun.tracking hstarted.tracking) hp hcareful hstep

/-- The vector of a program with `AT_EXECFN` only. -/
def someVector : KernelAuxv (sizeofWord .ARCH_X86_64 .ABI_DEFAULT) where
  vectors := [⟨atExecfn, 0x1000⟩]
  saved := 32
  type_ne := by decide
  words := by decide
  once := by decide
  room := by decide
  saved_lt := by decide

/-- A program that has just been started, which has all memory. -/
def someStart : AuxvSys .ARCH_X86_64 where
  processes pid :=
    if pid = 1 then some ⟨⟨0x2000, -1, false⟩, fun _ => none, fun _ => some 0⟩ else none
  files := []

theorem someStart_started : someStart.Started 0x2000 := by
  refine ⟨by decide, fun pid p hp => ?_⟩
  unfold someStart at hp
  dsimp only at hp
  split_ifs at hp
  obtain rfl := Option.some.inj hp
  exact ⟨rfl, rfl⟩

def openAuxv : AuxvCall := .opens procSelfAuxv (.ok (3, true))

/-- A `read` of so many bytes, to the address 0. -/
def readAuxv (size : Nat) : AuxvCall :=
  .read ⟨0, 3, 0, BitVec.ofNat 64 size, 0, 0, 0, 0, 0⟩ (.ok (List.replicate size 0))

theorem careful_run_exact_whole : ∃ s s' : AuxvSys .ARCH_X86_64,
    CarefulRun .ABI_DEFAULT true someVector someStart s ∧
      PatchedExactly .ABI_DEFAULT someVector s 0x2000 1 (readAuxv 16) s' (.ok 16) := by
  have hopen : (⟨⟨0x2000, -1, false⟩, fun _ => none, fun _ => some 0⟩ :
      AuxvProcess .ARCH_X86_64).Careful .ABI_DEFAULT true someVector [] openAuxv := fun _ => rfl
  have hrun := @CarefulRun.call _ _ _ someVector someStart someStart _ 1 _ _ _ (.refl someStart)
    rfl hopen rfl
  refine ⟨_, _, hrun, careful_run_exact someStart_started hrun (p := _) rfl ?_ rfl⟩
  rintro file hfile -
  obtain rfl := Option.some.inj hfile
  refine ⟨fun _ => .inr ⟨0, rfl⟩, fun _ => ⟨⟨rfl, by decide, rfl⟩, ?_⟩⟩
  rintro i ⟨vector, hvector, -⟩
  have hi : i < 1 := (List.getElem?_eq_some_iff.mp hvector).1
  obtain rfl : i = 0 := by omega
  decide

/-- **The failing case:** the type of the entry is read, and then its value. -/
theorem split_read_unpatched : ∃ s₁ s₂ s₃ : AuxvSys .ARCH_X86_64,
    someStart.Started 0x2000 ∧
      someStart.step .ABI_DEFAULT someVector.vectors someVector.saved true 1 openAuxv =
        some (s₁, .ok 3) ∧
      s₁.step .ABI_DEFAULT someVector.vectors someVector.saved true 1 (readAuxv 8) =
        some (s₂, .ok 8) ∧
      s₂.step .ABI_DEFAULT someVector.vectors someVector.saved true 1 (readAuxv 8) =
        some (s₃, .ok 8) ∧
      ¬ PatchedExactly .ABI_DEFAULT someVector s₂ 0x2000 1 (readAuxv 8) s₃ (.ok 8) := by
  refine ⟨_, _, _, someStart_started, rfl, rfl, rfl, ?_⟩
  rintro ⟨t, ht, hmemory⟩
  have hbyte := congrArg (Option.map fun m => m 1) (hmemory 1)
  rw [← (Prod.mk.inj (Option.some.inj ht)).1] at hbyte
  exact absurd hbyte (by decide)

end AuxvSys

end PRoot
