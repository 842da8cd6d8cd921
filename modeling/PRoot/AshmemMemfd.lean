import PRoot.SendmsgFixups

/-!
# Shared memory without `memfd_create`

The extension that has `/dev/ashmem` opened instead (`extension/ashmem_memfd/ashmem_memfd.c`), and
makes `ftruncate` and `fstat` work on it.

* `ashmemMemfdCallback`: the extension, event by event;
* `AshmemStep`: a system call of a tracee, or a new child;
* `AshmemStep.Kept`: only calls of its own are touched, and each event does what it is for;
* `ashmem_own_calls_iff`: which runs are like that.
-/

namespace PRoot

inductive AshmemMemfdChainState
  | CS_IDLE | CS_STAT_ENTERED | CS_STAT_CHAINED_IOCTL
  deriving DecidableEq, Repr

structure AshmemMemfdState (host : Host) where
  memfdSupported : Bool
  chainState : AshmemMemfdChainState
  fd : BitVec 32
  addr : Address host
  deriving DecidableEq

/-- The state that is allocated: all zeros, but for what is known of the kernel. -/
def AshmemMemfdState.initial {host : Host} (memfdSupported : Bool) : AshmemMemfdState host :=
  ⟨memfdSupported, .CS_IDLE, 0, 0⟩

/-- A tracee with the extension: `restart_how` is `PTRACE_SYSCALL`, the call is restarted after
`seccomp`, an `ioctl` on a descriptor is chained. -/
structure AshmemTracee (host : Host) where
  entered : EnteredCall host
  result : BitVec 64
  state : AshmemMemfdState host
  restartSyscall : Bool
  restarted : Bool
  chained : Option (BitVec 32)

inductive AshmemEvent (host : Host)
  | INITIALIZATION (memfdSupported : Bool)
  | INHERIT_PARENT
  | INHERIT_CHILD (parent : AshmemMemfdState host)
  | SYSCALL_ENTER_END
  | SYSCALL_EXIT_START
  | SIGSYS_OCC
  | SYSCALL_CHAINED_EXIT
  | REMOVED

section

variable {host : Host} (abi : Abi)

/-- `ASHMEM_SET_SIZE`, which has the size of a `size_t`. -/
def ashmemSetSize (host : Host) : BitVec 64 := BitVec.ofNat 64 (0x40007703 + host.word * 0x10000)

/-- `"/dev/ashmem"`. -/
def devAshmem : Bytes := [47, 100, 101, 118, 47, 97, 115, 104, 109, 101, 109, 0]

/-- `peek_word`, with process_vm_readv: all ones where there is none. -/
def peekWordOrOnes (m : Space host) (a : Address host) : Nat :=
  match m.load (untagPointer host a) (sizeofWord host abi) with
  | some bytes => littleEndian bytes
  | none => 256 ^ sizeofWord host abi - 1

/-- `(int) peek_reg`. -/
def sysint (host : Host) (abi : Abi) (value : BitVec 64) : BitVec 32 :=
  (peek host abi value).setWidth 32

-- What `is_ashmem_fd` finds, and the offset of `st_size`.
variable (isAshmemFd : BitVec 32 → Bool) (offsetofStSize : Nat)

/-- `ashmem_memfd_handle_stat`. -/
def ashmemHandleStat (t : AshmemTracee host) (fd : BitVec 32) (stat : BitVec 64) :
    AshmemTracee host :=
  if isAshmemFd fd then
    { t with
      state := { t.state with
        chainState := .CS_STAT_ENTERED, fd, addr := (sysarg abi stat).plus offsetofStSize }
      restartSyscall := true }
  else t

/-- `ashmem_memfd_handle_memfd_create`. -/
def ashmemHandleMemfdCreate (t : AshmemTracee host) (fromSigsys : Bool) :
    AshmemTracee host × Int :=
  if t.state.memfdSupported then (t, 0)
  else
    let flags := peek host abi t.entered.current.arg2
    let entered := { t.entered with current := setSysnum host abi t.entered.current .PR_openat }
    -- `set_sysarg_data`, whose status is not looked at.
    let entered :=
      match entered.push abi devAshmem .EFAULT with
      | (entered, .ok a) =>
          { entered with current := { entered.current with arg2 := a.setWidth 64 } }
      | (entered, .error _) => entered
    let entered := { entered with current := { entered.current with
      arg1 := -100, arg3 := 2 ||| if flags &&& 1 ≠ 0 then 0x80000 else 0, arg4 := 0 } }
    if fromSigsys then ({ t with entered, restarted := true }, 2) else ({ t with entered }, 0)

/-- `ashmem_memfd_handle_syscall`. -/
def ashmemHandleSyscall (t : AshmemTracee host) : AshmemTracee host :=
  let regs := t.entered.current
  match getSysnum host abi regs with
  | .PR_memfd_create => (ashmemHandleMemfdCreate abi t false).1
  | .PR_ftruncate | .PR_ftruncate64 =>
      let t :=
        if isAshmemFd (sysint host abi regs.arg1) then
          let regs := setSysnum host abi regs .PR_ioctl
          { t with entered := { t.entered with current := { regs with
            arg3 := peek host abi regs.arg2, arg2 := ashmemSetSize host } } }
        else t
      -- There is no `break` before the case of `fstat`.
      ashmemHandleStat abi isAshmemFd offsetofStSize t
        (sysint host abi t.entered.current.arg1) t.entered.current.arg2
  | .PR_fstat =>
      ashmemHandleStat abi isAshmemFd offsetofStSize t (sysint host abi regs.arg1)
        regs.arg2
  | .PR_fstatat64 =>
      let fd := sysint host abi regs.arg1
      if 0 ≤ fd.toInt ∧
          peekWordOrOnes abi t.entered.memory (sysarg abi regs.arg2) % 256 = 0 then
        ashmemHandleStat abi isAshmemFd offsetofStSize t fd regs.arg3
      else t
  | _ => t

/-- `ashmem_memfd_handle_stat_exit`. -/
def ashmemHandleStatExit (t : AshmemTracee host) : AshmemTracee host :=
  if peek host abi t.result ≠ 0 ∨ peekWordOrOnes abi t.entered.memory t.state.addr ≠ 0 then
    { t with state := { t.state with chainState := .CS_IDLE } }
  else
    { t with
      chained := some t.state.fd, state := { t.state with chainState := .CS_STAT_CHAINED_IOCTL } }

/-- The case of `INHERIT_CHILD`. -/
def ashmemInheritChild (t : AshmemTracee host) (parent : AshmemMemfdState host) :
    AshmemTracee host :=
  { t with state := .initial parent.memfdSupported }

/-- The cases of `ashmem_memfd_callback`, each for itself. -/
def ashmemCase (t : AshmemTracee host) : AshmemEvent host → AshmemTracee host × Int
  | .INITIALIZATION memfdSupported => ({ t with state := .initial memfdSupported }, 0)
  | .INHERIT_PARENT => (t, 1)
  | .INHERIT_CHILD parent => (ashmemInheritChild t parent, 0)
  | .SYSCALL_ENTER_END => (ashmemHandleSyscall abi isAshmemFd offsetofStSize t, 0)
  | .SYSCALL_EXIT_START =>
      match t.state.chainState with
      | .CS_IDLE | .CS_STAT_CHAINED_IOCTL => (t, 0)
      | .CS_STAT_ENTERED => (ashmemHandleStatExit abi t, 0)
  | .SIGSYS_OCC =>
      if getSysnum host abi t.entered.current = .PR_memfd_create then
        ashmemHandleMemfdCreate abi t true
      else (t, 0)
  | .SYSCALL_CHAINED_EXIT =>
      if t.state.chainState = .CS_STAT_CHAINED_IOCTL then
        ({ t with
          state := { t.state with chainState := .CS_IDLE }
          result := 0
          entered := { t.entered with
            memory := (MemoryAccess.writeData true t.entered.memory t.state.addr
              (wordBytes 4 (peek host abi t.result).toNat)).1 } }, 0)
      else (t, 0)
  | .REMOVED => (t, 0)

/-- `ashmem_memfd_callback`. -/
def ashmemMemfdCallback (t : AshmemTracee host) : AshmemEvent host → AshmemTracee host × Int
  | .INHERIT_CHILD parent =>
      -- There is no `return` before the case of `SYSCALL_ENTER_END`.
      (ashmemHandleSyscall abi isAshmemFd offsetofStSize (ashmemInheritChild t parent), 0)
  | event => ashmemCase abi isAshmemFd offsetofStSize t event

end

/-! ## The steps of a run -/

/-- A system call: what the tracee enters it with, what is known of its descriptors then, what
the kernel makes of it, and the result of an `ioctl` if one is chained. -/
structure AshmemCall (host : Host) where
  entered : EnteredCall host
  isAshmemFd : BitVec 32 → Bool
  kernel : EnteredCall host → Space host × BitVec 64
  size : BitVec 64

/-- A call of a tracee; or it has a child, with registers and descriptors of its own; or another
event. -/
inductive AshmemStep (host : Host)
  | call (call : AshmemCall host)
  | child (entered : EnteredCall host) (isAshmemFd : BitVec 32 → Bool)
  | sigsys (entered : EnteredCall host) (isAshmemFd : BitVec 32 → Bool)
  | removed (entered : EnteredCall host) (isAshmemFd : BitVec 32 → Bool)

section

variable {host : Host} (abi : Abi) (offsetofStSize : Nat)

/-- A tracee between two calls. -/
def AshmemMemfdState.tracee (state : AshmemMemfdState host) (entered : EnteredCall host) :
    AshmemTracee host :=
  ⟨entered, 0, state, false, false, none⟩

namespace AshmemCall

variable (c : AshmemCall host) (state : AshmemMemfdState host)

def callback (t : AshmemTracee host) (event : AshmemEvent host) : AshmemTracee host :=
  (ashmemMemfdCallback abi c.isAshmemFd offsetofStSize t event).1

def afterEnter : AshmemTracee host :=
  c.callback abi offsetofStSize (state.tracee c.entered) .SYSCALL_ENTER_END

/-- The kernel has done the call. -/
def atExit : AshmemTracee host :=
  let t := c.afterEnter abi offsetofStSize state
  { t with
    entered := { t.entered with memory := (c.kernel t.entered).1 }
    result := (c.kernel t.entered).2 }

def afterExit : AshmemTracee host :=
  c.callback abi offsetofStSize (c.atExit abi offsetofStSize state) .SYSCALL_EXIT_START

/-- The call is over, with the chained one if there is one. -/
def afterCall : AshmemTracee host :=
  let t := c.afterExit abi offsetofStSize state
  match t.chained with
  | none => t
  | some _ =>
      c.callback abi offsetofStSize { t with chained := none, result := c.size }
        .SYSCALL_CHAINED_EXIT

def sysnum : Sysnum := getSysnum host abi c.entered.current

/-- The descriptor that is the first argument is emulated. -/
def emulated : Bool := c.isAshmemFd (sysint host abi c.entered.current.arg1)

/-- `fstat`, or `fstatat` with an empty path and `AT_EMPTY_PATH`, on such a descriptor. -/
def OwnStat : Prop :=
  c.emulated abi = true ∧
    (c.sysnum abi = .PR_fstat ∨
      (c.sysnum abi = .PR_fstatat64 ∨ c.sysnum abi = .PR_newfstatat) ∧
        c.entered.memory (untagPointer host (sysarg abi c.entered.current.arg2)) = some 0 ∧
        peek host abi c.entered.current.arg4 &&& 0x1000 ≠ 0)

/-- **What a call is to be like:** the chain of `fstat` is entered for such calls only, and
`ftruncate` leaves the memory of the tracee to the kernel. -/
structure Kept : Prop where
  enters : (c.afterEnter abi offsetofStSize state).state.chainState = .CS_STAT_ENTERED →
    c.OwnStat abi
  memory : c.sysnum abi = .PR_ftruncate ∨ c.sysnum abi = .PR_ftruncate64 →
    (c.afterEnter abi offsetofStSize state).entered.memory = c.entered.memory ∧
    (c.afterCall abi offsetofStSize state).entered.memory =
      (c.kernel (c.afterEnter abi offsetofStSize state).entered).1

/-- `ftruncate` is not for an emulated descriptor; `fstatat`, for one, with an empty path, has
`AT_EMPTY_PATH`. -/
structure Fits : Prop where
  ftruncate : c.sysnum abi = .PR_ftruncate ∨ c.sysnum abi = .PR_ftruncate64 →
    c.emulated abi = false
  fstatat : c.sysnum abi = .PR_fstatat64 → c.emulated abi = true →
    0 ≤ (sysint host abi c.entered.current.arg1).toInt →
    peekWordOrOnes abi c.entered.memory (sysarg abi c.entered.current.arg2) % 256 = 0 →
      peek host abi c.entered.current.arg4 &&& 0x1000 ≠ 0

end AshmemCall

/-- The code of an event is that of its own case. -/
def OwnCase (isAshmemFd : BitVec 32 → Bool) (t : AshmemTracee host) (event : AshmemEvent host) :
    Prop :=
  ashmemMemfdCallback abi isAshmemFd offsetofStSize t event =
    ashmemCase abi isAshmemFd offsetofStSize t event

/-- The calls for which the chain is entered. -/
def Enters (isAshmemFd : BitVec 32 → Bool) (entered : EnteredCall host) : Prop :=
  isAshmemFd (sysint host abi entered.current.arg1) = true ∧
    match getSysnum host abi entered.current with
    | .PR_ftruncate | .PR_ftruncate64 | .PR_fstat => True
    | .PR_fstatat64 => 0 ≤ (sysint host abi entered.current.arg1).toInt ∧
        peekWordOrOnes abi entered.memory (sysarg abi entered.current.arg2) % 256 = 0
    | _ => False

namespace AshmemStep

/-- The state that is kept for a tracee, after a step of it. -/
def after (state : AshmemMemfdState host) : AshmemStep host → AshmemMemfdState host
  | .call c => (c.afterCall abi offsetofStSize state).state
  | .child _ _ => state
  | .sigsys entered isAshmemFd =>
      (ashmemMemfdCallback abi isAshmemFd offsetofStSize (state.tracee entered)
        .SIGSYS_OCC).1.state
  | .removed entered isAshmemFd =>
      (ashmemMemfdCallback abi isAshmemFd offsetofStSize (state.tracee entered) .REMOVED).1.state

/-- What a step is to be like. -/
def Kept (state : AshmemMemfdState host) : AshmemStep host → Prop
  | .call c => c.Kept abi offsetofStSize state
  | .child entered isAshmemFd =>
      OwnCase abi offsetofStSize isAshmemFd
        (AshmemMemfdState.tracee (.initial false) entered) (.INHERIT_CHILD state)
  | .sigsys entered isAshmemFd =>
      OwnCase abi offsetofStSize isAshmemFd (state.tracee entered) .SIGSYS_OCC
  | .removed entered isAshmemFd =>
      OwnCase abi offsetofStSize isAshmemFd (state.tracee entered) .REMOVED

/-- A child is not in a call that the extension has something to do for. -/
def Fits (memfdSupported : Bool) : AshmemStep host → Prop
  | .call c => c.Fits abi
  | .child entered isAshmemFd =>
      ¬ Enters abi isAshmemFd entered ∧
        (getSysnum host abi entered.current = .PR_memfd_create → memfdSupported = true)
  | .sigsys _ _ | .removed _ _ => True

/-- The states of a run, and the steps from them. -/
def entries (state : AshmemMemfdState host) :
    List (AshmemStep host) → List (AshmemMemfdState host × AshmemStep host)
  | [] => []
  | step :: steps => (state, step) :: entries (step.after abi offsetofStSize state) steps

end AshmemStep

/-! ## What the handlers do -/

variable {abi offsetofStSize} {isAshmemFd : BitVec 32 → Bool} {t : AshmemTracee host}
  {state : AshmemMemfdState host} {c : AshmemCall host}

theorem handleMemfdCreate_state {fromSigsys : Bool} :
    (ashmemHandleMemfdCreate abi t fromSigsys).1.state = t.state := by
  unfold ashmemHandleMemfdCreate
  split
  · rfl
  · dsimp only
    split <;> rfl

theorem handleStat_chainState {fd : BitVec 32} {stat : BitVec 64} :
    (ashmemHandleStat abi isAshmemFd offsetofStSize t fd stat).state.chainState =
      if isAshmemFd fd then .CS_STAT_ENTERED else t.state.chainState := by
  unfold ashmemHandleStat
  split <;> rfl

/-- **The chain is entered,** or the state is left. -/
theorem handleSyscall_chainState (abi : Abi) (isAshmemFd : BitVec 32 → Bool)
    (offsetofStSize : Nat) (t : AshmemTracee host) :
    (Enters abi isAshmemFd t.entered →
      (ashmemHandleSyscall abi isAshmemFd offsetofStSize t).state.chainState =
        .CS_STAT_ENTERED) ∧
    (¬ Enters abi isAshmemFd t.entered →
      (ashmemHandleSyscall abi isAshmemFd offsetofStSize t).state = t.state) := by
  unfold Enters ashmemHandleSyscall
  dsimp only
  cases hemulated : isAshmemFd (sysint host abi t.entered.current.arg1) with
  | true =>
      generalize getSysnum host abi t.entered.current = sysnum
      split
      case h_1 =>
        refine ⟨fun _ => ?_, fun h => absurd ⟨rfl, trivial⟩ h⟩
        dsimp only
        rw [handleStat_chainState, if_pos rfl]
        exact if_pos hemulated
      case h_2 =>
        refine ⟨fun _ => ?_, fun h => absurd ⟨rfl, trivial⟩ h⟩
        dsimp only
        rw [handleStat_chainState, if_pos rfl]
        exact if_pos hemulated
      case h_3 =>
        refine ⟨fun _ => ?_, fun h => absurd ⟨rfl, trivial⟩ h⟩
        dsimp only
        rw [handleStat_chainState, if_pos hemulated]
      case h_4 =>
        dsimp only
        constructor
        · intro h
          rw [if_pos h.2, handleStat_chainState, if_pos hemulated]
        · intro h
          rw [if_neg fun hpath => h ⟨rfl, hpath⟩]
      case h_5 hftruncate hftruncate64 hfstat hfstatat =>
        refine ⟨fun h => h.2.elim, fun _ => ?_⟩
        split
        · exact handleMemfdCreate_state
        · exact absurd rfl hftruncate
        · exact absurd rfl hftruncate64
        · exact absurd rfl hfstat
        · exact absurd rfl hfstatat
        · rfl
  | false =>
      refine ⟨fun h => absurd h.1 Bool.false_ne_true, fun _ => ?_⟩
      have hnothing : ∀ stat, ashmemHandleStat abi isAshmemFd offsetofStSize t
          (sysint host abi t.entered.current.arg1) stat = t := by
        intro stat
        unfold ashmemHandleStat
        rw [if_neg (by rw [hemulated]; exact Bool.false_ne_true)]
      split
      · exact handleMemfdCreate_state
      · rw [if_neg Bool.false_ne_true, hnothing]
      · rw [if_neg Bool.false_ne_true, hnothing]
      · rw [hnothing]
      · split
        · rw [hnothing]
        · rfl
      · rfl

/-- A word that starts with the end of a string. -/
theorem memory_of_peekWordOrOnes {m : Space host} {a : Address host}
    (h : peekWordOrOnes abi m a % 256 = 0) : m (untagPointer host a) = some 0 := by
  have hpos := (sizeofWord_pos_le host abi).1
  obtain ⟨w, hw⟩ := Nat.exists_eq_add_one_of_ne_zero (Nat.ne_of_gt hpos)
  unfold peekWordOrOnes at h
  rw [hw] at h
  split at h
  case h_1 bytes hload =>
    obtain ⟨hlength, heach⟩ := AddressSpace.load_eq_some_iff.mp hload
    have hfirst := heach 0 (by omega)
    rw [BitVec.add_zero] at hfirst
    cases bytes with
    | nil => cases hlength
    | cons byte bytes =>
        rw [littleEndian_cons] at h
        have hzero : byte = 0 := BitVec.eq_of_toNat_eq (by
          change byte.toNat = 0
          omega)
        rw [hfirst, hzero]
        rfl
  case h_2 =>
    rw [Nat.pow_succ] at h
    have hpow : 0 < 256 ^ w := Nat.pow_pos (by decide)
    omega

/-- The chain is not entered for a call that the kernel is to do as it is. -/
theorem handleSyscall_eq (hstat : ¬ Enters abi isAshmemFd t.entered)
    (hmemfd : getSysnum host abi t.entered.current = .PR_memfd_create →
      t.state.memfdSupported = true) :
    ashmemHandleSyscall abi isAshmemFd offsetofStSize t = t := by
  unfold Enters at hstat
  unfold ashmemHandleSyscall
  dsimp only
  have hnothing : ∀ stat,
      isAshmemFd (sysint host abi t.entered.current.arg1) = false →
        ashmemHandleStat abi isAshmemFd offsetofStSize t
          (sysint host abi t.entered.current.arg1) stat = t := by
    intro stat hemulated
    unfold ashmemHandleStat
    rw [if_neg (by rw [hemulated]; exact Bool.false_ne_true)]
  generalize hsysnum : getSysnum host abi t.entered.current = sysnum at hstat hmemfd
  split
  case h_1 =>
    unfold ashmemHandleMemfdCreate
    rw [if_pos (hmemfd rfl)]
  case h_2 =>
    have hemulated := eq_false_of_ne_true fun h => hstat ⟨h, trivial⟩
    rw [if_neg (by rw [hemulated]; exact Bool.false_ne_true), hnothing _ hemulated]
  case h_3 =>
    have hemulated := eq_false_of_ne_true fun h => hstat ⟨h, trivial⟩
    rw [if_neg (by rw [hemulated]; exact Bool.false_ne_true), hnothing _ hemulated]
  case h_4 => exact hnothing _ (eq_false_of_ne_true fun h => hstat ⟨h, trivial⟩)
  case h_5 =>
    split
    case isTrue hpath => exact hnothing _ (eq_false_of_ne_true fun h => hstat ⟨h, hpath⟩)
    case isFalse => rfl
  case h_6 => rfl

theorem handleSyscall_memfdCreate
    (h : getSysnum host abi t.entered.current = .PR_memfd_create) :
    ashmemHandleSyscall abi isAshmemFd offsetofStSize t =
      (ashmemHandleMemfdCreate abi t false).1 := by
  unfold ashmemHandleSyscall
  dsimp only
  rw [h]

/-- Room on the stack is made in the stack pointer alone. -/
theorem push_num (abi : Abi) (entered : EnteredCall host) (bytes : Bytes) (status : Errno) :
    (entered.push abi bytes status).1.current.num = entered.current.num := by
  have halloc : ∀ entered' a, entered.allocMem abi bytes.length = some (entered', a) →
      entered'.current.num = entered.current.num := by
    intro entered' a h
    unfold EnteredCall.allocMem at h
    dsimp only at h
    -- First by the red zone, then by whether there is room.
    split at h <;> split at h
    all_goals first | cases h; rfl | cases h
  unfold EnteredCall.push
  split
  case h_1 => rfl
  case h_2 entered' a h =>
    split
    · exact halloc entered' a h
    · exact halloc entered' a h

/-- A call is no longer `memfd_create` once it is replaced. -/
theorem handleMemfdCreate_ne (hmemfd : t.state.memfdSupported = false)
    (hsysnum : getSysnum host abi t.entered.current = .PR_memfd_create) :
    (ashmemHandleMemfdCreate abi t false).1 ≠ t := by
  have hnum : ∀ regs : SyscallRegs,
      regs.num = (setSysnum host abi t.entered.current .PR_openat).num →
        getSysnum host abi regs ≠ .PR_memfd_create := by
    intro regs hregs
    have hset : getSysnum host abi regs =
        getSysnum host abi (setSysnum host abi t.entered.current .PR_openat) := by
      unfold getSysnum
      rw [hregs]
    rw [hset]
    by_cases hnames : ∃ nr, Names host abi nr .PR_openat
    · rw [(getSysnum_setSysnum host abi _ _).1 hnames]
      decide
    · rw [(getSysnum_setSysnum host abi _ _).2 hnames]
      decide
  intro hsame
  refine hnum t.entered.current ?_ hsysnum
  have hcurrent : t.entered.current.num =
      (ashmemHandleMemfdCreate abi t false).1.entered.current.num := by rw [hsame]
  rw [hcurrent]
  unfold ashmemHandleMemfdCreate
  rw [if_neg (by rw [hmemfd]; exact Bool.false_ne_true)]
  dsimp only
  have hpush := push_num abi
    { t.entered with current := setSysnum host abi t.entered.current .PR_openat } devAshmem .EFAULT
  generalize EnteredCall.push abi _ devAshmem .EFAULT = pushed at hpush ⊢
  obtain ⟨entered, a | a⟩ := pushed
  · exact hpush
  · exact hpush

/-! ## What a call does -/

/-- Between two calls, nothing is chained. -/
structure AshmemMemfdState.Idle (state : AshmemMemfdState host) (memfdSupported : Bool) :
    Prop where
  chainState : state.chainState = .CS_IDLE
  memfdSupported : state.memfdSupported = memfdSupported

variable {memfdSupported : Bool}

theorem handleSyscall_memfdSupported :
    (ashmemHandleSyscall abi isAshmemFd offsetofStSize t).state.memfdSupported =
      t.state.memfdSupported := by
  have hstat : ∀ (t : AshmemTracee host) fd stat,
      (ashmemHandleStat abi isAshmemFd offsetofStSize t fd stat).state.memfdSupported =
        t.state.memfdSupported := by
    intro t fd stat
    unfold ashmemHandleStat
    split <;> rfl
  unfold ashmemHandleSyscall
  dsimp only
  split
  · rw [handleMemfdCreate_state]
  · rw [hstat]
    split <;> rfl
  · rw [hstat]
    split <;> rfl
  · rw [hstat]
  · split
    · rw [hstat]
    · rfl
  · rfl

theorem handleSyscall_chained :
    (ashmemHandleSyscall abi isAshmemFd offsetofStSize t).chained = t.chained := by
  have hstat : ∀ (t : AshmemTracee host) fd stat,
      (ashmemHandleStat abi isAshmemFd offsetofStSize t fd stat).chained = t.chained := by
    intro t fd stat
    unfold ashmemHandleStat
    split <;> rfl
  unfold ashmemHandleSyscall
  dsimp only
  split
  · unfold ashmemHandleMemfdCreate
    split <;> rfl
  · rw [hstat]
    split <;> rfl
  · rw [hstat]
    split <;> rfl
  · rw [hstat]
  · split
    · rw [hstat]
    · rfl
  · rfl

/-- The chain is over, or an `ioctl` is chained. -/
theorem handleStatExit_cases (abi : Abi) (t : AshmemTracee host) :
    ((ashmemHandleStatExit abi t).chained = t.chained ∧
      (ashmemHandleStatExit abi t).state = { t.state with chainState := .CS_IDLE }) ∨
    ((ashmemHandleStatExit abi t).chained = some t.state.fd ∧
      (ashmemHandleStatExit abi t).state =
        { t.state with chainState := .CS_STAT_CHAINED_IOCTL }) := by
  unfold ashmemHandleStatExit
  split
  case isTrue => exact .inl ⟨rfl, rfl⟩
  case isFalse => exact .inr ⟨rfl, rfl⟩

/-- **Nothing is chained after a call.** -/
theorem afterCall_idle (hidle : state.Idle memfdSupported) :
    (c.afterCall abi offsetofStSize state).state.Idle memfdSupported := by
  have hmemfd : (c.afterEnter abi offsetofStSize state).state.memfdSupported =
      memfdSupported := handleSyscall_memfdSupported.trans hidle.memfdSupported
  have hchained : (c.afterEnter abi offsetofStSize state).chained = none := handleSyscall_chained
  have hchain := handleSyscall_chainState abi c.isAshmemFd offsetofStSize (state.tracee c.entered)
  have hentered : (c.afterEnter abi offsetofStSize state).state.chainState = .CS_STAT_ENTERED ∨
      (c.afterEnter abi offsetofStSize state).state.chainState = .CS_IDLE := by
    by_cases hstat : Enters abi c.isAshmemFd c.entered
    · exact .inl (hchain.1 hstat)
    · exact .inr ((congrArg _ (hchain.2 hstat)).trans hidle.chainState)
  unfold AshmemCall.afterCall AshmemCall.afterExit AshmemCall.atExit
  generalize c.afterEnter abi offsetofStSize state = entered at *
  unfold AshmemCall.callback ashmemMemfdCallback ashmemCase
  dsimp only
  obtain hentered | hentered := hentered
  · rw [hentered]
    dsimp only
    obtain ⟨hnone, hstate⟩ | ⟨hsome, hstate⟩ := handleStatExit_cases abi
      { entered with
        entered := { entered.entered with memory := (c.kernel entered.entered).1 }
        result := (c.kernel entered.entered).2 }
    · rw [hnone.trans hchained]
      dsimp only
      rw [hstate]
      exact ⟨rfl, hmemfd⟩
    · rw [hsome]
      dsimp only
      rw [hstate, if_pos rfl]
      exact ⟨rfl, hmemfd⟩
  · rw [hentered]
    dsimp only
    rw [hchained]
    exact ⟨hentered, hmemfd⟩

/-- **A call is like that** where it fits. -/
theorem kept_iff_fits (hidle : state.Idle memfdSupported) :
    c.Kept abi offsetofStSize state ↔ c.Fits abi := by
  have hchain := handleSyscall_chainState abi c.isAshmemFd offsetofStSize (state.tracee c.entered)
  have hentered : (c.afterEnter abi offsetofStSize state).state.chainState =
      .CS_STAT_ENTERED ↔ Enters abi c.isAshmemFd c.entered := by
    constructor
    · intro h
      by_contra hstat
      have hsame := (congrArg _ (hchain.2 hstat)).trans hidle.chainState
      cases h.symm.trans hsame
    · exact hchain.1
  constructor
  · intro hkept
    constructor
    · intro hsysnum
      by_contra hemulated
      obtain ⟨-, hstat | ⟨hstat, -⟩⟩ := hkept.enters (hentered.mpr
        ⟨eq_true_of_ne_false hemulated, by
          obtain h | h := hsysnum
          · rw [show getSysnum host abi c.entered.current = _ from h]; trivial
          · rw [show getSysnum host abi c.entered.current = _ from h]; trivial⟩)
      · obtain h | h := hsysnum <;> cases h.symm.trans hstat
      · obtain h | h := hsysnum <;> obtain hstat | hstat := hstat <;> cases h.symm.trans hstat
    · intro hsysnum hemulated hfd hpath
      obtain ⟨-, hstat | ⟨-, -, hflag⟩⟩ := hkept.enters (hentered.mpr ⟨hemulated, by
        rw [show getSysnum host abi c.entered.current = _ from hsysnum]; exact ⟨hfd, hpath⟩⟩)
      · cases hsysnum.symm.trans hstat
      · exact hflag
  · intro hfits
    constructor
    · intro h
      obtain ⟨hemulated, hstat⟩ := hentered.mp h
      refine ⟨hemulated, ?_⟩
      have htruncate : ¬ (c.sysnum abi = .PR_ftruncate ∨ c.sysnum abi = .PR_ftruncate64) := by
        intro h
        cases hemulated.symm.trans (hfits.ftruncate h)
      split at hstat
      case h_1 hsysnum => exact absurd (.inl hsysnum) htruncate
      case h_2 hsysnum => exact absurd (.inr hsysnum) htruncate
      case h_3 hsysnum => exact .inl hsysnum
      case h_4 hsysnum =>
        refine .inr ⟨.inl hsysnum, memory_of_peekWordOrOnes hstat.2, ?_⟩
        exact hfits.fstatat hsysnum hemulated hstat.1 hstat.2
      case h_5 => exact hstat.elim
    · intro hsysnum
      have hemulated := hfits.ftruncate hsysnum
      have hsame : c.afterEnter abi offsetofStSize state = state.tracee c.entered := by
        refine handleSyscall_eq (fun h => ?_) fun h => ?_
        · cases hemulated.symm.trans h.1
        · obtain hsysnum | hsysnum := hsysnum <;> cases hsysnum.symm.trans h
      unfold AshmemCall.afterCall AshmemCall.afterExit AshmemCall.atExit
      rw [hsame]
      refine ⟨rfl, ?_⟩
      unfold AshmemCall.callback ashmemMemfdCallback ashmemCase AshmemMemfdState.tracee
      dsimp only
      rw [hidle.chainState]

/-- **A child is left as it is** where it is in no call of the extension. -/
theorem ownCase_child_iff {entered : EnteredCall host} (hidle : state.Idle memfdSupported) :
    OwnCase abi offsetofStSize isAshmemFd (AshmemMemfdState.tracee (.initial false) entered)
        (.INHERIT_CHILD state) ↔
      ¬ Enters abi isAshmemFd entered ∧
        (getSysnum host abi entered.current = .PR_memfd_create → memfdSupported = true) := by
  have hsupported := hidle.memfdSupported
  unfold OwnCase ashmemMemfdCallback ashmemCase ashmemInheritChild
  dsimp only
  constructor
  · intro h
    have hsame := congrArg Prod.fst h
    dsimp only at hsame
    constructor
    · intro hstat
      have hentered := handleSyscall_chainState abi isAshmemFd offsetofStSize
        (AshmemMemfdState.tracee (.initial state.memfdSupported) entered) |>.1 hstat
      have hinitial := congrArg (fun t => t.state.chainState) hsame
      cases hentered.symm.trans hinitial
    · intro hsysnum
      by_contra hmemfd
      refine handleMemfdCreate_ne
        (t := AshmemMemfdState.tracee (.initial state.memfdSupported) entered)
        (hsupported.trans (eq_false_of_ne_true hmemfd)) hsysnum ?_
      exact (handleSyscall_memfdCreate hsysnum).symm.trans hsame
  · rintro ⟨hstat, hmemfd⟩
    refine congrArg (·, (0 : Int)) (handleSyscall_eq hstat fun h => ?_)
    exact hsupported.trans (hmemfd h)

/-! ## The result -/

/-- A step leaves nothing chained. -/
theorem after_idle (hidle : state.Idle memfdSupported) (step : AshmemStep host) :
    (step.after abi offsetofStSize state).Idle memfdSupported := by
  cases step with
  | call c => exact afterCall_idle hidle
  | child entered isAshmemFd => exact hidle
  | sigsys entered isAshmemFd =>
      unfold AshmemStep.after ashmemMemfdCallback ashmemCase
      dsimp only
      split
      · rw [handleMemfdCreate_state]
        exact hidle
      · exact hidle
  | removed entered isAshmemFd => exact hidle

/-- **A step is like that** where it fits. -/
theorem step_kept_iff_fits (hidle : state.Idle memfdSupported) (step : AshmemStep host) :
    step.Kept abi offsetofStSize state ↔ step.Fits abi memfdSupported := by
  cases step with
  | call c => exact kept_iff_fits hidle
  | child entered isAshmemFd => exact ownCase_child_iff hidle
  | sigsys entered isAshmemFd => exact ⟨fun _ => trivial, fun _ => rfl⟩
  | removed entered isAshmemFd => exact ⟨fun _ => trivial, fun _ => rfl⟩

theorem entries_kept_iff_fits (hidle : state.Idle memfdSupported)
    (steps : List (AshmemStep host)) :
    (∀ entry ∈ AshmemStep.entries abi offsetofStSize state steps,
      entry.2.Kept abi offsetofStSize entry.1) ↔
    ∀ step ∈ steps, step.Fits abi memfdSupported := by
  induction steps generalizing state with
  | nil =>
      constructor
      · intro _ step hstep
        cases hstep
      · intro _ entry hentry
        cases hentry
  | cons step steps ih =>
      unfold AshmemStep.entries
      rw [List.forall_mem_cons, List.forall_mem_cons, step_kept_iff_fits hidle step,
        ih (after_idle hidle step)]

variable (abi offsetofStSize memfdSupported)

end

end PRoot
