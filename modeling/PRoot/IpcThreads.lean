import PRoot.Semaphores

/-!
# Threads that make System V IPC calls

What the `sysvipc` extension keeps for a thread (`struct SysVIpcConfig`, `sysvipc_internal.h`),
with what PRoot knows of the system call it is in.

* `IpcThread`: a thread;
* `IpcThread.wake`: `sysvipc_wake_tracee`;
* `IpcSystem`: a namespace and its threads.
-/

namespace PRoot

/-- The value of an error number. -/
def Errno.code : Errno → Nat
  | .EPERM => 1 | .ENOENT => 2 | .ESRCH => 3 | .EINTR => 4 | .E2BIG => 7 | .ENOEXEC => 8
  | .EBADF => 9 | .ECHILD => 10 | .EAGAIN => 11 | .ENOMEM => 12 | .EACCES => 13 | .EFAULT => 14
  | .EEXIST => 17 | .ENOTDIR => 20 | .EISDIR => 21 | .EINVAL => 22 | .ENFILE => 23 | .EMFILE => 24
  | .ETXTBSY => 26 | .EFBIG => 27 | .ENOSPC => 28 | .ERANGE => 34 | .ENAMETOOLONG => 36
  | .ENOSYS => 38 | .ENOTEMPTY => 39 | .ELOOP => 40 | .ENOMSG => 42 | .EIDRM => 43
  | .ELIBBAD => 80 | .EPROTONOSUPPORT => 93 | .ENOTSUP => 95

/-- A status in the register of the result. -/
def statusWord : Except Errno (BitVec 32) → BitVec 64
  | .ok value => value.signExtend 64
  | .error status => -BitVec.ofNat 64 status.code

/-- `enum SysVIpcChainState`. -/
inductive SysVIpcChainState
  | CSTATE_NOT_CHAINED
  | CSTATE_SINGLE
  | CSTATE_SHMAT_SOCKET
  | CSTATE_SHMAT_CONNECT
  | CSTATE_SHMAT_RECVMSG
  | CSTATE_SHMAT_MMAP
  | CSTATE_MSGRCV_RETRY
  deriving DecidableEq, Repr

/-- The state of a `shmat` after `socket` (`> CSTATE_SHMAT_SOCKET`, `<= CSTATE_SHMAT_MMAP`). -/
def SysVIpcChainState.pastSocket : SysVIpcChainState → Bool
  | .CSTATE_SHMAT_CONNECT | .CSTATE_SHMAT_RECVMSG | .CSTATE_SHMAT_MMAP => true
  | _ => false

/-- The state of a `shmat` (`>= CSTATE_SHMAT_SOCKET`, `<= CSTATE_SHMAT_MMAP`). -/
def SysVIpcChainState.inShmat : SysVIpcChainState → Bool
  | .CSTATE_SHMAT_SOCKET => true
  | chainState => chainState.pastSocket

/-- The arguments `sysvipc_msgrcv` puts aside. -/
structure MsgrcvArgs where
  msgp : BitVec 64
  msgsz : BitVec 64
  msgtyp : BitVec 32
  msgflg : BitVec 32
  deriving DecidableEq, Repr

/-- The system calls the extension puts in the place of others, with the arguments that
matter. -/
inductive PlannedCall
  | ppoll
  | socket
  | connect (fd : BitVec 64)
  | recvmsg (fd : BitVec 64)
  | mmap (size fd : BitVec 64)
  | munmap (addr size : BitVec 64)
  | close (fd : BitVec 64)
  | getpid
  | void
  deriving DecidableEq, Repr

/-- A thread: its configuration, and the fields of its `Tracee` that system calls go by. -/
structure IpcThread where
  config : SysVIpcConfig
  /-- The address of `config->process`. -/
  process : Nat
  chainState : SysVIpcChainState
  msgrcv : MsgrcvArgs
  shmatSocketFd : BitVec 64
  shmatMemFd : BitVec 64
  /-- Its system call was entered (`tracee->status` is not 0). -/
  inSyscall : Bool
  /-- `tracee->chain.syscalls`. -/
  chain : Option (List PlannedCall)
  /-- `tracee->chain.final_result`, if it is forced. -/
  finalResult : Option (BitVec 64)
  /-- `tracee->restore_original_regs_after_seccomp_event`. -/
  deferring : Bool
  /-- The system call that PRoot wrote to its registers: the one it is in, or the one it makes
  next, where it was moved back to the trap. -/
  next : Option PlannedCall
  /-- The register of the result, as PRoot left it. -/
  result : BitVec 64
  deriving Repr

namespace IpcThread

/-- `config->wait_reason`. -/
def waitReason (t : IpcThread) : SysVIpcWaitReason := t.config.waitReason

/-- `config->wait_state`. -/
def waitState (t : IpcThread) : SysVIpcWaitState := t.config.waitState

/-- A thread that is new. -/
def zero (pid process : Nat) : IpcThread where
  config := .zero pid
  process
  chainState := .CSTATE_NOT_CHAINED
  msgrcv := ⟨0, 0, 0, 0⟩
  shmatSocketFd := 0
  shmatMemFd := 0
  inSyscall := false
  chain := none
  finalResult := none
  deferring := false
  next := none
  result := 0

/-- What `sysvipc_wake_tracee` asserts of the thread it wakes. -/
def wakeable (t : IpcThread) : Bool :=
  t.waitReason ≠ .WR_NOT_WAITING &&
    (t.waitState = .WSTATE_ENTERED_PPOLL || t.waitState = .WSTATE_RESTARTED_INTO_PPOLL)

/-- `sysvipc_wake_tracee`. -/
def wake (status : Except Errno (BitVec 32)) (t : IpcThread) : IpcThread :=
  { t with config := wakeTracee t.config status }

/-- Set `config->wait_state`. -/
def setWaitState (waitState : SysVIpcWaitState) (t : IpcThread) : IpcThread :=
  { t with config := { t.config with waitState } }

/-- Set `config->wait_reason`. -/
def setWaitReason (waitReason : SysVIpcWaitReason) (t : IpcThread) : IpcThread :=
  { t with config := { t.config with waitReason } }

/-- Wait for the object at some place. -/
def waitFor (waitReason : SysVIpcWaitReason) (index : Nat) (t : IpcThread) : IpcThread :=
  { t with config := { t.config with waitReason, waitingObjectIndex := index } }

/-- `register_chained_syscall`. -/
def registerChained (call : PlannedCall) (t : IpcThread) : IpcThread :=
  { t with chain := some ((t.chain.getD []) ++ [call]) }

/-- A thread that waits for the object at some place. -/
def waitsFor (t : IpcThread) (waitReason : SysVIpcWaitReason) (index : Nat) : Bool :=
  t.waitReason = waitReason && t.config.waitingObjectIndex = index

end IpcThread

/-- `SysVIpcSharedMem`, without the list of its mappings.  The fields from `mode` on are those
of `stats`. -/
structure Segment where
  rmidPending : Bool
  fd : Int
  mode : BitVec 64
  shmSegsz : BitVec 64
  shmCpid : Int
  deriving DecidableEq, Repr

/-- `SysVIpcSharedMemMap`: it is in the list of its process and in that of its segment. -/
structure ShmMapping where
  process : Nat
  shmIndex : Nat
  addr : BitVec 64
  size : BitVec 64
  deriving DecidableEq, Repr

/-- `SysVIpcShmHelperRequest`. -/
inductive ShmRequest
  | SHMHELPER_DISTRIBUTE (fd : Int)
  | SHMHELPER_ALLOC (shmid : BitVec 32) (size : BitVec 64)
  | SHMHELPER_FREE (fd : Int)
  deriving DecidableEq, Repr

/-- A namespace and its threads, in the order `SYSVIPC_FOREACH_TRACEE` goes through them.
The mappings are in the order of `mapped_shms` for each process; `requests` are those that
were written to the helper. -/
structure IpcSystem where
  queues : List (IpcObject MsgQueue)
  semaphores : List (IpcObject Semaphore)
  shms : List (IpcObject Segment)
  mappings : List ShmMapping
  requests : List ShmRequest
  threads : List IpcThread
  deriving Repr

namespace IpcSystem

/-- The first thread, with the namespace it gets. -/
def initial (pid process : Nat) : IpcSystem := ⟨[], [], [], [], [], [.zero pid process]⟩

/-- The thread of a pid. -/
def thread (sys : IpcSystem) (pid : Nat) : Option IpcThread :=
  sys.threads.find? (·.config.pid = pid)

/-- Change the thread of a pid. -/
def modify (sys : IpcSystem) (pid : Nat) (f : IpcThread → IpcThread) : IpcSystem :=
  { sys with threads := sys.threads.map fun t => if t.config.pid = pid then f t else t }

end IpcSystem

end PRoot
