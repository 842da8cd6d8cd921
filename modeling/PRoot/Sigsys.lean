import PRoot.ByteMemory
import PRoot.Paths
import PRoot.Registers

/-!
# System calls the host forbids

`tracee/seccomp.c`: a tracee that is stopped by `SIGSYS`, since a policy of the host
forbids its system call, is restarted with another call in its place, or is given a
result.

* `handleSeccompEventCommon`: the handler.
-/

namespace PRoot

/-- A tracee stopped by `SIGSYS`: its `CURRENT` registers, the stack pointer of its
`ORIGINAL` ones, the size of a system call instruction, and its memory. -/
structure SigsysTracee where
  host : Host
  abi : Abi
  regs : SyscallRegs
  originalStackPointer : BitVec 64
  systrapSize : BitVec 64
  memory : ByteMemory

/-- How `SIGSYS` is handled: the tracee is restarted, with these registers and this
memory, it is given a result, or it is given one by code that is not described here. -/
inductive SigsysOutcome
  | restarted (regs : SyscallRegs) (memory : ByteMemory)
  | result (value : Except Errno (BitVec 64))
  | answered

/-- `AT_FDCWD`, as a `word_t`. -/
def atFdcwd : BitVec 64 := -100

/-- `AT_SYMLINK_NOFOLLOW`. -/
def atSymlinkNofollow : BitVec 64 := 0x100

/-- `AT_REMOVEDIR`. -/
def atRemovedir : BitVec 64 := 0x200

/-- `SYS_SENDMMSG`. -/
def sysSendmmsg : BitVec 64 := 20

namespace SigsysTracee

variable (t : SigsysTracee)

/-- `peek_reg`. -/
def peek (value : BitVec 64) : BitVec 64 := PRoot.peek t.host t.abi value

/-- `read_data`. -/
def readData (address : BitVec 64) (size : Nat) : Option Nat :=
  t.memory.read (t.host.untagPointer address) size

/-- `write_data`. -/
def writeData (address : BitVec 64) (size value : Nat) : Option ByteMemory :=
  t.memory.write (t.host.untagPointer address) size value

/-- `alloc_mem`: room on the stack. -/
def allocMem (size : Nat) : BitVec 64 :=
  let stackPointer := t.peek t.regs.stackPointer
  let size := if stackPointer = t.peek t.originalStackPointer then size + t.host.redZoneSize else size
  if stackPointer.toNat ≤ size then 0 else stackPointer - BitVec.ofNat 64 size

/-- The registers after `alloc_mem`. -/
def allocRegs (size : Nat) : SyscallRegs :=
  if t.allocMem size = 0 then t.regs else { t.regs with stackPointer := t.allocMem size }

/-- `set_sysnum` and `restart_syscall_after_seccomp`. -/
def restart (sysnum : Sysnum) (regs : SyscallRegs) (memory : ByteMemory) : SigsysOutcome :=
  let regs := setSysnum t.host t.abi regs sysnum
  .restarted { regs with instrPointer := t.peek regs.instrPointer - t.systrapSize } memory

/-- The tail of `PR_utimes` and `PR_utime`: the arguments of `utimensat`, where
`times` is the address of the times. -/
def restartUtimensat (regs : SyscallRegs) (times : BitVec 64) (memory : ByteMemory) :
    SigsysOutcome :=
  t.restart .PR_utimensat
    { regs with arg1 := atFdcwd, arg2 := t.peek t.regs.arg1, arg3 := times, arg4 := 0 } memory

/-- `PR_utimes` and `PR_utime`, where `timens` makes the times of `utimensat` of those
in the `size` bytes the tracee gives. -/
def utimensatOf (size : Nat) (timens : Nat → List Int) : SigsysOutcome :=
  let long := t.host.word
  if t.peek t.regs.arg2 = 0 then t.restartUtimensat t.regs 0 t.memory
  else
    match t.readData (t.peek t.regs.arg2) size with
    | none => .result (.error .EFAULT)
    | some times =>
        -- `set_sysarg_data`
        if t.allocMem (4 * long) = 0 then .result (.error .EFAULT)
        else
          match t.writeData (t.allocMem (4 * long)) (4 * long)
              (ByteMemory.pack long (timens times)) with
          | none => .result (.error .EFAULT)
          | some memory =>
              t.restartUtimensat (t.allocRegs (4 * long)) (t.allocMem (4 * long)) memory

/-- `PR_select`. -/
def select : SigsysOutcome :=
  let long := t.host.word
  let timevalArg := t.peek t.regs.arg5
  let restart := fun (regs : SyscallRegs) timespecArg memory =>
    t.restart .PR_pselect6 { regs with arg5 := timespecArg, arg6 := 0 } memory
  if timevalArg = 0 then restart t.regs 0 t.memory
  else
    match t.readData timevalArg (2 * long) with
    | none => .result (.error .EFAULT)
    | some tv =>
        let tvSec := ByteMemory.field long tv 0
        let tvUsec := ByteMemory.field long tv 1
        if tvUsec ≥ 1000000 ∨ tvUsec < 0 then .result (.error .EINVAL)
        else
          match t.writeData (t.allocMem (2 * long)) (2 * long)
              (ByteMemory.pack long [tvSec, tvUsec * 1000]) with
          | none => .result (.error .EFAULT)
          | some memory => restart (t.allocRegs (2 * long)) (t.allocMem (2 * long)) memory

/-- `PR_poll`. -/
def poll : SigsysOutcome :=
  let long := t.host.word
  let msArg := ((t.peek t.regs.arg3).setWidth 32).toInt
  let restart := fun (regs : SyscallRegs) timespecArg memory =>
    t.restart .PR_ppoll { regs with arg3 := timespecArg, arg4 := 0, arg5 := 0 } memory
  if msArg < 0 then restart t.regs 0 t.memory
  else
    match t.writeData (t.allocMem (2 * long)) (2 * long)
        (ByteMemory.pack long [msArg / 1000, msArg % 1000 * 1000000]) with
    | none => .result (.error .EFAULT)
    | some memory => restart (t.allocRegs (2 * long)) (t.allocMem (2 * long)) memory

/-- `PR_sendmmsg`, on the hosts that have this case.  Writing the arguments may fail
unnoticed. -/
def sendmmsg : SigsysOutcome :=
  let argSize := sizeofWord t.host t.abi
  let args := [t.regs.arg1, t.regs.arg2, t.regs.arg3, t.regs.arg4].map
    fun arg => ((t.peek arg).toNat : Int)
  let memory := t.writeData (t.allocMem (argSize * 4)) (argSize * 4) (ByteMemory.pack argSize args)
  t.restart .PR_socketcall
    { t.allocRegs (argSize * 4) with arg1 := sysSendmmsg, arg2 := t.allocMem (argSize * 4) }
    (memory.getD t.memory)

/-- `PR_openat2`: of the structure `how` only the start may be given. -/
def openat2 : SigsysOutcome :=
  let howSize := min (t.peek t.regs.arg4).toNat 24
  match t.readData (t.peek t.regs.arg3) howSize with
  | none => .result (.error .EFAULT)
  | some how =>
      t.restart .PR_openat { t.regs with
        arg3 := BitVec.ofNat 64 how, arg4 := BitVec.ofNat 64 (how / 256 ^ 8) } t.memory

/-- `PR_ftruncate`. -/
def ftruncate : SigsysOutcome :=
  if detranslateSysnum t.host t.abi .PR_ftruncate64 = t.host.avoider then .result (.error .ENOSYS)
  else
    t.restart .PR_ftruncate64
      { t.regs with arg2 := 0, arg3 := t.peek t.regs.arg2, arg4 := 0 } t.memory

end SigsysTracee

/-- `handle_seccomp_event_common`.  `extensions` is the answer to `SIGSYS_OCC`. -/
def handleSeccompEventCommon (t : SigsysTracee) (extensions : Except Errno Nat) :
    SigsysOutcome :=
  let regs := t.regs
  let peek := t.peek
  let long := t.host.word
  match extensions with
  | .error e => .result (.error e)
  | .ok 1 => .result (.ok 0)
  | .ok 2 => .answered
  | .ok _ =>
  match getSysnum t.host t.abi regs with
  | .PR_open => t.restart .PR_openat { regs with
      arg4 := peek regs.arg3, arg3 := peek regs.arg2, arg2 := peek regs.arg1
      arg1 := atFdcwd } t.memory
  | .PR_openat2 => t.openat2
  | .PR_accept => t.restart .PR_accept4 { regs with arg4 := 0 } t.memory
  | .PR_setgroups | .PR_setgroups32 => .result (.ok 0)
  | .PR_mount | .PR_pivot_root | .PR_umount | .PR_umount2 => .answered
  | .PR_unshare | .PR_setns => .result (.ok 0)
  | .PR_getpgrp => .answered
  | .PR_symlink => t.restart .PR_symlinkat { regs with
      arg3 := peek regs.arg2, arg2 := atFdcwd } t.memory
  | .PR_link => t.restart .PR_linkat { regs with
      arg4 := peek regs.arg2, arg2 := peek regs.arg1, arg1 := atFdcwd, arg3 := atFdcwd
      arg5 := 0 } t.memory
  | .PR_chmod => t.restart .PR_fchmodat { regs with
      arg3 := peek regs.arg2, arg2 := peek regs.arg1, arg1 := atFdcwd, arg4 := 0 } t.memory
  | .PR_chown | .PR_chown32 => t.restart .PR_fchownat { regs with
      arg4 := peek regs.arg3, arg3 := peek regs.arg2, arg2 := peek regs.arg1
      arg1 := atFdcwd, arg5 := 0 } t.memory
  | .PR_lchown | .PR_lchown32 => t.restart .PR_fchownat { regs with
      arg4 := peek regs.arg3, arg3 := peek regs.arg2, arg2 := peek regs.arg1
      arg1 := atFdcwd, arg5 := atSymlinkNofollow } t.memory
  | .PR_unlink => t.restart .PR_unlinkat { regs with
      arg2 := peek regs.arg1, arg1 := atFdcwd, arg3 := 0 } t.memory
  | .PR_rmdir => t.restart .PR_unlinkat { regs with
      arg2 := peek regs.arg1, arg1 := atFdcwd, arg3 := atRemovedir } t.memory
  | .PR_send => t.restart .PR_sendto { regs with arg5 := 0, arg6 := 0 } t.memory
  | .PR_recv => t.restart .PR_recvfrom { regs with arg5 := 0, arg6 := 0 } t.memory
  | .PR_waitpid => t.restart .PR_wait4 { regs with arg4 := 0 } t.memory
  | .PR_statfs => .answered
  | .PR_utimes =>
      let time := ByteMemory.field long
      t.utimensatOf (4 * long) fun times =>
        [time times 0, time times 1 * 1000, time times 2, time times 3 * 1000]
  | .PR_utime =>
      let time := ByteMemory.field long
      t.utimensatOf (2 * long) fun times => [time times 0, 0, time times 1, 0]
  | .PR_sendmmsg =>
      if t.host = .ARCH_X86 ∨ t.host = .ARCH_X86_64 then t.sendmmsg else .result (.error .ENOSYS)
  | .PR_stat => t.restart .PR_newfstatat { regs with
      arg4 := 0, arg3 := peek regs.arg2, arg2 := peek regs.arg1, arg1 := atFdcwd } t.memory
  | .PR_lstat => t.restart .PR_newfstatat { regs with
      arg4 := atSymlinkNofollow, arg3 := peek regs.arg2, arg2 := peek regs.arg1
      arg1 := atFdcwd } t.memory
  | .PR_pipe => t.restart .PR_pipe2 { regs with arg2 := 0 } t.memory
  | .PR_dup2 => t.restart .PR_dup3 { regs with arg3 := 0 } t.memory
  | .PR_access => t.restart .PR_faccessat { regs with
      arg4 := 0, arg3 := peek regs.arg2, arg2 := peek regs.arg1, arg1 := atFdcwd } t.memory
  | .PR_mkdir => t.restart .PR_mkdirat { regs with
      arg3 := peek regs.arg2, arg2 := peek regs.arg1, arg1 := atFdcwd } t.memory
  | .PR_rename => t.restart .PR_renameat { regs with
      arg4 := peek regs.arg2, arg3 := atFdcwd, arg2 := peek regs.arg1
      arg1 := atFdcwd } t.memory
  | .PR_select => t.select
  | .PR_poll => t.poll
  | .PR_epoll_wait => t.restart .PR_epoll_pwait { regs with arg5 := 0, arg6 := 0 } t.memory
  | .PR_time | .PR_statx => .answered
  | .PR_ftruncate => t.ftruncate
  | .PR_setresuid | .PR_setresgid => .answered
  | _ => .result (.error .ENOSYS)

end PRoot
