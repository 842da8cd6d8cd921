import PRoot.ByteMemory
import PRoot.Paths
import PRoot.Registers

/-!
# What system calls mean

What Linux documents of the older system calls and of those that replace them: both
are described by the same operations, with their arguments as the kernel takes them
from the registers and the memory of the caller.

* `KernelOp`: the operations;
* `kernelOp`: the operation a system call asks for.
-/

namespace PRoot

/-- A time as the kernel gets it: seconds and nanoseconds. -/
structure Timespec where
  sec : Int
  nsec : Int
  deriving DecidableEq, Repr

/-- The operations of the kernel, with their decoded arguments.  Pointers are words,
other arguments have the width of their type. -/
inductive KernelOp
  | fail (e : Errno)
  | openat (dirfd : BitVec 32) (path : BitVec 64) (flags : BitVec 32) (mode : BitVec 16)
  | accept4 (fd : BitVec 32) (addr addrlen : BitVec 64) (flags : BitVec 32)
  | symlinkat (target : BitVec 64) (dirfd : BitVec 32) (linkpath : BitVec 64)
  | linkat (olddirfd : BitVec 32) (oldpath : BitVec 64) (newdirfd : BitVec 32)
      (newpath : BitVec 64) (flags : BitVec 32)
  | fchmodat (dirfd : BitVec 32) (path : BitVec 64) (mode : BitVec 16)
  | fchownat (dirfd : BitVec 32) (path : BitVec 64) (owner group flags : BitVec 32)
  | unlinkat (dirfd : BitVec 32) (path : BitVec 64) (flags : BitVec 32)
  | sendto (fd : BitVec 32) (buf len : BitVec 64) (flags : BitVec 32) (addr : BitVec 64)
      (addrlen : BitVec 32)
  | recvfrom (fd : BitVec 32) (buf len : BitVec 64) (flags : BitVec 32) (addr addrlen : BitVec 64)
  | sendmmsg (fd : BitVec 32) (msgvec : BitVec 64) (vlen flags : BitVec 32)
  | wait4 (pid : BitVec 32) (status : BitVec 64) (options : BitVec 32) (rusage : BitVec 64)
  | utimensat (dirfd : BitVec 32) (path : BitVec 64) (times : Option (Timespec × Timespec))
      (flags : BitVec 32)
  | newfstatat (dirfd : BitVec 32) (path statbuf : BitVec 64) (flags : BitVec 32)
  | pipe2 (fds : BitVec 64) (flags : BitVec 32)
  /-- A pipe whose ends are returned in registers. -/
  | pipe
  | dup3 (oldfd newfd flags : BitVec 32)
  /-- A descriptor is put onto itself: it is only checked. -/
  | dupSelf (fd : BitVec 32)
  | faccessat (dirfd : BitVec 32) (path : BitVec 64) (mode : BitVec 32)
  | mkdirat (dirfd : BitVec 32) (path : BitVec 64) (mode : BitVec 16)
  | renameat (olddirfd : BitVec 32) (oldpath : BitVec 64) (newdirfd : BitVec 32)
      (newpath : BitVec 64)
  /-- `remaining` is where the time left is reported. -/
  | select (n : BitVec 32) (readfds writefds exceptfds : BitVec 64) (timeout : Option Timespec)
      (remaining : Option (BitVec 64)) (sigmask : BitVec 64)
  /-- A `select` whose arguments are all in memory. -/
  | oldSelect (args : BitVec 64)
  | poll (fds : BitVec 64) (nfds : BitVec 32) (timeout : Option Timespec)
      (sigmask : Option (BitVec 64 × BitVec 64))
  | epollPwait (epfd : BitVec 32) (events : BitVec 64) (maxevents timeout : BitVec 32)
      (sigmask : Option (BitVec 64 × BitVec 64))
  | ftruncate (fd : BitVec 32) (length : Int)
  | other (sysnum : Sysnum) (args : List (BitVec 64))
  deriving DecidableEq, Repr

/-- The size of a `long` in the structures the kernel reads from a tracee. -/
def kernelLong (host : Host) (abi : Abi) : Nat :=
  match host, abi with
  | .ARCH_X86_64, .ABI_2 | .ARCH_ARM64, .ABI_2 => 4
  | _, _ => host.word

/-- Whether the ABI is that of 32-bit x86. -/
def isI386 (host : Host) (abi : Abi) : Bool :=
  host = .ARCH_X86 ∨ (host = .ARCH_X86_64 ∧ abi = .ABI_2)

/-- Whether the ABI is that of 32-bit ARM, where 64-bit arguments start at an even
register. -/
def isArmEabi (host : Host) (abi : Abi) : Bool :=
  host = .ARCH_ARM_EABI ∨ (host = .ARCH_ARM64 ∧ abi = .ABI_2)

/-- The user and group ids of the older calls of the 32-bit ABIs have 16 bits. -/
def kernelId (host : Host) (abi : Abi) (value : BitVec 64) : BitVec 32 :=
  if kernelLong host abi = 4 then
    if value.setWidth 16 = 0xFFFF#16 then 0xFFFFFFFF else (value.setWidth 16).setWidth 32
  else value.setWidth 32

/-- Microseconds that `utimes` and `select` take. -/
def usecValid (usec : Int) : Bool := 0 ≤ usec ∧ usec < 1000000

/-- Nanoseconds that `pselect6` and `ppoll` take. -/
def nsecValid (nsec : Int) : Bool := 0 ≤ nsec ∧ nsec < 1000000000

/-- Nanoseconds that `utimensat` takes: `UTIME_NOW` and `UTIME_OMIT` as well. -/
def utimeValid (nsec : Int) : Bool := nsecValid nsec ∨ nsec = 0x3FFFFFFF ∨ nsec = 0x3FFFFFFE

/-- `O_DIRECTORY | O_NOFOLLOW`. -/
def Host.dirFlags (host : Host) : BitVec 64 :=
  match host with
  | .ARCH_ARM_EABI | .ARCH_ARM64 => 0xC000
  | _ => 0x30000

/-- The flags and the mode that `openat2` takes: no unknown bits, a mode only for a
file to be created, few flags besides `O_PATH`. -/
def howValid (host : Host) (flags mode : BitVec 64) : Bool :=
  flags &&& ~~~0x7FFFC3 = 0 ∧ mode &&& ~~~0xFFF = 0 ∧
    (mode ≠ 0 → flags &&& 0x400040 ≠ 0) ∧
    (flags &&& 0x200000 ≠ 0 → flags &&& ~~~(0x280000 ||| host.dirFlags) = 0)

section

variable (host : Host) (abi : Abi) (regs : SyscallRegs) (memory : ByteMemory)

/-- Two times that `utimensat` is asked to set, from the structure at `address`. -/
def utimensatOp (address : BitVec 64) (size : Nat) (valid : Nat → Bool)
    (times : Nat → Timespec × Timespec) (dirfd : BitVec 32) (path : BitVec 64)
    (flags : BitVec 32) : KernelOp :=
  if address = 0 then .utimensat dirfd path none flags
  else
    match memory.read (host.untagPointer address) size with
    | none => .fail .EFAULT
    | some v =>
        if valid v then .utimensat dirfd path (some (times v)) flags else .fail .EINVAL

/-- An operation with a timeout, from the structure of two fields at `address`, of which
the second counts `unit` nanoseconds. -/
def timeoutOp (address : BitVec 64) (valid : Int → Bool) (unit : Int)
    (op : Option Timespec → KernelOp) : KernelOp :=
  if address = 0 then op none
  else
    let long := kernelLong host abi
    match memory.read (host.untagPointer address) (2 * long) with
    | none => .fail .EFAULT
    | some v =>
        let sec := ByteMemory.field long v 0
        let part := ByteMemory.field long v 1
        if 0 ≤ sec ∧ valid part then op (some ⟨sec, part * unit⟩) else .fail .EINVAL

/-- `ftruncate`, to a length. -/
def ftruncateOp (fd : BitVec 32) (length : Int) : KernelOp :=
  if 0 ≤ length then .ftruncate fd length else .fail .EINVAL

/-- `openat2`, whose `resolve` flags are left out. -/
def openat2Op : KernelOp :=
  let size := (peek host abi regs.arg4).toNat
  if size < 24 then .fail .EINVAL
  else
    match memory.read (host.untagPointer (peek host abi regs.arg3)) size with
    | none => .fail .EFAULT
    | some how =>
        let flags := BitVec.ofNat 64 how
        let mode := BitVec.ofNat 64 (how / 256 ^ 8)
        if how / 256 ^ 24 ≠ 0 then .fail .E2BIG
        else if howValid host flags mode then
          .openat (regs.arg1.setWidth 32) (peek host abi regs.arg2) (flags.setWidth 32)
            (mode.setWidth 16)
        else .fail .EINVAL

/-- `socketcall`, for `SYS_SENDMMSG`. -/
def socketcallOp : KernelOp :=
  let long := kernelLong host abi
  if regs.arg1.setWidth 32 ≠ 20#32 then .other .PR_socketcall [regs.arg1, regs.arg2]
  else
    match memory.read (host.untagPointer (peek host abi regs.arg2)) (4 * long) with
    | none => .fail .EFAULT
    | some args =>
        let arg := fun i => args / 256 ^ (long * i) % 256 ^ long
        .sendmmsg (BitVec.ofNat 32 (arg 0)) (BitVec.ofNat 64 (arg 1)) (BitVec.ofNat 32 (arg 2))
          (BitVec.ofNat 32 (arg 3))

/-- **The operation a system call asks for.** -/
def kernelOp (sysnum : Sysnum) : KernelOp :=
  let ptr := peek host abi
  let int := fun value : BitVec 64 => value.setWidth 32
  let mode := fun value : BitVec 64 => value.setWidth 16
  let id := kernelId host abi
  let long := kernelLong host abi
  let fdcwd : BitVec 32 := -100
  let sigmask := fun set size : BitVec 64 => if ptr set = 0 then none else some (ptr set, ptr size)
  match sysnum with
  | .PR_void => .fail .ENOSYS
  | .PR_open => .openat fdcwd (ptr regs.arg1) (int regs.arg2) (mode regs.arg3)
  | .PR_openat => .openat (int regs.arg1) (ptr regs.arg2) (int regs.arg3) (mode regs.arg4)
  | .PR_openat2 => openat2Op host abi regs memory
  | .PR_accept => .accept4 (int regs.arg1) (ptr regs.arg2) (ptr regs.arg3) 0
  | .PR_accept4 => .accept4 (int regs.arg1) (ptr regs.arg2) (ptr regs.arg3) (int regs.arg4)
  | .PR_symlink => .symlinkat (ptr regs.arg1) fdcwd (ptr regs.arg2)
  | .PR_symlinkat => .symlinkat (ptr regs.arg1) (int regs.arg2) (ptr regs.arg3)
  | .PR_link => .linkat fdcwd (ptr regs.arg1) fdcwd (ptr regs.arg2) 0
  | .PR_linkat =>
      .linkat (int regs.arg1) (ptr regs.arg2) (int regs.arg3) (ptr regs.arg4) (int regs.arg5)
  | .PR_chmod => .fchmodat fdcwd (ptr regs.arg1) (mode regs.arg2)
  | .PR_fchmodat => .fchmodat (int regs.arg1) (ptr regs.arg2) (mode regs.arg3)
  | .PR_chown => .fchownat fdcwd (ptr regs.arg1) (id regs.arg2) (id regs.arg3) 0
  | .PR_lchown => .fchownat fdcwd (ptr regs.arg1) (id regs.arg2) (id regs.arg3) 0x100
  | .PR_chown32 => .fchownat fdcwd (ptr regs.arg1) (int regs.arg2) (int regs.arg3) 0
  | .PR_lchown32 => .fchownat fdcwd (ptr regs.arg1) (int regs.arg2) (int regs.arg3) 0x100
  | .PR_fchownat =>
      .fchownat (int regs.arg1) (ptr regs.arg2) (int regs.arg3) (int regs.arg4) (int regs.arg5)
  | .PR_unlink => .unlinkat fdcwd (ptr regs.arg1) 0
  | .PR_rmdir => .unlinkat fdcwd (ptr regs.arg1) 0x200
  | .PR_unlinkat => .unlinkat (int regs.arg1) (ptr regs.arg2) (int regs.arg3)
  | .PR_send => .sendto (int regs.arg1) (ptr regs.arg2) (ptr regs.arg3) (int regs.arg4) 0 0
  | .PR_sendto => .sendto (int regs.arg1) (ptr regs.arg2) (ptr regs.arg3) (int regs.arg4)
      (ptr regs.arg5) (int regs.arg6)
  | .PR_recv => .recvfrom (int regs.arg1) (ptr regs.arg2) (ptr regs.arg3) (int regs.arg4) 0 0
  | .PR_recvfrom => .recvfrom (int regs.arg1) (ptr regs.arg2) (ptr regs.arg3) (int regs.arg4)
      (ptr regs.arg5) (ptr regs.arg6)
  | .PR_sendmmsg => .sendmmsg (int regs.arg1) (ptr regs.arg2) (int regs.arg3) (int regs.arg4)
  | .PR_socketcall => socketcallOp host abi regs memory
  | .PR_waitpid => .wait4 (int regs.arg1) (ptr regs.arg2) (int regs.arg3) 0
  | .PR_wait4 => .wait4 (int regs.arg1) (ptr regs.arg2) (int regs.arg3) (ptr regs.arg4)
  | .PR_utimes =>
      let time := ByteMemory.field long
      utimensatOp host memory (ptr regs.arg2) (4 * long)
        (fun v => usecValid (time v 1) && usecValid (time v 3))
        (fun v => (⟨time v 0, time v 1 * 1000⟩, ⟨time v 2, time v 3 * 1000⟩))
        fdcwd (ptr regs.arg1) 0
  | .PR_utime =>
      let time := ByteMemory.field long
      utimensatOp host memory (ptr regs.arg2) (2 * long) (fun _ => true)
        (fun v => (⟨time v 0, 0⟩, ⟨time v 1, 0⟩)) fdcwd (ptr regs.arg1) 0
  | .PR_utimensat =>
      let time := ByteMemory.field long
      utimensatOp host memory (ptr regs.arg3) (4 * long)
        (fun v => utimeValid (time v 1) && utimeValid (time v 3))
        (fun v => (⟨time v 0, time v 1⟩, ⟨time v 2, time v 3⟩))
        (int regs.arg1) (ptr regs.arg2) (int regs.arg4)
  | .PR_stat => .newfstatat fdcwd (ptr regs.arg1) (ptr regs.arg2) 0
  | .PR_lstat => .newfstatat fdcwd (ptr regs.arg1) (ptr regs.arg2) 0x100
  | .PR_newfstatat =>
      .newfstatat (int regs.arg1) (ptr regs.arg2) (ptr regs.arg3) (int regs.arg4)
  | .PR_pipe => if host = .ARCH_SH4 then .pipe else .pipe2 (ptr regs.arg1) 0
  | .PR_pipe2 => .pipe2 (ptr regs.arg1) (int regs.arg2)
  | .PR_dup2 =>
      if int regs.arg1 = int regs.arg2 then .dupSelf (int regs.arg1)
      else .dup3 (int regs.arg1) (int regs.arg2) 0
  | .PR_dup3 =>
      if int regs.arg1 = int regs.arg2 then .fail .EINVAL
      else .dup3 (int regs.arg1) (int regs.arg2) (int regs.arg3)
  | .PR_access => .faccessat fdcwd (ptr regs.arg1) (int regs.arg2)
  | .PR_faccessat => .faccessat (int regs.arg1) (ptr regs.arg2) (int regs.arg3)
  | .PR_mkdir => .mkdirat fdcwd (ptr regs.arg1) (mode regs.arg2)
  | .PR_mkdirat => .mkdirat (int regs.arg1) (ptr regs.arg2) (mode regs.arg3)
  | .PR_rename => .renameat fdcwd (ptr regs.arg1) fdcwd (ptr regs.arg2)
  | .PR_renameat => .renameat (int regs.arg1) (ptr regs.arg2) (int regs.arg3) (ptr regs.arg4)
  | .PR_select =>
      if isI386 host abi then .oldSelect (ptr regs.arg1)
      else
        timeoutOp host abi memory (ptr regs.arg5) usecValid 1000 fun timeout =>
          .select (int regs.arg1) (ptr regs.arg2) (ptr regs.arg3) (ptr regs.arg4) timeout
            (timeout.map fun _ => ptr regs.arg5) 0
  | .PR_pselect6 =>
      timeoutOp host abi memory (ptr regs.arg5) nsecValid 1 fun timeout =>
        .select (int regs.arg1) (ptr regs.arg2) (ptr regs.arg3) (ptr regs.arg4) timeout none
          (ptr regs.arg6)
  | .PR_poll =>
      let ms := (int regs.arg3).toInt
      .poll (ptr regs.arg1) (int regs.arg2)
        (if ms < 0 then none else some ⟨ms / 1000, ms % 1000 * 1000000⟩) none
  | .PR_ppoll =>
      timeoutOp host abi memory (ptr regs.arg3) nsecValid 1 fun timeout =>
        .poll (ptr regs.arg1) (int regs.arg2) timeout (sigmask regs.arg4 regs.arg5)
  | .PR_epoll_wait =>
      .epollPwait (int regs.arg1) (ptr regs.arg2) (int regs.arg3) (int regs.arg4) none
  | .PR_epoll_pwait =>
      .epollPwait (int regs.arg1) (ptr regs.arg2) (int regs.arg3) (int regs.arg4)
        (sigmask regs.arg5 regs.arg6)
  | .PR_ftruncate =>
      ftruncateOp (int regs.arg1) (Int.bmod (ptr regs.arg2).toNat (256 ^ long))
  | .PR_ftruncate64 =>
      let length := fun low high : BitVec 64 =>
        Int.bmod ((int low).toNat + 2 ^ 32 * (int high).toNat : Nat) (2 ^ 64)
      ftruncateOp (int regs.arg1)
        (if isArmEabi host abi then length regs.arg3 regs.arg4 else length regs.arg2 regs.arg3)
  | sysnum =>
      .other sysnum [regs.arg1, regs.arg2, regs.arg3, regs.arg4, regs.arg5, regs.arg6]

theorem kernelOp_select : kernelOp host abi regs memory .PR_select =
    if isI386 host abi then .oldSelect (peek host abi regs.arg1)
    else
      timeoutOp host abi memory (peek host abi regs.arg5) usecValid 1000 fun timeout =>
        .select (regs.arg1.setWidth 32) (peek host abi regs.arg2) (peek host abi regs.arg3)
          (peek host abi regs.arg4) timeout (timeout.map fun _ => peek host abi regs.arg5) 0 := rfl

theorem kernelOp_pselect6 : kernelOp host abi regs memory .PR_pselect6 =
    timeoutOp host abi memory (peek host abi regs.arg5) nsecValid 1 fun timeout =>
      .select (regs.arg1.setWidth 32) (peek host abi regs.arg2) (peek host abi regs.arg3)
        (peek host abi regs.arg4) timeout none (peek host abi regs.arg6) := rfl

theorem kernelOp_utimensat : kernelOp host abi regs memory .PR_utimensat =
    utimensatOp host memory (peek host abi regs.arg3) (4 * kernelLong host abi)
      (fun v => utimeValid (ByteMemory.field (kernelLong host abi) v 1) &&
        utimeValid (ByteMemory.field (kernelLong host abi) v 3))
      (fun v => (⟨ByteMemory.field (kernelLong host abi) v 0,
          ByteMemory.field (kernelLong host abi) v 1⟩,
        ⟨ByteMemory.field (kernelLong host abi) v 2, ByteMemory.field (kernelLong host abi) v 3⟩))
      (regs.arg1.setWidth 32) (peek host abi regs.arg2) (regs.arg4.setWidth 32) := rfl

theorem kernelOp_utimes : kernelOp host abi regs memory .PR_utimes =
    utimensatOp host memory (peek host abi regs.arg2) (4 * kernelLong host abi)
      (fun v => usecValid (ByteMemory.field (kernelLong host abi) v 1) &&
        usecValid (ByteMemory.field (kernelLong host abi) v 3))
      (fun v => (⟨ByteMemory.field (kernelLong host abi) v 0,
          ByteMemory.field (kernelLong host abi) v 1 * 1000⟩,
        ⟨ByteMemory.field (kernelLong host abi) v 2,
          ByteMemory.field (kernelLong host abi) v 3 * 1000⟩))
      (-100) (peek host abi regs.arg1) 0 := rfl

theorem kernelOp_utime : kernelOp host abi regs memory .PR_utime =
    utimensatOp host memory (peek host abi regs.arg2) (2 * kernelLong host abi) (fun _ => true)
      (fun v => (⟨ByteMemory.field (kernelLong host abi) v 0, 0⟩,
        ⟨ByteMemory.field (kernelLong host abi) v 1, 0⟩)) (-100) (peek host abi regs.arg1) 0 := rfl

end

end PRoot
