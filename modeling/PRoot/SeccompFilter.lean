import Mathlib.Algebra.GroupWithZero.Nat
import Mathlib.Algebra.Order.BigOperators.Group.List
import Mathlib.Algebra.Order.Group.Nat
import Mathlib.Data.List.Perm.Subperm
import PRoot.Bpf
import PRoot.Paths
import PRoot.Sysnum

/-!
# The seccomp filter

`syscall/seccomp.c`: from lists of system calls PRoot builds the filter program
that tells the kernel which calls to stop at.

* `mergeFilteredSysnums`: the lists are merged into one;
* `setSeccompFilters_eq`: the program is one section for each architecture;
* `setSeccompFilters_traps`: it stops the calls of the lists, and no others.
-/

namespace PRoot

/-- `FilteredSysnum`. -/
structure FilteredSysnum where
  value : Sysnum
  flags : BitVec 64
  deriving DecidableEq, Repr

/-- `FILTER_SYSEXIT`. -/
def filterSysexit : BitVec 64 := 1

/-- `proot_sysnums`, as built for Android. -/
def prootSysnums : List FilteredSysnum := [
  ⟨.PR_accept, filterSysexit⟩, ⟨.PR_accept4, filterSysexit⟩, ⟨.PR_access, 0⟩, ⟨.PR_acct, 0⟩,
  ⟨.PR_bind, 0⟩, ⟨.PR_brk, filterSysexit⟩, ⟨.PR_chdir, filterSysexit⟩, ⟨.PR_chmod, 0⟩,
  ⟨.PR_chown, 0⟩, ⟨.PR_chown32, 0⟩, ⟨.PR_chroot, 0⟩, ⟨.PR_clone, 0⟩, ⟨.PR_clone3, 0⟩,
  ⟨.PR_close, 0⟩, ⟨.PR_connect, 0⟩, ⟨.PR_creat, 0⟩, ⟨.PR_recvfrom, 0⟩, ⟨.PR_recvmsg, 0⟩,
  ⟨.PR_sendmsg, 0⟩, ⟨.PR_sendto, 0⟩, ⟨.PR_socket, filterSysexit⟩, ⟨.PR_execve, filterSysexit⟩,
  ⟨.PR_execveat, filterSysexit⟩, ⟨.PR_faccessat, 0⟩, ⟨.PR_faccessat2, filterSysexit⟩,
  ⟨.PR_fchdir, filterSysexit⟩, ⟨.PR_fchmodat, 0⟩, ⟨.PR_fchownat, 0⟩, ⟨.PR_fstatat64, 0⟩,
  ⟨.PR_futimesat, 0⟩, ⟨.PR_getcwd, filterSysexit⟩, ⟨.PR_getpeername, filterSysexit⟩,
  ⟨.PR_getsockname, filterSysexit⟩, ⟨.PR_getxattr, 0⟩, ⟨.PR_inotify_add_watch, 0⟩,
  ⟨.PR_ioctl, filterSysexit⟩, ⟨.PR_lchown, 0⟩, ⟨.PR_lchown32, 0⟩, ⟨.PR_lgetxattr, 0⟩,
  ⟨.PR_link, 0⟩, ⟨.PR_linkat, 0⟩, ⟨.PR_listxattr, 0⟩, ⟨.PR_llistxattr, 0⟩, ⟨.PR_lremovexattr, 0⟩,
  ⟨.PR_lsetxattr, 0⟩, ⟨.PR_lstat, 0⟩, ⟨.PR_lstat64, 0⟩, ⟨.PR_memfd_create, 0⟩, ⟨.PR_mkdir, 0⟩,
  ⟨.PR_mkdirat, 0⟩, ⟨.PR_mknod, 0⟩, ⟨.PR_mknodat, 0⟩, ⟨.PR_mount, filterSysexit⟩,
  ⟨.PR_name_to_handle_at, 0⟩, ⟨.PR_newfstatat, 0⟩, ⟨.PR_oldlstat, 0⟩, ⟨.PR_oldstat, 0⟩,
  ⟨.PR_open, 0⟩, ⟨.PR_openat, 0⟩, ⟨.PR_openat2, 0⟩, ⟨.PR_pivot_root, filterSysexit⟩,
  ⟨.PR_prctl, 0⟩, ⟨.PR_prlimit64, filterSysexit⟩, ⟨.PR_ptrace, filterSysexit⟩,
  ⟨.PR_readlink, filterSysexit⟩, ⟨.PR_readlinkat, filterSysexit⟩, ⟨.PR_removexattr, 0⟩,
  ⟨.PR_rename, filterSysexit⟩, ⟨.PR_renameat, filterSysexit⟩, ⟨.PR_renameat2, filterSysexit⟩,
  ⟨.PR_rmdir, 0⟩, ⟨.PR_setrlimit, filterSysexit⟩, ⟨.PR_setxattr, 0⟩,
  ⟨.PR_socketcall, filterSysexit⟩, ⟨.PR_stat, 0⟩, ⟨.PR_stat64, 0⟩, ⟨.PR_statfs, filterSysexit⟩,
  ⟨.PR_statfs64, filterSysexit⟩, ⟨.PR_statx, filterSysexit⟩, ⟨.PR_swapoff, 0⟩, ⟨.PR_swapon, 0⟩,
  ⟨.PR_symlink, 0⟩, ⟨.PR_symlinkat, 0⟩, ⟨.PR_truncate, 0⟩, ⟨.PR_truncate64, 0⟩,
  ⟨.PR_umount, filterSysexit⟩, ⟨.PR_umount2, filterSysexit⟩, ⟨.PR_uname, filterSysexit⟩,
  ⟨.PR_unshare, filterSysexit⟩, ⟨.PR_setns, filterSysexit⟩, ⟨.PR_unlink, 0⟩, ⟨.PR_unlinkat, 0⟩,
  ⟨.PR_uselib, 0⟩, ⟨.PR_utime, filterSysexit⟩, ⟨.PR_utimensat, 0⟩, ⟨.PR_utimes, 0⟩,
  ⟨.PR_wait4, filterSysexit⟩, ⟨.PR_waitpid, filterSysexit⟩]

/-- What is read of an array: the entries before the first `PR_void`. -/
def entries (sysnums : List FilteredSysnum) : List FilteredSysnum :=
  sysnums.takeWhile fun sysnum => sysnum.value ≠ .PR_void

/-- Merge one entry, at the place of its system call if it has one. -/
def mergeSysnum : List FilteredSysnum → FilteredSysnum → List FilteredSysnum
  | [], new => [new]
  | sysnum :: rest, new =>
      if sysnum.value = new.value then { sysnum with flags := sysnum.flags ||| new.flags } :: rest
      else sysnum :: mergeSysnum rest new

/-- `merge_filtered_sysnums`.  The list at hand is kept without its terminator. -/
def mergeFilteredSysnums (sysnums newSysnums : List FilteredSysnum) : List FilteredSysnum :=
  (entries newSysnums).foldl mergeSysnum sysnums

/-! ## The program -/

/-- `SECCOMP_RET_KILL`. -/
def seccompRetKill : BitVec 32 := 0x00000000

/-- `SECCOMP_RET_TRACE`. -/
def seccompRetTrace : BitVec 32 := 0x7ff00000

/-- `SECCOMP_RET_ALLOW`. -/
def seccompRetAllow : BitVec 32 := 0x7fff0000

/-- `SeccompArch`. -/
structure SeccompArch where
  value : BitVec 32
  abis : List Abi
  deriving DecidableEq, Repr

/-- `SECCOMP_ARCHS`. -/
def Host.seccompArchs : Host → List SeccompArch
  | .ARCH_X86_64 => [⟨0xc000003e, [.ABI_DEFAULT, .ABI_3]⟩, ⟨0x40000003, [.ABI_2]⟩]
  | .ARCH_ARM_EABI => [⟨0x40000028, [.ABI_DEFAULT]⟩]
  | .ARCH_ARM64 => [⟨0xc00000b7, [.ABI_DEFAULT]⟩, ⟨0x40000028, [.ABI_2]⟩]
  | .ARCH_X86 => [⟨0x40000003, [.ABI_DEFAULT]⟩]
  | .ARCH_SH4 => []

/-- `struct sock_fprog`. -/
structure Program where
  filter : List Bpf.Insn
  len : BitVec 16
  deriving DecidableEq, Repr

/-- `new_program_filter`. -/
def newProgramFilter : Program := ⟨[], 0⟩

/-- `add_statements`. -/
def addStatements (program : Program) (statements : List Bpf.Insn) : Program :=
  { program with filter := program.filter ++ statements }

/-- `add_trace_syscall`. -/
def addTraceSyscall (program : Program) (syscall : Nat) (flag : BitVec 32) :
    Except Errno Program :=
  if syscall > 2 ^ 32 - 1 then .error .ERANGE
  else .ok (addStatements program [Bpf.jump .jeq (BitVec.ofNat 32 syscall) 0 1,
    Bpf.stmt .ret (seccompRetTrace + flag)])

/-- `end_arch_section`. -/
def endArchSection (program : Program) (nbTracedSyscalls : Nat) : Except Errno Program :=
  let program := addStatements program [Bpf.stmt .ret seccompRetAllow]
  if program.filter.length - program.len.toNat ≠ 1 + nbTracedSyscalls * 2 then .error .ERANGE
  else .ok program

/-- The offset of `nr` in `struct seccomp_data`. -/
def syscallOffset : BitVec 32 := 0

/-- The offset of `arch` in `struct seccomp_data`. -/
def archOffset : BitVec 32 := 4

/-- `start_arch_section`. -/
def startArchSection (program : Program) (arch : BitVec 32) (nbTracedSyscalls : Nat) :
    Except Errno Program :=
  let sectionLength := 1 + nbTracedSyscalls * 2
  if sectionLength > 2 ^ 32 - 1 - 1 then .error .ERANGE
  else
    let program := addStatements program [
      Bpf.stmt .ldAbs archOffset,
      Bpf.jump .jeq arch 1 0,
      Bpf.stmt .ja (BitVec.ofNat 32 (sectionLength + 1)),
      Bpf.stmt .ldAbs syscallOffset]
    .ok { program with len := BitVec.ofNat 16 program.filter.length }

/-- `finalize_program_filter`. -/
def finalizeProgramFilter (program : Program) : Program :=
  let program := addStatements program [Bpf.stmt .ret seccompRetKill]
  { program with len := BitVec.ofNat 16 program.filter.length }

/-- The number of system calls traced for an architecture, which
`set_seccomp_filters` computes first. -/
def nbTracedSyscalls (host : Host) (sysnums : List FilteredSysnum) (arch : SeccompArch) : Nat :=
  (arch.abis.map fun abi => sysnums.countP fun sysnum =>
    detranslateSysnum host abi sysnum.value ≠ host.avoider).sum

/-- The tests `set_seccomp_filters` puts in for one ABI. -/
def addAbi (host : Host) (sysnums : List FilteredSysnum) (program : Program) (abi : Abi) :
    Except Errno Program :=
  sysnums.foldlM (fun program sysnum =>
    let syscall := detranslateSysnum host abi sysnum.value
    if syscall = host.avoider then .ok program
    else addTraceSyscall program syscall (sysnum.flags.setWidth 32)) program

/-- The section `set_seccomp_filters` puts in for one architecture. -/
def addArch (host : Host) (sysnums : List FilteredSysnum) (program : Program)
    (arch : SeccompArch) : Except Errno Program := do
  let nb := nbTracedSyscalls host sysnums arch
  let program ← startArchSection program arch.value nb
  let program ← arch.abis.foldlM (addAbi host sysnums) program
  endArchSection program nb

/-- `set_seccomp_filters`, up to the program the kernel is given. -/
def setSeccompFilters (host : Host) (sysnums : List FilteredSysnum) : Except Errno Program := do
  let program ← host.seccompArchs.foldlM (addArch host sysnums) newProgramFilter
  .ok (finalizeProgramFilter program)

/-- `enable_syscall_filtering`, with the lists of the extensions. -/
def enableSyscallFiltering (host : Host) (extensions : List (List FilteredSysnum)) :
    Except Errno Program :=
  setSeccompFilters host ((prootSysnums :: extensions).foldl mergeFilteredSysnums [])

/-- What the kernel gives to a filter: `struct seccomp_data`. -/
def seccompData (arch nr : BitVec 32) (offset : Nat) : BitVec 32 :=
  if offset = syscallOffset.toNat then nr else if offset = archOffset.toNat then arch else 0

/-! ## Merging -/

/-- The union of the flags of some entries. -/
def unionFlags (sysnums : List FilteredSysnum) : BitVec 64 :=
  sysnums.foldr (fun sysnum flags => sysnum.flags ||| flags) 0

/-- The entries of one system call. -/
def ofSysnum (value : Sysnum) (sysnums : List FilteredSysnum) : List FilteredSysnum :=
  sysnums.filter fun sysnum => sysnum.value = value

theorem unionFlags_append (l₁ l₂ : List FilteredSysnum) :
    unionFlags (l₁ ++ l₂) = unionFlags l₁ ||| unionFlags l₂ := by
  induction l₁ with
  | nil => simp [unionFlags]
  | cons sysnum l₁ ih =>
      show sysnum.flags ||| unionFlags (l₁ ++ l₂) = sysnum.flags ||| unionFlags l₁ ||| unionFlags l₂
      rw [ih, BitVec.or_assoc]

/-- Merging an entry puts in its system call, ... -/
theorem mergeSysnum_values (sysnums : List FilteredSysnum) (new : FilteredSysnum) (value : Sysnum) :
    value ∈ (mergeSysnum sysnums new).map FilteredSysnum.value ↔
      value ∈ sysnums.map FilteredSysnum.value ∨ value = new.value := by
  induction sysnums with
  | nil => simp [mergeSysnum]
  | cons sysnum rest ih =>
      rw [mergeSysnum]
      split
      · rename_i heq
        simp only [List.map_cons, List.mem_cons, heq]
        tauto
      · rw [List.map_cons, List.mem_cons, ih, List.map_cons, List.mem_cons, or_assoc]

variable {sysnums : List FilteredSysnum}

/-- ... once, ... -/
theorem mergeSysnum_nodup (new : FilteredSysnum) (h : (sysnums.map FilteredSysnum.value).Nodup) :
    ((mergeSysnum sysnums new).map FilteredSysnum.value).Nodup := by
  induction sysnums with
  | nil => exact List.nodup_singleton _
  | cons sysnum rest ih =>
      rw [List.map_cons, List.nodup_cons] at h
      rw [mergeSysnum]
      split
      · rw [List.map_cons, List.nodup_cons]
        exact h
      · rename_i hne
        rw [List.map_cons, List.nodup_cons]
        refine ⟨fun hmem => ?_, ih h.2⟩
        rcases (mergeSysnum_values rest new _).mp hmem with hmem | heq
        · exact h.1 hmem
        · exact hne heq

/-- ... with its flags. -/
theorem mergeSysnum_flags (sysnums : List FilteredSysnum) (new : FilteredSysnum) (value : Sysnum) :
    unionFlags (ofSysnum value (mergeSysnum sysnums new)) =
      unionFlags (ofSysnum value sysnums) ||| unionFlags (ofSysnum value [new]) := by
  induction sysnums with
  | nil => simp [mergeSysnum, ofSysnum, unionFlags]
  | cons sysnum rest ih =>
      have hcons : ∀ (first : FilteredSysnum) (rest : List FilteredSysnum),
          unionFlags (ofSysnum value (first :: rest)) =
            unionFlags (ofSysnum value [first]) ||| unionFlags (ofSysnum value rest) := by
        intro first rest
        rw [ofSysnum, ofSysnum, ofSysnum, ← unionFlags_append, ← List.filter_append]
        rfl
      rw [mergeSysnum]
      split
      · rename_i heq
        have hmerged : unionFlags (ofSysnum value [{ sysnum with flags := sysnum.flags ||| new.flags }]) =
            unionFlags (ofSysnum value [sysnum]) ||| unionFlags (ofSysnum value [new]) := by
          by_cases hv : sysnum.value = value
          · have hv' : new.value = value := heq ▸ hv
            simp [ofSysnum, unionFlags, hv, hv']
          · have hv' : ¬ new.value = value := heq ▸ hv
            simp [ofSysnum, unionFlags, hv, hv']
        rw [hcons _ rest, hmerged, hcons sysnum rest, BitVec.or_assoc, BitVec.or_assoc,
          BitVec.or_comm (unionFlags (ofSysnum value [new]))]
      · rw [hcons sysnum (mergeSysnum rest new), ih, hcons sysnum rest, BitVec.or_assoc]

/-- Where every system call is listed once, the union is that of one entry. -/
theorem unionFlags_single (hnodup : (sysnums.map FilteredSysnum.value).Nodup)
    {sysnum : FilteredSysnum} (hmem : sysnum ∈ sysnums) :
    unionFlags (ofSysnum sysnum.value sysnums) = sysnum.flags := by
  obtain ⟨before, after, rfl⟩ := List.append_of_mem hmem
  rw [List.map_append, List.map_cons, List.nodup_middle, List.nodup_cons, ← List.map_append] at hnodup
  have hother : ∀ l, (∀ entry ∈ l, entry ∈ before ++ after) → ofSysnum sysnum.value l = [] := by
    intro l hl
    refine List.filter_eq_nil_iff.mpr fun entry hentry => ?_
    have hne : entry.value ≠ sysnum.value := fun heq =>
      hnodup.1 (List.mem_map.mpr ⟨entry, hl entry hentry, heq⟩)
    simpa using hne
  have honly : ofSysnum sysnum.value (before ++ sysnum :: after) = [sysnum] := by
    have hsplit : ofSysnum sysnum.value (before ++ sysnum :: after) =
        ofSysnum sysnum.value before ++ sysnum :: ofSysnum sysnum.value after := by
      simp [ofSysnum]
    rw [hsplit, hother before fun entry h => List.mem_append_left _ h,
      hother after fun entry h => List.mem_append_right _ h]
    rfl
  rw [honly]
  simp [unionFlags]

/-- The entries of all lists. -/
def allEntries (lists : List (List FilteredSysnum)) : List FilteredSysnum := lists.flatMap entries

/-- The lists are merged entry by entry. -/
theorem mergeLists_eq (lists : List (List FilteredSysnum)) :
    lists.foldl mergeFilteredSysnums [] = (allEntries lists).foldl mergeSysnum [] := by
  unfold allEntries
  generalize ([] : List FilteredSysnum) = sysnums
  induction lists generalizing sysnums with
  | nil => rfl
  | cons list lists ih =>
      rw [List.foldl_cons, List.flatMap_cons, List.foldl_append]
      exact ih (mergeFilteredSysnums sysnums list)

/-- **The merged list** has every system call of the lists once, with the union of
its flags. -/
theorem mergeLists_spec (lists : List (List FilteredSysnum)) :
    ((lists.foldl mergeFilteredSysnums []).map FilteredSysnum.value).Nodup ∧
    ∀ value, (value ∈ (lists.foldl mergeFilteredSysnums []).map FilteredSysnum.value ↔
        value ∈ (allEntries lists).map FilteredSysnum.value) ∧
      unionFlags (ofSysnum value (lists.foldl mergeFilteredSysnums [])) =
        unionFlags (ofSysnum value (allEntries lists)) := by
  rw [mergeLists_eq]
  induction allEntries lists using List.reverseRecOn with
  | nil => exact ⟨List.nodup_nil, fun value => ⟨Iff.rfl, rfl⟩⟩
  | append_singleton l new ih =>
      obtain ⟨hnodup, hvalues⟩ := ih
      rw [List.foldl_append]
      refine ⟨mergeSysnum_nodup new hnodup, fun value => ⟨?_, ?_⟩⟩
      · show value ∈ (mergeSysnum (l.foldl mergeSysnum []) new).map FilteredSysnum.value ↔ _
        rw [mergeSysnum_values, (hvalues value).1, List.map_append, List.mem_append]
        simp
      · show unionFlags (ofSysnum value (mergeSysnum (l.foldl mergeSysnum []) new)) = _
        rw [mergeSysnum_flags, (hvalues value).2, ofSysnum, ofSysnum, ← unionFlags_append,
          ← List.filter_append]
        rfl

/-! ## The program is one section for each architecture -/

/-- The tests of an ABI: the number of a system call and what the filter returns
for it. -/
def tests (host : Host) (sysnums : List FilteredSysnum) (abi : Abi) :
    List (BitVec 32 × BitVec 32) :=
  (sysnums.filter fun sysnum => detranslateSysnum host abi sysnum.value ≠ host.avoider).map
    fun sysnum => (BitVec.ofNat 32 (detranslateSysnum host abi sysnum.value),
      seccompRetTrace + sysnum.flags.setWidth 32)

/-- The tests of all ABIs of an architecture. -/
def archTests (host : Host) (sysnums : List FilteredSysnum) (arch : SeccompArch) :
    List (BitVec 32 × BitVec 32) :=
  arch.abis.flatMap (tests host sysnums)

/-- How the section of an architecture begins, with `nb` tests in it. -/
def archHeader (arch : BitVec 32) (nb : Nat) : List Bpf.Insn :=
  [Bpf.stmt .ldAbs archOffset,
    Bpf.jump .jeq arch 1 0,
    Bpf.stmt .ja (BitVec.ofNat 32 (1 + nb * 2 + 1)),
    Bpf.stmt .ldAbs syscallOffset]

/-- The section of an architecture. -/
def archSection (arch : BitVec 32) (cases : List (BitVec 32 × BitVec 32)) : List Bpf.Insn :=
  archHeader arch cases.length ++ (Bpf.switch cases ++ [Bpf.stmt .ret seccompRetAllow])

theorem archSection_length (arch : BitVec 32) (cases : List (BitVec 32 × BitVec 32)) :
    (archSection arch cases).length = 5 + cases.length * 2 := by
  rw [archSection, List.length_append, List.length_append, Bpf.switch_length]
  show 4 + (cases.length * 2 + 1) = 5 + cases.length * 2
  omega

variable {host : Host}

/-- A number in the tests is one of a system call. -/
theorem detranslateSysnum_le {abi : Abi} {value : Sysnum}
    (h : detranslateSysnum host abi value ≠ host.avoider) :
    detranslateSysnum host abi value < 2 ^ 31 :=
  number_lt ((detranslateSysnum_eq_iff h).mp rfl)

@[simp] theorem addStatements_nil (program : Program) : addStatements program [] = program := by
  rw [addStatements, List.append_nil]

@[simp] theorem addStatements_append (program : Program) (p q : List Bpf.Insn) :
    addStatements (addStatements program p) q = addStatements program (p ++ q) := by
  rw [addStatements, addStatements, addStatements, List.append_assoc]

theorem addAbi_eq (host : Host) (sysnums : List FilteredSysnum) (program : Program) (abi : Abi) :
    addAbi host sysnums program abi =
      .ok (addStatements program (Bpf.switch (tests host sysnums abi))) := by
  induction sysnums generalizing program with
  | nil => exact congrArg Except.ok (addStatements_nil program).symm
  | cons sysnum sysnums ih =>
      have hstep : addAbi host (sysnum :: sysnums) program abi =
          (if detranslateSysnum host abi sysnum.value = host.avoider then .ok program
            else addTraceSyscall program (detranslateSysnum host abi sysnum.value)
              (sysnum.flags.setWidth 32)) >>= fun program => addAbi host sysnums program abi := rfl
      rw [hstep]
      by_cases havoid : detranslateSysnum host abi sysnum.value = host.avoider
      · have htests : tests host (sysnum :: sysnums) abi = tests host sysnums abi := by
          simp [tests, havoid]
        rw [if_pos havoid, htests]
        exact ih program
      · have htests : tests host (sysnum :: sysnums) abi =
            (BitVec.ofNat 32 (detranslateSysnum host abi sysnum.value),
              seccompRetTrace + sysnum.flags.setWidth 32) :: tests host sysnums abi := by
          simp [tests, havoid]
        have hlt := detranslateSysnum_le havoid
        rw [if_neg havoid, htests, Bpf.switch, addTraceSyscall, if_neg (by omega)]
        show addAbi host sysnums (addStatements program _) abi = _
        rw [ih, addStatements_append]
        rfl

/-- The ABIs of an architecture, one after the other. -/
theorem addAbis_eq (host : Host) (sysnums : List FilteredSysnum) (program : Program)
    (abis : List Abi) :
    abis.foldlM (addAbi host sysnums) program =
      .ok (addStatements program (Bpf.switch (abis.flatMap (tests host sysnums)))) := by
  induction abis generalizing program with
  | nil => exact congrArg Except.ok (addStatements_nil program).symm
  | cons abi abis ih =>
      rw [List.foldlM_cons, addAbi_eq]
      show abis.foldlM (addAbi host sysnums) (addStatements program _) = _
      rw [ih, addStatements_append, List.flatMap_cons, Bpf.switch_append]

/-- The tests are those that were counted first. -/
theorem archTests_length (host : Host) (sysnums : List FilteredSysnum) (arch : SeccompArch) :
    (archTests host sysnums arch).length = nbTracedSyscalls host sysnums arch := by
  unfold archTests nbTracedSyscalls
  rw [List.length_flatMap]
  congr 1
  refine List.map_congr_left fun abi _ => ?_
  rw [tests, List.length_map, List.countP_eq_length_filter]

theorem startArchSection_eq (program : Program) (arch : BitVec 32) {nb : Nat}
    (hfits : 1 + nb * 2 ≤ 2 ^ 32 - 1 - 1) :
    startArchSection program arch nb = .ok ⟨program.filter ++ archHeader arch nb,
      BitVec.ofNat 16 (program.filter ++ archHeader arch nb).length⟩ :=
  if_neg (Nat.not_lt.mpr hfits)

theorem endArchSection_eq {program : Program} {nb : Nat}
    (hlen : program.filter.length = program.len.toNat + nb * 2) :
    endArchSection program nb =
      .ok (addStatements program [Bpf.stmt .ret seccompRetAllow]) := by
  refine if_neg fun hne => hne ?_
  show (program.filter ++ [Bpf.stmt .ret seccompRetAllow]).length - program.len.toNat = _
  rw [List.length_append, List.length_singleton]
  omega

/-- **The section of an architecture** is put behind the program, as long as the
length of the program fits `len`. -/
theorem addArch_eq (host : Host) (sysnums : List FilteredSysnum) (program : Program)
    (arch : SeccompArch)
    (hfits : program.filter.length + (5 + (archTests host sysnums arch).length * 2) < 2 ^ 16) :
    ∃ len, addArch host sysnums program arch =
      .ok ⟨program.filter ++ archSection arch.value (archTests host sysnums arch), len⟩ := by
  have hcount := archTests_length host sysnums arch
  have hswitch := Bpf.switch_length (archTests host sysnums arch)
  generalize hn : (archTests host sysnums arch).length = n at hcount hswitch hfits
  have hheader : (archHeader arch.value n).length = 4 := rfl
  have hend : endArchSection (addStatements ⟨program.filter ++ archHeader arch.value n,
      BitVec.ofNat 16 (program.filter ++ archHeader arch.value n).length⟩
      (Bpf.switch (archTests host sysnums arch))) n = _ := endArchSection_eq (by
    rw [addStatements]
    simp only [List.length_append, hswitch, hheader, BitVec.toNat_ofNat]
    rw [Nat.mod_eq_of_lt (by omega)])
  refine ⟨BitVec.ofNat 16 (program.filter ++ archHeader arch.value n).length, ?_⟩
  unfold addArch
  simp only [← hcount, bind, Except.bind,
    startArchSection_eq program arch.value (Nat.le_of_lt_succ (by omega : 1 + n * 2 < 2 ^ 32 - 1)),
    addAbis_eq]
  refine hend.trans ?_
  simp only [addStatements, archSection, hn, List.append_assoc]

/-- The sections of some architectures. -/
def archSections (host : Host) (sysnums : List FilteredSysnum) (archs : List SeccompArch) :
    List Bpf.Insn :=
  archs.flatMap fun arch => archSection arch.value (archTests host sysnums arch)

theorem addArchs_eq (host : Host) (sysnums : List FilteredSysnum) (program : Program)
    (archs : List SeccompArch)
    (hfits : program.filter.length + (archSections host sysnums archs).length < 2 ^ 16) :
    ∃ len, archs.foldlM (addArch host sysnums) program =
      .ok ⟨program.filter ++ archSections host sysnums archs, len⟩ := by
  induction archs generalizing program with
  | nil => exact ⟨program.len, by simp [archSections, pure, Except.pure]⟩
  | cons arch archs ih =>
      have hsplit : archSections host sysnums (arch :: archs) =
          archSection arch.value (archTests host sysnums arch) ++
            archSections host sysnums archs := List.flatMap_cons
      rw [hsplit, List.length_append, archSection_length] at hfits
      obtain ⟨len, hadd⟩ := addArch_eq host sysnums program arch (by omega)
      rw [List.foldlM_cons, hadd, hsplit, ← List.append_assoc]
      refine ih _ ?_
      rw [List.length_append, archSection_length]
      omega

/-- The number of system calls an ABI has. -/
def abiSize (host : Host) (abi : Abi) : Nat :=
  (getSysnums host abi).elim 0 fun sysnums => sysnums.table.entries.length

/-- An ABI has no more tests than system calls. -/
theorem tests_length_le (host : Host) (hnodup : (sysnums.map FilteredSysnum.value).Nodup)
    (abi : Abi) :
    (tests host sysnums abi).length ≤ abiSize host abi := by
  have hnames : ∀ value ∈ (sysnums.filter fun sysnum =>
      detranslateSysnum host abi sysnum.value ≠ host.avoider).map FilteredSysnum.value,
      ∃ nr, Names host abi nr value := by
    intro value hvalue
    obtain ⟨sysnum, hmem, rfl⟩ := List.mem_map.mp hvalue
    have havoid : detranslateSysnum host abi sysnum.value ≠ host.avoider := by
      simpa using (List.mem_filter.mp hmem).2
    exact ⟨_, (detranslateSysnum_eq_iff havoid).mp rfl⟩
  rw [tests, List.length_map, ← List.length_map FilteredSysnum.value]
  unfold abiSize
  cases htable : getSysnums host abi with
  | none =>
      refine Nat.le_of_eq (List.length_eq_zero_iff.mpr (List.eq_nil_iff_forall_not_mem.mpr ?_))
      intro value hvalue
      obtain ⟨nr, -, table, hget, -⟩ := hnames value hvalue
      rw [htable] at hget
      cases hget
  | some table =>
      have hsize : table.table.entries.length = (table.table.entries.map Prod.snd).length :=
        (List.length_map Prod.snd).symm
      rw [Option.elim_some, hsize]
      refine List.Subperm.length_le (List.subperm_of_subset ?_ ?_)
      · exact (List.filter_sublist.map FilteredSysnum.value).nodup hnodup
      · intro value hvalue
        obtain ⟨nr, hne, t, ht, i, hi, -⟩ := hnames value hvalue
        obtain rfl : table = t := Option.some.inj (htable.symm.trans ht)
        exact List.mem_map.mpr ⟨_, SysnumTable.mem_of_get (hi ▸ hne), hi⟩

/-- The size of the sections is bounded by the sizes of the tables. -/
theorem archSections_length_le (host : Host) (hnodup : (sysnums.map FilteredSysnum.value).Nodup)
    (archs : List SeccompArch) :
    (archSections host sysnums archs).length ≤
      (archs.map fun arch => 5 + (arch.abis.map (abiSize host)).sum * 2).sum := by
  induction archs with
  | nil => exact Nat.le_refl 0
  | cons arch archs ih =>
      have htests : (archTests host sysnums arch).length ≤ (arch.abis.map (abiSize host)).sum := by
        rw [archTests, List.length_flatMap]
        exact List.sum_le_sum fun abi _ => tests_length_le host hnodup abi
      rw [archSections, List.flatMap_cons, List.length_append, archSection_length, List.map_cons,
        List.sum_cons]
      exact Nat.add_le_add (by omega) ih

/-- **The program**: a section for each architecture, and `SECCOMP_RET_KILL`.  The
kernel takes up to 4096 statements. -/
theorem setSeccompFilters_eq (host : Host) (hnodup : (sysnums.map FilteredSysnum.value).Nodup) :
    ∃ program, setSeccompFilters host sysnums = .ok program ∧
      program.filter = archSections host sysnums host.seccompArchs ++
        [Bpf.stmt .ret seccompRetKill] ∧
      program.len.toNat = program.filter.length ∧ program.filter.length ≤ 4096 := by
  have hlength : (archSections host sysnums host.seccompArchs).length < 4096 := by
    refine Nat.lt_of_le_of_lt (archSections_length_le host hnodup host.seccompArchs) ?_
    cases host <;> decide +kernel
  obtain ⟨len, hfold⟩ := addArchs_eq host sysnums newProgramFilter host.seccompArchs
    (by rw [newProgramFilter, List.length_nil]; omega)
  have hfilter : (archSections host sysnums host.seccompArchs ++
      [Bpf.stmt .ret seccompRetKill]).length ≤ 4096 := by
    rw [List.length_append, List.length_singleton]
    omega
  refine ⟨_, by rw [setSeccompFilters, hfold]; rfl, rfl, ?_, hfilter⟩
  exact Nat.mod_eq_of_lt (Nat.lt_of_le_of_lt hfilter (by decide))

/-! ## Running the program -/

theorem archSection_jumps (arch : BitVec 32) (cases : List (BitVec 32 × BitVec 32)) :
    Bpf.JumpsWithin 1 (archSection arch cases) := by
  have hbody : Bpf.JumpsWithin 1 (Bpf.switch cases ++ [Bpf.stmt .ret seccompRetAllow]) := by
    refine (Bpf.switch_jumps cases (Nat.le_refl 1)).append (Nat.le_add_right 1 1) ?_
    exact ⟨fun offset hoffset => absurd hoffset List.not_mem_nil, True.intro⟩
  have hlength : (Bpf.switch cases ++ [Bpf.stmt .ret seccompRetAllow]).length =
      cases.length * 2 + 1 := by
    rw [List.length_append, Bpf.switch_length, List.length_singleton]
  have hzero : ∀ offset ∈ [0], ∀ rest : List Bpf.Insn, offset < rest.length + 1 :=
    fun offset hoffset rest => List.mem_singleton.mp hoffset ▸ Nat.succ_pos rest.length
  refine ⟨fun offset hoffset => hzero offset hoffset _, ?_, ?_,
    fun offset hoffset => hzero offset hoffset _, hbody⟩
  · intro offset hoffset
    rcases List.mem_cons.mp hoffset with rfl | hoffset
    · exact Nat.succ_lt_succ (Nat.succ_pos _)
    · exact hzero offset hoffset _
  · intro offset hoffset
    obtain rfl : offset = (1 + cases.length * 2 + 1) % 2 ^ 32 := List.mem_singleton.mp hoffset
    show _ < (Bpf.switch cases ++ [Bpf.stmt .ret seccompRetAllow]).length + 1 + 1
    rw [hlength]
    exact Nat.lt_of_le_of_lt (Nat.mod_le _ _) (by omega)

variable {nr : BitVec 32}

/-- A section decides about the calls of its architecture, and passes the others on. -/
theorem run_archSection {arch : BitVec 32} (value : BitVec 32)
    {cases : List (BitVec 32 × BitVec 32)} (hfits : cases.length * 2 + 2 < 2 ^ 32)
    (rest : List Bpf.Insn) (acc : BitVec 32) :
    Bpf.run (seccompData arch nr) (archSection value cases ++ rest) 0 acc =
      if arch = value then some ((cases.lookup nr).getD seccompRetAllow)
      else Bpf.run (seccompData arch nr) rest 0 arch := by
  let body := Bpf.switch cases ++ [Bpf.stmt .ret seccompRetAllow]
  have hstart : Bpf.run (seccompData arch nr) (archSection value cases ++ rest) 0 acc =
      Bpf.run (seccompData arch nr) (Bpf.stmt .ja (BitVec.ofNat 32 (1 + cases.length * 2 + 1)) ::
        ((Bpf.stmt .ldAbs syscallOffset :: body) ++ rest)) (if arch = value then 1 else 0) arch :=
    rfl
  rw [hstart]
  by_cases heq : arch = value
  · rw [if_pos heq, if_pos heq]
    show Bpf.run (seccompData arch nr) (body ++ rest) 0 nr = _
    rw [List.append_assoc, Bpf.run_switch]
    cases cases.lookup nr <;> rfl
  · have hskip : (BitVec.ofNat 32 (1 + cases.length * 2 + 1)).toNat =
        (Bpf.stmt .ldAbs syscallOffset :: body).length + 0 := by
      show (1 + cases.length * 2 + 1) % 2 ^ 32 = body.length + 1
      rw [List.length_append, Bpf.switch_length, List.length_singleton,
        Nat.mod_eq_of_lt (by omega)]
      omega
    rw [if_neg heq, if_neg heq]
    show Bpf.run (seccompData arch nr) ((Bpf.stmt .ldAbs syscallOffset :: body) ++ rest)
      (BitVec.ofNat 32 (1 + cases.length * 2 + 1)).toNat arch = _
    rw [hskip, Bpf.run_append]

/-- The sections and `SECCOMP_RET_KILL`: the first section of the architecture
decides. -/
theorem run_archSections (host : Host) (sysnums : List FilteredSysnum) {arch : BitVec 32}
    (archs : List SeccompArch) (hfits : (archSections host sysnums archs).length < 2 ^ 16)
    (acc : BitVec 32) :
    Bpf.run (seccompData arch nr)
        (archSections host sysnums archs ++ [Bpf.stmt .ret seccompRetKill]) 0 acc =
      some ((archs.find? fun a => a.value = arch).elim seccompRetKill fun a =>
        ((archTests host sysnums a).lookup nr).getD seccompRetAllow) := by
  induction archs generalizing acc with
  | nil => rfl
  | cons a archs ih =>
      have hsplit : archSections host sysnums (a :: archs) =
          archSection a.value (archTests host sysnums a) ++ archSections host sysnums archs :=
        List.flatMap_cons
      rw [hsplit, List.length_append, archSection_length] at hfits
      rw [hsplit, List.append_assoc, run_archSection a.value (by omega)]
      by_cases heq : arch = a.value
      · rw [if_pos heq, List.find?_cons_of_pos (by simpa using heq.symm)]
        rfl
      · rw [if_neg heq, List.find?_cons_of_neg (by simpa using Ne.symm heq)]
        exact ih (by omega) arch

theorem archSections_jumps (host : Host) (sysnums : List FilteredSysnum)
    (archs : List SeccompArch) : Bpf.JumpsWithin 0
      (archSections host sysnums archs ++ [Bpf.stmt .ret seccompRetKill]) := by
  induction archs with
  | nil => exact ⟨fun offset hoffset => absurd hoffset List.not_mem_nil, True.intro⟩
  | cons a archs ih =>
      rw [archSections, List.flatMap_cons, List.append_assoc]
      refine (archSection_jumps a.value _).append ?_ ih
      rw [List.length_append, List.length_singleton]
      omega

variable {arch : SeccompArch}

/-- Every architecture is listed once. -/
theorem seccompArchs_find (harch : arch ∈ host.seccompArchs) :
    (host.seccompArchs.find? fun a => a.value = arch.value) = some arch := by
  cases host with
  | ARCH_X86_64 | ARCH_ARM64 => rcases List.mem_pair.mp harch with rfl | rfl <;> rfl
  | ARCH_ARM_EABI | ARCH_X86 => rw [List.mem_singleton.mp harch]; rfl
  | ARCH_SH4 => exact absurd harch List.not_mem_nil

/-! ## What the filter decides -/

/-- The system calls a number denotes in an architecture. -/
def Denotes (host : Host) (arch : SeccompArch) (nr : BitVec 32) (value : Sysnum) : Prop :=
  ∃ abi ∈ arch.abis, Names host abi nr.toNat value

instance (host : Host) (abi : Abi) (nr : Nat) (value : Sysnum) :
    Decidable (Names host abi nr value) :=
  decidable_of_iff (nr ≠ host.avoider ∧ detranslateSysnum host abi value = nr)
    ⟨fun h => (detranslateSysnum_eq_iff h.1).mp h.2,
      fun h => ⟨h.ne_avoider, (detranslateSysnum_eq_iff h.ne_avoider).mpr h⟩⟩

instance (host : Host) (arch : SeccompArch) (nr : BitVec 32) (value : Sysnum) :
    Decidable (Denotes host arch nr value) :=
  inferInstanceAs (Decidable (∃ abi ∈ arch.abis, Names host abi nr.toNat value))

/-- The ABIs of one architecture have numbers of their own. -/
theorem abis_apart (harch : arch ∈ host.seccompArchs) {abi abi' : Abi} (habi : abi ∈ arch.abis)
    (habi' : abi' ∈ arch.abis) {table table' : Sysnums} (hget : getSysnums host abi = some table)
    (hget' : getSysnums host abi' = some table') :
    abi = abi' ∨ table.offset + 600 ≤ table'.offset ∨ table'.offset + 600 ≤ table.offset := by
  cases host with
  | ARCH_X86_64 =>
      rcases List.mem_cons.mp harch with rfl | harch
      · cases abi <;> cases abi' <;> cases hget <;> cases hget' <;> simp_all
      · rw [List.mem_singleton.mp harch] at habi habi'
        exact Or.inl ((List.mem_singleton.mp habi).trans (List.mem_singleton.mp habi').symm)
  | ARCH_ARM_EABI | ARCH_X86 =>
      rw [List.mem_singleton.mp harch] at habi habi'
      exact Or.inl ((List.mem_singleton.mp habi).trans (List.mem_singleton.mp habi').symm)
  | ARCH_ARM64 =>
      rcases List.mem_pair.mp harch with rfl | rfl <;>
        exact Or.inl ((List.mem_singleton.mp habi).trans (List.mem_singleton.mp habi').symm)
  | ARCH_SH4 => exact absurd harch List.not_mem_nil

/-- A number denotes one system call at most. -/
theorem Denotes.unique (harch : arch ∈ host.seccompArchs) {value value' : Sysnum}
    (h : Denotes host arch nr value) (h' : Denotes host arch nr value') : value = value' := by
  obtain ⟨abi, habi, hne, table, hget, i, rfl, hi⟩ := h
  obtain ⟨abi', habi', hne', table', hget', j, rfl, hj⟩ := h'
  have hilt := SysnumTable.lt_length (SysnumTable.mem_of_get hne)
  have hjlt := SysnumTable.lt_length (SysnumTable.mem_of_get hne')
  have hsmall := (getSysnums_small hget).1
  have hsmall' := (getSysnums_small hget').1
  rcases abis_apart harch habi habi' hget hget' with rfl | hapart
  · obtain rfl : table = table' := Option.some.inj (hget.symm.trans hget')
    obtain rfl : i = j := by omega
    rfl
  · omega

theorem mem_tests_iff {abi : Abi} {ret : BitVec 32} : (nr, ret) ∈ tests host sysnums abi ↔
      ∃ sysnum ∈ sysnums, Names host abi nr.toNat sysnum.value ∧
        ret = seccompRetTrace + sysnum.flags.setWidth 32 := by
  have hnumber : ∀ value, (detranslateSysnum host abi value ≠ host.avoider ∧
      BitVec.ofNat 32 (detranslateSysnum host abi value) = nr) ↔ Names host abi nr.toNat value := by
    intro value
    refine ⟨fun ⟨havoid, heq⟩ => ?_, fun h => ?_⟩
    · have hlt := detranslateSysnum_le havoid
      have hnr : nr.toNat = detranslateSysnum host abi value := by
        rw [← heq, BitVec.toNat_ofNat, Nat.mod_eq_of_lt (by omega)]
      rw [hnr]
      exact (detranslateSysnum_eq_iff havoid).mp rfl
    · have heq := (detranslateSysnum_eq_iff h.ne_avoider).mpr h
      rw [heq]
      exact ⟨h.ne_avoider, BitVec.ofNat_toNat 32 nr ▸ BitVec.setWidth_eq nr⟩
  unfold tests
  rw [List.mem_map]
  constructor
  · rintro ⟨sysnum, hmem, heq⟩
    obtain ⟨hmem, havoid⟩ := List.mem_filter.mp hmem
    obtain ⟨hnr, rfl⟩ := Prod.mk.inj heq
    exact ⟨sysnum, hmem, (hnumber _).mp ⟨by simpa using havoid, hnr⟩, rfl⟩
  · rintro ⟨sysnum, hmem, hnames, rfl⟩
    obtain ⟨havoid, hnr⟩ := (hnumber _).mpr hnames
    exact ⟨sysnum, List.mem_filter.mpr ⟨hmem, by simpa using havoid⟩, by rw [hnr]⟩

/-- The tests of an architecture are those of what its numbers denote. -/
theorem mem_archTests_iff {ret : BitVec 32} : (nr, ret) ∈ archTests host sysnums arch ↔
      ∃ sysnum ∈ sysnums, Denotes host arch nr sysnum.value ∧
        ret = seccompRetTrace + sysnum.flags.setWidth 32 := by
  rw [archTests, List.mem_flatMap]
  constructor
  · rintro ⟨abi, habi, htest⟩
    obtain ⟨sysnum, hmem, hnames, hret⟩ := mem_tests_iff.mp htest
    exact ⟨sysnum, hmem, ⟨abi, habi, hnames⟩, hret⟩
  · rintro ⟨sysnum, hmem, ⟨abi, habi, hnames⟩, hret⟩
    exact ⟨abi, habi, mem_tests_iff.mpr ⟨sysnum, hmem, hnames, hret⟩⟩

/-- What the tests return for a number: what was merged for its system call. -/
theorem archTests_lookup (harch : arch ∈ host.seccompArchs) (lists : List (List FilteredSysnum))
    {sysnum : FilteredSysnum} (hmem : sysnum ∈ allEntries lists)
    (hdenotes : Denotes host arch nr sysnum.value) :
    (archTests host (lists.foldl mergeFilteredSysnums []) arch).lookup nr =
      some (seccompRetTrace + (unionFlags ((allEntries lists).filter fun sysnum =>
        Denotes host arch nr sysnum.value)).setWidth 32) := by
  obtain ⟨hnodup, hmerged⟩ := mergeLists_spec lists
  have hvalue : ∀ entry : FilteredSysnum, Denotes host arch nr entry.value ↔
      entry.value = sysnum.value :=
    fun entry => ⟨fun h => h.unique harch hdenotes, fun h => h ▸ hdenotes⟩
  have hunion : unionFlags ((allEntries lists).filter fun sysnum =>
      Denotes host arch nr sysnum.value) =
      unionFlags (ofSysnum sysnum.value (lists.foldl mergeFilteredSysnums [])) := by
    rw [(hmerged sysnum.value).2, ofSysnum]
    simp only [hvalue]
  cases hlookup : (archTests host (lists.foldl mergeFilteredSysnums []) arch).lookup nr with
  | none =>
      obtain ⟨entry, hentry, heq⟩ := List.mem_map.mp
        ((hmerged sysnum.value).1.mpr (List.mem_map_of_mem hmem))
      have htest := mem_archTests_iff.mpr ⟨entry, hentry, (hvalue entry).mpr heq, rfl⟩
      have hno := List.lookup_eq_none_iff.mp hlookup _ htest
      simp at hno
  | some ret =>
      obtain ⟨before, after, hsplit, -⟩ := List.lookup_eq_some_iff.mp hlookup
      have htest : (nr, ret) ∈ archTests host (lists.foldl mergeFilteredSysnums []) arch := by
        rw [hsplit]
        exact List.mem_append_right _ List.mem_cons_self
      obtain ⟨entry, hentry, hentrydenotes, rfl⟩ := mem_archTests_iff.mp htest
      rw [hunion, ← (hvalue entry).mp hentrydenotes, unionFlags_single hnodup hentry]

/-- ... and nothing for a number that denotes none of the lists. -/
theorem archTests_lookup_none {lists : List (List FilteredSysnum)}
    (hno : ¬ ∃ sysnum ∈ allEntries lists, Denotes host arch nr sysnum.value) :
    (archTests host (lists.foldl mergeFilteredSysnums []) arch).lookup nr = none := by
  obtain ⟨-, hmerged⟩ := mergeLists_spec lists
  refine List.lookup_eq_none_iff.mpr fun test htest => ?_
  obtain ⟨word, ret⟩ := test
  by_contra heq
  obtain rfl : nr = word := by simpa using heq
  obtain ⟨entry, hentry, hdenotes, -⟩ := mem_archTests_iff.mp htest
  obtain ⟨sysnum, hmem, hvalue⟩ := List.mem_map.mp
    ((hmerged entry.value).1.mp (List.mem_map_of_mem hentry))
  exact hno ⟨sysnum, hmem, hvalue ▸ hdenotes⟩

/-- **The filter stops what PRoot handles.**  The program for any lists of system
calls is accepted, and for each architecture and number it returns: for a number
that denotes a system call of the lists, `SECCOMP_RET_TRACE` with the union of its
flags; for another number of a known architecture, `SECCOMP_RET_ALLOW`; for an
unknown architecture, `SECCOMP_RET_KILL`. -/
theorem setSeccompFilters_traps (host : Host) (lists : List (List FilteredSysnum)) :
    ∃ program, setSeccompFilters host (lists.foldl mergeFilteredSysnums []) = .ok program ∧
      program.len.toNat = program.filter.length ∧ Bpf.JumpsWithin 0 program.filter ∧
      ∀ arch nr : BitVec 32,
        (∀ a ∈ host.seccompArchs, a.value = arch →
          ((∃ sysnum ∈ allEntries lists, Denotes host a nr sysnum.value) →
            Bpf.run (seccompData arch nr) program.filter 0 0 = some (seccompRetTrace +
              (unionFlags ((allEntries lists).filter fun sysnum =>
                Denotes host a nr sysnum.value)).setWidth 32)) ∧
          ((¬ ∃ sysnum ∈ allEntries lists, Denotes host a nr sysnum.value) →
            Bpf.run (seccompData arch nr) program.filter 0 0 = some seccompRetAllow)) ∧
        ((∀ a ∈ host.seccompArchs, a.value ≠ arch) →
          Bpf.run (seccompData arch nr) program.filter 0 0 = some seccompRetKill) := by
  obtain ⟨hnodup, -⟩ := mergeLists_spec lists
  obtain ⟨program, hset, hfilter, hlen, hsize⟩ := setSeccompFilters_eq host hnodup
  have hfits : (archSections host (lists.foldl mergeFilteredSysnums [])
      host.seccompArchs).length < 2 ^ 16 := by
    rw [hfilter, List.length_append] at hsize
    omega
  have hrun : ∀ arch nr, Bpf.run (seccompData arch nr) program.filter 0 0 =
      some ((host.seccompArchs.find? fun a => a.value = arch).elim seccompRetKill fun a =>
        ((archTests host (lists.foldl mergeFilteredSysnums []) a).lookup nr).getD
          seccompRetAllow) := by
    intro arch nr
    rw [hfilter]
    exact run_archSections host _ host.seccompArchs hfits 0
  refine ⟨program, hset, hlen, ?_, fun arch nr => ⟨fun a ha heq => ?_, fun hunknown => ?_⟩⟩
  · rw [hfilter]
    exact archSections_jumps host _ host.seccompArchs
  · have hfind := seccompArchs_find ha
    subst heq
    rw [hrun, hfind, Option.elim_some]
    refine ⟨fun ⟨sysnum, hmem, hdenotes⟩ => ?_, fun hno => ?_⟩
    · rw [archTests_lookup ha lists hmem hdenotes, Option.getD_some]
    · rw [archTests_lookup_none hno, Option.getD_none]
  · have hnone : (host.seccompArchs.find? fun a => a.value = arch) = none :=
      List.find?_eq_none.mpr fun a ha => by simpa using hunknown a ha
    rw [hrun, hnone, Option.elim_none]

end PRoot
