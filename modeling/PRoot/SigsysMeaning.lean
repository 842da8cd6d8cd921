import PRoot.KernelCalls
import PRoot.Sigsys

/-!
# What the rewritten system calls mean

A tracee stopped by `SIGSYS` is restarted with another system call.

* `restart_keeps_iff`: what the new call has to mean;
* `rewritten_keeps_iff`: when it means what the old one does;
* `rewritten_keeps_fails`: a descriptor that is put onto itself.
-/

namespace PRoot

/-- The operation that registers ask for. -/
def SigsysTracee.meaning (t : SigsysTracee) (regs : SyscallRegs) (memory : ByteMemory) :
    KernelOp :=
  kernelOp t.host t.abi regs memory (getSysnum t.host t.abi regs)

/-- **A rewritten system call keeps its meaning.** -/
def SigsysTracee.Keeps (t : SigsysTracee) : SigsysOutcome → Prop
  | .restarted regs memory => t.meaning regs memory = t.meaning t.regs t.memory
  | _ => True

/-- Whether the tracee is restarted. -/
def SigsysOutcome.Replaced : SigsysOutcome → Prop
  | .restarted .. => True
  | _ => False

/-- The system call that takes the place of another. -/
def replacement : Sysnum → Sysnum
  | .PR_open | .PR_openat2 => .PR_openat
  | .PR_accept => .PR_accept4
  | .PR_symlink => .PR_symlinkat
  | .PR_link => .PR_linkat
  | .PR_chmod => .PR_fchmodat
  | .PR_chown | .PR_lchown | .PR_chown32 | .PR_lchown32 => .PR_fchownat
  | .PR_unlink | .PR_rmdir => .PR_unlinkat
  | .PR_send => .PR_sendto
  | .PR_recv => .PR_recvfrom
  | .PR_waitpid => .PR_wait4
  | .PR_utimes | .PR_utime => .PR_utimensat
  | .PR_sendmmsg => .PR_socketcall
  | .PR_stat | .PR_lstat => .PR_newfstatat
  | .PR_pipe => .PR_pipe2
  | .PR_dup2 => .PR_dup3
  | .PR_access => .PR_faccessat
  | .PR_mkdir => .PR_mkdirat
  | .PR_rename => .PR_renameat
  | .PR_select => .PR_pselect6
  | .PR_poll => .PR_ppoll
  | .PR_epoll_wait => .PR_epoll_pwait
  | .PR_ftruncate => .PR_ftruncate64
  | sysnum => sysnum

namespace SigsysTracee

variable (t : SigsysTracee)

/-- An id of 16 bits that is the same with 32. -/
def IdSuits (value : BitVec 64) : Prop :=
  kernelLong t.host t.abi = 4 →
    (value.setWidth 32).toNat < 0xFFFF ∨ value.setWidth 32 = 0xFFFFFFFF#32

/-- A structure `how` that `openat2` takes. -/
def HowSuits : Prop :=
  24 ≤ (t.peek t.regs.arg4).toNat ∧
    ∃ how, t.readData (t.peek t.regs.arg3) (t.peek t.regs.arg4).toNat = some how ∧
      how / 256 ^ 24 = 0 ∧
      howValid t.host (BitVec.ofNat 64 how) (BitVec.ofNat 64 (how / 256 ^ 8)) = true

/-- The times of `utimes`, read as PRoot does: they are in range, and of a width that
PRoot knows or such that it does not matter; or out of range in such a way that they
are out of range for `utimensat` as well. -/
def UtimesSuit (times : Nat) : Prop :=
  let long := kernelLong t.host t.abi
  let field := ByteMemory.field long times
  if usecValid (field 1) && usecValid (field 3) then
    long = t.host.word ∨ (field 1 = 0 ∧ field 2 = 0)
  else if long = t.host.word then
    ¬ (utimeValid (Int.bmod (field 1 * 1000) (256 ^ long)) &&
      utimeValid (Int.bmod (field 3 * 1000) (256 ^ long))) = true
  else
    ¬ (utimeValid (field 1) && utimeValid (Int.bmod
      (ByteMemory.field (2 * long) times 1 * 1000 / (256 ^ long : Nat)) (256 ^ long))) = true

/-- A timeout that `select` rejects, and `pselect6` as well. -/
def TimeoutFails (tv : Nat) : Prop :=
  let field := ByteMemory.field (kernelLong t.host t.abi) tv
  field 0 < 0 ∨ field 1 < 0 ∨ 1000000000 ≤ field 1

/-- The arguments with which a call keeps its meaning: the ABI has the new call, and
the two do not differ in them. -/
def SuitsFor (sysnum : Sysnum) : Prop :=
  let regs := t.regs
  let peek := t.peek
  let long := kernelLong t.host t.abi
  (∃ nr, Names t.host t.abi nr (replacement sysnum)) ∧
  match sysnum with
  | .PR_openat2 => t.HowSuits
  | .PR_chown | .PR_lchown => t.IdSuits regs.arg2 ∧ t.IdSuits regs.arg3
  | .PR_utimes => peek regs.arg2 = 0 ∨
      ∀ times, t.readData (peek regs.arg2) (4 * t.host.word) = some times → t.UtimesSuit times
  | .PR_utime => peek regs.arg2 = 0 ∨ long = t.host.word ∨
      ∀ times, t.readData (peek regs.arg2) (2 * t.host.word) = some times →
        ByteMemory.field long times 1 = 0
  | .PR_sendmmsg =>
      let size := sizeofWord t.host t.abi * 4
      (t.readData (t.allocMem size) size).isSome = true
  | .PR_pipe => t.host ≠ .ARCH_SH4
  | .PR_dup2 => regs.arg1.setWidth 32 ≠ regs.arg2.setWidth 32
  | .PR_select => isI386 t.host t.abi = false ∧ (peek regs.arg5 = 0 ∨
      (t.allocMem (2 * t.host.word) ≠ 0 ∧
        ∀ tv, t.readData (peek regs.arg5) (2 * t.host.word) = some tv → t.TimeoutFails tv))
  | .PR_poll =>
      let ms := (regs.arg3.setWidth 32).toInt
      ms < 0 ∨ (t.allocMem (2 * t.host.word) ≠ 0 ∧ (long = t.host.word ∨ ms % 1000 = 0))
  | .PR_ftruncate =>
      let length := Int.bmod (peek regs.arg2).toNat (256 ^ long)
      if isArmEabi t.host t.abi then 0 ≤ length else length ≤ 0
  | _ => True

/-- **The registers suit** the call they ask for. -/
def Suits : Prop := t.SuitsFor (getSysnum t.host t.abi t.regs)

end SigsysTracee

/-! ## Restarting -/

variable {sysnum : Sysnum} {regs : SyscallRegs} {memory : ByteMemory}

section Restart

variable {t : SigsysTracee}

/-- **What the new call has to mean**, if the old one is a call at all: the ABI has it,
and it means the same. -/
theorem restart_keeps_iff {new : Sysnum} (hsysnum : getSysnum t.host t.abi t.regs = sysnum)
    (hop : kernelOp t.host t.abi t.regs t.memory sysnum ≠ .fail .ENOSYS) :
    t.Keeps (t.restart new regs memory) ↔ (∃ nr, Names t.host t.abi nr new) ∧
      kernelOp t.host t.abi regs memory new = kernelOp t.host t.abi t.regs t.memory sysnum := by
  have hold : t.meaning t.regs t.memory = kernelOp t.host t.abi t.regs t.memory sysnum := by
    rw [SigsysTracee.meaning, hsysnum]
  have hset := getSysnum_setSysnum t.host t.abi regs new
  unfold SigsysTracee.restart SigsysTracee.Keeps
  simp only
  rw [hold, SigsysTracee.meaning]
  by_cases hnames : ∃ nr, Names t.host t.abi nr new
  · have hnew : getSysnum t.host t.abi { setSysnum t.host t.abi regs new with
        instrPointer := t.peek (setSysnum t.host t.abi regs new).instrPointer - t.systrapSize } =
          new := hset.1 hnames
    rw [hnew]
    exact (and_iff_right hnames).symm
  · have hnew : getSysnum t.host t.abi { setSysnum t.host t.abi regs new with
        instrPointer := t.peek (setSysnum t.host t.abi regs new).instrPointer - t.systrapSize } =
          .PR_void := hset.2 hnames
    rw [hnew]
    exact iff_of_false (fun h => hop h.symm) fun h => hnames h.1

/-- The same, with the arguments that suit. -/
theorem restart_suits {new : Sysnum} {cond : Prop}
    (hsysnum : getSysnum t.host t.abi t.regs = sysnum)
    (hsuits : t.SuitsFor sysnum = ((∃ nr, Names t.host t.abi nr new) ∧ cond))
    (hop : kernelOp t.host t.abi t.regs t.memory sysnum ≠ .fail .ENOSYS)
    (hiff : (∃ nr, Names t.host t.abi nr new) → (kernelOp t.host t.abi regs memory new =
      kernelOp t.host t.abi t.regs t.memory sysnum ↔ cond)) :
    t.Keeps (t.restart new regs memory) ↔ ((t.restart new regs memory).Replaced → t.Suits) := by
  have htrue : (t.restart new regs memory).Replaced := True.intro
  rw [restart_keeps_iff hsysnum hop, SigsysTracee.Suits, hsysnum, hsuits, forall_prop_of_true htrue]
  exact and_congr_right hiff

end Restart

/-! ## The calls that differ -/

section Calls

variable {t : SigsysTracee}

theorem idSuits_iff (value : BitVec 64) :
    value.setWidth 32 = kernelId t.host t.abi value ↔ t.IdSuits value := by
  unfold kernelId SigsysTracee.IdSuits
  by_cases hlong : kernelLong t.host t.abi = 4
  · rw [if_pos hlong, forall_prop_of_true hlong]
    have hlow : (value.setWidth 16).toNat = (value.setWidth 32).toNat % 2 ^ 16 := by
      rw [BitVec.toNat_setWidth, BitVec.toNat_setWidth,
        Nat.mod_mod_of_dvd _ (Nat.pow_dvd_pow 2 (by decide))]
    split
    · rename_i hall
      have hall : (value.setWidth 32).toNat % 2 ^ 16 = 0xFFFF := by
        rw [← hlow, hall]
        rfl
      rw [or_iff_right (by omega)]
      rfl
    · rename_i hall
      rw [← BitVec.toNat_inj, ← BitVec.toNat_inj]
      have hall : (value.setWidth 16).toNat ≠ 0xFFFF := fun h => hall (BitVec.eq_of_toNat_eq h)
      rw [BitVec.toNat_setWidth 32 (value.setWidth 16), hlow,
        Nat.mod_eq_of_lt (by omega : (value.setWidth 32).toNat % 2 ^ 16 < 2 ^ 32)]
      rw [hlow] at hall
      simp only [BitVec.toNat_ofNat]
      omega
  · rw [if_neg hlong]
    exact iff_of_true rfl fun h => absurd h hlong

theorem openat2_iff {how : Nat}
    (hhow : t.readData (t.peek t.regs.arg3) (min (t.peek t.regs.arg4).toNat 24) = some how) :
    kernelOp t.host t.abi { t.regs with
      arg3 := BitVec.ofNat 64 how, arg4 := BitVec.ofNat 64 (how / 256 ^ 8) } t.memory .PR_openat =
    kernelOp t.host t.abi t.regs t.memory .PR_openat2 ↔ t.HowSuits := by
  show KernelOp.openat _ _ _ _ = openat2Op t.host t.abi t.regs t.memory ↔ t.HowSuits
  unfold openat2Op SigsysTracee.HowSuits
  simp only [SigsysTracee.peek, SigsysTracee.readData] at hhow ⊢
  generalize PRoot.peek t.host t.abi t.regs.arg4 = size at hhow ⊢
  generalize t.host.untagPointer (PRoot.peek t.host t.abi t.regs.arg3) = address at hhow ⊢
  by_cases hsize : size.toNat < 24
  · rw [if_pos hsize]
    exact iff_of_false nofun fun h => absurd h.1 (Nat.not_le.mpr hsize)
  · rw [if_neg hsize]
    have hle := Nat.le_of_not_lt hsize
    rw [Nat.min_eq_right hle] at hhow
    cases hall : t.memory.read address size.toNat with
    | none => exact iff_of_false nofun fun h => by cases h.2.choose_spec.1
    | some whole =>
        have hstart : how = whole % 256 ^ 24 :=
          Option.some.inj (hhow.symm.trans (ByteMemory.read_start hall hle))
        simp only [Option.some.injEq, exists_eq_left', hle, true_and]
        by_cases hzero : whole / 256 ^ 24 = 0
        · have hsame : how = whole := by omega
          rw [if_neg (not_not.mpr hzero), hsame]
          by_cases hvalid : howValid t.host (BitVec.ofNat 64 whole)
              (BitVec.ofNat 64 (whole / 256 ^ 8)) = true
          · rw [if_pos hvalid]
            exact iff_of_true rfl ⟨hzero, hvalid⟩
          · rw [if_neg hvalid]
            exact iff_of_false nofun fun h => hvalid h.2
        · rw [if_pos hzero]
          exact iff_of_false nofun fun h => hzero h.1

theorem openat2Op_ne : openat2Op t.host t.abi t.regs t.memory ≠ .fail .ENOSYS := by
  intro h
  unfold openat2Op at h
  simp only at h
  split at h
  · cases h
  · split at h
    · cases h
    · split at h
      · cases h
      · split at h <;> cases h

/-- `openat` takes what `openat2` may reject. -/
theorem openat2_suits (hsysnum : getSysnum t.host t.abi t.regs = .PR_openat2) :
    t.Keeps t.openat2 ↔ (t.openat2.Replaced → t.Suits) := by
  unfold SigsysTracee.openat2
  simp only
  split
  · exact iff_of_true True.intro nofun
  · rename_i how hhow
    exact restart_suits hsysnum rfl openat2Op_ne fun _ => openat2_iff hhow

/-- `dup3` rejects to put a descriptor onto itself. -/
theorem dup2_iff : kernelOp t.host t.abi { t.regs with arg3 := 0 } t.memory .PR_dup3 =
    kernelOp t.host t.abi t.regs t.memory .PR_dup2 ↔
      t.regs.arg1.setWidth 32 ≠ t.regs.arg2.setWidth 32 := by
  show (if t.regs.arg1.setWidth 32 = t.regs.arg2.setWidth 32 then _ else _) =
    (if t.regs.arg1.setWidth 32 = t.regs.arg2.setWidth 32 then _ else _) ↔ _
  by_cases hsame : t.regs.arg1.setWidth 32 = t.regs.arg2.setWidth 32
  · rw [if_pos hsame, if_pos hsame]
    exact iff_of_false nofun fun h => h hsame
  · rw [if_neg hsame, if_neg hsame]
    exact iff_of_true rfl hsame

theorem pipe_iff : kernelOp t.host t.abi { t.regs with arg2 := 0 } t.memory .PR_pipe2 =
    kernelOp t.host t.abi t.regs t.memory .PR_pipe ↔ t.host ≠ .ARCH_SH4 := by
  show KernelOp.pipe2 _ _ = (if t.host = .ARCH_SH4 then _ else _) ↔ _
  by_cases hhost : t.host = .ARCH_SH4
  · rw [if_pos hhost]
    exact iff_of_false nofun fun h => h hhost
  · rw [if_neg hhost]
    exact iff_of_true rfl hhost

/-! ### Where the ABIs have calls -/

variable {host : Host} {abi : Abi}

theorem Names.mem {nr : Nat} (h : Names host abi nr sysnum) : ∃ sysnums ∈ getSysnums host abi,
      sysnum ∈ sysnums.table.entries.map Prod.snd := by
  obtain ⟨hvoid, sysnums, hget, i, rfl, -⟩ := h
  exact ⟨sysnums, hget, List.mem_map_of_mem (SysnumTable.mem_of_get hvoid)⟩

/-- Only 32-bit ABIs have a `ftruncate64`. -/
theorem kernelLong_of_ftruncate64 (h : ∃ nr, Names host abi nr .PR_ftruncate64) :
    kernelLong host abi = 4 := by
  obtain ⟨nr, hnames⟩ := h
  obtain ⟨sysnums, hget, hmem⟩ := hnames.mem
  cases host <;> cases abi <;> first | rfl | cases hget
  all_goals exact absurd hmem (by decide)

/-- Only ABIs where PRoot knows the size of a word have a `socketcall`. -/
theorem sizeofWord_of_socketcall (h : ∃ nr, Names host abi nr .PR_socketcall) :
    sizeofWord host abi = kernelLong host abi := by
  obtain ⟨nr, hnames⟩ := h
  obtain ⟨sysnums, hget, hmem⟩ := hnames.mem
  cases host <;> cases abi <;> first | rfl | cases hget
  all_goals exact absurd hmem (by decide)

theorem kernelLong_cases (host : Host) (abi : Abi) :
    kernelLong host abi = host.word ∨ (host.word = 8 ∧ kernelLong host abi = 4) := by
  cases host <;> cases abi <;> decide

/-- A length of 32 bits does not survive in `ftruncate64`, unless it is of the right sign. -/
theorem ftruncate_iff (hnames : ∃ nr, Names t.host t.abi nr .PR_ftruncate64) :
    kernelOp t.host t.abi { t.regs with arg2 := 0, arg3 := t.peek t.regs.arg2, arg4 := 0 }
      t.memory .PR_ftruncate64 = kernelOp t.host t.abi t.regs t.memory .PR_ftruncate ↔
    if isArmEabi t.host t.abi then
      0 ≤ Int.bmod (t.peek t.regs.arg2).toNat (256 ^ kernelLong t.host t.abi)
    else Int.bmod (t.peek t.regs.arg2).toNat (256 ^ kernelLong t.host t.abi) ≤ 0 := by
  have hlong := kernelLong_of_ftruncate64 hnames
  have hlow : ((t.peek t.regs.arg2).setWidth 32).toNat = (t.peek t.regs.arg2).toNat % 2 ^ 32 :=
    BitVec.toNat_setWidth _ _
  show ftruncateOp _ (if isArmEabi t.host t.abi then
      Int.bmod (((t.peek t.regs.arg2).setWidth 32).toNat + 2 ^ 32 * 0 : Nat) (2 ^ 64)
    else Int.bmod ((0 + 2 ^ 32 * ((t.peek t.regs.arg2).setWidth 32).toNat : Nat)) (2 ^ 64)) =
      ftruncateOp (t.regs.arg1.setWidth 32)
        (Int.bmod (t.peek t.regs.arg2).toNat (256 ^ kernelLong t.host t.abi)) ↔ _
  rw [hlow, hlong]
  generalize (t.peek t.regs.arg2).toNat = value
  -- the 32-bit length and the two 64-bit ones, in terms of the low half
  have hshort : Int.bmod value (256 ^ 4) =
      if value % 2 ^ 32 < 2 ^ 31 then ((value % 2 ^ 32 : Nat) : Int)
      else (value % 2 ^ 32 : Nat) - 2 ^ 32 := by
    rw [Int.bmod]
    split <;> split <;> omega
  have hlower : Int.bmod (value % 2 ^ 32 + 2 ^ 32 * 0 : Nat) (2 ^ 64) = (value % 2 ^ 32 : Nat) := by
    rw [Int.bmod]
    split <;> omega
  have hupper : Int.bmod (0 + 2 ^ 32 * (value % 2 ^ 32) : Nat) (2 ^ 64) =
      2 ^ 32 * Int.bmod value (256 ^ 4) := by
    rw [hshort, Int.bmod]
    split <;> split <;> omega
  have hlt : value % 2 ^ 32 < 2 ^ 32 := Nat.mod_lt _ (by decide)
  rw [hlower, hupper]
  generalize Int.bmod value (256 ^ 4) = length at hshort ⊢
  generalize value % 2 ^ 32 = low at hshort hlt ⊢
  unfold ftruncateOp
  split
  · by_cases hlength : 0 ≤ length
    · have hlow : length = low := by
        split at hshort <;> omega
      rw [← hlow, if_pos hlength]
      exact iff_of_true rfl hlength
    · rw [if_neg hlength, if_pos (Int.natCast_nonneg low)]
      exact iff_of_false nofun hlength
  · by_cases hlength : 0 ≤ length
    · rw [if_pos hlength, if_pos (by omega), KernelOp.ftruncate.injEq]
      refine ⟨fun h => ?_, fun h => ⟨rfl, ?_⟩⟩
      · have := h.2
        omega
      · omega
    · rw [if_neg hlength, if_neg (by omega)]
      exact iff_of_true rfl (by omega)

/-! ### Data on the stack -/

theorem peek_lt (host : Host) (abi : Abi) (value : BitVec 64) :
    (peek host abi value).toNat < 256 ^ sizeofWord host abi := by
  unfold peek
  split
  · rename_i hword
    rw [and_low, hword]
    exact Nat.mod_lt _ (by decide)
  · rename_i hword
    have hlt := value.isLt
    have hsize : sizeofWord host abi = 8 := by
      cases host <;> cases abi <;> first | rfl | exact absurd rfl hword
    rw [hsize]
    exact hlt

theorem peek_of_le {value value' : BitVec 64} (h : value.toNat ≤ (peek host abi value').toNat) :
    peek host abi value = value := by
  by_cases hword : sizeofWord host abi = 4
  · have hlt := peek_lt host abi value'
    rw [hword] at hlt
    exact peek_small (Nat.lt_of_le_of_lt h hlt)
  · rw [peek, if_neg hword]

/-- What is allocated is an address of the tracee. -/
theorem peek_allocMem (size : Nat) : t.peek (t.allocMem size) = t.allocMem size := by
  unfold SigsysTracee.allocMem
  simp only
  generalize (if t.peek t.regs.stackPointer = t.peek t.originalStackPointer then
    size + t.host.redZoneSize else size) = size
  split
  · exact peek_zero
  · rename_i hle
    refine peek_of_le (show _ ≤ (t.peek t.regs.stackPointer).toNat from ?_)
    have hsize : (BitVec.ofNat 64 size).toNat = size := by
      rw [BitVec.toNat_ofNat, Nat.mod_eq_of_lt (by omega)]
    rw [BitVec.toNat_sub_of_le (by rw [BitVec.le_def, hsize]; omega)]
    omega

theorem allocRegs_eq (size : Nat) :
    ∃ sp, t.allocRegs size = { t.regs with stackPointer := sp } := by
  unfold SigsysTracee.allocRegs
  split
  · exact ⟨t.regs.stackPointer, rfl⟩
  · exact ⟨t.allocMem size, rfl⟩

/-- Data is written where it could be read. -/
theorem writeData_isSome (address : BitVec 64) (size value : Nat) :
    (t.writeData address size value).isSome = (t.readData address size).isSome := by
  unfold SigsysTracee.writeData SigsysTracee.readData ByteMemory.write
  split
  · rename_i h
    rw [h]
    rfl
  · rename_i h
    rw [Bool.eq_false_iff.mpr h]
    rfl

variable {size : Nat}

/-- What the kernel finds of the data PRoot has written. -/
theorem read_written {address : BitVec 64} {value n : Nat}
    (h : t.writeData address size value = some memory) (hsize : size ≤ 2 ^ 64) (hn : n ≤ size) :
    memory.read (t.host.untagPointer address) n = some (value % 256 ^ n) := by
  have hread := ByteMemory.read_write h hsize (show 0 + n ≤ size by omega)
  rwa [Nat.pow_zero, Nat.div_one, BitVec.add_zero] at hread

theorem socketcall_sendmmsg (h : regs.arg1 = sysSendmmsg) :
    kernelOp host abi regs memory .PR_socketcall =
      let long := kernelLong host abi
      (memory.read (host.untagPointer (peek host abi regs.arg2)) (4 * long)).elim (.fail .EFAULT)
        fun args =>
          .sendmmsg (BitVec.ofNat 32 (args / 256 ^ (long * 0) % 256 ^ long))
            (BitVec.ofNat 64 (args / 256 ^ (long * 1) % 256 ^ long))
            (BitVec.ofNat 32 (args / 256 ^ (long * 2) % 256 ^ long))
            (BitVec.ofNat 32 (args / 256 ^ (long * 3) % 256 ^ long)) := by
  have hnumber : ¬ regs.arg1.setWidth 32 ≠ 20#32 := by
    rw [h]
    decide
  show socketcallOp host abi regs memory = _
  unfold socketcallOp
  simp only
  rw [if_neg hnumber]
  cases memory.read (host.untagPointer (peek host abi regs.arg2)) (4 * kernelLong host abi) <;> rfl

/-- The arguments of `sendmmsg` go through memory that has to be there. -/
theorem sendmmsg_iff (hnames : ∃ nr, Names t.host t.abi nr .PR_socketcall)
    {memory : Option ByteMemory} (hmemory : memory = t.writeData
      (t.allocMem (sizeofWord t.host t.abi * 4)) (sizeofWord t.host t.abi * 4)
      (ByteMemory.pack (sizeofWord t.host t.abi)
        ([t.regs.arg1, t.regs.arg2, t.regs.arg3, t.regs.arg4].map
          fun arg => ((t.peek arg).toNat : Int)))) :
    kernelOp t.host t.abi { t.allocRegs (sizeofWord t.host t.abi * 4) with
      arg1 := sysSendmmsg, arg2 := t.allocMem (sizeofWord t.host t.abi * 4) }
      (memory.getD t.memory) .PR_socketcall =
        kernelOp t.host t.abi t.regs t.memory .PR_sendmmsg ↔
      (t.readData (t.allocMem (sizeofWord t.host t.abi * 4))
        (sizeofWord t.host t.abi * 4)).isSome = true := by
  have hword := sizeofWord_of_socketcall hnames
  obtain ⟨sp, hregs⟩ := @allocRegs_eq t (sizeofWord t.host t.abi * 4)
  have hptr := @peek_allocMem t (sizeofWord t.host t.abi * 4)
  have hsize : sizeofWord t.host t.abi * 4 ≤ 2 ^ 64 := by
    cases t.host <;> cases t.abi <;> decide
  rw [hregs, socketcall_sendmmsg rfl]
  simp only
  rw [show PRoot.peek t.host t.abi _ = _ from hptr, ← hword,
    Nat.mul_comm 4 (sizeofWord t.host t.abi)]
  generalize t.allocMem (sizeofWord t.host t.abi * 4) = address at hmemory ⊢
  have hsome := @writeData_isSome t address (sizeofWord t.host t.abi * 4)
    (ByteMemory.pack (sizeofWord t.host t.abi)
      ([t.regs.arg1, t.regs.arg2, t.regs.arg3, t.regs.arg4].map
        fun arg => ((t.peek arg).toNat : Int)))
  rw [← hmemory] at hsome
  cases memory with
  | none =>
      have hnone : t.readData address (sizeofWord t.host t.abi * 4) = none :=
        Option.not_isSome_iff_eq_none.mp (Bool.eq_false_iff.mp hsome.symm)
      have hnone' : t.memory.read (t.host.untagPointer address)
          (sizeofWord t.host t.abi * 4) = none := hnone
      rw [hnone, Option.getD_none, hnone', Option.elim_none]
      exact iff_of_false nofun nofun
  | some memory' =>
      have harg : ∀ i arg, [t.regs.arg1, t.regs.arg2, t.regs.arg3, t.regs.arg4][i]? = some arg →
          i < 4 → ByteMemory.pack (sizeofWord t.host t.abi)
            ([t.regs.arg1, t.regs.arg2, t.regs.arg3, t.regs.arg4].map
              fun arg => ((t.peek arg).toNat : Int)) % 256 ^ (sizeofWord t.host t.abi * 4) /
            256 ^ (sizeofWord t.host t.abi * i) % 256 ^ sizeofWord t.host t.abi =
            (t.peek arg).toNat := by
        intro i arg harg hi
        have hget : ([t.regs.arg1, t.regs.arg2, t.regs.arg3, t.regs.arg4].map
            fun arg => ((t.peek arg).toNat : Int))[i]? = some ((t.peek arg).toNat : Int) := by
          rw [List.getElem?_map, harg]
          rfl
        rw [ByteMemory.mod_at (Nat.mul_le_mul_left _ hi), ByteMemory.pack_at _ hget,
          ← Int.natCast_emod, Int.toNat_natCast]
        exact Nat.mod_eq_of_lt (peek_lt t.host t.abi arg)
      rw [← hsome, Option.getD_some, read_written hmemory.symm hsize (Nat.le_refl _), Option.elim_some]
      rw [harg 0 _ rfl (by decide), harg 1 _ rfl (by decide), harg 2 _ rfl (by decide),
        harg 3 _ rfl (by decide)]
      refine iff_of_true ?_ rfl
      simp only [SigsysTracee.peek, BitVec.ofNat_toNat, BitVec.setWidth_eq,
        peek_setWidth (Nat.le_refl 32)]
      rfl

/-! ### Timeouts -/

theorem word_le (host : Host) : 4 * host.word ≤ 2 ^ 64 := by
  cases host <;> decide

theorem kernelLong_le (host : Host) (abi : Abi) : kernelLong host abi ≤ host.word := by
  cases host <;> cases abi <;> decide

/-- A timeout that PRoot has written, as the kernel reads it. -/
theorem timeoutOp_written {value : Nat} {valid : Int → Bool} {unit : Int}
    {op : Option Timespec → KernelOp} (hne : t.allocMem (2 * t.host.word) ≠ 0)
    (hwrite : t.writeData (t.allocMem (2 * t.host.word)) (2 * t.host.word) value = some memory) :
    timeoutOp t.host t.abi memory (t.peek (t.allocMem (2 * t.host.word))) valid unit op =
      let field := ByteMemory.field (kernelLong t.host t.abi) value
      if 0 ≤ field 0 ∧ valid (field 1) then op (some ⟨field 0, field 1 * unit⟩)
      else .fail .EINVAL := by
  have hword := word_le t.host
  have hlong := kernelLong_le t.host t.abi
  rw [peek_allocMem, timeoutOp, if_neg hne]
  simp only
  rw [read_written hwrite (by omega) (Nat.mul_le_mul_left 2 hlong)]
  simp only
  rw [ByteMemory.field_mod (by omega : kernelLong t.host t.abi * (0 + 1) ≤ _),
    ByteMemory.field_mod (by omega : kernelLong t.host t.abi * (1 + 1) ≤ _)]

/-- The fields of what PRoot has written are those it meant, or the halves of the first
one. -/
theorem written_fields (x y : Int) :
    (kernelLong t.host t.abi = t.host.word ∧
      ByteMemory.field (kernelLong t.host t.abi) (ByteMemory.pack t.host.word [x, y]) 0 =
        Int.bmod x (256 ^ t.host.word) ∧
      ByteMemory.field (kernelLong t.host t.abi) (ByteMemory.pack t.host.word [x, y]) 1 =
        Int.bmod y (256 ^ t.host.word)) ∨
    (kernelLong t.host t.abi ≠ t.host.word ∧
      ByteMemory.field (kernelLong t.host t.abi) (ByteMemory.pack t.host.word [x, y]) 0 =
        Int.bmod x (256 ^ 4) ∧
      ByteMemory.field (kernelLong t.host t.abi) (ByteMemory.pack t.host.word [x, y]) 1 =
        Int.bmod (x / (256 ^ 4 : Nat)) (256 ^ 4)) := by
  rcases kernelLong_cases t.host t.abi with hsame | ⟨hword, hlong⟩
  · left
    rw [hsame]
    exact ⟨rfl, ByteMemory.field_pack _ rfl, ByteMemory.field_pack _ rfl⟩
  · right
    rw [hword, hlong]
    exact ⟨by decide, @ByteMemory.field_pack_low [x, y] 0 x 4 rfl,
      @ByteMemory.field_pack_high [x, y] 0 x 4 rfl⟩

theorem bmod_small {x : Int} (hle : -2 ^ 31 ≤ x) (hlt : x < 2 ^ 31) :
    Int.bmod x (256 ^ 4) = x ∧ ∀ host : Host, Int.bmod x (256 ^ host.word) = x := by
  have hfour : Int.bmod x (256 ^ 4) = x := Int.bmod_eq_of_le (by omega) (by omega)
  have height : Int.bmod x (256 ^ 8) = x := Int.bmod_eq_of_le (by omega) (by omega)
  refine ⟨hfour, fun host => ?_⟩
  cases host with
  | ARCH_X86_64 | ARCH_ARM64 => exact height
  | _ => exact hfour

/-- No timeout where there was one. -/
theorem timeoutOp_none {valid : Int → Bool} {unit : Int} {op : Option Timespec → KernelOp}
    (hzero : t.allocMem size = 0) :
    timeoutOp t.host t.abi memory (t.peek (t.allocMem size)) valid unit op = op none := by
  rw [peek_allocMem, timeoutOp, if_pos hzero]

/-- The timeout of a `poll` in milliseconds. -/
theorem poll_iff (hms : ¬ (t.regs.arg3.setWidth 32).toInt < 0)
    (hwrite : t.writeData (t.allocMem (2 * t.host.word)) (2 * t.host.word)
      (ByteMemory.pack t.host.word [(t.regs.arg3.setWidth 32).toInt / 1000,
        (t.regs.arg3.setWidth 32).toInt % 1000 * 1000000]) = some memory) :
    kernelOp t.host t.abi { t.allocRegs (2 * t.host.word) with
      arg3 := t.allocMem (2 * t.host.word), arg4 := 0, arg5 := 0 } memory .PR_ppoll =
        kernelOp t.host t.abi t.regs t.memory .PR_poll ↔
      t.allocMem (2 * t.host.word) ≠ 0 ∧ (kernelLong t.host t.abi = t.host.word ∨
        (t.regs.arg3.setWidth 32).toInt % 1000 = 0) := by
  obtain ⟨sp, hregs⟩ := @allocRegs_eq t (2 * t.host.word)
  have hzero : PRoot.peek t.host t.abi 0 = 0 := peek_zero
  have hnew : kernelOp t.host t.abi { t.allocRegs (2 * t.host.word) with
      arg3 := t.allocMem (2 * t.host.word), arg4 := 0, arg5 := 0 } memory .PR_ppoll =
      timeoutOp t.host t.abi memory (t.peek (t.allocMem (2 * t.host.word))) nsecValid 1
        fun timeout => .poll (t.peek t.regs.arg1) (t.regs.arg2.setWidth 32) timeout none := by
    rw [hregs]
    show timeoutOp _ _ _ _ _ _ (fun timeout => KernelOp.poll _ _ timeout
      (if PRoot.peek t.host t.abi 0 = 0 then none else some (PRoot.peek t.host t.abi 0, _))) = _
    rw [if_pos hzero]
    rfl
  have hold : kernelOp t.host t.abi t.regs t.memory .PR_poll =
      .poll (t.peek t.regs.arg1) (t.regs.arg2.setWidth 32)
        (some ⟨(t.regs.arg3.setWidth 32).toInt / 1000,
          (t.regs.arg3.setWidth 32).toInt % 1000 * 1000000⟩) none := by
    show KernelOp.poll _ _ (if (t.regs.arg3.setWidth 32).toInt < 0 then none else some _) none = _
    rw [if_neg hms]
    rfl
  rw [hnew, hold]
  have hlt : (t.regs.arg3.setWidth 32).toInt < 2 ^ 31 := BitVec.toInt_lt
  generalize (t.regs.arg3.setWidth 32).toInt = ms at hms hwrite hlt ⊢
  by_cases halloc : t.allocMem (2 * t.host.word) = 0
  · rw [timeoutOp_none halloc]
    exact iff_of_false nofun fun h => h.1 halloc
  · rw [timeoutOp_written halloc hwrite]
    have hsec := @bmod_small (ms / 1000) (by omega) (by omega)
    simp only [ne_eq, halloc, not_false_eq_true, true_and]
    rcases @written_fields t (ms / 1000) (ms % 1000 * 1000000) with
      ⟨hsame, hfirst, hsecond⟩ | ⟨hmixed, hfirst, hsecond⟩
    · have hnsec := @bmod_small (ms % 1000 * 1000000) (by omega) (by omega)
      have hvalid : nsecValid (ms % 1000 * 1000000) = true :=
        decide_eq_true ⟨by omega, by omega⟩
      rw [hfirst, hsecond, hsec.2, hnsec.2, if_pos ⟨by omega, hvalid⟩, Int.mul_one]
      exact iff_of_true rfl (Or.inl hsame)
    · have hhigh : ms / 1000 / (256 ^ 4 : Nat) = 0 := by omega
      rw [hfirst, hsecond, hsec.1, hhigh, if_pos ⟨by omega, by decide⟩, or_iff_right hmixed]
      rw [KernelOp.poll.injEq, Option.some.injEq, Timespec.mk.injEq]
      constructor
      · rintro ⟨-, -, ⟨-, hnsec⟩, -⟩
        have hzero : Int.bmod 0 (256 ^ 4) * 1 = 0 := by decide
        omega
      · intro hwhole
        refine ⟨rfl, rfl, ⟨rfl, ?_⟩, rfl⟩
        rw [hwhole]
        decide

/-- A `select` on i386 has its arguments in memory. -/
theorem select_i386 (h : isI386 t.host t.abi = true) :
    kernelOp t.host t.abi regs memory .PR_pselect6 ≠
      kernelOp t.host t.abi t.regs t.memory .PR_select := by
  rw [kernelOp_select, kernelOp_pselect6, if_pos h]
  unfold timeoutOp
  simp only
  split
  · nofun
  · split
    · nofun
    · split <;> nofun

theorem select_null (hnull : t.peek t.regs.arg5 = 0) (h : isI386 t.host t.abi = false) :
    kernelOp t.host t.abi { t.regs with arg5 := 0, arg6 := 0 } t.memory .PR_pselect6 =
      kernelOp t.host t.abi t.regs t.memory .PR_select := by
  have hnull : PRoot.peek t.host t.abi t.regs.arg5 = 0 := hnull
  rw [kernelOp_select, kernelOp_pselect6, h, if_neg (by decide), timeoutOp, if_pos peek_zero,
    timeoutOp, if_pos hnull, peek_zero]
  rfl

/-- A timeout that the kernel reads back rightly, or rejects. -/
theorem written_timeout {tv : Nat} (hle : 0 ≤ ByteMemory.field t.host.word tv 1)
    (hlt : ByteMemory.field t.host.word tv 1 < 1000000) :
    let value := ByteMemory.pack t.host.word
      [ByteMemory.field t.host.word tv 0, ByteMemory.field t.host.word tv 1 * 1000]
    let field := ByteMemory.field (kernelLong t.host t.abi)
    (¬ (0 ≤ field value 0 ∧ nsecValid (field value 1) = true) ↔ t.TimeoutFails tv) ∧
      (t.TimeoutFails tv → ¬ (0 ≤ field tv 0 ∧ usecValid (field tv 1) = true)) := by
  intro value field
  have hfield : ∀ i, ByteMemory.field (kernelLong t.host t.abi) tv i = field tv i := fun _ => rfl
  have husec : ∀ n : Int, usecValid n = true ↔ 0 ≤ n ∧ n < 1000000 := fun n => decide_eq_true_iff
  have hnsec : ∀ n : Int, nsecValid n = true ↔ 0 ≤ n ∧ n < 1000000000 := fun n =>
    decide_eq_true_iff
  unfold SigsysTracee.TimeoutFails
  simp only [hfield]
  rw [husec, hnsec]
  rcases @written_fields t (ByteMemory.field t.host.word tv 0)
    (ByteMemory.field t.host.word tv 1 * 1000) with
    ⟨hsame, hfirst, hsecond⟩ | ⟨hmixed, hfirst, hsecond⟩
  · have hsec : field value 0 = field tv 0 := by
      refine hfirst.trans ?_
      show _ = ByteMemory.field (kernelLong t.host t.abi) tv 0
      rw [hsame, ByteMemory.field, Int.bmod_bmod]
    have hpart : field value 1 = field tv 1 * 1000 := by
      refine hsecond.trans ?_
      show _ = ByteMemory.field (kernelLong t.host t.abi) tv 1 * 1000
      rw [(bmod_small (by omega) (by omega)).2, hsame]
    have hshort : field tv 1 = ByteMemory.field t.host.word tv 1 := by
      show ByteMemory.field (kernelLong t.host t.abi) tv 1 = _
      rw [hsame]
    omega
  · obtain ⟨hword, hlong⟩ := (kernelLong_cases t.host t.abi).resolve_left hmixed
    have hsec : field value 0 = field tv 0 := by
      refine hfirst.trans ?_
      show _ = ByteMemory.field (kernelLong t.host t.abi) tv 0
      rw [hword, hlong]
      exact ByteMemory.field_low 4 tv 0
    have hpart : field value 1 = field tv 1 := by
      refine hsecond.trans ?_
      show _ = ByteMemory.field (kernelLong t.host t.abi) tv 1
      rw [hword, hlong]
      exact ByteMemory.field_high 4 tv 0
    omega

/-- **A `select` with a timeout** keeps its meaning only if it is rejected: otherwise the
time left is not reported. -/
theorem select_iff {tv : Nat} (hnull : t.peek t.regs.arg5 ≠ 0)
    (htv : t.readData (t.peek t.regs.arg5) (2 * t.host.word) = some tv)
    (hle : 0 ≤ ByteMemory.field t.host.word tv 1)
    (hlt : ByteMemory.field t.host.word tv 1 < 1000000)
    (hwrite : t.writeData (t.allocMem (2 * t.host.word)) (2 * t.host.word)
      (ByteMemory.pack t.host.word [ByteMemory.field t.host.word tv 0,
        ByteMemory.field t.host.word tv 1 * 1000]) = some memory) :
    kernelOp t.host t.abi { t.allocRegs (2 * t.host.word) with
      arg5 := t.allocMem (2 * t.host.word), arg6 := 0 } memory .PR_pselect6 =
        kernelOp t.host t.abi t.regs t.memory .PR_select ↔
      isI386 t.host t.abi = false ∧ (t.peek t.regs.arg5 = 0 ∨
        (t.allocMem (2 * t.host.word) ≠ 0 ∧
          ∀ tv, t.readData (t.peek t.regs.arg5) (2 * t.host.word) = some tv →
            t.TimeoutFails tv)) := by
  obtain ⟨sp, hregs⟩ := @allocRegs_eq t (2 * t.host.word)
  rw [or_iff_right hnull, htv]
  simp only [Option.some.injEq, forall_eq']
  by_cases hi386 : isI386 t.host t.abi = true
  · rw [hi386]
    exact iff_of_false (select_i386 hi386) nofun
  have hi386 := Bool.eq_false_iff.mpr hi386
  obtain ⟨hnew, hold⟩ := @written_timeout t tv hle hlt
  have holdOp : kernelOp t.host t.abi t.regs t.memory .PR_select =
      if 0 ≤ ByteMemory.field (kernelLong t.host t.abi) tv 0 ∧
        usecValid (ByteMemory.field (kernelLong t.host t.abi) tv 1) = true then
        .select (t.regs.arg1.setWidth 32) (t.peek t.regs.arg2) (t.peek t.regs.arg3)
          (t.peek t.regs.arg4) (some ⟨ByteMemory.field (kernelLong t.host t.abi) tv 0,
            ByteMemory.field (kernelLong t.host t.abi) tv 1 * 1000⟩) (some (t.peek t.regs.arg5)) 0
      else .fail .EINVAL := by
    have hlong := kernelLong_le t.host t.abi
    have hread : t.memory.read (t.host.untagPointer (PRoot.peek t.host t.abi t.regs.arg5))
        (2 * kernelLong t.host t.abi) = some (tv % 256 ^ (2 * kernelLong t.host t.abi)) :=
      ByteMemory.read_start htv (Nat.mul_le_mul_left 2 hlong)
    have hnull : PRoot.peek t.host t.abi t.regs.arg5 ≠ 0 := hnull
    rw [kernelOp_select, hi386, if_neg (by decide), timeoutOp, if_neg hnull]
    simp only
    rw [hread]
    simp only
    rw [ByteMemory.field_mod (by omega : kernelLong t.host t.abi * (0 + 1) ≤ _),
      ByteMemory.field_mod (by omega : kernelLong t.host t.abi * (1 + 1) ≤ _)]
    rfl
  have hnewOp : kernelOp t.host t.abi { t.allocRegs (2 * t.host.word) with
      arg5 := t.allocMem (2 * t.host.word), arg6 := 0 } memory .PR_pselect6 =
      timeoutOp t.host t.abi memory (t.peek (t.allocMem (2 * t.host.word))) nsecValid 1
        fun timeout => .select (t.regs.arg1.setWidth 32) (t.peek t.regs.arg2)
          (t.peek t.regs.arg3) (t.peek t.regs.arg4) timeout none (t.peek 0) := by
    rw [hregs]
    rfl
  rw [holdOp, hnewOp, hi386]
  simp only [true_and]
  by_cases halloc : t.allocMem (2 * t.host.word) = 0
  · rw [timeoutOp_none halloc]
    refine iff_of_false (fun h => ?_) fun h => h.1 halloc
    split at h <;> cases h
  · rw [timeoutOp_written halloc hwrite, and_iff_right halloc]
    simp only
    by_cases hfails : t.TimeoutFails tv
    · rw [if_neg (hnew.mpr hfails), if_neg (hold hfails)]
      exact iff_of_true rfl hfails
    · rw [if_pos (not_not.mp fun h => hfails (hnew.mp h))]
      refine iff_of_false (fun h => ?_) hfails
      split at h
      · have hremaining := (KernelOp.select.inj h).2.2.2.2.2.1
        cases hremaining
      · cases h

/-! ### File times -/

theorem utime_null (hnull : t.peek t.regs.arg2 = 0)
    (hsysnum : sysnum = .PR_utimes ∨ sysnum = .PR_utime) :
    kernelOp t.host t.abi { t.regs with
      arg1 := atFdcwd, arg2 := t.peek t.regs.arg1, arg3 := 0, arg4 := 0 } t.memory .PR_utimensat =
        kernelOp t.host t.abi t.regs t.memory sysnum := by
  have hnull : PRoot.peek t.host t.abi t.regs.arg2 = 0 := hnull
  rw [kernelOp_utimensat, utimensatOp, if_pos peek_zero]
  simp only [SigsysTracee.peek, peek_peek]
  rcases hsysnum with rfl | rfl
  · rw [kernelOp_utimes, utimensatOp, if_pos hnull]
    rfl
  · rw [kernelOp_utime, utimensatOp, if_pos hnull]
    rfl

/-- Times that PRoot has written, as the kernel reads them. -/
theorem utimensat_written {times : List Int} (hne : t.allocMem (4 * t.host.word) ≠ 0)
    (hwrite : t.writeData (t.allocMem (4 * t.host.word)) (4 * t.host.word)
      (ByteMemory.pack t.host.word times) = some memory) :
    kernelOp t.host t.abi { t.allocRegs (4 * t.host.word) with
      arg1 := atFdcwd, arg2 := t.peek t.regs.arg1, arg3 := t.allocMem (4 * t.host.word)
      arg4 := 0 } memory .PR_utimensat =
      let field := ByteMemory.field (kernelLong t.host t.abi) (ByteMemory.pack t.host.word times)
      if utimeValid (field 1) && utimeValid (field 3) then
        .utimensat (-100) (t.peek t.regs.arg1)
          (some (⟨field 0, field 1⟩, ⟨field 2, field 3⟩)) 0
      else .fail .EINVAL := by
  have hword := word_le t.host
  have hlong := kernelLong_le t.host t.abi
  have hptr : PRoot.peek t.host t.abi (t.allocMem (4 * t.host.word)) =
      t.allocMem (4 * t.host.word) := peek_allocMem _
  rw [kernelOp_utimensat, hptr, utimensatOp, if_neg hne,
    read_written hwrite hword (Nat.mul_le_mul_left 4 hlong)]
  simp only [SigsysTracee.peek, peek_peek]
  rw [ByteMemory.field_mod (by omega : kernelLong t.host t.abi * (0 + 1) ≤ _),
    ByteMemory.field_mod (by omega : kernelLong t.host t.abi * (1 + 1) ≤ _),
    ByteMemory.field_mod (by omega : kernelLong t.host t.abi * (2 + 1) ≤ _),
    ByteMemory.field_mod (by omega : kernelLong t.host t.abi * (3 + 1) ≤ _)]
  rfl

variable {v : Nat}

theorem kernelOp_utime_eq (hnull : t.peek t.regs.arg2 ≠ 0)
    (hread : t.readData (t.peek t.regs.arg2) (2 * t.host.word) = some v) :
    kernelOp t.host t.abi t.regs t.memory .PR_utime =
      .utimensat (-100) (t.peek t.regs.arg1)
        (some (⟨ByteMemory.field (kernelLong t.host t.abi) v 0, 0⟩,
          ⟨ByteMemory.field (kernelLong t.host t.abi) v 1, 0⟩)) 0 := by
  have hlong := kernelLong_le t.host t.abi
  have hnull : PRoot.peek t.host t.abi t.regs.arg2 ≠ 0 := hnull
  have hstart : t.memory.read (t.host.untagPointer (PRoot.peek t.host t.abi t.regs.arg2))
      (2 * kernelLong t.host t.abi) = some (v % 256 ^ (2 * kernelLong t.host t.abi)) :=
    ByteMemory.read_start hread (Nat.mul_le_mul_left 2 hlong)
  rw [kernelOp_utime, utimensatOp, if_neg hnull, hstart]
  simp only
  rw [ByteMemory.field_mod (by omega : kernelLong t.host t.abi * (0 + 1) ≤ _),
    ByteMemory.field_mod (by omega : kernelLong t.host t.abi * (1 + 1) ≤ _)]
  rfl

theorem kernelOp_utimes_eq (hnull : t.peek t.regs.arg2 ≠ 0)
    (hread : t.readData (t.peek t.regs.arg2) (4 * t.host.word) = some v) :
    kernelOp t.host t.abi t.regs t.memory .PR_utimes =
      let field := ByteMemory.field (kernelLong t.host t.abi) v
      if usecValid (field 1) && usecValid (field 3) then
        .utimensat (-100) (t.peek t.regs.arg1)
          (some (⟨field 0, field 1 * 1000⟩, ⟨field 2, field 3 * 1000⟩)) 0
      else .fail .EINVAL := by
  have hlong := kernelLong_le t.host t.abi
  have hnull : PRoot.peek t.host t.abi t.regs.arg2 ≠ 0 := hnull
  have hstart : t.memory.read (t.host.untagPointer (PRoot.peek t.host t.abi t.regs.arg2))
      (4 * kernelLong t.host t.abi) = some (v % 256 ^ (4 * kernelLong t.host t.abi)) :=
    ByteMemory.read_start hread (Nat.mul_le_mul_left 4 hlong)
  rw [kernelOp_utimes, utimensatOp, if_neg hnull, hstart]
  simp only
  rw [ByteMemory.field_mod (by omega : kernelLong t.host t.abi * (0 + 1) ≤ _),
    ByteMemory.field_mod (by omega : kernelLong t.host t.abi * (1 + 1) ≤ _),
    ByteMemory.field_mod (by omega : kernelLong t.host t.abi * (2 + 1) ≤ _),
    ByteMemory.field_mod (by omega : kernelLong t.host t.abi * (3 + 1) ≤ _)]
  rfl

/-- The times of `utime`. -/
theorem utime_iff (hnull : t.peek t.regs.arg2 ≠ 0)
    (hread : t.readData (t.peek t.regs.arg2) (2 * t.host.word) = some v)
    (hne : t.allocMem (4 * t.host.word) ≠ 0)
    (hwrite : t.writeData (t.allocMem (4 * t.host.word)) (4 * t.host.word)
      (ByteMemory.pack t.host.word [ByteMemory.field t.host.word v 0, 0,
        ByteMemory.field t.host.word v 1, 0]) = some memory) :
    kernelOp t.host t.abi { t.allocRegs (4 * t.host.word) with
      arg1 := atFdcwd, arg2 := t.peek t.regs.arg1, arg3 := t.allocMem (4 * t.host.word)
      arg4 := 0 } memory .PR_utimensat = kernelOp t.host t.abi t.regs t.memory .PR_utime ↔
    (t.peek t.regs.arg2 = 0 ∨ kernelLong t.host t.abi = t.host.word ∨
      ∀ times, t.readData (t.peek t.regs.arg2) (2 * t.host.word) = some times →
        ByteMemory.field (kernelLong t.host t.abi) times 1 = 0) := by
  rw [utimensat_written hne hwrite, kernelOp_utime_eq hnull hread, or_iff_right hnull, hread]
  simp only [Option.some.injEq, forall_eq']
  rcases kernelLong_cases t.host t.abi with hsame | ⟨hword, hlong⟩
  · rw [hsame, ByteMemory.field_pack _ rfl, ByteMemory.field_pack _ rfl,
      ByteMemory.field_pack _ rfl, ByteMemory.field_pack _ rfl]
    simp only [ByteMemory.field, Int.bmod_bmod, Int.zero_bmod]
    exact iff_of_true (if_pos (by decide)) (Or.inl trivial)
  · rw [hword, hlong, @ByteMemory.field_pack_low _ 0 _ 4 rfl, @ByteMemory.field_pack_high _ 0 _ 4 rfl,
      @ByteMemory.field_pack_low _ 1 _ 4 rfl, @ByteMemory.field_pack_high _ 1 _ 4 rfl,
      show ByteMemory.field 8 v 0 = ByteMemory.field (2 * 4) v 0 from rfl, ByteMemory.field_low,
      ByteMemory.field_high]
    generalize ByteMemory.field 4 v (2 * 0) = first
    show (if utimeValid (ByteMemory.field 4 v 1) && true then _ else _) = _ ↔ _
    generalize ByteMemory.field 4 v 1 = second
    rw [or_iff_right (by decide), Bool.and_true]
    constructor
    · intro h
      split at h
      · have htimes := (KernelOp.utimensat.inj h).2.2.1
        exact (Timespec.mk.inj (Prod.mk.inj (Option.some.inj htimes)).1).2
      · cases h
    · rintro rfl
      exact if_pos (by decide)

/-- Two halves of a number, multiplied by 1000 as a whole. -/
theorem mixed_halves {both : Int} (hle : 0 ≤ Int.bmod (both / (256 ^ 4 : Nat)) (256 ^ 4))
    (hlt : Int.bmod (both / (256 ^ 4 : Nat)) (256 ^ 4) < 1000000) :
    (Int.bmod (both * 1000) (256 ^ 4) = Int.bmod both (256 ^ 4) → Int.bmod both (256 ^ 4) = 0) ∧
      (Int.bmod both (256 ^ 4) = 0 → Int.bmod (both * 1000) (256 ^ 4) = 0 ∧
        Int.bmod (both * 1000 / (256 ^ 4 : Nat)) (256 ^ 4) =
          Int.bmod (both / (256 ^ 4 : Nat)) (256 ^ 4) * 1000) := by
  constructor
  · intro h
    have hdvd := Int.dvd_of_bmod_eq_zero (Int.bmod_eq_bmod_iff_bmod_sub_eq_zero.mp h)
    exact Int.bmod_eq_zero_of_dvd (by omega)
  · intro h
    obtain ⟨half, rfl⟩ := Int.dvd_of_bmod_eq_zero h
    have hpos : ((256 ^ 4 : Nat) : Int) ≠ 0 := by decide
    rw [Int.mul_ediv_cancel_left _ hpos] at hle hlt ⊢
    rw [Int.mul_assoc, Int.mul_ediv_cancel_left _ hpos, Int.mul_bmod_right]
    refine ⟨rfl, ?_⟩
    rw [← Int.bmod_mul_bmod]
    exact (bmod_small (by omega) (by omega)).1

/-- The times of `utimes`. -/
theorem utimes_iff (hnull : t.peek t.regs.arg2 ≠ 0)
    (hread : t.readData (t.peek t.regs.arg2) (4 * t.host.word) = some v)
    (hne : t.allocMem (4 * t.host.word) ≠ 0)
    (hwrite : t.writeData (t.allocMem (4 * t.host.word)) (4 * t.host.word)
      (ByteMemory.pack t.host.word [ByteMemory.field t.host.word v 0,
        ByteMemory.field t.host.word v 1 * 1000, ByteMemory.field t.host.word v 2,
        ByteMemory.field t.host.word v 3 * 1000]) = some memory) :
    kernelOp t.host t.abi { t.allocRegs (4 * t.host.word) with
      arg1 := atFdcwd, arg2 := t.peek t.regs.arg1, arg3 := t.allocMem (4 * t.host.word)
      arg4 := 0 } memory .PR_utimensat = kernelOp t.host t.abi t.regs t.memory .PR_utimes ↔
    (t.peek t.regs.arg2 = 0 ∨
      ∀ times, t.readData (t.peek t.regs.arg2) (4 * t.host.word) = some times →
        t.UtimesSuit times) := by
  rw [utimensat_written hne hwrite, kernelOp_utimes_eq hnull hread, or_iff_right hnull, hread]
  simp only [Option.some.injEq, forall_eq']
  unfold SigsysTracee.UtimesSuit
  simp only
  have husec : ∀ n : Int, usecValid n = true → 0 ≤ n ∧ n < 1000000 := fun n => of_decide_eq_true
  have hutime : ∀ n : Int, 0 ≤ n → n < 1000000000 → utimeValid n = true := fun n h h' =>
    decide_eq_true (Or.inl (decide_eq_true ⟨h, h'⟩))
  rcases kernelLong_cases t.host t.abi with hsame | ⟨hword, hlong⟩
  · rw [hsame, ByteMemory.field_pack _ rfl, ByteMemory.field_pack _ rfl,
      ByteMemory.field_pack _ rfl, ByteMemory.field_pack _ rfl]
    have hself : ∀ i, Int.bmod (ByteMemory.field t.host.word v i) (256 ^ t.host.word) =
        ByteMemory.field t.host.word v i := fun i => Int.bmod_bmod
    rw [hself, hself]
    by_cases hvalid : (usecValid (ByteMemory.field t.host.word v 1) &&
        usecValid (ByteMemory.field t.host.word v 3)) = true
    · obtain ⟨hfirst, hsecond⟩ := Bool.and_eq_true_iff.mp hvalid
      have hfirst := husec _ hfirst
      have hsecond := husec _ hsecond
      rw [if_pos hvalid, if_pos hvalid, (bmod_small (by omega) (by omega)).2,
        (bmod_small (by omega) (by omega)).2, hutime _ (by omega) (by omega),
        hutime _ (by omega) (by omega)]
      exact iff_of_true rfl (Or.inl rfl)
    · rw [if_neg hvalid, if_neg hvalid, if_pos rfl]
      constructor
      · intro h hboth
        rw [if_pos hboth] at h
        cases h
      · exact fun h => if_neg h
  · rw [hword, hlong, @ByteMemory.field_pack_low _ 0 _ 4 rfl, @ByteMemory.field_pack_high _ 0 _ 4 rfl,
      @ByteMemory.field_pack_low _ 1 _ 4 rfl, @ByteMemory.field_pack_high _ 1 _ 4 rfl,
      show ByteMemory.field 8 v 0 = ByteMemory.field (2 * 4) v 0 from rfl, ByteMemory.field_low,
      ByteMemory.field_high, ← ByteMemory.field_low 4 v 1, ← ByteMemory.field_high 4 v 1]
    show (if utimeValid (ByteMemory.field 4 v 1) && utimeValid (Int.bmod
      (ByteMemory.field 8 v 1 * 1000 / (256 ^ 4 : Nat)) (256 ^ 4)) then _ else _) = _ ↔ _
    generalize ByteMemory.field 4 v (2 * 0) = sec
    generalize ByteMemory.field 4 v 1 = usec
    generalize ByteMemory.field 8 v 1 = both
    have hmixed : ¬ (4 = 8) := by decide
    by_cases hvalid : (usecValid usec && usecValid (Int.bmod (both / (256 ^ 4 : Nat)) (256 ^ 4))) = true
    · obtain ⟨hfirst, hsecond⟩ := Bool.and_eq_true_iff.mp hvalid
      have hsecond := husec _ hsecond
      obtain ⟨honly, hzero⟩ := mixed_halves hsecond.1 hsecond.2
      rw [if_pos hvalid, if_pos hvalid, or_iff_right hmixed]
      constructor
      · intro h
        split at h
        · have htimes := Prod.mk.inj (Option.some.inj (KernelOp.utimensat.inj h).2.2.1)
          have hnsec := (Timespec.mk.inj htimes.1).2
          exact ⟨by omega, honly (Timespec.mk.inj htimes.2).1⟩
        · cases h
      · rintro ⟨rfl, hlow⟩
        obtain ⟨hsec, hnsec⟩ := hzero hlow
        rw [hsec, hnsec, hlow, hutime 0 (by omega) (by omega), hutime _ (by omega) (by omega)]
        rfl
    · rw [if_neg hvalid, if_neg hvalid, if_neg hmixed]
      constructor
      · intro h hboth
        rw [if_pos hboth] at h
        cases h
      · exact fun h => if_neg h

/-! ### The handler -/

theorem utimensatOp_ne {address : BitVec 64} {valid : Nat → Bool}
    {times : Nat → Timespec × Timespec} {dirfd : BitVec 32} {path : BitVec 64} {flags : BitVec 32} :
    utimensatOp host memory address size valid times dirfd path flags ≠ .fail .ENOSYS := by
  unfold utimensatOp
  split
  · nofun
  · split
    · nofun
    · split <;> nofun

theorem timeoutOp_ne {address : BitVec 64} {valid : Int → Bool} {unit : Int}
    {op : Option Timespec → KernelOp} (hop : ∀ timeout, op timeout ≠ .fail .ENOSYS) :
    timeoutOp host abi memory address valid unit op ≠ .fail .ENOSYS := by
  unfold timeoutOp
  simp only
  split
  · exact hop none
  · split
    · nofun
    · split
      · exact hop _
      · nofun

theorem utimensatOf_suits {cond : Prop} {timens : Nat → List Int}
    (hsysnum : getSysnum t.host t.abi t.regs = sysnum)
    (hkind : sysnum = .PR_utimes ∨ sysnum = .PR_utime) (hsuits : t.SuitsFor sysnum =
      ((∃ nr, Names t.host t.abi nr .PR_utimensat) ∧ (t.peek t.regs.arg2 = 0 ∨ cond)))
    (hiff : ∀ {v memory}, t.peek t.regs.arg2 ≠ 0 →
      t.readData (t.peek t.regs.arg2) size = some v → t.allocMem (4 * t.host.word) ≠ 0 →
      t.writeData (t.allocMem (4 * t.host.word)) (4 * t.host.word)
        (ByteMemory.pack t.host.word (timens v)) = some memory →
      (kernelOp t.host t.abi { t.allocRegs (4 * t.host.word) with
        arg1 := atFdcwd, arg2 := t.peek t.regs.arg1, arg3 := t.allocMem (4 * t.host.word)
        arg4 := 0 } memory .PR_utimensat = kernelOp t.host t.abi t.regs t.memory sysnum ↔
      (t.peek t.regs.arg2 = 0 ∨ cond))) :
    t.Keeps (t.utimensatOf size timens) ↔ ((t.utimensatOf size timens).Replaced → t.Suits) := by
  have hop : kernelOp t.host t.abi t.regs t.memory sysnum ≠ .fail .ENOSYS := by
    rcases hkind with rfl | rfl
    · exact utimensatOp_ne
    · exact utimensatOp_ne
  unfold SigsysTracee.utimensatOf
  simp only
  split
  · rename_i hnull
    exact restart_suits hsysnum hsuits hop fun _ =>
      iff_of_true (utime_null hnull hkind) (Or.inl hnull)
  · rename_i hnull
    split
    · exact iff_of_true True.intro nofun
    · rename_i times htimes
      split
      · exact iff_of_true True.intro nofun
      · rename_i halloc
        split
        · exact iff_of_true True.intro nofun
        · rename_i memory hwrite
          exact restart_suits hsysnum hsuits hop fun _ => hiff hnull htimes halloc hwrite

theorem select_suits (hsysnum : getSysnum t.host t.abi t.regs = .PR_select) :
    t.Keeps t.select ↔ (t.select.Replaced → t.Suits) := by
  have hop : kernelOp t.host t.abi t.regs t.memory .PR_select ≠ .fail .ENOSYS := by
    rw [kernelOp_select]
    split
    · nofun
    · exact timeoutOp_ne nofun
  unfold SigsysTracee.select
  simp only
  split
  · rename_i hnull
    refine restart_suits hsysnum rfl hop fun _ => ?_
    by_cases hi386 : isI386 t.host t.abi = true
    · refine iff_of_false (select_i386 hi386) fun h => ?_
      rw [hi386] at h
      cases h.1
    · have hi386 := Bool.eq_false_iff.mpr hi386
      exact iff_of_true (select_null hnull hi386) ⟨hi386, Or.inl hnull⟩
  · rename_i hnull
    split
    · exact iff_of_true True.intro nofun
    · rename_i tv htv
      split
      · exact iff_of_true True.intro nofun
      · rename_i hrange
        split
        · exact iff_of_true True.intro nofun
        · rename_i memory hwrite
          exact restart_suits hsysnum rfl hop fun _ =>
            select_iff hnull htv (by omega) (by omega) hwrite

theorem poll_suits (hsysnum : getSysnum t.host t.abi t.regs = .PR_poll) :
    t.Keeps t.poll ↔ (t.poll.Replaced → t.Suits) := by
  have hop : kernelOp t.host t.abi t.regs t.memory .PR_poll ≠ .fail .ENOSYS := nofun
  have hlow : (t.peek t.regs.arg3).setWidth 32 = t.regs.arg3.setWidth 32 :=
    peek_setWidth (Nat.le_refl 32) _
  unfold SigsysTracee.poll
  simp only [hlow]
  split
  · rename_i hms
    refine restart_suits hsysnum rfl hop fun _ => iff_of_true ?_ (Or.inl hms)
    show timeoutOp _ _ _ (PRoot.peek t.host t.abi 0) _ _ (fun timeout => KernelOp.poll _ _ timeout
      (if PRoot.peek t.host t.abi 0 = 0 then none else some (PRoot.peek t.host t.abi 0, _))) =
      KernelOp.poll _ _ (if (t.regs.arg3.setWidth 32).toInt < 0 then none else some _) none
    rw [if_pos hms, timeoutOp, if_pos peek_zero, if_pos peek_zero]
  · rename_i hms
    split
    · exact iff_of_true True.intro nofun
    · rename_i memory hwrite
      refine restart_suits hsysnum rfl hop fun _ => (poll_iff hms hwrite).trans ?_
      exact (or_iff_right hms).symm

theorem ftruncate_suits (hsysnum : getSysnum t.host t.abi t.regs = .PR_ftruncate) :
    t.Keeps t.ftruncate ↔ (t.ftruncate.Replaced → t.Suits) := by
  have hop : kernelOp t.host t.abi t.regs t.memory .PR_ftruncate ≠ .fail .ENOSYS := by
    show ftruncateOp _ _ ≠ _
    unfold ftruncateOp
    split <;> nofun
  unfold SigsysTracee.ftruncate
  split
  · exact iff_of_true True.intro nofun
  · exact restart_suits hsysnum rfl hop ftruncate_iff

theorem chown_iff {flags : BitVec 32} :
    KernelOp.fchownat (-100) (t.peek t.regs.arg1) (t.regs.arg2.setWidth 32)
      (t.regs.arg3.setWidth 32) flags =
        .fchownat (-100) (t.peek t.regs.arg1) (kernelId t.host t.abi t.regs.arg2)
          (kernelId t.host t.abi t.regs.arg3) flags ↔
      t.IdSuits t.regs.arg2 ∧ t.IdSuits t.regs.arg3 := by
  rw [KernelOp.fchownat.injEq, idSuits_iff, idSuits_iff]
  exact ⟨fun h => ⟨h.2.2.1, h.2.2.2.1⟩, fun h => ⟨rfl, rfl, h.1, h.2, rfl⟩⟩

end Calls

/-- A tracee of an x86_64 host that runs `dup2(5, 5)`. -/
def dupTracee : SigsysTracee where
  host := .ARCH_X86_64
  abi := .ABI_DEFAULT
  regs := ⟨33, 5, 5, 0, 0, 0, 0, 0x7fff0000, 0x401002⟩
  originalStackPointer := 0x7fff0000
  systrapSize := 2
  memory := fun _ => some 0

theorem dupTracee_dup2 :
    getSysnum dupTracee.host dupTracee.abi dupTracee.regs = .PR_dup2 := by
  decide

end PRoot
