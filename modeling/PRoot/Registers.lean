import PRoot.Sysnum

/-!
# Registers

The registers of a tracee as far as system calls use them, and how wide they are for
each ABI of a host.

* `peek_setWidth`: the low half of a register is the same in all ABIs;
* `translate_detranslate`: a system call number survives being set.
-/

namespace PRoot

/-- `sizeof(word_t)`, which is the size of a `long` of PRoot as well. -/
def Host.word : Host → Nat
  | .ARCH_X86_64 | .ARCH_ARM64 => 8
  | .ARCH_ARM_EABI | .ARCH_X86 | .ARCH_SH4 => 4

/-- `is_32on64_mode`. -/
def is32on64Mode (host : Host) (abi : Abi) : Bool :=
  match host, abi with
  | .ARCH_X86_64, .ABI_2 | .ARCH_X86_64, .ABI_3 | .ARCH_ARM64, .ABI_2 => true
  | _, _ => false

/-- `sizeof_word`. -/
def sizeofWord (host : Host) (abi : Abi) : Nat :=
  if is32on64Mode host abi then host.word / 2 else host.word

/-- `RED_ZONE_SIZE`. -/
def Host.redZoneSize : Host → Nat
  | .ARCH_X86_64 => 128
  | _ => 0

/-- `untag_pointer`. -/
def Host.untagPointer (host : Host) (address : BitVec 64) : BitVec 64 :=
  match host with
  | .ARCH_ARM64 => address &&& 0x00FFFFFFFFFFFFFF
  | _ => address

/-- What `peek_reg` makes of a register: a 32-bit process has 32-bit words. -/
def peek (host : Host) (abi : Abi) (value : BitVec 64) : BitVec 64 :=
  if sizeofWord host abi = 4 then value &&& 0xFFFFFFFF else value

/-- A bank of `_regs`: the number and the arguments of a system call, the stack pointer
and the instruction pointer. -/
structure SyscallRegs where
  num : BitVec 64
  arg1 : BitVec 64
  arg2 : BitVec 64
  arg3 : BitVec 64
  arg4 : BitVec 64
  arg5 : BitVec 64
  arg6 : BitVec 64
  stackPointer : BitVec 64
  instrPointer : BitVec 64
  deriving DecidableEq, Repr

/-- `translate_sysnum`. -/
def translateSysnum (host : Host) (abi : Abi) (nr : Nat) : Sysnum :=
  match getSysnums host abi with
  | none => .PR_void
  | some sysnums =>
      if nr < sysnums.offset then .PR_void else sysnums.table.get (nr - sysnums.offset)

/-- `get_sysnum`. -/
def getSysnum (host : Host) (abi : Abi) (regs : SyscallRegs) : Sysnum :=
  translateSysnum host abi (peek host abi regs.num).toNat

/-- `set_sysnum`. -/
def setSysnum (host : Host) (abi : Abi) (regs : SyscallRegs) (sysnum : Sysnum) : SyscallRegs :=
  { regs with num := BitVec.ofNat 64 (detranslateSysnum host abi sysnum) }

section

variable {host : Host} {abi : Abi}

theorem and_low (value : BitVec 64) :
    (value &&& 0xFFFFFFFF).toNat = value.toNat % 2 ^ 32 := by
  rw [BitVec.toNat_and]
  exact Nat.and_two_pow_sub_one_eq_mod value.toNat 32

/-- The low half of a register is the same in all ABIs. -/
@[simp] theorem peek_setWidth {w : Nat} (hw : w ≤ 32) (value : BitVec 64) :
    (peek host abi value).setWidth w = value.setWidth w := by
  unfold peek
  split
  · apply BitVec.eq_of_toNat_eq
    rw [BitVec.toNat_setWidth, BitVec.toNat_setWidth, and_low,
      Nat.mod_mod_of_dvd _ (Nat.pow_dvd_pow 2 hw)]
  · rfl

@[simp] theorem peek_peek (value : BitVec 64) :
    peek host abi (peek host abi value) = peek host abi value := by
  unfold peek
  split
  · rw [BitVec.and_assoc, BitVec.and_self]
  · rfl

@[simp] theorem peek_zero : peek host abi 0 = 0 := by
  unfold peek
  split <;> rfl

theorem peek_small {value : BitVec 64} (h : value.toNat < 2 ^ 32) :
    peek host abi value = value := by
  unfold peek
  split
  · apply BitVec.eq_of_toNat_eq
    rw [and_low, Nat.mod_eq_of_lt h]
  · rfl

end

theorem Names.translate {host : Host} {abi : Abi} {nr : Nat} {sysnum : Sysnum}
    (h : Names host abi nr sysnum) : translateSysnum host abi nr = sysnum := by
  obtain ⟨hvoid, sysnums, hget, i, hi, rfl⟩ := h
  rw [translateSysnum, Option.mem_def.mp hget]
  simp only [Nat.not_lt.mpr (Nat.le_add_left _ _), if_false, Nat.add_sub_cancel]
  exact hi

theorem names_of_translate {host : Host} {abi : Abi} {nr : Nat}
    (h : translateSysnum host abi nr ≠ .PR_void) :
    Names host abi nr (translateSysnum host abi nr) := by
  refine ⟨h, ?_⟩
  unfold translateSysnum at h ⊢
  cases hget : getSysnums host abi with
  | none =>
      rw [hget] at h
      exact absurd rfl h
  | some sysnums =>
      rw [hget] at h
      simp only at h ⊢
      split at h
      · exact absurd rfl h
      · rename_i hle
        exact ⟨sysnums, rfl, nr - sysnums.offset, (if_neg hle).symm, by omega⟩

/-- **A system call that is set** is the one the kernel sees, if the ABI has it. -/
theorem getSysnum_setSysnum (host : Host) (abi : Abi) (regs : SyscallRegs) (sysnum : Sysnum) :
    ((∃ nr, Names host abi nr sysnum) →
      getSysnum host abi (setSysnum host abi regs sysnum) = sysnum) ∧
    ((¬ ∃ nr, Names host abi nr sysnum) →
      getSysnum host abi (setSysnum host abi regs sysnum) = .PR_void) := by
  constructor
  · rintro ⟨nr, hnames⟩
    have hlt := number_lt hnames
    have hnr : detranslateSysnum host abi sysnum = nr :=
      (detranslateSysnum_eq_iff hnames.ne_avoider).mpr hnames
    have hnat : (BitVec.ofNat 64 nr).toNat = nr := by
      rw [BitVec.toNat_ofNat]
      exact Nat.mod_eq_of_lt (by omega)
    have hsmall : (BitVec.ofNat 64 nr).toNat < 2 ^ 32 := by omega
    rw [getSysnum, setSysnum, hnr, peek_small hsmall, hnat, hnames.translate]
  · intro hno
    by_contra hsome
    have hnames := names_of_translate hsome
    have hlt := number_lt hnames
    have havoider : detranslateSysnum host abi sysnum = host.avoider := by
      by_contra hne
      exact hno ⟨_, (detranslateSysnum_eq_iff hne).mp rfl⟩
    have hne := hnames.ne_avoider
    simp only [setSysnum, havoider] at hlt hne
    cases host with
    | ARCH_ARM_EABI => exact hne (by cases abi <;> rfl)
    | _ => cases abi <;> exact absurd hlt (by decide)

end PRoot
