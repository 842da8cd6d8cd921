import Mathlib.Algebra.Group.Nat.Defs
import Mathlib.Data.List.Nodup
import PRoot.SysnumTables

/-!
# System call numbers

`syscall/sysnum.c`: every architecture numbers the system calls in its own way,
PRoot names them all by the values of `Sysnum`.

* `Names`: the number a table gives to a system call;
* `SysnumTable.get_inj`: it gives each one number at most;
* `detranslateSysnum_eq_iff`: `detranslate_sysnum` finds it.
-/

namespace PRoot

namespace SysnumTable

/-- `table[i]`. -/
def get (table : SysnumTable) (i : Nat) : Sysnum := (table.entries.lookup i).getD .PR_void

/-- The number of elements of the array. -/
def length (table : SysnumTable) : Nat := (table.entries.map Prod.fst).foldl max 0 + 1

theorem mem_of_get {table : SysnumTable} {i : Nat} (h : table.get i ≠ .PR_void) :
    (i, table.get i) ∈ table.entries := by
  unfold get at h ⊢
  cases hfind : table.entries.lookup i with
  | none =>
      rw [hfind] at h
      exact absurd rfl h
  | some sysnum =>
      obtain ⟨before, after, hsplit, -⟩ := List.lookup_eq_some_iff.mp hfind
      rw [hsplit, Option.getD_some]
      exact List.mem_append_right _ List.mem_cons_self

theorem lt_length {table : SysnumTable} {i : Nat} {sysnum : Sysnum}
    (h : (i, sysnum) ∈ table.entries) : i < table.length := by
  have hle : ∀ (l : List Nat) (n : Nat), n ≤ l.foldl max n ∧ ∀ x ∈ l, x ≤ l.foldl max n := by
    intro l
    induction l with
    | nil => exact fun n => ⟨Nat.le_refl n, fun x hx => absurd hx List.not_mem_nil⟩
    | cons a l ih =>
        intro n
        obtain ⟨hn, hl⟩ := ih (max n a)
        refine ⟨Nat.le_trans (Nat.le_max_left n a) hn, fun x hx => ?_⟩
        rcases List.mem_cons.mp hx with rfl | hx
        · exact Nat.le_trans (Nat.le_max_right n x) hn
        · exact hl x hx
  exact Nat.lt_succ_of_le ((hle _ 0).2 i (List.mem_map_of_mem h))

end SysnumTable

/-! ## The hosts -/

/-- The architectures of `arch.h`. -/
inductive Host
  | ARCH_X86_64 | ARCH_ARM_EABI | ARCH_ARM64 | ARCH_X86 | ARCH_SH4
  deriving DecidableEq, Repr

/-- `Abi`. -/
inductive Abi
  | ABI_DEFAULT | ABI_2 | ABI_3
  deriving DecidableEq, Repr

/-- `Sysnums`. -/
structure Sysnums where
  table : SysnumTable
  offset : Nat
  deriving DecidableEq, Repr

/-- `get_sysnums`.  Other ABIs than those of the host fail an assertion. -/
def getSysnums : Host → Abi → Option Sysnums
  | .ARCH_X86_64, .ABI_DEFAULT => some ⟨sysnumsX8664, 0⟩
  | .ARCH_X86_64, .ABI_2 => some ⟨sysnumsI386, 0⟩
  | .ARCH_X86_64, .ABI_3 => some ⟨sysnumsX32, 0x40000000⟩
  | .ARCH_ARM_EABI, .ABI_DEFAULT => some ⟨sysnumsArm, 0⟩
  | .ARCH_ARM64, .ABI_DEFAULT => some ⟨sysnumsArm64, 0⟩
  | .ARCH_ARM64, .ABI_2 => some ⟨sysnumsArm, 0⟩
  | .ARCH_X86, .ABI_DEFAULT => some ⟨sysnumsI386, 0⟩
  | .ARCH_SH4, .ABI_DEFAULT => some ⟨sysnumsSh4, 0⟩
  | _, _ => none

/-- `SYSCALL_AVOIDER`, as a `word_t` of the host. -/
def Host.avoider : Host → Nat
  | .ARCH_X86_64 => 2 ^ 64 - 2
  | .ARCH_ARM_EABI => 222
  | .ARCH_ARM64 => 2 ^ 64 - 1
  | .ARCH_X86 | .ARCH_SH4 => 2 ^ 32 - 2

/-- `detranslate_sysnum`. -/
def detranslateSysnum (host : Host) (abi : Abi) (sysnum : Sysnum) : Nat :=
  if sysnum = .PR_void then host.avoider
  else
    match getSysnums host abi with
    | none => host.avoider
    | some sysnums =>
        match (List.range sysnums.table.length).find? (fun i => sysnums.table.get i = sysnum) with
        | some i => i + sysnums.offset
        | none => host.avoider

/-- **The number of a system call** in an ABI of the host: the place its table
has for it. -/
def Names (host : Host) (abi : Abi) (nr : Nat) (sysnum : Sysnum) : Prop :=
  sysnum ≠ .PR_void ∧ ∃ sysnums ∈ getSysnums host abi, ∃ i,
    sysnums.table.get i = sysnum ∧ nr = i + sysnums.offset

/-- Whether no number occurs twice in a list, or is one of the bits of `seen`. -/
def distinct : List Nat → Nat → Bool
  | [], _ => true
  | n :: l, seen => !seen.testBit n && distinct l (seen ||| 2 ^ n)

theorem nodup_of_distinct {l : List Nat} {seen : Nat} (h : distinct l seen = true) :
    l.Nodup ∧ ∀ n ∈ l, seen.testBit n = false := by
  induction l generalizing seen with
  | nil => exact ⟨List.nodup_nil, fun n hn => absurd hn List.not_mem_nil⟩
  | cons n l ih =>
      rw [distinct, Bool.and_eq_true, Bool.not_eq_true'] at h
      obtain ⟨hnodup, hseen⟩ := ih h.2
      have hboth : ∀ m ∈ l, seen.testBit m = false ∧ (2 ^ n).testBit m = false := by
        intro m hm
        have hm := hseen m hm
        rwa [Nat.testBit_or, Bool.or_eq_false_iff] at hm
      refine ⟨List.nodup_cons.mpr ⟨fun hn => ?_, hnodup⟩, fun m hm => ?_⟩
      · have hself := (hboth n hn).2
        rw [Nat.testBit_two_pow_self] at hself
        cases hself
      · rcases List.mem_cons.mp hm with rfl | hm
        · exact h.1
        · exact (hboth m hm).1

/-- No table has a system call twice. -/
theorem getSysnums_nodup {host : Host} {abi : Abi} {sysnums : Sysnums}
    (h : getSysnums host abi = some sysnums) : (sysnums.table.entries.map Prod.snd).Nodup := by
  have hdistinct : distinct ((sysnums.table.entries.map Prod.snd).map Sysnum.ctorIdx) 0 = true := by
    cases host <;> cases abi <;> cases h <;> decide +kernel
  exact List.Nodup.of_map _ (nodup_of_distinct hdistinct).1

/-- An ABI gives each system call one number at most. -/
theorem SysnumTable.get_inj {host : Host} {abi : Abi} {sysnums : Sysnums}
    (h : getSysnums host abi = some sysnums) {i j : Nat}
    (hij : sysnums.table.get i = sysnums.table.get j) (hi : sysnums.table.get i ≠ .PR_void) :
    i = j := by
  have hmemi := mem_of_get hi
  have hmemj := mem_of_get (hij ▸ hi)
  rw [← hij] at hmemj
  have heq := List.inj_on_of_nodup_map (getSysnums_nodup h) hmemi hmemj rfl
  exact congrArg Prod.fst heq

/-- The tables are small, and shifted by little. -/
theorem getSysnums_small {host : Host} {abi : Abi} {sysnums : Sysnums}
    (h : getSysnums host abi = some sysnums) :
    sysnums.table.length ≤ 600 ∧ sysnums.offset ≤ 2 ^ 30 := by
  cases host <;> cases abi <;> cases h <;> decide +kernel

/-- The numbers are far below 2^32. -/
theorem number_lt {host : Host} {abi : Abi} {nr : Nat} {sysnum : Sysnum}
    (h : Names host abi nr sysnum) : nr < 2 ^ 31 := by
  obtain ⟨hne, sysnums, hget, i, rfl, rfl⟩ := h
  have hlt := SysnumTable.lt_length (SysnumTable.mem_of_get hne)
  have hsmall := getSysnums_small hget
  omega

/-- What stands for "no such system call" is not the number of one. -/
theorem Names.ne_avoider {host : Host} {abi : Abi} {nr : Nat} {sysnum : Sysnum}
    (h : Names host abi nr sysnum) : nr ≠ host.avoider := by
  have hlt := number_lt h
  intro heq
  cases host with
  | ARCH_ARM_EABI =>
      -- 222 is `tuxcall`, which has no name in the table of this host
      obtain ⟨hne, sysnums, hget, i, hi, rfl⟩ := h
      cases abi <;> cases hget
      obtain rfl : i = 222 := heq
      exact hne (hi.symm.trans (by decide +kernel))
  | _ =>
      simp only [Host.avoider] at heq
      omega

/-- **`detranslate_sysnum` finds the number of a system call**, where it has one. -/
theorem detranslateSysnum_eq_iff {host : Host} {abi : Abi} {nr : Nat} {sysnum : Sysnum}
    (hnr : nr ≠ host.avoider) :
    detranslateSysnum host abi sysnum = nr ↔ Names host abi nr sysnum := by
  unfold detranslateSysnum Names
  by_cases hvoid : sysnum = .PR_void
  · rw [if_pos hvoid]
    exact ⟨fun h => absurd h.symm hnr, fun h => absurd hvoid h.1⟩
  · rw [if_neg hvoid]
    cases hget : getSysnums host abi with
    | none => exact ⟨fun h => absurd h.symm hnr, fun ⟨_, _, hmem, _⟩ => by cases hmem⟩
    | some sysnums =>
        simp only
        cases hfind : (List.range sysnums.table.length).find?
            (fun i => sysnums.table.get i = sysnum) with
        | none =>
            refine ⟨fun h => absurd h.symm hnr, fun ⟨_, s, hs, i, hi, _⟩ => ?_⟩
            obtain rfl := Option.some.inj hs
            have hno := List.find?_eq_none.mp hfind i
              (List.mem_range.mpr (SysnumTable.lt_length (SysnumTable.mem_of_get (hi ▸ hvoid))))
            exact absurd hi (by simpa using hno)
        | some i =>
            have hi : sysnums.table.get i = sysnum := by simpa using List.find?_some hfind
            refine ⟨fun h => ⟨hvoid, sysnums, rfl, i, hi, h.symm⟩, fun ⟨_, s, hs, j, hj, hnr⟩ => ?_⟩
            obtain rfl := Option.some.inj hs
            rw [hnr, SysnumTable.get_inj hget (hi.trans hj.symm) (hi ▸ hvoid)]

end PRoot
