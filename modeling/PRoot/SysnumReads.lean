import PRoot.Registers

/-!
# System call numbers beyond a table

`translate_sysnum` (`syscall/sysnum.c`), with what it reads: the number is a word of the tracee,
and its table an array.

* `Sysnums.translate`: the lookup, where it may read past the array;
* `Sysnums.Right`: what a number is to become, and to come back from;
* `Sysnums.right_iff`: when it does.
-/

namespace PRoot

/-- What reading an element of a table gives. -/
inductive TableRead
  | element (sysnum : Sysnum)
  | beyond
  deriving DecidableEq, Repr

/-- `table[i]`, of an array that ends. -/
def SysnumTable.read (table : SysnumTable) (i : Nat) : TableRead :=
  if i < table.length then .element (table.get i) else .beyond

namespace Sysnums

/-- `translate_sysnum`. -/
def translate (sysnums : Sysnums) (sysnum : Nat) : TableRead :=
  if sysnum < sysnums.offset then .element .PR_void
  else
    let index := sysnum - sysnums.offset
    if index > sysnums.table.length then .element .PR_void
    else sysnums.table.read index

/-- The table defines a number: one of its initializers gives it a system call. -/
def Defines (sysnums : Sysnums) (nr : Nat) : Prop :=
  ∃ i sysnum, (i, sysnum) ∈ sysnums.table.entries ∧ sysnum ≠ .PR_void ∧ nr = i + sysnums.offset

/-- **A number is translated right**: nothing is read outside the table, `PR_void` stands for what
the table does not define, and everything else can be translated back. -/
structure Right (host : Host) (abi : Abi) (sysnums : Sysnums) (nr : Nat) : Prop where
  inside : sysnums.translate nr ≠ .beyond
  void : sysnums.translate nr = .element .PR_void ↔ ¬ sysnums.Defines nr
  back : ∀ sysnum, sysnum ≠ .PR_void → sysnums.translate nr = .element sysnum →
    detranslateSysnum host abi sysnum = nr

section

variable {host : Host} {abi : Abi} {sysnums : Sysnums} {nr : Nat}

/-- No number has two initializers. -/
theorem keys_nodup (h : getSysnums host abi = some sysnums) :
    (sysnums.table.entries.map Prod.fst).Nodup := by
  have hdistinct : distinct (sysnums.table.entries.map Prod.fst) 0 = true := by
    cases host <;> cases abi <;> cases h <;> decide +kernel
  exact (nodup_of_distinct hdistinct).1

theorem get_of_mem (h : getSysnums host abi = some sysnums) {i : Nat} {sysnum : Sysnum}
    (hmem : (i, sysnum) ∈ sysnums.table.entries) : sysnums.table.get i = sysnum := by
  have hlookup : ∀ entries : List (Nat × Sysnum), (entries.map Prod.fst).Nodup →
      (i, sysnum) ∈ entries → entries.lookup i = some sysnum := by
    intro entries
    induction entries with
    | nil => exact fun _ h => absurd h List.not_mem_nil
    | cons entry entries ih =>
        intro hnodup hmem
        obtain ⟨hnot, hnodup⟩ := List.nodup_cons.mp hnodup
        rcases List.mem_cons.mp hmem with rfl | hmem
        · exact List.lookup_cons_self
        · have hne : i ≠ entry.1 := by
            intro heq
            exact hnot (heq ▸ List.mem_map_of_mem hmem)
          rw [List.lookup_cons, beq_false_of_ne hne]
          exact ih hnodup hmem
  rw [SysnumTable.get, hlookup _ (keys_nodup h) hmem, Option.getD_some]

/-- A number is defined where it is the number of a system call. -/
theorem defines_iff (h : getSysnums host abi = some sysnums) :
    sysnums.Defines nr ↔ translateSysnum host abi nr ≠ .PR_void := by
  constructor
  · rintro ⟨i, sysnum, hmem, hne, rfl⟩
    have hnames : Names host abi (i + sysnums.offset) sysnum :=
      ⟨hne, sysnums, h, i, get_of_mem h hmem, rfl⟩
    rwa [hnames.translate]
  · intro hne
    obtain ⟨hvoid, sysnums', h', i, hi, hnr⟩ := names_of_translate hne
    obtain rfl := Option.some.inj (h.symm.trans h')
    rw [← hi] at hvoid
    exact ⟨i, _, SysnumTable.mem_of_get hvoid, hvoid, hnr⟩

/-- Beyond the array there is nothing. -/
theorem get_of_length_le {i : Nat} (hle : sysnums.table.length ≤ i) :
    sysnums.table.get i = .PR_void := by
  by_contra hne
  have hlt := SysnumTable.lt_length (SysnumTable.mem_of_get hne)
  omega

/-- What the lookup gives, for every number but one. -/
theorem translate_eq (h : getSysnums host abi = some sysnums)
    (hne : nr ≠ sysnums.offset + sysnums.table.length) :
    sysnums.translate nr = .element (translateSysnum host abi nr) := by
  have hvalue : translateSysnum host abi nr =
      if nr < sysnums.offset then .PR_void else sysnums.table.get (nr - sysnums.offset) := by
    rw [translateSysnum, h]
  rw [hvalue]
  unfold translate
  by_cases hlow : nr < sysnums.offset
  · rw [if_pos hlow, if_pos hlow]
  · rw [if_neg hlow, if_neg hlow]
    by_cases hhigh : nr - sysnums.offset > sysnums.table.length
    · rw [if_pos hhigh, get_of_length_le (Nat.le_of_lt hhigh)]
    · have hlt : nr - sysnums.offset < sysnums.table.length := by omega
      rw [if_neg hhigh, SysnumTable.read, if_pos hlt]

/-- The element after the last one is read. -/
theorem translate_length : sysnums.translate (sysnums.offset + sysnums.table.length) = .beyond := by
  unfold translate SysnumTable.read
  simp

/-- **A number is translated right unless it is the one after the last of its table.** -/
theorem right_iff (h : getSysnums host abi = some sysnums) :
    sysnums.Right host abi nr ↔ nr ≠ sysnums.offset + sysnums.table.length := by
  constructor
  · rintro hright rfl
    exact hright.inside translate_length
  · intro hne
    have htranslate := translate_eq h hne
    refine ⟨?_, ?_, ?_⟩
    · rw [htranslate]
      exact TableRead.noConfusion
    · rw [htranslate, defines_iff h, not_not]
      exact ⟨TableRead.element.inj, congrArg TableRead.element⟩
    · intro sysnum hvoid heq
      rw [htranslate] at heq
      obtain rfl := TableRead.element.inj heq
      have hnames := names_of_translate hvoid
      exact (detranslateSysnum_eq_iff hnames.ne_avoider).mpr hnames

/-- The number of `mmap` on x86_64. -/
theorem mmap_number_right : Right .ARCH_X86_64 .ABI_DEFAULT ⟨sysnumsX8664, 0⟩ 9 :=
  (right_iff rfl).mpr (by decide +kernel)

/-- On x86_64 the table has 440 elements: number 440 is read from beyond them. -/
theorem number_beyond_read :
    ¬ ∀ host abi sysnums nr, getSysnums host abi = some sysnums → sysnums.Right host abi nr := by
  intro h
  have hright := h .ARCH_X86_64 .ABI_DEFAULT ⟨sysnumsX8664, 0⟩ 440 rfl
  exact hright.inside (by decide +kernel)

end

end Sysnums

end PRoot
