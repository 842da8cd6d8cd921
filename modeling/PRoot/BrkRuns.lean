import PRoot.Brk

/-!
# The heap in every run

What the two stages of `brk` do to the heap, call after call.

* `HeapInv`: how the heap lies in the address space;
* `BrkOutcome`: what a call does, and that none of its sums wraps;
* `brk_outcome`: each call does, and keeps the invariant;
* `brk_consistent`: so it is in every run.
-/

namespace PRoot

section

variable (K : BrkHost)

/-- A call that is emulated.  Others are left to the kernel: all of them once it is disabled, and
those that ask for an address before there is a heap. -/
def Emulates (heap : Heap) (call : BrkCall) : Prop :=
  heap.disabled = false ∧ (heap.base ≠ 0 ∨ K.reg call.regs.arg1 = 0)

/-- The heap is resized: the address is not below its base, and the mapping stays where it is. -/
def Resizes (heap : Heap) (call : BrkCall) : Prop :=
  heap.base.toNat ≤ (K.reg call.regs.arg1).toNat ∧
    (K.reg call.answer).toNat + K.heapOffset.toNat = heap.base.toNat

/-- No sum of the call wraps around, and no difference is taken from less. -/
structure BrkExact (heap : Heap) (call : BrkCall) (heap' : Heap) : Prop where
  newMapping : ∀ bss, (call.loadInfo.bind (·.mappings)).bind List.getLast? = some bss →
    heap.base = 0 → (K.add bss.addr bss.length).toNat = bss.addr.toNat + bss.length.toNat
  newBase : heap.base = 0 → ¬ IsError K (K.reg call.answer) →
    (K.add (K.reg call.answer) K.heapOffset).toNat =
      (K.reg call.answer).toNat + K.heapOffset.toNat
  oldAddress : heap.base ≠ 0 → K.heapOffset.toNat ≤ heap.base.toNat ∧
    (K.sub heap.base K.heapOffset).toNat = heap.base.toNat - K.heapOffset.toNat
  oldSize : heap.base ≠ 0 →
    (K.add heap.size K.heapOffset).toNat = heap.size.toNat + K.heapOffset.toNat
  newSize : heap.base ≠ 0 → heap.base.toNat ≤ (K.reg call.regs.arg1).toNat →
    (K.sub (K.reg call.regs.arg1) heap.base).toNat =
        (K.reg call.regs.arg1).toNat - heap.base.toNat ∧
      (K.add (K.sub (K.reg call.regs.arg1) heap.base) K.heapOffset).toNat =
        (K.reg call.regs.arg1).toNat - heap.base.toNat + K.heapOffset.toNat
  newBreak : (K.add heap'.base heap'.size).toNat = heap'.base.toNat + heap'.size.toNat

/-- **What a call has to do.** -/
structure BrkOutcome (heap : Heap) (call : BrkCall) (heap' : Heap) (reported : BitVec 64) :
    Prop where
  base : heap.base ≠ 0 → heap'.base = heap.base
  reports : Emulates K heap call → reported.toNat = heap'.base.toNat + heap'.size.toNat
  resized : Emulates K heap call → heap.base ≠ 0 → Resizes K heap call →
    reported = K.reg call.regs.arg1
  refused : Emulates K heap call → heap.base ≠ 0 → ¬ Resizes K heap call → heap' = heap
  setUp : Emulates K heap call → heap.base = 0 → ¬ IsError K (K.reg call.answer) →
    heap'.base.toNat = (K.reg call.answer).toNat + K.heapOffset.toNat ∧ heap'.size = 0
  notSetUp : Emulates K heap call → heap.base = 0 → IsError K (K.reg call.answer) → heap' = heap
  exact : Emulates K heap call → BrkExact K heap call heap'
  left : ¬ Emulates K heap call → heap'.base = heap.base ∧ heap'.size = heap.size ∧
    reported = K.reg call.answer ∧
      (heap'.disabled ↔ heap.disabled ∨ K.reg call.answer = K.reg call.regs.arg1)

/-- A call of a running program that the kernel answers. -/
structure IsAnswered (heap : Heap) (call : BrkCall) : Prop where
  isBrk : getSysnum K.host K.abi call.regs = .PR_brk
  /-- The loader mapped the program. -/
  program : ∃ bss, (call.loadInfo.bind (·.mappings)).bind List.getLast? = some bss ∧
    IsMapping K bss.addr bss.length
  answer : AnswersMapping K heap call

/-- How the heap lies in the address space: a page is before it. -/
structure HeapInv (heap : Heap) : Prop where
  unset : heap.base = 0 → heap.size = 0
  disabled : heap.disabled → heap.base = 0
  set : heap.base ≠ 0 → K.heapOffset.toNat ≤ heap.base.toNat ∧
    heap.base.toNat + heap.size.toNat ≤ K.spaceEnd

/-! ## Words -/

variable {K}

theorem sizeofWord_cases (host : Host) (abi : Abi) :
    sizeofWord host abi = 4 ∨ sizeofWord host abi = 8 ∧ host.word = 8 := by
  cases host <;> cases abi <;> decide

theorem asWord_toNat (host : Host) (value : BitVec 64) :
    (asWord host value).toNat = value.toNat % 256 ^ host.word := by
  unfold asWord
  split
  case isTrue h =>
    rw [and_low, h]
    rfl
  case isFalse h =>
    have hword : host.word = 8 := by
      cases host <;> first | rfl | exact absurd rfl h
    rw [hword, Nat.mod_eq_of_lt]
    exact value.isLt

theorem word_bounds (host : Host) (abi : Abi) :
    256 ^ sizeofWord host abi ≤ 256 ^ host.word ∧ 256 ^ host.word ≤ 2 ^ 64 ∧
      2 ^ 32 ≤ 256 ^ sizeofWord host abi := by
  cases host <;> cases abi <;> decide

theorem BrkHost.add_toNat {a b : BitVec 64}
    (h : a.toNat + b.toNat < 256 ^ sizeofWord K.host K.abi) :
    (K.add a b).toNat = a.toNat + b.toNat := by
  have hbounds := word_bounds K.host K.abi
  rw [BrkHost.add, asWord_toNat, BitVec.toNat_add, Nat.mod_eq_of_lt (show _ < 2 ^ 64 by omega),
    Nat.mod_eq_of_lt (by omega)]

theorem BrkHost.sub_toNat {a b : BitVec 64} (hle : b.toNat ≤ a.toNat)
    (h : a.toNat < 256 ^ sizeofWord K.host K.abi) : (K.sub a b).toNat = a.toNat - b.toNat := by
  have hbounds := word_bounds K.host K.abi
  rw [BrkHost.sub, asWord_toNat, BitVec.toNat_sub_of_le hle, Nat.mod_eq_of_lt (by omega)]

theorem BrkHost.reg_lt (value : BitVec 64) :
    (K.reg value).toNat < 256 ^ sizeofWord K.host K.abi := by
  unfold BrkHost.reg peek
  rcases sizeofWord_cases K.host K.abi with h | ⟨h, -⟩
  · rw [if_pos h, and_low, h]
    exact Nat.mod_lt _ (by decide)
  · rw [if_neg (by omega), h]
    exact value.isLt

theorem BrkHost.reg_of_lt {value : BitVec 64}
    (h : value.toNat < 256 ^ sizeofWord K.host K.abi) : K.reg value = value := by
  unfold BrkHost.reg peek
  rcases sizeofWord_cases K.host K.abi with hword | ⟨hword, -⟩
  · rw [hword] at h
    rw [if_pos hword]
    apply BitVec.eq_of_toNat_eq
    rw [and_low]
    exact Nat.mod_eq_of_lt h
  · rw [if_neg (by omega)]

theorem isBrkError_iff (result : BitVec 64) :
    isBrkError result = true ↔ 2 ^ 32 - 4096 < result.toNat % 2 ^ 32 := by
  have hint : (result.setWidth 32).toInt = Int.bmod (result.toNat % 2 ^ 32 : Nat) (2 ^ 32) := by
    rw [BitVec.toInt_eq_toNat_bmod, BitVec.toNat_setWidth]
  unfold isBrkError
  simp only [hint, Bool.and_eq_true, decide_eq_true_eq]
  rw [Int.bmod_def]
  constructor <;> intro h <;> split at * <;> omega

/-- An error is known as one, -/
theorem isBrkError_of_error {answer : BitVec 64} (h : IsError K answer) :
    isBrkError answer = true := by
  obtain ⟨errno, hpos, hlt, hanswer⟩ := h
  rw [isBrkError_iff, hanswer]
  rcases sizeofWord_cases K.host K.abi with hword | ⟨hword, -⟩ <;> rw [hword] <;> omega

/-- and a mapping is none. -/
theorem isBrkError_of_mapping {address length : BitVec 64} (h : IsMapping K address length) :
    isBrkError address = false := by
  rw [Bool.eq_false_iff, ne_eq, isBrkError_iff]
  obtain ⟨hdvd, -⟩ := h
  omega

theorem IsMapping.not_error {address length : BitVec 64} (h : IsMapping K address length) :
    ¬ IsError K address := by
  intro herror
  have := isBrkError_of_error herror
  rw [isBrkError_of_mapping h] at this
  cases this

/-! ## The calls of the enter stage -/

theorem getSysnums_of_brk {host : Host} {abi : Abi} {regs : SyscallRegs}
    (h : getSysnum host abi regs = .PR_brk) : ∃ sysnums, getSysnums host abi = some sysnums := by
  cases hget : getSysnums host abi with
  | none =>
      rw [getSysnum, translateSysnum, hget] at h
      cases h
  | some sysnums => exact ⟨sysnums, rfl⟩

/-- Every ABI that has `brk` can resize a mapping, -/
theorem names_mremap {host : Host} {abi : Abi} {regs : SyscallRegs}
    (h : getSysnum host abi regs = .PR_brk) : ∃ nr, Names host abi nr .PR_mremap := by
  obtain ⟨sysnums, hget⟩ := getSysnums_of_brk h
  have hplace : ∃ i, sysnums.table.get i = .PR_mremap := by
    cases host <;> cases abi <;> cases hget <;>
      first
        | exact ⟨25, by decide⟩
        | exact ⟨163, by decide⟩
        | exact ⟨216, by decide⟩
  obtain ⟨i, hi⟩ := hplace
  exact ⟨_, by decide, sysnums, hget, i, hi, rfl⟩

/-- and make one. -/
theorem names_mmap {regs : SyscallRegs} (h : getSysnum K.host K.abi regs = .PR_brk) :
    ∃ nr, Names K.host K.abi nr K.mmapSysnum := by
  unfold BrkHost.mmapSysnum
  split
  case isTrue hfound => exact ⟨_, (detranslateSysnum_eq_iff hfound).mp rfl⟩
  case isFalse hmissing =>
    have hno : ∀ nr, ¬ Names K.host K.abi nr .PR_mmap2 := by
      intro nr hnames
      apply hmissing
      rw [(detranslateSysnum_eq_iff hnames.ne_avoider).mpr hnames]
      exact hnames.ne_avoider
    obtain ⟨sysnums, hget⟩ := getSysnums_of_brk h
    have hplace : ∃ i, sysnums.table.get i = .PR_mmap2 ∨ sysnums.table.get i = .PR_mmap := by
      revert hget
      cases K.host <;> cases K.abi <;> intro hget <;> cases hget <;>
        first
          | exact ⟨9, .inr (by decide)⟩
          | exact ⟨192, .inl (by decide)⟩
          | exact ⟨222, .inr (by decide)⟩
    obtain ⟨i, hi | hi⟩ := hplace
    · exact absurd ⟨by decide, sysnums, hget, i, hi, rfl⟩ (hno _)
    · exact ⟨_, by decide, sysnums, hget, i, hi, rfl⟩

theorem mmapSysnum_cases (K : BrkHost) : K.mmapSysnum = .PR_mmap2 ∨ K.mmapSysnum = .PR_mmap := by
  unfold BrkHost.mmapSysnum
  split
  · exact .inl rfl
  · exact .inr rfl

variable {heap : Heap} {call : BrkCall}

/-- What is left to the kernel. -/
theorem brk_left (hanswered : IsAnswered K heap call) (h : ¬ Emulates K heap call) :
    brk K heap call = some
      (if heap.disabled then heap
        else if K.reg call.answer = K.reg call.regs.arg1 then { heap with disabled := true }
        else heap, K.reg call.answer) := by
  cases hdisabled : heap.disabled with
  | true => simp [brk, translateBrkEnter, translateBrkExit, hdisabled]
  | false =>
      have hbase : heap.base = 0 := by
        by_contra hne
        exact h ⟨hdisabled, .inl hne⟩
      have hasked : K.reg call.regs.arg1 ≠ 0 := fun hzero => h ⟨hdisabled, .inr hzero⟩
      have hneg : ¬ heap.disabled = true := by rw [hdisabled]; decide
      have henter : translateBrkEnter K call.loadInfo heap call.regs = some call.regs := by
        rw [translateBrkEnter, if_neg hneg, if_pos hbase, if_pos hasked]
      rw [brk, henter, Option.bind_some, translateBrkExit, if_neg hneg, hanswered.isBrk]
      rfl

/-- The first call maps the heap. -/
theorem brk_setUp (hanswered : IsAnswered K heap call) (h : heap.disabled = false)
    (hbase : heap.base = 0) (hasked : K.reg call.regs.arg1 = 0) :
    (IsError K (K.reg call.answer) ∨ IsMapping K (K.reg call.answer) K.heapOffset) ∧
      brk K heap call = some
        (if isBrkError (K.reg call.answer) then (heap, 0)
        else
          ({ heap with base := K.add (K.reg call.answer) K.heapOffset, size := 0 },
            K.reg (K.add (K.add (K.reg call.answer) K.heapOffset) 0))) := by
  obtain ⟨bss, hbss, -⟩ := hanswered.program
  obtain ⟨nr, hnames⟩ := names_mmap hanswered.isBrk
  have hset := (getSysnum_setSysnum K.host K.abi call.regs K.mmapSysnum).1 ⟨nr, hnames⟩
  have henter : translateBrkEnter K call.loadInfo heap call.regs = some
      { setSysnum K.host K.abi call.regs K.mmapSysnum with
        arg1 := K.add bss.addr bss.length
        arg2 := K.heapOffset
        arg3 := 1 ||| 2
        arg4 := 0x02 ||| 0x20
        arg5 := asWord K.host (-1)
        arg6 := 0 } := by
    simp [translateBrkEnter, h, hbase, hasked, hbss]
  refine ⟨(hanswered.answer _ henter).1 hset, ?_⟩
  obtain ⟨modified, henter, hnumber⟩ : ∃ modified,
      translateBrkEnter K call.loadInfo heap call.regs = some modified ∧
        getSysnum K.host K.abi modified = K.mmapSysnum :=
    ⟨_, henter, hset⟩
  rw [brk, henter, Option.bind_some, translateBrkExit, if_neg (by rw [h]; decide), hnumber]
  obtain hnr | hnr := mmapSysnum_cases K <;> rw [hnr] <;> dsimp only <;> split <;> rfl

/-- An address below the base changes nothing. -/
theorem brk_below (h : heap.disabled = false) (hbase : heap.base ≠ 0)
    (hasked : (K.reg call.regs.arg1).toNat < heap.base.toNat) :
    brk K heap call = some (heap, K.reg (K.add heap.base heap.size)) := by
  have hneg : ¬ heap.disabled = true := by rw [h]; decide
  have henter : translateBrkEnter K call.loadInfo heap call.regs =
      some (setSysnum K.host K.abi call.regs .PR_void) := by
    rw [translateBrkEnter, if_neg hneg, if_neg hbase]
    exact if_pos hasked
  have hvoid := (getSysnum_setSysnum K.host K.abi call.regs .PR_void).2
    (fun h => h.elim fun _ h => h.1 rfl)
  rw [brk, henter, Option.bind_some, translateBrkExit, if_neg hneg, hvoid]

/-- Other addresses resize the mapping, if the kernel can. -/
theorem brk_resize (hanswered : IsAnswered K heap call) (h : heap.disabled = false)
    (hbase : heap.base ≠ 0) (hasked : heap.base.toNat ≤ (K.reg call.regs.arg1).toNat) :
    (IsError K (K.reg call.answer) ∨ IsMapping K (K.reg call.answer)
      (K.add (K.sub (K.reg call.regs.arg1) heap.base) K.heapOffset)) ∧
      brk K heap call = some
        (if isBrkError (K.reg call.answer) || heap.base ≠ K.add (K.reg call.answer) K.heapOffset then
          (heap, K.reg (K.add heap.base heap.size))
        else
          let size := K.sub
            (K.reg (K.add (K.sub (K.reg call.regs.arg1) heap.base) K.heapOffset)) K.heapOffset
          ({ heap with size }, K.reg (K.add heap.base size))) := by
  have hneg : ¬ heap.disabled = true := by rw [h]; decide
  have hnot : ¬ K.reg call.regs.arg1 < heap.base := Nat.not_lt.mpr hasked
  obtain ⟨nr, hnames⟩ := names_mremap hanswered.isBrk
  have hset := (getSysnum_setSysnum K.host K.abi call.regs .PR_mremap).1 ⟨nr, hnames⟩
  have henter : translateBrkEnter K call.loadInfo heap call.regs = some
      { setSysnum K.host K.abi call.regs .PR_mremap with
        arg1 := K.sub heap.base K.heapOffset
        arg2 := K.add heap.size K.heapOffset
        arg3 := K.add (K.sub (K.reg call.regs.arg1) heap.base) K.heapOffset
        arg4 := 0
        arg5 := 0 } := by
    rw [translateBrkEnter, if_neg hneg, if_neg hbase]
    exact if_neg hnot
  refine ⟨(hanswered.answer _ henter).2 hset, ?_⟩
  obtain ⟨modified, henter, hnumber, harg⟩ : ∃ modified,
      translateBrkEnter K call.loadInfo heap call.regs = some modified ∧
        getSysnum K.host K.abi modified = .PR_mremap ∧
        modified.arg3 = K.add (K.sub (K.reg call.regs.arg1) heap.base) K.heapOffset :=
    ⟨_, henter, hset, rfl⟩
  rw [brk, henter, Option.bind_some, translateBrkExit, if_neg hneg, hnumber, harg]
  dsimp only
  split <;> rfl

theorem spaceEnd_lt (K : BrkHost) : K.spaceEnd < 256 ^ sizeofWord K.host K.abi := by
  have hle : 2 ^ 32 ≤ 256 ^ sizeofWord K.host K.abi := (word_bounds K.host K.abi).2.2
  exact Nat.sub_lt (Nat.lt_of_lt_of_le (by decide) hle) (by decide)

/-- The break of a heap is an address. -/
theorem HeapInv.break_toNat (h : HeapInv K heap) :
    (K.add heap.base heap.size).toNat = heap.base.toNat + heap.size.toNat ∧
      K.reg (K.add heap.base heap.size) = K.add heap.base heap.size := by
  have hlt : heap.base.toNat + heap.size.toNat < 256 ^ sizeofWord K.host K.abi := by
    have hend := spaceEnd_lt K
    by_cases hbase : heap.base = 0
    · rw [h.unset hbase, hbase]
      exact Nat.lt_of_le_of_lt (Nat.zero_le _) hend
    · exact Nat.lt_of_le_of_lt (h.set hbase).2 hend
  have hadd := BrkHost.add_toNat hlt
  exact ⟨hadd, BrkHost.reg_of_lt (by rw [hadd]; exact hlt)⟩

/-- Nothing wraps around, where the heap lies as it has to. -/
theorem brkExact {heap' : Heap} (hinv : HeapInv K heap) (hinv' : HeapInv K heap')
    (hanswered : IsAnswered K heap call) (h : Emulates K heap call) :
    BrkExact K heap call heap' := by
  have hend := spaceEnd_lt K
  constructor
  · intro bss hbss hbase
    obtain ⟨bss', hbss', -, hle⟩ := hanswered.program
    obtain rfl := Option.some.inj (hbss.symm.trans hbss')
    exact BrkHost.add_toNat (Nat.lt_of_le_of_lt hle hend)
  · intro hbase hanswer
    have hasked := h.2.resolve_left (fun hne => hne hbase)
    obtain herror | ⟨-, hle⟩ := (brk_setUp hanswered h.1 hbase hasked).1
    · exact absurd herror hanswer
    · exact BrkHost.add_toNat (Nat.lt_of_le_of_lt hle hend)
  · intro hbase
    obtain ⟨hpage, hle⟩ := hinv.set hbase
    refine ⟨hpage, BrkHost.sub_toNat hpage ?_⟩
    exact Nat.lt_of_le_of_lt (Nat.le_trans (Nat.le_add_right _ _) hle) hend
  · intro hbase
    obtain ⟨hpage, hle⟩ := hinv.set hbase
    apply BrkHost.add_toNat
    omega
  · intro hbase hasked
    obtain ⟨hpage, hle⟩ := hinv.set hbase
    have hlt := BrkHost.reg_lt (K := K) call.regs.arg1
    have hsub := BrkHost.sub_toNat hasked hlt
    refine ⟨hsub, ?_⟩
    rw [BrkHost.add_toNat (by rw [hsub]; omega), hsub]
  · exact hinv'.break_toNat.1

/-- A call that maps the heap. -/
theorem setUp_outcome (hinv : HeapInv K heap) (hanswered : IsAnswered K heap call)
    (h : Emulates K heap call) (hbase : heap.base = 0) :
    ∃ heap' reported, brk K heap call = some (heap', reported) ∧
      BrkOutcome K heap call heap' reported ∧ HeapInv K heap' := by
  have hend := spaceEnd_lt K
  have hasked := h.2.resolve_left (fun hne => hne hbase)
  obtain ⟨hanswer, hbrk⟩ := brk_setUp hanswered h.1 hbase hasked
  rcases hanswer with herror | hmapping
  · rw [if_pos (isBrkError_of_error herror)] at hbrk
    refine ⟨_, _, hbrk, ?_, hinv⟩
    exact {
      base := fun _ => rfl
      reports := fun _ => by rw [hinv.unset hbase, hbase]; rfl
      resized := fun _ hne => absurd hbase hne
      refused := fun _ hne => absurd hbase hne
      setUp := fun _ _ hnot => absurd herror hnot
      notSetUp := fun _ _ _ => rfl
      exact := brkExact hinv hinv hanswered
      left := fun hnot => absurd h hnot }
  · have hsum := BrkHost.add_toNat (Nat.lt_of_le_of_lt hmapping.2 hend)
    rw [if_neg (by rw [isBrkError_of_mapping hmapping]; decide)] at hbrk
    have hinv' : HeapInv K
        { heap with base := K.add (K.reg call.answer) K.heapOffset, size := 0 } := by
      constructor
      · intro _
        rfl
      · intro hdisabled
        rw [h.1] at hdisabled
        cases hdisabled
      · intro _
        rw [hsum]
        exact ⟨Nat.le_add_left _ _, hmapping.2⟩
    refine ⟨_, _, hbrk, ?_, hinv'⟩
    exact {
      base := fun hne => absurd hbase hne
      reports := fun _ =>
        (congrArg BitVec.toNat hinv'.break_toNat.2).trans hinv'.break_toNat.1
      resized := fun _ hne => absurd hbase hne
      refused := fun _ hne => absurd hbase hne
      setUp := fun _ _ _ => ⟨hsum, rfl⟩
      notSetUp := fun _ _ herror => absurd herror hmapping.not_error
      exact := brkExact hinv hinv' hanswered
      left := fun hnot => absurd h hnot }

/-- A call that is refused. -/
theorem refused_outcome (hinv : HeapInv K heap) (hanswered : IsAnswered K heap call)
    (h : Emulates K heap call) (hbase : heap.base ≠ 0) (hno : ¬ Resizes K heap call) :
    BrkOutcome K heap call heap (K.reg (K.add heap.base heap.size)) where
  base _ := rfl
  reports _ := (congrArg BitVec.toNat hinv.break_toNat.2).trans hinv.break_toNat.1
  resized _ _ hyes := absurd hyes hno
  refused _ _ _ := rfl
  setUp _ hzero := absurd hzero hbase
  notSetUp _ hzero := absurd hzero hbase
  exact := brkExact hinv hinv hanswered
  left hnot := absurd h hnot

/-- A call with a heap. -/
theorem resize_outcome (hinv : HeapInv K heap) (hanswered : IsAnswered K heap call)
    (h : Emulates K heap call) (hbase : heap.base ≠ 0) :
    ∃ heap' reported, brk K heap call = some (heap', reported) ∧
      BrkOutcome K heap call heap' reported ∧ HeapInv K heap' := by
  have hend := spaceEnd_lt K
  obtain ⟨hpage, hle⟩ := hinv.set hbase
  rcases Nat.lt_or_ge (K.reg call.regs.arg1).toNat heap.base.toNat with hbelow | hasked
  · refine ⟨_, _, brk_below h.1 hbase hbelow, ?_, hinv⟩
    exact refused_outcome hinv hanswered h hbase (fun hyes => Nat.not_le.mpr hbelow hyes.1)
  · obtain ⟨hanswer, hbrk⟩ := brk_resize hanswered h.1 hbase hasked
    have hexact := (brkExact hinv hinv hanswered h).newSize hbase hasked
    by_cases hyes : Resizes K heap call
    · -- The kernel resized the mapping where it is.
      have hmapping := hanswer.resolve_left (fun ⟨errno, hpos, hlt, herror⟩ => by
        have hspace : K.spaceEnd = 256 ^ sizeofWord K.host K.abi - 4096 := rfl
        have hbig : 4096 ≤ 256 ^ sizeofWord K.host K.abi :=
          Nat.le_trans (by decide) (word_bounds K.host K.abi).2.2
        have := hyes.2
        omega)
      have hold : heap.base = K.add (K.reg call.answer) K.heapOffset := by
        apply BitVec.eq_of_toNat_eq
        rw [BrkHost.add_toNat (by rw [hyes.2]; omega), hyes.2]
      have hlt := BrkHost.reg_lt (K := K) call.regs.arg1
      have hsize : (K.sub (K.reg (K.add (K.sub (K.reg call.regs.arg1) heap.base) K.heapOffset))
          K.heapOffset).toNat = (K.reg call.regs.arg1).toNat - heap.base.toNat := by
        rw [BrkHost.reg_of_lt (by rw [hexact.2]; omega),
          BrkHost.sub_toNat (by rw [hexact.2]; omega) (by rw [hexact.2]; omega), hexact.2,
          Nat.add_sub_cancel]
      have hcond : (isBrkError (K.reg call.answer) ||
          decide (heap.base ≠ K.add (K.reg call.answer) K.heapOffset)) = false := by
        rw [isBrkError_of_mapping hmapping, Bool.false_or, decide_eq_false_iff_not, not_not]
        exact hold
      rw [if_neg (by rw [hcond]; decide)] at hbrk
      have hinv' : HeapInv K { heap with
          size := (K.sub (K.reg (K.add (K.sub (K.reg call.regs.arg1) heap.base) K.heapOffset))
            K.heapOffset) } := by
        constructor
        · intro hzero
          exact absurd hzero hbase
        · exact hinv.disabled
        · intro _
          refine ⟨hpage, ?_⟩
          simp only [hsize]
          have hroom := hmapping.2
          rw [hexact.2] at hroom
          have hwhere := hyes.2
          omega
      refine ⟨_, _, hbrk, ?_, hinv'⟩
      have hbreak := hinv'.break_toNat
      have hreported : (K.reg (K.add heap.base (K.sub (K.reg (K.add (K.sub (K.reg call.regs.arg1)
          heap.base) K.heapOffset)) K.heapOffset))).toNat = (K.reg call.regs.arg1).toNat := by
        rw [hbreak.2, hbreak.1]
        simp only [hsize]
        omega
      exact {
        base := fun _ => rfl
        reports := fun _ => (congrArg BitVec.toNat hbreak.2).trans hbreak.1
        resized := fun _ _ _ => BitVec.eq_of_toNat_eq hreported
        refused := fun _ _ hno => absurd hyes hno
        setUp := fun _ hzero => absurd hzero hbase
        notSetUp := fun _ hzero => absurd hzero hbase
        exact := brkExact hinv hinv' hanswered
        left := fun hnot => absurd h hnot }
    · have hcond : (isBrkError (K.reg call.answer) ||
          decide (heap.base ≠ K.add (K.reg call.answer) K.heapOffset)) = true := by
        rcases hanswer with herror | hmapping
        · rw [isBrkError_of_error herror, Bool.true_or]
        · rw [Bool.or_eq_true, decide_eq_true_iff]
          right
          intro heq
          apply hyes
          refine ⟨hasked, ?_⟩
          rw [heq, BrkHost.add_toNat]
          have hroom := hmapping.2
          rw [hexact.2] at hroom
          omega
      rw [if_pos hcond] at hbrk
      exact ⟨_, _, hbrk, refused_outcome hinv hanswered h hbase hyes, hinv⟩

/-- A call that is left to the kernel. -/
theorem left_outcome (hinv : HeapInv K heap) (hanswered : IsAnswered K heap call)
    (h : ¬ Emulates K heap call) :
    ∃ heap' reported, brk K heap call = some (heap', reported) ∧
      BrkOutcome K heap call heap' reported ∧ HeapInv K heap' := by
  have hbase : heap.base = 0 := by
    by_cases hdisabled : heap.disabled = true
    · exact hinv.disabled hdisabled
    · by_contra hne
      exact h ⟨by simpa using hdisabled, .inl hne⟩
  have hsame : ∀ heap' : Heap, heap'.base = heap.base → heap'.size = heap.size →
      HeapInv K heap' := by
    intro heap' hb hs
    rw [hbase] at hb
    exact ⟨fun _ => hs.trans (hinv.unset hbase), fun _ => hb, fun hne => absurd hb hne⟩
  have houtcome : ∀ heap' : Heap, heap'.base = heap.base → heap'.size = heap.size →
      (heap'.disabled ↔ heap.disabled ∨ K.reg call.answer = K.reg call.regs.arg1) →
        BrkOutcome K heap call heap' (K.reg call.answer) := by
    intro heap' hb hs hd
    exact {
      base := fun _ => hb
      reports := fun hyes => absurd hyes h
      resized := fun hyes => absurd hyes h
      refused := fun hyes => absurd hyes h
      setUp := fun hyes => absurd hyes h
      notSetUp := fun hyes => absurd hyes h
      exact := fun hyes => absurd hyes h
      left := fun _ => ⟨hb, hs, rfl, hd⟩ }
  refine ⟨_, _, brk_left hanswered h, ?_, ?_⟩
  · split
    case isTrue hdisabled => exact houtcome _ rfl rfl (by simp [hdisabled])
    case isFalse hdisabled =>
      split <;> rename_i hlegit
      · exact houtcome _ rfl rfl (by simp [hlegit])
      · exact houtcome _ rfl rfl (by simp [hdisabled, hlegit])
  · split
    · exact hinv
    · split
      · exact hsame _ rfl rfl
      · exact hinv

/-- **Each call does what it has to do**, and leaves the heap as it has to lie. -/
theorem brk_outcome (hinv : HeapInv K heap) (hanswered : IsAnswered K heap call) :
    ∃ heap' reported, brk K heap call = some (heap', reported) ∧
      BrkOutcome K heap call heap' reported ∧ HeapInv K heap' := by
  by_cases h : Emulates K heap call
  · by_cases hbase : heap.base = 0
    · exact setUp_outcome hinv hanswered h hbase
    · exact resize_outcome hinv hanswered h hbase
  · exact left_outcome hinv hanswered h

theorem heapInv_new (K : BrkHost) : HeapInv K .new :=
  ⟨fun _ => rfl, fun _ => rfl, fun hne => absurd rfl hne⟩

/-- The heap lies as it has to all along a run. -/
theorem heapInv_run {calls : List BrkCall}
    (hanswered : ∀ before call heap, before ++ [call] <+: calls →
      AbortableRuns.run (brkStep K) .new before = some heap → IsAnswered K heap call)
    {before : List BrkCall} (hbefore : before <+: calls) :
    ∃ heap, AbortableRuns.run (brkStep K) .new before = some heap ∧ HeapInv K heap := by
  induction before using List.reverseRecOn with
  | nil => exact ⟨.new, rfl, heapInv_new K⟩
  | append_singleton before call ih =>
      obtain ⟨heap, hrun, hinv⟩ := ih ((List.prefix_append before [call]).trans hbefore)
      obtain ⟨heap', reported, hbrk, -, hinv'⟩ :=
        brk_outcome hinv (hanswered before call heap hbefore hrun)
      refine ⟨heap', ?_, hinv'⟩
      rw [AbortableRuns.run_append_singleton, hrun, Option.bind_some, brkStep, hbrk]
      rfl

/-- **In every run of calls**, whatever the kernel answers, each call of a tracee does what it
has to do. -/
theorem brk_consistent (K : BrkHost) (calls : List BrkCall)
    (hanswered : ∀ before call heap, before ++ [call] <+: calls →
      AbortableRuns.run (brkStep K) .new before = some heap → IsAnswered K heap call) :
    ∀ before call, before ++ [call] <+: calls → ∃ heap heap' reported,
      AbortableRuns.run (brkStep K) .new before = some heap ∧
        brk K heap call = some (heap', reported) ∧ BrkOutcome K heap call heap' reported := by
  intro before call hbefore
  obtain ⟨heap, hrun, hinv⟩ :=
    heapInv_run hanswered ((List.prefix_append before [call]).trans hbefore)
  obtain ⟨heap', reported, hbrk, houtcome, -⟩ :=
    brk_outcome hinv (hanswered before call heap hbefore hrun)
  exact ⟨heap, heap', reported, hrun, hbrk, houtcome⟩

end

/-- A tracee on x86. -/
def brkHost : BrkHost where
  host := .ARCH_X86
  abi := .ABI_DEFAULT
  heapOffset := 0x1000
  heapOffset_pos := by decide
  heapOffset_lt := by decide
  heapOffset_dvd := by decide

/-- A program with one page. -/
def onePageProgram : LoadInfo :=
  { LoadInfo.zero with mappings := some [⟨0x400000, 0x1000, 0, 5, 0x12, 0xFFFFFFFF, 0⟩] }

/-- `brk` of an address. -/
def brkOf (address answer : BitVec 64) : BrkCall where
  regs := ⟨45, address, 0, 0, 0, 0, 0, 0x7fff0000, 0⟩
  loadInfo := some onePageProgram
  answer := answer

/-- The first `brk` asks for a mapping after the last page of the program. -/
theorem brkOf_enter : translateBrkEnter brkHost (some onePageProgram) .new (brkOf 0 0x401000).regs =
    some ⟨192, 0x401000, 0x1000, 3, 0x22, 0xFFFFFFFF, 0, 0x7fff0000, 0⟩ := by
  have hnumber : detranslateSysnum brkHost.host brkHost.abi .PR_mmap2 = 192 :=
    (detranslateSysnum_eq_iff (by decide)).mpr ⟨by decide, _, rfl, 192, by decide, rfl⟩
  have hmmap : brkHost.mmapSysnum = .PR_mmap2 := by
    rw [BrkHost.mmapSysnum, hnumber]
    rfl
  rw [translateBrkEnter, hmmap, setSysnum, hnumber]
  rfl

theorem brkOf_answered : IsAnswered brkHost .new (brkOf 0 0x401000) where
  isBrk := by decide
  program := ⟨_, rfl, by decide, by decide⟩
  answer := by
    intro modified henter
    obtain rfl := Option.some.inj (brkOf_enter.symm.trans henter)
    constructor
    · intro _
      exact .inr ⟨by decide, by decide⟩
    · intro hmremap
      have hmmap : getSysnum brkHost.host brkHost.abi
          ⟨192, 0x401000, 0x1000, 3, 0x22, 0xFFFFFFFF, 0, 0x7fff0000, 0⟩ = .PR_mmap2 := by
        decide
      rw [hmmap] at hmremap
      cases hmremap

/-- The heap of a program is made where its last page ends. -/
theorem brk_consistent_first : ∃ heap heap' reported,
    AbortableRuns.run (brkStep brkHost) .new [] = some heap ∧
      brk brkHost heap (brkOf 0 0x401000) = some (heap', reported) ∧
      BrkOutcome brkHost heap (brkOf 0 0x401000) heap' reported := by
  apply brk_consistent brkHost [brkOf 0 0x401000] _ [] (brkOf 0 0x401000) (List.prefix_refl _)
  intro before call heap hbefore hrun
  have hlength := hbefore.length_le
  rw [List.length_append, List.length_singleton, List.length_singleton] at hlength
  obtain rfl : before = [] := List.length_eq_zero_iff.mp (by omega)
  obtain ⟨rest, hrest⟩ := hbefore
  obtain ⟨rfl, -⟩ := List.cons.inj hrest
  obtain rfl := Option.some.inj hrun
  exact brkOf_answered

/-- What a tracee is told before it has a heap is not the break that is recorded. -/
theorem brk_suspicious :
    brk brkHost .new (brkOf 0x5000 0x7000) = some (.new, 0x7000) ∧
      (0x7000 : BitVec 64).toNat ≠ Heap.new.base.toNat + Heap.new.size.toNat := by
  constructor
  · decide
  · decide

end PRoot
