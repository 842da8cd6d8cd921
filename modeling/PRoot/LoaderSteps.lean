import PRoot.Loader

/-!
# Steps of the loader

What the loader does of its memory, and for the statements that map: once for each function of
`loader/loader.c`, from any state.

* `writeBytes_ok`, `clear_ok`, `clear_fault`: bytes that are written;
* `StatementReads`: what a statement says, however it is read;
* `mmapFile_ok`, `mmapFile_fault`, `mmapAnon_ok`: a mapping.
-/

namespace PRoot

namespace Loader

section

variable {size : Nat} {α β : Type} {s s' : LoaderState size}

theorem run_bind {x : LoaderM size α} {a : α} (h : x s = .ok a s') (k : α → LoaderM size β) :
    (x >>= k) s = k a s' := by
  change EStateM.bind x k s = _
  rw [EStateM.bind, h]

theorem run_bind_end {x : LoaderM size α} {e : LoaderEnd size} (h : x s = .error e s')
    (k : α → LoaderM size β) : (x >>= k) s = .error e s' := by
  change EStateM.bind x k s = _
  rw [EStateM.bind, h]

theorem run_get (k : LoaderState size → LoaderM size β) : ((get : LoaderM size _) >>= k) s = k s s :=
  rfl

/-! ## Bytes -/

variable {memory : LoaderMemory size} {x : Word size}

theorem accessible_eq {access : Word size} (h : (memory.accessible access x).isSome) :
    memory.accessible access x = memory.space x := by
  unfold LoaderMemory.accessible at h ⊢
  split
  · rfl
  · rename_i hnot
    rw [if_neg hnot] at h
    cases h

theorem mapped_of_accessible {access : Word size} (h : (memory.accessible access x).isSome) :
    (memory.space x).isSome := by
  rwa [accessible_eq h] at h

/-- The addresses from `start` to `stop`, without it. -/
def Within (start stop : Nat) (x : Word size) : Prop := start ≤ x.toNat ∧ x.toNat < stop

instance {start stop : Nat} (x : Word size) : Decidable (Within start stop x) :=
  inferInstanceAs (Decidable (_ ∧ _))

variable {a : Word size}

theorem plus_toNat {i : Nat} (h : a.toNat + i < 2 ^ (8 * size)) :
    (a + BitVec.ofNat _ i).toNat = a.toNat + i := by
  rw [BitVec.toNat_add, BitVec.toNat_ofNat, Nat.add_mod_mod, Nat.mod_eq_of_lt h]

/-- Where an address is, counted from the start of a range. -/
theorem sub_lt_iff {k : Nat} (h : a.toNat + k ≤ 2 ^ (8 * size)) :
    (x - a).toNat < k ↔ Within a.toNat (a.toNat + k) x := by
  unfold Within
  rcases Nat.lt_or_ge x.toNat a.toNat with hlt | hle
  · rw [BitVec.toNat_sub, Nat.mod_eq_of_lt (by omega)]
    omega
  · rw [BitVec.toNat_sub_of_le hle]
    omega

/-- Memory with zeros from `start` to `stop`. -/
def LoaderMemory.zeroed (memory : LoaderMemory size) (start stop : Nat) : LoaderMemory size :=
  { memory with space := fun x => if Within start stop x then some 0 else memory.space x }

theorem accessible_zeroed {start stop : Nat} {access : Word size}
    (h : (memory.accessible access x).isSome) :
    ((memory.zeroed start stop).accessible access x).isSome := by
  unfold LoaderMemory.accessible LoaderMemory.zeroed at *
  split at h
  case isTrue hprot =>
    rw [if_pos hprot]
    dsimp only
    split
    · rfl
    · exact h
  case isFalse => cases h

theorem zeroed_zeroed {start middle stop : Nat} (hstart : start ≤ middle) (hstop : middle ≤ stop) :
    (memory.zeroed start middle).zeroed middle stop = memory.zeroed start stop := by
  unfold LoaderMemory.zeroed Within
  congr 1
  funext x
  dsimp only
  by_cases hlt : x.toNat < middle <;> by_cases hle : start ≤ x.toNat <;>
    grind

theorem zeroed_self (memory : LoaderMemory size) (start : Nat) :
    memory.zeroed start start = memory := by
  unfold LoaderMemory.zeroed Within
  have hnone : ∀ x : Word size, ¬ (start ≤ x.toNat ∧ x.toNat < start) := by
    intro x
    omega
  simp only [hnone, if_false]

/-- Bytes are written where all of them can be. -/
theorem writeBytes_ok {bytes : Bytes}
    (h : ∀ i < bytes.length, (s.memory.accessible 2 (a + BitVec.ofNat _ i)).isSome) :
    writeBytes a bytes s = .ok () { s with memory := { s.memory with
      space := fun x => if (x - a).toNat < bytes.length then bytes[(x - a).toNat]?
        else s.memory.space x } } := by
  have hroom : ((s.memory.accessible 2).load a bytes.length).isSome :=
    AddressSpace.load_isSome_iff.mpr h
  have hstore : s.memory.space.store a bytes = some (fun x =>
      if (x - a).toNat < bytes.length then bytes[(x - a).toNat]? else s.memory.space x) := by
    apply AddressSpace.store_eq_some_iff.mpr
    refine ⟨AddressSpace.load_isSome_iff.mpr ?_, rfl⟩
    intro i hi
    exact mapped_of_accessible (h i hi)
  unfold writeBytes
  rw [if_pos hroom, hstore]

theorem writeBytes_fault {bytes : Bytes} (hlength : 0 < bytes.length)
    (h : s.memory.accessible 2 a = none) : writeBytes a bytes s = .error .fault s := by
  have hroom : ¬ ((s.memory.accessible 2).load a bytes.length).isSome := by
    intro hsome
    have hfirst := AddressSpace.load_isSome_iff.mp hsome 0 hlength
    rw [BitVec.add_zero, h] at hfirst
    cases hfirst
  unfold writeBytes
  rw [if_neg hroom]

theorem writeBytes_zeros {count : Nat} (hfits : a.toNat + count ≤ 2 ^ (8 * size))
    (h : ∀ x, Within a.toNat (a.toNat + count) x → (s.memory.accessible 2 x).isSome) :
    writeBytes a (List.replicate count 0) s =
      .ok () { s with memory := s.memory.zeroed a.toNat (a.toNat + count) } := by
  rw [writeBytes_ok]
  · unfold LoaderMemory.zeroed
    simp only [List.length_replicate, sub_lt_iff hfits]
    congr 3
    funext x
    split
    case isTrue hwithin =>
      rw [List.getElem?_replicate, if_pos ((sub_lt_iff hfits).mpr hwithin)]
    case isFalse => rfl
  · intro i hi
    rw [List.length_replicate] at hi
    apply h
    unfold Within
    rw [plus_toNat (by omega)]
    omega

/-! ## `clear` -/

variable {stop : Word size}

theorem clearWhile_ok {objectSize rounds : Nat} (count : Nat) {cursor : Word size}
    (hsize : 0 < objectSize) (hcount : cursor.toNat + count * objectSize = stop.toNat)
    (hrounds : count ≤ rounds)
    (h : ∀ x, Within cursor.toNat stop.toNat x → (s.memory.accessible 2 x).isSome) :
    clearWhile objectSize rounds cursor stop s =
      .ok () { s with memory := s.memory.zeroed cursor.toNat stop.toNat } := by
  induction rounds generalizing cursor count s with
  | zero =>
      obtain rfl : count = 0 := by omega
      rw [Nat.zero_mul, Nat.add_zero] at hcount
      rw [hcount, zeroed_self]
      rfl
  | succ rounds ih =>
      unfold clearWhile
      cases count with
      | zero =>
          rw [Nat.zero_mul, Nat.add_zero] at hcount
          rw [if_neg (by rw [BitVec.lt_def]; omega), hcount, zeroed_self]
          rfl
      | succ count =>
          rw [Nat.succ_mul count objectSize] at hcount
          have hlt : cursor < stop := by
            rw [BitVec.lt_def]
            omega
          have hwrite := @writeBytes_zeros _ s cursor objectSize (by omega)
            (fun x hx => h x ⟨hx.1, by have := hx.2; omega⟩)
          have hnext : (cursor + BitVec.ofNat _ objectSize).toNat = cursor.toNat + objectSize :=
            plus_toNat (by omega)
          rw [if_pos hlt, run_bind hwrite, ih count (by omega) (by omega), hnext,
            zeroed_zeroed (by omega) (by omega)]
          intro x hx
          rw [hnext] at hx
          exact accessible_zeroed (h x ⟨by have := hx.1; omega, hx.2⟩)

theorem clearWhile_fault {objectSize rounds : Nat} {cursor : Word size} (hsize : 0 < objectSize)
    (hrounds : 0 < rounds) (hlt : cursor < stop) (h : s.memory.accessible 2 cursor = none) :
    clearWhile objectSize rounds cursor stop s = .error .fault s := by
  obtain ⟨rounds, rfl⟩ := Nat.exists_eq_add_of_lt hrounds
  rw [Nat.zero_add, clearWhile, if_pos hlt, run_bind_end (writeBytes_fault ?_ h)]
  rwa [List.length_replicate]

/-- The next address that is a multiple of the size of a word. -/
theorem startAligned_toNat {start : Word size} (hsize : 0 < size) (hle : start ≤ stop)
    (haligned : stop.toNat % size = 0) :
    (if start.toNat % size ≠ 0 then
        start + BitVec.ofNat _ size - BitVec.ofNat _ (start.toNat % size) else start).toNat =
      (start.toNat + (size - 1)) / size * size := by
  have hstop_eq : stop.toNat / size * size = stop.toNat :=
    Nat.div_mul_cancel (Nat.dvd_of_mod_eq_zero haligned)
  rw [BitVec.le_def] at hle
  have hstart := Nat.div_add_mod' start.toNat size
  split
  case isTrue hmod =>
    have hr : start.toNat % size < size := Nat.mod_lt _ hsize
    have hup : (start.toNat + (size - 1)) / size = start.toNat / size + 1 := by
      rw [Nat.div_eq_iff hsize, Nat.succ_mul (start.toNat / size)]
      omega
    have hquotient : start.toNat / size < stop.toNat / size := by
      rw [Nat.div_lt_iff_lt_mul hsize, hstop_eq]
      rcases Nat.lt_or_ge start.toNat stop.toNat with hlt | hge
      · exact hlt
      · rw [show start.toNat = stop.toNat by omega] at hmod
        exact absurd haligned hmod
    have hbound : (start.toNat / size + 1) * size ≤ stop.toNat := by
      rw [← hstop_eq]
      exact Nat.mul_le_mul_right size hquotient
    have hshift : start + BitVec.ofNat (8 * size) size - BitVec.ofNat _ (start.toNat % size) =
        start + BitVec.ofNat _ (size - start.toNat % size) := by
      rw [show BitVec.ofNat (8 * size) size = BitVec.ofNat _ (size - start.toNat % size)
          + BitVec.ofNat _ (start.toNat % size) by
        rw [← BitVec.ofNat_add, Nat.sub_add_cancel (by omega)], ← BitVec.add_assoc,
        BitVec.add_sub_cancel]
    rw [Nat.succ_mul (start.toNat / size)] at hbound
    rw [hshift, plus_toNat (by omega), hup, Nat.succ_mul (start.toNat / size)]
    omega
  case isFalse hmod =>
    rw [not_not] at hmod
    have hup : (start.toNat + (size - 1)) / size = start.toNat / size := by
      rw [Nat.div_eq_iff hsize]
      omega
    rw [hup]
    omega

/-- **What `clear` does** up to the end of a word. -/
theorem clear_ok {start : Word size} (hsize : 0 < size) (hle : start ≤ stop)
    (haligned : stop.toNat % size = 0)
    (h : ∀ x, Within start.toNat stop.toNat x → (s.memory.accessible 2 x).isSome) :
    clear start stop s =
      .ok () { s with memory := s.memory.zeroed start.toNat stop.toNat } := by
  have hup := startAligned_toNat hsize hle haligned
  have hstop_eq : stop.toNat / size * size = stop.toNat :=
    Nat.div_mul_cancel (Nat.dvd_of_mod_eq_zero haligned)
  rw [BitVec.le_def] at hle
  unfold clear
  rw [haligned, BitVec.sub_zero]
  generalize (if start.toNat % size ≠ 0 then
    start + BitVec.ofNat _ size - BitVec.ofNat _ (start.toNat % size) else start) =
      startAligned at hup ⊢
  have hlow : start.toNat ≤ startAligned.toNat := by
    have := Nat.div_add_mod' (start.toNat + (size - 1)) size
    have := Nat.mod_lt (start.toNat + (size - 1)) hsize
    omega
  have hquotient : (start.toNat + (size - 1)) / size ≤ stop.toNat / size := by
    rw [Nat.div_le_iff_le_mul hsize, hstop_eq]
    omega
  have hhigh : startAligned.toNat ≤ stop.toNat := by
    rw [hup, ← hstop_eq]
    exact Nat.mul_le_mul_right size hquotient
  have hfirst := clearWhile_ok (s := s) (startAligned.toNat - start.toNat) Nat.one_pos
    (show start.toNat + (startAligned.toNat - start.toNat) * 1 = startAligned.toNat by omega)
    (Nat.le_refl _) (fun x hx => h x ⟨hx.1, by have := hx.2; omega⟩)
  have hwords : startAligned.toNat + (stop.toNat / size - (start.toNat + (size - 1)) / size) * size
      = stop.toNat := by
    rw [Nat.sub_mul, hstop_eq, ← hup]
    omega
  have hrounds : stop.toNat / size - (start.toNat + (size - 1)) / size ≤
      stop.toNat - startAligned.toNat := by
    have := Nat.le_mul_of_pos_right (stop.toNat / size - (start.toNat + (size - 1)) / size) hsize
    omega
  have hsecond := clearWhile_ok
    (s := { s with memory := s.memory.zeroed start.toNat startAligned.toNat })
    _ hsize hwords hrounds
    (fun x hx => accessible_zeroed (h x ⟨by have := hx.1; omega, hx.2⟩))
  rw [run_bind hfirst, run_bind hsecond, Nat.sub_self, clearWhile, zeroed_zeroed hlow hhigh]
  rfl

theorem clear_fault {start : Word size} (hsize : 0 < size) (hlt : start < stop)
    (haligned : stop.toNat % size = 0) (h : s.memory.accessible 2 start = none) :
    clear start stop s = .error .fault s := by
  have hle : start ≤ stop := by
    rw [BitVec.le_def]
    rw [BitVec.lt_def] at hlt
    omega
  have hup := startAligned_toNat hsize hle haligned
  rw [BitVec.lt_def] at hlt
  unfold clear
  rw [haligned, BitVec.sub_zero]
  by_cases hmod : start.toNat % size ≠ 0
  · -- The first byte is before a word.
    have hdiv := Nat.div_add_mod' (start.toNat + (size - 1)) size
    have hrest := Nat.mod_lt (start.toNat + (size - 1)) hsize
    have hstrict : start.toNat < (start.toNat + (size - 1)) / size * size := by
      rcases Nat.lt_or_ge start.toNat ((start.toNat + (size - 1)) / size * size) with hlt | hge
      · exact hlt
      · have heq : start.toNat = (start.toNat + (size - 1)) / size * size := by omega
        rw [heq, Nat.mul_mod_left] at hmod
        exact absurd rfl hmod
    rw [← hup] at hstrict
    rw [run_bind_end (clearWhile_fault Nat.one_pos (by omega) (BitVec.lt_def.mpr hstrict) h)]
  · -- It starts one.
    rw [if_neg hmod] at hup ⊢
    rw [Nat.sub_self, clearWhile, pure_bind,
      run_bind_end (clearWhile_fault hsize (by omega) (BitVec.lt_def.mpr hlt) h)]

/-! ## Mappings -/

variable {kernel : LoaderKernel size} {stmt : Nat → LoaderM size (Word size)}

/-- A statement says these words, when it is read in that state. -/
def StatementReads (stmt : Nat → LoaderM size (Word size)) (words : List (Word size))
    (s : LoaderState size) : Prop :=
  ∀ i word, words[i]? = some word → stmt i s = .ok word s

/-- The state after a call that was answered. -/
def LoaderState.called (s : LoaderState size) (call : LoaderCall size) (answer : Word size)
    (memory : LoaderMemory size) : LoaderState size :=
  { s with memory := memory, calls := s.calls ++ [(call, answer)] }

theorem syscall_eq {call : LoaderCall size} {answer : Word size}
    (h : kernel s.calls s.memory call = (answer, memory)) :
    syscall kernel call s = .ok answer (s.called call answer memory) := by
  unfold syscall LoaderState.called
  rw [h]

/-- `at_base`, after a mapping of the file. -/
def LoaderState.based (s : LoaderState size) (addr : Word size) : LoaderState size :=
  if s.resetAtBase then { s with atBase := addr, resetAtBase := false } else s

section

variable {action addr length prot offset clearLength : Word size} {mapped : LoaderMemory size}

/-- The call that maps the file. -/
abbrev mmapFileCall (fd addr length prot offset : Word size) : LoaderCall size :=
  .MMAP addr length prot 0x12 fd (offset >>> mmapOffsetShift size)

theorem mmapFile_ok {cleared : LoaderMemory size}
    (hanswer : kernel s.calls s.memory (mmapFileCall s.fd addr length prot offset) =
      (addr, mapped))
    (hclear : clearLength = 0 ∧ cleared = mapped ∨
      clearLength ≠ 0 ∧ ∀ s : LoaderState size, s.memory = mapped →
        clear (addr + length - clearLength) (addr + length) s =
          .ok () { s with memory := cleared })
    (hreads : ∀ s' : LoaderState size, s' = s ∨ s'.memory = mapped ∨ s'.memory = cleared →
      StatementReads stmt [action, addr, length, prot, offset, clearLength] s') :
    mmapFile kernel stmt s =
      .ok () ({ s.called (mmapFileCall s.fd addr length prot offset) addr mapped with
        memory := cleared }.based addr) := by
  have hfirst := hreads s (.inl rfl)
  have hcall := syscall_eq hanswer
  have hsecond := hreads (s.called (mmapFileCall s.fd addr length prot offset) addr mapped)
    (.inr (.inl rfl))
  have hrest : ∀ (s' : LoaderState size), s'.memory = cleared →
      (do
        if (← get).resetAtBase then
          let addr ← stmt 1
          modify fun s => { s with atBase := addr, resetAtBase := false }
        : LoaderM size Unit) s' = .ok () (s'.based addr) := by
    intro s' hmemory
    have hread := hreads s' (.inr (.inr hmemory)) 1 addr rfl
    unfold LoaderState.based
    rw [run_get]
    split
    case isTrue =>
      rw [run_bind hread]
      rfl
    case isFalse => rfl
  unfold mmapFile
  rw [run_bind (hfirst 1 addr rfl), run_bind (hfirst 2 length rfl), run_bind (hfirst 3 prot rfl),
    run_get, run_bind (hfirst 4 offset rfl)]
  rw [run_bind hcall]
  dsimp only
  rw [run_bind (hsecond 1 addr rfl), if_neg (not_not.mpr rfl),
    run_bind (hsecond 5 clearLength rfl)]
  rcases hclear with ⟨hzero, rfl⟩ | ⟨hzero, hclear⟩
  · rw [if_neg (not_not.mpr hzero)]
    exact hrest _ rfl
  · rw [if_pos hzero, run_bind (hsecond 1 addr rfl), run_bind (hsecond 2 length rfl),
      run_bind (hsecond 5 clearLength rfl), run_bind (hsecond 1 addr rfl),
      run_bind (hsecond 2 length rfl), run_bind (hclear _ rfl)]
    exact hrest _ rfl

theorem mmapFile_fault
    (hanswer : kernel s.calls s.memory (mmapFileCall s.fd addr length prot offset) =
      (addr, mapped))
    (hzero : clearLength ≠ 0)
    (hclear : ∀ s : LoaderState size, s.memory = mapped →
      clear (addr + length - clearLength) (addr + length) s = .error .fault s)
    (hreads : ∀ s' : LoaderState size, s' = s ∨ s'.memory = mapped →
      StatementReads stmt [action, addr, length, prot, offset, clearLength] s') :
    ∃ s', mmapFile kernel stmt s = .error .fault s' := by
  have hfirst := hreads s (.inl rfl)
  have hcall := syscall_eq hanswer
  have hsecond := hreads (s.called (mmapFileCall s.fd addr length prot offset) addr mapped)
    (.inr rfl)
  unfold mmapFile
  rw [run_bind (hfirst 1 addr rfl), run_bind (hfirst 2 length rfl), run_bind (hfirst 3 prot rfl),
    run_get, run_bind (hfirst 4 offset rfl), run_bind hcall]
  dsimp only
  rw [run_bind (hsecond 1 addr rfl), if_neg (not_not.mpr rfl),
    run_bind (hsecond 5 clearLength rfl), if_pos hzero, run_bind (hsecond 1 addr rfl),
    run_bind (hsecond 2 length rfl), run_bind (hsecond 5 clearLength rfl),
    run_bind (hsecond 1 addr rfl), run_bind (hsecond 2 length rfl),
    run_bind_end (hclear _ rfl)]
  exact ⟨_, rfl⟩

theorem interpret_mmapFile {fuel : Nat} (haction : action.toNat = 2)
    (hread : stmt 0 s = .ok action s) :
    interpret kernel stmt fuel s = (mmapFile kernel stmt >>= fun _ => pure 6) s := by
  unfold interpret
  rw [run_bind hread, haction]
  rfl

/-- The call that maps new pages. -/
abbrev mmapAnonCall (addr length prot : Word size) : LoaderCall size :=
  .MMAP addr length prot 0x32 (-1) 0

theorem mmapAnon_ok
    (hanswer : kernel s.calls s.memory (mmapAnonCall addr length prot) = (addr, mapped))
    (hreads : ∀ s' : LoaderState size, s' = s ∨ s'.memory = mapped →
      StatementReads stmt [action, addr, length, prot, offset, clearLength] s') :
    mmapAnon kernel stmt s = .ok () (s.called (mmapAnonCall addr length prot) addr mapped) := by
  have hfirst := hreads s (.inl rfl)
  have hcall := syscall_eq hanswer
  have hsecond := hreads (s.called (mmapAnonCall addr length prot) addr mapped) (.inr rfl)
  unfold mmapAnon
  rw [run_bind (hfirst 1 addr rfl), run_bind (hfirst 2 length rfl), run_bind (hfirst 3 prot rfl),
    run_bind hcall, run_bind (hsecond 1 addr rfl), if_neg (not_not.mpr rfl)]
  rfl

theorem interpret_mmapAnon {fuel : Nat} (haction : action.toNat = 3)
    (hread : stmt 0 s = .ok action s) :
    interpret kernel stmt fuel s = (mmapAnon kernel stmt >>= fun _ => pure 6) s := by
  unfold interpret
  rw [run_bind hread, haction]
  rfl

end

end

end Loader

end PRoot
