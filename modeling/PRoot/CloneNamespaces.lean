import PRoot.AshmemMemfd
import PRoot.BrkRuns
import PRoot.IdViews
import PRoot.NewChild
import PRoot.TraceeLives

/-!
# Mount namespaces of new children

`clone` and `clone3` have their namespace flags stripped on entry (`syscall/enter.c`); that
`CLONE_NEWNS` was among them is remembered for `new_child` (`tracee/tracee.c`).

* `ChildCall.enter`, `CloneSys.call`: the entry of a call, and the call as a whole;
* `kernelFlags`: the flags that the kernel takes;
* `ChildCall.seen_eq`: no more than namespace bits is stripped;
* `CloneRun`: calls, with anything else in between;
* `Faithful`: what a call is to do;
* `clone_namespaces_iff`: the runs in which each call does it.
-/

namespace PRoot

variable {W : Type} {k : Kernel W} {host : Host}

/-- `CLONE_NS_MASK`. -/
def cloneNsMask : BitVec 64 := 0x7E020080

/-- `CLONE_NEWNS`. -/
def cloneNewns : BitVec 64 := 0x20000

/-- `CLONE_FS`. -/
def cloneFs : BitVec 64 := 0x200

/-- `poke_reg`: what becomes of a register. -/
def pokeReg (host : Host) (abi : Abi) (old value : BitVec 64) : BitVec 64 :=
  if peek host abi old = value then old
  else if host = .ARCH_ARM64 ∧ is32on64Mode host abi then
    old &&& 0xFFFFFFFF00000000 ||| value &&& 0xFFFFFFFF
  else value

/-- A system call that may create a child, as it is made. -/
structure ChildCall (host : Host) where
  abi : Abi
  regs : SyscallRegs
  memory : Space host
  /-- PRoot can write where the arguments of `clone3` are. -/
  writable : Bool
  /-- What the kernel says, once it knows the flags. -/
  child : Option Int
  /-- The event is `PTRACE_EVENT_VFORK`. -/
  vfork : Bool
  family : getSysnum host abi regs ∈ [.PR_clone, .PR_clone3, .PR_fork, .PR_vfork]

/-- A call after its entry, and whether `CLONE_NEWNS` was stripped from it. -/
structure EnteredChild (host : Host) where
  regs : SyscallRegs
  memory : Space host
  strippedNewns : Bool

/-- Where the arguments of `clone3` are. -/
def argsAddr (abi : Abi) (regs : SyscallRegs) : Address host :=
  untagPointer host (sysarg abi regs.arg1)

/-- The cases `PR_clone` and `PR_clone3` of `translate_syscall_enter`. -/
def ChildCall.enter (c : ChildCall host) : EnteredChild host :=
  match getSysnum host c.abi c.regs with
  | .PR_clone =>
      let flags := peek host c.abi c.regs.arg1
      if flags &&& cloneNsMask ≠ 0 then
        { regs := { c.regs with arg1 := pokeReg host c.abi c.regs.arg1 (flags &&& ~~~cloneNsMask) }
          memory := c.memory
          strippedNewns := flags &&& cloneNewns ≠ 0 }
      else ⟨c.regs, c.memory, false⟩
  | .PR_clone3 =>
      let w := sizeofWord host c.abi
      if (sysarg c.abi c.regs.arg1 : Address host) = 0 then ⟨c.regs, c.memory, false⟩
      else
        match peekWordAt w c.memory (argsAddr c.abi c.regs) with
        | none => ⟨c.regs, c.memory, false⟩
        | some word =>
            let flags := BitVec.ofNat 64 word
            if flags &&& cloneNsMask ≠ 0 then
              { regs := c.regs
                memory :=
                  if c.writable then
                    (pokeWordAt w c.memory (argsAddr c.abi c.regs)
                      (flags &&& ~~~cloneNsMask).toNat).getD c.memory
                  else c.memory
                strippedNewns := flags &&& cloneNewns ≠ 0 }
            else ⟨c.regs, c.memory, false⟩
  | _ => ⟨c.regs, c.memory, false⟩

/-- The flags that the kernel takes for a call: a `long` of its own for `clone`, the first
field of `clone_args`, which has 64 bits, for `clone3`. -/
def kernelFlags (abi : Abi) (regs : SyscallRegs) (memory : Space host) : Option (BitVec 64) :=
  match getSysnum host abi regs with
  | .PR_clone => some (peek host abi regs.arg1)
  | .PR_clone3 =>
      (memory.load (argsAddr abi regs) 8).map fun bytes => BitVec.ofNat 64 (littleEndian bytes)
  | .PR_vfork => some 0x4111
  | _ => some 0x11

/-- `clone_flags` in `new_child`. -/
def newChildFlags (abi : Abi) (regs : SyscallRegs) (memory : Space host) (vfork : Bool) :
    BitVec 64 :=
  match getSysnum host abi regs with
  | .PR_clone => peek host abi regs.arg1
  | .PR_clone3 => BitVec.ofNat 64 (peekWordOrOnes abi memory (sysarg abi regs.arg1))
  | _ => if vfork then cloneVfork else 0

namespace ChildCall

variable (c : ChildCall host)

/-- The flags that are asked for. -/
def requested : Option (BitVec 64) := kernelFlags c.abi c.regs c.memory

/-- The flags that the kernel sees. -/
def seen : Option (BitVec 64) := kernelFlags c.abi c.enter.regs c.enter.memory

/-- The new child: none where there are no flags to be seen. -/
def made : Option Int := if c.seen.isSome then c.child else none

/-- The call asks for some flag. -/
def Asks (flag : BitVec 64) : Prop := ∃ flags, c.requested = some flags ∧ flags &&& flag ≠ 0

/-- The call is a `clone3` with its arguments at the address 0. -/
def AtNull : Prop :=
  getSysnum host c.abi c.regs = .PR_clone3 ∧ (sysarg c.abi c.regs.arg1 : Address host) = 0

/-- The call is a `clone3` with namespace flags to be stripped, in memory. -/
def StripsArgs : Prop :=
  getSysnum host c.abi c.regs = .PR_clone3 ∧ ¬ c.AtNull ∧ c.writable = true ∧
    ∃ word, peekWordAt (sizeofWord host c.abi) c.memory (argsAddr c.abi c.regs) = some word ∧
      BitVec.ofNat 64 word &&& cloneNsMask ≠ 0

end ChildCall

/-- The tracees, and `clone_stripped_newns` of the one at hand. -/
structure CloneSys (W : Type) where
  sys : Sys W
  cloneStrippedNewns : Bool

/-- A call, up to the event of its child if there is one. -/
def CloneSys.call (s : CloneSys W) (c : ChildCall host) : CloneSys W :=
  let entered := c.enter
  let stripped := s.cloneStrippedNewns || entered.strippedNewns
  match c.made with
  | none => { s with cloneStrippedNewns := stripped }
  | some pid =>
      let flags := newChildFlags c.abi entered.regs entered.memory c.vfork
      { sys := newChild s.sys pid (flags &&& cloneFs ≠ 0) stripped
        cloneStrippedNewns := false }

/-- Calls of the tracee at hand, in order and each with the state it is made in.  In between it
mounts, unmounts and so on, and other tracees go away.  A child has a new process number. -/
inductive CloneRun (k : Kernel W) (start : CloneSys W) :
    List (CloneSys W × ChildCall host) → CloneSys W → Prop
  | start : CloneRun k start [] start
  | call {turns : List (CloneSys W × ChildCall host)} {s : CloneSys W} {c : ChildCall host}
      (hrun : CloneRun k start turns s)
      (hfresh : ∀ pid, c.made = some pid → pid ∉ (s.sys.tracee :: s.sys.others).map Tracee.pid) :
      CloneRun k start (turns ++ [(s, c)]) (s.call c)
  | operate {turns : List (CloneSys W × ChildCall host)} {s : CloneSys W} {fuel : Nat} {op : Op W}
      {sys : Sys W} (hrun : CloneRun k start turns s) (hop : op.run k fuel s.sys = some sys) :
      CloneRun k start turns { s with sys }
  | gone {turns : List (CloneSys W × ChildCall host)} {s : CloneSys W} (pid : Int)
      (hrun : CloneRun k start turns s) :
      CloneRun k start turns
        { s with sys := { s.sys with others := s.sys.others.filter (·.pid ≠ pid) } }

/-- The new tracee has lists that no other one has, with the bindings of its parent. -/
def OwnCopy (sys created : Sys W) (pid : Int) : Prop :=
  ∃ addr, created.listsOf pid = some addr ∧
    (∀ t ∈ sys.tracee :: sys.others, created.listsOf t.pid ≠ some addr) ∧
    created.bindingsFor pid = some (copyLists (addr + 1) sys.bindings.guest)

/-- The new tracee has the lists of its parent. -/
def SharedLists (sys created : Sys W) (pid : Int) : Prop :=
  created.listsOf pid = created.listsOf sys.tracee.pid ∧
    created.bindingsFor pid = some sys.bindings

/-- What a call is to do: a child gets a copy of the bindings if the call itself asks for it and
else shares them, the kernel sees the flags of the call but for the namespaces, and the memory
of the caller stays the same. -/
structure Faithful (s : CloneSys W) (c : ChildCall host) : Prop where
  own : ∀ pid, c.made = some pid → c.Asks cloneNewns → ¬ c.Asks cloneFs →
    OwnCopy s.sys (s.call c).sys pid
  shared : ∀ pid, c.made = some pid → ¬ (c.Asks cloneNewns ∧ ¬ c.Asks cloneFs) →
    SharedLists s.sys (s.call c).sys pid
  flags : c.seen.map (· &&& ~~~cloneNsMask) = c.requested.map (· &&& ~~~cloneNsMask)
  args : c.enter.memory = c.memory

/-- When a call does so.  A flag left over from an earlier call must not meet a child that
neither asks for `CLONE_NEWNS` nor for `CLONE_FS`, and nothing is stripped in memory.  Arguments
at the address 0, if the kernel reads them, are not looked at. -/
structure Undisturbed (s : CloneSys W) (c : ChildCall host) : Prop where
  leftover : c.made.isSome → ¬ c.Asks cloneFs → ¬ c.Asks cloneNewns →
    s.cloneStrippedNewns = false
  noticed : c.made.isSome → ¬ c.Asks cloneFs → c.Asks cloneNewns → c.AtNull →
    s.cloneStrippedNewns = true
  args : ¬ c.StripsArgs

/-! ## Flags -/

variable {flag : BitVec 64}

theorem and_mask_apart (hflag : ~~~cloneNsMask &&& flag = flag) (flags : BitVec 64) :
    flags &&& ~~~cloneNsMask &&& flag = flags &&& flag := by
  rw [BitVec.and_assoc, hflag]

variable {flags : BitVec 64}

theorem and_mask_of_clear (h : flags &&& cloneNsMask = 0) :
    flags &&& ~~~cloneNsMask = flags := by
  have hsplit : flags &&& (cloneNsMask ||| ~~~cloneNsMask) = flags := by
    rw [BitVec.or_not_self, BitVec.and_allOnes]
  rw [BitVec.and_or_distrib_left, h] at hsplit
  simpa using hsplit

theorem and_newns_of_clear (h : flags &&& cloneNsMask = 0) :
    flags &&& cloneNewns = 0 := by
  have hwithin : cloneNewns = cloneNsMask &&& cloneNewns := by decide
  rw [hwithin, ← BitVec.and_assoc, h]
  exact BitVec.zero_and

theorem and_mask_twice (flags : BitVec 64) :
    flags &&& ~~~cloneNsMask &&& ~~~cloneNsMask = flags &&& ~~~cloneNsMask := by
  rw [BitVec.and_assoc, BitVec.and_self]

/-- Flags in the low half are there for a 32-bit process as well. -/
theorem peek_and {abi : Abi} (hflag : 0xFFFFFFFF &&& flag = flag) (flags : BitVec 64) :
    peek host abi flags &&& flag = flags &&& flag := by
  unfold peek
  split
  · rw [BitVec.and_assoc, hflag]
  · rfl

theorem peek_and_not_mask {abi : Abi} (flags : BitVec 64) :
    peek host abi (peek host abi flags &&& ~~~cloneNsMask) =
      peek host abi flags &&& ~~~cloneNsMask := by
  unfold peek
  split
  · rw [BitVec.and_assoc, BitVec.and_assoc, BitVec.and_assoc, BitVec.and_comm (~~~cloneNsMask),
      ← BitVec.and_assoc 0xFFFFFFFF, BitVec.and_self]
  · rfl

theorem peek_poked (abi : Abi) (old value : BitVec 64) :
    peek host abi (pokeReg host abi old value) = peek host abi value := by
  unfold pokeReg
  split
  · rename_i hsame
    rw [← hsame, peek_peek]
  · split
    · rename_i hcompat
      obtain ⟨rfl, hcompat⟩ := hcompat
      have hword : sizeofWord .ARCH_ARM64 abi = 4 := by
        rw [sizeofWord, if_pos hcompat]
        rfl
      have hhigh : (0xFFFFFFFF00000000 : BitVec 64) &&& 0xFFFFFFFF = 0#64 := by decide
      rw [peek, if_pos hword, peek, if_pos hword, BitVec.and_or_distrib_right, BitVec.and_assoc,
        hhigh, BitVec.and_zero, BitVec.zero_or, BitVec.and_assoc, BitVec.and_self]
    · rfl

theorem peek_pokeReg {abi : Abi} {old value : BitVec 64} (h : peek host abi value = value) :
    peek host abi (pokeReg host abi old value) = value := by
  rw [peek_poked, h]

/-! ## The word that `clone3` starts with -/

section Words

variable {abi : Abi} {m m' : Space host} {a : Address host} {bytes : Bytes}

/-- PRoot reads the low part of the flags. -/
theorem peek_littleEndian (hlength : bytes.length = 8) :
    BitVec.ofNat 64 (littleEndian (bytes.take (sizeofWord host abi))) =
      peek host abi (BitVec.ofNat 64 (littleEndian bytes)) := by
  unfold peek
  rcases sizeofWord_cases host abi with hword | ⟨hword, -⟩
  · have hsplit := littleEndian_append (bytes.take 4) (bytes.drop 4)
    have htake : (bytes.take 4).length = 4 := by
      rw [List.length_take]
      omega
    have hlow := littleEndian_lt (bytes.take 4)
    have hall := littleEndian_lt bytes
    rw [List.take_append_drop, htake] at hsplit
    rw [htake] at hlow
    rw [hlength] at hall
    rw [if_pos hword, hword]
    apply BitVec.eq_of_toNat_eq
    rw [and_low, BitVec.toNat_ofNat, BitVec.toNat_ofNat]
    omega
  · rw [if_neg (by omega), hword, List.take_of_length_le (by omega)]

theorem peekWordAt_of_load (abi : Abi) (h : m.load a 8 = some bytes) :
    peekWordAt (sizeofWord host abi) m a =
      some (littleEndian (bytes.take (sizeofWord host abi))) := by
  have hle : sizeofWord host abi ≤ 8 := by
    rcases sizeofWord_cases host abi with hword | ⟨hword, -⟩ <;> omega
  rw [peekWordAt, AddressSpace.load_take h hle, Option.map_some]

/-- A mask on numbers with the same high part. -/
theorem ofNat_high_and {low low' mask : BitVec 64} (hlow : low.toNat < 2 ^ 32)
    (hlow' : low'.toNat < 2 ^ 32) (h : low &&& mask = low' &&& mask) (high : Nat) :
    BitVec.ofNat 64 (low.toNat + 2 ^ 32 * high) &&& mask =
      BitVec.ofNat 64 (low'.toNat + 2 ^ 32 * high) &&& mask := by
  have hor : ∀ {x : BitVec 64}, x.toNat < 2 ^ 32 →
      BitVec.ofNat 64 (x.toNat + 2 ^ 32 * high) = BitVec.ofNat 64 (2 ^ 32 * high) ||| x := by
    intro x hx
    rw [Nat.add_comm, Nat.two_pow_add_eq_or_of_lt hx, BitVec.ofNat_or, BitVec.ofNat_toNat,
      BitVec.setWidth_eq]
  rw [hor hlow, hor hlow', BitVec.and_or_distrib_right, BitVec.and_or_distrib_right, h]

/-- Stripping the low part strips the flags. -/
theorem stripped_value (hlength : bytes.length = 8) :
    BitVec.ofNat 64 ((peek host abi (BitVec.ofNat 64 (littleEndian bytes)) &&&
          ~~~cloneNsMask).toNat % 256 ^ sizeofWord host abi +
        256 ^ sizeofWord host abi * littleEndian (bytes.drop (sizeofWord host abi))) &&&
      ~~~cloneNsMask =
    BitVec.ofNat 64 (littleEndian bytes) &&& ~~~cloneNsMask := by
  rcases sizeofWord_cases host abi with hword | ⟨hword, -⟩
  · have hlt : littleEndian (bytes.take 4) < 2 ^ 32 := by
      have hlt := littleEndian_lt (bytes.take 4)
      rwa [show (bytes.take 4).length = 4 by rw [List.length_take]; omega] at hlt
    have hsplit := littleEndian_append (bytes.take 4) (bytes.drop 4)
    rw [List.take_append_drop, show (bytes.take 4).length = 4 by rw [List.length_take]; omega]
      at hsplit
    have hpeek := @peek_littleEndian host abi bytes hlength
    rw [hword] at hpeek
    have hlow : (BitVec.ofNat 64 (littleEndian (bytes.take 4))).toNat =
        littleEndian (bytes.take 4) := Nat.mod_eq_of_lt (by omega)
    have hstripped : (BitVec.ofNat 64 (littleEndian (bytes.take 4)) &&& ~~~cloneNsMask).toNat <
        2 ^ 32 := by
      rw [BitVec.toNat_and]
      exact Nat.lt_of_le_of_lt Nat.and_le_left (by omega)
    have hnumbers := ofNat_high_and hstripped (by omega) (and_mask_twice _)
      (littleEndian (bytes.drop 4))
    rw [hlow] at hnumbers
    rw [hword, ← hpeek, Nat.mod_eq_of_lt (by omega), hsplit]
    exact hnumbers
  · rw [hword, List.drop_of_length_le (by omega), peek, if_neg (by omega),
      Nat.mod_eq_of_lt (by omega)]
    show BitVec.ofNat 64 (BitVec.toNat _ + 0) &&& _ = _
    rw [Nat.add_zero, BitVec.ofNat_toNat, BitVec.setWidth_eq, and_mask_twice]

/-- What is read again after namespace flags have been stripped from the word. -/
theorem load_stripped (hload : m.load a 8 = some bytes)
    (hpoke : pokeWordAt (sizeofWord host abi) m a
      (peek host abi (BitVec.ofNat 64 (littleEndian bytes)) &&& ~~~cloneNsMask).toNat = some m') :
    ∃ bytes', m'.load a 8 = some bytes' ∧
      BitVec.ofNat 64 (littleEndian bytes') &&& ~~~cloneNsMask =
        BitVec.ofNat 64 (littleEndian bytes) &&& ~~~cloneNsMask := by
  have hlength := AddressSpace.load_length hload
  have hword := sizeofWord_cases host abi
  have hle : sizeofWord host abi ≤ 8 := by omega
  have hspace : 2 ^ 32 ≤ 2 ^ (8 * host.word) := by
    cases host <;> decide
  have hwritten := AddressSpace.load_store hpoke (by rw [wordBytes_length]; omega)
  have hrest : m'.load (a.plus (sizeofWord host abi)) (8 - sizeofWord host abi) =
      some (bytes.drop (sizeofWord host abi)) := by
    rw [AddressSpace.load_store_apart hpoke, AddressSpace.load_drop hload hle]
    intro i hi
    rw [wordBytes_length, AddressSpace.add_offset, AddressSpace.offset_toNat _ (by omega)]
    omega
  rw [wordBytes_length] at hwritten
  have hread := AddressSpace.load_append hwritten hrest
  rw [Nat.add_sub_cancel' hle] at hread
  refine ⟨_, hread, ?_⟩
  rw [littleEndian_append, wordBytes_length, littleEndian_wordBytes]
  exact stripped_value hlength

end Words

/-! ## The entry -/

namespace ChildCall

variable {c : ChildCall host}

theorem enter_clone (h : getSysnum host c.abi c.regs = .PR_clone) :
    peek host c.abi c.enter.regs.arg1 = peek host c.abi c.regs.arg1 &&& ~~~cloneNsMask ∧
      c.enter.regs.num = c.regs.num ∧ c.enter.memory = c.memory ∧
      c.enter.strippedNewns = decide (peek host c.abi c.regs.arg1 &&& cloneNewns ≠ 0) := by
  simp only [enter, h]
  split
  · exact ⟨peek_pokeReg (peek_and_not_mask _), rfl, rfl, rfl⟩
  · rename_i hclear
    have hclear := not_not.mp hclear
    refine ⟨(and_mask_of_clear hclear).symm, rfl, rfl, ?_⟩
    rw [and_newns_of_clear hclear]
    rfl

theorem enter_null (h : c.AtNull) : c.enter = ⟨c.regs, c.memory, false⟩ := by
  simp only [enter, h.1, h.2, if_true]

theorem enter_clone3_regs (h : getSysnum host c.abi c.regs = .PR_clone3) :
    c.enter.regs = c.regs := by
  simp only [enter, h]
  split
  · rfl
  · split
    · rfl
    · split <;> rfl

/-- The memory of a `clone3` that PRoot looks into. -/
theorem enter_clone3 (h : getSysnum host c.abi c.regs = .PR_clone3) (hnull : ¬ c.AtNull)
    {word : Nat}
    (hword : peekWordAt (sizeofWord host c.abi) c.memory (argsAddr c.abi c.regs) = some word) :
    (c.enter.strippedNewns = decide (BitVec.ofNat 64 word &&& cloneNewns ≠ 0)) ∧
      ((BitVec.ofNat 64 word &&& cloneNsMask ≠ 0 ∧ c.writable = true ∧
          c.enter.memory = (pokeWordAt (sizeofWord host c.abi) c.memory (argsAddr c.abi c.regs)
            (BitVec.ofNat 64 word &&& ~~~cloneNsMask).toNat).getD c.memory) ∨
        (¬ (BitVec.ofNat 64 word &&& cloneNsMask ≠ 0 ∧ c.writable = true) ∧
          c.enter.memory = c.memory)) := by
  have haddr : ¬ (sysarg c.abi c.regs.arg1 : Address host) = 0 := fun haddr => hnull ⟨h, haddr⟩
  simp only [enter, h, haddr, if_false, hword]
  by_cases hmask : BitVec.ofNat 64 word &&& cloneNsMask ≠ 0
  · rw [if_pos hmask]
    refine ⟨rfl, ?_⟩
    by_cases hwritable : c.writable = true
    · exact Or.inl ⟨hmask, hwritable, if_pos hwritable⟩
    · exact Or.inr ⟨fun hboth => hwritable hboth.2, if_neg hwritable⟩
  · rw [if_neg hmask]
    refine ⟨?_, Or.inr ⟨fun hboth => hmask hboth.1, rfl⟩⟩
    rw [and_newns_of_clear (not_not.mp hmask)]
    rfl

theorem enter_unread (h : getSysnum host c.abi c.regs = .PR_clone3) (hnull : ¬ c.AtNull)
    (hword : peekWordAt (sizeofWord host c.abi) c.memory (argsAddr c.abi c.regs) = none) :
    c.enter = ⟨c.regs, c.memory, false⟩ := by
  have haddr : ¬ (sysarg c.abi c.regs.arg1 : Address host) = 0 := fun haddr => hnull ⟨h, haddr⟩
  simp only [enter, h, haddr, if_false, hword]

theorem enter_other (hclone : getSysnum host c.abi c.regs ≠ .PR_clone)
    (hclone3 : getSysnum host c.abi c.regs ≠ .PR_clone3) :
    c.enter = ⟨c.regs, c.memory, false⟩ := by
  unfold enter
  split
  · exact absurd ‹_› hclone
  · exact absurd ‹_› hclone3
  · rfl

theorem enter_num : c.enter.regs.num = c.regs.num := by
  by_cases hclone : getSysnum host c.abi c.regs = .PR_clone
  · exact (enter_clone hclone).2.1
  · by_cases hclone3 : getSysnum host c.abi c.regs = .PR_clone3
    · rw [enter_clone3_regs hclone3]
    · rw [enter_other hclone hclone3]

/-- It is the same call that the kernel sees. -/
theorem enter_sysnum : getSysnum host c.abi c.enter.regs = getSysnum host c.abi c.regs := by
  rw [getSysnum, getSysnum, enter_num]

/-! ## What the kernel sees -/

theorem poke_isSome {m : Space host} {a : Address host} {abi : Abi} {word : Nat}
    (h : peekWordAt (sizeofWord host abi) m a = some word) (value : Nat) :
    ∃ m', pokeWordAt (sizeofWord host abi) m a value = some m' := by
  obtain ⟨bytes, hload, -⟩ := Option.map_eq_some_iff.mp h
  apply Option.isSome_iff_exists.mp
  apply AddressSpace.store_isSome_iff.2
  rw [wordBytes_length, hload]
  rfl

/-- A word that is the same without namespace flags has none. -/
theorem peekWordAt_poked {m : Space host} {a : Address host} {abi : Abi} {word : Nat}
    (hword : peekWordAt (sizeofWord host abi) m a = some word)
    (hpoke : pokeWordAt (sizeofWord host abi) m a
      (BitVec.ofNat 64 word &&& ~~~cloneNsMask).toNat = some m) :
    BitVec.ofNat 64 word &&& cloneNsMask = 0 := by
  obtain ⟨bytes, hload, rfl⟩ := Option.map_eq_some_iff.mp hword
  have hsize := sizeofWord_cases host abi
  have hlt := littleEndian_lt bytes
  have hspace : 8 ≤ 2 ^ (8 * host.word) := by
    cases host <;> decide
  have hread := AddressSpace.load_store hpoke (by rw [wordBytes_length]; omega)
  rw [wordBytes_length, hload] at hread
  have hvalue := congrArg littleEndian (Option.some.inj hread)
  rw [AddressSpace.load_length hload] at hlt
  have hpow : 256 ^ sizeofWord host abi ≤ 2 ^ 64 := by
    rcases hsize with hsize | ⟨hsize, -⟩ <;> rw [hsize] <;> decide
  have hwhole : (BitVec.ofNat 64 (littleEndian bytes)).toNat = littleEndian bytes :=
    Nat.mod_eq_of_lt (by omega)
  have hstripped : (BitVec.ofNat 64 (littleEndian bytes) &&& ~~~cloneNsMask).toNat <
      256 ^ sizeofWord host abi := by
    rw [BitVec.toNat_and, hwhole]
    exact Nat.lt_of_le_of_lt Nat.and_le_left hlt
  rw [littleEndian_wordBytes, Nat.mod_eq_of_lt hstripped] at hvalue
  have hsame : BitVec.ofNat 64 (littleEndian bytes) &&& ~~~cloneNsMask =
      BitVec.ofNat 64 (littleEndian bytes) := by
    apply BitVec.eq_of_toNat_eq
    rw [hwhole, ← hvalue]
  have hnone : ~~~cloneNsMask &&& cloneNsMask = 0#64 := by decide
  rw [← hsame, BitVec.and_assoc, hnone]
  exact BitVec.and_zero

/-- Nothing is mapped or unmapped on entry. -/
theorem enter_mapped (x : Address host) : (c.enter.memory x).isSome = (c.memory x).isSome := by
  by_cases hclone : getSysnum host c.abi c.regs = .PR_clone
  · rw [(enter_clone hclone).2.2.1]
  · by_cases hclone3 : getSysnum host c.abi c.regs = .PR_clone3
    · by_cases hnull : c.AtNull
      · rw [enter_null hnull]
      · cases hword : peekWordAt (sizeofWord host c.abi) c.memory (argsAddr c.abi c.regs) with
        | none => rw [enter_unread hclone3 hnull hword]
        | some word =>
            obtain ⟨-, ⟨-, -, hmemory⟩ | ⟨-, hmemory⟩⟩ := enter_clone3 hclone3 hnull hword
            · obtain ⟨m', hpoke⟩ := poke_isSome hword
                (BitVec.ofNat 64 word &&& ~~~cloneNsMask).toNat
              rw [hmemory, hpoke]
              exact AddressSpace.store_mapped hpoke x
            · rw [hmemory]
    · rw [enter_other hclone hclone3]

/-- The first field of `clone_args`, before and after the entry. -/
theorem enter_load (h : getSysnum host c.abi c.regs = .PR_clone3) {bytes : Bytes}
    (hload : c.memory.load (argsAddr c.abi c.regs) 8 = some bytes) :
    ∃ bytes', c.enter.memory.load (argsAddr c.abi c.regs) 8 = some bytes' ∧
      BitVec.ofNat 64 (littleEndian bytes') &&& ~~~cloneNsMask =
        BitVec.ofNat 64 (littleEndian bytes) &&& ~~~cloneNsMask := by
  by_cases hnull : c.AtNull
  · rw [enter_null hnull]
    exact ⟨bytes, hload, rfl⟩
  · have hword := peekWordAt_of_load c.abi hload
    obtain ⟨-, ⟨-, -, hmemory⟩ | ⟨-, hmemory⟩⟩ := enter_clone3 h hnull hword
    · rw [peek_littleEndian (AddressSpace.load_length hload)] at hmemory
      obtain ⟨m', hpoke⟩ := poke_isSome hword
        (peek host c.abi (BitVec.ofNat 64 (littleEndian bytes)) &&& ~~~cloneNsMask).toNat
      rw [hmemory, hpoke]
      exact load_stripped hload hpoke
    · rw [hmemory]
      exact ⟨bytes, hload, rfl⟩

/-- **No more than namespace bits is stripped.** -/
theorem seen_eq : c.seen.map (· &&& ~~~cloneNsMask) = c.requested.map (· &&& ~~~cloneNsMask) := by
  unfold seen requested kernelFlags
  rw [enter_sysnum]
  split
  · rename_i hclone
    rw [Option.map_some, Option.map_some, (enter_clone hclone).1, and_mask_twice]
  · rename_i hclone3
    rw [enter_clone3_regs hclone3]
    cases hload : c.memory.load (argsAddr c.abi c.regs) 8 with
    | none =>
        have hunread : c.enter.memory.load (argsAddr c.abi c.regs) 8 = none := by
          rw [← Option.not_isSome_iff_eq_none, AddressSpace.load_isSome_iff]
          rw [← Option.not_isSome_iff_eq_none, AddressSpace.load_isSome_iff] at hload
          simpa only [enter_mapped] using hload
        rw [hunread]
    | some bytes =>
        obtain ⟨bytes', hload', heq⟩ := enter_load hclone3 hload
        rw [hload', Option.map_some, Option.map_some, Option.map_some, Option.map_some, heq]
  · rfl
  · rfl

/-- Other flags are asked for if they are seen. -/
theorem asks_iff (hflag : ~~~cloneNsMask &&& flag = flag) (hseen : c.seen = some flags) :
    c.Asks flag ↔ flags &&& flag ≠ 0 := by
  have hflags := seen_eq (c := c)
  rw [hseen, Option.map_some] at hflags
  obtain ⟨requested, hrequested, heq⟩ := Option.map_eq_some_iff.mp hflags.symm
  have hsame : requested &&& flag = flags &&& flag := by
    rw [← and_mask_apart hflag, heq, and_mask_apart hflag]
  unfold Asks
  rw [hrequested]
  constructor
  · rintro ⟨_, hflags, hasked⟩
    rwa [← Option.some.inj hflags, hsame] at hasked
  · intro hasked
    exact ⟨requested, rfl, by rwa [hsame]⟩

/-- `new_child` and the kernel agree on a flag, if they do for `fork` and `vfork`. -/
theorem newChildFlags_and (hflag : 0xFFFFFFFF &&& flag = flag) (hseen : c.seen = some flags)
    {vfork : Bool}
    (hfork : getSysnum host c.abi c.regs ≠ .PR_clone → getSysnum host c.abi c.regs ≠ .PR_clone3 →
      (if vfork then cloneVfork else 0) &&& flag = flags &&& flag) :
    newChildFlags c.abi c.enter.regs c.enter.memory vfork &&& flag = flags &&& flag := by
  unfold seen kernelFlags at hseen
  unfold newChildFlags
  rw [enter_sysnum] at hseen ⊢
  split at hseen
  · rename_i hclone
    simp only [hclone]
    rw [Option.some.inj hseen]
  · rename_i hclone3
    obtain ⟨bytes, hload, rfl⟩ := Option.map_eq_some_iff.mp hseen
    have hword := peekWordAt_of_load c.abi hload
    obtain ⟨word, hword, hvalue⟩ := Option.map_eq_some_iff.mp hword
    simp only [hclone3, peekWordOrOnes]
    rw [show c.enter.memory.load (untagPointer host (sysarg c.abi c.enter.regs.arg1))
      (sizeofWord host c.abi) = some word from hword]
    simp only [hvalue]
    rw [peek_littleEndian (AddressSpace.load_length hload), peek_and hflag]
  · rename_i hvfork
    simp only [hvfork] at hfork ⊢
    exact hfork nofun nofun
  · rename_i hclone hclone3 hvfork
    split
    · exact absurd ‹_› hclone
    · exact absurd ‹_› hclone3
    · exact hfork hclone hclone3

/-- `new_child` and the kernel agree on `CLONE_FS`. -/
theorem newChildFlags_fs (hseen : c.seen = some flags) :
    newChildFlags c.abi c.enter.regs c.enter.memory c.vfork &&& cloneFs = flags &&& cloneFs := by
  apply newChildFlags_and (by decide) hseen
  intro hclone hclone3
  unfold seen kernelFlags at hseen
  rw [enter_sysnum] at hseen
  split at hseen
  · exact absurd ‹_› hclone
  · exact absurd ‹_› hclone3
  · rw [← Option.some.inj hseen]
    cases c.vfork <;> rfl
  · rw [← Option.some.inj hseen]
    cases c.vfork <;> rfl

/-- What is remembered, of a call that the kernel accepts. -/
theorem strippedNewns_iff (hseen : c.seen.isSome) :
    c.enter.strippedNewns = true ↔ c.Asks cloneNewns ∧ ¬ c.AtNull := by
  have hrequested : c.requested.isSome := by
    have hflags := congrArg Option.isSome (seen_eq (c := c))
    rwa [Option.isSome_map, Option.isSome_map, hseen, eq_comm] at hflags
  unfold requested kernelFlags at hrequested
  unfold Asks requested kernelFlags
  by_cases hclone : getSysnum host c.abi c.regs = .PR_clone
  · have hnull : ¬ c.AtNull := fun hnull => by
      have hsysnum := hnull.1
      rw [hclone] at hsysnum
      cases hsysnum
    rw [(enter_clone hclone).2.2.2]
    simp only [hclone, Option.some.injEq, exists_eq_left', decide_eq_true_eq, hnull,
      not_false_eq_true, and_true]
  · by_cases hclone3 : getSysnum host c.abi c.regs = .PR_clone3
    · simp only [hclone3] at hrequested ⊢
      rw [Option.isSome_map] at hrequested
      obtain ⟨bytes, hload⟩ := Option.isSome_iff_exists.mp hrequested
      rw [hload]
      by_cases hnull : c.AtNull
      · rw [enter_null hnull]
        simp only [hnull, not_true_eq_false, and_false, Bool.false_eq_true]
      · rw [(enter_clone3 hclone3 hnull (peekWordAt_of_load c.abi hload)).1,
          peek_littleEndian (AddressSpace.load_length hload), peek_and (by decide)]
        simp only [Option.map_some, Option.some.injEq, exists_eq_left', decide_eq_true_eq, hnull,
          not_false_eq_true, and_true]
    · have hfork := c.family
      rw [enter_other hclone hclone3]
      simp only [List.mem_cons, hclone, hclone3, List.not_mem_nil, false_or, or_false] at hfork
      rcases hfork with hfork | hfork
      · simp [hfork, cloneNewns]
      · simp [hfork, cloneNewns]

/-- The memory of the caller changes only where namespace flags are stripped in it. -/
theorem enter_memory_iff : c.enter.memory = c.memory ↔ ¬ c.StripsArgs := by
  by_cases hclone3 : getSysnum host c.abi c.regs = .PR_clone3
  · by_cases hnull : c.AtNull
    · rw [enter_null hnull]
      exact ⟨fun _ hstrips => hstrips.2.1 hnull, fun _ => rfl⟩
    · cases hword : peekWordAt (sizeofWord host c.abi) c.memory (argsAddr c.abi c.regs) with
      | none =>
          rw [enter_unread hclone3 hnull hword]
          refine ⟨fun _ hstrips => ?_, fun _ => rfl⟩
          obtain ⟨-, -, -, word, hread, -⟩ := hstrips
          rw [hword] at hread
          cases hread
      | some word =>
          obtain ⟨-, ⟨hmask, hwritable, hmemory⟩ | ⟨hkept, hmemory⟩⟩ :=
            enter_clone3 hclone3 hnull hword
          · refine ⟨fun hsame => ?_, fun hclear => ?_⟩
            · obtain ⟨m', hpoke⟩ := poke_isSome hword
                (BitVec.ofNat 64 word &&& ~~~cloneNsMask).toNat
              rw [hsame, hpoke, Option.getD_some] at hmemory
              rw [← hmemory] at hpoke
              exact absurd (peekWordAt_poked hword hpoke) hmask
            · exact absurd ⟨hclone3, hnull, hwritable, word, hword, hmask⟩ hclear
          · refine ⟨fun _ hstrips => ?_, fun _ => hmemory⟩
            obtain ⟨-, -, hwritable, word', hread, hmask⟩ := hstrips
            rw [hword] at hread
            obtain rfl := Option.some.inj hread
            exact hkept ⟨hmask, hwritable⟩
  · refine ⟨fun _ hstrips => hclone3 hstrips.1, fun _ => ?_⟩
    by_cases hclone : getSysnum host c.abi c.regs = .PR_clone
    · exact (enter_clone hclone).2.2.1
    · rw [enter_other hclone hclone3]

end ChildCall

/-! ## The lists of the child -/

section Child

variable {sys : Sys W} (halloc : Allocated sys) {pid : Int}
  (hfresh : pid ∉ (sys.tracee :: sys.others).map Tracee.pid)

include hfresh

/-- The new tracee is found by its number, -/
theorem newChild_getTracee (cloneFs strippedNewns : Bool) :
    (newChild sys pid cloneFs strippedNewns).getTracee pid =
      some { sys.tracee with
        pid, fs := if cloneFs then sys.tracee.fs else sys.nextAddr, glueType := none } := by
  have hne : ¬ sys.tracee.pid = pid := fun heq => hfresh (heq ▸ List.mem_cons_self)
  cases cloneFs with
  | true =>
      show (if sys.tracee.pid = pid then _ else _) = _
      rw [if_neg hne]
      exact List.find?_cons_of_pos (decide_eq_true rfl)
  | false =>
      show (if sys.tracee.pid = pid then _ else _) = _
      rw [if_neg hne]
      exact List.find?_cons_of_pos (decide_eq_true rfl)

/-- and the others by theirs. -/
theorem newChild_getTracee_other (cloneFs strippedNewns : Bool) {t : Tracee}
    (ht : t ∈ sys.tracee :: sys.others) :
    (newChild sys pid cloneFs strippedNewns).getTracee t.pid = sys.getTracee t.pid := by
  have hne : ¬ pid = t.pid := fun heq => hfresh (heq ▸ List.mem_map_of_mem ht)
  cases cloneFs with
  | true =>
      show (if sys.tracee.pid = t.pid then _ else _) = if sys.tracee.pid = t.pid then _ else _
      congr 1
      exact List.find?_cons_of_neg (by simpa using hne)
  | false =>
      show (if sys.tracee.pid = t.pid then _ else _) = if sys.tracee.pid = t.pid then _ else _
      congr 1
      exact List.find?_cons_of_neg (by simpa using hne)

include halloc

theorem newChild_own : OwnCopy sys (newChild sys pid false true) pid := by
  obtain ⟨hchild, -, hcopy, -⟩ := newChild_lists halloc hfresh
  refine ⟨sys.nextAddr + 1, hchild, fun t ht => ?_, hcopy⟩
  rw [Sys.listsOf, newChild_getTracee_other hfresh _ _ ht]
  intro heq
  obtain ⟨found, hfound, hlists⟩ := Option.map_eq_some_iff.mp heq
  have hmem : found ∈ sys.tracee :: sys.others := by
    unfold Sys.getTracee at hfound
    split at hfound
    · rw [← Option.some.inj hfound]
      exact List.mem_cons_self
    · exact List.mem_cons_of_mem _ (List.mem_of_find?_eq_some hfound)
  have hfs := halloc.fs found hmem
  have hbound := halloc.lists found hmem
  have hsame : ((newChild sys pid false true).fsOf found).bindings = (sys.fsOf found).bindings := by
    show (if found.fs = sys.nextAddr then _ else sys.spaces found.fs).bindings = _
    rw [if_neg (by omega)]
    rfl
  omega

theorem newChild_shared {cloneFs strippedNewns : Bool}
    (h : cloneFs = false → strippedNewns = false) :
    SharedLists sys (newChild sys pid cloneFs strippedNewns) pid := by
  have hown : (newChild sys pid cloneFs strippedNewns).listsOf sys.tracee.pid =
      some (sys.fsOf sys.tracee).bindings := by
    have hfs := halloc.fs _ List.mem_cons_self
    rw [Sys.listsOf, newChild_getTracee_other hfresh _ _ List.mem_cons_self, Sys.getTracee_self]
    cases cloneFs with
    | true => rfl
    | false =>
        show some (if sys.tracee.fs = sys.nextAddr then _ else _ : FileSystemNameSpace).bindings = _
        rw [if_neg (by omega)]
        rfl
  have hchild : (newChild sys pid cloneFs strippedNewns).listsOf pid =
      some (sys.fsOf sys.tracee).bindings := by
    rw [Sys.listsOf, newChild_getTracee hfresh]
    cases cloneFs with
    | true => rfl
    | false =>
        obtain rfl := h rfl
        show some (if sys.nextAddr = sys.nextAddr then _ else _ : FileSystemNameSpace).bindings = _
        rw [if_pos rfl]
        rfl
  refine ⟨hchild.trans hown.symm, ?_⟩
  rw [Sys.bindingsFor, hchild]
  cases cloneFs with
  | true => rfl
  | false =>
      obtain rfl := h rfl
      rfl

end Child

/-- A child has lists of its own or shares them, not both. -/
theorem OwnCopy.not_shared {sys created : Sys W} {pid : Int} (h : OwnCopy sys created pid) :
    ¬ SharedLists sys created pid := by
  intro hshared
  obtain ⟨addr, hchild, hothers, -⟩ := h
  exact hothers sys.tracee List.mem_cons_self (hshared.1.symm.trans hchild)

/-! ## Addresses -/

/-- Addresses stay allocated, whatever a tracee does. -/
theorem Allocated.kept : Kept (Allocated (W := W)) where
  world _ h := ⟨h.fs, h.lists⟩
  glue {sys} _ h := by
    refine ⟨fun t ht => ?_, fun t ht => ?_⟩
    · rcases List.mem_cons.mp ht with rfl | ht
      · exact h.fs sys.tracee List.mem_cons_self
      · exact h.fs t (List.mem_cons_of_mem _ ht)
    · rcases List.mem_cons.mp ht with rfl | ht
      · exact h.lists sys.tracee List.mem_cons_self
      · exact h.lists t (List.mem_cons_of_mem _ ht)
  insort _ _ h :=
    ⟨fun t ht => Nat.lt_succ_of_lt (h.fs t ht), fun t ht => Nat.lt_succ_of_lt (h.lists t ht)⟩
  remove _ h := ⟨h.fs, h.lists⟩
  chdir {sys} cwd h := by
    refine ⟨h.fs, fun t ht => ?_⟩
    show (if t.fs = _ then { sys.spaces t.fs with cwd } else sys.spaces t.fs).bindings < _
    split <;> exact h.lists t ht

theorem Allocated.newChild {sys : Sys W} (h : Allocated sys) (pid : Int)
    (cloneFs strippedNewns : Bool) : Allocated (newChild sys pid cloneFs strippedNewns) := by
  have htracee := List.mem_cons_self (a := sys.tracee) (l := sys.others)
  have hold : ∀ t, t.fs < sys.nextAddr → (sys.fsOf t).bindings < sys.nextAddr →
      ((PRoot.newChild sys pid false strippedNewns).fsOf t).bindings <
        sys.nextAddr + 2 + sys.bindings.guest.length := by
    intro t hfs hlists
    show (if t.fs = sys.nextAddr then _ else sys.spaces t.fs).bindings < _
    rw [if_neg (by omega)]
    exact Nat.lt_of_lt_of_le hlists (by omega)
  cases cloneFs with
  | true =>
      refine ⟨fun t ht => ?_, fun t ht => ?_⟩
      · rcases List.mem_cons.mp ht with rfl | ht
        · exact h.fs _ htracee
        · rcases List.mem_cons.mp ht with rfl | ht
          · exact h.fs sys.tracee htracee
          · exact h.fs t (List.mem_cons_of_mem _ ht)
      · rcases List.mem_cons.mp ht with rfl | ht
        · exact h.lists _ htracee
        · rcases List.mem_cons.mp ht with rfl | ht
          · exact h.lists sys.tracee htracee
          · exact h.lists t (List.mem_cons_of_mem _ ht)
  | false =>
      refine ⟨fun t ht => ?_, fun t ht => ?_⟩
      · show t.fs < sys.nextAddr + 2 + sys.bindings.guest.length
        rcases List.mem_cons.mp ht with rfl | ht
        · exact Nat.lt_of_lt_of_le (h.fs _ htracee) (by omega)
        · rcases List.mem_cons.mp ht with rfl | ht
          · show sys.nextAddr < _
            omega
          · exact Nat.lt_of_lt_of_le (h.fs t (List.mem_cons_of_mem _ ht)) (by omega)
      · rcases List.mem_cons.mp ht with rfl | ht
        · exact hold _ (h.fs _ htracee) (h.lists _ htracee)
        · rcases List.mem_cons.mp ht with rfl | ht
          · have hparent := h.lists _ htracee
            show (if sys.nextAddr = sys.nextAddr then _ else _ : FileSystemNameSpace).bindings <
              sys.nextAddr + 2 + sys.bindings.guest.length
            rw [if_pos rfl]
            cases strippedNewns with
            | true =>
                show sys.nextAddr + 1 < _
                omega
            | false => exact Nat.lt_of_lt_of_le hparent (by omega)
          · exact hold t (h.fs t (List.mem_cons_of_mem _ ht))
              (h.lists t (List.mem_cons_of_mem _ ht))

/-! ## One call -/

section Call

variable {s : CloneSys W} {c : ChildCall host} {pid : Int}

theorem made_seen (h : c.made = some pid) : ∃ flags, c.seen = some flags := by
  unfold ChildCall.made at h
  split at h
  · exact Option.isSome_iff_exists.mp ‹_›
  · cases h

/-- A call that makes a child makes it by `new_child`, with what was asked for. -/
theorem call_child (h : c.made = some pid) :
    ∃ cloneFs stripped : Bool,
      (s.call c).sys = newChild s.sys pid cloneFs stripped ∧
      (cloneFs = true ↔ c.Asks PRoot.cloneFs) ∧
      (stripped = true ↔ s.cloneStrippedNewns = true ∨ c.Asks cloneNewns ∧ ¬ c.AtNull) := by
  obtain ⟨flags, hseen⟩ := made_seen h
  refine ⟨newChildFlags c.abi c.enter.regs c.enter.memory c.vfork &&& cloneFs ≠ 0,
    s.cloneStrippedNewns || c.enter.strippedNewns, ?_, ?_, ?_⟩
  · simp only [CloneSys.call, h]
  · rw [decide_eq_true_eq, ChildCall.newChildFlags_fs hseen,
      ChildCall.asks_iff (by decide) hseen]
  · rw [Bool.or_eq_true, ChildCall.strippedNewns_iff (by rw [hseen]; rfl)]

/-- **When a call does what it is to do.** -/
theorem call_faithful_iff (halloc : Allocated s.sys)
    (hfresh : ∀ pid, c.made = some pid → pid ∉ (s.sys.tracee :: s.sys.others).map Tracee.pid) :
    Faithful s c ↔ Undisturbed s c := by
  constructor
  · intro hfaithful
    refine ⟨fun hmade hfs hnewns => ?_, fun hmade hfs hnewns hnull => ?_,
      ChildCall.enter_memory_iff.1 hfaithful.args⟩
    · obtain ⟨pid, hpid⟩ := Option.isSome_iff_exists.mp hmade
      obtain ⟨cloneFs, stripped, hsys, hcloneFs, hstripped⟩ := call_child (s := s) hpid
      have hshared := hfaithful.shared pid hpid fun hboth => hnewns hboth.1
      rw [Bool.eq_false_iff]
      intro hflag
      obtain rfl := hstripped.mpr (Or.inl hflag)
      obtain rfl := Bool.eq_false_iff.mpr fun hset => hfs (hcloneFs.mp hset)
      rw [hsys] at hshared
      exact (newChild_own halloc (hfresh pid hpid)).not_shared hshared
    · obtain ⟨pid, hpid⟩ := Option.isSome_iff_exists.mp hmade
      obtain ⟨cloneFs, stripped, hsys, hcloneFs, hstripped⟩ := call_child (s := s) hpid
      have hown := hfaithful.own pid hpid hnewns hfs
      by_contra hflag
      have hclear : stripped = false := Bool.eq_false_iff.mpr fun hset =>
        (hstripped.mp hset).elim hflag fun hboth => hboth.2 hnull
      rw [hsys] at hown
      exact hown.not_shared (newChild_shared halloc (hfresh pid hpid) fun _ => hclear)
  · intro hundisturbed
    refine ⟨fun pid hpid hnewns hfs => ?_, fun pid hpid hother => ?_, ChildCall.seen_eq,
      ChildCall.enter_memory_iff.2 hundisturbed.args⟩
    · obtain ⟨cloneFs, stripped, hsys, hcloneFs, hstripped⟩ := call_child (s := s) hpid
      obtain rfl := Bool.eq_false_iff.mpr fun hset => hfs (hcloneFs.mp hset)
      have hset : stripped = true := by
        by_cases hnull : c.AtNull
        · exact hstripped.mpr (Or.inl
            (hundisturbed.noticed (by rw [hpid]; rfl) hfs hnewns hnull))
        · exact hstripped.mpr (Or.inr ⟨hnewns, hnull⟩)
      obtain rfl := hset
      rw [hsys]
      exact newChild_own halloc (hfresh pid hpid)
    · obtain ⟨cloneFs, stripped, hsys, hcloneFs, hstripped⟩ := call_child (s := s) hpid
      rw [hsys]
      apply newChild_shared halloc (hfresh pid hpid)
      intro hclear
      have hfs : ¬ c.Asks PRoot.cloneFs := fun hfs => by
        rw [hcloneFs.mpr hfs] at hclear
        cases hclear
      have hnewns : ¬ c.Asks cloneNewns := fun hnewns => hother ⟨hnewns, hfs⟩
      rw [Bool.eq_false_iff]
      intro hset
      rcases hstripped.mp hset with hflag | ⟨hasked, -⟩
      · rw [hundisturbed.leftover (by rw [hpid]; rfl) hfs hnewns] at hflag
        cases hflag
      · exact hnewns hasked

theorem call_allocated (halloc : Allocated s.sys) : Allocated (s.call c).sys := by
  unfold CloneSys.call
  cases c.made with
  | none => exact halloc
  | some pid => exact halloc.newChild ..

end Call

/-! ## Runs -/

theorem CloneRun.allocated {start s : CloneSys W} {turns : List (CloneSys W × ChildCall host)}
    (halloc : Allocated start.sys) (hrun : CloneRun k start turns s) : Allocated s.sys := by
  induction hrun with
  | start => exact halloc
  | call hrun hfresh ih => exact call_allocated ih
  | operate hrun hop ih => exact Allocated.kept.opRun ih hop
  | gone pid hrun ih =>
      have hmem : ∀ {t : Tracee} {l : List Tracee} {own : Tracee},
          t ∈ own :: l.filter (·.pid ≠ pid) → t ∈ own :: l := by
        intro t l own ht
        rcases List.mem_cons.mp ht with rfl | ht
        · exact List.mem_cons_self
        · exact List.mem_cons_of_mem _ (List.mem_of_mem_filter ht)
      exact ⟨fun t ht => ih.fs t (hmem ht), fun t ht => ih.lists t (hmem ht)⟩

/-- **New mount namespaces reach the right child**: in every run of calls, successful or not,
each of them does what it is to do if and only if none meets a flag that a failed call has left,
or strips flags in memory. -/
theorem clone_namespaces_iff {start s : CloneSys W} {turns : List (CloneSys W × ChildCall host)}
    (halloc : Allocated start.sys) (hrun : CloneRun k start turns s) :
    (∀ turn ∈ turns, Faithful turn.1 turn.2) ↔ ∀ turn ∈ turns, Undisturbed turn.1 turn.2 := by
  induction hrun with
  | start => exact ⟨fun _ _ hmem => absurd hmem List.not_mem_nil,
      fun _ _ hmem => absurd hmem List.not_mem_nil⟩
  | call hrun hfresh ih =>
      have hlast := call_faithful_iff (hrun.allocated halloc) hfresh
      rw [List.forall_mem_append, List.forall_mem_append, ih, List.forall_mem_singleton,
        List.forall_mem_singleton, hlast]
  | operate hrun hop ih => exact ih
  | gone pid hrun ih => exact ih

/-- The registers of a call with one argument. -/
def regsOf (num arg1 : BitVec 64) : SyscallRegs := ⟨num, arg1, 0, 0, 0, 0, 0, 0, 0⟩

/-- `clone (CLONE_NEWNS | SIGCHLD)`. -/
def newnsCall (child : Option Int) : ChildCall .ARCH_X86_64 where
  abi := .ABI_DEFAULT
  regs := regsOf 56 0x20011
  memory := fun _ => none
  writable := true
  child := child
  vfork := false
  family := by decide

/-- `fork ()`. -/
def forkCall (child : Option Int) : ChildCall .ARCH_X86_64 where
  abi := .ABI_DEFAULT
  regs := regsOf 57 0
  memory := fun _ => none
  writable := true
  child := child
  vfork := false
  family := by decide

/-- `clone3` with `CLONE_NEWNS` in its arguments at 0x1000. -/
def newnsCall3 : ChildCall .ARCH_X86_64 where
  abi := .ABI_DEFAULT
  regs := regsOf 435 0x1000
  memory := fun a => if a = 0x1002 then some 2 else some 0
  writable := true
  child := none
  vfork := false
  family := by decide

theorem forkCall_asks (child : Option Int) (h : 0x11 &&& flag = 0) :
    ¬ (forkCall child).Asks flag := by
  rintro ⟨flags, hflags, hasked⟩
  have hrequested : (forkCall child).requested = some 0x11 := rfl
  rw [hrequested] at hflags
  rw [← Option.some.inj hflags] at hasked
  exact hasked h

theorem newnsCall_asks (child : Option Int) : (newnsCall child).Asks cloneNewns :=
  ⟨0x20011, rfl, by decide⟩

/-- A `clone` with `CLONE_NEWNS` fails, then a plain `fork` makes a child that gets lists of its
own; and a `clone3` with `CLONE_NEWNS` leaves its arguments changed. -/
theorem clone_namespaces_leftover :
    let start : CloneSys Unit := ⟨rootedSys slash, false⟩
    let left : CloneSys Unit := ⟨rootedSys slash, true⟩
    (∃ s, CloneRun rootHost start [(start, newnsCall none), (left, forkCall (some 2))] s) ∧
      Allocated start.sys ∧ (forkCall (some 2)).made = some 2 ∧
      ¬ (forkCall (some 2)).Asks cloneNewns ∧
      OwnCopy left.sys (left.call (forkCall (some 2))).sys 2 ∧
      ¬ Faithful left (forkCall (some 2)) ∧
      newnsCall3.enter.memory ≠ newnsCall3.memory ∧ ¬ Faithful start newnsCall3 := by
  intro start left
  have halloc : Allocated (rootedSys slash) := ⟨by decide, by decide⟩
  have hfresh : (2 : Int) ∉ ((rootedSys slash).tracee :: (rootedSys slash).others).map Tracee.pid :=
    by decide
  have hown : OwnCopy left.sys (left.call (forkCall (some 2))).sys 2 :=
    newChild_own halloc hfresh
  have hasks : ¬ (forkCall (some 2)).Asks cloneNewns := forkCall_asks _ (by decide)
  have hchanged : newnsCall3.enter.memory ≠ newnsCall3.memory := fun hsame =>
    ChildCall.enter_memory_iff.1 hsame
      ⟨by decide, fun hnull => absurd hnull.2 (by decide), rfl, 0x20000, by decide, by decide⟩
  have hrun : CloneRun rootHost start [(start, newnsCall none)] left :=
    .call .start fun pid hpid => by cases hpid
  refine ⟨⟨_, .call hrun fun pid hpid => ?_⟩, halloc, rfl, hasks, hown, fun hfaithful => ?_,
    hchanged, fun hfaithful => hchanged hfaithful.args⟩
  · cases hpid
    exact hfresh
  · exact hown.not_shared (hfaithful.shared 2 rfl fun hboth => hasks hboth.1)

/-- A `clone` with `CLONE_NEWNS` that succeeds, and a `fork` after it. -/
theorem clone_namespaces_two :
    let start : CloneSys Unit := ⟨rootedSys slash, false⟩
    let forked := start.call (newnsCall (some 2))
    OwnCopy start.sys forked.sys 2 ∧
      SharedLists forked.sys (forked.call (forkCall (some 3))).sys 3 := by
  intro start forked
  have halloc : Allocated (rootedSys slash) := ⟨by decide, by decide⟩
  have hmade : (newnsCall (some 2)).made = some 2 := by decide
  have hforked : forked = ⟨newChild (rootedSys slash) 2 false true, false⟩ := by
    simp only [forked, CloneSys.call, hmade]
    congr 1
  have hmade3 : (forkCall (some 3)).made = some 3 := by decide
  have hrun : CloneRun rootHost start [(start, newnsCall (some 2)), (forked, forkCall (some 3))]
      (forked.call (forkCall (some 3))) := by
    refine .call (.call .start fun pid hpid => ?_) fun pid hpid => ?_
    · obtain rfl := Option.some.inj (hmade.symm.trans hpid)
      show (2 : Int) ∉ ((rootedSys slash).tracee :: (rootedSys slash).others).map Tracee.pid
      decide
    · obtain rfl := Option.some.inj (hmade3.symm.trans hpid)
      show (3 : Int) ∉ (forked.sys.tracee :: forked.sys.others).map Tracee.pid
      rw [hforked]
      decide
  have hfs : ¬ (newnsCall (some 2)).Asks cloneFs := by
    rintro ⟨flags, hflags, hasked⟩
    have hrequested : (newnsCall (some 2)).requested = some 0x20011 := rfl
    rw [hrequested] at hflags
    rw [← Option.some.inj hflags] at hasked
    exact hasked (by decide)
  have hfaithful := (clone_namespaces_iff halloc hrun).2 (by
    intro turn hturn
    rcases List.mem_cons.mp hturn with rfl | hturn
    · refine ⟨fun _ _ hnewns => absurd (newnsCall_asks _) hnewns, fun _ _ _ hnull => ?_,
        fun hstrips => ?_⟩
      · exact absurd hnull.1 (by decide)
      · exact absurd hstrips.1 (by decide)
    · rw [List.mem_singleton.mp hturn]
      exact ⟨fun _ _ _ => by rw [hforked],
        fun _ _ hnewns => absurd hnewns (forkCall_asks _ (by decide)),
        fun hstrips => absurd hstrips.1 (by decide)⟩)
  have hclone := hfaithful _ List.mem_cons_self
  have hfork := hfaithful _ (List.mem_cons_of_mem _ List.mem_cons_self)
  exact ⟨hclone.own 2 hmade (newnsCall_asks _) hfs,
    hfork.shared 3 hmade3 fun hboth => forkCall_asks _ (by decide) hboth.1⟩

end PRoot
