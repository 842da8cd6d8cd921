import PRoot.MemoryPaths
import PRoot.Owners

/-!
# The views of the fake ids

How a tracee gets the ids that `fake_id0` keeps for it: from `getuid` and its kin, from the words
that `getresuid` and `getresgid` store, and from the auxiliary vector after an `execve`.

* `handleGetresXidExitEnd`: the words that are stored;
* `adjustElfAuxv`: the auxiliary vector, in memory (`execve/auxv.c`);
* `GetresShows`, `AuxvShows`: what the tracee is to see;
* `id_views_agree_iff`: when it sees the ids that are kept.
-/

namespace PRoot

open Linux

/-- The calls that return an id. -/
inductive GetIdCall
  | getuid | geteuid | getgid | getegid
  deriving DecidableEq, Repr

section

variable {host : Host}

/-- `getuid`, `geteuid`, `getgid` and `getegid` in `handle_sysexit_end`: the result. -/
def Config.getId (config : Config) : GetIdCall → Id
  | .getuid => config.user.real
  | .geteuid => config.user.effective
  | .getgid => config.group.real
  | .getegid => config.group.effective

/-- `POKE_MEM_ID`: it is `poke_uint16` that is used. -/
def pokeMemId (m : Space host) (a : Address host) (id : Id) : Except Errno (Space host) :=
  match m.store a (wordBytes 2 id.toNat) with
  | none => .error .EFAULT
  | some m => .ok m

/-- `handle_getresuid_exit_end` and `handle_getresgid_exit_end`. -/
def handleGetresXidExitEnd (ids : Ids) (m : Space host) (a₁ a₂ a₃ : Address host) :
    Except Errno (Space host) := do
  let m ← pokeMemId m a₁ ids.real
  let m ← pokeMemId m a₂ ids.effective
  pokeMemId m a₃ ids.saved

/-! ## The auxiliary vector

A word has `w` bytes. -/

/-- `ElfAuxVector`. -/
structure ElfAuxVector where
  type : Nat
  value : Nat
  deriving DecidableEq, Repr

variable (w : Nat)

/-- `peek_word`. -/
def peekWordAt (m : Space host) (a : Address host) : Option Nat :=
  (m.load a w).map littleEndian

/-- `poke_word`. -/
def pokeWordAt (m : Space host) (a : Address host) (value : Nat) : Option (Space host) :=
  m.store a (wordBytes w value)

/-- "Skip: envp, 0". -/
def skipEnvp (m : Space host) : Nat → Address host → Option (Address host)
  | 0, _ => none
  | fuel + 1, address =>
      match peekWordAt w m address with
      | none => none
      | some data => if data ≠ 0 then skipEnvp m fuel (address.plus w) else some (address.plus w)

/-- `get_elf_aux_vectors_address`. -/
def getElfAuxVectorsAddress (m : Space host) (fuel : Nat) (stackPointer : Address host) :
    Option (Address host) := do
  let data ← peekWordAt w m stackPointer
  skipEnvp w m fuel (stackPointer.plus ((1 + data + 1) * w))

/-- `fetch_elf_aux_vectors`, without the sentinel. -/
def fetchElfAuxVectors (m : Space host) : Nat → Address host → Option (List ElfAuxVector)
  | 0, _ => none
  | fuel + 1, address => do
      let type ← peekWordAt w m address
      if type = 0 then some []
      else
        let value ← peekWordAt w m (address.plus w)
        let vectors ← fetchElfAuxVectors m fuel (address.plus (2 * w))
        some (⟨type, value⟩ :: vectors)

/-- `push_elf_aux_vectors`, as far as it gets. -/
def pushElfAuxVectors : List ElfAuxVector → Space host → Address host → Space host
  | [], m, address =>
      match pokeWordAt w m address 0 with
      | none => m
      | some m => (pokeWordAt w m (address.plus w) 0).getD m
  | vector :: vectors, m, address =>
      match pokeWordAt w m address vector.type with
      | none => m
      | some m =>
          match pokeWordAt w m (address.plus w) vector.value with
          | none => m
          | some m => pushElfAuxVectors vectors m (address.plus (2 * w))

/-- What `adjust_elf_auxv` makes of an entry. -/
def adjustVector (config : Config) (vector : ElfAuxVector) : ElfAuxVector :=
  match vector.type with
  | 11 => { vector with value := config.user.real.toNat }
  | 12 => { vector with value := config.user.effective.toNat }
  | 13 => { vector with value := config.group.real.toNat }
  | 14 => { vector with value := config.group.effective.toNat }
  | _ => vector

/-- `adjust_elf_auxv`. -/
def adjustElfAuxv (config : Config) (fuel : Nat) (m : Space host) (stackPointer : Address host) :
    Space host :=
  match getElfAuxVectorsAddress w m fuel stackPointer with
  | none => m
  | some address =>
      if address = 0 then m
      else
        match fetchElfAuxVectors w m fuel address with
        | none => m
        | some vectors => pushElfAuxVectors w (vectors.map (adjustVector config)) m address

/-- The memory after an `execve`: the vector is adjusted in `handle_sysexit_start`, unless there
is no loader to start the program. -/
def auxvAfterExecve (skipProotLoader : Bool) (config : Config) (fuel : Nat) (m : Space host)
    (stackPointer : Address host) : Space host :=
  if skipProotLoader then m else adjustElfAuxv w config fuel m stackPointer

/-! ## What a tracee is to see -/

/-- The words of `getresuid` or `getresgid` are the ids; a word that is not there is an error. -/
def GetresShows (ids : Ids) (m : Space host) (a₁ a₂ a₃ : Address host) : Prop :=
  if (peekUint32 m a₁).isSome ∧ (peekUint32 m a₂).isSome ∧ (peekUint32 m a₃).isSome then
    ∃ m', handleGetresXidExitEnd ids m a₁ a₂ a₃ = .ok m' ∧
      peekUint32 m' a₁ = some ids.real ∧ peekUint32 m' a₂ = some ids.effective ∧
        peekUint32 m' a₃ = some ids.saved
  else ∃ status, handleGetresXidExitEnd ids m a₁ a₂ a₃ = .error status

/-- An entry says the same as the calls. -/
def ElfAuxVector.Shows (config : Config) (vector : ElfAuxVector) : Prop :=
  (vector.type = 11 → vector.value = (config.getId .getuid).toNat) ∧
    (vector.type = 12 → vector.value = (config.getId .geteuid).toNat) ∧
    (vector.type = 13 → vector.value = (config.getId .getgid).toNat) ∧
    (vector.type = 14 → vector.value = (config.getId .getegid).toNat)

/-- Each entry of the vector in memory does. -/
def AuxvShows (config : Config) (fuel : Nat) (m : Space host) (address : Address host) : Prop :=
  ∃ vectors, fetchElfAuxVectors w m fuel address = some vectors ∧
    ∀ vector ∈ vectors, vector.Shows config

/-- The upper halves that the words have are those of the ids; and where a word is missing, so is
the lower half of one. -/
def UpperHalvesFit (ids : Ids) (m : Space host) (a₁ a₂ a₃ : Address host) : Prop :=
  match peekUint32 m a₁, peekUint32 m a₂, peekUint32 m a₃ with
  | some old₁, some old₂, some old₃ =>
      old₁ >>> 16 = ids.real >>> 16 ∧ old₂ >>> 16 = ids.effective >>> 16 ∧
        old₃ >>> 16 = ids.saved >>> 16
  | _, _, _ => m.load a₁ 2 = none ∨ m.load a₂ 2 = none ∨ m.load a₃ 2 = none

/-- What an `execve` needs: that the ids that the program's bits set were 0 before, or, where the
vector is left alone, that it shows the ids already. -/
def ExecveFits (skipProotLoader : Bool) (config : Config) (program : Linux.Program)
    (auxv : List ElfAuxVector) : Prop :=
  if skipProotLoader then ∀ vector ∈ auxv, vector.Shows (config.handleSysexitStart program)
  else
    ∀ vector ∈ auxv, (vector.type = 12 → program.setuid → config.user.effective = 0) ∧
      (vector.type = 14 → program.setgid → config.group.effective = 0)

/-- Two words have no byte in common. -/
def WordsApart (a b : Address host) : Prop := 4 ≤ (b - a).toNat ∧ 4 ≤ (a - b).toNat

instance (a b : Address host) : Decidable (WordsApart a b) := inferInstanceAs (Decidable (_ ∧ _))

instance (config : Config) (vector : ElfAuxVector) : Decidable (vector.Shows config) :=
  inferInstanceAs (Decidable (_ ∧ _ ∧ _ ∧ _))

/-! ## The words of `getresuid` -/

variable {m m' : Space host} {a b : Address host} {id old : Id} {ids : Ids}

theorem pokeMemId_eq_ok_iff :
    pokeMemId m a id = .ok m' ↔ m.store a (wordBytes 2 id.toNat) = some m' := by
  unfold pokeMemId
  cases m.store a (wordBytes 2 id.toNat) with
  | none => simp
  | some m₁ => simp

theorem pokeMemId_isSome (h : (m.load a 2).isSome) :
    ∃ m', pokeMemId m a id = .ok m' := by
  obtain ⟨m', hstore⟩ := Option.isSome_iff_exists.mp (show (m.store a
      (wordBytes 2 id.toNat)).isSome by
    rwa [AddressSpace.store_isSome_iff, wordBytes_length])
  exact ⟨m', pokeMemId_eq_ok_iff.mpr hstore⟩

theorem pokeMemId_error (h : m.load a 2 = none) : pokeMemId m a id = .error .EFAULT := by
  have hstore : m.store a (wordBytes 2 id.toNat) = none := by
    rw [← Option.not_isSome_iff_eq_none, AddressSpace.store_isSome_iff, wordBytes_length, h]
    exact Bool.false_ne_true
  unfold pokeMemId
  rw [hstore]

/-- A store of the lower half maps nothing. -/
theorem pokeMemId_mapped (h : pokeMemId m a id = .ok m') (k : Nat) :
    (m'.load b k).isSome = (m.load b k).isSome := by
  have hstore := pokeMemId_eq_ok_iff.mp h
  rw [Bool.eq_iff_iff, AddressSpace.load_isSome_iff, AddressSpace.load_isSome_iff]
  simp only [AddressSpace.store_mapped hstore]

theorem wordBytes_halves (value : Nat) :
    wordBytes 4 value = wordBytes 2 value ++ wordBytes 2 (value / 65536) := by
  simp only [wordBytes, Nat.div_div_eq_div_mul, List.cons_append, List.nil_append]

theorem upperHalves_eq_iff :
    wordBytes 2 (old.toNat / 65536) = wordBytes 2 (id.toNat / 65536) ↔
      old >>> 16 = id >>> 16 := by
  have hshift : ∀ value : UInt32, (value >>> 16).toNat = value.toNat / 65536 := by
    intro value
    rw [UInt32.toNat_shiftRight, Nat.shiftRight_eq_div_pow]
    rfl
  have hold := old.toNat_lt
  have hid := id.toNat_lt
  rw [← UInt32.toNat_inj, hshift, hshift]
  constructor
  · intro h
    have hvalues := congrArg littleEndian h
    rw [littleEndian_wordBytes, littleEndian_wordBytes] at hvalues
    omega
  · intro h
    rw [h]

/-- **A word whose lower half was stored** is the id if its upper half was that of the id. -/
theorem peek_pokeMemId_iff (h : pokeMemId m a id = .ok m') (hold : peekUint32 m a = some old) :
    peekUint32 m' a = some id ↔ old >>> 16 = id >>> 16 := by
  have hsize := word_size host
  have hstore := pokeMemId_eq_ok_iff.mp h
  have hword := peekUint32_eq_some_iff.mp hold
  have hlow := AddressSpace.load_store hstore (by rw [wordBytes_length]; omega)
  rw [wordBytes_length] at hlow
  have hhigh : m'.load (a.plus 2) 2 = some (wordBytes 2 (old.toNat / 65536)) := by
    rw [AddressSpace.load_store_apart hstore]
    · have hdrop := AddressSpace.load_drop hword (show 2 ≤ 4 by omega)
      rw [wordBytes_halves, List.drop_left' (wordBytes_length _ _)] at hdrop
      exact hdrop
    · intro i hi
      rw [wordBytes_length, AddressSpace.add_offset, AddressSpace.offset_toNat _ (by omega)]
      omega
  rw [peekUint32_eq_some_iff, AddressSpace.load_append hlow hhigh, wordBytes_halves,
    Option.some.injEq, List.append_right_inj, upperHalves_eq_iff]

/-- The distances of two addresses, up and down. -/
theorem sub_toNat_add_sub_toNat {n : Nat} {a b : BitVec n} (h : a ≠ b) :
    (a - b).toNat + (b - a).toNat = 2 ^ n := by
  have hne : a.toNat ≠ b.toNat := fun heq => h (BitVec.eq_of_toNat_eq heq)
  rcases Nat.lt_or_ge a.toNat b.toNat with hlt | hge
  · rw [BitVec.toNat_sub_of_le (Nat.le_of_lt hlt), BitVec.toNat_sub, Nat.mod_eq_of_lt (by omega)]
    omega
  · rw [BitVec.toNat_sub_of_le hge, BitVec.toNat_sub, Nat.mod_eq_of_lt (by omega)]
    omega

theorem peek_pokeMemId_apart (h : pokeMemId m a id = .ok m') (hapart : WordsApart a b) :
    peekUint32 m' b = peekUint32 m b := by
  have hstore := pokeMemId_eq_ok_iff.mp h
  unfold peekUint32
  rw [AddressSpace.load_store_apart hstore]
  intro i hi
  obtain ⟨hba, hab⟩ := hapart
  have haround := sub_toNat_add_sub_toNat (a := a) (b := b) (by
    rintro rfl
    rw [BitVec.sub_self] at hba
    simp at hba)
  rw [wordBytes_length, BitVec.add_sub_comm, BitVec.toNat_add, BitVec.toNat_ofNat,
    Nat.add_mod_mod, Nat.mod_eq_of_lt (by omega)]
  omega

theorem low_of_word (h : (peekUint32 m a).isSome) : (m.load a 2).isSome := by
  obtain ⟨old, hold⟩ := Option.isSome_iff_exists.mp h
  rw [AddressSpace.load_take (peekUint32_eq_some_iff.mp hold) (show 2 ≤ 4 by omega)]
  rfl

variable {a₁ a₂ a₃ : Address host}

theorem upperHalvesFit_iff {old₁ old₂ old₃ : Id} (h₁ : peekUint32 m a₁ = some old₁)
    (h₂ : peekUint32 m a₂ = some old₂) (h₃ : peekUint32 m a₃ = some old₃) :
    UpperHalvesFit ids m a₁ a₂ a₃ ↔
      old₁ >>> 16 = ids.real >>> 16 ∧ old₂ >>> 16 = ids.effective >>> 16 ∧
        old₃ >>> 16 = ids.saved >>> 16 := by
  unfold UpperHalvesFit
  rw [h₁, h₂, h₃]

/-- The stores are done when the lower halves are there. -/
theorem handleGetresXidExitEnd_ok (h₁ : (m.load a₁ 2).isSome) (h₂ : (m.load a₂ 2).isSome)
    (h₃ : (m.load a₃ 2).isSome) :
    ∃ m₁ m₂ m₃, pokeMemId m a₁ ids.real = .ok m₁ ∧ pokeMemId m₁ a₂ ids.effective = .ok m₂ ∧
      pokeMemId m₂ a₃ ids.saved = .ok m₃ ∧ handleGetresXidExitEnd ids m a₁ a₂ a₃ = .ok m₃ := by
  obtain ⟨m₁, hpoke₁⟩ := @pokeMemId_isSome host m a₁ ids.real h₁
  obtain ⟨m₂, hpoke₂⟩ := @pokeMemId_isSome host m₁ a₂ ids.effective
    (by rwa [pokeMemId_mapped hpoke₁])
  obtain ⟨m₃, hpoke₃⟩ := @pokeMemId_isSome host m₂ a₃ ids.saved
    (by rwa [pokeMemId_mapped hpoke₂, pokeMemId_mapped hpoke₁])
  refine ⟨m₁, m₂, m₃, hpoke₁, hpoke₂, hpoke₃, ?_⟩
  change Except.bind (pokeMemId m a₁ ids.real) _ = _
  rw [hpoke₁]
  change Except.bind (pokeMemId m₁ a₂ ids.effective) _ = _
  rw [hpoke₂]
  exact hpoke₃

/-- Else the call reports an error. -/
theorem handleGetresXidExitEnd_error
    (h : m.load a₁ 2 = none ∨ m.load a₂ 2 = none ∨ m.load a₃ 2 = none) :
    handleGetresXidExitEnd ids m a₁ a₂ a₃ = .error .EFAULT := by
  change Except.bind (pokeMemId m a₁ ids.real) _ = _
  cases hpoke₁ : pokeMemId m a₁ ids.real with
  | error status =>
      unfold pokeMemId at hpoke₁
      split at hpoke₁
      · cases hpoke₁
        rfl
      · cases hpoke₁
  | ok m₁ =>
      change Except.bind (pokeMemId m₁ a₂ ids.effective) _ = _
      cases hpoke₂ : pokeMemId m₁ a₂ ids.effective with
      | error status =>
          unfold pokeMemId at hpoke₂
          split at hpoke₂
          · cases hpoke₂
            rfl
          · cases hpoke₂
      | ok m₂ =>
          apply pokeMemId_error
          have hfirst : (m.load a₁ 2).isSome := by
            have hroom := (AddressSpace.store_eq_some_iff.mp (pokeMemId_eq_ok_iff.mp hpoke₁)).1
            rwa [wordBytes_length] at hroom
          have hsecond : (m.load a₂ 2).isSome := by
            have hroom := (AddressSpace.store_eq_some_iff.mp (pokeMemId_eq_ok_iff.mp hpoke₂)).1
            rwa [wordBytes_length, pokeMemId_mapped hpoke₁] at hroom
          rw [← Option.not_isSome_iff_eq_none, pokeMemId_mapped hpoke₂, pokeMemId_mapped hpoke₁]
          grind

/-- **The words of `getresuid`** are the ids exactly if their upper halves were. -/
theorem getresShows_iff (h₁₂ : WordsApart a₁ a₂) (h₁₃ : WordsApart a₁ a₃) (h₂₃ : WordsApart a₂ a₃) :
    GetresShows ids m a₁ a₂ a₃ ↔ UpperHalvesFit ids m a₁ a₂ a₃ := by
  unfold GetresShows UpperHalvesFit
  by_cases hall : (peekUint32 m a₁).isSome ∧ (peekUint32 m a₂).isSome ∧ (peekUint32 m a₃).isSome
  · rw [if_pos hall]
    obtain ⟨hsome₁, hsome₂, hsome₃⟩ := hall
    obtain ⟨m₁, m₂, m₃, hpoke₁, hpoke₂, hpoke₃, hok⟩ :=
      @handleGetresXidExitEnd_ok host m ids a₁ a₂ a₃ (low_of_word hsome₁) (low_of_word hsome₂)
        (low_of_word hsome₃)
    obtain ⟨old₁, hold₁⟩ := Option.isSome_iff_exists.mp hsome₁
    obtain ⟨old₂, hold₂⟩ := Option.isSome_iff_exists.mp hsome₂
    obtain ⟨old₃, hold₃⟩ := Option.isSome_iff_exists.mp hsome₃
    rw [hok]
    -- Each word is stored once, and left by the other stores.
    have h₂₁ : WordsApart a₂ a₁ := h₁₂.symm
    have h₃₁ : WordsApart a₃ a₁ := h₁₃.symm
    have h₃₂ : WordsApart a₃ a₂ := h₂₃.symm
    have hword₁ : peekUint32 m₃ a₁ = some ids.real ↔ old₁ >>> 16 = ids.real >>> 16 := by
      rw [peek_pokeMemId_apart hpoke₃ h₃₁, peek_pokeMemId_apart hpoke₂ h₂₁,
        peek_pokeMemId_iff hpoke₁ hold₁]
    have hword₂ : peekUint32 m₃ a₂ = some ids.effective ↔
        old₂ >>> 16 = ids.effective >>> 16 := by
      rw [peek_pokeMemId_apart hpoke₃ h₃₂]
      exact peek_pokeMemId_iff hpoke₂ (by rw [peek_pokeMemId_apart hpoke₁ h₁₂, hold₂])
    have hword₃ : peekUint32 m₃ a₃ = some ids.saved ↔ old₃ >>> 16 = ids.saved >>> 16 :=
      peek_pokeMemId_iff hpoke₃ (by
        rw [peek_pokeMemId_apart hpoke₂ h₂₃, peek_pokeMemId_apart hpoke₁ h₁₃, hold₃])
    have hfit := @upperHalvesFit_iff host m ids a₁ a₂ a₃ old₁ old₂ old₃ hold₁ hold₂ hold₃
    unfold UpperHalvesFit at hfit
    simp only [Except.ok.injEq, exists_eq_left', hword₁, hword₂, hword₃, hfit]
  · rw [if_neg hall]
    have hfit : (match peekUint32 m a₁, peekUint32 m a₂, peekUint32 m a₃ with
        | some old₁, some old₂, some old₃ =>
            old₁ >>> 16 = ids.real >>> 16 ∧ old₂ >>> 16 = ids.effective >>> 16 ∧
              old₃ >>> 16 = ids.saved >>> 16
        | _, _, _ => m.load a₁ 2 = none ∨ m.load a₂ 2 = none ∨ m.load a₃ 2 = none) ↔
        (m.load a₁ 2 = none ∨ m.load a₂ 2 = none ∨ m.load a₃ 2 = none) := by
      split
      case h_1 hold₁ hold₂ hold₃ => simp [hold₁, hold₂, hold₃] at hall
      case h_2 => rfl
    rw [hfit]
    constructor
    · rintro ⟨status, herror⟩
      by_contra hlow
      simp only [not_or, ← ne_eq, ← Option.isSome_iff_ne_none] at hlow
      obtain ⟨m₁, m₂, m₃, -, -, -, hok⟩ :=
        @handleGetresXidExitEnd_ok host m ids a₁ a₂ a₃ hlow.1 hlow.2.1 hlow.2.2
      rw [hok] at herror
      cases herror
    · intro hlow
      exact ⟨_, handleGetresXidExitEnd_error hlow⟩

/-! ## The auxiliary vector in memory -/

/-- Words in a row. -/
def WordRow (m : Space host) (a : Address host) (row : List Nat) : Prop :=
  m.load a (row.length * w) = some (row.flatMap (wordBytes w))

/-- The words of a vector, with its end. -/
def auxvWords (vectors : List ElfAuxVector) : List Nat :=
  vectors.flatMap (fun vector => [vector.type, vector.value]) ++ [0, 0]

/-- What the kernel leaves at the stack pointer of a program. -/
def stackWords (argv envp : List Nat) (auxv : List ElfAuxVector) : List Nat :=
  argv.length :: (argv ++ 0 :: (envp ++ 0 :: auxvWords auxv))

/-- Where the vector is. -/
def auxvAddress (stackPointer : Address host) (argv envp : List Nat) : Address host :=
  stackPointer.plus ((1 + argv.length + 1 + envp.length + 1) * w)

/-- The stack of a program that starts. -/
structure ProgramStack (m : Space host) (stackPointer : Address host) (argv envp : List Nat)
    (auxv : List ElfAuxVector) : Prop where
  row : WordRow w m stackPointer (stackWords argv envp auxv)
  room : (stackWords argv envp auxv).length * w ≤ 2 ^ (8 * host.word)
  words : ∀ value ∈ stackWords argv envp auxv, value < 256 ^ w
  envp_ne : ∀ value ∈ envp, value ≠ 0
  type_ne : ∀ vector ∈ auxv, vector.type ≠ 0
  address_ne : auxvAddress w stackPointer argv envp ≠ 0

variable {w} {value : Nat} {row rest : List Nat} {argv envp : List Nat} {auxv : List ElfAuxVector}
  {config : Config} {fuel : Nat}

theorem wordRow_cons_iff : WordRow w m a (value :: row) ↔
    m.load a w = some (wordBytes w value) ∧ WordRow w m (a.plus w) row := by
  unfold WordRow
  rw [List.length_cons, Nat.add_comm row.length, Nat.add_mul, Nat.one_mul, AddressSpace.load_add,
    List.flatMap_cons]
  constructor
  · intro h
    obtain ⟨first, hfirst, hrest⟩ := Option.bind_eq_some_iff.mp h
    obtain ⟨others, hothers, happend⟩ := Option.map_eq_some_iff.mp hrest
    have hlength := AddressSpace.load_length hfirst
    obtain ⟨rfl, rfl⟩ := List.append_inj happend (by rw [hlength, wordBytes_length])
    exact ⟨hfirst, hothers⟩
  · rintro ⟨hfirst, hrest⟩
    rw [hfirst, Option.bind_some]
    exact Option.map_eq_some_iff.mpr ⟨_, hrest, rfl⟩

/-- The words behind the first ones. -/
theorem WordRow.drop (h : WordRow w m a (row ++ rest)) : WordRow w m (a.plus (row.length * w)) rest := by
  induction row generalizing a with
  | nil => simpa using h
  | cons value row ih =>
      have hrest := ih (wordRow_cons_iff.mp h).2
      rwa [plus_plus, Nat.add_comm, ← Nat.succ_mul] at hrest

theorem WordRow.peek (h : WordRow w m a (value :: row)) (hvalue : value < 256 ^ w) :
    peekWordAt w m a = some value := by
  unfold peekWordAt
  rw [(wordRow_cons_iff.mp h).1, Option.map_some, littleEndian_wordBytes, Nat.mod_eq_of_lt hvalue]

theorem skipEnvp_row (h : WordRow w m a (envp ++ 0 :: rest)) (hne : ∀ value ∈ envp, value ≠ 0)
    (hwords : ∀ value ∈ envp, value < 256 ^ w) (hfuel : envp.length < fuel) :
    skipEnvp w m fuel a = some (a.plus ((envp.length + 1) * w)) := by
  induction envp generalizing a fuel with
  | nil =>
      obtain ⟨fuel, rfl⟩ := Nat.exists_eq_add_one_of_ne_zero (Nat.ne_zero_of_lt hfuel)
      have hpeek := WordRow.peek h (Nat.pow_pos (by decide))
      unfold skipEnvp
      rw [hpeek]
      simp
  | cons value envp ih =>
      obtain ⟨fuel, rfl⟩ := Nat.exists_eq_add_one_of_ne_zero (Nat.ne_zero_of_lt hfuel)
      have hpeek := WordRow.peek h (hwords value List.mem_cons_self)
      have hrest := @ih (a.plus w) fuel (wordRow_cons_iff.mp h).2
        (fun v hv => hne v (List.mem_cons_of_mem _ hv))
        (fun v hv => hwords v (List.mem_cons_of_mem _ hv)) (Nat.lt_of_succ_lt_succ hfuel)
      unfold skipEnvp
      rw [hpeek]
      dsimp only
      rw [if_pos (hne value List.mem_cons_self), hrest, plus_plus, List.length_cons,
        Nat.succ_mul (envp.length + 1), Nat.add_comm w]

theorem fetchElfAuxVectors_row (h : WordRow w m a (auxvWords auxv))
    (hne : ∀ vector ∈ auxv, vector.type ≠ 0) (hwords : ∀ value ∈ auxvWords auxv, value < 256 ^ w)
    (hfuel : auxv.length < fuel) : fetchElfAuxVectors w m fuel a = some auxv := by
  induction auxv generalizing a fuel with
  | nil =>
      obtain ⟨fuel, rfl⟩ := Nat.exists_eq_add_one_of_ne_zero (Nat.ne_zero_of_lt hfuel)
      unfold fetchElfAuxVectors
      rw [WordRow.peek h (Nat.pow_pos (by decide))]
      rfl
  | cons vector auxv ih =>
      obtain ⟨fuel, rfl⟩ := Nat.exists_eq_add_one_of_ne_zero (Nat.ne_zero_of_lt hfuel)
      have htype := WordRow.peek h (hwords _ (by simp [auxvWords]))
      have hrow := (wordRow_cons_iff.mp h).2
      have hvalue := WordRow.peek hrow (hwords _ (by simp [auxvWords]))
      have hnext := (wordRow_cons_iff.mp hrow).2
      rw [plus_plus, ← Nat.two_mul] at hnext
      have hrest := @ih (a.plus (2 * w)) fuel hnext
        (fun v hv => hne v (List.mem_cons_of_mem _ hv))
        (fun v hv => hwords v (by
          simp only [auxvWords, List.flatMap_cons, List.cons_append] at hv ⊢
          exact List.mem_cons_of_mem _ (List.mem_cons_of_mem _ hv)))
        (Nat.lt_of_succ_lt_succ hfuel)
      unfold fetchElfAuxVectors
      rw [htype, Option.bind_eq_bind, Option.bind_some, if_neg (hne vector List.mem_cons_self),
        hvalue, Option.bind_eq_bind, Option.bind_some, hrest]
      rfl

theorem pokeWordAt_isSome (h : (m.load a w).isSome) : ∃ m', pokeWordAt w m a value = some m' := by
  apply Option.isSome_iff_exists.mp
  unfold pokeWordAt
  rwa [AddressSpace.store_isSome_iff, wordBytes_length]

theorem pokeWordAt_mapped (h : pokeWordAt w m a value = some m') (k : Nat) :
    (m'.load b k).isSome = (m.load b k).isSome := by
  rw [Bool.eq_iff_iff, AddressSpace.load_isSome_iff, AddressSpace.load_isSome_iff]
  simp only [AddressSpace.store_mapped h]

/-- Two words are written one after the other. -/
theorem pokeWordAt_pair {first second : Nat} (hroom : (m.load a (2 * w)).isSome)
    (hsize : 2 * w ≤ 2 ^ (8 * host.word)) :
    ∃ m₁ m₂, pokeWordAt w m a first = some m₁ ∧ pokeWordAt w m₁ (a.plus w) second = some m₂ ∧
      m.store a (wordBytes w first ++ wordBytes w second) = some m₂ := by
  obtain ⟨bytes, hbytes⟩ := Option.isSome_iff_exists.mp hroom
  obtain ⟨m₁, hfirst⟩ := @pokeWordAt_isSome host w m a first
    (by rw [AddressSpace.load_take hbytes (by omega)]; rfl)
  have hdrop := AddressSpace.load_drop hbytes (show w ≤ 2 * w by omega)
  rw [show 2 * w - w = w by omega] at hdrop
  obtain ⟨m₂, hsecond⟩ := @pokeWordAt_isSome host w m₁ (a.plus w) second
    (by rw [pokeWordAt_mapped hfirst, hdrop]; rfl)
  refine ⟨m₁, m₂, hfirst, hsecond, ?_⟩
  apply AddressSpace.store_append hfirst
  · rw [wordBytes_length]
    exact hsecond
  · rw [List.length_append, wordBytes_length, wordBytes_length]
    omega

/-- **The vector is written where there is room for it.** -/
theorem store_pushElfAuxVectors (hroom : (m.load a ((auxvWords auxv).length * w)).isSome)
    (hsize : (auxvWords auxv).length * w ≤ 2 ^ (8 * host.word)) :
    m.store a ((auxvWords auxv).flatMap (wordBytes w)) = some (pushElfAuxVectors w auxv m a) := by
  induction auxv generalizing m a with
  | nil =>
      obtain ⟨m₁, m₂, hfirst, hsecond, hstore⟩ :=
        @pokeWordAt_pair host w m a 0 0 hroom hsize
      simp only [auxvWords, List.flatMap_nil, List.nil_append, List.flatMap_cons, List.append_nil]
      rw [hstore]
      unfold pushElfAuxVectors
      rw [hfirst]
      dsimp only
      rw [hsecond]
      rfl
  | cons vector auxv ih =>
      have hlength : (auxvWords (vector :: auxv)).length * w =
          2 * w + (auxvWords auxv).length * w := by
        rw [← Nat.add_mul, Nat.add_comm 2]
        rfl
      rw [hlength] at hroom hsize
      obtain ⟨bytes, hbytes⟩ := Option.isSome_iff_exists.mp hroom
      obtain ⟨m₁, m₂, hfirst, hsecond, hstore⟩ :=
        @pokeWordAt_pair host w m a vector.type vector.value
          (by rw [AddressSpace.load_take hbytes (by omega)]; rfl) (by omega)
      have hdrop := AddressSpace.load_drop hbytes
        (show 2 * w ≤ 2 * w + (auxvWords auxv).length * w by omega)
      rw [Nat.add_sub_cancel_left] at hdrop
      have hrest := @ih m₂ (a.plus (2 * w))
        (by
          rw [pokeWordAt_mapped hsecond, pokeWordAt_mapped hfirst, hdrop]
          rfl)
        (by omega)
      have hpush : pushElfAuxVectors w (vector :: auxv) m a =
          pushElfAuxVectors w auxv m₂ (a.plus (2 * w)) := by
        rw [pushElfAuxVectors, hfirst]
        dsimp only
        rw [hsecond]
      have hwords : (auxvWords (vector :: auxv)).flatMap (wordBytes w) =
          (wordBytes w vector.type ++ wordBytes w vector.value) ++
            (auxvWords auxv).flatMap (wordBytes w) := by
        simp only [auxvWords, List.flatMap_cons, List.cons_append, List.nil_append,
          List.append_assoc]
      rw [hpush, hwords]
      apply AddressSpace.store_append hstore
      · rw [List.length_append, wordBytes_length, wordBytes_length, ← Nat.two_mul]
        exact hrest
      · rw [List.length_append, List.length_append, wordBytes_length, wordBytes_length,
          rowBytes_length]
        omega

variable {sp : Address host}

/-- The address of the vector is found. -/
theorem getElfAuxVectorsAddress_stack (h : ProgramStack w m sp argv envp auxv)
    (hfuel : envp.length < fuel) :
    getElfAuxVectorsAddress w m fuel sp = some (auxvAddress w sp argv envp) := by
  have hargc := WordRow.peek h.row (h.words _ List.mem_cons_self)
  have hargv : WordRow w m ((sp.plus w).plus ((argv.length + 1) * w))
      (envp ++ 0 :: auxvWords auxv) := by
    have hrest := (wordRow_cons_iff.mp h.row).2
    rw [← List.singleton_append, ← List.append_assoc] at hrest
    have hdrop := WordRow.drop hrest
    rwa [List.length_append, List.length_singleton] at hdrop
  have hskip := skipEnvp_row hargv h.envp_ne
    (fun value hvalue => h.words value (by simp [stackWords, hvalue])) hfuel
  unfold getElfAuxVectorsAddress auxvAddress
  rw [hargc, Option.bind_eq_bind, Option.bind_some,
    show (1 + argv.length + 1) * w = w + (argv.length + 1) * w by
      rw [Nat.add_assoc, Nat.add_mul, Nat.one_mul], ← plus_plus, hskip, plus_plus, plus_plus]
  congr 2
  simp only [Nat.add_mul]
  omega

/-- The vector is at its address. -/
theorem ProgramStack.auxvRow (h : ProgramStack w m sp argv envp auxv) :
    WordRow w m (auxvAddress w sp argv envp) (auxvWords auxv) := by
  have hrow := h.row
  rw [stackWords, show argv.length :: (argv ++ 0 :: (envp ++ 0 :: auxvWords auxv)) =
    (argv.length :: (argv ++ 0 :: (envp ++ [0]))) ++ auxvWords auxv by simp] at hrow
  have hdrop := WordRow.drop hrow
  unfold auxvAddress
  rwa [show (argv.length :: (argv ++ 0 :: (envp ++ [0]))).length =
    1 + argv.length + 1 + envp.length + 1 by simp; omega] at hdrop

theorem adjustVector_type (vector : ElfAuxVector) :
    (adjustVector config vector).type = vector.type := by
  unfold adjustVector
  split <;> rfl

/-- The vector has as many words as before. -/
theorem auxvWords_length (vectors : List ElfAuxVector) :
    (auxvWords vectors).length = 2 * vectors.length + 2 := by
  induction vectors with
  | nil => rfl
  | cons vector vectors ih =>
      simp only [auxvWords, List.flatMap_cons, List.length_append, List.length_cons,
        List.length_nil] at ih ⊢
      omega

/-- An id is a word. -/
theorem id_lt_word (hw : 4 ≤ w) (id : Id) : id.toNat < 256 ^ w := by
  have hid := id.toNat_lt
  have hpow : 256 ^ 4 ≤ 256 ^ w := Nat.pow_le_pow_right (by decide) hw
  omega

theorem adjustVector_value_lt (hw : 4 ≤ w) {vector : ElfAuxVector}
    (hvector : vector.value < 256 ^ w) : (adjustVector config vector).value < 256 ^ w := by
  unfold adjustVector
  split
  · exact id_lt_word hw _
  · exact id_lt_word hw _
  · exact id_lt_word hw _
  · exact id_lt_word hw _
  · exact hvector

theorem auxvWords_lt_iff : (∀ value ∈ auxvWords auxv, value < 256 ^ w) ↔
    ∀ vector ∈ auxv, vector.type < 256 ^ w ∧ vector.value < 256 ^ w := by
  unfold auxvWords
  grind

/-- **The vector after an `execve`** is the one that was adjusted. -/
theorem fetch_adjustElfAuxv (h : ProgramStack w m sp argv envp auxv) (hw : 4 ≤ w)
    (henvp : envp.length < fuel) (hauxv : auxv.length < fuel) :
    fetchElfAuxVectors w (adjustElfAuxv w config fuel m sp) fuel (auxvAddress w sp argv envp) =
      some (auxv.map (adjustVector config)) := by
  have hwords : ∀ value ∈ auxvWords auxv, value < 256 ^ w :=
    fun value hvalue => h.words value (by simp [stackWords, hvalue])
  have hfetch := fetchElfAuxVectors_row h.auxvRow h.type_ne hwords hauxv
  have hadjust : adjustElfAuxv w config fuel m sp =
      pushElfAuxVectors w (auxv.map (adjustVector config)) m (auxvAddress w sp argv envp) := by
    unfold adjustElfAuxv
    rw [getElfAuxVectorsAddress_stack h henvp]
    dsimp only
    rw [if_neg h.address_ne, hfetch]
  have hlength : (auxvWords (auxv.map (adjustVector config))).length =
      (auxvWords auxv).length := by
    rw [auxvWords_length, auxvWords_length, List.length_map]
  have hroom : (auxvWords auxv).length * w ≤ 2 ^ (8 * host.word) := by
    have hle : (auxvWords auxv).length ≤ (stackWords argv envp auxv).length := by
      simp only [stackWords, List.length_cons, List.length_append]
      omega
    exact Nat.le_trans (Nat.mul_le_mul_right w hle) h.room
  have hstore := @store_pushElfAuxVectors host w m (auxvAddress w sp argv envp)
    (auxv.map (adjustVector config))
    (by
      rw [hlength, h.auxvRow]
      rfl)
    (by rwa [hlength])
  rw [hadjust]
  apply fetchElfAuxVectors_row
  · unfold WordRow
    rw [← rowBytes_length]
    exact AddressSpace.load_store hstore (by rwa [rowBytes_length, hlength])
  · intro vector hvector
    obtain ⟨old, hold, rfl⟩ := List.mem_map.mp hvector
    rw [adjustVector_type]
    exact h.type_ne old hold
  · rw [auxvWords_lt_iff] at hwords ⊢
    intro vector hvector
    obtain ⟨old, hold, rfl⟩ := List.mem_map.mp hvector
    rw [adjustVector_type]
    exact ⟨(hwords old hold).1, adjustVector_value_lt hw (hwords old hold).2⟩
  · rwa [List.length_map]

/-- An entry that was adjusted shows the ids, unless one of the program's bits has set another. -/
theorem adjustVector_shows_iff {program : Linux.Program} {vector : ElfAuxVector} :
    (adjustVector config vector).Shows (config.handleSysexitStart program) ↔
      (vector.type = 12 → program.setuid → config.user.effective = 0) ∧
        (vector.type = 14 → program.setgid → config.group.effective = 0) := by
  unfold ElfAuxVector.Shows Config.getId
  rw [Config.handleSysexitStart_user, Config.handleSysexitStart_group, adjustVector_type]
  unfold adjustVector
  split
  case h_1 htype => cases program.setuid <;> simp [htype]
  case h_2 htype =>
    cases program.setuid with
    | false => simp [htype]
    | true => simp [htype, ← UInt32.toNat_inj]
  case h_3 htype => cases program.setgid <;> simp [htype]
  case h_4 htype =>
    cases program.setgid with
    | false => simp [htype]
    | true => simp [htype, ← UInt32.toNat_inj]
  case h_5 h₁ h₂ h₃ h₄ =>
      simp only [show vector.type ≠ 11 from h₁, show vector.type ≠ 12 from h₂,
        show vector.type ≠ 13 from h₃, show vector.type ≠ 14 from h₄, false_implies, and_self]

/-- **The vector shows the ids** exactly if the `execve` needed nothing else. -/
theorem auxvShows_iff {program : Linux.Program} {skipProotLoader : Bool}
    (h : ProgramStack w m sp argv envp auxv) (hw : 4 ≤ w) (henvp : envp.length < fuel)
    (hauxv : auxv.length < fuel) :
    AuxvShows w (config.handleSysexitStart program) fuel
        (auxvAfterExecve w skipProotLoader config fuel m sp) (auxvAddress w sp argv envp) ↔
      ExecveFits skipProotLoader config program auxv := by
  unfold AuxvShows auxvAfterExecve ExecveFits
  cases skipProotLoader with
  | true =>
      have hfetch := fetchElfAuxVectors_row h.auxvRow h.type_ne
        (fun value hvalue => h.words value (by simp [stackWords, hvalue])) hauxv
      simp only [if_true, hfetch, Option.some.injEq, exists_eq_left']
  | false =>
      simp only [Bool.false_eq_true, if_false, fetch_adjustElfAuxv h hw henvp hauxv,
        Option.some.injEq, exists_eq_left', List.forall_mem_map, adjustVector_shows_iff]

/-! ## All the views -/

/-- **The views of the fake ids agree** exactly if the halves that are not stored were right and
the `execve` has set no id behind the vector. -/
theorem id_views_agree_iff {program : Linux.Program} {skipProotLoader : Bool}
    {mUser mGroup : Space host} {a₁ a₂ a₃ b₁ b₂ b₃ sp : Address host}
    (ha₁₂ : WordsApart a₁ a₂) (ha₁₃ : WordsApart a₁ a₃) (ha₂₃ : WordsApart a₂ a₃)
    (hb₁₂ : WordsApart b₁ b₂) (hb₁₃ : WordsApart b₁ b₃) (hb₂₃ : WordsApart b₂ b₃)
    (hstack : ProgramStack w m sp argv envp auxv) (hw : 4 ≤ w) (henvp : envp.length < fuel)
    (hauxv : auxv.length < fuel) :
    (GetresShows (config.handleSysexitStart program).user mUser a₁ a₂ a₃ ∧
      GetresShows (config.handleSysexitStart program).group mGroup b₁ b₂ b₃ ∧
      AuxvShows w (config.handleSysexitStart program) fuel
        (auxvAfterExecve w skipProotLoader config fuel m sp) (auxvAddress w sp argv envp)) ↔
    UpperHalvesFit (config.handleSysexitStart program).user mUser a₁ a₂ a₃ ∧
      UpperHalvesFit (config.handleSysexitStart program).group mGroup b₁ b₂ b₃ ∧
      ExecveFits skipProotLoader config program auxv := by
  rw [getresShows_iff ha₁₂ ha₁₃ ha₂₃, getresShows_iff hb₁₂ hb₁₃ hb₂₃,
    auxvShows_iff hstack hw henvp hauxv]

end

/-- The vector of a program that the user `100000` starts. -/
def someAuxv : List ElfAuxVector := [⟨11, 100000⟩, ⟨12, 100000⟩, ⟨13, 100⟩, ⟨14, 100⟩]

/-- Its stack, without arguments. -/
def someStack : Space .ARCH_X86_64 := spaceOf ((stackWords [] [] someAuxv).flatMap (wordBytes 8))

theorem someStack_program : ProgramStack 8 someStack 0 [] [] someAuxv where
  row := by
    unfold WordRow
    decide
  room := by decide
  words := by decide
  envp_ne := by decide
  type_ne := by decide
  address_ne := by decide

/-- Three words, as the kernel writes them. -/
def threeWords (id : Id) : Space .ARCH_X86_64 :=
  spaceOf (wordBytes 4 id.toNat ++ wordBytes 4 id.toNat ++ wordBytes 4 id.toNat)

theorem threeWords_1000 : peekUint32 (threeWords 1000) 0 = some 1000 ∧
    peekUint32 (threeWords 1000) 4 = some 1000 ∧ peekUint32 (threeWords 1000) 8 = some 1000 := by
  decide

/-- A program whose bits set both ids. -/
def someProgram : Linux.Program := ⟨true, true, false, 0, 0⟩

theorem id_views_agree_iff_root :
    (GetresShows ((Config.initial 0 0).handleSysexitStart someProgram).user (threeWords 1000)
        0 4 8 ∧
      GetresShows ((Config.initial 0 0).handleSysexitStart someProgram).group (threeWords 1000)
        0 4 8 ∧
      AuxvShows 8 ((Config.initial 0 0).handleSysexitStart someProgram) 5
        (auxvAfterExecve 8 false (.initial 0 0) 5 someStack 0) (auxvAddress 8 0 [] [])) :=
  (id_views_agree_iff (by decide) (by decide) (by decide) (by decide) (by decide) (by decide)
    someStack_program (by decide) (by decide) (by decide)).mpr
    ⟨(upperHalvesFit_iff threeWords_1000.1 threeWords_1000.2.1 threeWords_1000.2.2).mpr
        (by decide),
      (upperHalvesFit_iff threeWords_1000.1 threeWords_1000.2.1 threeWords_1000.2.2).mpr
        (by decide), by unfold ExecveFits; decide⟩

/-- The user `100000` is `0` for the tracee: `getresuid` shows `65536`. -/
theorem id_views_differ :
    ¬ ∀ (ids : Ids) (m : Space .ARCH_X86_64) (a₁ a₂ a₃ : Address .ARCH_X86_64),
      WordsApart a₁ a₂ → WordsApart a₁ a₃ → WordsApart a₂ a₃ → GetresShows ids m a₁ a₂ a₃ := by
  intro h
  have hshows := h (Config.initial 0 0).user (threeWords 100000) 0 4 8 (by decide) (by decide)
    (by decide)
  rw [getresShows_iff (by decide) (by decide) (by decide),
    @upperHalvesFit_iff _ _ _ 0 4 8 100000 100000 100000 (by decide) (by decide)
      (by decide)] at hshows
  revert hshows
  decide

end PRoot
