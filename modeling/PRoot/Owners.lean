import PRoot.FakeIds
import PRoot.MemoryAccess
import PRoot.WordBytes

/-!
# The owner of a file

What `fake_id0` makes of the owner of a file, in the results of `stat` (`extension/fake_id0/stat.c`)
and of `statx` (`tracee/statx.c`), which the kernel executes or PRoot emulates.

* `handleStatExitEnd`: the owner in a `struct stat`;
* `handleStatxSyscall`: the owner in a `struct statx`;
* `shown`: the owner that is to be shown;
* `owners_agree_iff`: when all of them show it.
-/

namespace PRoot

open Linux

section

variable {host : Host}

/-- `peek_uint32`; a few bytes are transferred when all of them are mapped. -/
def peekUint32 (m : Space host) (a : Address host) : Option UInt32 :=
  (m.load a 4).map fun bytes => UInt32.ofNat (littleEndian bytes)

/-- `poke_uint32`. -/
def pokeUint32 (m : Space host) (a : Address host) (value : UInt32) : Option (Space host) :=
  m.store a (wordBytes 4 value.toNat)

/-- `offsetof_stat_uid`. -/
def offsetofStatUid (host : Host) (abi : Abi) : Nat :=
  if is32on64Mode host abi then 24
  else
    match host with
    | .ARCH_X86_64 => 28
    | _ => 24

/-- `offsetof_stat_gid`. -/
def offsetofStatGid (host : Host) (abi : Abi) : Nat :=
  if is32on64Mode host abi then 28
  else
    match host with
    | .ARCH_X86_64 => 32
    | _ => 28

/-- The ids that PRoot itself has. -/
structure OwnIds where
  uid : Id
  gid : Id

variable (own : OwnIds) (config : Config)

/-- One half of `handle_stat_exit_end`: an id that is PRoot's own is replaced.  What cannot be
read counts as `0`, and what cannot be written is left. -/
def overrideId (m : Space host) (a : Address host) (own saved : Id) (read : Id) : Space host :=
  if read = own then (pokeUint32 m a saved).getD m else m

/-- `handle_stat_exit_end`. -/
def handleStatExitEnd (abi : Abi) (m : Space host) (result : BitVec 64) (address : Address host) :
    Space host :=
  if result ≠ 0 then m
  else
    let uidAddress := address.plus (offsetofStatUid host abi)
    let gidAddress := address.plus (offsetofStatGid host abi)
    let uid := (peekUint32 m uidAddress).getD 0
    let gid := (peekUint32 m gidAddress).getD 0
    let m := overrideId m uidAddress own.uid config.user.saved uid
    overrideId m gidAddress own.gid config.group.saved gid

/-- `struct stat`, as PRoot gets it of a file. -/
structure HostStat where
  mode : Nat
  nlink : Nat
  uid : Id
  gid : Id
  rdevMajor : Nat
  rdevMinor : Nat
  size : Nat
  blksize : Nat
  blocks : Nat
  ino : Nat
  atim : Nat × Nat
  mtim : Nat × Nat
  ctim : Nat × Nat

/-- `struct statx_timestamp`. -/
def statxTimestamp (asked : Bool) (tim : Nat × Nat) : Bytes :=
  if asked then wordBytes 8 tim.1 ++ wordBytes 4 tim.2 ++ wordBytes 4 0 else List.replicate 16 0

/-- A field that is there when it was asked for. -/
def askedField (mask : UInt32) (size : Nat) (bits : UInt32) (value : Nat) : Bytes :=
  wordBytes size (if mask &&& bits ≠ 0 then value else 0)

/-- The fields after the owner. -/
def statxAfterOwner (mask : UInt32) (stat : HostStat) : Bytes :=
  askedField mask 2 0x3 stat.mode ++ wordBytes 2 0
    ++ askedField mask 8 0x100 stat.ino ++ askedField mask 8 0x200 stat.size
    ++ askedField mask 8 0x400 stat.blocks ++ wordBytes 8 0
    ++ statxTimestamp (mask &&& 0x20 ≠ 0) stat.atim
    -- "stat() doesn't expose this, take ctime"
    ++ statxTimestamp (mask &&& 0x800 ≠ 0) stat.ctim
    ++ statxTimestamp (mask &&& 0x80 ≠ 0) stat.ctim
    ++ statxTimestamp (mask &&& 0x40 ≠ 0) stat.mtim
    ++ wordBytes 4 stat.rdevMajor ++ wordBytes 4 stat.rdevMinor ++ List.replicate 120 0

/-- "Translate results from stat to statx". -/
def statxOfStat (mask : UInt32) (stat : HostStat) : Bytes :=
  wordBytes 4 (mask &&& 0xfff).toNat ++ wordBytes 4 stat.blksize ++ wordBytes 8 0
    ++ askedField mask 4 0x4 stat.nlink ++ askedField mask 4 0x8 stat.uid.toNat
    ++ askedField mask 4 0x10 stat.gid.toNat ++ statxAfterOwner mask stat

/-- The word of a `struct statx` at an offset. -/
def statxField (buf : Bytes) (offset : Nat) : UInt32 :=
  UInt32.ofNat (littleEndian ((buf.drop offset).take 4))

def setStatxField (buf : Bytes) (offset : Nat) (value : UInt32) : Bytes :=
  buf.take offset ++ wordBytes 4 value.toNat ++ buf.drop (offset + 4)

/-- `struct statx_syscall_state`. -/
structure StatxState where
  statxBuf : Bytes
  updatedStats : Bool

/-- `fake_id0_handle_statx_syscall`. -/
def fakeId0HandleStatxSyscall (state : StatxState) : StatxState :=
  let state :=
    if statxField state.statxBuf 0 &&& 0x8 ≠ 0 then
      if statxField state.statxBuf 20 = own.uid then
        ⟨setStatxField state.statxBuf 20 config.user.saved, true⟩
      else state
    else state
  if statxField state.statxBuf 0 &&& 0x10 ≠ 0 then
    if statxField state.statxBuf 24 = own.uid then
      ⟨setStatxField state.statxBuf 24 config.group.saved, true⟩
    else state
  else state

/-- `handle_statx_syscall` from "Translate results" on: `stat` is there when the kernel did not
execute the call. -/
def handleStatxSyscall (m : Space host) (address : Address host) (mask : UInt32)
    (stat : Option HostStat) : Option (Space host) := do
  let state ← match stat with
    | some stat => some ⟨statxOfStat mask stat, true⟩
    | none => (m.load address 256).map fun buf => ⟨buf, false⟩
  let state := fakeId0HandleStatxSyscall own config state
  if state.updatedStats then m.store address state.statxBuf else some m

/-- **The owner that is shown** of a file: the fake saved ids in the place of PRoot's own. -/
def shown (uid gid : Id) : Id × Id :=
  (if uid = own.uid then config.user.saved else uid,
    if gid = own.gid then config.group.saved else gid)

/-- The owner in a `struct stat` of a tracee. -/
def statOwner (abi : Abi) (m : Space host) (address : Address host) : Option (Id × Id) := do
  let uid ← peekUint32 m (address.plus (offsetofStatUid host abi))
  let gid ← peekUint32 m (address.plus (offsetofStatGid host abi))
  some (uid, gid)

/-- The owner in a `struct statx` of a tracee. -/
def statxOwner (m : Space host) (address : Address host) : Option (Id × Id) := do
  let uid ← peekUint32 m (address.plus 20)
  let gid ← peekUint32 m (address.plus 24)
  some (uid, gid)

/-! ## What is read back -/

theorem word_size (host : Host) : 2 ^ 32 ≤ 2 ^ (8 * host.word) := by
  cases host <;> decide

variable {m : Space host} {a : Address host} {value : UInt32}

/-- The bytes of a word say which it is. -/
theorem peekUint32_eq_some_iff :
    peekUint32 m a = some value ↔ m.load a 4 = some (wordBytes 4 value.toNat) := by
  unfold peekUint32
  rw [Option.map_eq_some_iff]
  constructor
  · rintro ⟨bytes, hload, rfl⟩
    have hlength := AddressSpace.load_length hload
    have hlt := littleEndian_lt bytes
    rw [hlength] at hlt
    rw [hload, UInt32.toNat_ofNat_of_lt' hlt, ← hlength, wordBytes_littleEndian]
  · intro hload
    refine ⟨_, hload, ?_⟩
    have hlt : value.toNat < 256 ^ 4 := value.toNat_lt
    rw [littleEndian_wordBytes, Nat.mod_eq_of_lt hlt, UInt32.ofNat_toNat]

theorem pokeUint32_isSome {old : UInt32} (value : UInt32) (h : peekUint32 m a = some old) :
    ∃ m', pokeUint32 m a value = some m' := by
  have hload := peekUint32_eq_some_iff.mp h
  apply Option.isSome_iff_exists.mp
  unfold pokeUint32
  rw [AddressSpace.store_isSome_iff, wordBytes_length, hload]
  rfl

/-- What was written is read, -/
theorem peek_poke {m' : Space host} (h : pokeUint32 m a value = some m') :
    peekUint32 m' a = some value := by
  have hsize := word_size host
  have hload := AddressSpace.load_store h (by rw [wordBytes_length]; omega)
  rw [wordBytes_length] at hload
  exact peekUint32_eq_some_iff.mpr hload

/-- and what is elsewhere in the same structure. -/
theorem peek_poke_apart {m' : Space host} {i j : Nat} (h : pokeUint32 m (a.plus i) value = some m')
    (hapart : i + 4 ≤ j ∨ j + 4 ≤ i) (hi : i < 2 ^ 31) (hj : j < 2 ^ 31) :
    peekUint32 m' (a.plus j) = peekUint32 m (a.plus j) := by
  have hsize := word_size host
  unfold peekUint32
  rw [AddressSpace.load_store_apart h]
  intro byte hbyte
  rw [wordBytes_length, AddressSpace.add_offset]
  have hoffset : (a + BitVec.ofNat _ (j + byte) - (a + BitVec.ofNat _ i)).toNat =
      (2 ^ (8 * host.word) - i + (j + byte)) % 2 ^ (8 * host.word) := by
    rw [← BitVec.sub_sub, BitVec.add_comm a, BitVec.add_sub_cancel, BitVec.toNat_sub,
      BitVec.toNat_ofNat, BitVec.toNat_ofNat,
      Nat.mod_eq_of_lt (show i < 2 ^ (8 * host.word) by omega), Nat.add_mod_mod]
  rw [hoffset]
  obtain hlater | hbefore := hapart
  · rw [show 2 ^ (8 * host.word) - i + (j + byte) = j + byte - i + 2 ^ (8 * host.word) by omega,
      Nat.add_mod_right, Nat.mod_eq_of_lt (by omega)]
    omega
  · rw [Nat.mod_eq_of_lt (by omega)]
    omega

/-! ## `stat` -/

theorem peek_overrideId {own saved read : Id} (h : peekUint32 m a = some read) :
    peekUint32 (overrideId m a own saved read) a =
      some (if read = own then saved else read) := by
  unfold overrideId
  split
  case isTrue =>
    obtain ⟨m', hpoke⟩ := pokeUint32_isSome saved h
    rw [hpoke, Option.getD_some, peek_poke hpoke]
  case isFalse => exact h

theorem peek_overrideId_apart {i j : Nat} {own saved read : Id} (hapart : i + 4 ≤ j ∨ j + 4 ≤ i)
    (hi : i < 2 ^ 31) (hj : j < 2 ^ 31) :
    peekUint32 (overrideId m (a.plus i) own saved read) (a.plus j) =
      peekUint32 m (a.plus j) := by
  unfold overrideId
  split
  case isTrue =>
    cases hpoke : pokeUint32 m (a.plus i) saved with
    | none => rfl
    | some m' => rw [Option.getD_some, peek_poke_apart hpoke hapart hi hj]
  case isFalse => rfl

theorem offsetofStat (host : Host) (abi : Abi) :
    offsetofStatGid host abi = offsetofStatUid host abi + 4 ∧ offsetofStatUid host abi ≤ 28 := by
  unfold offsetofStatGid offsetofStatUid
  cases host <;> cases is32on64Mode _ abi <;> decide

variable {address : Address host}

/-- **The owner that `stat` shows.** -/
theorem statOwner_handleStatExitEnd {abi : Abi} {uid gid : Id}
    (h : statOwner abi m address = some (uid, gid)) :
    statOwner abi (handleStatExitEnd own config abi m 0 address) address =
      some (shown own config uid gid) := by
  obtain ⟨hoffset, hbound⟩ := offsetofStat host abi
  unfold statOwner at h
  rw [hoffset] at h
  obtain ⟨uid', huid, gid', hgid, heq⟩ :
      ∃ uid', peekUint32 m (address.plus (offsetofStatUid host abi)) = some uid' ∧
        ∃ gid', peekUint32 m (address.plus (offsetofStatUid host abi + 4)) = some gid' ∧
          some (uid', gid') = some (uid, gid) := by
    simpa only [Option.bind_eq_bind, Option.bind_eq_some_iff] using h
  cases heq
  unfold handleStatExitEnd statOwner
  rw [if_neg (not_not.mpr rfl), hoffset]
  simp only [huid, hgid, Option.getD_some]
  have hgid' : peekUint32 (overrideId m (address.plus (offsetofStatUid host abi)) own.uid
      config.user.saved uid) (address.plus (offsetofStatUid host abi + 4)) = some gid := by
    rw [peek_overrideId_apart (.inl (Nat.le_refl _)) (by omega) (by omega), hgid]
  rw [peek_overrideId_apart (.inr (Nat.le_refl _)) (by omega) (by omega), peek_overrideId huid,
    peek_overrideId hgid']
  rfl

/-! ## `statx` -/

variable {offset : Nat}

theorem setStatxField_length {buf : Bytes} (value : UInt32) (h : offset + 4 ≤ buf.length) :
    (setStatxField buf offset value).length = buf.length := by
  unfold setStatxField
  rw [List.length_append, List.length_append, List.length_take, List.length_drop,
    wordBytes_length]
  omega

theorem statxField_word {buf : Bytes} (h : (buf.drop offset).take 4 = wordBytes 4 value.toNat) :
    statxField buf offset = value := by
  have hlt : value.toNat < 256 ^ 4 := value.toNat_lt
  rw [statxField, h, littleEndian_wordBytes, Nat.mod_eq_of_lt hlt, UInt32.ofNat_toNat]

theorem statxField_set {buf : Bytes} (h : offset + 4 ≤ buf.length) :
    statxField (setStatxField buf offset value) offset = value := by
  apply statxField_word
  unfold setStatxField
  rw [List.append_assoc, List.drop_left' (by rw [List.length_take]; omega),
    List.take_left' (wordBytes_length _ _)]

theorem statxField_set_apart {buf : Bytes} {other : Nat} (h : offset + 4 ≤ buf.length)
    (hapart : offset + 4 ≤ other ∨ other + 4 ≤ offset) :
    statxField (setStatxField buf offset value) other = statxField buf other := by
  have hsame : ((setStatxField buf offset value).drop other).take 4 =
      (buf.drop other).take 4 := by
    apply List.ext_getElem?
    intro i
    unfold setStatxField
    rw [List.getElem?_take, List.getElem?_take, List.getElem?_drop, List.getElem?_drop]
    split
    case isFalse => rfl
    case isTrue hi =>
      have hlength : (buf.take offset ++ wordBytes 4 value.toNat).length = offset + 4 := by
        rw [List.length_append, List.length_take, wordBytes_length]
        omega
      obtain hlater | hbefore := hapart
      · rw [List.getElem?_append_right (by omega), hlength, List.getElem?_drop,
          show offset + 4 + (other + i - (offset + 4)) = other + i by omega]
      · rw [List.getElem?_append_left (by omega),
          List.getElem?_append_left (by rw [List.length_take]; omega),
          List.getElem?_take_of_lt (by omega)]
  rw [statxField, hsame, statxField]

/-- A buffer that is in memory has its fields there. -/
theorem peek_statxField {buf : Bytes} (h : m.load address 256 = some buf)
    (hoffset : offset + 4 ≤ 256) :
    peekUint32 m (address.plus offset) = some (statxField buf offset) := by
  have hdrop := AddressSpace.load_drop h (show offset ≤ 256 by omega)
  have htake := AddressSpace.load_take hdrop (show 4 ≤ 256 - offset by omega)
  rw [peekUint32, htake]
  rfl

theorem statxOwner_eq {buf : Bytes} (h : m.load address 256 = some buf) :
    statxOwner m address = some (statxField buf 20, statxField buf 24) := by
  unfold statxOwner
  rw [peek_statxField h (by omega), peek_statxField h (by omega)]
  rfl

/-- A buffer whose owner was asked for. -/
structure HasOwner (buf : Bytes) (uid gid : Id) : Prop where
  length : buf.length = 256
  uidAsked : statxField buf 0 &&& 0x8 ≠ 0
  gidAsked : statxField buf 0 &&& 0x10 ≠ 0
  uid : statxField buf 20 = uid
  gid : statxField buf 24 = gid

/-- The group is compared with the user of PRoot. -/
theorem fakeId0HandleStatxSyscall_spec (state : StatxState) {uid gid : Id}
    (h : HasOwner state.statxBuf uid gid) :
    let state' := fakeId0HandleStatxSyscall own config state
    HasOwner state'.statxBuf (if uid = own.uid then config.user.saved else uid)
        (if gid = own.uid then config.group.saved else gid) ∧
      (state' = state ∨ state'.updatedStats = true) := by
  obtain ⟨hlength, huidAsked, hgidAsked, huid, hgid⟩ := h
  have hroom : 20 + 4 ≤ state.statxBuf.length := by omega
  have huser : ∃ state₁ : StatxState,
      (if statxField state.statxBuf 0 &&& 0x8 ≠ 0 then
        if statxField state.statxBuf 20 = own.uid then
          ⟨setStatxField state.statxBuf 20 config.user.saved, true⟩
        else state
      else state) = state₁ ∧
      HasOwner state₁.statxBuf (if uid = own.uid then config.user.saved else uid) gid ∧
        (state₁ = state ∨ state₁.updatedStats = true) := by
    refine ⟨_, rfl, ?_⟩
    rw [if_pos huidAsked, huid]
    split
    case isTrue =>
      refine ⟨⟨?_, ?_, ?_, statxField_set hroom, ?_⟩, .inr rfl⟩
      · rw [setStatxField_length _ hroom, hlength]
      · rwa [statxField_set_apart hroom (by omega)]
      · rwa [statxField_set_apart hroom (by omega)]
      · rwa [statxField_set_apart hroom (by omega)]
    case isFalse => exact ⟨⟨hlength, huidAsked, hgidAsked, huid, hgid⟩, .inl rfl⟩
  obtain ⟨state₁, hstate₁, howner, hupdated⟩ := huser
  unfold fakeId0HandleStatxSyscall
  dsimp only
  rw [hstate₁]
  obtain ⟨hlength₁, huidAsked₁, hgidAsked₁, huid₁, hgid₁⟩ := howner
  have hroom₁ : 24 + 4 ≤ state₁.statxBuf.length := by omega
  rw [if_pos hgidAsked₁, hgid₁]
  split
  case isTrue =>
    refine ⟨⟨?_, ?_, ?_, ?_, statxField_set hroom₁⟩, .inr rfl⟩
    · rw [setStatxField_length _ hroom₁, hlength₁]
    · rwa [statxField_set_apart hroom₁ (by omega)]
    · rwa [statxField_set_apart hroom₁ (by omega)]
    · rwa [statxField_set_apart hroom₁ (by omega)]
  case isFalse => exact ⟨⟨hlength₁, huidAsked₁, hgidAsked₁, huid₁, hgid₁⟩, hupdated⟩

/-- **The owner that `statx` shows**, from whichever source. -/
theorem statxOwner_handleStatxSyscall {mask : UInt32} {stat : Option HostStat} {old buf : Bytes}
    {uid gid : Id} (hroom : m.load address 256 = some old)
    (hbuf : buf = stat.elim old (statxOfStat mask)) (howner : HasOwner buf uid gid) :
    (handleStatxSyscall own config m address mask stat).bind (statxOwner · address) =
      some (if uid = own.uid then config.user.saved else uid,
        if gid = own.uid then config.group.saved else gid) := by
  have hsize := word_size host
  have hwritten : ∀ state : StatxState,
      HasOwner state.statxBuf (if uid = own.uid then config.user.saved else uid)
        (if gid = own.uid then config.group.saved else gid) →
      (m.store address state.statxBuf).bind (statxOwner · address) =
        some (if uid = own.uid then config.user.saved else uid,
          if gid = own.uid then config.group.saved else gid) := by
    intro state hstate
    obtain ⟨m', hstore⟩ := Option.isSome_iff_exists.mp (show (m.store address
        state.statxBuf).isSome by
      rw [AddressSpace.store_isSome_iff, hstate.length, hroom]
      rfl)
    have hload := AddressSpace.load_store hstore (by rw [hstate.length]; omega)
    rw [hstate.length] at hload
    rw [hstore, Option.bind_some, statxOwner_eq hload, hstate.uid, hstate.gid]
  unfold handleStatxSyscall
  cases stat with
  | some stat =>
      obtain ⟨hstate, hupdated⟩ := fakeId0HandleStatxSyscall_spec own config
        ⟨statxOfStat mask stat, true⟩ (by rwa [hbuf] at howner)
      have htrue : (fakeId0HandleStatxSyscall own config
          ⟨statxOfStat mask stat, true⟩).updatedStats = true := by
        obtain hsame | htrue := hupdated
        · rw [hsame]
        · exact htrue
      simp only [Option.bind_eq_bind, Option.bind_some, htrue, if_true]
      exact hwritten _ hstate
  | none =>
      obtain rfl : buf = old := hbuf
      obtain ⟨hstate, hupdated⟩ := fakeId0HandleStatxSyscall_spec own config
        ⟨buf, false⟩ howner
      simp only [hroom, Option.map_some, Option.bind_eq_bind, Option.bind_some]
      split
      case isTrue => exact hwritten _ hstate
      case isFalse hnot =>
        obtain hsame | htrue := hupdated
        · rw [hsame] at hstate
          rw [Option.bind_some, statxOwner_eq hroom, hstate.uid, hstate.gid]
        · exact absurd htrue hnot

/-- A word of a buffer, by what stands before it. -/
theorem statxField_append (before rest : Bytes) {buf : Bytes}
    (h : buf = before ++ (wordBytes 4 value.toNat ++ rest)) (hoffset : before.length = offset) :
    statxField buf offset = value := by
  apply statxField_word
  rw [h, List.drop_left' hoffset, List.take_left' (wordBytes_length _ _)]

theorem statxTimestamp_length (asked : Bool) (tim : Nat × Nat) :
    (statxTimestamp asked tim).length = 16 := by
  cases asked <;> simp [statxTimestamp]

/-- What is translated from `stat` has the owner of the file. -/
theorem statxOfStat_owner {mask : UInt32} {stat : HostStat} (huid : mask &&& 0x8 ≠ 0)
    (hgid : mask &&& 0x10 ≠ 0) : HasOwner (statxOfStat mask stat) stat.uid stat.gid := by
  have hasked : ∀ (bits : UInt32) (value : Nat), mask &&& bits ≠ 0 →
      askedField mask 4 bits value = wordBytes 4 value := by
    intro bits value hbits
    rw [askedField, if_pos hbits]
  have hmask : statxField (statxOfStat mask stat) 0 = mask &&& 0xfff := by
    apply statxField_word
    rw [List.drop_zero, statxOfStat]
    simp only [List.append_assoc]
    exact List.take_left' (wordBytes_length _ _)
  refine ⟨?_, ?_, ?_, ?_, ?_⟩
  · simp [statxOfStat, statxAfterOwner, askedField, statxTimestamp_length]
  · rwa [hmask, UInt32.and_assoc]
  · rwa [hmask, UInt32.and_assoc]
  · refine statxField_append (wordBytes 4 (mask &&& 0xfff).toNat
      ++ wordBytes 4 stat.blksize ++ wordBytes 8 0 ++ askedField mask 4 0x4 stat.nlink)
      (askedField mask 4 0x10 stat.gid.toNat ++ statxAfterOwner mask stat) ?_
      (by simp [askedField])
    rw [statxOfStat, hasked 0x8 _ huid]
    simp only [List.append_assoc]
  · refine statxField_append (wordBytes 4 (mask &&& 0xfff).toNat
      ++ wordBytes 4 stat.blksize ++ wordBytes 8 0 ++ askedField mask 4 0x4 stat.nlink
      ++ askedField mask 4 0x8 stat.uid.toNat) (statxAfterOwner mask stat) ?_
      (by simp [askedField])
    rw [statxOfStat, hasked 0x10 _ hgid]
    simp only [List.append_assoc]

/-! ## All views -/

/-- Each of the calls shows an owner: `stat`, and `statx` as the kernel executed it or as it is
translated from `stat`. -/
def AllShow (abi : Abi) (m₁ m₂ m₃ : Space host) (a₁ a₂ a₃ : Address host) (mask : UInt32)
    (stat : HostStat) (owner : Id × Id) : Prop :=
  statOwner abi (handleStatExitEnd own config abi m₁ 0 a₁) a₁ = some owner ∧
    (handleStatxSyscall own config m₂ a₂ mask none).bind (statxOwner · a₂) = some owner ∧
    (handleStatxSyscall own config m₃ a₃ mask (some stat)).bind (statxOwner · a₃) = some owner

/-- A value that is replaced in two cases. -/
theorem replaced_iff {a b : Prop} [Decidable a] [Decidable b] {x y : Id} :
    (if b then x else y) = (if a then x else y) ↔ (a ↔ b) ∨ x = y := by
  by_cases ha : a <;> by_cases hb : b <;> simp only [ha, hb, if_true, if_false] <;> simp [eq_comm]

variable {abi : Abi} {m₁ m₂ m₃ : Space host} {a₁ a₂ a₃ : Address host} {mask : UInt32}
  {stat : HostStat} {buf old : Bytes}

/-- **The owner of a file is shown alike**, exactly when its group is PRoot's own group and its
own user both or neither, or is the saved group. -/
theorem owners_agree_iff (hstat : statOwner abi m₁ a₁ = some (stat.uid, stat.gid))
    (hbuf : m₂.load a₂ 256 = some buf) (howner : HasOwner buf stat.uid stat.gid)
    (hroom : m₃.load a₃ 256 = some old) (huid : mask &&& 0x8 ≠ 0) (hgid : mask &&& 0x10 ≠ 0) :
    AllShow own config abi m₁ m₂ m₃ a₁ a₂ a₃ mask stat (shown own config stat.uid stat.gid) ↔
      (stat.gid = own.gid ↔ stat.gid = own.uid) ∨ config.group.saved = stat.gid := by
  have hfirst := statOwner_handleStatExitEnd own config hstat
  have hsecond := statxOwner_handleStatxSyscall own config hbuf
    (show buf = (none : Option HostStat).elim buf (statxOfStat mask) from rfl) howner
  have hthird := statxOwner_handleStatxSyscall own config hroom
    (show statxOfStat mask stat = (some stat).elim old (statxOfStat mask) from rfl)
    (statxOfStat_owner huid hgid)
  unfold AllShow
  rw [hfirst, hsecond, hthird, shown]
  simp only [true_and, and_self, Option.some.injEq, Prod.mk.injEq]
  exact replaced_iff

end

/-- A memory that starts with some bytes. -/
def spaceOf (bytes : Bytes) : Space .ARCH_X86_64 := fun x => some (bytes.getD x.toNat 0)

theorem load_spaceOf {bytes : Bytes} (hlen : bytes.length < 2 ^ 64) :
    (spaceOf bytes).load 0 bytes.length = some bytes := by
  refine AddressSpace.load_eq_some_iff.mpr ⟨rfl, fun i hi => ?_⟩
  have hoffset : (0#64 + BitVec.ofNat 64 i).toNat = i := by
    rw [BitVec.zero_add, BitVec.toNat_ofNat, Nat.mod_eq_of_lt (hi.trans hlen)]
  show some (bytes.getD (0#64 + BitVec.ofNat 64 i).toNat 0) = bytes[i]?
  rw [hoffset, List.getD_eq_getElem?_getD, List.getElem?_eq_getElem hi, Option.getD_some]

/-- A file of the user `1000` and of the group `100`. -/
def someFile : HostStat where
  mode := 0x81a4
  nlink := 1
  uid := 1000
  gid := 100
  rdevMajor := 0
  rdevMinor := 0
  size := 0
  blksize := 4096
  blocks := 0
  ino := 1
  atim := (0, 0)
  mtim := (0, 0)
  ctim := (0, 0)

/-- The start of a `struct stat` of it. -/
def someStat : Bytes := List.replicate 28 0 ++ wordBytes 4 1000 ++ wordBytes 4 100

theorem someFile_reads :
    statOwner .ABI_DEFAULT (spaceOf someStat) 0 = some (someFile.uid, someFile.gid) ∧
      (spaceOf (statxOfStat 0x18 someFile)).load 0 256 = some (statxOfStat 0x18 someFile) := by
  have hlength : (statxOfStat 0x18 someFile).length = 256 :=
    (@statxOfStat_owner 0x18 someFile (by decide) (by decide)).length
  have hload := load_spaceOf (show (statxOfStat 0x18 someFile).length < 2 ^ 64 by omega)
  rw [hlength] at hload
  exact ⟨by decide, hload⟩

theorem owners_agree_iff_user :
    AllShow ⟨1000, 1000⟩ (.initial 0 0) .ABI_DEFAULT (spaceOf someStat)
      (spaceOf (statxOfStat 0x18 someFile)) (spaceOf (statxOfStat 0x18 someFile)) 0 0 0 0x18
      someFile (shown ⟨1000, 1000⟩ (.initial 0 0) someFile.uid someFile.gid) :=
  (owners_agree_iff ⟨1000, 1000⟩ (.initial 0 0) someFile_reads.1 someFile_reads.2
    (statxOfStat_owner (by decide) (by decide)) someFile_reads.2 (by decide) (by decide)).mpr
    (.inl (by decide))

/-- PRoot is run by the user `1000` and the group `100`: `statx` does not show the fake group. -/
theorem owners_differ :
    ¬ ∀ (host : Host) (own : OwnIds) (config : Config) (abi : Abi) (m₁ m₂ m₃ : Space host)
      (a₁ a₂ a₃ : Address host) (mask : UInt32) (stat : HostStat) (buf old : Bytes),
      statOwner abi m₁ a₁ = some (stat.uid, stat.gid) → m₂.load a₂ 256 = some buf →
      HasOwner buf stat.uid stat.gid → m₃.load a₃ 256 = some old → mask &&& 0x8 ≠ 0 →
      mask &&& 0x10 ≠ 0 →
        AllShow own config abi m₁ m₂ m₃ a₁ a₂ a₃ mask stat
          (shown own config stat.uid stat.gid) := by
  intro h
  have howner := @statxOfStat_owner 0x18 someFile (by decide) (by decide)
  obtain ⟨-, hexecuted, -⟩ := h .ARCH_X86_64 ⟨1000, 100⟩ (.initial 0 0) .ABI_DEFAULT
    (spaceOf someStat) (spaceOf (statxOfStat 0x18 someFile)) (spaceOf (statxOfStat 0x18 someFile))
    0 0 0 0x18 someFile _ _ someFile_reads.1 someFile_reads.2 howner someFile_reads.2
    (by decide) (by decide)
  rw [statxOwner_handleStatxSyscall ⟨1000, 100⟩ (.initial 0 0) someFile_reads.2
    (show _ = (none : Option HostStat).elim (statxOfStat 0x18 someFile) (statxOfStat 0x18) from rfl)
    howner] at hexecuted
  revert hexecuted
  decide

end PRoot
