import PRoot.Readlink
import PRoot.SendmsgFixups

/-!
# The sizes of symbolic links

`extension/fix_symlink_size/fix_symlink_size.c` sets the size that `lstat` and `lstat64` give of a
symbolic link, which is to be what `readlink` returns.

* `Host.stat`, `kernelStat`: where the size is, for PRoot and for the tracee;
* `fixSymlinkSize`: what the extension does after a call;
* `readlinkExit_count`: what `readlink` returns, with room enough;
* `lstat_size_iff`: when the size is that, and nothing else has changed.
-/

namespace PRoot

variable {W : Type} {host : Host}

/-- A structure, and the place of its `st_size`. -/
structure StatLayout where
  size : Nat
  sizeAt : Nat
  sizeWidth : Nat
  deriving DecidableEq, Repr

/-- `struct stat` of PRoot itself. -/
def Host.stat : Host → StatLayout
  | .ARCH_X86_64 => ⟨144, 48, 8⟩
  | .ARCH_ARM64 => ⟨128, 48, 8⟩
  | .ARCH_ARM_EABI => ⟨104, 48, 8⟩
  | .ARCH_X86 | .ARCH_SH4 => ⟨96, 44, 8⟩

/-- The calls that say how long a link is; `fstatat` stands for `newfstatat` and `fstatat64`. -/
inductive LstatCall
  | lstat | lstat64 | fstatat
  deriving DecidableEq, Repr

/-- The structure that the kernel fills in for a tracee. -/
def kernelStat (host : Host) (abi : Abi) : LstatCall → StatLayout
  | .lstat =>
      match host, abi with
      | .ARCH_X86_64, .ABI_2 | .ARCH_ARM64, .ABI_2 | .ARCH_ARM_EABI, _ | .ARCH_X86, _
      | .ARCH_SH4, _ => ⟨64, 20, 4⟩
      | _, _ => host.stat
  | .lstat64 | .fstatat =>
      match host, abi with
      | .ARCH_X86_64, .ABI_2 => Host.stat .ARCH_X86
      | .ARCH_ARM64, .ABI_2 => Host.stat .ARCH_ARM_EABI
      | _, _ => host.stat

/-- `statl.st_size = size`. -/
def setSize (layout : StatLayout) (statl : Bytes) (size : Nat) : Bytes :=
  statl.take layout.sizeAt ++ wordBytes layout.sizeWidth size ++
    statl.drop (layout.sizeAt + layout.sizeWidth)

/-- `handle_sysexit_end`, after a call that succeeded.  `found` is what PRoot sees at the path of
the call: an error, or the text of a link, or no link; `statl` is what it has of it by `lstat`,
and remains where the structure of the tracee cannot be read. -/
def fixSymlinkSize (processVm : Bool) (call : LstatCall) (found : Except Errno (Option CStr))
    (statl : Bytes) (m : Space host) (stat : Address host) : Space host × Except Errno Unit :=
  match call with
  | .fstatat => (m, .ok ())
  | .lstat | .lstat64 =>
      match found with
      | .error status => (m, .error status)
      | .ok none => (m, .ok ())
      | .ok (some target) =>
          let read := (MemoryAccess.readData processVm m stat host.stat.size).1
          MemoryAccess.writeData processVm m stat
            (setSize host.stat (read ++ statl.drop read.length) (target.take pathMax).length)

/-- `st_size`, in memory. -/
def sizeIn (layout : StatLayout) (m : Space host) (stat : Address host) : Option Nat :=
  (m.load ((untagPointer host stat).plus layout.sizeAt) layout.sizeWidth).map littleEndian

/-- The call still succeeds, its size is a certain one, and the other bytes are as they were. -/
structure SizeOnly (layout : StatLayout) (m : Space host) (stat : Address host) (size : Nat)
    (after : Space host × Except Errno Unit) : Prop where
  succeeds : after.2 = .ok ()
  size : sizeIn layout after.1 stat = some size
  others : ∀ x, layout.sizeWidth ≤
    (x - (untagPointer host stat).plus layout.sizeAt).toNat → after.1 x = m x

/-- What `readlink` returns with room enough, for a text that is detranslated to another one. -/
def readlinkCount (target d : CStr) (status : Nat) : Nat :=
  if status = 0 then target.length
  else if d.length + 1 < pathMax then d.length
  else pathMax

/-- When the size is right.  The extension leaves `fstatat` alone.  Otherwise PRoot must find the
link and reach a structure of its own layout; where that has its size in the same place, the text
and what is made of it must have the same length, and elsewhere the extension must not change
anything. -/
structure SizeRight (call : LstatCall) (abi : Abi) (found : Except Errno (Option CStr))
    (m : Space host) (stat : Address host) (kernelSize count : Nat) (target : CStr) : Prop where
  left : call = .fstatat → kernelSize = count
  found : call ≠ .fstatat → found = .ok (some target)
  reached : call ≠ .fstatat → (m.load (untagPointer host stat) host.stat.size).isSome
  length : call ≠ .fstatat → host.stat.sizeAt = (kernelStat host abi call).sizeAt →
    target.length = count
  already : call ≠ .fstatat → host.stat.sizeAt ≠ (kernelStat host abi call).sizeAt →
    kernelSize = count ∧ sizeIn host.stat m stat = some target.length

/-! ## Layouts -/

theorem stat_fits (host : Host) : host.stat.sizeWidth = 8 ∧
    host.stat.sizeAt + 8 ≤ host.stat.size ∧ host.stat.size ≤ 144 ∧
    host.stat.size % host.word = 0 := by
  cases host <;> decide

/-- The size of the tracee's structure is in the same place, apart from the one of PRoot, or it
starts four bytes before it. -/
theorem kernelStat_cases (host : Host) (abi : Abi) (call : LstatCall) :
    ((kernelStat host abi call).sizeAt = host.stat.sizeAt ∧
        (kernelStat host abi call).sizeWidth = 8) ∨
      ((kernelStat host abi call).sizeAt < host.stat.sizeAt ∧
        (kernelStat host abi call).sizeAt + (kernelStat host abi call).sizeWidth ≤
          host.stat.sizeAt) ∨
      (kernelStat host abi call).sizeAt + 4 = host.stat.sizeAt ∧
        (kernelStat host abi call).sizeWidth = 8 := by
  cases host <;> cases abi <;> cases call <;> decide

theorem stat_at_le (host : Host) : host.stat.sizeAt ≤ 48 := by
  cases host <;> decide

theorem plus_after {a : Address host} {p q : Nat} (hle : p ≤ q) (hq : q ≤ 64) :
    (a.plus q - a.plus p).toNat = q - p := by
  have hspace : 2 ^ 32 ≤ 2 ^ (8 * host.word) := by
    cases host <;> decide
  have hsplit : a.plus q = a.plus p + BitVec.ofNat _ (q - p) := by
    rw [AddressSpace.add_offset, Nat.add_sub_cancel' hle]
  rw [hsplit, AddressSpace.offset_toNat _ (by omega)]

theorem plus_before {a : Address host} {p q : Nat} (hlt : p < q) (hq : q ≤ 48) :
    8 ≤ (a.plus p - a.plus q).toNat := by
  have hspace : 2 ^ 32 ≤ 2 ^ (8 * host.word) := by
    cases host <;> decide
  have hafter := plus_after (a := a) (Nat.le_of_lt hlt) (by omega : q ≤ 64)
  have hneg : a.plus p - a.plus q = -(a.plus q - a.plus p) := by
    rw [BitVec.neg_sub, BitVec.add_comm, BitVec.sub_eq_add_neg]
  rw [hneg, BitVec.toNat_neg, hafter, Nat.mod_eq_of_lt (by omega)]
  omega

/-! ## Transfers -/

section

variable {m m' : Space host} {a : Address host} {bytes src : Bytes} {size : Nat}

theorem readData_aligned (processVm : Bool) (h : m.load (untagPointer host a) size = some bytes)
    (hsize : size ≤ 144) (haligned : size % host.word = 0) :
    MemoryAccess.readData processVm m a size = (bytes, .ok ()) := by
  unfold MemoryAccess.readData
  cases processVm with
  | true =>
      dsimp only
      rw [if_pos rfl, processVmReadv, if_pos (by omega), h]
  | false => exact peekBytes_eq h fun hne => absurd haligned hne

theorem writeData_aligned (processVm : Bool) (h : m.store (untagPointer host a) src = some m')
    (hsize : src.length ≤ 144) (haligned : src.length % host.word = 0) :
    MemoryAccess.writeData processVm m a src = (m', .ok ()) := by
  have hlimit := limit_lt host
  unfold MemoryAccess.writeData
  cases processVm with
  | true =>
      dsimp only
      rw [if_pos rfl, processVmWritev, if_pos (by omega), h]
  | false => exact pokeBytes_eq (by omega) h fun hne => absurd haligned hne

/-- What is not mapped is not written. -/
theorem writeData_fails (processVm : Bool)
    (h : m.load (untagPointer host a) src.length = none) (hsize : src.length ≤ 144) :
    (MemoryAccess.writeData processVm m a src).2 ≠ .ok () := by
  have hlimit := limit_lt host
  have hstore : m.store (untagPointer host a) src = none := by
    rw [← Option.not_isSome_iff_eq_none, AddressSpace.store_isSome_iff, h]
    decide
  have hpoke : (pokeBytes m (untagPointer host a) src).2 ≠ .ok () := by
    intro hdone
    have hall := pokeBytes_store (by omega) (show pokeBytes m (untagPointer host a) src =
      ((pokeBytes m (untagPointer host a) src).1, .ok ()) from Prod.ext rfl hdone)
    rw [hstore] at hall
    cases hall
  unfold MemoryAccess.writeData
  cases processVm with
  | true =>
      dsimp only
      rw [if_pos rfl, processVmWritev, if_pos (by omega), hstore]
      exact hpoke
  | false => exact hpoke

theorem peekWords_length_le (m : Space host) (a : Address host) (i : Nat) :
    (peekWords m a i).1.length ≤ i * host.word := by
  induction i generalizing a with
  | zero => exact Nat.zero_le _
  | succ i ih =>
      rw [peekWords]
      cases hword : peekData m a with
      | none => exact Nat.zero_le _
      | some word =>
          have hlength : word.length = host.word := AddressSpace.load_length hword
          dsimp only
          rw [List.length_append, hlength, Nat.succ_mul, Nat.add_comm]
          exact Nat.add_le_add_right (ih _) _

theorem readData_length_le (processVm : Bool) (haligned : size % host.word = 0) :
    (MemoryAccess.readData processVm m a size).1.length ≤ size := by
  have hpeek : (peekBytes m (untagPointer host a) size).1.length ≤ size := by
    have hsplit := split_words host size
    have hwords := peekWords_length_le m (untagPointer host a) (size / host.word)
    unfold peekBytes
    dsimp only
    rw [fullWords, haligned]
    split
    · show (peekWords m _ _).1.length ≤ _
      omega
    · rw [if_pos rfl]
      show (peekWords m _ _).1.length ≤ _
      omega
  unfold MemoryAccess.readData
  cases processVm with
  | true =>
      dsimp only
      rw [if_pos rfl]
      split
      · rename_i bytes hread
        unfold processVmReadv at hread
        split at hread
        · exact Nat.le_of_eq (AddressSpace.load_length hread)
        · cases hread
      · exact hpeek
  | false => exact hpeek

end

/-! ## What the extension does -/

section

variable {m m' : Space host} {stat : Address host} {statl : Bytes} {target : CStr}

/-- A link that was found: the size is all that is written, or the call fails. -/
theorem fixSymlinkSize_link (processVm : Bool) {call : LstatCall} (hcall : call ≠ .fstatat)
    (hstatl : statl.length = host.stat.size) (htarget : target.length < pathMax) :
    (∃ m', m.store ((untagPointer host stat).plus host.stat.sizeAt) (wordBytes 8 target.length) =
        some m' ∧ (m.load (untagPointer host stat) host.stat.size).isSome ∧
        fixSymlinkSize processVm call (.ok (some target)) statl m stat = (m', .ok ())) ∨
      m.load (untagPointer host stat) host.stat.size = none ∧
        (fixSymlinkSize processVm call (.ok (some target)) statl m stat).2 ≠ .ok () := by
  obtain ⟨hwidth, hfits, hsize, haligned⟩ := stat_fits host
  have hspace : 144 ≤ 2 ^ (8 * host.word) := by
    cases host <;> decide
  have htake : (target.take pathMax).length = target.length := by
    rw [List.length_take, Nat.min_eq_right (Nat.le_of_lt htarget)]
  have hset : ∀ old : Bytes, old.length = host.stat.size →
      setSize host.stat old target.length =
        old.take host.stat.sizeAt ++ wordBytes 8 target.length ++
          old.drop (host.stat.sizeAt + (wordBytes 8 target.length).length) ∧
      (setSize host.stat old target.length).length = host.stat.size := by
    intro old hold
    unfold setSize
    rw [hwidth, wordBytes_length]
    refine ⟨rfl, ?_⟩
    rw [List.length_append, List.length_append, List.length_take, List.length_drop,
      wordBytes_length]
    omega
  have hrun : fixSymlinkSize processVm call (.ok (some target)) statl m stat =
      MemoryAccess.writeData processVm m stat
        (setSize host.stat
          ((MemoryAccess.readData processVm m stat host.stat.size).1 ++
            statl.drop (MemoryAccess.readData processVm m stat host.stat.size).1.length)
          target.length) := by
    cases call with
    | fstatat => exact absurd rfl hcall
    | lstat => exact congrArg (fun n => MemoryAccess.writeData processVm m stat
        (setSize host.stat _ n)) htake
    | lstat64 => exact congrArg (fun n => MemoryAccess.writeData processVm m stat
        (setSize host.stat _ n)) htake
  cases hload : m.load (untagPointer host stat) host.stat.size with
  | some old =>
      left
      have hold := AddressSpace.load_length hload
      obtain ⟨heq, hlength⟩ := hset old hold
      have hwithin := AddressSpace.store_within hload
        (show host.stat.sizeAt + (wordBytes 8 target.length).length ≤ _ by
          rw [wordBytes_length]
          exact hfits) (by omega)
      have hroom : (m.store (untagPointer host stat)
          (setSize host.stat old target.length)).isSome := by
        rw [AddressSpace.store_isSome_iff, hlength, hload]
        rfl
      obtain ⟨m', hstore⟩ := Option.isSome_iff_exists.mp hroom
      refine ⟨m', ?_, rfl, ?_⟩
      · rw [← hwithin, ← heq, hstore]
      · rw [hrun, readData_aligned processVm hload hsize haligned]
        dsimp only
        rw [hold, List.drop_of_length_le (Nat.le_of_eq hstatl), List.append_nil]
        exact writeData_aligned processVm hstore (by omega) (by rw [hlength, haligned])
  | none =>
      right
      refine ⟨rfl, ?_⟩
      have hread := readData_length_le (m := m) (a := stat) processVm haligned
      obtain ⟨-, hlength⟩ := hset ((MemoryAccess.readData processVm m stat
        host.stat.size).1 ++ statl.drop (MemoryAccess.readData processVm m stat
          host.stat.size).1.length) (by
        rw [List.length_append, List.length_drop]
        omega)
      rw [hrun]
      exact writeData_fails processVm (by rw [hlength, hload]) (by omega)

/-- Where the size of PRoot's structure is written, memory stays the same if it was there before. -/
theorem store_same {a : Address host} {bytes : Bytes} (hload : m.load a bytes.length = some bytes)
    (hstore : m.store a bytes = some m') : m' = m := by
  obtain ⟨-, rfl⟩ := AddressSpace.store_eq_some_iff.1 hstore
  funext x
  split
  · rename_i hin
    have heach := (AddressSpace.load_eq_some_iff.1 hload).2 _ hin
    rw [BitVec.ofNat_toNat, BitVec.setWidth_eq, BitVec.add_comm, BitVec.sub_add_cancel] at heach
    exact heach.symm
  · rfl

theorem sizeIn_own (h : (m.load ((untagPointer host stat).plus host.stat.sizeAt) 8) =
    some (wordBytes 8 target.length)) (htarget : target.length < pathMax) :
    sizeIn host.stat m stat = some target.length := by
  have hlt : target.length < 256 ^ 8 := Nat.lt_trans htarget (by decide)
  rw [sizeIn, (stat_fits host).1, h, Option.map_some, littleEndian_wordBytes,
    Nat.mod_eq_of_lt hlt]

/-- A size that starts four bytes before that of PRoot's structure is too large. -/
theorem sizeIn_before {layout : StatLayout} (hat : layout.sizeAt + 4 = host.stat.sizeAt)
    (hwidth : layout.sizeWidth = 8) {size : Nat} (hsize : sizeIn layout m stat = some size)
    (hown : sizeIn host.stat m stat = some target.length) (htarget : target.length < pathMax) :
    2 ^ 32 * target.length ≤ size := by
  obtain ⟨bytes, hload, rfl⟩ := Option.map_eq_some_iff.mp hsize
  obtain ⟨own, hownload, hlength⟩ := Option.map_eq_some_iff.mp hown
  rw [hwidth] at hload
  rw [(stat_fits host).1] at hownload
  have hhigh := AddressSpace.load_drop hload (show 4 ≤ 8 by decide)
  rw [AddressSpace.add_offset, hat, AddressSpace.load_take hownload (by decide)] at hhigh
  have hbytes := littleEndian_append (bytes.take 4) (bytes.drop 4)
  have hsplit := littleEndian_append (own.take 4) (own.drop 4)
  have htake : (bytes.take 4).length = 4 := by
    rw [List.length_take, AddressSpace.load_length hload]
    rfl
  have hown4 : (own.take 4).length = 4 := by
    rw [List.length_take, AddressSpace.load_length hownload]
    rfl
  have hsame : own.take 4 = bytes.drop 4 := Option.some.inj hhigh
  rw [List.take_append_drop, htake] at hbytes
  rw [List.take_append_drop, hown4, hlength, hsame] at hsplit
  unfold pathMax at htarget
  omega

end

/-! ## What `readlink` returns -/

/-- **With room enough, `readlink` counts the detranslated text**, or its terminator as well where
that just fits. -/
theorem readlinkExit_count {sys : Sys W} (hinv : ListInv sys.bindings)
    (hbuf : Buffered sys.bindings) (memory : TraceeMemory) (output : Nat) {size : Nat}
    {target d referer : CStr} {status : Nat} (hsize : pathMax ≤ size)
    (htarget : target.length < pathMax)
    (hd : detranslatePath sys target (some referer) = .ok (d, status)) :
    (readlinkExit sys (hostReadlink memory output size target).1 output size (.ok referer)
        (.ok target) (.ok (hostReadlink memory output size target).2)).2 =
      .ok (readlinkCount target d status) := by
  have hmax : min size pathMax = pathMax := Nat.min_eq_right hsize
  have hfull := fullReferee_target memory output size htarget
  rw [hmax] at hfull
  unfold readlinkExit readlinkCount
  dsimp only
  rw [hmax, if_neg (by decide), hfull, hd]
  dsimp only
  rcases detranslatePath_spec hinv hbuf htarget d status hd with ⟨rfl, rfl⟩ | ⟨rfl, hdlen⟩
  · rw [if_pos rfl, if_pos rfl, hostReadlink, List.length_take, Nat.min_eq_right (by omega)]
  · rw [if_neg (Nat.succ_ne_zero _), if_neg (Nat.succ_ne_zero _)]
    by_cases hroom : d.length + 1 < pathMax
    · rw [if_pos hroom, if_pos hroom]
      rfl
    · rw [if_neg hroom, if_neg hroom]

theorem readlinkCount_le {target : CStr} (d : CStr) (status : Nat) (htarget : target.length < pathMax) :
    readlinkCount target d status ≤ pathMax := by
  unfold readlinkCount
  split_ifs <;> omega

/-! ## The size of a link -/

section

variable {m m' : Space host} {stat : Address host} {statl : Bytes} {target : CStr}
  {call : LstatCall} {abi : Abi} {kernelSize count : Nat}

/-- The size is written in the place where the tracee has it. -/
theorem stored_same (hat : (kernelStat host abi call).sizeAt = host.stat.sizeAt)
    (hwidth : (kernelStat host abi call).sizeWidth = 8) (htarget : target.length < pathMax)
    (hstore : m.store ((untagPointer host stat).plus host.stat.sizeAt)
      (wordBytes 8 target.length) = some m') :
    SizeOnly (kernelStat host abi call) m stat count (m', .ok ()) ↔ target.length = count := by
  have hspace : 8 ≤ 2 ^ (8 * host.word) := by
    cases host <;> decide
  have hload := AddressSpace.load_store hstore (by rw [wordBytes_length]; exact hspace)
  rw [wordBytes_length] at hload
  have hsize : sizeIn (kernelStat host abi call) m' stat = some target.length := by
    rw [← sizeIn_own hload htarget]
    unfold sizeIn
    rw [hat, hwidth, (stat_fits host).1]
  refine ⟨fun hright => Option.some.inj (hsize.symm.trans hright.size), fun hcount => ?_⟩
  refine ⟨rfl, hsize.trans (congrArg some hcount), fun x hx => ?_⟩
  obtain ⟨-, rfl⟩ := AddressSpace.store_eq_some_iff.1 hstore
  rw [hwidth, hat] at hx
  exact if_neg (by rw [wordBytes_length]; omega)

/-- The size is written elsewhere. -/
theorem stored_elsewhere (hne : target ≠ []) (htarget : target.length < pathMax)
    (hcount : count ≤ pathMax)
    (hat : (kernelStat host abi call).sizeAt ≠ host.stat.sizeAt)
    (hkernel : sizeIn (kernelStat host abi call) m stat = some kernelSize)
    (hstore : m.store ((untagPointer host stat).plus host.stat.sizeAt)
      (wordBytes 8 target.length) = some m') :
    SizeOnly (kernelStat host abi call) m stat count (m', .ok ()) ↔
      kernelSize = count ∧ sizeIn host.stat m stat = some target.length := by
  have hspace : 2 ^ 32 ≤ 2 ^ (8 * host.word) := by
    cases host <;> decide
  have hload := AddressSpace.load_store hstore (by rw [wordBytes_length]; omega)
  rw [wordBytes_length] at hload
  have hpos := List.length_pos_iff.mpr hne
  have hown := sizeIn_own hload htarget
  constructor
  · intro hright
    rcases kernelStat_cases host abi call with ⟨hsame, -⟩ | ⟨-, hapart⟩ | ⟨hbefore, hwidth⟩
    · exact absurd hsame hat
    · obtain ⟨hwidth, -, -, -⟩ := stat_fits host
      have hle := stat_at_le host
      have hkept : sizeIn (kernelStat host abi call) m' stat = some kernelSize := by
        rw [← hkernel]
        unfold sizeIn
        rw [AddressSpace.load_store_apart hstore]
        intro i hi
        rw [wordBytes_length, AddressSpace.add_offset]
        exact plus_before (by omega) hle
      refine ⟨Option.some.inj (hkept.symm.trans hright.size), ?_⟩
      rw [← hown]
      unfold sizeIn
      rw [hwidth, AddressSpace.load_congr]
      intro i hi
      refine (hright.others _ ?_).symm
      rw [AddressSpace.add_offset, plus_after (by omega) (by omega)]
      omega
    · have hlarge := sizeIn_before hbefore hwidth hright.size hown htarget
      unfold pathMax at hcount
      omega
  · rintro ⟨rfl, hsame⟩
    obtain ⟨bytes, hbytes, hlength⟩ := Option.map_eq_some_iff.mp hsame
    rw [(stat_fits host).1] at hbytes
    have hword : wordBytes 8 target.length = bytes := by
      have hback := wordBytes_littleEndian bytes
      rwa [hlength, AddressSpace.load_length hbytes] at hback
    rw [← hword] at hbytes
    have hm := store_same (by rw [wordBytes_length]; exact hbytes) hstore
    subst hm
    exact ⟨rfl, hkernel, fun _ _ => rfl⟩

/-- **`lstat` and `readlink` agree** on the length of a link, and nothing else changes, if and only
if the size is right; what is no link is left alone. -/
theorem lstat_size_iff {sys : Sys W} (hinv : ListInv sys.bindings) (hbuf : Buffered sys.bindings)
    (memory : TraceeMemory) (output : Nat) {size : Nat} {d referer : CStr} {status : Nat}
    (processVm : Bool) {found : Except Errno (Option CStr)} (hsize : pathMax ≤ size)
    (htarget : target.length < pathMax) (hne : target ≠ [])
    (hd : detranslatePath sys target (some referer) = .ok (d, status))
    (hstatl : statl.length = host.stat.size)
    (hfound : ∀ link, found = .ok link → link = some target)
    (hkernel : sizeIn (kernelStat host abi call) m stat = some kernelSize) :
    fixSymlinkSize processVm call (.ok none) statl m stat = (m, .ok ()) ∧
      ∃ count,
        (readlinkExit sys (hostReadlink memory output size target).1 output size (.ok referer)
          (.ok target) (.ok (hostReadlink memory output size target).2)).2 = .ok count ∧
        (SizeOnly (kernelStat host abi call) m stat count
            (fixSymlinkSize processVm call found statl m stat) ↔
          SizeRight call abi found m stat kernelSize (readlinkCount target d status) target) := by
  refine ⟨by cases call <;> rfl, readlinkCount target d status,
    readlinkExit_count hinv hbuf memory output hsize htarget hd, ?_⟩
  have hcount := readlinkCount_le d status htarget
  by_cases hcall : call = .fstatat
  · subst hcall
    constructor
    · intro hright
      exact ⟨fun _ => Option.some.inj (hkernel.symm.trans hright.size), fun h => absurd rfl h,
        fun h => absurd rfl h, fun h => absurd rfl h, fun h => absurd rfl h⟩
    · intro hright
      exact ⟨rfl, hkernel.trans (congrArg some (hright.left rfl)), fun _ _ => rfl⟩
  · cases found with
    | error failure =>
        constructor
        · intro hright
          have hfails : (fixSymlinkSize processVm call (.error failure) statl m stat).2 =
              .error failure := by
            cases call with
            | fstatat => exact absurd rfl hcall
            | lstat => rfl
            | lstat64 => rfl
          rw [hright.succeeds] at hfails
          cases hfails
        · intro hright
          cases hright.found hcall
    | ok link =>
        obtain rfl := hfound link rfl
        rcases @fixSymlinkSize_link _ m stat _ _ processVm _ hcall hstatl htarget with
          ⟨m', hstore, hmapped, hrun⟩ | ⟨hunmapped, hfails⟩
        · rw [hrun]
          by_cases hat : (kernelStat host abi call).sizeAt = host.stat.sizeAt
          · have hwidth : (kernelStat host abi call).sizeWidth = 8 := by
              rcases kernelStat_cases host abi call with ⟨-, hwidth⟩ | ⟨hlt, -⟩ | ⟨hbefore, -⟩
              · exact hwidth
              · omega
              · omega
            rw [stored_same hat hwidth htarget hstore]
            exact ⟨fun h => ⟨fun h => absurd h hcall, fun _ => rfl, fun _ => hmapped,
              fun _ _ => h, fun _ h => absurd hat.symm h⟩,
              fun hright => hright.length hcall hat.symm⟩
          · rw [stored_elsewhere hne htarget hcount hat hkernel hstore]
            exact ⟨fun h => ⟨fun h => absurd h hcall, fun _ => rfl, fun _ => hmapped,
              fun _ h => absurd h.symm hat, fun _ _ => h⟩,
              fun hright => hright.already hcall fun h => hat h.symm⟩
        · constructor
          · intro hright
            exact absurd hright.succeeds hfails
          · intro hright
            have hmapped := hright.reached hcall
            rw [hunmapped] at hmapped
            cases hmapped

end

/-- A memory that is mapped everywhere. -/
def blankSpace (host : Host) : Space host := fun _ => some 0

theorem blankSpace_mapped (host : Host) (a : Address host) (size : Nat) :
    ((blankSpace host).load a size).isSome :=
  AddressSpace.load_isSome_iff.2 fun _ _ => rfl

/-- An `lstat` of "/proc/1/exe", which the kernel gives no size: the extension counts the text of
the host, `readlink` that of the guest. -/
theorem lstat_size_host : ∃ after : Space .ARCH_X86_64,
    fixSymlinkSize true .lstat (.ok (some "/r/bin/sh".toList)) (List.replicate 144 0)
        (blankSpace .ARCH_X86_64) 0 = (after, .ok ()) ∧
      sizeIn (kernelStat .ARCH_X86_64 .ABI_DEFAULT .lstat) after 0 = some 9 ∧
      (readlinkExit (rootedSys "/r".toList)
        (hostReadlink (fun _ => ' ') 0 pathMax "/r/bin/sh".toList).1 0 pathMax
        (.ok "/proc/1/exe".toList) (.ok "/r/bin/sh".toList)
        (.ok (hostReadlink (fun _ => ' ') 0 pathMax "/r/bin/sh".toList).2)).2 = .ok 7 ∧
      ¬ SizeOnly (kernelStat .ARCH_X86_64 .ABI_DEFAULT .lstat) (blankSpace .ARCH_X86_64) 0 7
        (fixSymlinkSize true .lstat (.ok (some "/r/bin/sh".toList)) (List.replicate 144 0)
          (blankSpace .ARCH_X86_64) 0) := by
  obtain ⟨hinv, hbuf, hd⟩ := shell_detranslated
  have hlength : ("/r/bin/sh".toList).length < pathMax := by decide
  have hread := readlinkExit_count hinv hbuf (fun _ => ' ') 0 (Nat.le_refl pathMax) hlength hd
  rcases @fixSymlinkSize_link .ARCH_X86_64 (blankSpace .ARCH_X86_64) 0 (List.replicate 144 0)
    "/r/bin/sh".toList true .lstat (by decide) List.length_replicate hlength with
    ⟨after, hstore, -, hrun⟩ | ⟨hunmapped, -⟩
  · have hright : ∀ count, SizeOnly (kernelStat .ARCH_X86_64 .ABI_DEFAULT .lstat)
        (blankSpace .ARCH_X86_64) 0 count (after, .ok ()) ↔ 9 = count :=
      fun count => stored_same rfl rfl hlength hstore
    refine ⟨after, hrun, ((hright 9).2 rfl).size, hread, fun hsize => ?_⟩
    rw [hrun, hright] at hsize
    cases hsize
  · have hmapped := blankSpace_mapped .ARCH_X86_64 (untagPointer .ARCH_X86_64 0) 144
    rw [show (blankSpace .ARCH_X86_64).load (untagPointer .ARCH_X86_64 0) 144 = none from hunmapped]
      at hmapped
    cases hmapped

/-- A link that reads "bash", in a directory of the guest. -/
theorem lstat_size_relative : ∃ count,
    (readlinkExit (rootedSys "/r".toList) (hostReadlink (fun _ => ' ') 0 pathMax "bash".toList).1 0
      pathMax (.ok "/r/bin/sh".toList) (.ok "bash".toList)
      (.ok (hostReadlink (fun _ => ' ') 0 pathMax "bash".toList).2)).2 = .ok count ∧
    SizeOnly (kernelStat .ARCH_X86_64 .ABI_DEFAULT .lstat) (blankSpace .ARCH_X86_64) 0 count
      (fixSymlinkSize true .lstat (.ok (some "bash".toList)) (List.replicate 144 0)
        (blankSpace .ARCH_X86_64) 0) := by
  obtain ⟨hinv, hbuf, -⟩ := shell_detranslated
  have hd : detranslatePath (rootedSys "/r".toList) "bash".toList (some "/r/bin/sh".toList) =
      .ok ("bash".toList, 0) := by decide
  obtain ⟨-, count, hread, hiff⟩ := @lstat_size_iff _ .ARCH_X86_64
    (blankSpace .ARCH_X86_64) 0 (List.replicate 144 0) "bash".toList .lstat .ABI_DEFAULT 0 _
    hinv hbuf (fun _ => ' ') 0 pathMax _ _ _ true (.ok (some "bash".toList))
    (Nat.le_refl pathMax) (by decide) (by decide) hd List.length_replicate
    (fun link h => (Except.ok.inj h).symm) (by decide)
  refine ⟨count, hread, hiff.2 ?_⟩
  exact ⟨fun h => (by cases h), fun _ => rfl,
    fun _ => blankSpace_mapped .ARCH_X86_64 (untagPointer .ARCH_X86_64 0) 144, fun _ _ => rfl,
    fun _ h => absurd rfl h⟩

end PRoot
