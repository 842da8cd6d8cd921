import PRoot.Detranslate
import PRoot.ScriptLines
import PRoot.SendmsgFixups
import PRoot.Translate

/-!
# Names of Unix sockets

The paths of Unix sockets are translated when they are bound, and back when the tracee asks for
them (`syscall/socket.c`).

* `translateSocketcallEnter`, `translateSocketcallExit`: the two ways;
* `boundName`: the name that the kernel keeps of a socket;
* `SocketNameGiven`: what the tracee is to be given for it;
* `socket_name_given_iff`: when it is.
-/

namespace PRoot

section

variable {W : Type} {host : Host}

/-- `sizeof_path`. -/
def sizeofPath : Nat := 108

/-- `sizeof(struct sockaddr_un)`. -/
def sizeofSockaddrUn : Nat := 2 + sizeofPath

/-- The bytes of a path. -/
def sunPathBytes (path : CStr) : Bytes := path.map fun c => BitVec.ofNat 8 c.toNat

/-- `strncpy` into `sun_path`. -/
def setSunPath (sockaddr : Bytes) (path : CStr) : Bytes :=
  sockaddr.take 2 ++ ((sunPathBytes path).take sizeofPath ++
    List.replicate (sizeofPath - path.length) 0)

/-- `read_sockaddr_un`: the address and its path, if there is one. -/
def readSockaddrUn (m : Space host) (maxSize : Nat) (a : Address host) (size : BitVec 32) :
    Except Errno (Option (Bytes × Bytes)) :=
  if size.toInt ≤ 2 ∨ maxSize < size.toNat then .ok none
  else
    match readAll m a size.toNat with
    | .error status => .error status
    | .ok bytes =>
        let sockaddr := bytes ++ List.replicate (sizeofSockaddrUn - bytes.length) 0
        if littleEndian (sockaddr.take 2) ≠ 1 ∨ sockaddr.getD 2 0 = 0 then .ok none
        else .ok (some (sockaddr, (sockaddr.drop 2).takeWhile (· ≠ 0)))

section

variable (k : Kernel W) (fuel : Nat) (createTempName : Option CStr) (mktemp : CStr → CStr)

/-- The path to be bound: a longer one is bound to a shorter one first. -/
def shortenPath (sys : Sys W) (hostPath : CStr) : Sys W × Except Errno CStr :=
  if hostPath.length ≤ sizeofPath then (sys, .ok hostPath)
  else
    match createTempName with
    | none => (sys, .error .EINVAL)
    | some shorter =>
        if sizeofPath < shorter.length ∨ sizeofPath < (mktemp shorter).length then
          (sys, .error .EINVAL)
        else
          match detranslatePath sys hostPath none with
          | .error _ => (sys, .error .EINVAL)
          | .ok (userPath, _) =>
              (sys.insortBinding3 (mktemp shorter) userPath, .ok (mktemp shorter))

/-- `translate_socketcall_enter`: there may be a new address. -/
def translateSocketcallEnter (abi : Abi) (sys : Sys W) (entered : EnteredCall host)
    (address : Address host) (size : BitVec 32) :
    Option (Sys W × EnteredCall host × Except Errno (Option (Address host))) :=
  if address = 0 then some (sys, entered, .ok none)
  else
    match readSockaddrUn entered.memory sizeofSockaddrUn address size with
    | .error status => some (sys, entered, .error status)
    | .ok none => some (sys, entered, .ok none)
    | .ok (some (sockaddr, userPath)) =>
        (translatePath k fuel sys atFdCwd (fileChars userPath) true).map fun outcome =>
          match outcome.result with
          | .error status => (outcome.sys, entered, .error status)
          | .ok hostPath =>
              match shortenPath createTempName mktemp outcome.sys hostPath with
              | (sys, .error status) => (sys, entered, .error status)
              | (sys, .ok hostPath) =>
                  match entered.push abi (setSunPath sockaddr hostPath) .EFAULT with
                  | (entered, .error status) => (sys, entered, .error status)
                  | (entered, .ok address) => (sys, entered, .ok (some address))

/-- The path that the kernel finds in an address (`AF_UNIX`). -/
def kernelSunPath (m : Space host) (a : Address host) : Option Bytes := do
  let sockaddr ← m.load (untagPointer host a) sizeofSockaddrUn
  let name := (sockaddr.drop 2).takeWhile (· ≠ 0)
  if littleEndian (sockaddr.take 2) = 1 ∧ name ≠ [] then some name else none

/-- **The name that a socket is bound to.** -/
def boundName (abi : Abi) (sys : Sys W) (entered : EnteredCall host) (address : Address host)
    (size : BitVec 32) : Option Bytes := do
  let (_, entered, result) ←
    translateSocketcallEnter k fuel createTempName mktemp abi sys entered address size
  match result with
  | .ok (some address) => kernelSunPath entered.memory address
  | _ => none

end

/-! ## Names that are asked for -/

/-- An address with a path, as the kernel keeps it: the path ends in it. -/
def sunName (name : Bytes) : Bytes := wordBytes 2 1 ++ name ++ [0]

/-- `move_addr_to_user`: what fits is copied, the length is that of the whole. -/
def moveAddrToUser (m : Space host) (address : Bytes) (sockAddr sizeAddr : Address host) :
    Space host × Except Errno Unit :=
  match m.load (untagPointer host sizeAddr) 4 with
  | none => (m, .error .EFAULT)
  | some bytes =>
      let size : BitVec 32 := BitVec.ofNat 32 (littleEndian bytes)
      if size.toInt < 0 then (m, .error .EINVAL)
      else
        match m.store (untagPointer host sockAddr) (address.take size.toNat) with
        | none => (m, .error .EFAULT)
        | some m =>
            match m.store (untagPointer host sizeAddr) (wordBytes 4 address.length) with
            | none => (m, .error .EFAULT)
            | some m => (m, .ok ())

/-- `translate_socketcall_exit`. -/
def translateSocketcallExit (sys : Sys W) (m : Space host) (sockAddr sizeAddr : Address host)
    (maxSize : Nat) : Space host × Except Errno Unit :=
  if sockAddr = 0 then (m, .ok ())
  else
    match readAll m sizeAddr 4 with
    | .error status => (m, .error status)
    | .ok size =>
        let maxSize := min maxSize sizeofSockaddrUn
        match readSockaddrUn m maxSize sockAddr (BitVec.ofNat 32 (littleEndian size)) with
        | .error status => (m, .error status)
        | .ok none => (m, .ok ())
        | .ok (some (sockaddr, path)) =>
            match detranslatePath sys (fileChars path) none with
            | .error status => (m, .error status)
            | .ok (path, _) =>
                let size := 2 + path.length + 1
                match MemoryAccess.writeData true m sockAddr
                    ((setSunPath sockaddr path).take (min size maxSize)) with
                | (m, .error status) => (m, .error status)
                | (m, .ok _) => MemoryAccess.writeData true m sizeAddr
                    (wordBytes 4 (if maxSize < size then maxSize + 1 else size))

/-- `getsockname`, `getpeername`, or an `accept` that asks for an address: the size of the buffer
is looked up, the kernel answers, and the answer is translated. -/
def socketNameCall (abi : Abi) (sys : Sys W) (name : Bytes) (m : Space host)
    (sockAddr sizeAddr : Address host) : Space host × Except Errno Unit :=
  match readAll m sizeAddr (sizeofWord host abi) with
  | .error status => (m, .error status)
  | .ok word =>
      let size : BitVec 32 := BitVec.ofNat 32 (littleEndian word)
      match moveAddrToUser m (sunName name) sockAddr sizeAddr with
      | (m, .error status) => (m, .error status)
      | (m, .ok _) => translateSocketcallExit sys m sockAddr sizeAddr
          (sysarg abi (size.signExtend 64) : Address host).toNat

/-! ## What is to be given -/

/-- Two ranges have no byte in common. -/
def RangesApart (a : Address host) (size : Nat) (b : Address host) (size' : Nat) : Prop :=
  ∀ i < size, ∀ j < size', a.plus i ≠ b.plus j

/-- The buffer of a tracee and the place of its size. -/
structure NameBufferAt (abi : Abi) (m : Space host) (sockAddr sizeAddr : Address host)
    (old : Bytes) : Prop where
  size : ∃ word, m.load (untagPointer host sizeAddr) (sizeofWord host abi) = some word ∧
    littleEndian word % 2 ^ 32 = old.length
  positive : old.length < 2 ^ 31
  buffer : m.load (untagPointer host sockAddr) old.length = some old
  apart : RangesApart (untagPointer host sockAddr) old.length (untagPointer host sizeAddr) 4

/-- **What a tracee is to be given for a socket:** the guest path, cut as the kernel would, its
length, and no byte of the name that the kernel has. -/
structure SocketNameGiven (m : Space host) (sockAddr sizeAddr : Address host)
    (old name guest : Bytes) (given : Space host × Except Errno Unit) : Prop where
  status : given.2 = .ok ()
  size : ∃ bytes, given.1.load (untagPointer host sizeAddr) 4 = some bytes ∧
    littleEndian bytes = (sunName guest).length
  address : given.1.load (untagPointer host sockAddr) (min old.length (sunName guest).length) =
    some ((sunName guest).take old.length)
  host : ∀ i, guest.length < i → i < name.length → i + 2 < old.length →
    given.1 ((untagPointer host sockAddr).plus (i + 2)) =
      m ((untagPointer host sockAddr).plus (i + 2))

/-- The whole name is in the buffer, and no longer than PRoot reads. -/
def NameComplete (sockAddr : Address host) (old name : Bytes) : Prop :=
  sockAddr ≠ 0 ∧ name.length + 3 ≤ min old.length sizeofSockaddrUn

/-- The name is not seen, and looks like the guest path; or it is translated to it. -/
structure SocketNameFits (sys : Sys W) (sockAddr : Address host) (old name guest : Bytes) :
    Prop where
  incomplete : ¬ NameComplete sockAddr old name → name.length = guest.length ∧
    (sunName name).take old.length = (sunName guest).take old.length
  complete : NameComplete sockAddr old name → ∃ path n,
    detranslatePath sys (fileChars name) none = .ok (path, n) ∧
    if path.length + 3 ≤ min old.length sizeofSockaddrUn then
      sunPathBytes path = guest ∧
        ∀ i, guest.length < i → i < name.length → name[i]? = old[i + 2]?
    else
      guest.length + 2 = min old.length sizeofSockaddrUn ∧
        (sunPathBytes path).take guest.length = guest ∧
        (sizeofSockaddrUn < old.length → old[sizeofSockaddrUn]? = some 0)

/-! ## Buffers -/

theorem sunPathBytes_length (path : CStr) : (sunPathBytes path).length = path.length := by
  unfold sunPathBytes
  rw [List.length_map]

theorem sunName_length (name : Bytes) : (sunName name).length = name.length + 3 := by
  unfold sunName
  rw [List.length_append, List.length_append, show (wordBytes 2 1).length = 2 from rfl,
    List.length_singleton]
  omega

/-- A name is that of a socket that is bound. -/
structure IsSunPath (name : Bytes) : Prop where
  nonempty : name ≠ []
  length : name.length ≤ sizeofPath
  noNul : ∀ byte ∈ name, byte ≠ 0

theorem kernelSunPath_isSunPath {m : Space host} {a : Address host} {name : Bytes}
    (h : kernelSunPath m a = some name) : IsSunPath name := by
  unfold kernelSunPath at h
  cases hload : m.load (untagPointer host a) sizeofSockaddrUn with
  | none => rw [hload] at h; cases h
  | some sockaddr =>
      rw [hload] at h
      have hlength := AddressSpace.load_length hload
      dsimp only [Option.bind_eq_bind, Option.bind_some] at h
      split at h
      case isFalse => cases h
      case isTrue hsun =>
        cases h
        refine ⟨hsun.2, ?_, ?_⟩
        · have hle := (List.takeWhile_sublist (p := fun byte : BitVec 8 => decide (byte ≠ 0))
            (l := sockaddr.drop 2)).length_le
          rw [List.length_drop, hlength] at hle
          exact hle
        · intro byte hbyte
          exact of_decide_eq_true
            (List.mem_takeWhile_imp (p := fun byte : BitVec 8 => decide (byte ≠ 0)) hbyte)

theorem boundName_isSunPath {k : Kernel W} {fuel : Nat} {createTempName : Option CStr}
    {mktemp : CStr → CStr} {abi : Abi} {sys : Sys W} {entered : EnteredCall host}
    {address : Address host} {size : BitVec 32} {name : Bytes}
    (h : boundName k fuel createTempName mktemp abi sys entered address size = some name) :
    IsSunPath name := by
  unfold boundName at h
  obtain ⟨answer, -, h⟩ := Option.bind_eq_some_iff.mp h
  obtain ⟨sys, entered, result⟩ := answer
  dsimp only at h
  split at h
  · exact kernelSunPath_isSunPath h
  · cases h

variable {m m' : Space host} {a b : Address host} {old bytes : Bytes}

/-- A buffer after its first bytes are written. -/
theorem load_overwritten (hold : m.load a old.length = some old)
    (hlength : bytes.length ≤ old.length) (hlimit : old.length < 2 ^ (8 * host.word))
    (h : m.store a bytes = some m') :
    m'.load a old.length = some (bytes ++ old.drop bytes.length) := by
  have hrefill := AddressSpace.store_refill hold hlength
  have htotal : (bytes ++ old.drop bytes.length).length = old.length := by
    rw [List.length_append, List.length_drop]
    omega
  have hload := AddressSpace.load_store (hrefill.trans h) (by rw [htotal]; exact hlimit.le)
  rw [htotal] at hload
  exact hload

theorem RangesApart.symm {size size' : Nat} (h : RangesApart a size b size') :
    RangesApart b size' a size :=
  fun i hi j hj => (h j hj i hi).symm

/-- A range is not written with another one. -/
theorem RangesApart.load {size k : Nat} (hapart : RangesApart a size b k)
    (hlength : bytes.length ≤ size) (h : m.store a bytes = some m') : m'.load b k = m.load b k := by
  apply AddressSpace.load_store_apart h
  intro j hj
  by_contra hin
  refine hapart (b + BitVec.ofNat _ j - a).toNat (by omega) j hj ?_
  change a + BitVec.ofNat _ _ = _
  rw [BitVec.ofNat_toNat, BitVec.setWidth_eq, BitVec.add_comm a, BitVec.sub_add_cancel]

/-- What is mapped can be written. -/
theorem store_of_load (hold : m.load a old.length = some old)
    (hlength : bytes.length ≤ old.length) :
    ∃ m', m.store a bytes = some m' := by
  refine Option.isSome_iff_exists.mp (AddressSpace.store_isSome_iff.mpr ?_)
  rw [AddressSpace.load_take hold hlength]
  rfl

/-! ## The two sides -/

variable {name guest : Bytes} {path : CStr}

/-- `take` of a name and its terminator. -/
theorem sunName_take {k : Nat} (hk : k ≤ name.length) :
    (sunName name).take (k + 2) = wordBytes 2 1 ++ name.take k := by
  unfold sunName
  rw [List.append_assoc, List.take_append, show (wordBytes 2 1).length = 2 from rfl,
    List.take_of_length_le (show (wordBytes 2 1).length ≤ k + 2 by
      rw [show (wordBytes 2 1).length = 2 from rfl]; omega),
    Nat.add_sub_cancel, List.take_append_of_le_length hk]

/-- **A name is read** where the kernel has given all of it. -/
theorem readSockaddrUn_complete {maxSize : Nat} (hname : IsSunPath name)
    (hload : m.load (untagPointer host a) (name.length + 3) = some (sunName name))
    (hmax : name.length + 3 ≤ maxSize) (hlimit : maxSize ≤ sizeofSockaddrUn) :
    ∃ rest, readSockaddrUn m maxSize a (BitVec.ofNat 32 (name.length + 3)) =
      .ok (some (wordBytes 2 1 ++ rest, name)) := by
  have hsmall : sizeofSockaddrUn = 110 := rfl
  have hnat : (BitVec.ofNat 32 (name.length + 3)).toNat = name.length + 3 := by
    rw [BitVec.toNat_ofNat]
    omega
  have hint : (BitVec.ofNat 32 (name.length + 3)).toInt = name.length + 3 := by
    rw [BitVec.toInt_eq_toNat_of_lt (by rw [hnat]; omega), hnat]
    rfl
  obtain ⟨byte, tail, rfl⟩ := List.exists_cons_of_ne_nil hname.nonempty
  have hbyte := hname.noNul byte (List.mem_cons_self ..)
  refine ⟨(byte :: tail) ++ [0] ++
    List.replicate (sizeofSockaddrUn - (sunName (byte :: tail)).length) 0, ?_⟩
  unfold readSockaddrUn
  rw [hint, hnat, if_neg (by omega), readAll_eq (by omega), hload]
  dsimp only
  have hparts : sunName (byte :: tail) ++
      List.replicate (sizeofSockaddrUn - (sunName (byte :: tail)).length) 0 =
      wordBytes 2 1 ++ ((byte :: tail) ++ [0] ++
        List.replicate (sizeofSockaddrUn - (sunName (byte :: tail)).length) 0) := by
    unfold sunName
    simp only [List.append_assoc]
  rw [hparts, if_neg]
  · congr 3
    rw [List.append_assoc]
    exact takeWhile_append_of_notMem (fun hnul => hname.noNul 0 hnul rfl)
  · rintro (hfamily | hfirst)
    · exact hfamily rfl
    · exact hbyte hfirst

/-- It is not read where it is longer. -/
theorem readSockaddrUn_incomplete {maxSize : Nat} (hname : IsSunPath name)
    (hmax : maxSize < name.length + 3) :
    readSockaddrUn m maxSize a (BitVec.ofNat 32 (name.length + 3)) = .ok none := by
  have hsmall : sizeofPath = 108 := rfl
  have hlength := hname.length
  unfold readSockaddrUn
  rw [if_pos]
  right
  rw [BitVec.toNat_ofNat]
  omega

theorem setSunPath_family (rest : Bytes) :
    setSunPath (wordBytes 2 1 ++ rest) path =
      wordBytes 2 1 ++ ((sunPathBytes path).take sizeofPath ++
      List.replicate (sizeofPath - path.length) 0) := by
  have hfamily : (wordBytes 2 1 ++ rest).take 2 = wordBytes 2 1 := List.take_left' rfl
  unfold setSunPath
  rw [hfamily]

theorem setSunPath_short {rest : Bytes} {limit : Nat} (hpath : path.length + 3 ≤ limit)
    (hlimit : limit ≤ sizeofSockaddrUn) :
    (setSunPath (wordBytes 2 1 ++ rest) path).take (min (2 + path.length + 1) limit) =
      sunName (sunPathBytes path) := by
  have hsmall : sizeofSockaddrUn = 110 := rfl
  have hsun : sizeofPath = 108 := rfl
  have hlength := sunPathBytes_length path
  unfold sunName
  rw [setSunPath_family, List.take_of_length_le (l := sunPathBytes path) (by omega),
    Nat.min_eq_left (by omega), List.append_assoc]
  have hzeros : List.replicate (sizeofPath - path.length) (0 : BitVec 8) =
      0 :: List.replicate (sizeofPath - path.length - 1) 0 := by
    rw [← List.replicate_succ]
    congr 1
    omega
  rw [hzeros, List.append_cons, ← List.append_assoc (wordBytes 2 1)]
  refine List.take_left' ?_
  rw [List.length_append, List.length_append, hlength, List.length_singleton,
    show (wordBytes 2 1).length = 2 from rfl, Nat.add_assoc]

theorem setSunPath_long {rest : Bytes} {limit : Nat} (hpath : limit < path.length + 3)
    (hfamily : 2 ≤ limit) (hlimit : limit ≤ sizeofSockaddrUn) :
    (setSunPath (wordBytes 2 1 ++ rest) path).take (min (2 + path.length + 1) limit) =
      wordBytes 2 1 ++ (sunPathBytes path).take (limit - 2) := by
  have hsmall : sizeofSockaddrUn = 110 := rfl
  have hsun : sizeofPath = 108 := rfl
  have hlength := sunPathBytes_length path
  rw [setSunPath_family, Nat.min_eq_right (by omega), List.take_append,
    show (wordBytes 2 1).length = 2 from rfl,
    List.take_of_length_le (show (wordBytes 2 1).length ≤ limit from hfamily),
    List.take_append_of_le_length (by rw [List.length_take]; omega), List.take_take,
    Nat.min_eq_left (by omega)]

/-- What is given, by the buffer and the size there are in the end. -/
theorem socketNameGiven_iff {sockAddr sizeAddr : Address host} {length : Nat} {final : Bytes}
    (hold : m.load (untagPointer host sockAddr) old.length = some old)
    (hsize : m'.load (untagPointer host sizeAddr) 4 = some (wordBytes 4 length))
    (hfinal : m'.load (untagPointer host sockAddr) old.length = some final)
    (hlength : length < 2 ^ 32) :
    SocketNameGiven m sockAddr sizeAddr old name guest (m', .ok ()) ↔
      length = guest.length + 3 ∧
      final.take (min old.length (guest.length + 3)) = (sunName guest).take old.length ∧
      ∀ i, guest.length < i → i < name.length → i + 2 < old.length →
        final[i + 2]? = old[i + 2]? := by
  have hword : littleEndian (wordBytes 4 length) = length := by
    rw [littleEndian_wordBytes]
    exact Nat.mod_eq_of_lt hlength
  have hbytes := (AddressSpace.load_eq_some_iff.mp hold).2
  have hbytes' := (AddressSpace.load_eq_some_iff.mp hfinal).2
  constructor
  · rintro ⟨-, hgivenSize, haddress, hhost⟩
    obtain ⟨bytes, hload, hvalue⟩ := hgivenSize
    rw [hsize] at hload
    cases hload
    rw [hword, sunName_length] at hvalue
    rw [sunName_length, AddressSpace.load_take hfinal (Nat.min_le_left ..)] at haddress
    refine ⟨hvalue, Option.some.inj haddress, fun i hi hname hroom => ?_⟩
    rw [← hbytes (i + 2) hroom, ← hbytes' (i + 2) hroom]
    exact hhost i hi hname hroom
  · rintro ⟨hvalue, haddress, hhost⟩
    refine ⟨rfl, ⟨_, hsize, ?_⟩, ?_, fun i hi hname hroom => ?_⟩
    · rw [hword, sunName_length, hvalue]
    · rw [sunName_length, AddressSpace.load_take hfinal (Nat.min_le_left ..), haddress]
    · exact (hbytes' (i + 2) hroom).trans
        ((hhost i hi hname hroom).trans (hbytes (i + 2) hroom).symm)

/-- An answer is written: the buffer, then its size. -/
theorem store_answer {size : Bytes} (old bytes word : Bytes) (hold : m.load a old.length = some old)
    (hsize : m.load b 4 = some size) (hapart : RangesApart a old.length b 4)
    (hlimit : old.length < 2 ^ 31) (hlength : bytes.length ≤ old.length) (hword : word.length = 4) :
    ∃ m₁ m₂, m.store a bytes = some m₁ ∧ m₁.store b word = some m₂ ∧
      m₂.load a old.length = some (bytes ++ old.drop bytes.length) ∧ m₂.load b 4 = some word := by
  have hwidth : 2 ^ 32 ≤ 2 ^ (8 * host.word) := by cases host <;> decide
  obtain ⟨m₁, h₁⟩ := store_of_load hold hlength
  have hsize₁ : m₁.load b size.length = some size := by
    rw [AddressSpace.load_length hsize, hapart.load hlength h₁, hsize]
  obtain ⟨m₂, h₂⟩ : ∃ m₂, m₁.store b word = some m₂ := store_of_load hsize₁ (by
    rw [AddressSpace.load_length hsize, hword])
  refine ⟨m₁, m₂, h₁, h₂, ?_, ?_⟩
  · rw [hapart.symm.load (by rw [hword]) h₂]
    exact load_overwritten hold hlength (by omega) h₁
  · have hload := AddressSpace.load_store h₂ (by omega)
    rwa [hword] at hload

/-- The size that the kernel finds in a word. -/
theorem littleEndian_low {word size : Bytes} (hword : 4 ≤ word.length)
    (hsize : word.take 4 = size) :
    littleEndian size = littleEndian word % 2 ^ 32 := by
  have hparts := List.take_append_drop 4 word
  rw [hsize] at hparts
  have hlength : size.length = 4 := by rw [← hsize, List.length_take, Nat.min_eq_left hword]
  have hlt := littleEndian_lt size
  rw [hlength] at hlt
  rw [← hparts, littleEndian_append, hlength, show 256 ^ 4 = 2 ^ 32 from rfl,
    Nat.add_mul_mod_self_left]
  exact (Nat.mod_eq_of_lt hlt).symm

/-- The buffer after the kernel's answer. -/
def kernelFilled (name old : Bytes) : Bytes :=
  (sunName name).take old.length ++ old.drop ((sunName name).take old.length).length

theorem kernelFilled_length : (kernelFilled name old).length = old.length := by
  unfold kernelFilled
  rw [List.length_append, List.length_drop, List.length_take]
  omega

/-- **The kernel answers** wherever there is a buffer. -/
theorem moveAddrToUser_ok {abi : Abi} {sockAddr sizeAddr : Address host} (name : Bytes)
    (hbuffer : NameBufferAt abi m sockAddr sizeAddr old) :
    ∃ m', moveAddrToUser m (sunName name) sockAddr sizeAddr = (m', .ok ()) ∧
      m'.load (untagPointer host sizeAddr) 4 = some (wordBytes 4 (name.length + 3)) ∧
      m'.load (untagPointer host sockAddr) old.length = some (kernelFilled name old) := by
  obtain ⟨word, hword, hvalue⟩ := hbuffer.size
  have hfour : 4 ≤ sizeofWord host abi := by cases host <;> cases abi <;> decide
  have hsize := AddressSpace.load_take hword hfour
  have hlow : littleEndian (word.take 4) = littleEndian word % 2 ^ 32 := littleEndian_low
    (by rw [AddressSpace.load_length hword]; exact hfour) rfl
  have hpositive := hbuffer.positive
  have hnat : (BitVec.ofNat 32 (littleEndian (word.take 4))).toNat = old.length := by
    rw [BitVec.toNat_ofNat, hlow, Nat.mod_mod, hvalue]
  have hint : ¬ (BitVec.ofNat 32 (littleEndian (word.take 4))).toInt < 0 := by
    rw [BitVec.toInt_eq_toNat_of_lt (by rw [hnat]; omega)]
    omega
  obtain ⟨m₁, m₂, h₁, h₂, hfilled, hanswered⟩ := store_answer
    old ((sunName name).take old.length) (wordBytes 4 (name.length + 3))
    hbuffer.buffer hsize hbuffer.apart hpositive (by rw [List.length_take]; omega) rfl
  refine ⟨m₂, ?_, hanswered, hfilled⟩
  unfold moveAddrToUser
  rw [hsize]
  dsimp only
  rw [if_neg hint, hnat, h₁]
  dsimp only
  rw [sunName_length, h₂]

/-- The buffer after a path is written over it. -/
def pathFilled (path : CStr) (limit : Nat) (filled : Bytes) : Bytes :=
  if path.length + 3 ≤ limit then
    sunName (sunPathBytes path) ++ filled.drop (path.length + 3)
  else wordBytes 2 1 ++ (sunPathBytes path).take (limit - 2) ++ filled.drop limit

section

variable {sys : Sys W} {sockAddr sizeAddr : Address host}

/-- What is found at the exit of a call. -/
structure AnsweredAt (m : Space host) (sockAddr sizeAddr : Address host) (old name : Bytes) :
    Prop where
  size : m.load (untagPointer host sizeAddr) 4 = some (wordBytes 4 (name.length + 3))
  buffer : m.load (untagPointer host sockAddr) old.length = some (kernelFilled name old)
  apart : RangesApart (untagPointer host sockAddr) old.length (untagPointer host sizeAddr) 4
  positive : old.length < 2 ^ 31

theorem AnsweredAt.readAll (h : AnsweredAt m sockAddr sizeAddr old name) (hname : IsSunPath name) :
    ∃ size, readAll m sizeAddr 4 = .ok size ∧
      BitVec.ofNat 32 (littleEndian size) = BitVec.ofNat 32 (name.length + 3) := by
  have hlength := hname.length
  have hsmall : sizeofPath = 108 := rfl
  refine ⟨wordBytes 4 (name.length + 3), ?_, ?_⟩
  · rw [readAll_eq (by decide), h.size]
  · rw [littleEndian_wordBytes, Nat.mod_eq_of_lt (by omega)]

/-- **An incomplete name** is left to the tracee. -/
theorem translateSocketcallExit_incomplete (h : AnsweredAt m sockAddr sizeAddr old name)
    (hname : IsSunPath name) (hincomplete : ¬ NameComplete sockAddr old name) :
    translateSocketcallExit sys m sockAddr sizeAddr old.length = (m, .ok ()) := by
  unfold translateSocketcallExit
  split
  case isTrue => rfl
  case isFalse hnull =>
    obtain ⟨size, hread, hsize⟩ := h.readAll hname
    have hlong : min old.length sizeofSockaddrUn < name.length + 3 := by
      by_contra hle
      exact hincomplete ⟨hnull, Nat.le_of_not_lt hle⟩
    rw [hread]
    dsimp only
    rw [hsize, readSockaddrUn_incomplete hname hlong]

/-- **A complete one** is translated. -/
theorem translateSocketcallExit_complete (sys : Sys W)
    (h : AnsweredAt m sockAddr sizeAddr old name)
    (hname : IsSunPath name) (hcomplete : NameComplete sockAddr old name) :
    match detranslatePath sys (fileChars name) none with
    | .error status =>
        translateSocketcallExit sys m sockAddr sizeAddr old.length = (m, .error status)
    | .ok (path, _) => ∃ m',
        translateSocketcallExit sys m sockAddr sizeAddr old.length = (m', .ok ()) ∧
        m'.load (untagPointer host sizeAddr) 4 = some (wordBytes 4
          (if min old.length sizeofSockaddrUn < path.length + 3 then
            min old.length sizeofSockaddrUn + 1 else path.length + 3)) ∧
        m'.load (untagPointer host sockAddr) old.length =
          some (pathFilled path (min old.length sizeofSockaddrUn) (kernelFilled name old)) := by
  obtain ⟨hnull, hroom⟩ := hcomplete
  obtain ⟨size, hread, hsize⟩ := h.readAll hname
  have hfilled : (kernelFilled name old).length = old.length := kernelFilled_length
  have hfirst : (kernelFilled name old).take (name.length + 3) = sunName name := by
    unfold kernelFilled
    rw [List.take_of_length_le (l := sunName name) (by rw [sunName_length]; omega)]
    exact List.take_left' (sunName_length name)
  have hload : m.load (untagPointer host sockAddr) (name.length + 3) = some (sunName name) := by
    rw [AddressSpace.load_take h.buffer (by omega), hfirst]
  obtain ⟨rest, hsun⟩ := readSockaddrUn_complete hname hload hroom (Nat.min_le_right ..)
  have hstart : translateSocketcallExit sys m sockAddr sizeAddr old.length =
      match detranslatePath sys (fileChars name) none with
      | .error status => (m, .error status)
      | .ok (path, _) =>
          match MemoryAccess.writeData true m sockAddr
              ((setSunPath (wordBytes 2 1 ++ rest) path).take
                (min (2 + path.length + 1) (min old.length sizeofSockaddrUn))) with
          | (m, .error status) => (m, .error status)
          | (m, .ok _) => MemoryAccess.writeData true m sizeAddr (wordBytes 4
              (if min old.length sizeofSockaddrUn < 2 + path.length + 1 then
                min old.length sizeofSockaddrUn + 1 else 2 + path.length + 1)) := by
    unfold translateSocketcallExit
    rw [if_neg hnull, hread]
    dsimp only
    rw [hsize, hsun]
  rw [hstart]
  generalize detranslatePath sys (fileChars name) none = detranslated
  obtain status | ⟨path, n⟩ := detranslated
  · rfl
  dsimp only
  have hsmall : sizeofSockaddrUn = 110 := rfl
  have hpath := sunPathBytes_length path
  -- What is written, and how long it is.
  obtain ⟨bytes, hbytes, hshort, hover⟩ : ∃ bytes,
      (setSunPath (wordBytes 2 1 ++ rest) path).take
        (min (2 + path.length + 1) (min old.length sizeofSockaddrUn)) = bytes ∧
      bytes.length ≤ min old.length sizeofSockaddrUn ∧
      bytes ++ (kernelFilled name old).drop bytes.length =
        pathFilled path (min old.length sizeofSockaddrUn) (kernelFilled name old) := by
    unfold pathFilled
    by_cases hfits : path.length + 3 ≤ min old.length sizeofSockaddrUn
    · refine ⟨_, setSunPath_short hfits (Nat.min_le_right ..), ?_, ?_⟩
      · rw [sunName_length, hpath]
        exact hfits
      · rw [if_pos hfits, sunName_length, hpath]
    · have hlength : (wordBytes 2 1 ++
          (sunPathBytes path).take (min old.length sizeofSockaddrUn - 2)).length =
            min old.length sizeofSockaddrUn := by
        rw [List.length_append, List.length_take, show (wordBytes 2 1).length = 2 from rfl, hpath]
        omega
      refine ⟨_, setSunPath_long (by omega) (by omega) (Nat.min_le_right ..), hlength.le, ?_⟩
      rw [if_neg hfits, hlength]
  have hlimit := h.positive
  obtain ⟨m₁, m₂, h₁, h₂, hwritten, hlength⟩ := store_answer (kernelFilled name old) bytes
    (wordBytes 4 (if min old.length sizeofSockaddrUn < 2 + path.length + 1 then
      min old.length sizeofSockaddrUn + 1 else 2 + path.length + 1))
    (by rw [hfilled]; exact h.buffer) h.size
    (by rw [hfilled]; exact h.apart) (by rw [hfilled]; exact hlimit) (by rw [hfilled]; omega) rfl
  refine ⟨m₂, ?_, ?_, ?_⟩
  · rw [hbytes, writeData_mapped (by omega) h₁]
    dsimp only
    exact writeData_mapped (by change 4 ≤ 0x7ffff000; decide) h₂
  · rw [hlength, show 2 + path.length + 1 = path.length + 3 by omega]
  · rw [hfilled] at hwritten
    rw [hwritten, hover]

/-- A call, up to its exit. -/
theorem socketNameCall_eq {abi : Abi} (sys : Sys W) (name : Bytes)
    (hbuffer : NameBufferAt abi m sockAddr sizeAddr old) :
    ∃ m', AnsweredAt m' sockAddr sizeAddr old name ∧
      socketNameCall abi sys name m sockAddr sizeAddr =
        translateSocketcallExit sys m' sockAddr sizeAddr old.length := by
  obtain ⟨word, hword, hvalue⟩ := hbuffer.size
  obtain ⟨m', hkernel, hsize, hfilled⟩ := moveAddrToUser_ok name hbuffer
  refine ⟨m', ⟨hsize, hfilled, hbuffer.apart, hbuffer.positive⟩, ?_⟩
  have hpositive := hbuffer.positive
  have hlimit : sizeofWord host abi ≤ 0x7ffff000 := by cases host <;> cases abi <;> decide
  have hwidth : 2 ^ 32 ≤ 2 ^ (8 * host.word) := by cases host <;> decide
  have hnat : (BitVec.ofNat 32 (littleEndian word)).toNat = old.length := by
    rw [BitVec.toNat_ofNat, hvalue]
  have hsign : ((BitVec.ofNat 32 (littleEndian word)).signExtend 64).toNat = old.length := by
    rw [BitVec.signExtend_eq_setWidth_of_msb_false, BitVec.toNat_setWidth, hnat]
    · exact Nat.mod_eq_of_lt (by omega)
    · rw [BitVec.msb_eq_false_iff_two_mul_lt, hnat]
      omega
  have hmax : (sysarg abi ((BitVec.ofNat 32 (littleEndian word)).signExtend 64) :
      Address host).toNat = old.length := by
    unfold sysarg
    rw [peek_small (by rw [hsign]; omega), BitVec.toNat_setWidth, hsign]
    exact Nat.mod_eq_of_lt (by omega)
  unfold socketNameCall
  rw [readAll_eq hlimit, hword]
  dsimp only
  rw [hkernel]
  dsimp only
  rw [hmax]

/-! ## What is in the buffer -/

theorem sunName_inj {name guest : Bytes} (h : sunName name = sunName guest) : name = guest :=
  List.append_cancel_left (List.append_cancel_right h)

/-- A byte of the name, behind the family. -/
theorem sunName_getElem? {i : Nat} (hi : i < name.length) : (sunName name)[i + 2]? = name[i]? := by
  unfold sunName
  rw [List.getElem?_append_left (by
      rw [List.length_append, show (wordBytes 2 1).length = 2 from rfl]; omega),
    List.getElem?_append_right (show (wordBytes 2 1).length ≤ i + 2 from Nat.le_add_left ..),
    show i + 2 - (wordBytes 2 1).length = i from rfl]

theorem kernelFilled_complete (hcomplete : name.length + 3 ≤ old.length) :
    kernelFilled name old = sunName name ++ old.drop (name.length + 3) := by
  have hlength := sunName_length name
  unfold kernelFilled
  rw [List.take_of_length_le (by omega), hlength]

/-- An incomplete name, which may be that of the guest. -/
theorem given_incomplete_iff :
    (name.length + 3 = guest.length + 3 ∧
      (kernelFilled name old).take (min old.length (guest.length + 3)) =
        (sunName guest).take old.length ∧
      ∀ i, guest.length < i → i < name.length → i + 2 < old.length →
        (kernelFilled name old)[i + 2]? = old[i + 2]?) ↔
      name.length = guest.length ∧
        (sunName name).take old.length = (sunName guest).take old.length := by
  have hfirst : name.length = guest.length →
      (kernelFilled name old).take (min old.length (guest.length + 3)) =
        (sunName name).take old.length := by
    intro h
    unfold kernelFilled
    refine List.take_left' ?_
    rw [List.length_take, sunName_length, h]
  constructor
  · rintro ⟨hlength, haddress, -⟩
    have h : name.length = guest.length := by omega
    exact ⟨h, (hfirst h).symm.trans haddress⟩
  · rintro ⟨h, haddress⟩
    exact ⟨by rw [h], (hfirst h).trans haddress, fun i hi hname => by omega⟩

/-- A path that fits. -/
theorem given_short_iff {limit : Nat} (hcomplete : name.length + 3 ≤ old.length)
    (hlimit : limit ≤ old.length) (hpath : path.length + 3 ≤ limit) :
    (path.length + 3 = guest.length + 3 ∧
      (pathFilled path limit (kernelFilled name old)).take
        (min old.length (guest.length + 3)) = (sunName guest).take old.length ∧
      ∀ i, guest.length < i → i < name.length → i + 2 < old.length →
        (pathFilled path limit (kernelFilled name old))[i + 2]? = old[i + 2]?) ↔
      sunPathBytes path = guest ∧
        ∀ i, guest.length < i → i < name.length → name[i]? = old[i + 2]? := by
  have hbytes := sunPathBytes_length path
  have hlength : (sunName (sunPathBytes path)).length = path.length + 3 := by
    rw [sunName_length, hbytes]
  unfold pathFilled
  rw [if_pos hpath, kernelFilled_complete hcomplete]
  have hrest : ∀ i, path.length < i → i < name.length →
      (sunName (sunPathBytes path) ++
        (sunName name ++ old.drop (name.length + 3)).drop (path.length + 3))[i + 2]? =
          name[i]? := by
    intro i hi hname
    rw [List.getElem?_append_right (by omega), List.getElem?_drop, hlength,
      show path.length + 3 + (i + 2 - (path.length + 3)) = i + 2 by omega,
      List.getElem?_append_left (by rw [sunName_length]; omega), sunName_getElem? hname]
  constructor
  · rintro ⟨hsame, haddress, hhost⟩
    rw [Nat.min_eq_right (by omega), ← hsame, List.take_left' hlength,
      List.take_of_length_le (by rw [sunName_length]; omega)] at haddress
    refine ⟨sunName_inj haddress, fun i hi hname => ?_⟩
    rw [← hrest i (by omega) hname]
    exact hhost i hi hname (by omega)
  · rintro ⟨rfl, hhost⟩
    rw [hbytes] at hhost ⊢
    refine ⟨rfl, ?_, fun i hi hname hroom => ?_⟩
    · rw [Nat.min_eq_right (by omega), List.take_left' hlength, List.take_of_length_le (by omega)]
    · rw [hrest i hi hname]
      exact hhost i hi hname

/-- A path that is cut. -/
theorem given_long_iff (hcomplete : name.length + 3 ≤ min old.length sizeofSockaddrUn)
    (hpath : min old.length sizeofSockaddrUn < path.length + 3) :
    (min old.length sizeofSockaddrUn + 1 = guest.length + 3 ∧
      (pathFilled path (min old.length sizeofSockaddrUn) (kernelFilled name old)).take
        (min old.length (guest.length + 3)) = (sunName guest).take old.length ∧
      ∀ i, guest.length < i → i < name.length → i + 2 < old.length →
        (pathFilled path (min old.length sizeofSockaddrUn)
          (kernelFilled name old))[i + 2]? = old[i + 2]?) ↔
      guest.length + 2 = min old.length sizeofSockaddrUn ∧
        (sunPathBytes path).take guest.length = guest ∧
        (sizeofSockaddrUn < old.length → old[sizeofSockaddrUn]? = some 0) := by
  have hsmall : sizeofSockaddrUn = 110 := rfl
  have hbytes := sunPathBytes_length path
  have hnone : guest.length + 2 = min old.length sizeofSockaddrUn →
      ∀ i, guest.length < i → ¬ i < name.length := by
    intro hlength i hi hname
    omega
  have haddress : guest.length + 2 = min old.length sizeofSockaddrUn →
      ((pathFilled path (min old.length sizeofSockaddrUn) (kernelFilled name old)).take
          (min old.length (guest.length + 3)) = (sunName guest).take old.length ↔
        (sunPathBytes path).take guest.length = guest ∧
          (sizeofSockaddrUn < old.length → old[sizeofSockaddrUn]? = some 0)) := by
    intro hlength
    have hcut : (wordBytes 2 1 ++ (sunPathBytes path).take guest.length).length =
        guest.length + 2 := by
      rw [List.length_append, List.length_take, show (wordBytes 2 1).length = 2 from rfl]
      omega
    unfold pathFilled
    rw [if_neg (by omega), ← hlength, Nat.add_sub_cancel,
      kernelFilled_complete (by omega)]
    by_cases hroom : old.length ≤ sizeofSockaddrUn
    · rw [Nat.min_eq_left (by omega), show old.length = guest.length + 2 by omega,
        List.take_left' hcut, sunName_take (Nat.le_refl _), List.take_of_length_le (Nat.le_refl _),
        List.append_cancel_left_eq]
      exact ⟨fun h => ⟨h, fun hlong => by omega⟩, fun h => h.1⟩
    · have hguest : guest.length = 108 := by omega
      have hbehind : (sunName name ++ old.drop (name.length + 3)).drop (guest.length + 2) =
          old.drop (guest.length + 2) := by
        rw [List.drop_append, List.drop_eq_nil_of_le (by rw [sunName_length]; omega),
          List.nil_append, List.drop_drop, sunName_length]
        congr 1
        omega
      obtain ⟨byte, rest, hrest⟩ : ∃ byte rest, old.drop (guest.length + 2) = byte :: rest :=
        List.exists_cons_of_ne_nil (by
          intro hnil
          have hlength := congrArg List.length hnil
          rw [List.length_drop, List.length_nil] at hlength
          omega)
      have hat : old[sizeofSockaddrUn]? = some byte := by
        have hfirst : (old.drop (guest.length + 2))[0]? = some byte := by
          rw [hrest]
          rfl
        rwa [List.getElem?_drop, show guest.length + 2 + 0 = sizeofSockaddrUn by omega] at hfirst
      rw [hbehind, hrest, hat, Nat.min_eq_right (by omega), List.append_cons,
        List.take_left' (by rw [List.length_append, hcut]; rfl),
        List.take_of_length_le (l := sunName guest) (by rw [sunName_length]; omega)]
      unfold sunName
      constructor
      · intro h
        obtain ⟨hfirst, hlast⟩ := List.append_inj' h rfl
        exact ⟨List.append_cancel_left hfirst, fun _ => congrArg some (List.cons.inj hlast).1⟩
      · rintro ⟨hfirst, hlast⟩
        rw [hfirst, Option.some.inj (hlast (by omega))]
  constructor
  · rintro ⟨hlength, haddress', -⟩
    have h : guest.length + 2 = min old.length sizeofSockaddrUn := by omega
    exact ⟨h, (haddress h).mp haddress'⟩
  · rintro ⟨hlength, hfits⟩
    refine ⟨by omega, (haddress hlength).mpr hfits, fun i hi hname => ?_⟩
    exact absurd hname (hnone hlength i hi)

end

/-! ## The result -/

variable {k : Kernel W} {fuel : Nat} {createTempName : Option CStr} {mktemp : CStr → CStr}
  {abi abi' : Abi} {bound : Sys W} {entered : EnteredCall host} {address : Address host}
  {size : BitVec 32} {sockAddr sizeAddr : Address host}

end

/-- A tracee that binds a socket to `"/s"`; its stack is above. -/
def bindsSocket : EnteredCall .ARCH_X86_64 where
  original := ⟨49, 3, 0x1000, 5, 0, 0, 0, 0x8000, 0⟩
  current := ⟨49, 3, 0x1000, 5, 0, 0, 0, 0x8000, 0⟩
  memory a := some ((sunName (sunPathBytes "/s".toList)).getD (a - 0x1000).toNat 0)

/-- It asks for a name, with a buffer of 110 bytes. -/
def asksForName : Space .ARCH_X86_64 := fun a => if a = 0x1000 then some 110 else some 0

theorem asksForName_buffer :
    NameBufferAt .ABI_DEFAULT asksForName 0x2000 0x1000 (List.replicate 110 0) where
  size := ⟨[110, 0, 0, 0, 0, 0, 0, 0], by decide +kernel, by decide +kernel⟩
  positive := by decide
  buffer := by decide +kernel
  apart := by
    unfold RangesApart
    decide +kernel

theorem asksForName_fits :
    SocketNameFits (rootedSys slash) (0x2000 : Address .ARCH_X86_64) (List.replicate 110 0)
      (sunPathBytes "/s".toList) (sunPathBytes "/s".toList) where
  incomplete h := absurd ⟨by decide, by decide⟩ h
  complete _ := by
    refine ⟨"/s".toList, 0, by decide +kernel, ?_⟩
    rw [if_pos (by decide)]
    exact ⟨rfl, fun i hi hname => absurd hname (Nat.not_lt.mpr (Nat.le_of_lt hi))⟩

end PRoot
