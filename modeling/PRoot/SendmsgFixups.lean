import PRoot.CredentialMessages
import PRoot.PointerEdits
import PRoot.PortSwitch

/-!
# Control messages that are sent

`handle_sendmsg_enter_end` (`extension/fake_id0/sendmsg.c`): the header and the control buffer of a
`sendmsg` are copied below the stack of the tracee when there are credentials to be fixed.  Memory
is transferred by `process_vm_readv` and `process_vm_writev`.

* `handleSendmsgEnterEnd`: the handler;
* `kernelMessage`: what the kernel gets;
* `SendmsgFixed`: what it is to get;
* `sendmsg_fixed_iff`: when it does.
-/

namespace PRoot

section

variable {host : Host} (abi : Abi) (garbage : Nat → BitVec 8) (own : OwnIds)

/-- `read_data`, with its status. -/
def readAll (m : Space host) (a : Address host) (size : Nat) : Except Errno Bytes :=
  match MemoryAccess.readData true m a size with
  | (bytes, .ok _) => .ok bytes
  | (_, .error status) => .error status

/-- `alloc_mem`. -/
def EnteredCall.allocMem (entered : EnteredCall host) (size : Nat) :
    Option (EnteredCall host × Address host) :=
  let stackPointer : Address host := sysarg abi entered.current.stackPointer
  let size :=
    if stackPointer = sysarg abi entered.original.stackPointer then size + host.redZoneSize
    else size
  if 0 < size ∧ stackPointer.toNat ≤ size then none
  else
    let stackPointer := stackPointer - BitVec.ofNat _ size
    some ({ entered with
      current := { entered.current with stackPointer := stackPointer.setWidth 64 } }, stackPointer)

/-- Data that is put below the stack, with an error if it cannot be. -/
def EnteredCall.push (entered : EnteredCall host) (bytes : Bytes) (status : Errno) :
    EnteredCall host × Except Errno (Address host) :=
  match entered.allocMem abi bytes.length with
  | none => (entered, .error status)
  | some (entered, a) =>
      match MemoryAccess.writeData true entered.memory a bytes with
      | (memory, .error _) => ({ entered with memory }, .error status)
      | (memory, .ok _) => ({ entered with memory }, .ok a)

/-- `sendmsg_unpack_control_and_len`. -/
def msgControl (w : Nat) (msg : Bytes) : Address host :=
  BitVec.ofNat _ (littleEndian ((msg.drop (4 * w)).take w))

def msgControllen (w : Nat) (msg : Bytes) : Nat := littleEndian ((msg.drop (5 * w)).take w)

/-- `msg.msg_controllen`, of the structure of PRoot itself, which was all zeros. -/
def nativeControllen (host : Host) (msg : Bytes) : Nat :=
  msgControllen host.word (msg ++ List.replicate (sizeofMsghdr host.word) 0)

/-- `sendmsg_pack_control`. -/
def sendmsgPackControl (w : Nat) (msg : Bytes) (control : Address host) : Bytes :=
  msg.take (4 * w) ++ wordBytes w control.toNat ++ msg.drop (5 * w)

/-- `MAX_CONTROLLEN`. -/
def maxControllen : Nat := 1024

/-- How the handler ends: the size of `cmsg_buf`, the tracee, and the status, unless it does not
end. -/
structure SendmsgEnd (host : Host) where
  copied : Nat
  entered : EnteredCall host
  status : Option (Except Errno Unit)

/-- "Write cmsg data into tracee.  Write sendmsg header.  Write address of new sendmsg header." -/
def pushFixed (entered : EnteredCall host) (socketcallArgs : Option Bytes) (controllen : Nat)
    (msg cmsgBuf : Bytes) : SendmsgEnd host :=
  let w := sizeofWord host abi
  match entered.push abi cmsgBuf .ENOMEM with
  | (entered, .error status) => ⟨controllen, entered, some (.error status)⟩
  | (entered, .ok control) =>
      match entered.push abi (sendmsgPackControl w msg control) .ENOMEM with
      | (entered, .error status) => ⟨controllen, entered, some (.error status)⟩
      | (entered, .ok header) =>
          match socketcallArgs with
          | none =>
              ⟨controllen,
                { entered with current := { entered.current with arg2 := header.setWidth 64 } },
                some (.ok ())⟩
          | some args =>
              match entered.push abi (args.take host.word ++ wordBytes host.word header.toNat ++
                  args.drop (2 * host.word)) .EFAULT with
              | (entered, .error status) => ⟨controllen, entered, some (.error status)⟩
              | (entered, .ok a) =>
                  ⟨controllen,
                    { entered with current := { entered.current with arg2 := a.setWidth 64 } },
                    some (.ok ())⟩

/-- The part of the handler that is the same for `sendmsg` and `socketcall`. -/
def fixMsghdr (entered : EnteredCall host) (socketcallArgs : Option Bytes)
    (address : Address host) : SendmsgEnd host :=
  let w := sizeofWord host abi
  match readAll entered.memory address (sizeofMsghdr w) with
  | .error status => ⟨0, entered, some (.error status)⟩
  | .ok msg =>
      let control : Address host := msgControl w msg
      let controllen := msgControllen w msg
      if control ≠ 0 ∧ controllen ≠ 0 then
        if nativeControllen host msg > maxControllen then ⟨0, entered, some (.ok ())⟩
        else
          match readAll entered.memory control controllen with
          | .error status => ⟨controllen, entered, some (.error status)⟩
          | .ok cmsgBuf =>
              match fixCmsgs w own (controllen + 1) cmsgBuf with
              | .spins => ⟨controllen, entered, none⟩
              | .malformed => ⟨controllen, entered, some (.ok ())⟩
              | .done cmsgBuf didModify =>
                  if didModify then pushFixed abi entered socketcallArgs controllen msg cmsgBuf
                  else ⟨controllen, entered, some (.ok ())⟩
      else ⟨0, entered, some (.ok ())⟩

/-- `handle_sendmsg_enter_end`. -/
def handleSendmsgEnterEnd (isSocketcall : Bool) (entered : EnteredCall host) : SendmsgEnd host :=
  let arg2 : Address host := sysarg abi entered.current.arg2
  if !isSocketcall then fixMsghdr abi own entered none arg2
  else
    let call := peek host abi entered.current.arg1
    if call = 1 then
      -- `SYS_SOCKET`: the status of this read is not looked at.
      let args := readOver true garbage entered.memory arg2 (3 * host.word)
      if argAt host args 0 = 16 ∧ argAt host args 2 = 9 then
        ⟨0, entered, some (.error .EPROTONOSUPPORT)⟩
      else ⟨0, entered, some (.ok ())⟩
    else if call ≠ 16 then ⟨0, entered, some (.ok ())⟩
    else
      match readAll entered.memory arg2 (3 * host.word) with
      | .error status => ⟨0, entered, some (.error status)⟩
      | .ok args => fixMsghdr abi own entered (some args) (argAt host args 1)

/-! ## The kernel -/

/-- A `sendmsg` as the kernel gets it. -/
structure SentMessage (host : Host) where
  fd : Address host
  flags : Address host
  msg : Bytes
  control : Bytes

/-- The descriptor, the address of the header and the flags of a call. -/
def kernelArgs (isSocketcall : Bool) (entered : EnteredCall host) :
    Option (Address host × Address host × Address host) :=
  let w := sizeofWord host abi
  if isSocketcall then
    (entered.memory.load (untagPointer host (sysarg abi entered.current.arg2)) (3 * w)).map
      fun args =>
        let word := fun i : Nat => BitVec.ofNat _ (littleEndian ((args.drop (i * w)).take w))
        (word 0, word 1, word 2)
  else
    some (sysarg abi entered.current.arg1, sysarg abi entered.current.arg2,
      sysarg abi entered.current.arg3)

/-- The header and the control buffer that the kernel reads. -/
def kernelMessage (isSocketcall : Bool) (entered : EnteredCall host) :
    Option (SentMessage host) := do
  let w := sizeofWord host abi
  let (fd, header, flags) ← kernelArgs abi isSocketcall entered
  let msg ← entered.memory.load (untagPointer host header) (sizeofMsghdr w)
  let control ← entered.memory.load (untagPointer host (msgControl w msg)) (msgControllen w msg)
  some ⟨fd, flags, msg, control⟩

/-- A message that the kernel accepts, with credentials in a buffer that is not too long. -/
structure ToBeFixed (isSocketcall : Bool) (entered : EnteredCall host) (sent : SentMessage host)
    (messages : List Bytes) (last : Bytes) : Prop where
  message : kernelMessage abi isSocketcall entered = some sent
  control_ne : (msgControl (sizeofWord host abi) sent.msg : Address host) ≠ 0
  controllen_ne : msgControllen (sizeofWord host abi) sent.msg ≠ 0
  controllen_le : msgControllen (sizeofWord host abi) sent.msg ≤ 1024
  accepted : kernelCmsgs (sizeofWord host abi) (is32on64Mode host abi)
    (msgControllen (sizeofWord host abi) sent.msg + 1) sent.control = some (messages, last)
  credentials : hasCredentials (sizeofWord host abi) messages = true

/-- **What the handler is to do.** -/
structure SendmsgFixed (isSocketcall : Bool) (entered : EnteredCall host)
    (ended : SendmsgEnd host) : Prop where
  copied : ended.copied ≤ 1024
  ends : ended.status ≠ none
  fixed : ∀ sent messages last, ToBeFixed abi isSocketcall entered sent messages last →
    ended.status = some (.ok ()) ∧ ∃ control,
      kernelMessage abi isSocketcall ended.entered = some
        { sent with
          msg := sendmsgPackControl (sizeofWord host abi) sent.msg (control : Address host)
          control := fixedControl (sizeofWord host abi) own messages last }
  untouched : (¬ ∃ sent messages last, ToBeFixed abi isSocketcall entered sent messages last) →
    ended.entered = entered

/-- The header that the handler reads. -/
def seenMsg (isSocketcall : Bool) (entered : EnteredCall host) : Option Bytes := do
  let arg2 : Address host := sysarg abi entered.current.arg2
  let header ←
    if isSocketcall then
      (entered.memory.load (untagPointer host arg2) (3 * host.word)).map (argAt host · 1)
    else some arg2
  entered.memory.load (untagPointer host header) (sizeofMsghdr (sizeofWord host abi))

/-- That has credentials to be fixed. -/
def SeenFixable (isSocketcall : Bool) (entered : EnteredCall host) : Prop :=
  let w := sizeofWord host abi
  ∃ msg control messages, seenMsg abi isSocketcall entered = some msg ∧
    (msgControl w msg : Address host) ≠ 0 ∧
    entered.memory.load (untagPointer host (msgControl w msg)) (msgControllen w msg) =
      some control ∧
    kernelCmsgs w (is32on64Mode host abi) (msgControllen w msg + 1) control =
      some (messages, []) ∧ hasCredentials w messages = true

/-- The arguments of a 32-bit tracee's `socketcall` are read as words of a 64-bit PRoot. -/
def Misread (host : Host) (abi : Abi) (isSocketcall : Bool) : Prop :=
  isSocketcall = true ∧ is32on64Mode host abi = true

/-- The buffer of a 32-bit tracee is not too long.  No piece that has no room for a header is left
behind credentials, unless they are right already.  What is misread has nothing to be fixed, and
neither has what is meant. -/
structure SendmsgFits (isSocketcall : Bool) (entered : EnteredCall host) : Prop where
  bound : is32on64Mode host abi = true → ∀ msg, seenMsg abi isSocketcall entered = some msg →
    (msgControl (sizeofWord host abi) msg : Address host) ≠ 0 →
      msgControllen (sizeofWord host abi) msg ≤ 1024
  whole : ∀ sent messages last, ToBeFixed abi isSocketcall entered sent messages last →
    ¬ Misread host abi isSocketcall ∧
      (last = [] ∨ fixedControl (sizeofWord host abi) own messages last = sent.control)
  misread : Misread host abi isSocketcall → ¬ SeenFixable abi isSocketcall entered

/-- There is room on the stack, for the data and the red zone. -/
structure StackRoom (entered : EnteredCall host) (size : Nat) : Prop where
  untagged : untagPointer host (sysarg abi entered.current.stackPointer) =
    sysarg abi entered.current.stackPointer
  above : size < (sysarg abi entered.current.stackPointer : Address host).toNat
  mapped : ∀ x : Address host,
    x.toNat < (sysarg abi entered.current.stackPointer : Address host).toNat →
    (sysarg abi entered.current.stackPointer : Address host).toNat ≤ x.toNat + size →
      (entered.memory x).isSome

/-! ## What is read and written -/

variable {abi garbage own} {m : Space host} {a : Address host} {bytes : Bytes} {size i : Nat}

theorem peekWords_done (h : (peekWords m a i).2 = true) : (m.load a (i * host.word)).isSome := by
  induction i generalizing a with
  | zero =>
      rw [Nat.zero_mul]
      rfl
  | succ i ih =>
      unfold peekWords at h
      cases hword : peekData m a with
      | none => simp [hword] at h
      | some word =>
          simp only [hword] at h
          obtain ⟨rest, hrest⟩ := Option.isSome_iff_exists.mp (ih h)
          rw [Nat.succ_mul i, Nat.add_comm (i * host.word), AddressSpace.load_append hword hrest]
          rfl

/-- What `ptrace` reads is mapped. -/
theorem peekBytes_mapped {answer : Unit} (h : (peekBytes m a size).2 = .ok answer) :
    (m.load a size).isSome := by
  have hsplit := split_words host size
  unfold peekBytes at h
  simp only [fullWords] at h
  cases hdone : (peekWords m a (size / host.word)).2 with
  | false => simp [hdone] at h
  | true =>
      obtain ⟨full, hfull⟩ := Option.isSome_iff_exists.mp (peekWords_done hdone)
      simp only [hdone, Bool.not_true, Bool.false_eq_true, if_false] at h
      by_cases hzero : size % host.word = 0
      · rw [show size = size / host.word * host.word by omega, hfull]
        rfl
      · rw [if_neg hzero] at h
        cases hword : peekData m (a.plus (size / host.word * host.word)) with
        | none => simp [hword] at h
        | some word =>
            have hlast := AddressSpace.load_take hword
              (show size % host.word ≤ host.word from (Nat.mod_lt _ (word_pos host)).le)
            rw [hsplit, AddressSpace.load_append hfull hlast]
            rfl

/-- What is not mapped is not read. -/
theorem peekBytes_unmapped (h : m.load a size = none) :
    (peekBytes m a size).2 = .error .EFAULT := by
  cases hanswer : (peekBytes m a size).2 with
  | ok answer =>
      have hmapped := peekBytes_mapped hanswer
      rw [h] at hmapped
      cases hmapped
  | error status =>
      unfold peekBytes at hanswer
      dsimp only at hanswer
      split at hanswer
      · exact hanswer.symm
      · split at hanswer
        · cases hanswer
        · split at hanswer
          · exact hanswer.symm
          · cases hanswer

/-- **What is mapped is read,** up to a limit of the kernel. -/
theorem readAll_eq (hsize : size ≤ 0x7ffff000) :
    readAll m a size =
      match m.load (untagPointer host a) size with
      | some bytes => .ok bytes
      | none => .error .EFAULT := by
  unfold readAll MemoryAccess.readData processVmReadv
  dsimp only
  rw [if_pos rfl, if_pos hsize]
  cases hload : m.load (untagPointer host a) size with
  | some bytes => rfl
  | none =>
      dsimp only
      have herror := peekBytes_unmapped hload
      generalize hanswer : peekBytes m (untagPointer host a) size = answer at herror
      obtain ⟨read, status⟩ := answer
      obtain rfl : status = .error .EFAULT := herror
      rfl

theorem writeData_mapped {m' : Space host} (hlength : bytes.length ≤ 0x7ffff000)
    (h : m.store (untagPointer host a) bytes = some m') :
    MemoryAccess.writeData true m a bytes = (m', .ok ()) := by
  unfold MemoryAccess.writeData processVmWritev
  dsimp only
  rw [if_pos rfl, if_pos hlength, h]

/-- A 32-bit tracee has 32-bit addresses. -/
theorem sysarg_lt (h : sizeofWord host abi = 4) (value : BitVec 64) :
    (sysarg abi value : Address host).toNat < 2 ^ 32 := by
  unfold sysarg peek
  rw [if_pos h, BitVec.toNat_setWidth, and_low]
  exact Nat.lt_of_le_of_lt (Nat.mod_le _ _) (Nat.mod_lt _ (by decide))

/-- An address in a register is peeked again. -/
theorem sysarg_setWidth (h : sizeofWord host abi = 4 → a.toNat < 2 ^ 32) :
    (sysarg abi (a.setWidth 64) : Address host) = a := by
  have hword : 8 * host.word ≤ 64 := by cases host <;> decide
  have hlt := a.isLt
  have hpow : 2 ^ (8 * host.word) ≤ 2 ^ 64 := Nat.pow_le_pow_right (by decide) hword
  apply BitVec.eq_of_toNat_eq
  unfold sysarg peek
  split
  case isTrue hfour =>
    have hlow := h hfour
    rw [BitVec.toNat_setWidth, and_low, BitVec.toNat_setWidth,
      Nat.mod_eq_of_lt (by omega : a.toNat < 2 ^ 64), Nat.mod_eq_of_lt hlow, Nat.mod_eq_of_lt hlt]
  case isFalse =>
    rw [BitVec.toNat_setWidth, BitVec.toNat_setWidth, Nat.mod_eq_of_lt (by omega : _ < 2 ^ 64),
      Nat.mod_eq_of_lt hlt]

/-- What a push leaves. -/
structure Pushes (abi : Abi) (entered entered' : EnteredCall host) (bytes : Bytes)
    (a : Address host) : Prop where
  original : entered'.original = entered.original
  current : entered'.current = { entered.current with stackPointer := a.setWidth 64 }
  peeked : (sysarg abi (a.setWidth 64) : Address host) = a
  untagged : untagPointer host a = a
  stored : entered.memory.store a bytes = some entered'.memory
  below : a.toNat + bytes.length ≤ (sysarg abi entered.current.stackPointer : Address host).toNat

/-- **Data is pushed** where there is room for it. -/
theorem push_ok {entered : EnteredCall host} {status : Errno} (hroom : StackRoom abi entered size)
    (hpos : 0 < bytes.length) (hsize : bytes.length + 128 ≤ size) (hlimit : size ≤ 2048) :
    ∃ entered' a, entered.push abi bytes status = (entered', .ok a) ∧
      Pushes abi entered entered' bytes a ∧
      StackRoom abi entered' (size - (bytes.length + 128)) := by
  obtain ⟨htag, habove, hmapped⟩ := hroom
  have hpeeked : sizeofWord host abi = 4 →
      (sysarg abi entered.current.stackPointer : Address host).toNat < 2 ^ 32 :=
    fun h => sysarg_lt h _
  have hred : host.redZoneSize ≤ 128 := by cases host <;> decide
  have halloc : ∃ a : Address host, entered.allocMem abi bytes.length =
      some ({ entered with
        current := { entered.current with stackPointer := a.setWidth 64 } }, a) ∧
      a.toNat + bytes.length ≤ (sysarg abi entered.current.stackPointer : Address host).toNat ∧
      (sysarg abi entered.current.stackPointer : Address host).toNat ≤
        a.toNat + bytes.length + 128 := by
    unfold EnteredCall.allocMem
    dsimp only
    generalize (sysarg abi entered.current.stackPointer : Address host) = sp at *
    generalize hreserved : (if sp = sysarg abi entered.original.stackPointer then
      bytes.length + host.redZoneSize else bytes.length) = reserved
    have hle : bytes.length ≤ reserved ∧ reserved ≤ bytes.length + 128 := by
      rw [← hreserved]
      split <;> omega
    have hlt := sp.isLt
    have hvalue : (sp - BitVec.ofNat _ reserved).toNat = sp.toNat - reserved := by
      rw [BitVec.toNat_sub_of_le]
      · rw [BitVec.toNat_ofNat, Nat.mod_eq_of_lt (by omega)]
      · rw [BitVec.le_def, BitVec.toNat_ofNat, Nat.mod_eq_of_lt (by omega)]
        omega
    rw [if_neg (show ¬ (0 < reserved ∧ sp.toNat ≤ reserved) by omega)]
    refine ⟨_, rfl, ?_, ?_⟩ <;> omega
  obtain ⟨a, halloc, hbelow, hnear⟩ := halloc
  have hpeekedA : (sysarg abi (a.setWidth 64) : Address host) = a :=
    sysarg_setWidth fun h => by
      have := hpeeked h
      omega
  have huntagged : untagPointer host a = a := untagPointer_of_le htag (by omega)
  have hstore : (entered.memory.store a bytes).isSome := by
    rw [AddressSpace.store_isSome_iff, AddressSpace.load_isSome_iff]
    intro i hi
    have hvalue : (a + BitVec.ofNat (8 * host.word) i).toNat = a.toNat + i := by
      rw [BitVec.toNat_add, BitVec.toNat_ofNat, Nat.mod_eq_of_lt (show i < _ by omega),
        Nat.mod_eq_of_lt (by omega)]
    exact hmapped _ (by omega) (by omega)
  obtain ⟨memory, hmemory⟩ := Option.isSome_iff_exists.mp hstore
  have hwrite := @writeData_mapped host entered.memory a bytes memory (by omega)
    (by rwa [huntagged])
  refine ⟨{ entered with
    current := { entered.current with stackPointer := a.setWidth 64 }, memory }, a, ?_,
    ⟨rfl, rfl, hpeekedA, huntagged, hmemory, hbelow⟩, ?_, ?_, ?_⟩
  · unfold EnteredCall.push
    rw [halloc]
    dsimp only
    rw [hwrite]
  · dsimp only
    rw [hpeekedA, huntagged]
  · dsimp only
    rw [hpeekedA]
    omega
  · dsimp only
    rw [hpeekedA]
    intro x hx hsp
    rw [AddressSpace.store_mapped hmemory]
    exact hmapped x (by omega) (by omega)

/-- What lies above is left. -/
theorem load_above {m' : Space host} {b : Address host} {k : Nat} (h : m.store a bytes = some m')
    (hbelow : a.toNat + bytes.length ≤ b.toNat) (hspace : b.toNat + k ≤ 2 ^ (8 * host.word)) :
    m'.load b k = m.load b k := by
  apply AddressSpace.load_store_apart h
  intro i hi
  have hvalue : (b + BitVec.ofNat (8 * host.word) i).toNat = b.toNat + i := by
    rw [BitVec.toNat_add, BitVec.toNat_ofNat, Nat.mod_eq_of_lt (show i < _ by omega),
      Nat.mod_eq_of_lt (by omega)]
  rw [BitVec.toNat_sub_of_le (by rw [BitVec.le_def]; omega)]
  omega

section

variable {w controllen : Nat} {msg : Bytes} {control : Address host}

theorem sendmsgPackControl_length (h : msg.length = sizeofMsghdr w) :
    (sendmsgPackControl w msg control).length = sizeofMsghdr w := by
  unfold sizeofMsghdr at *
  unfold sendmsgPackControl
  rw [List.length_append, List.length_append, List.length_take, List.length_drop,
    wordBytes_length]
  omega

/-- The new pointer is read, -/
theorem msgControl_pack (h : msg.length = sizeofMsghdr w) (hcontrol : control.toNat < 256 ^ w) :
    (msgControl w (sendmsgPackControl w msg control) : Address host) = control := by
  unfold sizeofMsghdr at h
  have htake : (msg.take (4 * w)).length = 4 * w := by
    rw [List.length_take]
    omega
  unfold msgControl sendmsgPackControl
  rw [List.append_assoc, List.drop_left' htake, List.take_left' (wordBytes_length _ _),
    littleEndian_wordBytes, Nat.mod_eq_of_lt hcontrol, BitVec.ofNat_toNat, BitVec.setWidth_eq]

/-- and the length is as it was. -/
theorem msgControllen_pack (h : msg.length = sizeofMsghdr w) :
    msgControllen w (sendmsgPackControl w msg control) = msgControllen w msg := by
  unfold sizeofMsghdr at h
  have htake : (msg.take (4 * w) ++ wordBytes w control.toNat).length = 5 * w := by
    rw [List.length_append, List.length_take, wordBytes_length]
    omega
  unfold msgControllen sendmsgPackControl
  rw [List.drop_left' htake]

/-- The header and the control buffer that were pushed are read. -/
theorem pushed_read {entered entered₁ entered₂ : EnteredCall host} {cmsgBuf : Bytes}
    {header : Address host} (hmsg : msg.length = sizeofMsghdr w)
    (hlen : msgControllen w msg = cmsgBuf.length) (hword : control.toNat < 256 ^ w)
    (hcontrol : Pushes abi entered entered₁ cmsgBuf control)
    (hheader : Pushes abi entered₁ entered₂ (sendmsgPackControl w msg control) header) :
    entered₂.memory.load header (sizeofMsghdr w) = some (sendmsgPackControl w msg control) ∧
      entered₂.memory.load
        (msgControl w (sendmsgPackControl w msg control)) (msgControllen w
          (sendmsgPackControl w msg control)) = some cmsgBuf := by
  have hbelow := hcontrol.below
  have hbelow' := hheader.below
  rw [hcontrol.current, hcontrol.peeked] at hbelow'
  constructor
  · have hload := AddressSpace.load_store hheader.stored (by omega)
    rwa [sendmsgPackControl_length hmsg] at hload
  · rw [msgControl_pack hmsg hword, msgControllen_pack hmsg, hlen,
      load_above hheader.stored hbelow' (by omega)]
    exact AddressSpace.load_store hcontrol.stored (by omega)

variable {isSocketcall : Bool} {entered : EnteredCall host}

theorem kernelMessage_eq_some {fd header flags : Address host} {cmsgBuf : Bytes}
    (hargs : kernelArgs abi isSocketcall entered = some (fd, header, flags))
    (hmsg : entered.memory.load (untagPointer host header)
      (sizeofMsghdr (sizeofWord host abi)) = some msg)
    (hcontrol : entered.memory.load (untagPointer host (msgControl (sizeofWord host abi) msg))
      (msgControllen (sizeofWord host abi) msg) = some cmsgBuf) :
    kernelMessage abi isSocketcall entered = some ⟨fd, flags, msg, cmsgBuf⟩ := by
  unfold kernelMessage
  rw [hargs, Option.bind_eq_bind, Option.bind_some]
  dsimp only
  rw [hmsg, Option.bind_eq_bind, Option.bind_some, hcontrol]
  rfl

theorem kernelMessage_parts {sent : SentMessage host}
    (h : kernelMessage abi isSocketcall entered = some sent) :
    ∃ header, kernelArgs abi isSocketcall entered = some (sent.fd, header, sent.flags) ∧
      entered.memory.load (untagPointer host header) (sizeofMsghdr (sizeofWord host abi)) =
        some sent.msg ∧
      entered.memory.load (untagPointer host (msgControl (sizeofWord host abi) sent.msg))
        (msgControllen (sizeofWord host abi) sent.msg) = some sent.control := by
  obtain ⟨⟨fd, header, flags⟩, hargs, hrest⟩ := Option.bind_eq_some_iff.mp h
  obtain ⟨msg, hmsg, hrest⟩ := Option.bind_eq_some_iff.mp hrest
  obtain ⟨control, hcontrol, hsent⟩ := Option.bind_eq_some_iff.mp hrest
  obtain rfl := Option.some.inj hsent
  exact ⟨header, hargs, hmsg, hcontrol⟩

theorem sizeofWord_four_or (host : Host) (abi : Abi) :
    sizeofWord host abi = 4 ∨ sizeofWord host abi = host.word := by
  cases host <;> cases abi <;> decide

theorem address_lt (a : Address host) : a.toNat < 256 ^ host.word := by
  rw [show (256 : Nat) = 2 ^ 8 from rfl, ← Nat.pow_mul]
  exact a.isLt

/-- An address is a word of the tracee. -/
theorem sysarg_lt_word (value : BitVec 64) :
    (sysarg abi value : Address host).toNat < 256 ^ sizeofWord host abi := by
  rcases sizeofWord_four_or host abi with hfour | hword
  · rw [hfour]
    exact sysarg_lt hfour value
  · rw [hword]
    exact address_lt _

/-- **The kernel gets what was pushed,** by `sendmsg` -/
theorem pushFixed_direct {cmsgBuf : Bytes} (hroom : StackRoom abi entered 1600)
    (hmsg : msg.length = sizeofMsghdr (sizeofWord host abi))
    (hlen : msgControllen (sizeofWord host abi) msg = cmsgBuf.length) (hpos : 0 < cmsgBuf.length)
    (hle : cmsgBuf.length ≤ 1024) :
    ∃ (entered' : EnteredCall host) (control : Address host),
      pushFixed abi entered none controllen msg cmsgBuf =
        ⟨controllen, entered', some (.ok ())⟩ ∧
      kernelMessage abi false entered' = some
        ⟨sysarg abi entered.current.arg1, sysarg abi entered.current.arg3,
          sendmsgPackControl (sizeofWord host abi) msg control, cmsgBuf⟩ := by
  have hsizeof : 28 ≤ sizeofMsghdr (sizeofWord host abi) ∧
      sizeofMsghdr (sizeofWord host abi) ≤ 56 := by cases host <;> cases abi <;> decide
  obtain ⟨entered₁, control, hpush₁, hcontrol, hroom₁⟩ :=
    @push_ok host abi cmsgBuf 1600 entered .ENOMEM hroom hpos (by omega) (by omega)
  have hpack := @sendmsgPackControl_length host (sizeofWord host abi) msg control hmsg
  obtain ⟨entered₂, header, hpush₂, hheader, -⟩ :=
    @push_ok host abi (sendmsgPackControl (sizeofWord host abi) msg control) _ entered₁ .ENOMEM
      hroom₁ (by omega) (by omega) (by omega)
  have hword : control.toNat < 256 ^ sizeofWord host abi := by
    rw [← hcontrol.peeked]
    exact sysarg_lt_word _
  obtain ⟨hread, hreadControl⟩ := pushed_read hmsg hlen hword hcontrol hheader
  refine ⟨{ entered₂ with current := { entered₂.current with arg2 := header.setWidth 64 } },
    control, ?_, ?_⟩
  · unfold pushFixed
    dsimp only
    rw [hpush₁]
    dsimp only
    rw [hpush₂]
  · apply @kernelMessage_eq_some _ _ _ _ _ _ header
    · unfold kernelArgs
      dsimp only
      rw [hheader.peeked, hheader.current, hcontrol.current]
      rfl
    · rw [hheader.untagged]
      exact hread
    · rw [msgControl_pack hmsg hword, hcontrol.untagged]
      rwa [msgControl_pack hmsg hword] at hreadControl

/-- and by `socketcall`. -/
theorem pushFixed_socketcall {cmsgBuf args : Bytes} {fd header flags : Address host}
    (hroom : StackRoom abi entered 1600)
    (hnative : sizeofWord host abi = host.word) (hmsg : msg.length = sizeofMsghdr host.word)
    (hlen : msgControllen host.word msg = cmsgBuf.length) (hpos : 0 < cmsgBuf.length)
    (hle : cmsgBuf.length ≤ 1024)
    (hargs : entered.memory.load (untagPointer host (sysarg abi entered.current.arg2))
      (3 * host.word) = some args)
    (hkernel : kernelArgs abi true entered = some (fd, header, flags)) :
    ∃ (entered' : EnteredCall host) (control : Address host),
      pushFixed abi entered (some args) controllen msg cmsgBuf =
        ⟨controllen, entered', some (.ok ())⟩ ∧
      kernelMessage abi true entered' = some
        ⟨fd, flags, sendmsgPackControl host.word msg control, cmsgBuf⟩ := by
  have hsizes : 4 ≤ host.word ∧ host.word ≤ 8 := by cases host <;> decide
  have hsizeof : sizeofMsghdr host.word = 7 * host.word := rfl
  have hlength := AddressSpace.load_length hargs
  obtain ⟨entered₁, control, hpush₁, hcontrol, hroom₁⟩ :=
    @push_ok host abi cmsgBuf 1600 entered .ENOMEM hroom hpos (by omega) (by omega)
  have hpack := @sendmsgPackControl_length host host.word msg control hmsg
  obtain ⟨entered₂, newHeader, hpush₂, hheader, hroom₂⟩ :=
    @push_ok host abi (sendmsgPackControl host.word msg control) _ entered₁ .ENOMEM
      hroom₁ (by omega) (by omega) (by omega)
  generalize hnew : args.take host.word ++ wordBytes host.word newHeader.toNat ++
    args.drop (2 * host.word) = newArgs
  have hnewLength : newArgs.length = 3 * host.word := by
    rw [← hnew, List.length_append, List.length_append, List.length_take, List.length_drop,
      wordBytes_length]
    omega
  obtain ⟨entered₃, newAddress, hpush₃, hpushed, -⟩ :=
    @push_ok host abi newArgs _ entered₂ .EFAULT hroom₂ (by omega) (by omega) (by omega)
  have hword := address_lt control
  have hnewWord := address_lt newHeader
  obtain ⟨hread, hreadControl⟩ := pushed_read hmsg hlen hword hcontrol hheader
  -- What was pushed lies above the new arguments.
  have hbelow := hcontrol.below
  have hbelow₂ := hheader.below
  have hbelow₃ := hpushed.below
  rw [hcontrol.current, hcontrol.peeked] at hbelow₂
  rw [hheader.current, hheader.peeked] at hbelow₃
  rw [msgControl_pack hmsg hword, msgControllen_pack hmsg, hlen] at hreadControl
  rw [← load_above hpushed.stored hbelow₃ (by omega)] at hread
  rw [← load_above hpushed.stored (by omega) (by omega)] at hreadControl
  refine ⟨{ entered₃ with current := { entered₃.current with arg2 := newAddress.setWidth 64 } },
    control, ?_, ?_⟩
  · unfold pushFixed
    dsimp only
    rw [hpush₁]
    dsimp only
    rw [hnative, hpush₂]
    dsimp only
    rw [hnew, hpush₃]
  · apply @kernelMessage_eq_some _ _ _ _ _ _ newHeader
    · have hload := AddressSpace.load_store hpushed.stored (by omega)
      unfold kernelArgs at hkernel ⊢
      dsimp only at hkernel ⊢
      rw [if_pos rfl] at hkernel ⊢
      rw [hnative] at hkernel ⊢
      rw [hargs, Option.map_some] at hkernel
      rw [hpushed.peeked, hpushed.untagged, ← hnewLength, hload, Option.map_some, ← hnew]
      have htake : (args.take host.word).length = host.word := by
        rw [List.length_take]
        omega
      have htwo : (args.take host.word ++ wordBytes host.word newHeader.toNat).length =
          2 * host.word := by
        rw [List.length_append, htake, wordBytes_length]
        omega
      obtain ⟨hfd, -, hflags⟩ : _ ∧ _ ∧ _ := by
        simpa only [Option.some.injEq, Prod.mk.injEq] using hkernel
      rw [← hfd, ← hflags]
      congr 2
      · rw [Nat.zero_mul, List.drop_zero, List.drop_zero, List.append_assoc,
          List.take_append_of_le_length (by omega), List.take_take, Nat.min_self]
      · congr 1
        · rw [Nat.one_mul, List.append_assoc, List.drop_left' htake,
            List.take_left' (wordBytes_length _ _), littleEndian_wordBytes,
            Nat.mod_eq_of_lt hnewWord, BitVec.ofNat_toNat, BitVec.setWidth_eq]
        · rw [List.drop_left' htwo]
    · rw [hheader.untagged, hnative]
      exact hread
    · rw [hnative, msgControl_pack hmsg hword, msgControllen_pack hmsg, hcontrol.untagged, hlen]
      exact hreadControl

/-! ## The handler -/

theorem sizeofWord_pos_le (host : Host) (abi : Abi) :
    0 < sizeofWord host abi ∧ sizeofMsghdr (sizeofWord host abi) ≤ 0x7ffff000 := by
  cases host <;> cases abi <;> decide

theorem pushFixed_copied {args : Option Bytes} {cmsgBuf : Bytes} :
    (pushFixed abi entered args controllen msg cmsgBuf).copied = controllen := by
  unfold pushFixed
  dsimp only
  split
  · rfl
  · split
    · rfl
    · split
      · rfl
      · split <;> rfl

section

variable {args : Option Bytes} {header : Address host} {cmsgBuf : Bytes}

/-- The size of the buffer is the length that the header says, -/
theorem fixMsghdr_copied
    (hmsg : entered.memory.load (untagPointer host header)
      (sizeofMsghdr (sizeofWord host abi)) = some msg)
    (hcontrol : (msgControl (sizeofWord host abi) msg : Address host) ≠ 0)
    (hpos : msgControllen (sizeofWord host abi) msg ≠ 0)
    (hnative : nativeControllen host msg ≤ maxControllen) :
    (fixMsghdr abi own entered args header).copied =
      msgControllen (sizeofWord host abi) msg := by
  unfold fixMsghdr
  dsimp only
  rw [readAll_eq (sizeofWord_pos_le host abi).2, hmsg]
  dsimp only
  rw [if_pos ⟨hcontrol, hpos⟩, if_neg (Nat.not_lt.mpr hnative)]
  split
  · rfl
  · split
    · rfl
    · rfl
    · split
      · exact pushFixed_copied
      · rfl

/-- **What has credentials is pushed,** -/
theorem fixMsghdr_fixed {messages : List Bytes}
    (hmsg : entered.memory.load (untagPointer host header)
      (sizeofMsghdr (sizeofWord host abi)) = some msg)
    (hcontrol : (msgControl (sizeofWord host abi) msg : Address host) ≠ 0)
    (hpos : msgControllen (sizeofWord host abi) msg ≠ 0)
    (hle : msgControllen (sizeofWord host abi) msg ≤ 1024)
    (hnative : nativeControllen host msg ≤ maxControllen)
    (hbuf : entered.memory.load (untagPointer host (msgControl (sizeofWord host abi) msg))
      (msgControllen (sizeofWord host abi) msg) = some cmsgBuf)
    (hmessages : kernelCmsgs (sizeofWord host abi) (is32on64Mode host abi)
      (msgControllen (sizeofWord host abi) msg + 1) cmsgBuf = some (messages, []))
    (hcredentials : hasCredentials (sizeofWord host abi) messages = true) :
    fixMsghdr abi own entered args header =
      pushFixed abi entered args (msgControllen (sizeofWord host abi) msg) msg
        (fixedControl (sizeofWord host abi) own messages []) := by
  have hlength := AddressSpace.load_length hbuf
  have hloop := @fixCmsgs_eq _ own cmsgBuf _ (sizeofWord_pos_le host abi).1
    (is32on64Mode host abi) (show cmsgBuf.length < msgControllen (sizeofWord host abi) msg + 1 by
      omega)
  rw [hmessages] at hloop
  dsimp only at hloop
  rw [if_pos rfl] at hloop
  unfold fixMsghdr
  dsimp only
  rw [readAll_eq (sizeofWord_pos_le host abi).2, hmsg]
  dsimp only
  rw [if_pos ⟨hcontrol, hpos⟩, if_neg (Nat.not_lt.mpr hnative), readAll_eq (by omega), hbuf]
  dsimp only
  rw [hloop]
  dsimp only
  rw [if_pos hcredentials]

/-- and nothing else. -/
theorem fixMsghdr_untouched
    (hbound : ∀ msg, entered.memory.load (untagPointer host header)
      (sizeofMsghdr (sizeofWord host abi)) = some msg →
      (msgControl (sizeofWord host abi) msg : Address host) ≠ 0 →
      nativeControllen host msg ≤ maxControllen → msgControllen (sizeofWord host abi) msg ≤ 1024)
    (hnot : ∀ msg cmsgBuf messages, entered.memory.load (untagPointer host header)
      (sizeofMsghdr (sizeofWord host abi)) = some msg →
      (msgControl (sizeofWord host abi) msg : Address host) ≠ 0 →
      msgControllen (sizeofWord host abi) msg ≠ 0 →
      msgControllen (sizeofWord host abi) msg ≤ 1024 →
      entered.memory.load (untagPointer host (msgControl (sizeofWord host abi) msg))
        (msgControllen (sizeofWord host abi) msg) = some cmsgBuf →
      kernelCmsgs (sizeofWord host abi) (is32on64Mode host abi)
        (msgControllen (sizeofWord host abi) msg + 1) cmsgBuf = some (messages, []) →
      hasCredentials (sizeofWord host abi) messages = false) :
    ∃ copied status, fixMsghdr abi own entered args header = ⟨copied, entered, some status⟩ ∧
      copied ≤ 1024 ∧
      (∀ msg cmsgBuf, entered.memory.load (untagPointer host header)
        (sizeofMsghdr (sizeofWord host abi)) = some msg →
        entered.memory.load (untagPointer host (msgControl (sizeofWord host abi) msg))
          (msgControllen (sizeofWord host abi) msg) = some cmsgBuf → status = .ok ()) := by
  unfold fixMsghdr
  dsimp only
  rw [readAll_eq (sizeofWord_pos_le host abi).2]
  cases hmsg : entered.memory.load (untagPointer host header)
      (sizeofMsghdr (sizeofWord host abi)) with
  | none => exact ⟨0, _, rfl, by decide, nofun⟩
  | some msg =>
      dsimp only
      by_cases hany : (msgControl (sizeofWord host abi) msg : Address host) ≠ 0 ∧
          msgControllen (sizeofWord host abi) msg ≠ 0
      case neg =>
        rw [if_neg hany]
        exact ⟨0, _, rfl, by decide, fun _ _ _ _ => rfl⟩
      rw [if_pos hany]
      by_cases hnative : nativeControllen host msg > maxControllen
      · rw [if_pos hnative]
        exact ⟨0, _, rfl, by decide, fun _ _ _ _ => rfl⟩
      have hle := hbound msg hmsg hany.1 (Nat.le_of_not_lt hnative)
      rw [if_neg hnative, readAll_eq (by omega)]
      cases hbuf : entered.memory.load (untagPointer host (msgControl (sizeofWord host abi) msg))
          (msgControllen (sizeofWord host abi) msg) with
      | none =>
          refine ⟨_, _, rfl, hle, ?_⟩
          rintro msg' cmsgBuf ⟨⟩ hread
          rw [hbuf] at hread
          cases hread
      | some cmsgBuf =>
          dsimp only
          have hlength := AddressSpace.load_length hbuf
          rw [@fixCmsgs_eq _ own cmsgBuf _ (sizeofWord_pos_le host abi).1
            (is32on64Mode host abi) (by omega)]
          cases hmessages : kernelCmsgs (sizeofWord host abi) (is32on64Mode host abi)
              (msgControllen (sizeofWord host abi) msg + 1) cmsgBuf with
          | none => exact ⟨_, _, rfl, hle, fun _ _ _ _ => rfl⟩
          | some answer =>
              obtain ⟨messages, last⟩ := answer
              dsimp only
              by_cases hlast : last = []
              · subst hlast
                rw [if_pos rfl]
                dsimp only
                rw [hnot msg cmsgBuf messages hmsg hany.1 hany.2 hle hbuf hmessages]
                exact ⟨_, _, rfl, hle, fun _ _ _ _ => rfl⟩
              · rw [if_neg hlast]
                exact ⟨_, _, rfl, hle, fun _ _ _ _ => rfl⟩

end

theorem sizeofWord_native (h : is32on64Mode host abi = false) :
    sizeofWord host abi = host.word := by
  unfold sizeofWord
  rw [h]
  rfl

theorem littleEndian_replicate (k : Nat) : littleEndian (List.replicate k 0) = 0 := by
  induction k with
  | zero => rfl
  | succ k ih =>
      rw [List.replicate_succ, littleEndian_cons, ih]
      rfl

/-- A 32-bit tracee's length is not where PRoot's own structure has it. -/
theorem nativeControllen_le (hmsg : msg.length = sizeofMsghdr (sizeofWord host abi)) :
    nativeControllen host msg =
      if is32on64Mode host abi then 0 else msgControllen host.word msg := by
  unfold nativeControllen msgControllen
  unfold sizeofMsghdr at hmsg ⊢
  cases hmode : is32on64Mode host abi with
  | false =>
      rw [sizeofWord_native hmode] at hmsg
      rw [if_neg (by decide), List.drop_append_of_le_length (by omega),
        List.take_append_of_le_length (by rw [List.length_drop]; omega)]
  | true =>
      have hhalf : sizeofWord host abi = host.word / 2 := by
        unfold sizeofWord
        rw [hmode]
        rfl
      rw [hhalf] at hmsg
      rw [if_pos rfl, List.drop_append, List.drop_of_length_le (by omega), List.nil_append,
        List.drop_replicate, List.take_replicate, littleEndian_replicate]

/-- The old pointer, put back, -/
theorem sendmsgPackControl_self (hmsg : msg.length = sizeofMsghdr (sizeofWord host abi)) :
    sendmsgPackControl (sizeofWord host abi) msg
      (msgControl (sizeofWord host abi) msg : Address host) = msg := by
  have hle : sizeofWord host abi ≤ host.word := by cases host <;> cases abi <;> decide
  unfold sizeofMsghdr at hmsg
  generalize sizeofWord host abi = w at *
  have htake : ((msg.drop (4 * w)).take w).length = w := by
    rw [List.length_take, List.length_drop]
    omega
  have hlt := littleEndian_lt ((msg.drop (4 * w)).take w)
  have hpow : 256 ^ w ≤ 256 ^ host.word := Nat.pow_le_pow_right (by decide) hle
  have hspace : (256 : Nat) ^ host.word = 2 ^ (8 * host.word) := by
    rw [show (256 : Nat) = 2 ^ 8 from rfl, ← Nat.pow_mul]
  rw [htake] at hlt
  have hbytes := wordBytes_littleEndian ((msg.drop (4 * w)).take w)
  rw [htake] at hbytes
  unfold sendmsgPackControl msgControl
  rw [BitVec.toNat_ofNat, Nat.mod_eq_of_lt (by omega), hbytes, show 5 * w = 4 * w + w by omega,
    ← List.drop_drop, List.append_assoc, List.take_append_drop, List.take_append_drop]

theorem handleSendmsgEnterEnd_direct :
    handleSendmsgEnterEnd abi garbage own false entered =
      fixMsghdr abi own entered none (sysarg abi entered.current.arg2) := rfl

/-- What the handler looks at: the header of a call, with the arguments of `socketcall`. -/
theorem handleSendmsgEnterEnd_cases
    (hcall : isSocketcall = true → peek host abi entered.current.arg1 = 16) :
    (handleSendmsgEnterEnd abi garbage own isSocketcall entered =
        ⟨0, entered, some (.error .EFAULT)⟩ ∧ isSocketcall = true ∧
      entered.memory.load (untagPointer host (sysarg abi entered.current.arg2))
        (3 * host.word) = none ∧ seenMsg abi isSocketcall entered = none) ∨
    ∃ (args : Option Bytes) (header : Address host),
      handleSendmsgEnterEnd abi garbage own isSocketcall entered =
        fixMsghdr abi own entered args header ∧
      seenMsg abi isSocketcall entered = entered.memory.load (untagPointer host header)
        (sizeofMsghdr (sizeofWord host abi)) ∧
      (isSocketcall = false ∧ args = none ∧ header = sysarg abi entered.current.arg2 ∨
        ∃ block, isSocketcall = true ∧ args = some block ∧ header = argAt host block 1 ∧
          entered.memory.load (untagPointer host (sysarg abi entered.current.arg2))
            (3 * host.word) = some block) := by
  unfold handleSendmsgEnterEnd seenMsg
  dsimp only
  cases isSocketcall with
  | false => exact .inr ⟨none, _, rfl, rfl, .inl ⟨rfl, rfl, rfl⟩⟩
  | true =>
      have hsize : 3 * host.word ≤ 0x7ffff000 := by cases host <;> decide
      simp only [Bool.not_true, Bool.false_eq_true, if_false, hcall rfl, if_true,
        readAll_eq hsize, ne_eq, not_true, show ¬ (16 : BitVec 64) = 1 by decide]
      cases hblock : entered.memory.load (untagPointer host (sysarg abi entered.current.arg2))
          (3 * host.word) with
      | none => exact .inl ⟨rfl, trivial, rfl, rfl⟩
      | some block => exact .inr ⟨some block, _, rfl, rfl, .inr ⟨block, trivial, rfl, rfl, rfl⟩⟩

/-- What is not misread is what the kernel reads. -/
theorem kernelMessage_seen {args : Option Bytes} {header : Address host} {sent : SentMessage host}
    (hproper : ¬ Misread host abi isSocketcall)
    (hargs : isSocketcall = false ∧ args = none ∧ header = sysarg abi entered.current.arg2 ∨
      ∃ block, isSocketcall = true ∧ args = some block ∧ header = argAt host block 1 ∧
        entered.memory.load (untagPointer host (sysarg abi entered.current.arg2))
          (3 * host.word) = some block) :
    kernelMessage abi isSocketcall entered = some sent ↔
      kernelArgs abi isSocketcall entered = some (sent.fd, header, sent.flags) ∧
      entered.memory.load (untagPointer host header) (sizeofMsghdr (sizeofWord host abi)) =
        some sent.msg ∧
      entered.memory.load (untagPointer host (msgControl (sizeofWord host abi) sent.msg))
        (msgControllen (sizeofWord host abi) sent.msg) = some sent.control := by
  constructor
  · intro h
    obtain ⟨kernelHeader, hkernel, hmsg, hcontrol⟩ := kernelMessage_parts h
    have hsame : kernelHeader = header := by
      unfold kernelArgs at hkernel
      dsimp only at hkernel
      rcases hargs with ⟨rfl, -, rfl⟩ | ⟨block, rfl, -, rfl, hblock⟩
      · simp only [Bool.false_eq_true, if_false, Option.some.injEq, Prod.mk.injEq] at hkernel
        exact hkernel.2.1.symm
      · have hmode : is32on64Mode host abi = false := by
          simpa [Misread] using hproper
        rw [if_pos rfl, sizeofWord_native hmode, hblock] at hkernel
        simp only [Option.map_some, Option.some.injEq, Prod.mk.injEq] at hkernel
        exact hkernel.2.1.symm
    subst hsame
    exact ⟨hkernel, hmsg, hcontrol⟩
  · rintro ⟨hkernel, hmsg, hcontrol⟩
    exact kernelMessage_eq_some hkernel hmsg hcontrol

/-- The kernel gets some arguments then. -/
theorem kernelArgs_seen {args : Option Bytes} {header : Address host}
    (hproper : ¬ Misread host abi isSocketcall)
    (hargs : isSocketcall = false ∧ args = none ∧ header = sysarg abi entered.current.arg2 ∨
      ∃ block, isSocketcall = true ∧ args = some block ∧ header = argAt host block 1 ∧
        entered.memory.load (untagPointer host (sysarg abi entered.current.arg2))
          (3 * host.word) = some block) :
    ∃ fd flags, kernelArgs abi isSocketcall entered = some (fd, header, flags) := by
  unfold kernelArgs
  dsimp only
  rcases hargs with ⟨rfl, -, rfl⟩ | ⟨block, rfl, -, rfl, hblock⟩
  · exact ⟨_, _, rfl⟩
  · have hmode : is32on64Mode host abi = false := by
      simpa [Misread] using hproper
    rw [if_pos rfl, sizeofWord_native hmode, hblock]
    exact ⟨_, _, rfl⟩

/-- The bound, on the length that is used. -/
theorem nativeControllen_bound (hmsg : msg.length = sizeofMsghdr (sizeofWord host abi))
    (h : is32on64Mode host abi = true → msgControllen (sizeofWord host abi) msg ≤ 1024) :
    nativeControllen host msg ≤ maxControllen ↔
      msgControllen (sizeofWord host abi) msg ≤ 1024 := by
  rw [nativeControllen_le hmsg]
  unfold maxControllen
  cases hmode : is32on64Mode host abi with
  | false => rw [if_neg (by decide), sizeofWord_native hmode]
  | true =>
      rw [if_pos rfl]
      exact ⟨fun _ => h hmode, fun _ => Nat.zero_le _⟩

/-- **Credentials are fixed** in calls that fit. -/
theorem sendmsgFixed_of_fits
    (hcall : isSocketcall = true → peek host abi entered.current.arg1 = 16)
    (hroom : StackRoom abi entered 1600) (hfits : SendmsgFits abi own isSocketcall entered) :
    SendmsgFixed abi own isSocketcall entered
      (handleSendmsgEnterEnd abi garbage own isSocketcall entered) := by
  rcases @handleSendmsgEnterEnd_cases host abi garbage own isSocketcall entered hcall with
    ⟨hended, hsocketcall, hunread, -⟩ | ⟨args, header, hended, hseen, hargs⟩
  · rw [hended]
    refine ⟨Nat.zero_le _, nofun, ?_, fun _ => rfl⟩
    -- The kernel cannot read the arguments either.
    intro sent messages last h
    exfalso
    obtain ⟨hproper, -⟩ := hfits.whole sent messages last h
    obtain ⟨kernelHeader, hkernel, -⟩ := kernelMessage_parts h.message
    have hmode : is32on64Mode host abi = false := by
      simpa [Misread, hsocketcall] using hproper
    unfold kernelArgs at hkernel
    dsimp only at hkernel
    rw [if_pos hsocketcall, sizeofWord_native hmode, hunread] at hkernel
    cases hkernel
  have hbound : ∀ msg, entered.memory.load (untagPointer host header)
      (sizeofMsghdr (sizeofWord host abi)) = some msg →
      (msgControl (sizeofWord host abi) msg : Address host) ≠ 0 →
      (nativeControllen host msg ≤ maxControllen ↔
        msgControllen (sizeofWord host abi) msg ≤ 1024) :=
    fun msg hmsg hcontrol => nativeControllen_bound (AddressSpace.load_length hmsg)
      fun hmode => hfits.bound hmode msg (hseen.trans hmsg) hcontrol
  by_cases hfixable : ∃ msg cmsgBuf messages, entered.memory.load (untagPointer host header)
      (sizeofMsghdr (sizeofWord host abi)) = some msg ∧
      (msgControl (sizeofWord host abi) msg : Address host) ≠ 0 ∧
      msgControllen (sizeofWord host abi) msg ≠ 0 ∧
      msgControllen (sizeofWord host abi) msg ≤ 1024 ∧
      entered.memory.load (untagPointer host (msgControl (sizeofWord host abi) msg))
        (msgControllen (sizeofWord host abi) msg) = some cmsgBuf ∧
      kernelCmsgs (sizeofWord host abi) (is32on64Mode host abi)
        (msgControllen (sizeofWord host abi) msg + 1) cmsgBuf = some (messages, []) ∧
      hasCredentials (sizeofWord host abi) messages = true
  · obtain ⟨msg, cmsgBuf, messages, hmsg, hcontrol, hpos, hle, hbuf, hmessages, hcredentials⟩ :=
      hfixable
    have hproper : ¬ Misread host abi isSocketcall := fun hmisread =>
      hfits.misread hmisread
        ⟨msg, cmsgBuf, messages, hseen.trans hmsg, hcontrol, hbuf, hmessages, hcredentials⟩
    obtain ⟨fd, flags, hkernel⟩ := kernelArgs_seen hproper hargs
    have hmessage : kernelMessage abi isSocketcall entered = some ⟨fd, flags, msg, cmsgBuf⟩ :=
      kernelMessage_eq_some hkernel hmsg hbuf
    have hlength := AddressSpace.load_length hmsg
    have hbufLength := AddressSpace.load_length hbuf
    have hfixedLength := @fixedControl_length _ own cmsgBuf _ (sizeofWord_pos_le host abi).1
      (is32on64Mode host abi) messages [] hmessages
    rw [hended, fixMsghdr_fixed hmsg hcontrol hpos hle ((hbound msg hmsg hcontrol).mpr hle) hbuf
      hmessages hcredentials]
    have hpushed : ∃ (entered' : EnteredCall host) (control : Address host),
        pushFixed abi entered args (msgControllen (sizeofWord host abi) msg) msg
            (fixedControl (sizeofWord host abi) own messages []) =
          ⟨msgControllen (sizeofWord host abi) msg, entered', some (.ok ())⟩ ∧
        kernelMessage abi isSocketcall entered' = some
          ⟨fd, flags, sendmsgPackControl (sizeofWord host abi) msg control,
            fixedControl (sizeofWord host abi) own messages []⟩ := by
      rcases hargs with ⟨rfl, rfl, rfl⟩ | ⟨block, rfl, rfl, rfl, hblock⟩
      · cases hkernel
        exact pushFixed_direct hroom hlength (by omega) (by omega) (by omega)
      · have hmode : is32on64Mode host abi = false := by
          simpa [Misread] using hproper
        have hnative := sizeofWord_native hmode
        rw [hnative] at hlength hfixedLength hbufLength hpos hle ⊢
        exact pushFixed_socketcall hroom hnative hlength (by omega) (by omega) (by omega) hblock
          hkernel
    obtain ⟨entered', control, hpush, hgiven⟩ := hpushed
    rw [hpush]
    refine ⟨hle, nofun, ?_, fun hnone => absurd ⟨_, messages, [], hmessage, hcontrol, hpos, hle,
      hmessages, hcredentials⟩ hnone⟩
    intro sent messages' last' h
    obtain rfl := Option.some.inj (hmessage.symm.trans h.message)
    have hsame := hmessages.symm.trans h.accepted
    simp only [Option.some.injEq, Prod.mk.injEq] at hsame
    obtain ⟨rfl, rfl⟩ := hsame
    exact ⟨rfl, control, hgiven⟩
  · obtain ⟨copied, status, huntouched, hcopied, hstatus⟩ :=
      @fixMsghdr_untouched host abi own entered args header
        (fun msg hmsg hcontrol hnative => (hbound msg hmsg hcontrol).mp hnative)
        (by
          intro msg cmsgBuf messages hmsg hcontrol hpos hle hbuf hmessages
          by_contra hcredentials
          exact hfixable ⟨msg, cmsgBuf, messages, hmsg, hcontrol, hpos, hle, hbuf, hmessages,
            by simpa using hcredentials⟩)
    rw [hended, huntouched]
    refine ⟨hcopied, nofun, ?_, fun _ => rfl⟩
    intro sent messages last h
    obtain ⟨hproper, hlast⟩ := hfits.whole sent messages last h
    obtain ⟨hkernel, hmsg, hcontrol⟩ := (kernelMessage_seen hproper hargs).mp h.message
    obtain rfl := hstatus sent.msg sent.control hmsg hcontrol
    rcases hlast with rfl | hsame
    · exact absurd ⟨_, _, messages, hmsg, h.control_ne, h.controllen_ne, h.controllen_le, hcontrol,
        h.accepted, h.credentials⟩ hfixable
    · refine ⟨rfl, msgControl (sizeofWord host abi) sent.msg, ?_⟩
      rw [hsame, sendmsgPackControl_self (AddressSpace.load_length hmsg)]
      exact h.message

/-- And in no others, if the arguments are not misread. -/
theorem fits_of_sendmsgFixed
    (hcall : isSocketcall = true → peek host abi entered.current.arg1 = 16)
    (hproper : ¬ Misread host abi isSocketcall)
    (h : SendmsgFixed abi own isSocketcall entered
      (handleSendmsgEnterEnd abi garbage own isSocketcall entered)) :
    SendmsgFits abi own isSocketcall entered := by
  rcases @handleSendmsgEnterEnd_cases host abi garbage own isSocketcall entered hcall with
    ⟨hended, hsocketcall, hunread, hseen⟩ | ⟨args, header, hended, hseen, hargs⟩
  · refine ⟨?_, ?_, fun hmisread => absurd hmisread hproper⟩
    · intro _ msg hmsg
      rw [hseen] at hmsg
      cases hmsg
    · intro sent messages last hfix
      have hok := (h.fixed sent messages last hfix).1
      rw [hended] at hok
      cases hok
  · have hbound : is32on64Mode host abi = true → ∀ msg,
        seenMsg abi isSocketcall entered = some msg →
        (msgControl (sizeofWord host abi) msg : Address host) ≠ 0 →
          msgControllen (sizeofWord host abi) msg ≤ 1024 := by
      intro hmode msg hmsg hcontrol
      by_contra hlong
      rw [hseen] at hmsg
      have hnative := nativeControllen_le (AddressSpace.load_length hmsg)
      rw [if_pos hmode] at hnative
      have hcopied := h.copied
      rw [hended, fixMsghdr_copied hmsg hcontrol (by omega) (by omega)] at hcopied
      exact hlong hcopied
    refine ⟨hbound, ?_, fun hmisread => absurd hmisread hproper⟩
    intro sent messages last hfix
    refine ⟨hproper, ?_⟩
    by_cases hlast : last = []
    · exact .inl hlast
    -- A last piece keeps the handler from anything.
    · right
      obtain ⟨-, hmsg, hcontrol⟩ := (kernelMessage_seen hproper hargs).mp hfix.message
      obtain ⟨copied, status, huntouched, -⟩ :=
        @fixMsghdr_untouched host abi own entered args header
          (fun msg hmsg hcontrol hnative =>
            (nativeControllen_bound (AddressSpace.load_length hmsg)
              (fun hmode => hbound hmode msg (hseen.trans hmsg) hcontrol)).mp hnative)
          (by
            intro msg cmsgBuf messages' hmsg' _ _ _ hbuf hmessages
            obtain rfl := Option.some.inj (hmsg.symm.trans hmsg')
            obtain rfl := Option.some.inj (hcontrol.symm.trans hbuf)
            have hsame := hfix.accepted.symm.trans hmessages
            simp only [Option.some.injEq, Prod.mk.injEq] at hsame
            exact absurd hsame.2 hlast)
      obtain ⟨-, control, hgiven⟩ := h.fixed sent messages last hfix
      rw [hended, huntouched, hfix.message] at hgiven
      exact (congrArg SentMessage.control (Option.some.inj hgiven)).symm

/-- **Credentials are fixed exactly in calls that fit,** those whose arguments are not misread. -/
theorem sendmsg_fixed_iff
    (hcall : isSocketcall = true → peek host abi entered.current.arg1 = 16)
    (hroom : StackRoom abi entered 1600) :
    (SendmsgFits abi own isSocketcall entered → SendmsgFixed abi own isSocketcall entered
      (handleSendmsgEnterEnd abi garbage own isSocketcall entered)) ∧
    (¬ Misread host abi isSocketcall → SendmsgFixed abi own isSocketcall entered
      (handleSendmsgEnterEnd abi garbage own isSocketcall entered) →
      SendmsgFits abi own isSocketcall entered) :=
  ⟨sendmsgFixed_of_fits hcall hroom, fits_of_sendmsgFixed hcall⟩

end

end

/-- A `sendmsg` of a header at `0x1000`, with something at `0x2000`. -/
def someSendmsg (header control : Bytes) : EnteredCall .ARCH_X86_64 :=
  let regs : SyscallRegs := ⟨46, 3, 0x1000, 0, 0, 0, 0, 0x8000, 0⟩
  ⟨regs, regs, fun x =>
    some (if x.toNat < 0x2000 then header.getD (x.toNat - 0x1000) 0
      else control.getD (x.toNat - 0x2000) 0)⟩

theorem someSendmsg_room {abi : Abi} (header control : Bytes) :
    StackRoom abi (someSendmsg header control) 1600 := by
  have hsp : (sysarg abi (someSendmsg header control).current.stackPointer :
      Address .ARCH_X86_64) = 0x8000 := by
    change (sysarg abi 0x8000 : Address .ARCH_X86_64) = 0x8000
    cases abi <;> decide
  refine ⟨?_, ?_, fun _ _ _ => rfl⟩
  · rw [hsp]
    decide
  · rw [hsp]
    decide

/-- A header of a program with words of some size. -/
def headerOf (w controllen : Nat) : Bytes :=
  [0, 0, 0, 0, 0x2000, controllen, 0].flatMap (wordBytes w)

/-- Credentials, of the root user that the tracee believes to be. -/
def someCredentials : Bytes :=
  wordBytes 8 28 ++ [1, 2, 1, 0, 0, 0].flatMap (wordBytes 4)

theorem someSendmsg_fits : SendmsgFits .ABI_DEFAULT ⟨1000, 100⟩ false
    (someSendmsg (headerOf 8 32) someCredentials) where
  bound := nofun
  misread := fun h => absurd h.1 (by decide)
  whole := by
    intro sent messages last h
    refine ⟨fun h => absurd h.1 (by decide), .inl ?_⟩
    obtain ⟨header, hargs, hmsg, hcontrol⟩ := kernelMessage_parts h.message
    obtain rfl : (0x1000 : Address .ARCH_X86_64) = header :=
      congrArg (fun args => args.2.1) (Option.some.inj hargs)
    have hheader : (someSendmsg (headerOf 8 32) someCredentials).memory.load
        (untagPointer .ARCH_X86_64 0x1000) 56 = some (headerOf 8 32) := by
      change AddressSpace.load (fun x => some (if x.toNat < 0x2000 then
        (headerOf 8 32).getD (x.toNat - 0x1000) 0
        else someCredentials.getD (x.toNat - 0x2000) 0)) _ _ = _
      decide +kernel
    have hsent := Option.some.inj (hmsg.symm.trans hheader)
    have haccepted := h.accepted
    rw [hsent] at hcontrol haccepted
    have hbuf : (someSendmsg (headerOf 8 32) someCredentials).memory.load
        (untagPointer .ARCH_X86_64 0x2000) 32 = some someCredentials := by
      change AddressSpace.load (fun x => some (if x.toNat < 0x2000 then
        (headerOf 8 32).getD (x.toNat - 0x1000) 0
        else someCredentials.getD (x.toNat - 0x2000) 0)) _ _ = _
      decide +kernel
    have haddress : (msgControl (sizeofWord .ARCH_X86_64 .ABI_DEFAULT) (headerOf 8 32) :
        Address .ARCH_X86_64) = 0x2000 := by decide +kernel
    have hlen : msgControllen (sizeofWord .ARCH_X86_64 .ABI_DEFAULT) (headerOf 8 32) = 32 := by
      decide +kernel
    rw [haddress, hlen, hbuf] at hcontrol
    rw [hlen, ← Option.some.inj hcontrol] at haccepted
    have hone : kernelCmsgs 8 false 33 someCredentials = some ([someCredentials], []) := by
      decide +kernel
    exact (congrArg Prod.snd (Option.some.inj (haccepted.symm.trans hone)))

theorem sendmsg_fixed_iff_credentials :
    SendmsgFixed .ABI_DEFAULT ⟨1000, 100⟩ false (someSendmsg (headerOf 8 32) someCredentials)
      (handleSendmsgEnterEnd .ABI_DEFAULT (fun _ => 0) ⟨1000, 100⟩ false
        (someSendmsg (headerOf 8 32) someCredentials)) :=
  (sendmsg_fixed_iff (fun h => absurd h Bool.false_ne_true) (someSendmsg_room _ _)).1
    someSendmsg_fits

/-- A 32-bit program sends a control buffer of 2000 bytes: they are all copied. -/
theorem sendmsg_not_bounded :
    ¬ ∀ (abi : Abi) (own : OwnIds) (entered : EnteredCall .ARCH_X86_64),
      StackRoom abi entered 1600 → SendmsgFixed abi own false entered
        (handleSendmsgEnterEnd abi (fun _ => 0) own false entered) := by
  intro h
  have hcopied := (h .ABI_2 ⟨1000, 100⟩ (someSendmsg (headerOf 4 2000) [])
    (someSendmsg_room _ _)).copied
  have hheader : (someSendmsg (headerOf 4 2000) []).memory.load
      (untagPointer .ARCH_X86_64 (sysarg .ABI_2 0x1000)) 28 = some (headerOf 4 2000) := by
    change AddressSpace.load (fun x => some (if x.toNat < 0x2000 then
      (headerOf 4 2000).getD (x.toNat - 0x1000) 0
      else ([] : Bytes).getD (x.toNat - 0x2000) 0)) _ _ = _
    decide +kernel
  have hsize : (fixMsghdr .ABI_2 ⟨1000, 100⟩ (someSendmsg (headerOf 4 2000) []) none
      (sysarg .ABI_2 0x1000)).copied =
        msgControllen (sizeofWord .ARCH_X86_64 .ABI_2) (headerOf 4 2000) :=
    fixMsghdr_copied hheader (by decide +kernel) (by decide +kernel) (by decide +kernel)
  have hlen : msgControllen (sizeofWord .ARCH_X86_64 .ABI_2) (headerOf 4 2000) = 2000 := by
    decide +kernel
  rw [handleSendmsgEnterEnd_direct] at hcopied
  change (fixMsghdr .ABI_2 ⟨1000, 100⟩ (someSendmsg (headerOf 4 2000) []) none
    (sysarg .ABI_2 0x1000)).copied ≤ 1024 at hcopied
  rw [hsize, hlen] at hcopied
  exact absurd hcopied (by decide)

end PRoot
