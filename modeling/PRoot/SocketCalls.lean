import PRoot.CloneNamespaces
import PRoot.LinkSizes
import PRoot.NetlinkSources
import PRoot.SigsysMeaning
import PRoot.SocketNames

/-!
# Socket calls through `socketcall`

An ABI with a `socketcall` has two ways to make the calls on sockets: `socketcall` finds their
arguments in memory.  Both are translated by `syscall/enter.c` and `syscall/exit.c`, each in its own
way.

* `directCall`, `socketcallCall`: a call made in each way, by PRoot's two stages and the kernel;
* `translateSocketcallEnter_spec`: what the translation of an address depends on and changes;
* `EqualsDirect`: both ways do the same, and the array of arguments stays as it was;
* `equals_direct_iff`: when they do.
-/

namespace PRoot

section

variable {W S : Type} {host : Host}

/-- The calls that pass an address of a socket. -/
inductive SockOp
  | bind | connect | accept | accept4 | getsockname | getpeername
  deriving DecidableEq, Repr

/-- The address is read by the kernel. -/
def SockOp.names (op : SockOp) : Prop := op = .bind ∨ op = .connect

/-- The number of arguments. -/
def SockOp.nargs : SockOp → Nat
  | .accept4 => 4
  | _ => 3

/-! ## The kernel -/

/-- The arguments of a call: the third one is a size, or the address of a size. -/
structure SockArgs (host : Host) where
  fd : BitVec 32
  address : Address host
  third : Address host
  flags : BitVec 32
  deriving DecidableEq

/-- The arguments in the registers. -/
def SockArgs.ofRegs (abi : Abi) (op : SockOp) (regs : SyscallRegs) : SockArgs host where
  fd := (peek host abi regs.arg1).setWidth 32
  address := sysarg abi regs.arg2
  third := sysarg abi regs.arg3
  flags := if op = .accept4 then (peek host abi regs.arg4).setWidth 32 else 0

/-- `SYSARG_ADDR`. -/
def sysargAddr (abi : Abi) (argsAddr : Address host) (n : Nat) : Address host :=
  untagPointer host (argsAddr.plus ((n - 1) * sizeofWord host abi))

/-- A word of the array of arguments. -/
def sysargWord (abi : Abi) (m : Space host) (argsAddr : Address host) (n : Nat) : Option Nat :=
  peekWordAt (sizeofWord host abi) m (sysargAddr abi argsAddr n)

/-- The arguments in memory. -/
def SockArgs.ofArray (abi : Abi) (op : SockOp) (m : Space host) (argsAddr : Address host) :
    Option (SockArgs host) := do
  let last := if op = .accept4 then sysargWord abi m argsAddr 4 else some 0
  let fd ← sysargWord abi m argsAddr 1
  let address ← sysargWord abi m argsAddr 2
  let third ← sysargWord abi m argsAddr 3
  let flags ← last
  some ⟨BitVec.ofNat _ fd, BitVec.ofNat _ address, BitVec.ofNat _ third, BitVec.ofNat _ flags⟩

/-- The sockets of the kernel: what becomes of them, and what it answers. -/
structure SocketKernel (S : Type) where
  /-- `bind` and `connect`, once the address is read. -/
  named : S → SockOp → BitVec 32 → Except Errno Bytes → S × Except Errno Nat
  /-- The other calls: the result, and the address that is asked for. -/
  answer : S → SockOp → BitVec 32 → BitVec 32 → Except Errno (Nat × Bytes)
  /-- The sockets, once that address is written or cannot be. -/
  answered : S → SockOp → BitVec 32 → Except Errno Nat → S

/-- An `accept` without an address. -/
def Skips (op : SockOp) (address : Address host) : Prop :=
  (op = .accept ∨ op = .accept4) ∧ address = 0

instance (op : SockOp) (address : Address host) : Decidable (Skips op address) :=
  inferInstanceAs (Decidable (_ ∧ _))

/-- `move_addr_to_kernel`. -/
def moveAddrToKernel (m : Space host) (address : Address host) (size : BitVec 32) :
    Except Errno Bytes :=
  if size.toInt < 0 ∨ 128 < size.toInt then .error .EINVAL
  else
    match m.load (untagPointer host address) size.toNat with
    | none => .error .EFAULT
    | some bytes => .ok bytes

/-- A call that asks for an address. -/
def SocketKernel.ask (K : SocketKernel S) (s : S) (op : SockOp) (m : Space host)
    (args : SockArgs host) : Space host × Except Errno Nat :=
  match K.answer s op args.fd args.flags with
  | .error status => (m, .error status)
  | .ok (result, name) =>
      if Skips op args.address then (m, .ok result)
      else
        match moveAddrToUser m name args.address args.third with
        | (m, .error status) => (m, .error status)
        | (m, .ok _) => (m, .ok result)

/-- A call in the kernel. -/
def SocketKernel.run (K : SocketKernel S) (s : S) (op : SockOp) (m : Space host)
    (args : SockArgs host) : S × Space host × Except Errno Nat :=
  match op with
  | .bind | .connect =>
      let (s, result) :=
        K.named s op args.fd (moveAddrToKernel m args.address (args.third.setWidth 32))
      (s, m, result)
  | _ =>
      let (m, result) := K.ask s op m args
      (K.answered s op args.fd result, m, result)

/-! ## The enter stage -/

/-- How a call is entered: it is made, or its result is known, or the translation fails. -/
inductive EnterStage
  | made
  | voided (result : Except Errno Nat)
  | failed (status : Errno)

/-- `write_fake_netlink_sockname`, in memory. -/
def storeFakeNetlinkSockname (pid : UInt32) (m : Space host) (addrPtr sizePtr : Address host) :
    Space host × Except Errno Nat :=
  if sizePtr = 0 then (m, .error .EINVAL)
  else
    match peekUint32 m (untagPointer host sizePtr) with
    | none => (m, .error .EFAULT)
    | some inSize =>
        let snl := ((sockaddrNl pid).take inSize.toNat).map UInt8.toBitVec
        match if addrPtr ≠ 0 ∧ 0 < inSize then MemoryAccess.writeData true m addrPtr snl
          else (m, .ok ()) with
        | (m, .error _) => (m, .error .EFAULT)
        | (m, .ok _) =>
            match pokeUint32 m (untagPointer host sizePtr) 12 with
            | none => (m, .error .EFAULT)
            | some m => (m, .ok 0)

/-- The sixth argument is made the size of the buffer. -/
def enterSize (abi : Abi) (entered : EnteredCall host) (sizeAddr : Address host)
    (forced : Errno) : EnteredCall host × EnterStage :=
  match peekWordAt (sizeofWord host abi) entered.memory (untagPointer host sizeAddr) with
  | none => (entered, .failed forced)
  | some word =>
      let size := (BitVec.ofNat 32 word).signExtend 64
      ({ entered with
        current := { entered.current with
          arg6 := pokeReg host abi entered.current.arg6 size } }, .made)

section

variable (k : Kernel W) (fuel : Nat) (createTempName : Option CStr) (mktemp : CStr → CStr)
  (abi : Abi) (fds : List Int) (pid : UInt32) (sys : Sys W)

/-- The address of a call after its translation, in the registers. -/
def directTranslated (entered : EnteredCall host) :
    Except Errno (Option (Address host)) → EnteredCall host × EnterStage
  | .error status => (entered, .failed status)
  | .ok none => (entered, .made)
  | .ok (some address) =>
      let current := entered.current
      ({ entered with
        current := { current with
          arg2 := pokeReg host abi current.arg2 (address.setWidth 64)
          arg3 := pokeReg host abi current.arg3 (BitVec.ofNat 64 sizeofSockaddrUn) } }, .made)

/-- `translate_syscall_enter`: `bind`, `connect`, `accept`, `accept4`, `getsockname`,
`getpeername`. -/
def directEnter (op : SockOp) (entered : EnteredCall host) :
    Option (Sys W × EnteredCall host × EnterStage) :=
  let fake := isFakeNetlinkFd fds ((peek host abi entered.current.arg1).setWidth 32).toInt
  match op with
  | .bind | .connect =>
      if op = .bind ∧ fake = true then some (sys, entered, .voided (.ok 0))
      else
        (translateSocketcallEnter k fuel createTempName mktemp abi sys entered
          (sysarg abi entered.current.arg2)
          ((peek host abi entered.current.arg3).setWidth 32)).map fun (sys, entered, result) =>
            (sys, directTranslated abi entered result)
  | .accept | .accept4 =>
      if Skips op (sysarg abi entered.original.arg2 : Address host) then some (sys, entered, .made)
      else some (sys, enterSize abi entered (sysarg abi entered.original.arg3) .EINVAL)
  | .getsockname | .getpeername =>
      if fake = true then
        let (memory, result) := storeFakeNetlinkSockname pid entered.memory
          (sysarg abi entered.current.arg2) (sysarg abi entered.current.arg3)
        some (sys, { entered with memory }, .voided result)
      else some (sys, enterSize abi entered (sysarg abi entered.original.arg3) .EFAULT)

/-- A word of the array of arguments is overwritten. -/
def pokeSysarg (m : Space host) (argsAddr : Address host) (n value : Nat) : Option (Space host) :=
  pokeWordAt (sizeofWord host abi) m (sysargAddr abi argsAddr n) value

/-- The address of a call after its translation, in the array; the old one and its size are kept
in registers. -/
def socketcallTranslated (argsAddr : Address host) (sockAddr size : Nat)
    (entered : EnteredCall host) :
    Except Errno (Option (Address host)) → EnteredCall host × EnterStage
  | .error status => (entered, .failed status)
  | .ok none => (entered, .made)
  | .ok (some address) =>
      let current := entered.current
      let saved := { entered with
        current := { current with
          arg5 := pokeReg host abi current.arg5 (BitVec.ofNat 64 sockAddr)
          arg6 := pokeReg host abi current.arg6 (BitVec.ofNat 64 size) } }
      match pokeSysarg abi entered.memory argsAddr 2 address.toNat with
      | none => (saved, .failed .EFAULT)
      | some memory =>
          match pokeSysarg abi memory argsAddr 3 sizeofSockaddrUn with
          | none => ({ saved with memory }, .failed .EFAULT)
          | some memory => ({ saved with memory }, .made)

/-- `translate_syscall_enter`: `socketcall`. -/
def socketcallEnter (op : SockOp) (entered : EnteredCall host) :
    Option (Sys W × EnteredCall host × EnterStage) :=
  let argsAddr : Address host := sysarg abi entered.current.arg2
  match op with
  | .bind | .connect =>
      match sysargWord abi entered.memory argsAddr 2, sysargWord abi entered.memory argsAddr 3 with
      | some sockAddr, some size =>
          (translateSocketcallEnter k fuel createTempName mktemp abi sys entered
            (BitVec.ofNat _ sockAddr) (BitVec.ofNat 32 size)).map fun (sys, entered, result) =>
              (sys, socketcallTranslated abi argsAddr sockAddr size entered result)
      | _, _ => some (sys, entered, .failed .EFAULT)
  | .accept | .accept4 =>
      match sysargWord abi entered.memory argsAddr 2 with
      | none => some (sys, entered, .failed .EFAULT)
      | some sockAddr =>
          if Skips op (BitVec.ofNat _ sockAddr : Address host) then some (sys, entered, .made)
          else
            match sysargWord abi entered.memory argsAddr 3 with
            | none => some (sys, entered, .failed .EFAULT)
            | some sizeAddr => some (sys, enterSize abi entered (BitVec.ofNat _ sizeAddr) .EINVAL)
  | .getsockname | .getpeername =>
      match sysargWord abi entered.memory argsAddr 3 with
      | none => some (sys, entered, .failed .EFAULT)
      | some sizeAddr => some (sys, enterSize abi entered (BitVec.ofNat _ sizeAddr) .EFAULT)

end

/-! ## The exit stage -/

/-- The result of a call after something else that can fail. -/
def exitStatus (result : Nat) (exit : Space host × Except Errno Unit) :
    Space host × Except Errno Nat :=
  match exit with
  | (m, .error status) => (m, .error status)
  | (m, .ok _) => (m, .ok result)

/-- `translate_syscall_exit`: the same calls; the registers are those of the end of the enter
stage. -/
def directExit (abi : Abi) (sys : Sys W) (op : SockOp) (entered : EnteredCall host)
    (m : Space host) (result : Except Errno Nat) : Space host × Except Errno Nat :=
  match op, result with
  | .bind, _ | .connect, _ | _, .error _ => (m, result)
  | _, .ok value =>
      if Skips op (sysarg abi entered.original.arg2 : Address host) then (m, result)
      else
        exitStatus value (translateSocketcallExit sys m (sysarg abi entered.original.arg2)
          (sysarg abi entered.current.arg3) (peek host abi entered.current.arg6).toNat)

/-- `translate_syscall_exit`: `socketcall`. -/
def socketcallExit (abi : Abi) (sys : Sys W) (op : SockOp) (entered : EnteredCall host)
    (m : Space host) (result : Except Errno Nat) : Space host × Except Errno Nat :=
  let argsAddr : Address host := sysarg abi entered.original.arg2
  match op with
  | .bind | .connect =>
      match pokeSysarg abi m argsAddr 2 (peek host abi entered.current.arg5).toNat with
      | none => (m, result.bind fun _ => .error .EFAULT)
      | some m =>
          match pokeSysarg abi m argsAddr 3 (peek host abi entered.current.arg6).toNat with
          | none => (m, result.bind fun _ => .error .EFAULT)
          | some m => (m, result)
  | _ =>
      match result with
      | .error _ => (m, result)
      | .ok value =>
          match sysargWord abi m argsAddr 2 with
          | none => (m, .error .EFAULT)
          | some sockAddr =>
              if Skips op (BitVec.ofNat _ sockAddr : Address host) then (m, result)
              else
                match sysargWord abi m argsAddr 3 with
                | none => (m, .error .EFAULT)
                | some sizeAddr =>
                    exitStatus value (translateSocketcallExit sys m (BitVec.ofNat _ sockAddr)
                      (BitVec.ofNat _ sizeAddr) (peek host abi entered.current.arg6).toNat)

/-! ## Calls as a whole -/

/-- What a call comes to: the sockets, the bindings, memory and the result. -/
abbrev SocketOutcome (S W : Type) (host : Host) :=
  S × Sys W × Space host × Except Errno Nat

section

variable (k : Kernel W) (fuel : Nat) (createTempName : Option CStr) (mktemp : CStr → CStr)
  (abi : Abi) (fds : List Int) (pid : UInt32) (sys : Sys W)

/-- **A call that is made directly.** -/
def directCall (K : SocketKernel S) (s : S) (op : SockOp) (entered : EnteredCall host) :
    Option (SocketOutcome S W host) :=
  (directEnter k fuel createTempName mktemp abi fds pid sys op entered).map
    fun (sys, entered, stage) =>
      match stage with
      | .failed status => (s, sys, entered.memory, .error status)
      | .voided result => (s, sys, directExit abi sys op entered entered.memory result)
      | .made =>
          let (s, m, result) :=
            K.run s op entered.memory (SockArgs.ofRegs abi op entered.current)
          (s, sys, directExit abi sys op entered m result)

/-- **A call that is made through `socketcall`.** -/
def socketcallCall (K : SocketKernel S) (s : S) (op : SockOp) (entered : EnteredCall host) :
    Option (SocketOutcome S W host) :=
  (socketcallEnter k fuel createTempName mktemp abi sys op entered).map
    fun (sys, entered, stage) =>
      match stage with
      | .failed status => (s, sys, entered.memory, .error status)
      | .voided result => (s, sys, socketcallExit abi sys op entered entered.memory result)
      | .made =>
          match SockArgs.ofArray abi op entered.memory (sysarg abi entered.current.arg2) with
          | none => (s, sys, socketcallExit abi sys op entered entered.memory (.error .EFAULT))
          | some args =>
              let (s, m, result) := K.run s op entered.memory args
              (s, sys, socketcallExit abi sys op entered m result)

/-- The size of the buffer for an address. -/
def bufferSize (m : Space host) (sizeAddr : Address host) : Nat :=
  match m.load (untagPointer host sizeAddr) 4 with
  | none => 0
  | some bytes => if littleEndian bytes < 2 ^ 31 then littleEndian bytes else 0

/-- Where the array of arguments is, and its size. -/
def arrayAddr (abi : Abi) (entered : EnteredCall host) : Address host :=
  sysarg abi entered.current.arg2

def arraySize (host : Host) (abi : Abi) (op : SockOp) : Nat := op.nargs * sizeofWord host abi

/-- The free memory below the stack where an address would be put. -/
def scratchAddr (abi : Abi) (entered : EnteredCall host) : Address host :=
  sysarg abi entered.current.stackPointer - BitVec.ofNat _ (sizeofSockaddrUn + host.redZoneSize)

/-- The same call is made directly and through `socketcall`: in the same memory, with the same
arguments, in an array that is neither free memory nor where the call has an address written. -/
structure SameCall (op : SockOp) (args : SockArgs host) (direct indirect : EnteredCall host) :
    Prop where
  socketcall : ∃ nr, Names host abi nr .PR_socketcall
  entersDirect : direct.original = direct.current
  entersIndirect : indirect.original = indirect.current
  memory : indirect.memory = direct.memory
  stack : indirect.current.stackPointer = direct.current.stackPointer
  regs : SockArgs.ofRegs abi op direct.current = args
  array : SockArgs.ofArray abi op indirect.memory (arrayAddr abi indirect) = some args
  scratch : op.names → RangesApart (arrayAddr abi indirect) (arraySize host abi op)
    (scratchAddr abi indirect) sizeofSockaddrUn
  buffer : ¬ op.names → RangesApart (arrayAddr abi indirect) (arraySize host abi op)
    args.address (bufferSize direct.memory args.third)
  size : ¬ op.names → RangesApart (arrayAddr abi indirect) (arraySize host abi op) args.third 4

/-- **Both ways are the same**, whatever the kernel does: they come to the same, and leave the array
of arguments as it was. -/
def EqualsDirect (op : SockOp) (direct indirect : EnteredCall host) : Prop :=
  ∀ (S : Type) (K : SocketKernel S) (s : S),
    let outcome := socketcallCall k fuel createTempName mktemp abi sys K s op indirect
    outcome = directCall k fuel createTempName mktemp abi fds pid sys K s op direct ∧
      ∀ s sys m result, outcome = some (s, sys, m, result) →
        m.load (arrayAddr abi indirect) (arraySize host abi op) =
          indirect.memory.load (arrayAddr abi indirect) (arraySize host abi op)

/-- An address that is not translated: there is none, or none with a path. -/
def Untranslated (m : Space host) (address : Address host) (size : BitVec 32) : Prop :=
  address = 0 ∨ readSockaddrUn m sizeofSockaddrUn address size = .ok none

/-- When they are: the descriptor is not that of a substituted socket, or its address cannot be
given; and the registers that hold what is put back do so without a translation. -/
structure SocketcallFits (op : SockOp) (args : SockArgs host) (indirect : EnteredCall host) :
    Prop where
  bind : op = .bind → isFakeNetlinkFd fds args.fd.toInt = false
  ask : op = .getsockname ∨ op = .getpeername → isFakeNetlinkFd fds args.fd.toInt = true →
    args.third ≠ 0 ∧ indirect.memory.load (untagPointer host args.third) 4 = none
  saved : op.names → Untranslated indirect.memory args.address (args.third.setWidth 32) →
    sysarg abi indirect.current.arg5 = args.address ∧
      sysarg abi indirect.current.arg6 = args.third

end

end

section

variable {host : Host} {m m' : Space host} {a b x : Address host} {bytes src : Bytes}

/-! ## Frames -/

theorem pokeWords_frame {i : Nat} (hx : ∀ j < i * host.word, x ≠ a.plus j) :
    (pokeWords m a src i).1 x = m x := by
  induction i generalizing m a src with
  | zero => rfl
  | succ i ih =>
      unfold pokeWords
      cases hpoke : pokeData m a (src.take host.word) with
      | none => rfl
      | some m₁ =>
          have hrest : ∀ j < i * host.word, x ≠ (a.plus host.word).plus j := by
            intro j hj
            rw [plus_plus]
            exact hx _ (by rw [Nat.succ_mul]; omega)
          refine (ih hrest).trans (AddressSpace.store_frame hpoke fun j hj => hx j ?_)
          rw [List.length_take] at hj
          rw [Nat.succ_mul]
          omega

/-- What is written is no more than there is. -/
theorem pokeBytes_frame (hx : ∀ i < src.length, x ≠ a.plus i) : (pokeBytes m a src).1 x = m x := by
  have hsplit := split_words host src.length
  unfold pokeBytes
  dsimp only
  rw [fullWords]
  have hwords : (pokeWords m a src (src.length / host.word)).1 x = m x :=
    pokeWords_frame fun j hj => hx j (by omega)
  generalize pokeWords m a src (src.length / host.word) = written at hwords ⊢
  split
  · exact hwords
  · split
    · exact hwords
    · split
      · exact hwords
      · rename_i word hword
        split
        · exact hwords
        · rename_i m₁ hpoke
          have hlength : (src.drop (src.length / host.word * host.word)).length =
              src.length % host.word := by
            rw [List.length_drop]
            omega
          have hrefill := AddressSpace.store_refill hword
            (show (src.drop (src.length / host.word * host.word)).length ≤ _ by
              rw [hlength]
              exact (Nat.mod_lt _ (word_pos host)).le)
          rw [hlength] at hrefill
          refine (AddressSpace.store_frame (hrefill.symm.trans hpoke) fun j hj => ?_).trans hwords
          rw [show a.plus _ + BitVec.ofNat _ j = a.plus _ from plus_plus _ _ _]
          rw [hlength] at hj
          exact hx _ (by omega)

/-- **Data that is written**, or a part of it: nothing else is. -/
theorem writeData_frame {processVm : Bool}
    (hx : ∀ i < src.length, x ≠ (untagPointer host a).plus i) :
    (MemoryAccess.writeData processVm m a src).1 x = m x := by
  unfold MemoryAccess.writeData
  dsimp only
  split
  · rename_i m₁ hwrite
    split at hwrite
    · obtain ⟨-, hstore⟩ := Option.ite_none_right_eq_some.mp hwrite
      exact AddressSpace.store_frame hstore hx
    · cases hwrite
  · exact pokeBytes_frame hx

end

section

variable {W : Type} {host : Host} {abi : Abi} {e e₀ : EnteredCall host} {bytes : Bytes}

/-! ## The translation of an address -/

/-- A call with the memory and the stack of another one. -/
def EnteredCall.like (e e₀ : EnteredCall host) : EnteredCall host :=
  { e with
    current := { e.current with stackPointer := e₀.current.stackPointer }
    memory := e₀.memory }

theorem allocMem_like (size : Nat)
    (h : e.original.stackPointer = e₀.original.stackPointer) :
    (e.like e₀).allocMem abi size =
      (e₀.allocMem abi size).map fun (entered, a) => (e.like entered, a) := by
  unfold EnteredCall.allocMem EnteredCall.like
  dsimp only
  rw [h]
  split_ifs
  · rfl
  · rfl
  · rfl
  · rfl

theorem push_like (status : Errno) (h : e.original.stackPointer = e₀.original.stackPointer) :
    (e.like e₀).push abi bytes status =
      (e.like (e₀.push abi bytes status).1, (e₀.push abi bytes status).2) := by
  unfold EnteredCall.push
  rw [allocMem_like bytes.length h]
  cases e₀.allocMem abi bytes.length with
  | none => rfl
  | some allocated =>
      obtain ⟨entered, a⟩ := allocated
      change (match MemoryAccess.writeData true entered.memory a bytes with
        | (memory, .error _) => _ | (memory, .ok _) => _) = _
      dsimp only
      obtain ⟨memory, failed | done⟩ := MemoryAccess.writeData true entered.memory a bytes
      · rfl
      · rfl

variable {k : Kernel W} {fuel : Nat} {createTempName : Option CStr} {mktemp : CStr → CStr}
  {sys : Sys W} {address : Address host} {size : BitVec 32}

/-- The translation depends on memory and the stack only. -/
theorem translateSocketcallEnter_like
    (h : e.original.stackPointer = e₀.original.stackPointer) :
    translateSocketcallEnter k fuel createTempName mktemp abi sys (e.like e₀) address size =
      (translateSocketcallEnter k fuel createTempName mktemp abi sys e₀ address size).map
        fun call => (call.1, e.like call.2.1, call.2.2) := by
  unfold translateSocketcallEnter
  by_cases hnull : address = 0
  · rw [if_pos hnull, if_pos hnull]
    rfl
  · rw [if_neg hnull, if_neg hnull]
    rw [show (e.like e₀).memory = e₀.memory from rfl]
    cases readSockaddrUn e₀.memory sizeofSockaddrUn address size with
    | error status => rfl
    | ok found =>
        obtain _ | ⟨sockaddr, userPath⟩ := found
        · rfl
        · dsimp only
          rw [Option.map_map]
          congr 1
          funext outcome
          dsimp only [Function.comp]
          cases outcome.result with
          | error status => rfl
          | ok hostPath =>
              dsimp only
              obtain ⟨sys, status | hostPath⟩ :=
                shortenPath createTempName mktemp outcome.sys hostPath
              · rfl
              · dsimp only
                rw [push_like .EFAULT h]
                obtain ⟨entered, status | address⟩ :=
                  e₀.push abi (setSunPath sockaddr hostPath) .EFAULT
                · rfl
                · rfl

/-- A call after an address was put below its stack, or was to be. -/
structure Scratched (abi : Abi) (e e' : EnteredCall host) : Prop where
  original : e'.original = e.original
  current : ∃ sp, e'.current = { e.current with stackPointer := sp }
  memory : ∀ x, (∀ i < sizeofSockaddrUn, x ≠ (untagPointer host (scratchAddr abi e)).plus i) →
    e'.memory x = e.memory x

theorem Scratched.refl (e : EnteredCall host) : Scratched abi e e :=
  ⟨rfl, ⟨e.current.stackPointer, rfl⟩, fun _ _ => rfl⟩

theorem allocMem_scratch {a : Address host} {e' : EnteredCall host} (h : e.original = e.current)
    (hsome : e.allocMem abi sizeofSockaddrUn = some (e', a)) :
    e' = { e with current := { e.current with stackPointer := a.setWidth 64 } } ∧
      a = scratchAddr abi e ∧ (sysarg abi (a.setWidth 64) : Address host) = a := by
  unfold EnteredCall.allocMem at hsome
  dsimp only at hsome
  rw [h, if_pos rfl] at hsome
  obtain ⟨hroom, hsome⟩ := Option.ite_none_left_eq_some.mp hsome
  obtain ⟨rfl, rfl⟩ := Prod.mk.inj (Option.some.inj hsome)
  refine ⟨by rw [h], rfl, sysarg_setWidth fun hword => ?_⟩
  have hlt : (sysarg abi e.current.stackPointer : Address host).toNat < 2 ^ 32 :=
    sysarg_lt hword e.current.stackPointer
  generalize (sysarg abi e.current.stackPointer : Address host) = sp at hroom hlt ⊢
  rw [BitVec.toNat_sub_of_le]
  · omega
  · rw [BitVec.le_def, BitVec.toNat_ofNat]
    exact (Nat.mod_le _ _).trans (by omega)

theorem push_scratch (status : Errno) (h : e.original = e.current)
    (hlength : bytes.length = sizeofSockaddrUn) :
    Scratched abi e (e.push abi bytes status).1 ∧
      ∀ a, (e.push abi bytes status).2 = .ok a →
        a = scratchAddr abi e ∧ (sysarg abi (a.setWidth 64) : Address host) = a := by
  unfold EnteredCall.push
  rw [hlength]
  cases halloc : e.allocMem abi sizeofSockaddrUn with
  | none => exact ⟨Scratched.refl e, nofun⟩
  | some allocated =>
      obtain ⟨e', a⟩ := allocated
      obtain ⟨rfl, rfl, hpeeked⟩ := allocMem_scratch h halloc
      dsimp only
      have hframe : ∀ x, (∀ i < sizeofSockaddrUn,
          x ≠ (untagPointer host (scratchAddr abi e)).plus i) →
          (MemoryAccess.writeData true e.memory (scratchAddr abi e) bytes).1 x = e.memory x :=
        fun x hx => writeData_frame (by rwa [hlength])
      generalize MemoryAccess.writeData true e.memory (scratchAddr abi e) bytes = written at hframe
      obtain ⟨memory, failed | done⟩ := written
      · exact ⟨⟨rfl, ⟨_, rfl⟩, hframe⟩, nofun⟩
      · exact ⟨⟨rfl, ⟨_, rfl⟩, hframe⟩, fun a ha => by
          cases ha
          exact ⟨rfl, hpeeked⟩⟩

theorem setSunPath_length {sockaddr : Bytes} (path : CStr) (h : 2 ≤ sockaddr.length) :
    (setSunPath sockaddr path).length = sizeofSockaddrUn := by
  unfold setSunPath
  have hsize : sizeofSockaddrUn = 2 + sizeofPath := rfl
  rw [List.length_append, List.length_append, List.length_take, List.length_take,
    List.length_replicate, sunPathBytes_length]
  omega

theorem readSockaddrUn_length {m : Space host} {a : Address host} {sockaddr path : Bytes}
    (h : readSockaddrUn m sizeofSockaddrUn a size = .ok (some (sockaddr, path))) :
    2 ≤ sockaddr.length := by
  have hsize : sizeofSockaddrUn = 110 := rfl
  unfold readSockaddrUn at h
  split at h
  · cases h
  split at h
  · cases h
  · dsimp only at h
    split_ifs at h
    · cases h
    · obtain ⟨rfl, -⟩ := Prod.mk.inj (Option.some.inj (Except.ok.inj h))
      rw [List.length_append, List.length_replicate]
      omega

theorem translateSocketcallEnter_untranslated (h : Untranslated e.memory address size) :
    translateSocketcallEnter k fuel createTempName mktemp abi sys e address size =
      some (sys, e, .ok none) := by
  unfold translateSocketcallEnter
  by_cases hnull : address = 0
  · rw [if_pos hnull]
  · rw [if_neg hnull, h.resolve_left hnull]

/-- A call whose address is translated, or was to be. -/
structure AddressEntered (abi : Abi) (e e' : EnteredCall host)
    (result : Except Errno (Option (Address host))) : Prop where
  scratched : Scratched abi e e'
  translated : result ≠ .ok none
  put : ∀ a, result = .ok (some a) →
    a = scratchAddr abi e ∧ (sysarg abi (a.setWidth 64) : Address host) = a

/-- **The translation of an address:** nothing is written but an address below the stack. -/
theorem translateSocketcallEnter_spec {sys' : Sys W} {e' : EnteredCall host}
    {result : Except Errno (Option (Address host))} (h : e.original = e.current)
    (htranslated : ¬ Untranslated e.memory address size)
    (hrun : translateSocketcallEnter k fuel createTempName mktemp abi sys e address size =
      some (sys', e', result)) :
    AddressEntered abi e e' result := by
  obtain ⟨hnull, hread⟩ := not_or.mp htranslated
  unfold translateSocketcallEnter at hrun
  rw [if_neg hnull] at hrun
  cases hfound : readSockaddrUn e.memory sizeofSockaddrUn address size with
  | error status =>
      rw [hfound] at hrun
      cases hrun
      exact ⟨Scratched.refl e, nofun, nofun⟩
  | ok found =>
      rw [hfound] at hrun
      obtain _ | ⟨sockaddr, userPath⟩ := found
      · exact absurd hfound hread
      · obtain ⟨outcome, -, hrun⟩ := Option.map_eq_some_iff.mp hrun
        split at hrun
        · cases hrun
          exact ⟨Scratched.refl e, nofun, nofun⟩
        · split at hrun
          · cases hrun
            exact ⟨Scratched.refl e, nofun, nofun⟩
          · rename_i after hostPath hshorten
            obtain ⟨hscratched, hput⟩ := @push_scratch host abi e
              (setSunPath sockaddr hostPath) .EFAULT h
              (setSunPath_length hostPath (readSockaddrUn_length hfound))
            generalize e.push abi (setSunPath sockaddr hostPath) .EFAULT = pushed at *
            obtain ⟨entered, failed | a⟩ := pushed
            · cases hrun
              exact ⟨hscratched, nofun, nofun⟩
            · cases hrun
              refine ⟨hscratched, nofun, fun b hb => ?_⟩
              cases hb
              exact hput a rfl

end

section

variable {W S : Type} {host : Host} {abi : Abi} {m m' : Space host} {b : Address host}

/-! ## The answers of the kernel -/

/-- What is written of an answer: no more than the buffer takes, and its size. -/
theorem moveAddrToUser_frame {name : Bytes} {sockAddr sizeAddr x : Address host}
    (haddress : ∀ i < bufferSize m sizeAddr, x ≠ (untagPointer host sockAddr).plus i)
    (hsize : ∀ i < 4, x ≠ (untagPointer host sizeAddr).plus i) :
    (moveAddrToUser m name sockAddr sizeAddr).1 x = m x := by
  unfold moveAddrToUser
  unfold bufferSize at haddress
  cases hload : m.load (untagPointer host sizeAddr) 4 with
  | none => rfl
  | some bytes =>
      rw [hload] at haddress
      dsimp only at haddress ⊢
      have hlt : littleEndian bytes < 2 ^ 32 :=
        (littleEndian_lt bytes).trans_eq (by rw [AddressSpace.load_length hload]; rfl)
      by_cases hnegative : (BitVec.ofNat 32 (littleEndian bytes)).toInt < 0
      · rw [if_pos hnegative]
      · rw [if_neg hnegative]
        have hnat : (BitVec.ofNat 32 (littleEndian bytes)).toNat = littleEndian bytes := by
          rw [BitVec.toNat_ofNat, Nat.mod_eq_of_lt hlt]
        rw [if_pos (by
          rw [BitVec.toInt_eq_toNat_bmod, hnat] at hnegative
          by_contra hlarge
          exact hnegative (by rw [Int.bmod_def]; omega))] at haddress
        rw [hnat]
        have htaken : (name.take (littleEndian bytes)).length ≤ littleEndian bytes := by
          rw [List.length_take]
          exact min_le_left _ _
        cases hfirst : m.store (untagPointer host sockAddr) (name.take (littleEndian bytes)) with
        | none => rfl
        | some m₁ =>
            have hx := AddressSpace.store_frame hfirst fun i hi => haddress i (by omega)
            dsimp only
            cases hsecond : m₁.store (untagPointer host sizeAddr) (wordBytes 4 name.length) with
            | none => exact hx
            | some m₂ =>
                exact (AddressSpace.store_frame hsecond fun i hi => hsize i
                  (by rwa [wordBytes_length] at hi)).trans hx

/-- What is written by the exit stage: no more than `max_size`, and the size. -/
theorem translateSocketcallExit_frame {sys : Sys W} {sockAddr sizeAddr x : Address host}
    {maxSize : Nat} (haddress : ∀ i < maxSize, x ≠ (untagPointer host sockAddr).plus i)
    (hsize : ∀ i < 4, x ≠ (untagPointer host sizeAddr).plus i) :
    (translateSocketcallExit sys m sockAddr sizeAddr maxSize).1 x = m x := by
  unfold translateSocketcallExit
  split
  · rfl
  split
  · rfl
  dsimp only
  split
  · rfl
  · rfl
  split
  · rfl
  rename_i sockaddr _ _ _ path _ _
  have hfirst : (MemoryAccess.writeData true m sockAddr ((setSunPath sockaddr path).take
      (min (2 + path.length + 1) (min maxSize sizeofSockaddrUn)))).1 x = m x :=
    writeData_frame fun i hi => haddress i (by rw [List.length_take] at hi; omega)
  generalize MemoryAccess.writeData true m sockAddr _ = written at hfirst ⊢
  obtain ⟨m₁, failed | done⟩ := written
  · exact hfirst
  · exact (writeData_frame fun i hi => hsize i (by rwa [wordBytes_length] at hi)).trans hfirst

end

section

variable {W S : Type} {host : Host} {abi : Abi} {op : SockOp} {args : SockArgs host}
  {direct indirect : EnteredCall host} {m m' : Space host}

/-! ## The array of arguments -/

/-- The ABIs that have a `socketcall` have words of 32 bits and addresses without tags. -/
theorem socketcall_host (h : ∃ nr, Names host abi nr .PR_socketcall) :
    sizeofWord host abi = 4 ∧ ∀ a : Address host, untagPointer host a = a := by
  obtain ⟨nr, hnames⟩ := h
  obtain ⟨sysnums, hget, hmem⟩ := hnames.mem
  have hother : sizeofWord host abi = 4 ∧ host ≠ .ARCH_ARM64 := by
    cases host <;> cases abi <;> first | exact ⟨rfl, by decide⟩ | cases hget
    all_goals exact absurd hmem (by decide)
  refine ⟨hother.1, fun a => BitVec.eq_of_toNat_eq ?_⟩
  rw [untagPointer_toNat, if_neg hother.2]

theorem SockArgs.ofArray_eq_some_iff {a : Address host} :
    SockArgs.ofArray abi op m a = some args ↔
      ∃ fd address third flags, sysargWord abi m a 1 = some fd ∧
        sysargWord abi m a 2 = some address ∧ sysargWord abi m a 3 = some third ∧
        (if op = .accept4 then sysargWord abi m a 4 else some 0) = some flags ∧
        args = ⟨BitVec.ofNat _ fd, BitVec.ofNat _ address, BitVec.ofNat _ third,
          BitVec.ofNat _ flags⟩ := by
  unfold SockArgs.ofArray
  simp only [Option.bind_eq_bind, Option.bind_eq_some_iff, Option.some.injEq]
  constructor
  · rintro ⟨fd, hfd, address, haddress, third, hthird, flags, hflags, rfl⟩
    exact ⟨fd, address, third, flags, hfd, haddress, hthird, hflags, rfl⟩
  · rintro ⟨fd, address, third, flags, hfd, haddress, hthird, hflags, rfl⟩
    exact ⟨fd, hfd, address, haddress, third, hthird, flags, hflags, rfl⟩

/-- The second and the third argument are words in an array. -/
structure ArrayAt (abi : Abi) (m : Space host) (a : Address host) (sockAddr third : Nat) :
    Prop where
  word : sizeofWord host abi = 4
  untagged : ∀ a : Address host, untagPointer host a = a
  second : sysargWord abi m a 2 = some sockAddr
  third : sysargWord abi m a 3 = some third

namespace ArrayAt

variable {a : Address host} {sockAddr third : Nat}

theorem words (h : ArrayAt abi m a sockAddr third) :
    sockAddr < 2 ^ 32 ∧ third < 2 ^ 32 ∧
      m.load (a.plus 4) (4 + 4) = some (wordBytes 4 sockAddr ++ wordBytes 4 third) := by
  have hword : ∀ {n value : Nat}, sysargWord abi m a n = some value →
      value < 2 ^ 32 ∧ m.load (a.plus ((n - 1) * 4)) 4 = some (wordBytes 4 value) := by
    intro n value hn
    unfold sysargWord sysargAddr peekWordAt at hn
    rw [h.word, h.untagged] at hn
    obtain ⟨bytes, hload, rfl⟩ := Option.map_eq_some_iff.mp hn
    have hlength := AddressSpace.load_length hload
    have hlt := littleEndian_lt bytes
    have hbytes := wordBytes_littleEndian bytes
    rw [hlength] at hlt hbytes
    exact ⟨hlt, by rw [hload, hbytes]⟩
  obtain ⟨hsecond, hloadSecond⟩ := hword h.second
  obtain ⟨hthird, hloadThird⟩ := hword h.third
  refine ⟨hsecond, hthird, AddressSpace.load_append hloadSecond ?_⟩
  change m.load ((a.plus 4).plus 4) 4 = _
  rw [plus_plus]
  exact hloadThird

/-- Both words are overwritten. -/
theorem poke (h : ArrayAt abi m a sockAddr third) (first second : Nat) :
    ∃ m₁ m₂, pokeSysarg abi m a 2 first = some m₁ ∧ pokeSysarg abi m₁ a 3 second = some m₂ ∧
      m.store (a.plus 4) (wordBytes 4 first ++ wordBytes 4 second) = some m₂ := by
  have hspace : 2 * 4 ≤ 2 ^ (8 * host.word) := by
    cases host <;> decide
  obtain ⟨-, -, hload⟩ := h.words
  have hpair := @pokeWordAt_pair host 4 m (a.plus 4) first second (by rw [hload]; rfl) hspace
  unfold pokeSysarg sysargAddr
  rw [h.word, h.untagged, h.untagged]
  rwa [plus_plus] at hpair

/-- Both words are put back. -/
theorem back {m₂ : Space host} {first second : Nat} (h : ArrayAt abi m a sockAddr third)
    (hstore : m.store (a.plus 4) (wordBytes 4 first ++ wordBytes 4 second) = some m₂) :
    ∃ m₃, pokeSysarg abi m₂ a 2 sockAddr = some m₃ ∧ pokeSysarg abi m₃ a 3 third = some m := by
  have hspace : 2 * 4 ≤ 2 ^ (8 * host.word) := by
    cases host <;> decide
  obtain ⟨-, -, hload⟩ := h.words
  have hlength : ∀ x y : Nat, (wordBytes 4 x ++ wordBytes 4 y).length = 4 + 4 := by
    intro x y
    rw [List.length_append, wordBytes_length, wordBytes_length]
  have hroom : (m₂.load (a.plus 4) (2 * 4)).isSome := by
    rw [AddressSpace.load_isSome_iff]
    intro i hi
    rw [AddressSpace.store_mapped hstore]
    exact AddressSpace.load_isSome_iff.mp (by rw [hload]; rfl) i hi
  obtain ⟨m₃, m₄, hfirst, hsecond, hboth⟩ :=
    @pokeWordAt_pair host 4 m₂ (a.plus 4) sockAddr third hroom hspace
  have hrestore := AddressSpace.store_restore (by rw [hlength]; exact hload)
    (by rw [hlength, hlength]) hstore
  obtain rfl := Option.some.inj (hboth.symm.trans hrestore)
  refine ⟨m₃, ?_, ?_⟩
  · unfold pokeSysarg sysargAddr
    rw [h.word, h.untagged]
    exact hfirst
  · unfold pokeSysarg sysargAddr
    rw [h.word, h.untagged]
    rwa [plus_plus] at hsecond

/-- The arguments after both words are overwritten. -/
theorem poked {m₂ : Space host} {first second : Nat} (h : ArrayAt abi m a sockAddr third)
    (hop : op.names) (hargs : SockArgs.ofArray abi op m a = some args)
    (hfirst : first < 2 ^ 32) (hsecond : second < 2 ^ 32)
    (hstore : m.store (a.plus 4) (wordBytes 4 first ++ wordBytes 4 second) = some m₂) :
    SockArgs.ofArray abi op m₂ a =
      some ⟨args.fd, BitVec.ofNat _ first, BitVec.ofNat _ second, args.flags⟩ := by
  have hother : op ≠ .accept4 := by
    rcases hop with rfl | rfl
    · decide
    · decide
  have hlength : (wordBytes 4 first ++ wordBytes 4 second).length = 4 + 4 := by
    rw [List.length_append, wordBytes_length, wordBytes_length]
  have hspace : 4 + 4 ≤ 2 ^ (8 * host.word) := by
    cases host <;> decide
  have hload := AddressSpace.load_store hstore (by rwa [hlength])
  rw [hlength] at hload
  have hword : ∀ {n value : Nat}, value < 2 ^ 32 →
      m₂.load (a.plus ((n - 1) * 4)) 4 = some (wordBytes 4 value) →
      sysargWord abi m₂ a n = some value := by
    intro n value hvalue hbytes
    unfold sysargWord sysargAddr peekWordAt
    rw [h.word, h.untagged, hbytes, Option.map_some, littleEndian_wordBytes,
      Nat.mod_eq_of_lt (show value < 256 ^ 4 from hvalue)]
  obtain ⟨fd, address, last, flags, hfd, -, -, hflags, rfl⟩ :=
    SockArgs.ofArray_eq_some_iff.mp hargs
  rw [if_neg hother] at hflags
  refine SockArgs.ofArray_eq_some_iff.mpr ⟨fd, first, second, flags, ?_, ?_, ?_, ?_, rfl⟩
  · rw [← hfd]
    unfold sysargWord sysargAddr peekWordAt
    rw [h.word, h.untagged, AddressSpace.load_store_apart hstore]
    intro i hi
    rw [hlength, AddressSpace.add_offset]
    exact plus_before (by omega) (by decide)
  · have hhead := AddressSpace.load_take hload (show 4 ≤ 4 + 4 by decide)
    rw [List.take_left' (wordBytes_length 4 first)] at hhead
    exact hword hfirst hhead
  · have htail := AddressSpace.load_drop hload (show 4 ≤ 4 + 4 by decide)
    rw [List.drop_left' (wordBytes_length 4 first), AddressSpace.add_offset] at htail
    exact hword hsecond htail
  · rw [if_neg hother, hflags]

end ArrayAt

theorem SameCall.arrayAt (h : SameCall abi op args direct indirect) :
    ∃ sockAddr third, ArrayAt abi indirect.memory (arrayAddr abi indirect) sockAddr third ∧
      args.address = BitVec.ofNat _ sockAddr ∧ args.third = BitVec.ofNat _ third := by
  obtain ⟨hword, huntag⟩ := @socketcall_host host abi h.socketcall
  obtain ⟨fd, address, third, flags, -, haddress, hthird, -, hargs⟩ :=
    SockArgs.ofArray_eq_some_iff.mp h.array
  rw [hargs]
  exact ⟨address, third, ⟨hword, huntag, haddress, hthird⟩, rfl, rfl⟩

theorem sysarg_eq_ofNat_iff {value : BitVec 64} {word : Nat} (h : sizeofWord host abi = 4)
    (hword : word < 2 ^ 32) :
    (sysarg abi value : Address host) = BitVec.ofNat _ word ↔
      (peek host abi value).toNat = word := by
  have hspace : 2 ^ 32 ≤ 2 ^ (8 * host.word) := by cases host <;> decide
  have hpeek : (peek host abi value).toNat < 2 ^ 32 := by
    rw [peek, if_pos h, and_low]
    exact Nat.mod_lt _ (by decide)
  rw [BitVec.toNat_eq]
  unfold sysarg
  rw [BitVec.toNat_setWidth, BitVec.toNat_ofNat, Nat.mod_eq_of_lt (by omega),
    Nat.mod_eq_of_lt (by omega)]

/-- The array stays as it was. -/
def SameArray (abi : Abi) (op : SockOp) (m m' : Space host) (a : Address host) : Prop :=
  ∀ i < arraySize host abi op, m' (a.plus i) = m (a.plus i)

namespace SameArray

variable {a : Address host}

theorem load (h : SameArray abi op m m' a) :
    m'.load a (arraySize host abi op) = m.load a (arraySize host abi op) :=
  AddressSpace.load_congr h

theorem sysargWord (h : SameArray abi op m m' a)
    (huntag : ∀ a : Address host, untagPointer host a = a) {n : Nat} (hpos : 0 < n)
    (hn : n ≤ op.nargs) : sysargWord abi m' a n = sysargWord abi m a n := by
  unfold PRoot.sysargWord sysargAddr peekWordAt
  rw [huntag, AddressSpace.load_congr]
  intro i hi
  rw [AddressSpace.add_offset]
  refine h _ ?_
  unfold arraySize
  obtain ⟨n, rfl⟩ := Nat.exists_eq_add_one_of_ne_zero (Nat.ne_of_gt hpos)
  have hle := Nat.mul_le_mul_right (sizeofWord host abi) hn
  rw [Nat.succ_mul] at hle
  rw [Nat.add_sub_cancel]
  omega

end SameArray

theorem nargs_cases (op : SockOp) : 3 ≤ op.nargs ∧ (op = .accept4 → op.nargs = 4) := by
  cases op <;> decide

theorem SameArray.ofArray {a : Address host} (h : SameArray abi op m m' a)
    (huntag : ∀ a : Address host, untagPointer host a = a) :
    SockArgs.ofArray abi op m' a = SockArgs.ofArray abi op m a := by
  obtain ⟨hthree, hfour⟩ := nargs_cases op
  unfold SockArgs.ofArray
  rw [h.sysargWord huntag (n := 1) (by decide) (by omega),
    h.sysargWord huntag (n := 2) (by decide) (by omega),
    h.sysargWord huntag (n := 3) (by decide) (by omega)]
  by_cases hop : op = .accept4
  · have hlast := hfour hop
    rw [h.sysargWord huntag (n := 4) (by decide) (by omega)]
  · simp only [if_neg hop]

end

section

variable {W S : Type} {host : Host} {abi : Abi} {op : SockOp}

/-! ## Calls that give an address -/

theorem run_names {K : SocketKernel S} {s : S} {m : Space host} {args : SockArgs host}
    (hop : op.names) :
    K.run s op m args =
      ((K.named s op args.fd (moveAddrToKernel m args.address (args.third.setWidth 32))).1, m,
        (K.named s op args.fd (moveAddrToKernel m args.address (args.third.setWidth 32))).2) := by
  rcases hop with rfl | rfl
  · rfl
  · rfl

theorem directExit_names {sys : Sys W} {entered : EnteredCall host} {m : Space host}
    {result : Except Errno Nat} (hop : op.names) :
    directExit abi sys op entered m result = (m, result) := by
  rcases hop with rfl | rfl
  · rfl
  · rfl

theorem socketcallExit_names {sys : Sys W} {entered : EnteredCall host} {m m₁ m₂ : Space host}
    {result : Except Errno Nat} (hop : op.names)
    (hfirst : pokeSysarg abi m (sysarg abi entered.original.arg2) 2
      (peek host abi entered.current.arg5).toNat = some m₁)
    (hsecond : pokeSysarg abi m₁ (sysarg abi entered.original.arg2) 3
      (peek host abi entered.current.arg6).toNat = some m₂) :
    socketcallExit abi sys op entered m result = (m₂, result) := by
  unfold socketcallExit
  rcases hop with rfl | rfl
  · dsimp only
    rw [hfirst]
    dsimp only
    rw [hsecond]
  · dsimp only
    rw [hfirst]
    dsimp only
    rw [hsecond]

variable {k : Kernel W} {fuel : Nat} {createTempName : Option CStr} {mktemp : CStr → CStr}
  {fds : List Int} {pid : UInt32} {sys : Sys W} {args : SockArgs host}
  {direct indirect : EnteredCall host}

/-- Both ways translate the same address. -/
theorem SameCall.socketcallEnter_names (h : SameCall abi op args direct indirect) (hop : op.names)
    {sockAddr third : Nat}
    (harray : ArrayAt abi indirect.memory (arrayAddr abi indirect) sockAddr third)
    (haddress : args.address = BitVec.ofNat _ sockAddr)
    (hthird : args.third = BitVec.ofNat _ third) :
    socketcallEnter k fuel createTempName mktemp abi sys op indirect =
      (translateSocketcallEnter k fuel createTempName mktemp abi sys indirect args.address
        (args.third.setWidth 32)).map fun (sys, entered, result) =>
          (sys,
            socketcallTranslated abi (arrayAddr abi indirect) sockAddr third entered result) := by
  have hspace : 32 ≤ 8 * host.word := by cases host <;> decide
  have hsize : args.third.setWidth 32 = BitVec.ofNat 32 third := by
    rw [hthird, BitVec.setWidth_ofNat_of_le hspace]
  have hsecond : sysargWord abi indirect.memory (sysarg abi indirect.current.arg2) 2 =
    some sockAddr := harray.second
  have hlast : sysargWord abi indirect.memory (sysarg abi indirect.current.arg2) 3 =
    some third := harray.third
  rw [hsize, haddress]
  unfold socketcallEnter
  rcases hop with rfl | rfl
  · simp only [hsecond, hlast]
    rfl
  · simp only [hsecond, hlast]
    rfl

theorem SameCall.directEnter_names (h : SameCall abi op args direct indirect) (hop : op.names)
    (hfake : op = .bind → isFakeNetlinkFd fds args.fd.toInt = false) :
    directEnter k fuel createTempName mktemp abi fds pid sys op direct =
      (translateSocketcallEnter k fuel createTempName mktemp abi sys indirect args.address
        (args.third.setWidth 32)).map fun (sys, entered, result) =>
          (sys, directTranslated abi (direct.like entered) result) := by
  have hspace : 32 ≤ 8 * host.word := by cases host <;> decide
  have hlike : direct = direct.like indirect := by
    unfold EnteredCall.like
    rw [h.memory, h.stack]
  have hstack : direct.original.stackPointer = indirect.original.stackPointer := by
    rw [h.entersDirect, h.entersIndirect, h.stack]
  have htranslate := @translateSocketcallEnter_like W host abi direct indirect k fuel createTempName
    mktemp sys args.address (args.third.setWidth 32) hstack
  rw [← hlike] at htranslate
  have hfd : ((peek host abi direct.current.arg1).setWidth 32) = args.fd := by
    rw [← h.regs]
    rfl
  have haddress : (sysarg abi direct.current.arg2 : Address host) = args.address := by
    rw [← h.regs]
    rfl
  have hsize : (peek host abi direct.current.arg3).setWidth 32 = args.third.setWidth 32 := by
    rw [← h.regs]
    exact (BitVec.setWidth_setWidth_of_le _ hspace).symm
  unfold directEnter
  rcases hop with rfl | rfl
  · dsimp only
    rw [hfd, hfake rfl, if_neg (by decide), haddress, hsize, htranslate, Option.map_map]
    rfl
  · dsimp only
    rw [if_neg fun h => absurd h.1 (by decide), haddress, hsize, htranslate, Option.map_map]
    rfl

/-- A kernel that fails each call. -/
def refusingKernel (status : Errno) : SocketKernel Unit where
  named s _ _ _ := (s, .error status)
  answer _ _ _ _ := .error status
  answered s _ _ _ := s

/-- **An address that is not translated:** the array is overwritten with two registers. -/
theorem SameCall.untranslated_iff (h : SameCall abi op args direct indirect) (hop : op.names)
    (hfake : op = .bind → isFakeNetlinkFd fds args.fd.toInt = false)
    (huntranslated : Untranslated indirect.memory args.address (args.third.setWidth 32)) :
    EqualsDirect k fuel createTempName mktemp abi fds pid sys op direct indirect ↔
      sysarg abi indirect.current.arg5 = args.address ∧
        sysarg abi indirect.current.arg6 = args.third := by
  obtain ⟨sockAddr, third, harray, haddress, hthird⟩ := h.arrayAt
  obtain ⟨hfirst, hsecond, hload⟩ := harray.words
  rw [haddress, hthird, sysarg_eq_ofNat_iff harray.word hfirst,
    sysarg_eq_ofNat_iff harray.word hsecond]
  have htranslate := @translateSocketcallEnter_untranslated W host abi indirect k fuel
    createTempName mktemp sys args.address (args.third.setWidth 32) huntranslated
  have hlike : direct.like indirect = direct := by
    unfold EnteredCall.like
    rw [h.memory, h.stack]
  have hdirect : ∀ {S : Type} (K : SocketKernel S) (s : S),
      directCall k fuel createTempName mktemp abi fds pid sys K s op direct =
        some ((K.run s op indirect.memory args).1, sys, indirect.memory,
          (K.run s op indirect.memory args).2.2) := by
    intro S K s
    unfold directCall
    rw [h.directEnter_names hop hfake, htranslate]
    dsimp only [Option.map_some, directTranslated]
    rw [hlike, h.regs, ← h.memory, run_names hop]
    dsimp only
    rw [directExit_names hop]
  obtain ⟨m₁, m₂, hpoke, hpoke', hstore⟩ := harray.poke
    (peek host abi indirect.current.arg5).toNat (peek host abi indirect.current.arg6).toNat
  have hindirect : ∀ {S : Type} (K : SocketKernel S) (s : S),
      socketcallCall k fuel createTempName mktemp abi sys K s op indirect =
        some ((K.run s op indirect.memory args).1, sys, m₂,
          (K.run s op indirect.memory args).2.2) := by
    intro S K s
    unfold socketcallCall
    rw [h.socketcallEnter_names hop harray haddress hthird, htranslate]
    dsimp only [Option.map_some, socketcallTranslated]
    rw [show SockArgs.ofArray abi op indirect.memory (sysarg abi indirect.current.arg2) = some args
      from h.array]
    dsimp only
    rw [run_names hop]
    dsimp only
    rw [socketcallExit_names hop (by rwa [h.entersIndirect]) (by rwa [h.entersIndirect])]
  unfold EqualsDirect
  simp only [hdirect, hindirect]
  have hlength : ∀ x y : Nat, (wordBytes 4 x ++ wordBytes 4 y).length = 4 + 4 := by
    intro x y
    rw [List.length_append, wordBytes_length, wordBytes_length]
  have hspace : 4 + 4 ≤ 2 ^ (8 * host.word) := by
    cases host <;> decide
  constructor
  · intro hequal
    have hsame := (hequal Unit (refusingKernel .EINVAL) ()).1
    simp only [Option.some.injEq, Prod.mk.injEq, true_and, and_true] at hsame
    have hwritten := AddressSpace.load_store hstore (by rwa [hlength])
    rw [hlength, hsame, hload] at hwritten
    obtain ⟨hfive, hsix⟩ := List.append_inj (Option.some.inj hwritten)
      (by rw [wordBytes_length, wordBytes_length])
    have hword : ∀ {word : Nat} {value : BitVec 64}, word < 2 ^ 32 →
        wordBytes 4 word = wordBytes 4 (peek host abi value).toNat →
        (peek host abi value).toNat = word := by
      intro word value hlt hbytes
      have hlittle := congrArg littleEndian hbytes
      rw [littleEndian_wordBytes, littleEndian_wordBytes] at hlittle
      rw [peek, if_pos harray.word, and_low] at hlittle ⊢
      omega
    exact ⟨hword hfirst hfive, hword hsecond hsix⟩
  · rintro ⟨hfive, hsix⟩ S K s
    rw [hfive, hsix, AddressSpace.store_self (by rwa [hlength])] at hstore
    obtain rfl := Option.some.inj hstore
    refine ⟨rfl, fun s' sys' m result hsome => ?_⟩
    rw [← (Prod.mk.inj (Prod.mk.inj (Prod.mk.inj (Option.some.inj hsome)).2).2).1]

theorem ofRegs_translated {regs : SyscallRegs} {a : Address host} (hop : op.names)
    (hword : sizeofWord host abi = 4) (ha : (sysarg abi (a.setWidth 64) : Address host) = a) :
    (SockArgs.ofRegs abi op { regs with
      arg2 := pokeReg host abi regs.arg2 (a.setWidth 64)
      arg3 := pokeReg host abi regs.arg3 (BitVec.ofNat 64 sizeofSockaddrUn) } : SockArgs host) =
      ⟨(peek host abi regs.arg1).setWidth 32, a, BitVec.ofNat _ sizeofSockaddrUn, 0⟩ := by
  have hother : op ≠ .accept4 := by
    rcases hop with rfl | rfl
    · decide
    · decide
  have hsecond : (sysarg abi (pokeReg host abi regs.arg2 (a.setWidth 64)) : Address host) = a := by
    unfold sysarg
    rw [peek_poked]
    exact ha
  have hthird : (sysarg abi (pokeReg host abi regs.arg3 (BitVec.ofNat 64 sizeofSockaddrUn)) :
      Address host) = BitVec.ofNat _ sizeofSockaddrUn := by
    rw [sysarg_eq_ofNat_iff hword (by decide), peek_poked, peek_small (by decide)]
    rfl
  unfold SockArgs.ofRegs
  rw [hsecond, hthird, if_neg hother]

theorem moveAddrToKernel_poked {m m' : Space host} {a b : Address host} {bytes : Bytes}
    {size : BitVec 32} (hstore : m.store b bytes = some m')
    (hapart : RangesApart b bytes.length (untagPointer host a) size.toNat) :
    moveAddrToKernel m' a size = moveAddrToKernel m a size := by
  unfold moveAddrToKernel
  rw [hapart.load (Nat.le_refl _) hstore]

/-- **An address that is translated:** both ways do the same. -/
theorem SameCall.translated (h : SameCall abi op args direct indirect) (hop : op.names)
    (hfake : op = .bind → isFakeNetlinkFd fds args.fd.toInt = false)
    (htranslated : ¬ Untranslated indirect.memory args.address (args.third.setWidth 32)) :
    EqualsDirect k fuel createTempName mktemp abi fds pid sys op direct indirect := by
  obtain ⟨sockAddr, third, harray, haddress, hthird⟩ := h.arrayAt
  obtain ⟨hfirst, hsecond, -⟩ := harray.words
  have hspace : 32 ≤ 8 * host.word := by cases host <;> decide
  intro S K s
  unfold socketcallCall directCall
  rw [h.directEnter_names hop hfake, h.socketcallEnter_names hop harray haddress hthird]
  cases hrun : translateSocketcallEnter k fuel createTempName mktemp abi sys indirect args.address
      (args.third.setWidth 32) with
  | none =>
      dsimp only [Option.map_none]
      exact ⟨rfl, fun _ _ _ _ hm => absurd hm (Option.some_ne_none _).symm⟩
  | some translation =>
      obtain ⟨sys', e', result⟩ := translation
      obtain ⟨⟨horiginal, ⟨sp, hcurrent⟩, hframe⟩, hsome, hput⟩ :=
        translateSocketcallEnter_spec h.entersIndirect htranslated hrun
      have hsame : SameArray abi op indirect.memory e'.memory (arrayAddr abi indirect) := by
        intro i hi
        refine hframe _ fun j hj => ?_
        rw [harray.untagged]
        exact h.scratch hop i hi j hj
      obtain status | _ | a := result
      · refine ⟨rfl, fun _ _ m _ hm => ?_⟩
        obtain rfl := (Prod.mk.inj (Prod.mk.inj (Prod.mk.inj (Option.some.inj hm)).2).2).1
        exact hsame.load
      · exact absurd rfl hsome
      · obtain ⟨rfl, hpeeked⟩ := hput a rfl
        have hscratch : (scratchAddr abi indirect).toNat < 2 ^ 32 := by
          rw [← hpeeked]
          exact sysarg_lt harray.word _
        have hafter : ArrayAt abi e'.memory (arrayAddr abi indirect) sockAddr third :=
          ⟨harray.word, harray.untagged,
            (hsame.sysargWord harray.untagged (by decide) (by cases op <;> decide)).trans
              harray.second,
            (hsame.sysargWord harray.untagged (by decide) (by cases op <;> decide)).trans
              harray.third⟩
        obtain ⟨m₁, m₂, hpoke, hpoke', hstore⟩ :=
          hafter.poke (scratchAddr abi indirect).toNat sizeofSockaddrUn
        obtain ⟨m₃, hback, hback'⟩ := hafter.back hstore
        have hargs := hafter.poked hop ((hsame.ofArray harray.untagged).trans h.array) hscratch
          (by decide) hstore
        have hmove := @moveAddrToKernel_poked host e'.memory m₂ (scratchAddr abi indirect) _ _
          (BitVec.ofNat 32 sizeofSockaddrUn) hstore (by
            intro i hi j hj
            rw [harray.untagged, plus_plus]
            have hthree := (nargs_cases op).1
            refine h.scratch hop _ ?_ j hj
            unfold arraySize
            rw [harray.word]
            rw [List.length_append, wordBytes_length, wordBytes_length] at hi
            omega)
        have hsaved : ∀ (old : BitVec 64) {word : Nat}, word < 2 ^ 32 →
            (peek host abi (pokeReg host abi old (BitVec.ofNat 64 word))).toNat = word := by
          intro old word hword
          have hnat : (BitVec.ofNat 64 word).toNat = word := by
            rw [BitVec.toNat_ofNat]
            exact Nat.mod_eq_of_lt (by omega)
          rw [peek_poked, peek_small (by rwa [hnat]), hnat]
        have hfd : (peek host abi (direct.like e').current.arg1).setWidth 32 = args.fd := by
          rw [← h.regs]
          rfl
        dsimp only [Option.map_some, socketcallTranslated, directTranslated]
        rw [hpoke]
        dsimp only
        rw [hpoke']
        dsimp only
        rw [hcurrent]
        dsimp only
        rw [show SockArgs.ofArray abi op m₂ (sysarg abi indirect.current.arg2) = _ from hargs]
        dsimp only
        rw [run_names hop, run_names hop]
        dsimp only
        rw [directExit_names hop, @socketcallExit_names W host abi op sys' _ m₂ m₃ e'.memory _ hop]
        · refine ⟨?_, fun _ _ m _ hm => ?_⟩
          · rw [ofRegs_translated hop harray.word hpeeked]
            dsimp only
            rw [BitVec.ofNat_toNat, BitVec.setWidth_eq, BitVec.setWidth_ofNat_of_le hspace, hmove,
              hfd]
            rfl
          · obtain rfl := (Prod.mk.inj (Prod.mk.inj (Prod.mk.inj (Option.some.inj hm)).2).2).1
            exact hsame.load
        · dsimp only
          rw [horiginal, h.entersIndirect, hsaved _ hfirst]
          exact hback
        · dsimp only
          rw [horiginal, h.entersIndirect, hsaved _ hsecond]
          exact hback'

/-! ## Calls that ask for an address -/

/-- The error where the size of the buffer cannot be read. -/
def SockOp.unsized (op : SockOp) : Errno :=
  if op = .accept ∨ op = .accept4 then .EINVAL else .EFAULT

theorem run_asks {K : SocketKernel S} {s : S} {m : Space host} (hop : ¬ op.names) :
    K.run s op m args =
      (K.answered s op args.fd (K.ask s op m args).2, K.ask s op m args) := by
  cases op with
  | bind => exact absurd (Or.inl rfl) hop
  | connect => exact absurd (Or.inr rfl) hop
  | accept => rfl
  | accept4 => rfl
  | getsockname => rfl
  | getpeername => rfl

/-- What is written is in the buffer, or its size. -/
theorem ask_frame {K : SocketKernel S} {s : S} {m : Space host} {a : Address host}
    (huntag : ∀ a : Address host, untagPointer host a = a)
    (hbuffer : RangesApart a (arraySize host abi op) args.address (bufferSize m args.third))
    (hsize : RangesApart a (arraySize host abi op) args.third 4) :
    SameArray abi op m (K.ask s op m args).1 a := by
  intro i hi
  unfold SocketKernel.ask
  split
  · rfl
  · split
    · rfl
    · rename_i result name _ _
      have hframe : (moveAddrToUser m name args.address args.third).1 (a.plus i) = m (a.plus i) :=
        moveAddrToUser_frame (fun j hj => by rw [huntag]; exact hbuffer i hi j hj)
          (fun j hj => by rw [huntag]; exact hsize i hi j hj)
      generalize moveAddrToUser m name args.address args.third = moved at hframe ⊢
      obtain ⟨m₁, failed | done⟩ := moved
      · exact hframe
      · exact hframe

/-- An address is answered only where the size of the buffer is one. -/
theorem ask_sized {K : SocketKernel S} {s : S} {m m' : Space host} {value : Nat}
    (hskip : ¬ Skips op args.address) (h : K.ask s op m args = (m', .ok value)) :
    ∃ bytes, m.load (untagPointer host args.third) 4 = some bytes ∧
      bufferSize m args.third = littleEndian bytes := by
  unfold SocketKernel.ask at h
  split at h
  · cases h
  rw [if_neg hskip] at h
  unfold moveAddrToUser at h
  unfold bufferSize
  cases hload : m.load (untagPointer host args.third) 4 with
  | none =>
      rw [hload] at h
      cases h
  | some bytes =>
      rw [hload] at h
      dsimp only at h
      have hlt : littleEndian bytes < 2 ^ 32 :=
        (littleEndian_lt bytes).trans_eq (by rw [AddressSpace.load_length hload]; rfl)
      by_cases hnegative : (BitVec.ofNat 32 (littleEndian bytes)).toInt < 0
      · rw [if_pos hnegative] at h
        cases h
      · refine ⟨bytes, rfl, if_pos ?_⟩
        have hnat : (BitVec.ofNat 32 (littleEndian bytes)).toNat = littleEndian bytes := by
          rw [BitVec.toNat_ofNat, Nat.mod_eq_of_lt hlt]
        rw [BitVec.toInt_eq_toNat_bmod, hnat] at hnegative
        by_contra hlarge
        exact hnegative (by rw [Int.bmod_def]; omega)

theorem directExit_asks {entered : EnteredCall host} {m : Space host} {value : Nat}
    (hop : ¬ op.names) (haddress : sysarg abi entered.original.arg2 = args.address)
    (hthird : sysarg abi entered.current.arg3 = args.third) :
    directExit abi sys op entered m (.ok value) =
      if Skips op args.address then (m, .ok value)
      else exitStatus value (translateSocketcallExit sys m args.address args.third
        (peek host abi entered.current.arg6).toNat) := by
  rw [← haddress, ← hthird]
  unfold directExit
  cases op with
  | bind => exact absurd (Or.inl rfl) hop
  | connect => exact absurd (Or.inr rfl) hop
  | accept => rfl
  | accept4 => rfl
  | getsockname => rfl
  | getpeername => rfl

theorem socketcallExit_asks {entered : EnteredCall host} {m : Space host} {value : Nat}
    {sockAddr third : Nat} (hop : ¬ op.names)
    (harray : ArrayAt abi m (sysarg abi entered.original.arg2) sockAddr third)
    (haddress : args.address = BitVec.ofNat _ sockAddr)
    (hthird : args.third = BitVec.ofNat _ third) :
    socketcallExit abi sys op entered m (.ok value) =
      if Skips op args.address then (m, .ok value)
      else exitStatus value (translateSocketcallExit sys m args.address args.third
        (peek host abi entered.current.arg6).toNat) := by
  unfold socketcallExit
  cases op with
  | bind => exact absurd (Or.inl rfl) hop
  | connect => exact absurd (Or.inr rfl) hop
  | accept | accept4 | getsockname | getpeername =>
      simp only [harray.second, harray.third, haddress, hthird]

theorem SameCall.directEnter_asks (h : SameCall abi op args direct indirect) (hop : ¬ op.names)
    (hfake : op = .getsockname ∨ op = .getpeername →
      isFakeNetlinkFd fds args.fd.toInt = false) :
    directEnter k fuel createTempName mktemp abi fds pid sys op direct =
      some (sys, if Skips op args.address then (direct, .made)
        else enterSize abi direct args.third op.unsized) := by
  have hfd : ((peek host abi direct.current.arg1).setWidth 32) = args.fd := by
    rw [← h.regs]
    rfl
  have haddress : (sysarg abi direct.current.arg2 : Address host) = args.address := by
    rw [← h.regs]
    rfl
  have hthird : (sysarg abi direct.current.arg3 : Address host) = args.third := by
    rw [← h.regs]
    rfl
  have hskip : ∀ {op : SockOp}, op ≠ .accept → op ≠ .accept4 → ¬ Skips op args.address :=
    fun hfirst hlast hskip => hskip.1.elim hfirst hlast
  unfold directEnter
  rw [h.entersDirect, hfd, haddress, hthird]
  cases op with
  | bind => exact absurd (Or.inl rfl) hop
  | connect => exact absurd (Or.inr rfl) hop
  | accept | accept4 =>
      dsimp only
      split_ifs
      · rfl
      · rfl
  | getsockname =>
      rw [if_neg (hskip (by decide) (by decide)), hfake (Or.inl rfl)]
      rfl
  | getpeername =>
      rw [if_neg (hskip (by decide) (by decide)), hfake (Or.inr rfl)]
      rfl

theorem SameCall.socketcallEnter_asks (h : SameCall abi op args direct indirect)
    (hop : ¬ op.names) {sockAddr third : Nat}
    (harray : ArrayAt abi indirect.memory (arrayAddr abi indirect) sockAddr third)
    (haddress : args.address = BitVec.ofNat _ sockAddr)
    (hthird : args.third = BitVec.ofNat _ third) :
    socketcallEnter k fuel createTempName mktemp abi sys op indirect =
      some (sys, if Skips op args.address then (indirect, .made)
        else enterSize abi indirect args.third op.unsized) := by
  have hsecond : sysargWord abi indirect.memory (sysarg abi indirect.current.arg2) 2 =
    some sockAddr := harray.second
  have hlast : sysargWord abi indirect.memory (sysarg abi indirect.current.arg2) 3 =
    some third := harray.third
  have hskip : ∀ {op : SockOp}, op ≠ .accept → op ≠ .accept4 →
      ¬ Skips op (BitVec.ofNat _ sockAddr : Address host) :=
    fun hfirst hlast hskip => hskip.1.elim hfirst hlast
  rw [haddress, hthird]
  unfold socketcallEnter
  cases op with
  | bind => exact absurd (Or.inl rfl) hop
  | connect => exact absurd (Or.inr rfl) hop
  | accept | accept4 =>
      simp only [hsecond, hlast]
      split_ifs
      · rfl
      · rfl
  | getsockname | getpeername =>
      rw [if_neg (hskip (by decide) (by decide))]
      simp only [hlast]
      rfl

/-- The size of the buffer survives in the sixth argument. -/
theorem peek_size {bytes : Bytes} (hword : sizeofWord host abi = 4) (hlength : bytes.length = 4) :
    (peek host abi ((BitVec.ofNat 32 (littleEndian bytes)).signExtend 64)).toNat =
      littleEndian bytes := by
  have hlt : littleEndian bytes < 2 ^ 32 :=
    (littleEndian_lt bytes).trans_eq (by rw [hlength]; rfl)
  have hlow : ∀ x : BitVec 32, (x.signExtend 64).setWidth 32 = x := by
    intro x
    ext i hi
    rw [BitVec.getElem_setWidth, BitVec.getLsbD_signExtend]
    simp [hi, show i < 64 by omega]
  rw [peek, if_pos hword, and_low, ← BitVec.toNat_setWidth, hlow, BitVec.toNat_ofNat,
    Nat.mod_eq_of_lt hlt]

/-- The calls after their enter stages: the kernel and the exit stages do the same. -/
theorem SameCall.asks_made (h : SameCall abi op args direct indirect) (hop : ¬ op.names)
    {sixth sixth' : BitVec 64}
    (hsixth : ¬ Skips op args.address → peek host abi sixth' = peek host abi sixth ∧
      ∀ bytes, indirect.memory.load (untagPointer host args.third) 4 = some bytes →
        (peek host abi sixth).toNat = littleEndian bytes)
    (K : SocketKernel S) (s : S) :
    let direct' := { direct with current := { direct.current with arg6 := sixth } }
    let indirect' := { indirect with current := { indirect.current with arg6 := sixth' } }
    let asked := K.ask s op indirect.memory args
    socketcallExit abi sys op indirect' asked.1 asked.2 =
        directExit abi sys op direct' asked.1 asked.2 ∧
      SameArray abi op indirect.memory (socketcallExit abi sys op indirect' asked.1 asked.2).1
        (arrayAddr abi indirect) := by
  intro direct' indirect' asked
  obtain ⟨sockAddr, third, harray, haddress, hthird⟩ := h.arrayAt
  have hbuffer := h.buffer hop
  rw [← h.memory] at hbuffer
  have hasked : SameArray abi op indirect.memory asked.1 (arrayAddr abi indirect) :=
    ask_frame harray.untagged hbuffer (h.size hop)
  cases hresult : asked.2 with
  | error status =>
      have hexit : socketcallExit abi sys op indirect' asked.1 (.error status) =
          (asked.1, .error status) := by
        cases op with
        | bind => exact absurd (Or.inl rfl) hop
        | connect => exact absurd (Or.inr rfl) hop
        | accept | accept4 | getsockname | getpeername => rfl
      have hdirect : directExit abi sys op direct' asked.1 (.error status) =
          (asked.1, .error status) := by
        cases op <;> rfl
      rw [hexit, hdirect]
      exact ⟨rfl, hasked⟩
  | ok value =>
      have hafter : ArrayAt abi asked.1 (arrayAddr abi indirect) sockAddr third :=
        ⟨harray.word, harray.untagged,
          (hasked.sysargWord harray.untagged (by decide) (by cases op <;> decide)).trans
            harray.second,
          (hasked.sysargWord harray.untagged (by decide) (by cases op <;> decide)).trans
            harray.third⟩
      have hdirect := @directExit_asks W host abi op sys args direct' asked.1 value hop
        (by rw [← h.regs, ← h.entersDirect]; rfl) (by rw [← h.regs]; rfl)
      have hindirect := @socketcallExit_asks W host abi op sys args indirect' asked.1 value
        sockAddr third hop (by
          change ArrayAt abi asked.1 (sysarg abi indirect.original.arg2) sockAddr third
          rw [h.entersIndirect]
          exact hafter) haddress hthird
      rw [hdirect, hindirect]
      by_cases hskip : Skips op args.address
      · rw [if_pos hskip, if_pos hskip]
        exact ⟨rfl, hasked⟩
      · rw [if_neg hskip, if_neg hskip]
        obtain ⟨hpeek, hmax⟩ := hsixth hskip
        obtain ⟨bytes, hload, hsize⟩ := @ask_sized S host op args K s indirect.memory asked.1 value
          hskip (Prod.ext rfl hresult)
        have hlimit : (peek host abi sixth).toNat = bufferSize indirect.memory args.third := by
          rw [hsize, hmax bytes hload]
        refine ⟨by rw [show peek host abi indirect'.current.arg6 = _ from hpeek], ?_⟩
        intro i hi
        rw [← hasked i hi, show peek host abi indirect'.current.arg6 = _ from hpeek, hlimit]
        have hframe := @translateSocketcallExit_frame W host asked.1 sys args.address args.third
          ((arrayAddr abi indirect).plus i) (bufferSize indirect.memory args.third)
          (fun j hj => by rw [harray.untagged]; exact hbuffer i hi j hj)
          (fun j hj => by rw [harray.untagged]; exact h.size hop i hi j hj)
        generalize translateSocketcallExit sys asked.1 args.address args.third
          (bufferSize indirect.memory args.third) = exit at hframe ⊢
        obtain ⟨m₁, failed | done⟩ := exit
        · exact hframe
        · exact hframe

/-- **An address that is asked for:** both ways do the same. -/
theorem SameCall.asks (h : SameCall abi op args direct indirect) (hop : ¬ op.names)
    (hfake : op = .getsockname ∨ op = .getpeername →
      isFakeNetlinkFd fds args.fd.toInt = false) :
    EqualsDirect k fuel createTempName mktemp abi fds pid sys op direct indirect := by
  obtain ⟨sockAddr, third, harray, haddress, hthird⟩ := h.arrayAt
  intro S K s
  have harrayArgs : SockArgs.ofArray abi op indirect.memory
    (sysarg abi indirect.current.arg2) = some args := h.array
  have hregs : ∀ sixth, SockArgs.ofRegs abi op { direct.current with arg6 := sixth } = args :=
    fun _ => h.regs
  -- What remains once the call is made.
  have hmade : ∀ sixth sixth' : BitVec 64, (¬ Skips op args.address →
      peek host abi sixth' = peek host abi sixth ∧
        ∀ bytes, indirect.memory.load (untagPointer host args.third) 4 = some bytes →
          (peek host abi sixth).toNat = littleEndian bytes) →
      socketcallEnter k fuel createTempName mktemp abi sys op indirect = some (sys,
        { indirect with current := { indirect.current with arg6 := sixth' } }, .made) →
      directEnter k fuel createTempName mktemp abi fds pid sys op direct = some (sys,
        { direct with current := { direct.current with arg6 := sixth } }, .made) →
      let outcome := socketcallCall k fuel createTempName mktemp abi sys K s op indirect
      outcome = directCall k fuel createTempName mktemp abi fds pid sys K s op direct ∧
        ∀ s sys m result, outcome = some (s, sys, m, result) →
          m.load (arrayAddr abi indirect) (arraySize host abi op) =
            indirect.memory.load (arrayAddr abi indirect) (arraySize host abi op) := by
    intro sixth sixth' hsixth hindirect hdirect
    obtain ⟨hexit, hsame⟩ := @SameCall.asks_made W S host abi op sys args direct indirect h hop
      sixth sixth' hsixth K s
    unfold socketcallCall directCall
    rw [hindirect, hdirect]
    dsimp only [Option.map_some]
    rw [harrayArgs, hregs, ← h.memory]
    dsimp only
    rw [run_asks hop]
    dsimp only
    rw [hexit] at hsame ⊢
    refine ⟨rfl, fun _ _ m _ hm => ?_⟩
    obtain rfl := (Prod.mk.inj (Prod.mk.inj (Prod.mk.inj (Option.some.inj hm)).2).2).1
    exact hsame.load
  have hindirect := @SameCall.socketcallEnter_asks W host abi op k fuel createTempName mktemp sys
    args direct indirect h hop sockAddr third harray haddress hthird
  have hdirect := @SameCall.directEnter_asks W host abi op k fuel createTempName mktemp fds pid sys
    args direct indirect h hop hfake
  by_cases hskip : Skips op args.address
  · rw [if_pos hskip] at hindirect hdirect
    exact hmade direct.current.arg6 indirect.current.arg6 (fun h => absurd hskip h) hindirect
      hdirect
  · rw [if_neg hskip] at hindirect hdirect
    unfold enterSize at hindirect hdirect
    have hmemory : peekWordAt (sizeofWord host abi) direct.memory (untagPointer host args.third) =
        peekWordAt (sizeofWord host abi) indirect.memory (untagPointer host args.third) := by
      rw [h.memory]
    rw [hmemory] at hdirect
    cases hword : peekWordAt (sizeofWord host abi) indirect.memory
        (untagPointer host args.third) with
    | none =>
        rw [hword] at hindirect hdirect
        unfold socketcallCall directCall
        rw [hindirect, hdirect]
        dsimp only [Option.map_some]
        rw [← h.memory]
        refine ⟨rfl, fun _ _ m _ hm => ?_⟩
        obtain rfl := (Prod.mk.inj (Prod.mk.inj (Prod.mk.inj (Option.some.inj hm)).2).2).1
        rfl
    | some word =>
        rw [hword] at hindirect hdirect
        refine hmade _ _
          (fun _ => ⟨(peek_poked ..).trans (peek_poked ..).symm, fun bytes hload => ?_⟩)
          hindirect hdirect
        unfold peekWordAt at hword
        rw [harray.word, hload] at hword
        obtain rfl := Option.some.inj hword
        rw [peek_poked, peek_size harray.word (AddressSpace.load_length hload)]

/-- **The name of a substituted socket:** `socketcall` asks the kernel for it. -/
theorem SameCall.fake_iff (h : SameCall abi op args direct indirect)
    (hop : op = .getsockname ∨ op = .getpeername)
    (hfake : isFakeNetlinkFd fds args.fd.toInt = true) :
    EqualsDirect k fuel createTempName mktemp abi fds pid sys op direct indirect ↔
      args.third ≠ 0 ∧ indirect.memory.load (untagPointer host args.third) 4 = none := by
  obtain ⟨sockAddr, third, harray, haddress, hthird⟩ := h.arrayAt
  have hnames : ¬ op.names := by
    rcases hop with rfl | rfl
    · rintro (h | h) <;> cases h
    · rintro (h | h) <;> cases h
  have hskip : ¬ Skips op args.address := by
    rcases hop with rfl | rfl
    · rintro ⟨h | h, -⟩ <;> cases h
    · rintro ⟨h | h, -⟩ <;> cases h
  have hunsized : op.unsized = .EFAULT := by
    rcases hop with rfl | rfl
    · rfl
    · rfl
  have herror : ∀ (entered : EnteredCall host) (m : Space host) (status : Errno),
      directExit abi sys op entered m (.error status) = (m, .error status) ∧
        socketcallExit abi sys op entered m (.error status) = (m, .error status) := by
    rcases hop with rfl | rfl
    · exact fun _ _ _ => ⟨rfl, rfl⟩
    · exact fun _ _ _ => ⟨rfl, rfl⟩
  have hindirect := @SameCall.socketcallEnter_asks W host abi op k fuel createTempName mktemp sys
    args direct indirect h hnames sockAddr third harray haddress hthird
  rw [if_neg hskip, enterSize, hunsized, peekWordAt, harray.word] at hindirect
  have hdirect : ∃ exit, ∀ {S : Type} (K : SocketKernel S) (s : S),
      directCall k fuel createTempName mktemp abi fds pid sys K s op direct =
        some (s, sys, exit) ∧
      (args.third = 0 → exit.2 = .error .EINVAL) ∧
      (args.third ≠ 0 → indirect.memory.load (untagPointer host args.third) 4 = none →
        exit = (indirect.memory, .error .EFAULT)) := by
    have hfd : ((peek host abi direct.current.arg1).setWidth 32) = args.fd := by
      rw [← h.regs]
      rfl
    have hlast : (sysarg abi direct.current.arg3 : Address host) = args.third := by
      rw [← h.regs]
      rfl
    let stored := storeFakeNetlinkSockname pid direct.memory (sysarg abi direct.current.arg2)
      (args.third)
    refine ⟨directExit abi sys op { direct with memory := stored.1 } stored.1 stored.2,
      fun K s => ⟨?_, fun hnull => ?_, fun hthird hload => ?_⟩⟩
    · unfold directCall directEnter
      rw [hfd, hfake, hlast]
      rcases hop with rfl | rfl
      · rfl
      · rfl
    · have hstored : stored = (direct.memory, .error .EINVAL) := if_pos hnull
      rw [hstored, (herror _ _ _).1]
    · have hstored : stored = (direct.memory, .error .EFAULT) := by
        have hpeek : peekUint32 direct.memory (untagPointer host args.third) = none := by
          unfold peekUint32
          rw [← h.memory, hload]
          rfl
        simp only [stored, storeFakeNetlinkSockname, if_neg hthird, hpeek]
      rw [hstored, (herror _ _ _).1, h.memory]
  obtain ⟨exit, hdirect⟩ := hdirect
  cases hload : indirect.memory.load (untagPointer host args.third) 4 with
  | none =>
      rw [hload] at hindirect
      have houtcome : ∀ {S : Type} (K : SocketKernel S) (s : S),
          socketcallCall k fuel createTempName mktemp abi sys K s op indirect =
            some (s, sys, indirect.memory, .error .EFAULT) := by
        intro S K s
        unfold socketcallCall
        rw [hindirect]
        rfl
      refine ⟨fun hequal => ⟨fun hnull => ?_, rfl⟩, fun hsize S K s => ?_⟩
      · have hsame := (hequal Unit (refusingKernel .EPERM) ()).1
        obtain ⟨hrun, hinvalid, -⟩ := hdirect (refusingKernel .EPERM) ()
        rw [houtcome, hrun] at hsame
        have hresult := congrArg (fun outcome => outcome.2.2.2) (Option.some.inj hsame)
        rw [show exit.2 = _ from hinvalid hnull] at hresult
        cases hresult
      · obtain ⟨hrun, -, hfails⟩ := hdirect K s
        rw [houtcome, hrun, hfails hsize.1 hload]
        refine ⟨rfl, fun _ _ m _ hm => ?_⟩
        obtain rfl := (Prod.mk.inj (Prod.mk.inj (Prod.mk.inj (Option.some.inj hm)).2).2).1
        rfl
  | some bytes =>
      rw [hload] at hindirect
      refine ⟨fun hequal => ?_, fun hsize => by cases hsize.2⟩
      have hrefused : ∀ status, exit.2 = .error status := by
        intro status
        have hsame := (hequal Unit (refusingKernel status) ()).1
        rw [(hdirect (refusingKernel status) ()).1] at hsame
        unfold socketcallCall at hsame
        rw [hindirect] at hsame
        dsimp only [Option.map_some] at hsame
        rw [show SockArgs.ofArray abi op indirect.memory (sysarg abi indirect.current.arg2) =
          some args from h.array] at hsame
        dsimp only at hsame
        rw [run_asks hnames] at hsame
        dsimp only [SocketKernel.ask, refusingKernel] at hsame
        rw [(herror _ _ _).2] at hsame
        exact (congrArg (fun outcome => outcome.2.2.2) (Option.some.inj hsame)).symm
      have hfirst := hrefused .EPERM
      rw [hrefused .EINVAL] at hfirst
      cases hfirst

theorem socketcallTranslated_stage {a : Address host} {sockAddr size : Nat}
    {entered : EnteredCall host} {result : Except Errno (Option (Address host))}
    (value : Except Errno Nat) :
    (socketcallTranslated abi a sockAddr size entered result).2 ≠ .voided value := by
  unfold socketcallTranslated
  split
  · nofun
  · nofun
  · dsimp only
    split
    · nofun
    · split
      · nofun
      · nofun

theorem socketcallExit_refused {entered : EnteredCall host} {m : Space host} {status : Errno} :
    (socketcallExit abi sys .bind entered m (.error status)).2 = .error status := by
  unfold socketcallExit
  dsimp only
  split
  · rfl
  · split
    · rfl
    · rfl

/-- **A substituted socket that is bound:** `socketcall` has the kernel bind it. -/
theorem SameCall.fake_bind (h : SameCall abi .bind args direct indirect)
    (hfake : isFakeNetlinkFd fds args.fd.toInt = true) :
    ¬ EqualsDirect k fuel createTempName mktemp abi fds pid sys .bind direct indirect := by
  obtain ⟨sockAddr, third, harray, haddress, hthird⟩ := h.arrayAt
  have hfd : ((peek host abi direct.current.arg1).setWidth 32) = args.fd := by
    rw [← h.regs]
    rfl
  intro hequal
  have hsame := (hequal Unit (refusingKernel .EPERM) ()).1
  have hdirect : directCall k fuel createTempName mktemp abi fds pid sys (refusingKernel .EPERM) ()
      .bind direct = some ((), sys, direct.memory, .ok 0) := by
    unfold directCall directEnter
    dsimp only
    rw [hfd, hfake, if_pos ⟨rfl, rfl⟩]
    rfl
  rw [hdirect] at hsame
  unfold socketcallCall at hsame
  obtain ⟨⟨sys', entered, stage⟩, hentered, hsame⟩ := Option.map_eq_some_iff.mp hsame
  rw [h.socketcallEnter_names (Or.inl rfl) harray haddress hthird] at hentered
  obtain ⟨⟨sys', translated, result⟩, -, hentered⟩ := Option.map_eq_some_iff.mp hentered
  cases stage with
  | voided value => exact socketcallTranslated_stage value (congrArg (·.2.2) hentered)
  | failed status =>
      have hresult := congrArg (fun outcome => outcome.2.2.2) hsame
      cases hresult
  | made =>
      dsimp only at hsame
      split at hsame
      · have hresult := congrArg (fun outcome => outcome.2.2.2) hsame
        rw [socketcallExit_refused] at hresult
        cases hresult
      · have hresult := congrArg (fun outcome => outcome.2.2.2) hsame
        dsimp only [SocketKernel.run, refusingKernel] at hresult
        rw [socketcallExit_refused] at hresult
        cases hresult

/-- **A call through `socketcall` equals the direct one**, if and only if no descriptor is that of a
substituted socket, and an address that is not translated is in the registers that are put back. -/
theorem equals_direct_iff (k : Kernel W) (fuel : Nat) (createTempName : Option CStr)
    (mktemp : CStr → CStr) (fds : List Int) (pid : UInt32) (sys : Sys W)
    (h : SameCall abi op args direct indirect) :
    EqualsDirect k fuel createTempName mktemp abi fds pid sys op direct indirect ↔
      SocketcallFits abi fds op args indirect := by
  by_cases hop : op.names
  · have hask : ¬ (op = .getsockname ∨ op = .getpeername) := by
      rcases hop with rfl | rfl
      · decide
      · decide
    by_cases hfake : op = .bind ∧ isFakeNetlinkFd fds args.fd.toInt = true
    · obtain ⟨rfl, hfake⟩ := hfake
      refine ⟨fun hequal => absurd hequal (h.fake_bind hfake), fun hfits => ?_⟩
      rw [hfits.bind rfl] at hfake
      cases hfake
    · have hbind : op = .bind → isFakeNetlinkFd fds args.fd.toInt = false :=
        fun hbind => Bool.eq_false_iff.mpr fun hfd => hfake ⟨hbind, hfd⟩
      by_cases huntranslated :
          Untranslated indirect.memory args.address (args.third.setWidth 32)
      · rw [h.untranslated_iff hop hbind huntranslated]
        exact ⟨fun hsaved => ⟨hbind, fun hask' => absurd hask' hask, fun _ _ => hsaved⟩,
          fun hfits => hfits.saved hop huntranslated⟩
      · exact ⟨fun _ => ⟨hbind, fun hask' => absurd hask' hask,
          fun _ h => absurd h huntranslated⟩, fun _ => h.translated hop hbind huntranslated⟩
  · have hbind : op = .bind → isFakeNetlinkFd fds args.fd.toInt = false :=
      fun hbind => absurd (Or.inl hbind) hop
    by_cases hfake : (op = .getsockname ∨ op = .getpeername) ∧
        isFakeNetlinkFd fds args.fd.toInt = true
    · rw [h.fake_iff hfake.1 hfake.2]
      exact ⟨fun hsize => ⟨hbind, fun _ _ => hsize, fun h => absurd h hop⟩,
        fun hfits => hfits.ask hfake.1 hfake.2⟩
    · have hask : op = .getsockname ∨ op = .getpeername →
          isFakeNetlinkFd fds args.fd.toInt = false :=
        fun hask => Bool.eq_false_iff.mpr fun hfd => hfake ⟨hask, hfd⟩
      refine ⟨fun _ => ⟨hbind, fun hask' hfd => ?_, fun h => absurd h hop⟩,
        fun _ => h.asks hop hask⟩
      rw [hask hask'] at hfd
      cases hfd

end

/-- `connect (3, 0x1000, 16)` of an internet address, with its arguments at 0x2000 as well. -/
def inetMemory : Space .ARCH_X86_64 := fun a =>
  some (([3, 0, 0, 0, 0, 0x10, 0, 0, 16, 0, 0, 0] : Bytes).getD (a - 0x2000).toNat
    (if a = 0x1000 then 2 else 0))

def directConnect : EnteredCall .ARCH_X86_64 where
  original := ⟨362, 3, 0x1000, 16, 0, 0, 0, 0x8000, 0⟩
  current := ⟨362, 3, 0x1000, 16, 0, 0, 0, 0x8000, 0⟩
  memory := inetMemory

def indirectConnect (fifth sixth : BitVec 64) : EnteredCall .ARCH_X86_64 where
  original := ⟨102, 3, 0x2000, 0, 0, fifth, sixth, 0x8000, 0⟩
  current := ⟨102, 3, 0x2000, 0, 0, fifth, sixth, 0x8000, 0⟩
  memory := inetMemory

theorem sameConnect (fifth sixth : BitVec 64) :
    SameCall .ABI_2 .connect ⟨3, 0x1000, 16, 0⟩ directConnect (indirectConnect fifth sixth) where
  socketcall := ⟨102, by decide, _, rfl, 102, by decide, rfl⟩
  entersDirect := rfl
  entersIndirect := rfl
  memory := rfl
  stack := rfl
  regs := by decide
  array := by
    change SockArgs.ofArray .ABI_2 .connect inetMemory (sysarg .ABI_2 0x2000) = _
    decide
  scratch _ := by
    have harray : arrayAddr .ABI_2 (indirectConnect fifth sixth) =
        (0x2000 : Address .ARCH_X86_64) := by
      change (sysarg .ABI_2 0x2000 : Address .ARCH_X86_64) = _
      decide
    have hscratch : scratchAddr .ABI_2 (indirectConnect fifth sixth) =
        (0x7F12 : Address .ARCH_X86_64) := by
      change (sysarg .ABI_2 0x8000 - 238 : Address .ARCH_X86_64) = _
      decide
    rw [harray, hscratch]
    intro i hi j hj heq
    have hsize : i < 12 ∧ j < 110 := ⟨hi, hj⟩
    have hnat := congrArg BitVec.toNat heq
    rw [BitVec.toNat_add, BitVec.toNat_add, BitVec.toNat_ofNat, BitVec.toNat_ofNat] at hnat
    change (8192 + _ % 2 ^ 64) % 2 ^ 64 = (32530 + _ % 2 ^ 64) % 2 ^ 64 at hnat
    omega
  buffer h := absurd (Or.inr rfl) h
  size h := absurd (Or.inr rfl) h

/-- Where these registers are the address and its size, by chance. -/
theorem equals_direct_iff_connect :
    EqualsDirect (.frozen [] []) 10 none id .ABI_2 [] 1 (rootedSys slash) .connect directConnect
      (indirectConnect 0x1000 16) := by
  have hfits : SocketcallFits .ABI_2 [] .connect ⟨3, 0x1000, 16, 0⟩ (indirectConnect 0x1000 16) :=
    { bind := nofun
      ask := fun hask => absurd hask (by decide)
      saved := fun _ _ => by decide }
  exact (equals_direct_iff (.frozen [] []) 10 none id [] 1 (rootedSys slash)
    (sameConnect 0x1000 16)).mpr hfits

/-- **Not so where they are zero:** the array is cleared. -/
theorem socketcall_clears_array :
    SameCall .ABI_2 .connect ⟨3, 0x1000, 16, 0⟩ directConnect (indirectConnect 0 0) ∧
      Untranslated inetMemory (0x1000 : Address .ARCH_X86_64) 16 ∧
      ¬ EqualsDirect (.frozen [] []) 10 none id .ABI_2 [] 1 (rootedSys slash) .connect
        directConnect (indirectConnect 0 0) := by
  have huntranslated : Untranslated inetMemory (0x1000 : Address .ARCH_X86_64) 16 :=
    Or.inr (by decide)
  refine ⟨sameConnect 0 0, huntranslated, fun hequal => ?_⟩
  have hsaved := ((sameConnect 0 0).untranslated_iff (Or.inr rfl) nofun huntranslated).mp hequal
  exact absurd hsaved.1 (by decide)

end PRoot
