import PRoot.MemoryPaths
import PRoot.WordBytes

/-!
# Switched ports

`port_switch` gives the sockets of a tracee ports that need no privilege
(`extension/port_switch/port_switch.c`).

* `modPort`, `portSwitchEnterEnd`: what it does when a system call is entered;
* `Passes`: the calls that pass an address;
* `port_switched_iff`: which of them get another port, and that nothing else is changed.
-/

namespace PRoot

section

variable {host : Host}

/-- `PORT_THRESHOLD`. -/
def portThreshold : Nat := 1024

/-- `PORT_ADDITION`. -/
def portAddition : Nat := 2000

/-! ## Socket addresses -/

/-- `ss_family`. -/
def ssFamily (sockaddr : Bytes) : Nat := littleEndian (sockaddr.take 2)

/-- `ntohs(sin_port)`, which is `ntohs(sin6_port)`. -/
def sinPort (sockaddr : Bytes) : Nat :=
  (sockaddr.getD 2 0).toNat * 256 + (sockaddr.getD 3 0).toNat

/-- `htons`. -/
def htons (port : Nat) : Bytes := [BitVec.ofNat 8 (port / 256), BitVec.ofNat 8 port]

def setSinPort (sockaddr : Bytes) (port : Nat) : Bytes :=
  sockaddr.take 2 ++ htons port ++ sockaddr.drop (2 + 2)

/-- `is_localhost`: `inet_ntop` makes `127.0.0.1` or `::1` of these bytes only. -/
def isLocalhost (sockaddr : Bytes) : Bool :=
  match ssFamily sockaddr with
  | 2 => (sockaddr.drop 4).take 4 = [127, 0, 0, 1]
  | 10 => (sockaddr.drop 8).take 16 = List.replicate 15 0 ++ [1]
  | _ => false

/-! ## The extension -/

/-- A buffer on the stack of PRoot after a `read_data` that is not checked. -/
def readOver (processVm : Bool) (garbage : Nat → BitVec 8) (m : Space host) (a : Address host)
    (size : Nat) : Bytes :=
  let bytes := (MemoryAccess.readData processVm m a size).1
  bytes ++ ((List.range size).map garbage).drop bytes.length

/-- `a[i]`. -/
def argAt (host : Host) (args : Bytes) (i : Nat) : Address host :=
  BitVec.ofNat _ (littleEndian ((args.drop (i * host.word)).take host.word))

/-- A tracee that enters a system call. -/
structure EnteredCall (host : Host) where
  original : SyscallRegs
  current : SyscallRegs
  memory : Space host

variable (abi : Abi) (processVm : Bool)

/-- `peek_reg`, as an address. -/
def sysarg (value : BitVec 64) : Address host := (peek host abi value).setWidth _

/-- `write_data`, without a look at its status. -/
def EnteredCall.write (entered : EnteredCall host) (a : Address host) (bytes : Bytes) :
    EnteredCall host :=
  { entered with memory := (MemoryAccess.writeData processVm entered.memory a bytes).1 }

/-- `mod_port`, without the messages.  It is the size of a pointer that is written. -/
def modPort (isSocketcall isUdp : Bool) (sockaddr args : Bytes) (entered : EnteredCall host) :
    EnteredCall host :=
  let switched := setSinPort sockaddr (sinPort sockaddr + portAddition)
  match ssFamily sockaddr with
  | 2 =>
      if 0 < sinPort sockaddr ∧ sinPort sockaddr < portThreshold then
        if isSocketcall && isUdp then
          (entered.write processVm (argAt host args 4) (switched.take host.word)).write processVm
            (sysarg abi entered.current.arg2) (args.take host.word)
        else if !isSocketcall && isUdp then
          entered.write processVm (sysarg abi entered.current.arg5) (switched.take host.word)
        else if isSocketcall && !isUdp then
          (entered.write processVm (argAt host args 1) (switched.take host.word)).write processVm
            (sysarg abi entered.current.arg2) (args.take host.word)
        else
          entered.write processVm (sysarg abi entered.current.arg2) (switched.take host.word)
      else entered
  | 10 =>
      if 0 < sinPort sockaddr ∧ sinPort sockaddr < portThreshold then
        if isSocketcall && isUdp then
          (entered.write processVm (argAt host args 4) (switched.take host.word)).write processVm
            (sysarg abi entered.current.arg2) (args.take host.word)
        -- The source asks for the same once more here.
        else if isSocketcall && isUdp then
          entered.write processVm (sysarg abi entered.current.arg5) (switched.take host.word)
        else if isSocketcall && !isUdp then
          (entered.write processVm (argAt host args 1) (switched.take host.word)).write processVm
            (sysarg abi entered.current.arg2) (args.take host.word)
        else if !isSocketcall && !isUdp then
          entered.write processVm (sysarg abi entered.current.arg2) (switched.take host.word)
        else entered
      else entered
  | _ => entered

variable (garbage : Nat → BitVec 8)

/-- `SYSCALL_ENTER_END` in `port_switch_callback`. -/
def portSwitchEnterEnd (entered : EnteredCall host) : EnteredCall host :=
  let storage := fun a : Address host => readOver processVm garbage entered.memory a 128
  match getSysnum host abi entered.original with
  | .PR_bind =>
      modPort abi processVm false false (storage (sysarg abi entered.original.arg2)) [] entered
  | .PR_connect =>
      let sockaddr := storage (sysarg abi entered.original.arg2)
      if isLocalhost sockaddr then modPort abi processVm false false sockaddr [] entered
      else entered
  | .PR_sendto =>
      if (sysarg abi entered.original.arg5 : Address host) ≠ 0 then
        let sockaddr := storage (sysarg abi entered.original.arg5)
        if isLocalhost sockaddr then modPort abi processVm false true sockaddr [] entered
        else entered
      else entered
  | .PR_socketcall =>
      let args := readOver processVm garbage entered.memory (sysarg abi entered.original.arg2)
        (6 * host.word)
      match ((peek host abi entered.original.arg1).setWidth 32).toInt with
      | 2 =>
          modPort abi processVm true false (storage (argAt host args 1)) args entered
      | 3 =>
          let sockaddr := storage (argAt host args 1)
          if isLocalhost sockaddr then modPort abi processVm true false sockaddr args entered
          else entered
      | 11 =>
          if argAt host args 4 ≠ 0 then
            let sockaddr := storage (argAt host args 4)
            if isLocalhost sockaddr then modPort abi processVm true true sockaddr args entered
            else entered
          else entered
      | _ => entered
  | _ => entered

/-! ## The calls that pass an address -/

/-- The calls whose ports are switched. -/
inductive PortCall
  | bind | connect | sendto
  deriving DecidableEq, Repr

namespace PortCall

def sysnum : PortCall → Sysnum
  | .bind => .PR_bind
  | .connect => .PR_connect
  | .sendto => .PR_sendto

/-- The number that `socketcall` has for it. -/
def number : PortCall → Int
  | .bind => 2
  | .connect => 3
  | .sendto => 11

/-- Which argument the address is. -/
def position : PortCall → Nat
  | .bind | .connect => 1
  | .sendto => 4

def argument (call : PortCall) (regs : SyscallRegs) : BitVec 64 :=
  match call with
  | .bind | .connect => regs.arg2
  | .sendto => regs.arg5

end PortCall

variable {abi processVm garbage}

/-- A call passes an address in a register, which is still the one it entered with. -/
structure PassesDirectly (abi : Abi) (call : PortCall) (entered : EnteredCall host)
    (a : Address host) : Prop where
  sysnum : getSysnum host abi entered.original = call.sysnum
  original : sysarg abi (call.argument entered.original) = a
  current : sysarg abi (call.argument entered.current) = a

/-- It passes an address in the arguments of `socketcall`, words of the size of PRoot's own.  The
port is no part of the first of these. -/
structure PassesBySocketcall (abi : Abi) (call : PortCall) (entered : EnteredCall host)
    (a : Address host) : Prop where
  sysnum : getSysnum host abi entered.original = .PR_socketcall
  word : sizeofWord host abi = host.word
  number : ((peek host abi entered.original.arg1).setWidth 32).toInt = call.number
  current : (sysarg abi entered.current.arg2 : Address host) = sysarg abi entered.original.arg2
  args : ∃ args, entered.memory.load (untagPointer host (sysarg abi entered.original.arg2))
      ((call.position + 1) * host.word) = some args ∧ argAt host args call.position = a
  apart : ∀ i < host.word, 2 ≤ ((untagPointer host (sysarg abi entered.original.arg2)).plus i -
    (untagPointer host a).plus 2).toNat

/-- The calls of a tracee that pass an address. -/
def Passes (abi : Abi) (bySocketcall : Bool) (call : PortCall) (entered : EnteredCall host)
    (a : Address host) : Prop :=
  if bySocketcall then PassesBySocketcall abi call entered a else PassesDirectly abi call entered a

/-- A socket address in the memory of a tracee. -/
structure SockaddrAt (m : Space host) (a : Address host) (sockaddr : Bytes) : Prop where
  address_ne : a ≠ 0
  bytes : m.load (untagPointer host a) sockaddr.length = some sockaddr
  length : 2 ≤ sockaddr.length
  inet : ssFamily sockaddr = 2 → 16 ≤ sockaddr.length
  inet6 : ssFamily sockaddr = 10 → 24 ≤ sockaddr.length

/-- The calls whose port is switched: "the port is only modified if the calls are attempting to
reach localhost", or to bind. -/
def SwitchesPort (call : PortCall) (sockaddr : Bytes) : Prop :=
  (ssFamily sockaddr = 2 ∨ ssFamily sockaddr = 10) ∧ 0 < sinPort sockaddr ∧
    sinPort sockaddr < 1024 ∧ (call = .bind ∨ isLocalhost sockaddr)

instance (call : PortCall) (sockaddr : Bytes) : Decidable (SwitchesPort call sockaddr) :=
  inferInstanceAs (Decidable (_ ∧ _))

/-! ## What is read and written -/

variable {m m' : Space host} {a : Address host} {bytes sockaddr args : Bytes} {i size : Nat}

/-- The words at the start are read, whatever is behind them. -/
theorem peekWords_start {k : Nat} (h : m.load a (i * host.word) = some bytes) (hik : i ≤ k) :
    ∃ rest, (peekWords m a k).1 = bytes ++ rest := by
  induction i generalizing a bytes k with
  | zero =>
      rw [Nat.zero_mul] at h
      obtain rfl := Option.some.inj h
      exact ⟨_, rfl⟩
  | succ i ih =>
      obtain ⟨k, rfl⟩ := Nat.exists_eq_add_one_of_ne_zero (Nat.ne_zero_of_lt hik)
      have hle : host.word ≤ (i + 1) * host.word := by rw [Nat.succ_mul]; omega
      have hword := AddressSpace.load_take h hle
      have hdrop := AddressSpace.load_drop h hle
      rw [Nat.succ_mul i, Nat.add_sub_cancel] at hdrop
      obtain ⟨rest, hrest⟩ := ih hdrop (Nat.le_of_succ_le_succ hik)
      refine ⟨rest, ?_⟩
      simp only [peekWords, peekData, hword, hrest]
      rw [← List.append_assoc, List.take_append_drop]

theorem peekBytes_start (h : m.load a (i * host.word) = some bytes) (hsize : i * host.word ≤ size) :
    ∃ rest, (peekBytes m a size).1 = bytes ++ rest := by
  have hi : i ≤ size / host.word := (Nat.le_div_iff_mul_le (word_pos host)).mpr hsize
  obtain ⟨rest, hrest⟩ := peekWords_start h hi
  unfold peekBytes
  simp only [fullWords]
  split
  · exact ⟨rest, hrest⟩
  · split
    · exact ⟨rest, hrest⟩
    · split
      · exact ⟨rest, hrest⟩
      · rename_i word hword
        refine ⟨rest ++ word.take (size % host.word), ?_⟩
        rw [← List.append_assoc, ← hrest]

/-- **A buffer starts with what is mapped.** -/
theorem readOver_take (h : m.load (untagPointer host a) (i * host.word) = some bytes)
    (hsize : i * host.word ≤ size) :
    (readOver processVm garbage m a size).take (i * host.word) = bytes := by
  have hlength := AddressSpace.load_length h
  have hread : ∃ rest, (MemoryAccess.readData processVm m a size).1 = bytes ++ rest := by
    unfold MemoryAccess.readData
    dsimp only
    split
    case h_1 all hall =>
      have hload : m.load (untagPointer host a) size = some all := by
        split at hall
        · unfold processVmReadv at hall
          split at hall
          · exact hall
          · cases hall
        · cases hall
      have htake := AddressSpace.load_take hload hsize
      rw [h] at htake
      refine ⟨all.drop (i * host.word), ?_⟩
      rw [Option.some.inj htake, List.take_append_drop]
    case h_2 => exact peekBytes_start h hsize
  obtain ⟨rest, hrest⟩ := hread
  unfold readOver
  dsimp only
  rw [hrest, List.append_assoc, List.take_left' hlength]

theorem readOver_length :
    size ≤ (readOver processVm garbage m a size).length := by
  unfold readOver
  dsimp only
  rw [List.length_append, List.length_drop, List.length_map, List.length_range]
  omega

/-- A word is written where there is one, -/
theorem writeData_word (hlength : bytes.length = host.word)
    (h : (m.load (untagPointer host a) host.word).isSome) :
    m.store (untagPointer host a) bytes =
      some (MemoryAccess.writeData processVm m a bytes).1 := by
  obtain ⟨m', hstore⟩ := Option.isSome_iff_exists.mp
    (show (m.store (untagPointer host a) bytes).isSome by
      rwa [AddressSpace.store_isSome_iff, hlength])
  have hlimit := limit_lt host
  have hword := host_word_le host
  have hpoke := pokeBytes_eq (show bytes.length ≤ 2 ^ (8 * host.word) by omega) hstore
    (by
      rw [hlength, Nat.mod_self]
      exact fun hne => absurd rfl hne)
  have hvm : processVmWritev m (untagPointer host a) bytes = some m' := by
    unfold processVmWritev
    rw [if_pos (by omega), hstore]
  rw [hstore]
  unfold MemoryAccess.writeData
  cases processVm with
  | false => simp [hpoke]
  | true => simp [hvm]

/-- and nowhere else. -/
theorem writeData_unmapped (hlength : bytes.length = host.word)
    (h : m.load (untagPointer host a) host.word = none) :
    (MemoryAccess.writeData processVm m a bytes).1 = m := by
  have hstore : m.store (untagPointer host a) bytes = none := by
    rw [← Option.not_isSome_iff_eq_none, AddressSpace.store_isSome_iff, hlength, h]
    exact Bool.false_ne_true
  have hvm : processVmWritev m (untagPointer host a) bytes = none := by
    unfold processVmWritev
    rw [hstore]
    exact ite_self none
  have hpoke : (pokeBytes m (untagPointer host a) bytes).1 = m := by
    unfold pokeBytes
    have hone : host.word / host.word = 1 := Nat.div_self (word_pos host)
    simp only [fullWords, hlength, hone, pokeWords, pokeData,
      List.take_of_length_le (Nat.le_of_eq hlength), hstore, Bool.not_false, if_true]
  unfold MemoryAccess.writeData
  cases processVm <;> simp [hvm, hpoke]

/-- A word that is written over itself. -/
theorem writeData_again (hbytes : m.load (untagPointer host a) host.word = some bytes) :
    (MemoryAccess.writeData processVm m a bytes).1 = m := by
  have hlength := AddressSpace.load_length hbytes
  have hstore := @writeData_word host processVm m a bytes hlength (by rw [hbytes]; rfl)
  have hrefill := AddressSpace.store_refill hbytes (show ([] : Bytes).length ≤ host.word from
    Nat.zero_le _)
  rw [List.nil_append, List.length_nil, List.drop_zero, hstore] at hrefill
  have hnothing : m.store (untagPointer host a) [] = some m := by
    apply AddressSpace.store_eq_some_iff.mpr
    simp
  exact Option.some.inj (hrefill.trans hnothing)

/-- **Only the port is new** in the word that is written. -/
theorem store_switched {port : Nat} (h : m.load a host.word = some (sockaddr.take host.word)) :
    m.store a ((setSinPort sockaddr port).take host.word) = m.store (a.plus 2) (htons port) := by
  have hlength := AddressSpace.load_length h
  have hlimit := limit_lt host
  have hword := host_word_le host
  have hfour : 4 ≤ host.word := by cases host <;> decide
  have hwithin := AddressSpace.store_within h (show 2 + (htons port).length ≤ host.word from hfour)
    (by omega)
  rw [← hwithin]
  congr 1
  rw [List.length_take] at hlength
  have htwo : (htons port).length = 2 := rfl
  have hport : (htons port).take (host.word - 2) = htons port :=
    List.take_of_length_le (by omega)
  unfold setSinPort
  rw [List.append_assoc, List.append_assoc, List.take_append, List.take_append,
    List.take_take, List.take_take, Nat.min_eq_right (show 2 ≤ host.word by omega),
    Nat.min_eq_left (show 2 ≤ host.word by omega), List.length_take,
    Nat.min_eq_left (show 2 ≤ sockaddr.length by omega), hport, List.drop_take, htwo, Nat.sub_sub]

theorem ssFamily_take {k : Nat} (hk : 2 ≤ k) : ssFamily (sockaddr.take k) = ssFamily sockaddr := by
  unfold ssFamily
  rw [List.take_take, Nat.min_eq_left hk]

theorem sinPort_take {k : Nat} (hk : 4 ≤ k) : sinPort (sockaddr.take k) = sinPort sockaddr := by
  unfold sinPort
  rw [List.getD_eq_getElem?_getD, List.getD_eq_getElem?_getD, List.getD_eq_getElem?_getD,
    List.getD_eq_getElem?_getD, List.getElem?_take_of_lt (by omega),
    List.getElem?_take_of_lt (by omega)]

theorem isLocalhost_take {k : Nat} (hk : 2 ≤ k) (hinet : ssFamily sockaddr = 2 → 8 ≤ k)
    (hinet6 : ssFamily sockaddr = 10 → 24 ≤ k) :
    isLocalhost (sockaddr.take k) = isLocalhost sockaddr := by
  unfold isLocalhost
  rw [ssFamily_take hk]
  split
  case h_1 hfamily =>
    rw [List.drop_take, List.take_take, Nat.min_eq_left (by omega)]
  case h_2 hfamily =>
    rw [List.drop_take, List.take_take, Nat.min_eq_left (by omega)]
  case h_3 => rfl

/-- A new port is written to the address, and the first argument of `socketcall` over itself. -/
def EnteredCall.writeSwitched (abi : Abi) (processVm bySocketcall : Bool)
    (entered : EnteredCall host) (a : Address host) (sockaddr args : Bytes) : EnteredCall host :=
  let written := entered.write processVm a
    ((setSinPort sockaddr (sinPort sockaddr + 2000)).take host.word)
  if bySocketcall then
    written.write processVm (sysarg abi entered.current.arg2) (args.take host.word)
  else written

/-- What `mod_port` writes, where the source does not ask for the same twice. -/
theorem modPort_eq {isSocketcall isUdp : Bool} {entered : EnteredCall host}
    (h : 0 < sinPort sockaddr → sinPort sockaddr < 1024 →
      ¬ (isSocketcall = false ∧ isUdp = true ∧ ssFamily sockaddr = 10)) :
    modPort abi processVm isSocketcall isUdp sockaddr args entered =
      if (ssFamily sockaddr = 2 ∨ ssFamily sockaddr = 10) ∧ 0 < sinPort sockaddr ∧
          sinPort sockaddr < 1024 then
        entered.writeSwitched abi processVm isSocketcall
          (if isSocketcall then argAt host args (if isUdp then 4 else 1)
            else sysarg abi (if isUdp then entered.current.arg5 else entered.current.arg2))
          sockaddr args
      else entered := by
  unfold modPort EnteredCall.writeSwitched portThreshold portAddition
  dsimp only
  split
  case h_1 hfamily => cases isSocketcall <;> cases isUdp <;> simp [hfamily]
  case h_2 hfamily =>
    cases isSocketcall with
    | true => cases isUdp <;> simp [hfamily]
    | false =>
        cases isUdp with
        | true =>
            have hport : ¬ (0 < sinPort sockaddr ∧ sinPort sockaddr < 1024) :=
              fun hport => h hport.1 hport.2 ⟨rfl, rfl, hfamily⟩
            rw [if_neg hport, if_neg (fun hall => hport hall.2)]
        | false => simp [hfamily]
  case h_3 hinet hinet6 =>
    rw [if_neg]
    rintro ⟨hfamily | hfamily, -⟩
    · exact hinet hfamily
    · exact hinet6 hfamily

/-- Else nothing is written. -/
theorem modPort_cases {isSocketcall isUdp : Bool} {entered : EnteredCall host} :
    modPort abi processVm isSocketcall isUdp sockaddr args entered = entered ∨
      modPort abi processVm isSocketcall isUdp sockaddr args entered =
        entered.writeSwitched abi processVm isSocketcall
          (if isSocketcall then argAt host args (if isUdp then 4 else 1)
            else sysarg abi (if isUdp then entered.current.arg5 else entered.current.arg2))
          sockaddr args := by
  by_cases h : isSocketcall = false ∧ isUdp = true ∧ ssFamily sockaddr = 10
  · left
    obtain ⟨rfl, rfl, hfamily⟩ := h
    unfold modPort
    simp [hfamily]
  · rw [modPort_eq (fun _ _ => h)]
    split
    · exact .inr rfl
    · exact .inl rfl

/-- The start of the arguments says where the address is. -/
theorem argAt_take {k : Nat} (hi : (i + 1) * host.word ≤ k) :
    argAt host (args.take k) i = argAt host args i := by
  unfold argAt
  rw [Nat.succ_mul] at hi
  rw [List.drop_take, List.take_take, Nat.min_eq_left (by omega)]

/-- **A call that passes an address** is looked at as what it is. -/
theorem portSwitchEnterEnd_passes {bySocketcall : Bool} {call : PortCall}
    {entered : EnteredCall host} (h : Passes abi bySocketcall call entered a) (ha : a ≠ 0) :
    ∃ args : Bytes,
      (bySocketcall = true → entered.memory.load (untagPointer host
        (sysarg abi entered.current.arg2)) host.word = some (args.take host.word)) ∧
      (if bySocketcall then argAt host args (if call = .sendto then 4 else 1)
        else sysarg abi (if call = .sendto then entered.current.arg5
          else entered.current.arg2)) = a ∧
      portSwitchEnterEnd abi processVm garbage entered =
        let sockaddr := readOver processVm garbage entered.memory a 128
        if call = .bind ∨ isLocalhost sockaddr then
          modPort abi processVm bySocketcall (call = .sendto) sockaddr args entered
        else entered := by
  unfold Passes at h
  cases bySocketcall with
  | false =>
      obtain ⟨hsysnum, horiginal, hcurrent⟩ := h
      refine ⟨[], nofun, ?_, ?_⟩
      · cases call <;> exact hcurrent
      · unfold portSwitchEnterEnd
        rw [hsysnum]
        cases call with
        | bind =>
            simp only [PortCall.sysnum, show sysarg abi entered.original.arg2 = a from horiginal]
            rfl
        | connect =>
            simp only [PortCall.sysnum, show sysarg abi entered.original.arg2 = a from horiginal]
            simp
        | sendto =>
            simp only [PortCall.sysnum, show sysarg abi entered.original.arg5 = a from horiginal]
            rw [if_pos ha]
            simp
  | true =>
      obtain ⟨hsysnum, hword, hnumber, hcurrent, ⟨block, hblock, hposition⟩, hapart⟩ := h
      have hle : (call.position + 1) * host.word ≤ 6 * host.word :=
        Nat.mul_le_mul_right _ (by cases call <;> decide)
      have hone : host.word ≤ (call.position + 1) * host.word := by rw [Nat.succ_mul]; omega
      have htake := @readOver_take host processVm garbage _ _ _ _ _ hblock hle
      generalize hargs : readOver processVm garbage entered.memory
        (sysarg abi entered.original.arg2) (6 * host.word) = args at htake
      have harg := @argAt_take host args call.position _ (Nat.le_refl _)
      rw [htake, hposition] at harg
      have hfirst := AddressSpace.load_take hblock hone
      rw [← htake, List.take_take, Nat.min_eq_left hone, ← hcurrent] at hfirst
      refine ⟨args, fun _ => hfirst, ?_, ?_⟩
      · cases call <;> exact harg.symm
      · unfold portSwitchEnterEnd
        rw [hsysnum]
        dsimp only
        rw [hnumber, hargs]
        cases call with
        | bind =>
            simp only [PortCall.number, show argAt host _ 1 = a from harg.symm]
            rfl
        | connect =>
            simp only [PortCall.number, show argAt host _ 1 = a from harg.symm]
            simp
        | sendto =>
            simp only [PortCall.number, show argAt host _ 4 = a from harg.symm]
            rw [if_pos ha]
            simp

/-- The family is read right, if a word is read at all. -/
theorem readOver_family (h : SockaddrAt m a sockaddr)
    (hword : (m.load (untagPointer host a) host.word).isSome) :
    ssFamily (readOver processVm garbage m a 128) = ssFamily sockaddr := by
  obtain ⟨word, hload⟩ := Option.isSome_iff_exists.mp hword
  have htwo : 2 ≤ host.word := by cases host <;> decide
  have hsize : 1 * host.word ≤ 128 := by cases host <;> decide
  have htake := @readOver_take host processVm garbage m a word 1 128
    (by rw [Nat.one_mul]; exact hload) hsize
  rw [Nat.one_mul] at htake
  have hfirst := AddressSpace.load_take hload htwo
  rw [AddressSpace.load_take h.bytes h.length] at hfirst
  rw [← @ssFamily_take _ host.word htwo, htake]
  unfold ssFamily
  rw [Option.some.inj hfirst]

/-- An address of the internet is read right. -/
theorem readOver_inet (h : SockaddrAt m a sockaddr)
    (hfamily : ssFamily sockaddr = 2 ∨ ssFamily sockaddr = 10) :
    ∃ k, 16 ≤ k ∧ (ssFamily sockaddr = 10 → 24 ≤ k) ∧ k ≤ sockaddr.length ∧
      (readOver processVm garbage m a 128).take k = sockaddr.take k := by
  have hk : ∃ i, 16 ≤ i * host.word ∧ (ssFamily sockaddr = 10 → 24 ≤ i * host.word) ∧
      i * host.word ≤ sockaddr.length ∧ i * host.word ≤ 128 := by
    rcases hfamily with hinet | hinet6
    · refine ⟨16 / host.word, ?_⟩
      have hsixteen : 16 / host.word * host.word = 16 := by cases host <;> rfl
      have hlength := h.inet hinet
      omega
    · refine ⟨24 / host.word, ?_⟩
      have htwentyFour : 24 / host.word * host.word = 24 := by cases host <;> rfl
      have hlength := h.inet6 hinet6
      omega
  obtain ⟨i, hsixteen, htwentyFour, hlength, hsize⟩ := hk
  exact ⟨_, hsixteen, htwentyFour, hlength,
    readOver_take (AddressSpace.load_take h.bytes hlength) hsize⟩

section

variable {bySocketcall : Bool} {call : PortCall} {entered : EnteredCall host}

theorem writeSwitched_original :
    (entered.writeSwitched abi processVm bySocketcall a sockaddr args).original =
      entered.original := by
  unfold EnteredCall.writeSwitched
  cases bySocketcall <;> rfl

theorem writeSwitched_current :
    (entered.writeSwitched abi processVm bySocketcall a sockaddr args).current =
      entered.current := by
  unfold EnteredCall.writeSwitched
  cases bySocketcall <;> rfl

theorem setSinPort_word {port : Nat} (h : host.word ≤ sockaddr.length) :
    ((setSinPort sockaddr port).take host.word).length = host.word := by
  rw [List.length_take, Nat.min_eq_left]
  unfold setSinPort htons
  simp only [List.length_append, List.length_take, List.length_drop, List.length_cons,
    List.length_nil]
  omega

/-- **Two bytes are written**, -/
theorem writeSwitched_store
    (hword : entered.memory.load (untagPointer host a) host.word = some (sockaddr.take host.word))
    (hargs : bySocketcall = true → entered.memory.load (untagPointer host
      (sysarg abi entered.current.arg2)) host.word = some (args.take host.word))
    (hapart : bySocketcall = true → ∀ i < host.word,
      2 ≤ ((untagPointer host (sysarg abi entered.current.arg2)).plus i -
        (untagPointer host a).plus 2).toNat) :
    entered.memory.store ((untagPointer host a).plus 2) (htons (sinPort sockaddr + 2000)) =
      some (entered.writeSwitched abi processVm bySocketcall a sockaddr args).memory := by
  have hlength := AddressSpace.load_length hword
  rw [List.length_take] at hlength
  have hwrite := @writeData_word host processVm entered.memory a _
    (@setSinPort_word host sockaddr (sinPort sockaddr + 2000) (by omega)) (by rw [hword]; rfl)
  rw [store_switched hword] at hwrite
  unfold EnteredCall.writeSwitched EnteredCall.write
  cases bySocketcall with
  | false => exact hwrite
  | true =>
      dsimp only
      rw [if_pos rfl]
      dsimp only
      have hagain := @writeData_again host processVm _ (sysarg abi entered.current.arg2)
        (args.take host.word)
        (by
          rw [AddressSpace.load_store_apart hwrite (hapart rfl)]
          exact hargs rfl)
      rw [hwrite, hagain]

/-- or none. -/
theorem writeSwitched_unmapped (hlength : host.word ≤ sockaddr.length)
    (hword : entered.memory.load (untagPointer host a) host.word = none)
    (hargs : bySocketcall = true → entered.memory.load (untagPointer host
      (sysarg abi entered.current.arg2)) host.word = some (args.take host.word)) :
    (entered.writeSwitched abi processVm bySocketcall a sockaddr args).memory =
      entered.memory := by
  have hwrite := @writeData_unmapped host processVm entered.memory a _
    (@setSinPort_word host sockaddr (sinPort sockaddr + 2000) hlength) hword
  unfold EnteredCall.writeSwitched EnteredCall.write
  cases bySocketcall with
  | false => exact hwrite
  | true =>
      dsimp only
      rw [if_pos rfl]
      dsimp only
      rw [hwrite, writeData_again (hargs rfl)]

/-- **Ports are switched** where they are privileged, for each call that passes an address. -/
theorem port_switched_iff (hpass : Passes abi bySocketcall call entered a)
    (haddr : SockaddrAt entered.memory a sockaddr)
    (hwritten : SwitchesPort call sockaddr →
      ¬ (bySocketcall = false ∧ call = .sendto ∧ ssFamily sockaddr = 10)) :
    let switched := portSwitchEnterEnd abi processVm garbage entered
    switched.original = entered.original ∧ switched.current = entered.current ∧
      if SwitchesPort call sockaddr then
        entered.memory.store ((untagPointer host a).plus 2) (htons (sinPort sockaddr + 2000)) =
          some switched.memory
      else switched.memory = entered.memory := by
  obtain ⟨args, hargs, htarget, heq⟩ :=
    @portSwitchEnterEnd_passes host abi processVm garbage a bySocketcall call entered hpass
      haddr.address_ne
  dsimp only at heq ⊢
  generalize hread : readOver processVm garbage entered.memory a 128 = buffer at heq
  have hbuffer : host.word ≤ buffer.length := by
    have hlength := @readOver_length host processVm garbage entered.memory a 128
    have hword := host_word_le host
    rw [hread] at hlength
    omega
  have hnothing : portSwitchEnterEnd abi processVm garbage entered = entered ∨
      portSwitchEnterEnd abi processVm garbage entered =
        entered.writeSwitched abi processVm bySocketcall a buffer args := by
    rw [heq]
    split
    · have hcases := @modPort_cases host abi processVm buffer args bySocketcall
        (decide (call = .sendto)) entered
      simpa only [decide_eq_true_eq, htarget] using hcases
    · exact .inl rfl
  refine ⟨?_, ?_, ?_⟩
  · rcases hnothing with h | h
    · rw [h]
    · rw [h, writeSwitched_original]
  · rcases hnothing with h | h
    · rw [h]
    · rw [h, writeSwitched_current]
  by_cases hinet : ssFamily sockaddr = 2 ∨ ssFamily sockaddr = 10
  · obtain ⟨k, hsixteen, htwentyFour, hk, htake⟩ :=
      @readOver_inet host processVm garbage entered.memory a sockaddr haddr hinet
    rw [hread] at htake
    have hword := host_word_le host
    have hfamily : ssFamily buffer = ssFamily sockaddr := by
      rw [← @ssFamily_take buffer k (by omega), htake, ssFamily_take (by omega)]
    have hport : sinPort buffer = sinPort sockaddr := by
      rw [← @sinPort_take buffer k (by omega), htake, sinPort_take (by omega)]
    have hlocal : isLocalhost buffer = isLocalhost sockaddr := by
      rw [← @isLocalhost_take buffer k (by omega) (by omega) (by omega), htake,
        isLocalhost_take (by omega) (by omega) (by omega)]
    have hfirst : entered.memory.load (untagPointer host a) host.word =
        some (buffer.take host.word) := by
      rw [AddressSpace.load_take haddr.bytes (by omega),
        ← Nat.min_eq_left (show host.word ≤ k by omega), ← List.take_take, ← htake,
        List.take_take]
    have hmod : portSwitchEnterEnd abi processVm garbage entered =
        if SwitchesPort call sockaddr then
          entered.writeSwitched abi processVm bySocketcall a buffer args
        else entered := by
      rw [heq]
      by_cases hcall : call = .bind ∨ isLocalhost buffer
      · rw [if_pos hcall, modPort_eq]
        · simp only [decide_eq_true_eq, htarget]
          unfold SwitchesPort
          rw [hlocal] at hcall
          rw [hfamily, hport]
          simp only [hcall, and_true]
        · rw [hport, hfamily, decide_eq_true_eq]
          rw [hlocal] at hcall
          exact fun hpos hlt => hwritten ⟨hinet, hpos, hlt, hcall⟩
      · rw [if_neg hcall, if_neg]
        rw [hlocal] at hcall
        exact fun h => hcall h.2.2.2
    rw [hmod]
    split
    · rw [← hport]
      apply writeSwitched_store hfirst hargs
      rintro rfl
      have hsocketcall : PassesBySocketcall abi call entered a := hpass
      rw [hsocketcall.current]
      exact hsocketcall.apart
    · rfl
  · rw [if_neg (fun h => hinet h.1)]
    cases hword : entered.memory.load (untagPointer host a) host.word with
    | none =>
        rcases hnothing with h | h
        · rw [h]
        · rw [h, writeSwitched_unmapped hbuffer hword hargs]
    | some word =>
        have hfamily := @readOver_family host processVm garbage entered.memory a sockaddr haddr
          (by rw [hword]; rfl)
        rw [hread] at hfamily
        rw [heq]
        split
        · rw [modPort_eq, hfamily, if_neg (fun h => hinet h.1)]
          intro _ _ hslip
          rw [hfamily] at hslip
          exact hinet (.inr hslip.2.2)
        · rfl

end

end

/-- `8.8.8.8`, port `80`. -/
def somewhere : Bytes := [2, 0, 0, 80, 8, 8, 8, 8] ++ List.replicate 8 0

/-- A call for it. -/
def someCall (num : BitVec 64) : EnteredCall .ARCH_X86_64 :=
  let regs : SyscallRegs := ⟨num, 3, 0x1000, 16, 0, 0, 0, 0, 0⟩
  ⟨regs, regs, fun x => somewhere[(x - 0x1000).toNat]?⟩

theorem someCall_sockaddrAt (num : BitVec 64) :
    SockaddrAt (someCall num).memory 0x1000 somewhere where
  address_ne := by decide
  bytes := by
    change AddressSpace.load (fun x => somewhere[(x - 0x1000).toNat]?) _ _ = _
    decide
  length := by decide
  inet := fun _ => by decide
  inet6 := fun h => absurd h (by decide)

theorem someCall_bind : Passes .ABI_DEFAULT false .bind (someCall 49) 0x1000 where
  sysnum := by decide
  original := by decide
  current := by decide

theorem someCall_connect : Passes .ABI_DEFAULT false .connect (someCall 42) 0x1000 where
  sysnum := by decide
  original := by decide
  current := by decide

theorem port_switched_iff_bind :
    let switched := portSwitchEnterEnd .ABI_DEFAULT true (fun _ => 0) (someCall 49)
    switched.original = (someCall 49).original ∧ switched.current = (someCall 49).current ∧
      if SwitchesPort .bind somewhere then
        (someCall 49).memory.store ((untagPointer .ARCH_X86_64 0x1000).plus 2)
          (htons (sinPort somewhere + 2000)) = some switched.memory
      else switched.memory = (someCall 49).memory :=
  port_switched_iff someCall_bind (someCall_sockaddrAt 49) (fun _ => by decide)

/-- The port of another machine is not switched. -/
theorem port_not_switched :
    ¬ ∀ (call : PortCall) (entered : EnteredCall .ARCH_X86_64) (a : Address .ARCH_X86_64)
      (sockaddr : Bytes), Passes .ABI_DEFAULT false call entered a →
      SockaddrAt entered.memory a sockaddr → ssFamily sockaddr = 2 ∨ ssFamily sockaddr = 10 →
      0 < sinPort sockaddr → sinPort sockaddr < 1024 →
        entered.memory.store ((untagPointer .ARCH_X86_64 a).plus 2)
            (htons (sinPort sockaddr + 2000)) =
          some (portSwitchEnterEnd .ABI_DEFAULT true (fun _ => 0) entered).memory := by
  intro h
  have hswitched := h .connect (someCall 42) 0x1000 somewhere someCall_connect
    (someCall_sockaddrAt 42) (by decide) (by decide) (by decide)
  have hstored : (((someCall 42).memory.store ((untagPointer .ARCH_X86_64 0x1000).plus 2)
      (htons (sinPort somewhere + 2000))).bind fun m => m 0x1003) = some 0x20 := by
    decide
  have hleft : (portSwitchEnterEnd .ABI_DEFAULT true (fun _ => 0) (someCall 42)).memory 0x1003 =
      some 80 := by
    decide
  rw [hswitched, Option.bind_some, hleft] at hstored
  exact absurd hstored (by decide)

end PRoot
