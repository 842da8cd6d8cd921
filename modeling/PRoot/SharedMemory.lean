import PRoot.IpcThreads

/-!
# Shared memory

`extension/sysvipc/sysvipc_shm.c`, apart from the helper process that keeps the segments.  A
`shmat` is a chain of system calls: the thread connects to the helper, receives a descriptor
and maps it.

* `shmat`, `shmatChain`: the chain and its steps;
* `freeMapping`: a mapping goes, and its segment with it where its removal is due;
* `shmget`, `shmdt`, `shmctl`: the other calls.
-/

namespace PRoot

/-- What `memset` leaves of a segment. -/
def Segment.zero : Segment := ⟨false, 0, 0, 0, 0⟩

/-- The get call of `sysvipc_shmget`, for what the helper answers (`fd`) and the process of the
caller. -/
def segmentCall (key shmSize shmflg : BitVec 64) (fd pgid : Int) : GetCall Segment where
  key
  flags := shmflg
  limit := none
  zero := .zero
  make shm :=
    if fd < 0 then { shm with fd }
    else { shm with fd, mode := shmflg &&& 0x1FF, shmSegsz := shmSize, shmCpid := pgid }
  refuse := if fd < 0 then some .ENOSPC else none
  unsuited shm := if shmSize ≠ 0 ∧ shmSize ≠ shm.shmSegsz then some .EINVAL else none

/-- What the stops of a thread depend on: whether its memory can be written to, and what can be
read from it. -/
structure StopAnswers where
  /-- Writing a message to its memory. -/
  written : Except Errno Unit
  now : Int
  /-- Writing the address of the helper, or the header for `recvmsg`. -/
  wroteGuest : Bool
  /-- The descriptor in the control message, if there is one. -/
  received : Option (BitVec 64)
  /-- `sysconf(_SC_PAGESIZE)`. -/
  pageSize : BitVec 64
  /-- The second argument of a system call that PRoot did not plan. -/
  arg2 : BitVec 64

namespace IpcSystem

/-- The segment at some place. -/
def segmentAt (sys : IpcSystem) (index : Nat) : Segment :=
  (sys.shms[index]?).elim .zero fun object => object.content.data

/-- Write a request to the helper. -/
def request (sys : IpcSystem) (r : ShmRequest) : IpcSystem :=
  { sys with requests := sys.requests ++ [r] }

/-- A segment has a mapping (`!LIST_EMPTY(shm->mappings)`). -/
def isMapped (sys : IpcSystem) (index : Nat) : Bool := sys.mappings.any (·.shmIndex = index)

/-- `sysvipc_shmget`; the helper is only asked when a segment is to be created. -/
def shmget (sys : IpcSystem) (pgid : Int) (key shmSize shmflg : BitVec 64) (fd : Int) :
    IpcSystem × Except Errno (BitVec 32) :=
  let call := segmentCall key shmSize shmflg fd pgid
  let requests :=
    match searchKey key sys.shms 0 none with
    | .found _ => []
    | .missing unused =>
        if call.has ipcCreat then
          let (index, shms) := call.slot sys.shms unused
          [.SHMHELPER_ALLOC (ipcObjectId index (Slot.generationAt shms index)) shmSize]
        else []
  let (shms, status) := getObject call sys.shms
  ({ sys with shms, requests := sys.requests ++ requests }, status)

/-- `sysvipc_do_rmid`. -/
def doRmid (sys : IpcSystem) (index : Nat) : IpcSystem :=
  { sys.request (.SHMHELPER_FREE (sys.segmentAt index).fd) with
    shms := Slot.release sys.shms index fun content =>
      { content with data := { content.data with rmidPending := false, fd := -1 } } }

/-- `talloc_free` of a mapping, with `sysvipc_shm_memmap_destructor`. -/
def freeMapping (sys : IpcSystem) (mapping : ShmMapping) : IpcSystem :=
  let sys := { sys with mappings := sys.mappings.erase mapping }
  if (sys.segmentAt mapping.shmIndex).rmidPending && !sys.isMapped mapping.shmIndex then
    sys.doRmid mapping.shmIndex
  else sys

/-- `sysvipc_shm_remove_mappings_from_process`. -/
def removeMappings (sys : IpcSystem) (process : Nat) : IpcSystem :=
  (sys.mappings.filter (·.process = process)).foldl freeMapping sys

/-- `sysvipc_shm_inherit_process`. -/
def inheritProcess (sys : IpcSystem) (parent child : Nat) : IpcSystem :=
  { sys with mappings :=
      ((sys.mappings.filter (·.process = parent)).map fun mapping =>
        { mapping with process := child }) ++ sys.mappings }

/-- "Restart shmat operation with socket." -/
def restartShmat (t : IpcThread) : IpcThread :=
  { (t.wake (.ok 0)).registerChained .socket with chainState := .CSTATE_SHMAT_SOCKET }

/-- The loop of `sysvipc_shm_wake_pending_shmat`, unless an assertion fails. -/
def wakePending : List IpcThread → Option (List IpcThread)
  | [] => some []
  | t :: threads =>
      if t.waitReason = .WR_WAIT_SHMAT_HELPER_BUSY then
        if t.wakeable then some (restartShmat t :: threads) else none
      else (wakePending threads).map (t :: ·)

/-- `sysvipc_shm_wake_pending_shmat`. -/
def wakePendingShmat (sys : IpcSystem) : Option IpcSystem :=
  (wakePending sys.threads).map fun threads => { sys with threads }

/-- `sysvipc_shmat`. -/
def shmat (sys : IpcSystem) (t : IpcThread) (shmid : BitVec 64) :
    IpcSystem × Except Errno (BitVec 32) :=
  match lookupIpcObject sys.shms shmid with
  | .error status => (sys, .error status)
  | .ok index =>
      let sys := { sys with mappings := ⟨t.process, index, 0, 0⟩ :: sys.mappings }
      if sys.threads.any (·.chainState.pastSocket) then
        (sys.modify t.config.pid (·.waitFor .WR_WAIT_SHMAT_HELPER_BUSY index), .ok 0)
      else
        (sys.modify t.config.pid fun t =>
            { t.waitFor t.waitReason index with
              next := some .socket, chainState := .CSTATE_SHMAT_SOCKET }, .ok 0)

/-- `sysvipc_shm_find_pending_mapping`. -/
def findPendingMapping (sys : IpcSystem) (process index : Nat) : Option ShmMapping :=
  sys.mappings.find? fun mapping =>
    mapping.process = process && mapping.size = 0 && mapping.shmIndex = index

/-- Give the pending mapping of a thread its place. -/
def placeMapping (sys : IpcSystem) (mapping : ShmMapping) (addr size : BitVec 64) : IpcSystem :=
  { sys with mappings :=
      sys.mappings.replace mapping { mapping with addr, size } }

/-- The end of a `shmat` that fails, unless an assertion fails. -/
def failShmat (sys : IpcSystem) (t : IpcThread) : Option IpcSystem := do
  let mapping ← sys.findPendingMapping t.process t.config.waitingObjectIndex
  let sys := sys.modify t.config.pid fun t => { t with chainState := .CSTATE_NOT_CHAINED }
  (sys.freeMapping mapping).wakePendingShmat

/-- `fail_close_socket`. -/
def failCloseSocket (sys : IpcSystem) (t : IpcThread) : Option IpcSystem :=
  failShmat (sys.modify t.config.pid fun t =>
    { t.registerChained (.close t.shmatSocketFd) with
      finalResult := some (statusWord (.error .ENOMEM)) }) t

/-- A result is an error, as an `int`. -/
def isError (result : BitVec 64) : Bool := (result.setWidth 32).toInt < 0

/-- The size of the memory that is mapped for a segment. -/
def mapSize (segment : Segment) (pageSize : BitVec 64) : BitVec 64 :=
  (segment.shmSegsz + (pageSize - 1)) &&& ~~~(pageSize - 1)

/-- `sysvipc_shmat_chain`, after a system call with some result: whether the `shmat` goes on or
has closed its chain (1), or has none (`-ENOMEM`).  There is nothing where an assertion
fails. -/
def shmatChain (sys : IpcSystem) (t : IpcThread) (result : BitVec 64) (answers : StopAnswers) :
    Option (IpcSystem × Bool) :=
  let index := t.config.waitingObjectIndex
  let pid := t.config.pid
  if ¬ Slot.live sys.shms index then none
  else
    match t.chainState with
    | .CSTATE_SHMAT_SOCKET =>
        if isError result || !answers.wroteGuest then
          (failShmat (sys.modify pid fun t => { t with shmatSocketFd := result }) t).map (·, false)
        else
          some (sys.modify pid fun t =>
            { t.registerChained (.connect result) with
              shmatSocketFd := result, chainState := .CSTATE_SHMAT_CONNECT }, true)
    | .CSTATE_SHMAT_CONNECT =>
        if result.setWidth 32 ≠ 0#32 || !answers.wroteGuest then
          (failCloseSocket sys t).map (·, true)
        else
          some ((sys.request (.SHMHELPER_DISTRIBUTE (sys.segmentAt index).fd)).modify pid fun t =>
            { t.registerChained (.recvmsg t.shmatSocketFd) with
              chainState := .CSTATE_SHMAT_RECVMSG }, true)
    | .CSTATE_SHMAT_RECVMSG =>
        match answers.received with
        | none => (failCloseSocket sys t).map (·, true)
        | some fd =>
            if fd.toNat > 0xFFFF then (failCloseSocket sys t).map (·, true)
            else
              some (sys.modify pid fun t =>
                { t.registerChained
                    (.mmap (mapSize (sys.segmentAt index) answers.pageSize) fd) with
                  shmatMemFd := fd, chainState := .CSTATE_SHMAT_MMAP }, true)
    | .CSTATE_SHMAT_MMAP => do
        let mapping ← sys.findPendingMapping t.process index
        let size :=
          match t.next with
          | some (.mmap size _) => size
          | _ => answers.arg2
        let sys := (sys.placeMapping mapping result size).modify pid fun t =>
          { (t.registerChained (.close t.shmatMemFd)).registerChained (.close t.shmatSocketFd) with
            finalResult := some result, chainState := .CSTATE_NOT_CHAINED }
        let sys ← sys.wakePendingShmat
        some (sys, true)
    | _ => none

/-- `sysvipc_shmdt`. -/
def shmdt (sys : IpcSystem) (t : IpcThread) (addr : BitVec 64) :
    IpcSystem × Except Errno (BitVec 32) :=
  match sys.mappings.find? fun mapping => mapping.process = t.process && mapping.addr = addr with
  | none => (sys, .error .EINVAL)
  | some mapping =>
      ((sys.modify t.config.pid fun t =>
          { t with next := some (.munmap addr mapping.size), chainState := .CSTATE_SINGLE })
        |>.freeMapping mapping, .ok 0)

/-- `shm_nattch`, as `sysvipc_shm_update_stats` counts it. -/
def nattch (sys : IpcSystem) (index : Nat) : Nat := sys.mappings.countP (·.shmIndex = index)

/-- What a `shmctl` is to do. -/
inductive ShmCommand
  | IPC_RMID
  | IPC_STAT
  deriving DecidableEq, Repr

/-- The `switch` of `sysvipc_shmctl`, for the value of the second argument register. -/
def shmCommand (arg : BitVec 64) : Option ShmCommand :=
  let cmd := arg.setWidth 32
  if cmd = 0 ∨ cmd = 0x100 then some .IPC_RMID
  else if cmd = 2 then some .IPC_STAT
  else none

/-- `sysvipc_shmctl`. -/
def shmctl (sys : IpcSystem) (shmid cmd : BitVec 64) (written : Except Errno Unit) :
    IpcSystem × Except Errno (BitVec 32) :=
  match lookupIpcObject sys.shms shmid with
  | .error status => (sys, .error status)
  | .ok index =>
      match shmCommand cmd with
      | some .IPC_RMID =>
          if sys.isMapped index then
            ({ sys with shms := Slot.update sys.shms index fun content =>
                { content with data := { content.data with rmidPending := true } } }, .ok 0)
          else (sys.doRmid index, .ok 0)
      | some .IPC_STAT => (sys, written.map fun _ => 0)
      | none => (sys, .error .EINVAL)

end IpcSystem

end PRoot
