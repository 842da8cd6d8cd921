import PRoot.IpcObjects
import PRoot.Waiters

/-!
# System V semaphores

`extension/sysvipc/sysvipc_sem.c` and the wait mechanism of `sysvipc.c`, for the
tracees of one namespace.

* `semCheck`: whether an array of operations can be carried out;
* `semop`, `semctl`: the calls, with the tracees they wake;
* `SemSystem.step`: what happens to the namespace and its tracees at an event.
-/

namespace PRoot

/-- `SYSVIPC_MAX_NSOPS`. -/
def sysvipcMaxNsops : Nat := 512

/-- `SYSVIPC_MAX_SEMVAL`. -/
def sysvipcMaxSemval : Nat := 0x7000

/-- `IPC_NOWAIT`. -/
def ipcNowait : BitVec 16 := 0x800

/-- `struct SysVIpcSembuf`. -/
structure SysVIpcSembuf where
  semNum : BitVec 16
  semOp : BitVec 16
  semFlg : BitVec 16
  deriving DecidableEq, Repr

/-- `enum SysVIpcWaitReason`. -/
inductive SysVIpcWaitReason
  | WR_NOT_WAITING
  | WR_WAIT_QUEUE_RECV
  | WR_WAIT_SEMOP
  | WR_WAIT_SHMAT_HELPER_BUSY
  deriving DecidableEq, Repr

/-- `enum SysVIpcWaitState`. -/
inductive SysVIpcWaitState
  | WSTATE_NOT_WAITING
  | WSTATE_RESTARTED_INTO_PPOLL_CANCELED
  | WSTATE_RESTARTED_INTO_PPOLL
  | WSTATE_ENTERED_PPOLL
  | WSTATE_SIGNALED_PPOLL
  | WSTATE_ENTERED_GETPID
  deriving DecidableEq, Repr

/-- `struct SysVIpcConfig`, as far as semaphores need it, with the pid of its tracee. -/
structure SysVIpcConfig where
  pid : Nat
  waitReason : SysVIpcWaitReason
  waitState : SysVIpcWaitState
  statusAfterWait : Except Errno (BitVec 32)
  waitingObjectIndex : Nat
  semopSops : List SysVIpcSembuf
  deriving Repr

/-- The configuration `talloc_zero` makes. -/
def SysVIpcConfig.zero (pid : Nat) : SysVIpcConfig where
  pid
  waitReason := .WR_NOT_WAITING
  waitState := .WSTATE_NOT_WAITING
  statusAfterWait := .ok 0
  waitingObjectIndex := 0
  semopSops := []

/-- A namespace, and its tracees in the order `SYSVIPC_FOREACH_TRACEE` goes through
them. -/
structure SemSystem where
  ns : IpcNamespace
  tracees : List SysVIpcConfig
  deriving Repr

/-- The set at some place. -/
def IpcNamespace.semaphoreAt (ns : IpcNamespace) (index : Nat) : Semaphore :=
  (ns.semaphores[index]?).elim .zero fun object => object.content.data

/-- The namespace with other values in one of its sets. -/
def IpcNamespace.setSems (ns : IpcNamespace) (index : Nat) (sems : List (BitVec 16)) :
    IpcNamespace :=
  { ns with semaphores := Slot.update ns.semaphores index fun content =>
      { content with data := { content.data with sems } } }

/-- What `sysvipc_sem_check` says of an array of operations. -/
abbrev SemOutcome := Waiters.Outcome (List (BitVec 16)) Errno

/-- `sysvipc_sem_check`: the values after all operations, unless one of them has to
wait or fails. -/
def semCheck (newSems : List (BitVec 16)) : List SysVIpcSembuf → SemOutcome
  | [] => .done newSems
  | sop :: sops =>
      let value := newSems.getD sop.semNum.toNat 0
      let blocked : SemOutcome := if sop.semFlg &&& ipcNowait ≠ 0 then .fail .EAGAIN else .wait
      if sop.semOp = 0 then
        if value ≠ 0 then blocked else semCheck newSems sops
      else
        let newValue := value.toNat + sop.semOp.toInt
        if newValue < 0 then blocked
        else if newValue > sysvipcMaxSemval then .fail .ERANGE
        else semCheck (newSems.set sop.semNum.toNat (BitVec.ofInt 16 newValue)) sops

/-- `sysvipc_wake_tracee`. -/
def wakeTracee (config : SysVIpcConfig) (status : Except Errno (BitVec 32)) : SysVIpcConfig :=
  { config with
    waitReason := .WR_NOT_WAITING
    statusAfterWait := status
    waitState :=
      match config.waitState with
      | .WSTATE_ENTERED_PPOLL => .WSTATE_SIGNALED_PPOLL
      | .WSTATE_RESTARTED_INTO_PPOLL => .WSTATE_RESTARTED_INTO_PPOLL_CANCELED
      | waitState => waitState }

/-- A tracee that waits for the set at `index`. -/
def SysVIpcConfig.waitsFor (config : SysVIpcConfig) (index : Nat) : Bool :=
  config.waitReason = .WR_WAIT_SEMOP ∧ config.waitingObjectIndex = index

/-- The loop of `sysvipc_semop` over the other tracees. -/
def wakeWaiters (pid index : Nat) (sems : List (BitVec 16)) :
    List SysVIpcConfig → List SysVIpcConfig × List (BitVec 16)
  | [] => ([], sems)
  | config :: rest =>
      if config.pid ≠ pid ∧ config.waitsFor index then
        match semCheck sems config.semopSops with
        | .wait =>
            let (rest, sems) := wakeWaiters pid index sems rest
            (config :: rest, sems)
        | .fail e =>
            let (rest, sems) := wakeWaiters pid index sems rest
            (wakeTracee { config with semopSops := [] } (.error e) :: rest, sems)
        | .done sems =>
            let (rest, sems) := wakeWaiters pid index sems rest
            (wakeTracee { config with semopSops := [] } (.ok 0) :: rest, sems)
      else
        let (rest, sems) := wakeWaiters pid index sems rest
        (config :: rest, sems)

/-- The tracees with a change to one of them. -/
def setConfig (pid : Nat) (f : SysVIpcConfig → SysVIpcConfig) (tracees : List SysVIpcConfig) :
    List SysVIpcConfig :=
  tracees.map fun config => if config.pid = pid then f config else config

/-- The arguments of `sysvipc_semop`, checked.  `readSop` is what reading an element of
the array gives. -/
def semopArgs (ns : IpcNamespace) (semid nsops : BitVec 64)
    (readSop : Nat → Except Errno SysVIpcSembuf) : Except Errno (Nat × List SysVIpcSembuf) := do
  let index ← lookupIpcObject ns.semaphores semid
  if nsops.toNat > sysvipcMaxNsops then .error .E2BIG
  else if nsops.toNat = 0 then .error .EINVAL
  else do
    let sops ← (List.range nsops.toNat).mapM readSop
    if sops.any fun sop => sop.semNum.toNat ≥ (ns.semaphoreAt index).nsems then .error .EFBIG
    else .ok (index, sops)

/-- `sysvipc_semop`, called by the tracee `pid`. -/
def semop (sys : SemSystem) (pid : Nat) (semid nsops : BitVec 64)
    (readSop : Nat → Except Errno SysVIpcSembuf) : SemSystem × Except Errno (BitVec 32) :=
  match semopArgs sys.ns semid nsops readSop with
  | .error e => (sys, .error e)
  | .ok (index, sops) =>
      let outcome := semCheck (sys.ns.semaphoreAt index).sems sops
      let (tracees, sems) :=
        wakeWaiters pid index (outcome.next (sys.ns.semaphoreAt index).sems) sys.tracees
      let ns := sys.ns.setSems index sems
      let wait config := { config with
        waitReason := .WR_WAIT_SEMOP, waitingObjectIndex := index, semopSops := sops }
      let go config := { config with
        waitReason := .WR_NOT_WAITING, waitingObjectIndex := index, semopSops := [] }
      match outcome with
      | .wait => (⟨ns, setConfig pid wait tracees⟩, .ok 0)
      | .fail e => (⟨ns, setConfig pid go tracees⟩, .error e)
      | .done _ => (⟨ns, setConfig pid go tracees⟩, .ok 0)

/-- The commands of `sysvipc_semctl`. -/
inductive SemCommand
  | GETVAL
  | SETVAL
  | GETALL
  | IPC_RMID
  | IPC_INFO
  deriving DecidableEq, Repr

/-- The `switch` of `sysvipc_semctl`, for the value of the third argument register. -/
def semCommand (arg : BitVec 64) : Option SemCommand :=
  let cmd := arg.setWidth 32 &&& ~~~0x100
  if cmd = 12 then some .GETVAL
  else if cmd = 16 then some .SETVAL
  else if cmd = 13 then some .GETALL
  else if cmd = 0 then some .IPC_RMID
  else if cmd = 3 ∨ cmd = 19 then some .IPC_INFO
  else none

/-- The number of a semaphore `sysvipc_semctl` is given, checked. -/
def semctlNum (semaphore : Semaphore) (arg : BitVec 64) : Except Errno Nat :=
  let semnum := (arg.setWidth 32).toInt
  if semnum < 0 ∨ semnum ≥ semaphore.nsems then .error .EINVAL else .ok semnum.toNat

/-- The values after `SETVAL`. -/
def semctlSetval (semaphore : Semaphore) (semnum cmdarg : BitVec 64) :
    Except Errno (List (BitVec 16)) :=
  if cmdarg.toNat > sysvipcMaxSemval then .error .ERANGE
  else do
    let num ← semctlNum semaphore semnum
    .ok (semaphore.sems.set num (cmdarg.setWidth 16))

/-- The loop of `IPC_RMID` over the tracees. -/
def wakeAll (index : Nat) (tracees : List SysVIpcConfig) : List SysVIpcConfig :=
  tracees.map fun config =>
    if config.waitsFor index then wakeTracee config (.error .EIDRM) else config

/-- `sysvipc_semctl`.  `written` is what writing to the memory of the tracee gives. -/
def semctl (sys : SemSystem) (semid semnum cmd cmdarg : BitVec 64) (written : Except Errno Unit) :
    SemSystem × Except Errno (BitVec 32) :=
  match lookupIpcObject sys.ns.semaphores semid with
  | .error e => (sys, .error e)
  | .ok index =>
      let semaphore := sys.ns.semaphoreAt index
      match semCommand cmd with
      | some .GETVAL =>
          (sys, (semctlNum semaphore semnum).map fun num => (semaphore.sems.getD num 0).setWidth 32)
      | some .SETVAL =>
          match semctlSetval semaphore semnum cmdarg with
          | .error e => (sys, .error e)
          | .ok sems => ({ sys with ns := sys.ns.setSems index sems }, .ok 0)
      | some .IPC_RMID => (⟨(semctlRmid sys.ns semid).1, wakeAll index sys.tracees⟩, .ok 0)
      | some .GETALL | some .IPC_INFO => (sys, written.map fun _ => 0)
      | none => (sys, .error .EINVAL)

/-! ## Events -/

/-- The calls that deal with semaphores.  `semtimedop` is `semop` here: a timeout is
one more way to leave the `ppoll` the tracee waits in. -/
inductive SemCall
  | semget (key nsems semflg : BitVec 64)
  | semop (semid nsops : BitVec 64) (readSop : Nat → Except Errno SysVIpcSembuf)
  | semctl (semid semnum cmd cmdarg : BitVec 64) (written : Except Errno Unit)

/-- The call itself. -/
def SemCall.run (sys : SemSystem) (pid : Nat) : SemCall → SemSystem × Except Errno (BitVec 32)
  | .semget key nsems semflg =>
      let (ns, status) := PRoot.semget sys.ns key nsems semflg
      ({ sys with ns }, status)
  | .semop semid nsops readSop => PRoot.semop sys pid semid nsops readSop
  | .semctl semid semnum cmd cmdarg written =>
      PRoot.semctl sys semid semnum cmd cmdarg written

/-- The tail of `sysvipc_syscall_common`: the tracee waits in `ppoll`, or gets its
result. -/
def SysVIpcConfig.afterCall (fromSigsys : Bool) (status : Except Errno (BitVec 32))
    (config : SysVIpcConfig) : SysVIpcConfig :=
  if config.waitReason ≠ .WR_NOT_WAITING then
    { config with waitState :=
        if fromSigsys then .WSTATE_RESTARTED_INTO_PPOLL else .WSTATE_ENTERED_PPOLL }
  else if fromSigsys then config
  else { config with statusAfterWait := status, waitState := .WSTATE_ENTERED_GETPID }

/-- The stops of a tracee at which the wait mechanism acts. -/
inductive IpcStop
  | SYSCALL_ENTER_START
  | SYSCALL_EXIT_START
  | SYSCALL_CHAINED_ENTER
  | SYSCALL_CHAINED_EXIT
  deriving DecidableEq, Repr

/-- The other branches of `sysvipc_callback` on the wait state. -/
def SysVIpcConfig.atStop (config : SysVIpcConfig) (stop : IpcStop) : SysVIpcConfig :=
  match stop, config.waitState with
  | .SYSCALL_ENTER_START, .WSTATE_RESTARTED_INTO_PPOLL =>
      { config with waitState := .WSTATE_ENTERED_PPOLL }
  | .SYSCALL_ENTER_START, .WSTATE_RESTARTED_INTO_PPOLL_CANCELED =>
      { config with waitState := .WSTATE_NOT_WAITING }
  -- `sysvipc_semop_timedout`: the `ppoll` ended before the tracee was woken
  | .SYSCALL_EXIT_START, .WSTATE_ENTERED_PPOLL =>
      { config with waitState := .WSTATE_NOT_WAITING, waitReason := .WR_NOT_WAITING
                    semopSops := [] }
  | .SYSCALL_EXIT_START, .WSTATE_SIGNALED_PPOLL | .SYSCALL_EXIT_START, .WSTATE_ENTERED_GETPID =>
      { config with waitState := .WSTATE_NOT_WAITING }
  | .SYSCALL_CHAINED_ENTER, .WSTATE_RESTARTED_INTO_PPOLL_CANCELED =>
      { config with waitState := .WSTATE_SIGNALED_PPOLL }
  | .SYSCALL_CHAINED_EXIT, .WSTATE_SIGNALED_PPOLL =>
      { config with waitState := .WSTATE_NOT_WAITING }
  | _, _ => config

/-- What can happen to the tracees of a namespace. -/
inductive SemEvent
  | call (pid : Nat) (call : SemCall) (fromSigsys : Bool)
  | stop (pid : Nat) (stop : IpcStop)
  | inheritChild (child : Nat)
  | exit (pid : Nat)

/-- A tracee that is there, and between two calls. -/
def SemSystem.idle (sys : SemSystem) (pid : Nat) : Bool :=
  sys.tracees.any fun config => config.pid = pid ∧ config.waitState = .WSTATE_NOT_WAITING

/-- One event.  Only a tracee that is not waiting makes a call; a new tracee comes
first in the list. -/
def SemSystem.step (sys : SemSystem) : SemEvent → SemSystem
  | .call pid call fromSigsys =>
      if sys.idle pid then
        let (sys, status) := call.run sys pid
        { sys with tracees := setConfig pid (·.afterCall fromSigsys status) sys.tracees }
      else sys
  | .stop pid stop => { sys with tracees := setConfig pid (·.atStop stop) sys.tracees }
  | .inheritChild child => { sys with tracees := .zero child :: sys.tracees }
  | .exit pid => { sys with tracees := sys.tracees.filter (·.pid ≠ pid) }

/-- The namespace and the tracees after some events. -/
def SemSystem.run (sys : SemSystem) (events : List SemEvent) : SemSystem :=
  events.foldl SemSystem.step sys

/-- The first tracee, with the namespace it gets. -/
def SemSystem.initial (pid : Nat) : SemSystem := ⟨.empty, [.zero pid]⟩

end PRoot
