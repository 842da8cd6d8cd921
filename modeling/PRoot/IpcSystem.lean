import PRoot.AbortableRuns
import PRoot.MsgQueues
import PRoot.SharedMemory

/-!
# System V IPC at the stops of threads

`sysvipc_callback` (`extension/sysvipc/sysvipc.c`), with the part of `translate_syscall` and
`chain_next_syscall` that decides which of its events a stop is.

* `IpcRequest.run`: the calls;
* `IpcSystem.syscallCommon`: what becomes of a call;
* `IpcSystem.step`: what happens at an event; there is nothing where an assertion fails.
-/

namespace PRoot

/-- A System V IPC call: its arguments, and what the host answers to it. -/
inductive IpcRequest
  | msgget (key msgflg : BitVec 64)
  | msgsnd (msqid msgsz : BitVec 64) (readType : Except Errno (BitVec 64))
      (readText : Except Errno (Nat → BitVec 8)) (now : Int)
  | msgrcv (msqid : BitVec 64) (args : MsgrcvArgs) (written : Except Errno Unit) (now : Int)
  | msgctl (msqid cmd : BitVec 64) (written : Except Errno Unit)
  | sem (call : SemCall)
  | shmget (key shmSize shmflg : BitVec 64) (fd : Int)
  | shmat (shmid : BitVec 64)
  | shmdt (addr : BitVec 64)
  | shmctl (shmid cmd : BitVec 64) (written : Except Errno Unit)

/-- A semaphore call, on the threads of a system. -/
def IpcSystem.semCall (sys : IpcSystem) (pid : Nat) (call : SemCall) :
    IpcSystem × Except Errno (BitVec 32) :=
  let (sems, status) := call.run ⟨⟨[], sys.semaphores, []⟩, sys.threads.map (·.config)⟩ pid
  ({ sys with
      semaphores := sems.ns.semaphores
      threads := List.zipWith (fun t config => { t with config }) sys.threads sems.tracees },
    status)

/-- The `switch` of `sysvipc_syscall_common`. -/
def IpcRequest.run (sys : IpcSystem) (t : IpcThread) :
    IpcRequest → IpcSystem × Except Errno (BitVec 32)
  | .msgget key msgflg => sys.msgget key msgflg
  | .msgsnd msqid msgsz readType readText now =>
      sys.msgsnd t.config.pid msqid msgsz readType readText now
  | .msgrcv msqid args written now => sys.msgrcvCall t.config.pid msqid args written now
  | .msgctl msqid cmd written => sys.msgctl msqid cmd written
  | .sem call => sys.semCall t.config.pid call
  | .shmget key shmSize shmflg fd => sys.shmget t.process key shmSize shmflg fd
  | .shmat shmid => sys.shmat t shmid
  | .shmdt addr => sys.shmdt t addr
  | .shmctl shmid cmd written => sys.shmctl shmid cmd written

namespace IpcSystem

/-- A thread was woken that `sysvipc_wake_tracee` may not wake. -/
def wokeBadly (before after : IpcSystem) (pid : Nat) : Bool :=
  before.threads.any fun t =>
    t.config.pid ≠ pid && t.waitReason ≠ .WR_NOT_WAITING && !t.wakeable &&
      (after.thread t.config.pid).any (·.waitReason = .WR_NOT_WAITING)

/-- `restart_syscall_after_seccomp`, or the system call is entered. -/
def goOn (fromSigsys : Bool) (t : IpcThread) : IpcThread :=
  { t with inSyscall := !fromSigsys, deferring := t.deferring || fromSigsys }

/-- The end of `sysvipc_syscall_common`, for a thread whose call gave some status. -/
def finishCall (fromSigsys : Bool) (status : Except Errno (BitVec 32)) (t : IpcThread) :
    Option IpcThread :=
  match t.chainState with
  | .CSTATE_SINGLE => some { goOn fromSigsys t with chainState := .CSTATE_NOT_CHAINED }
  | .CSTATE_SHMAT_SOCKET => some (goOn fromSigsys t)
  | .CSTATE_NOT_CHAINED =>
      let t := { t with config := t.config.afterCall fromSigsys status }
      if t.waitReason ≠ .WR_NOT_WAITING then some { goOn fromSigsys t with next := some .ppoll }
      else if fromSigsys then some { t with result := statusWord status }
      else some { t with inSyscall := true, next := some .getpid }
  | _ => none

/-- `sysvipc_syscall_common`, for one of its calls. -/
def syscallCommon (sys : IpcSystem) (t : IpcThread) (call : IpcRequest) (fromSigsys : Bool) :
    Option IpcSystem :=
  let pid := t.config.pid
  if t.waitState ≠ .WSTATE_NOT_WAITING then none
  else
    let (after, status) := call.run sys t
    if sys.wokeBadly after pid then none
    else do
      let t ← after.thread pid
      let t ← finishCall fromSigsys status t
      some (after.modify pid fun _ => t)

/-- What a thread enters: one of the calls, `execve` (and whether its enter stage succeeds), a
system call PRoot may have planned, or another one. -/
inductive EnteredCall
  | ipc (call : IpcRequest)
  | execve (prepared : Bool)
  | planned (call : PlannedCall)
  | other

/-- The thread makes the call that was planned for it, if there is one. -/
def asPlanned (t : IpcThread) (call : EnteredCall) : Bool :=
  match t.next, call with
  | none, _ => true
  | some next, .planned call => next = call
  | some _, _ => false

/-- The call is `ppoll`. -/
def EnteredCall.isPpoll : EnteredCall → Bool
  | .planned .ppoll => true
  | _ => false

/-- The status of a thread that was woken, from the retry of its `msgrcv` where it makes one. -/
def statusOf (sys : IpcSystem) (t : IpcThread) (answers : StopAnswers) :
    Option (IpcSystem × Except Errno (BitVec 32)) :=
  if t.chainState = .CSTATE_MSGRCV_RETRY then sys.msgrcvRetry t answers.written answers.now
  else some (sys, t.config.statusAfterWait)

/-- `SYSCALL_ENTER_START`, and `SYSCALL_ENTER_END` for `execve`. -/
def enterStart (sys : IpcSystem) (t : IpcThread) (call : EnteredCall) (answers : StopAnswers) :
    Option IpcSystem :=
  let pid := t.config.pid
  match t.waitState with
  | .WSTATE_NOT_WAITING =>
      match call with
      | .ipc call => sys.syscallCommon t call false
      | .execve prepared =>
          let sys := sys.modify pid fun t => { t with inSyscall := true }
          some (if prepared then sys.removeMappings t.process else sys)
      | _ => some (sys.modify pid fun t => { t with inSyscall := true })
  | .WSTATE_RESTARTED_INTO_PPOLL =>
      if call.isPpoll then
        some (sys.modify pid fun t =>
          { t.setWaitState .WSTATE_ENTERED_PPOLL with inSyscall := true })
      else none
  | .WSTATE_RESTARTED_INTO_PPOLL_CANCELED => do
      let (sys, status) ← sys.statusOf t answers
      some (sys.modify pid fun t =>
        { t.setWaitState .WSTATE_NOT_WAITING with
          inSyscall := true, next := some .void, result := statusWord status })
  | _ => none

/-- `SYSCALL_CHAINED_ENTER`. -/
def chainedEnter (sys : IpcSystem) (t : IpcThread) : Option IpcSystem :=
  match t.waitState with
  | .WSTATE_NOT_WAITING => some (sys.modify t.config.pid fun t => { t with inSyscall := true })
  | .WSTATE_RESTARTED_INTO_PPOLL_CANCELED =>
      some (sys.modify t.config.pid fun t =>
        { t.setWaitState .WSTATE_SIGNALED_PPOLL with inSyscall := true })
  | _ => none

/-- The result of a `ppoll` that ended by itself: `-EINTR`, unless it was one of two errors. -/
def ppollResult (result : BitVec 64) : BitVec 64 :=
  if result.setWidth 32 = (statusWord (.error .EFAULT)).setWidth 32 ∨
      result.setWidth 32 = (statusWord (.error .EINTR)).setWidth 32 then result
  else statusWord (.error .EINTR)

/-- The end of a wait that nobody ended, with `sysvipc_semop_timedout`. -/
def endWait (t : IpcThread) : IpcThread :=
  { t with config := { t.config with
      waitState := .WSTATE_NOT_WAITING
      waitReason := .WR_NOT_WAITING
      semopSops := if t.waitReason = .WR_WAIT_SEMOP then [] else t.config.semopSops } }

/-- `SYSCALL_EXIT_START`, with the rest of `translate_syscall_exit` for a call that was
cancelled. -/
def exitStart (sys : IpcSystem) (t : IpcThread) (result : BitVec 64) (answers : StopAnswers) :
    Option IpcSystem :=
  let pid := t.config.pid
  let setResult (result : BitVec 64) (t : IpcThread) : IpcThread := { t with result }
  if t.chainState.inShmat then
    if t.chainState ≠ .CSTATE_SHMAT_SOCKET then none
    else do
      let (sys, goesOn) ← sys.shmatChain t result answers
      some (sys.modify pid
        (setResult (if goesOn then result else statusWord (.error .ENOMEM))))
  else
    match t.waitState with
    | .WSTATE_NOT_WAITING =>
        some (sys.modify pid fun t => if t.next = some .void then t else setResult result t)
    | .WSTATE_ENTERED_PPOLL =>
        if t.waitReason = .WR_NOT_WAITING then none
        else some (sys.modify pid fun t => setResult (ppollResult result) (endWait t))
    | .WSTATE_SIGNALED_PPOLL | .WSTATE_ENTERED_GETPID =>
        if t.waitReason ≠ .WR_NOT_WAITING then none
        else do
          let (sys, status) ← sys.statusOf t answers
          some (sys.modify pid fun t =>
            setResult (statusWord status) (t.setWaitState .WSTATE_NOT_WAITING))
    | _ => none

/-- `SYSCALL_CHAINED_EXIT`. -/
def chainedExit (sys : IpcSystem) (t : IpcThread) (result : BitVec 64) (answers : StopAnswers) :
    Option IpcSystem :=
  let pid := t.config.pid
  let sys := sys.modify pid fun t => { t with result }
  match t.waitState with
  | .WSTATE_NOT_WAITING =>
      if t.chainState.inShmat then (sys.shmatChain t result answers).map Prod.fst else some sys
  | .WSTATE_SIGNALED_PPOLL => some (sys.modify pid (·.setWaitState .WSTATE_NOT_WAITING))
  | _ => none

/-- The end of an exit stage, with `chain_next_syscall`. -/
def chainNext (t : IpcThread) : IpcThread :=
  match t.chain with
  | none => { t with inSyscall := false, next := none, deferring := false }
  | some [] =>
      { t with
        inSyscall := false, next := none, deferring := false, chain := none
        result := t.finalResult.getD t.result, finalResult := none }
  | some (call :: calls) => { t with inSyscall := false, next := some call, chain := some calls }

/-- `INHERIT_CHILD`: a thread of the process of its parent, or a process with what is mapped in
the parent. -/
def inheritChild (sys : IpcSystem) (parent : IpcThread) (child : Nat) (cloneThread : Bool) :
    IpcSystem :=
  if cloneThread then { sys with threads := .zero child parent.process :: sys.threads }
  else { sys.inheritProcess parent.process child with threads := .zero child child :: sys.threads }

/-- A thread is gone; the last one of a process takes its mappings along. -/
def exit (sys : IpcSystem) (t : IpcThread) : IpcSystem :=
  let sys := { sys with threads := sys.threads.filter (·.config.pid ≠ t.config.pid) }
  if sys.threads.any (·.process = t.process) then sys else sys.removeMappings t.process

/-- The kernel replaces the program of a process: only the caller and the leader are left, and
the caller goes on as the leader. -/
def replaceProgram (sys : IpcSystem) (t : IpcThread) : IpcSystem :=
  { sys with threads :=
      (sys.threads.filter fun u =>
        u.process ≠ t.process || u.config.pid = t.config.pid || u.config.pid = t.process).map fun u =>
          if u.config.pid = t.process ∧ u.config.pid ≠ t.config.pid then { u with next := none }
          else u }

end IpcSystem

/-- What can happen to the threads of a namespace. -/
inductive IpcEvent
  /-- A thread enters a system call. -/
  | enter (pid : Nat) (call : IpcSystem.EnteredCall) (answers : StopAnswers)
  /-- A system call is over. -/
  | leave (pid : Nat) (result : BitVec 64) (answers : StopAnswers)
  /-- The host does not let a thread make a system call. -/
  | sigsys (pid : Nat) (call : IpcSystem.EnteredCall)
  /-- A signal that the thread has a handler for; `SIGTRAP` and `SIGSYS` are not put off. -/
  | signal (pid : Nat) (putOff : Bool)
  | fork (pid child : Nat) (cloneThread : Bool)
  /-- The kernel replaces the program of a thread. -/
  | exec (pid : Nat)
  | exit (pid : Nat)

namespace IpcSystem

/-- A thread of this pid, or a process of this address, can be new. -/
def isFresh (sys : IpcSystem) (pid : Nat) : Bool :=
  sys.threads.all fun t => t.config.pid ≠ pid && t.process ≠ pid

/-- **One event**, unless an assertion of PRoot fails.  Events that the kernel does not report
in this state change nothing. -/
def step (sys : IpcSystem) : IpcEvent → Option IpcSystem
  | .enter pid call answers =>
      match sys.thread pid with
      | none => some sys
      | some t =>
          if t.inSyscall || !asPlanned t call then some sys
          else if t.chain.isSome then sys.chainedEnter t
          else sys.enterStart t call answers
  | .leave pid result answers =>
      match sys.thread pid with
      | none => some sys
      | some t =>
          if !t.inSyscall then some sys
          else
            ((if t.chain.isSome then sys.chainedExit t result answers
              else sys.exitStart t result answers).map fun sys => sys.modify pid chainNext)
  | .sigsys pid call =>
      match sys.thread pid with
      | none => some sys
      | some t =>
          if t.inSyscall || !asPlanned t call then some sys
          else
            match call with
            | .ipc call => sys.syscallCommon t call true
            | _ => if t.waitState ≠ .WSTATE_NOT_WAITING then none else some sys
  | .signal pid putOff =>
      match sys.thread pid with
      | none => some sys
      | some t =>
          if t.inSyscall || putOff && (t.chain.isSome || t.deferring) then some sys
          else some (sys.modify pid fun t => { t with next := none })
  | .fork pid child cloneThread =>
      match sys.thread pid with
      | none => some sys
      | some t => some (if sys.isFresh child then sys.inheritChild t child cloneThread else sys)
  | .exec pid =>
      match sys.thread pid with
      | none => some sys
      | some t => some (if t.inSyscall then sys.replaceProgram t else sys)
  | .exit pid =>
      match sys.thread pid with
      | none => some sys
      | some t => some (sys.exit t)

/-- The system after some events, unless PRoot was aborted. -/
def run (sys : IpcSystem) (events : List IpcEvent) : Option IpcSystem :=
  AbortableRuns.run step sys events

end IpcSystem

end PRoot
