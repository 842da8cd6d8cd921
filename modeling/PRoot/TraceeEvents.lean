import Mathlib.Data.Option.Basic

/-!
# The events of a tracee

`handle_tracee_event` and `restart_tracee` of `tracee/event.c`, with the part of
`translate_syscall` (`syscall/syscall.c`) and `chain_next_syscall` (`syscall/chain.c`) that says
where a tracee is in its system call.  What the translation of a call comes to is an answer.

* `EventTracee`: what PRoot keeps of a tracee for this;
* `translateSyscall`: a system call is translated, at its entry or its exit;
* `handleTraceeEvent`: a stop is handled; there is nothing where an assertion fails.
-/

namespace PRoot

/-- The requests that restart a tracee. -/
inductive RestartHow
  | PTRACE_CONT | PTRACE_SYSCALL | PTRACE_SINGLESTEP | PTRACE_SINGLEBLOCK
  deriving DecidableEq, Repr

/-- `tracee->seccomp`. -/
inductive SeccompMode
  | DISABLED | DISABLING | ENABLED
  deriving DecidableEq, Repr

/-- `tracee->sigstop`. -/
inductive Sigstop
  | SIGSTOP_IGNORED | SIGSTOP_ALLOWED | SIGSTOP_PENDING
  deriving DecidableEq, Repr

/-- The static variables of `handle_tracee_event`, and `seccomp_after_ptrace_enter`. -/
structure EventGlobals where
  seccompDetected : Bool
  seccompAfterPtraceEnter : Bool
  deliverSigtrap : Bool
  deriving DecidableEq, Repr

/-- What PRoot keeps of a tracee, as far as its events depend on it.  `exe` says whether the
tracee has one, `waiting` whether its `as_ptracer.wait_pid` is set; no `restartHow` is the
source's 0.  `C` is the type of the calls registered in a chain. -/
structure EventTracee (C : Type) where
  exe : Bool
  status : Int
  seccomp : SeccompMode
  sysexitPending : Bool
  seccompAlreadyHandledEnter : Bool
  restartHow : Option RestartHow
  lastRestartHow : Option RestartHow
  chain : Option (List C)
  suppressedSignal : Nat
  restoreOriginalRegsAfterSeccompEvent : Bool
  skipNextSeccompSignal : Bool
  sigstop : Sigstop
  waiting : Bool
  terminated : Bool
  deriving DecidableEq, Repr

/-- A stop of a tracee, by its wait status.  A bare `SIGTRAP` is `sigtrap`, `SIGTRAP | 0x80` is
`syscall`, and `signal` stands for the signals with no case of their own. -/
inductive Stop
  | exited | signaled
  | sigtrap | syscall
  | seccomp
  | vfork | fork | clone
  | vforkDone | exec | exit
  | sigstop
  | sigsys
  | signal (number : Nat) (positive : 0 < number)
  deriving DecidableEq, Repr

/-- What is found out while a stop is handled: whether the registers can be read and written,
what the translation of the call asks for, the flags of a seccomp event, where a `SIGSYS` comes
from and what is done about it. -/
structure EventAnswers (C : Type) where
  /-- `fetch_regs` succeeds. -/
  fetches : Bool
  /-- The calls that are registered, in order. -/
  registers : List C
  /-- The result of the enter stage. -/
  status : Int
  /-- The exit stage is asked for: `restart_how` and `sysexit_pending`. -/
  restartsHow : Bool
  sysexitPending : Bool
  /-- Seccomp is disabled by the call. -/
  disables : Bool
  /-- The number of the call becomes that of `PR_void`. -/
  avoids : Bool
  /-- The number of the call can be changed, where it has to be; `current` is the call. -/
  pushes : Bool
  current : C
  /-- The exit stage leaves the original registers to be restored, or restarts the call in another
  form (`fix_and_restart_enosys_syscall`), or makes the tracee wait for a ptracee. -/
  restores : Bool
  restartsCall : Bool
  waits : Bool
  /-- `PTRACE_GETEVENTMSG`: whether `FILTER_SYSEXIT` is set. -/
  eventMessage : Option Bool
  /-- The `si_code` of a `SIGSYS` is `SYS_SECCOMP`, and its `si_syscall` is `SYSCALL_AVOIDER`. -/
  sysSeccomp : Bool
  syscallAvoider : Bool
  /-- `handle_seccomp_event` restarts a call. -/
  rewrites : Bool
  deriving DecidableEq, Repr

/-- `register_chained_syscall`, for several calls. -/
def registerChained {C : Type} (chain : Option (List C)) (calls : List C) : Option (List C) :=
  if calls.isEmpty then chain else some (chain.getD [] ++ calls)

namespace EventTracee

variable {C : Type} (t : EventTracee C)

/-- `IS_IN_SYSENTER`. -/
def isInSysenter : Bool := t.status = 0

/-- PRoot executes a chained or restarted call on behalf of the tracee. -/
def chaining : Bool := t.chain.isSome || t.restoreOriginalRegsAfterSeccompEvent

/-- `translate_syscall`, at the enter stage.  A number that cannot be changed makes the call a
chained one, or its exit be waited for. -/
def translateEnter (a : EventAnswers C) : EventTracee C :=
  let t := { t with
    chain := registerChained t.chain a.registers
    sysexitPending := t.sysexitPending || a.sysexitPending
    seccomp := if a.disables && t.seccomp = .ENABLED then .DISABLING else t.seccomp
    restartHow := if a.restartsHow || t.chain.isSome then some .PTRACE_SYSCALL else t.restartHow
    status := if a.status < 0 then a.status else 1 }
  let overrideSysnum := t.chain.isNone
  let suppressedStatus := if t.restartHow = some .PTRACE_CONT then t.status else 0
  let t := if t.restartHow = some .PTRACE_CONT then { t with status := 0 } else t
  if overrideSysnum && !a.pushes then
    if !a.avoids then { t with chain := some [a.current] }
    else if suppressedStatus ≠ 0 then
      { t with status := suppressedStatus, restartHow := some .PTRACE_SYSCALL }
    else t
  else t

/-- `chain_next_syscall`, if there is a chain: the chain afterwards, and whether a call of it
is made. -/
def chainNext (chain : Option (List C)) : Option (List C) × Bool :=
  match chain with
  | none => (none, false)
  | some [] => (none, false)
  | some (_ :: calls) => (some calls, true)

/-- `translate_syscall`, at the exit stage. -/
def translateExit (a : EventAnswers C) : EventTracee C :=
  let (chain, next) := chainNext (registerChained t.chain a.registers)
  { t with
    chain
    status := 0
    sysexitPending := t.sysexitPending || a.sysexitPending
    seccomp := if a.disables && t.seccomp = .ENABLED then .DISABLING else t.seccomp
    restartHow := if a.restartsHow || a.restartsCall || next then some .PTRACE_SYSCALL
      else t.restartHow
    waiting := t.waiting || a.waits
    -- `push_specific_regs`
    restoreOriginalRegsAfterSeccompEvent := a.restartsCall ||
      t.restoreOriginalRegsAfterSeccompEvent && !(a.restores && !next) }

/-- `translate_syscall`. -/
def translateSyscall (a : EventAnswers C) : EventTracee C :=
  if !a.fetches then t
  else if t.isInSysenter then t.translateEnter a
  else t.translateExit a

/-- `handle_seccomp_event`, and the signal it returns. -/
def handleSeccompEvent (sigsys : Int) (a : EventAnswers C) : EventTracee C × Int :=
  let t := { t with status := 0 }
  if !a.fetches then (t, sigsys)
  else if a.rewrites then
    ({ t with
      restoreOriginalRegsAfterSeccompEvent := true, restartHow := some .PTRACE_SYSCALL }, 0)
  else (t, 0)

/-- `sysexit_necessary`. -/
def sysexitNecessary : Bool :=
  t.sysexitPending || t.chain.isSome || t.restoreOriginalRegsAfterSeccompEvent

/-- The beginning of `handle_tracee_event`: how the tracee is restarted by default. -/
def chooseRestart : EventTracee C :=
  if t.restartHow ≠ none then t
  else if t.seccomp = .ENABLED && !t.sysexitNecessary then
    { t with restartHow := some .PTRACE_CONT }
  else { t with restartHow := some .PTRACE_SYSCALL }

end EventTracee

/-! ## `handle_tracee_event` -/

section

variable {C : Type} (g : EventGlobals) (t : EventTracee C) (a : EventAnswers C)

/-- The end of the case of system calls: the call is translated, unless its entry was translated
already, and a signal that was put off is delivered once the chain is over. -/
def handleSyscall : Option (EventTracee C × Int) :=
  let done : Option (EventTracee C × Int) :=
    if !t.seccompAlreadyHandledEnter then
      let t' := t.translateSyscall a
      let t' := if t.isInSysenter then
          { t' with skipNextSeccompSignal := g.seccompAfterPtraceEnter && a.avoids }
        else t'
      if t'.suppressedSignal ≠ 0 && !t'.chaining then
        some ({ t' with suppressedSignal := 0 }, t'.suppressedSignal)
      else some (t', 0)
    else if t.isInSysenter || g.seccompAfterPtraceEnter then none
    else some ({ t with
      seccompAlreadyHandledEnter := false, restartHow := some .PTRACE_SYSCALL }, 0)
  done.map fun (t, signal) =>
    if t.seccomp = .DISABLING then
      ({ t with restartHow := some .PTRACE_SYSCALL, seccomp := .DISABLED }, signal)
    else (t, signal)

/-- The case `SIGTRAP | 0x80`. -/
def handleSyscallStop : Option (EventTracee C × Int) :=
  if !t.exe then some ({ t with restartHow := some .PTRACE_CONT }, 0)
  else
    match t.seccomp with
    | .ENABLED =>
        handleSyscall g
          (if t.isInSysenter then
            { t with restartHow := some .PTRACE_SYSCALL, sysexitPending := true }
          else { t with restartHow := some .PTRACE_CONT, sysexitPending := false }) a
    | .DISABLED => handleSyscall g t a
    | .DISABLING =>
        some ({ t with
          seccomp := .DISABLED, status := if t.isInSysenter then 1 else t.status }, 0)

/-- The case `SIGTRAP | PTRACE_EVENT_SECCOMP << 8`; `necessary` is `sysexit_necessary`. -/
def handleSeccompStop (necessary : Bool) : Option (EventGlobals × EventTracee C) :=
  let t := if g.seccompDetected then t else { t with seccomp := .ENABLED }
  let g := if g.seccompDetected then g
    else { g with seccompDetected := true, seccompAfterPtraceEnter := !t.isInSysenter }
  let t := { t with skipNextSeccompSignal := false }
  if g.seccompAfterPtraceEnter && !t.isInSysenter then
    if t.lastRestartHow = some .PTRACE_CONT then none
    else some (g, { t with restartHow := t.lastRestartHow })
  else if !t.isInSysenter then none
  else if t.seccomp ≠ .ENABLED then some (g, t)
  else
    match a.eventMessage with
    | none => some (g, t)
    | some filterSysexit =>
        if filterSysexit || necessary then
          let t := if g.seccompAfterPtraceEnter then
              EventTracee.translateSyscall { t with restartHow := some .PTRACE_SYSCALL } a
            else t
          some (g, { t with restartHow := some .PTRACE_SYSCALL })
        else
          let t := EventTracee.translateSyscall { t with restartHow := some .PTRACE_CONT } a
          let t := if t.sysexitPending || t.seccomp = .DISABLING then
              { t with restartHow := some .PTRACE_SYSCALL }
            else t
          some (g, { t with
            seccompAlreadyHandledEnter := t.seccompAlreadyHandledEnter ||
              !g.seccompAfterPtraceEnter && t.restartHow = some .PTRACE_SYSCALL })

/-- The numbers of `SIGTRAP`, `SIGSTOP` and `SIGSYS`. -/
def sigtrap : Nat := 5

def sigstop : Nat := 19

def sigsys : Nat := 31

/-- The case `SIGSYS`. -/
def handleSigsysStop : EventTracee C × Int :=
  if !a.sysSeccomp then (t, sigsys)
  else
    let t := if !t.isInSysenter then t.translateSyscall a else t
    if t.skipNextSeccompSignal || g.seccompAfterPtraceEnter && a.syscallAvoider then
      ({ t with skipNextSeccompSignal := false }, 0)
    else t.handleSeccompEvent sigsys a

/-- `handle_tracee_event`: the tracee afterwards, and the signal it is to be restarted with. -/
def handleTraceeEvent (stop : Stop) : Option (EventGlobals × EventTracee C × Int) :=
  let necessary := t.sysexitNecessary
  let t := t.chooseRestart
  match stop with
  | .exited | .signaled => some (g, { t with terminated := true }, 0)
  | .sigtrap =>
      if g.deliverSigtrap then some (g, t, sigtrap)
      else (handleSyscallStop g t a).map fun (t, signal) =>
        ({ g with deliverSigtrap := true }, t, signal)
  | .syscall => (handleSyscallStop g t a).map fun (t, signal) => (g, t, signal)
  | .seccomp => (handleSeccompStop g t a necessary).map fun (g, t) => (g, t, 0)
  | .vfork | .fork | .clone => some (g, t, 0)
  | .vforkDone | .exec | .exit =>
      some (g, { t with restartHow := t.lastRestartHow.or t.restartHow }, 0)
  | .sigstop =>
      let held := !t.exe
      let t := if held then { t with sigstop := .SIGSTOP_PENDING } else t
      if t.sigstop = .SIGSTOP_IGNORED then some (g, { t with sigstop := .SIGSTOP_ALLOWED }, 0)
      else some (g, t, if held then -1 else sigstop)
  | .sigsys =>
      let (t, signal) := handleSigsysStop g t a
      some (g, t, signal)
  | .signal number _ =>
      if t.chaining then some (g, { t with suppressedSignal := number }, 0)
      else some (g, t, number)

/-- `restart_tracee`, of a tracee that is still there, and whether it is restarted. -/
def restartTracee (signal : Int) : EventTracee C × Bool :=
  if t.waiting || signal = -1 then (t, false)
  else ({ t with lastRestartHow := t.restartHow, restartHow := none }, true)

end

end PRoot
