import PRoot.TraceeEvents

/-!
# Ptracees

The emulation of `ptrace`: what is kept of a ptracer and of the tracees that it may trace
(`tracee/tracee.c`, `ptrace/ptrace.c`, `ptrace/wait.c`).

* `Ptracee.restart`: `restart_tracee`, with what the kernel makes of it;
* `Ptracee.handlePtraceeEvent`: a stop of a ptracee is passed to its ptracer;
* `PtraceSystem.step`: an event of one of the tracees, or something that the ptracer does.
-/

namespace PRoot

/-- The wait status of a stop, as a number; the code and the signal of a tracee that is gone do not
matter. -/
def Stop.waitStatus : Stop → Int
  | .exited => 0x0000
  | .signaled => 0x0009
  | .sigtrap => 0x057f
  | .syscall => 0x857f
  | .seccomp => 0x7057f
  | .fork => 0x1057f
  | .vfork => 0x2057f
  | .clone => 0x3057f
  | .exec => 0x4057f
  | .vforkDone => 0x5057f
  | .exit => 0x6057f
  | .sigstop => 0x137f
  | .sigsys => 0x1f7f
  | .signal number _ => number * 0x100 + 0x7f

/-- `WIFEXITED` or `WIFSIGNALED`. -/
def Stop.over : Stop → Bool
  | .exited | .signaled => true
  | _ => false

/-- `event4.proot`: a wait status that PRoot has to handle, one that it has handled, or the signal
that this came to. -/
inductive ProotEvent
  | pending (stop : Stop)
  | handled (stop : Stop)
  | signal (signal : Int)
  deriving DecidableEq, Repr

/-- The pending flag is cleared. -/
def ProotEvent.clear : ProotEvent → ProotEvent
  | .pending stop => .handled stop
  | event => event

/-- Its value, taken for a signal. -/
def ProotEvent.value : ProotEvent → Int
  | .pending stop | .handled stop => stop.waitStatus
  | .signal number => number

/-- A tracee, with its `as_ptracee`.  `attached` says whether it has the ptracer, `clone` is the
field of that name, `child` whether the ptracer is its parent, and `options` are the events whose
option is set.  PRoot has no fields for the last two: `kept` is the signal that a stop was for,
while the tracee is kept stopped for its ptracer, and `lastSignal` the signal of its last
restart. -/
structure Ptracee (C : Type) where
  tracee : EventTracee C
  running : Bool
  clone : Bool
  child : Bool
  attached : Bool
  proot : ProotEvent
  ptracerValue : Stop
  ptracerPending : Bool
  tracingStarted : Bool
  ignoreLoaderSyscalls : Bool
  ignoreSyscalls : Bool
  options : List Stop
  kept : Option Int
  lastSignal : Option Int
  deriving DecidableEq, Repr

/-- `wait_options`: `__WALL`, `__WCLONE` and `WNOHANG`. -/
structure WaitOptions where
  wall : Bool
  wclone : Bool
  wnohang : Bool
  deriving DecidableEq, Repr

/-- `EXPECTED_WAIT_CLONE`. -/
def WaitOptions.expects (options : WaitOptions) (clone : Bool) : Bool :=
  options.wall || options.wclone && clone || !options.wclone && !clone

/-- What a ptracer waits for: any of its ptracees, or a certain one. -/
inductive WaitTarget
  | any
  | pid (pid : Nat)
  deriving DecidableEq, Repr

def WaitTarget.matches (target : WaitTarget) (pid : Nat) : Bool :=
  target = .any || target = .pid pid

/-- The ptracer, while PRoot keeps it waiting. -/
structure Ptracer where
  waitPid : Option WaitTarget
  waitOptions : WaitOptions
  deriving DecidableEq, Repr

def Ptracer.awaits (ptracer : Ptracer) (pid : Nat) (clone : Bool) : Bool :=
  ptracer.waitPid.any (·.matches pid) && ptracer.waitOptions.expects clone

/-- What happens to the wait status of a ptracer: whether its memory can be written, and whether it
can be restarted. -/
structure WaitAnswers where
  writes : Bool
  restarts : Bool
  deriving DecidableEq, Repr

/-- The answers for a stop, when `handle_ptracee_event` handles it first and when the event loop
does. -/
structure PtraceeAnswers (C : Type) where
  first : EventAnswers C
  loop : EventAnswers C
  deriving DecidableEq, Repr

/-- A number that the kernel takes for the signal to restart a tracee with, or for none. -/
def validSignal (signal : Int) : Bool := 0 ≤ signal && signal ≤ 64

namespace Ptracee

variable {C : Type} (p : Ptracee C)

/-- `bzero(&tracee->as_ptracee)`. -/
def clear : Ptracee C :=
  { p with
    attached := false
    proot := .signal 0
    ptracerValue := .exited
    ptracerPending := false
    tracingStarted := false
    ignoreLoaderSyscalls := false
    ignoreSyscalls := false
    options := [] }

/-- `attach_to_ptracer`. -/
def attach : Ptracee C := { p.clear with attached := true }

/-- `detach_from_ptracer`. -/
def detach : Ptracee C := { p with attached := false }

/-- `restart_tracee`: there is nothing where the assertion about `restart_how` fails.  The kernel
restarts a tracee that is stopped, with a signal that there is. -/
def restart (signal : Int) : Option (Ptracee C × Bool) :=
  if p.tracee.waiting || signal = -1 then some (p, false)
  else if p.tracee.restartHow = none then none
  else if p.running || p.tracee.terminated || !validSignal signal then some (p, false)
  else
    some ({ p with
      tracee := (restartTracee p.tracee signal).1
      running := true
      kept := none
      lastSignal := some signal }, true)

/-- `handle_tracee_event`. -/
def handleEvent (g : EventGlobals) (a : EventAnswers C) (stop : Stop) :
    Option (EventGlobals × Ptracee C × Int) :=
  (handleTraceeEvent g p.tracee a stop).map fun (g, tracee, signal) =>
    (g, { p with tracee, proot := p.proot.clear }, signal)

/-- `update_wait_status`: the end of a child is left to the kernel. -/
def updateWaitStatus (writes : Bool) : Ptracee C :=
  if p.child && p.ptracerValue.over then p.detach
  else if writes then { p with ptracerPending := false }
  else p

/-- The event is for the ptracer, which is told about it if it waits for it. -/
def tell (ptracer : Ptracer) (pid : Nat) (w : WaitAnswers) (event : Stop) (keeps : Bool) :
    Ptracer × Ptracee C × Bool :=
  let p := { p with ptracerValue := event, ptracerPending := true }
  if ptracer.awaits pid p.clone then
    ({ ptracer with waitPid := none }, p.updateWaitStatus w.writes, keeps && w.restarts)
  else (ptracer, p, keeps)

/-- Whether a stop is for the ptracer at all, and then whether PRoot handles it first. -/
def expects : Stop → Option (Ptracee C × Bool)
  | .syscall =>
      if p.ignoreSyscalls || p.ignoreLoaderSyscalls then none
      else some (p, !p.tracee.isInSysenter)
  | .seccomp => none
  | .sigsys => some (p, true)
  | .exited | .signaled | .sigtrap | .sigstop | .signal .. =>
      some ({ p with tracingStarted := true }, false)
  | stop => if stop ∈ p.options then some ({ p with tracingStarted := true }, true) else none

/-- `handle_ptracee_event`: whether the ptracee shall be kept stopped.  There is nothing where an
assertion fails. -/
def handlePtraceeEvent (g : EventGlobals) (ptracer : Ptracer) (pid : Nat) (a : EventAnswers C)
    (w : WaitAnswers) (stop : Stop) : Option (EventGlobals × Ptracer × Ptracee C × Bool) :=
  let p := { p with proot := .pending stop }
  match p.expects stop with
  | none => some (g, ptracer, p, false)
  | some (p, first) =>
      if !p.tracingStarted then some (g, ptracer, p, false)
      else if !first then some (g, p.tell ptracer pid w stop !stop.over)
      else
        (p.handleEvent g a stop).bind fun (g, p, signal) =>
          let p := { p with proot := .signal signal }
          if stop = .sigsys then
            if signal ≠ 0 then some (g, p.tell ptracer pid w stop true)
            else if g.seccompAfterPtraceEnter || p.ignoreSyscalls then
              (p.restart 0).map fun (p, _) => (g, ptracer, p, true)
            else some (g, p.tell ptracer pid w .syscall true)
          else if signal ≠ 0 then none
          else some (g, p.tell ptracer pid w stop true)

/-- The signal that the stop was for which the ptracee is kept: that of the stop, but for the
`SIGSTOP` of a new tracee, or what PRoot made of it already. -/
def stopSignal : Int :=
  match p.proot with
  | .pending (.signal number _) => number
  | .pending .sigtrap => sigtrap
  | .pending .sigstop => if p.tracee.sigstop = .SIGSTOP_IGNORED then 0 else sigstop
  | .signal signal => signal
  | _ => 0

/-- The ptracee is kept stopped for its ptracer, unless it waits for ptracees of its own. -/
def keep : Ptracee C :=
  if p.running || p.tracee.waiting then p else { p with kept := some p.stopSignal }

/-- The event loop handles a stop, and restarts the tracee. -/
def loop (g : EventGlobals) (a : EventAnswers C) (stop : Stop) :
    Option (EventGlobals × Ptracee C) :=
  (p.handleEvent g a stop).bind fun (g, p, signal) =>
    (p.restart signal).map fun (p, _) => (g, p)

/-- A stop of a tracee, in `event_loop`. -/
def stopped (g : EventGlobals) (ptracer : Ptracer) (pid : Nat) (a : PtraceeAnswers C)
    (w : WaitAnswers) (stop : Stop) : Option (EventGlobals × Ptracer × Ptracee C) :=
  let p := { p with running := false, kept := none }
  if !p.attached then (p.loop g a.loop stop).map fun (g, p) => (g, ptracer, p)
  else
    (p.handlePtraceeEvent g ptracer pid a.first w stop).bind fun (g, ptracer, p, keeps) =>
      if keeps then some (g, ptracer, p.keep)
      else (p.loop g a.loop stop).map fun (g, p) => (g, ptracer, p)

/-- The end of `translate_ptrace_exit`: the event is handled, and the ptracee restarted with the
signal that is `forced`, if it is not -1. -/
def resume (g : EventGlobals) (a : EventAnswers C) (forced : Int) :
    Option (EventGlobals × Ptracee C) :=
  let handled : Option (EventGlobals × Ptracee C × Int) :=
    match p.proot with
    | .pending stop => p.handleEvent g a stop
    | event => some (g, p, event.value)
  handled.bind fun (g, p, signal) =>
    (p.restart (if forced ≠ -1 then forced else signal)).map fun (p, _) => (g, p)

/-- What a request of the ptracer changes before. -/
def requested : RestartHow → Ptracee C
  | .PTRACE_SYSCALL => { p with ignoreSyscalls := false }
  | .PTRACE_CONT => { p with ignoreSyscalls := true }
  | how => { p with tracee := { p.tracee with restartHow := some how } }

/-- What a new child inherits, in `new_child`; its `SIGSTOP` is let through from now on. -/
def inherit (clone child inherits : Bool) (options : List Stop) : Ptracee C :=
  let p := { p with clone, child }
  let p := if inherits then { p.attach with options } else p
  { p with tracee := { p.tracee with
    exe := true
    sigstop := if p.tracee.sigstop = .SIGSTOP_PENDING then .SIGSTOP_ALLOWED
      else p.tracee.sigstop } }

/-- The ptracer is removed, in `remove_tracee`. -/
def release (g : EventGlobals) (a : EventAnswers C) : Option (EventGlobals × Ptracee C) :=
  if !p.attached then some (g, p)
  else
    let p := p.detach
    let restarted : Option (EventGlobals × Ptracee C) :=
      match p.proot with
      | .pending stop => p.loop g a stop
      | event =>
          if p.ptracerPending then (p.restart event.value).map fun (p, _) => (g, p)
          else some (g, p)
    restarted.map fun (g, p) => (g, p.clear)

end Ptracee

/-! ## The ptracer and its ptracees -/

/-- A ptracee that is gone, until its ptracer is told. -/
structure Zombie where
  pid : Nat
  clone : Bool
  child : Bool
  deriving DecidableEq, Repr

/-- A ptracer, its zombies, and the other tracees. -/
structure PtraceSystem (C : Type) where
  globals : EventGlobals
  alive : Bool
  ptracer : Ptracer
  zombies : List Zombie
  tracees : List (Nat × Ptracee C)

/-- An event of a tracee, or something the ptracer does. -/
inductive PtraceEvent (C : Type)
  /-- A tracee that PRoot does not know yet. -/
  | appears (pid : Nat)
  /-- `new_child`: its parent gets known; it `inherits` the ptracer of its parent, with options. -/
  | newChild (pid : Nat) (clone child inherits : Bool) (options : List Stop) (w : WaitAnswers)
  | stop (pid : Nat) (stop : Stop) (a : PtraceeAnswers C) (w : WaitAnswers)
  /-- `PTRACE_ATTACH`, or `PTRACE_TRACEME` of the tracee. -/
  | attach (pid : Nat)
  /-- `PTRACE_SETOPTIONS`. -/
  | setOptions (pid : Nat) (options : List Stop)
  /-- `ignore_loader_syscalls` is set, or cleared. -/
  | loads (pid : Nat) (ignore : Bool)
  /-- `PTRACE_SYSCALL`, `PTRACE_CONT`, `PTRACE_SINGLESTEP` or `PTRACE_SINGLEBLOCK`. -/
  | request (pid : Nat) (how : RestartHow) (data : Int) (a : EventAnswers C)
  /-- `PTRACE_DETACH`. -/
  | detach (pid : Nat) (data : Int) (a : EventAnswers C)
  /-- `translate_wait_exit`. -/
  | wait (target : WaitTarget) (options : WaitOptions) (w : WaitAnswers)
  /-- A tracee that waited for ptracees of its own goes on. -/
  | woken (pid : Nat)
  /-- The ptracer terminates, and is removed. -/
  | gone (a : Nat → EventAnswers C)

namespace PtraceSystem

variable {C : Type} (s : PtraceSystem C)

/-- PRoot has a ptracer, without ptracees. -/
def initial (globals : EventGlobals) : PtraceSystem C where
  globals
  alive := true
  ptracer := ⟨none, ⟨false, false, false⟩⟩
  zombies := []
  tracees := []

/-- `get_tracee`. -/
def tracee (pid : Nat) : Option (Ptracee C) := (s.tracees.find? (·.1 = pid)).map (·.2)

def set (pid : Nat) (p : Ptracee C) : PtraceSystem C :=
  { s with tracees := s.tracees.map fun e => if e.1 = pid then (pid, p) else e }

/-- `nb_ptracees`. -/
def nbPtracees : Nat := s.tracees.countP (·.2.attached) + s.zombies.length

/-- A tracee that PRoot has just heard of. -/
def newTracee : Ptracee C where
  tracee :=
    { exe := false, status := 0, seccomp := .DISABLED, sysexitPending := false
      seccompAlreadyHandledEnter := false, restartHow := none, lastRestartHow := none
      chain := none, suppressedSignal := 0, restoreOriginalRegsAfterSeccompEvent := false
      skipNextSeccompSignal := false, sigstop := .SIGSTOP_IGNORED, waiting := false
      terminated := false }
  running := false
  clone := false
  child := false
  attached := false
  proot := .signal 0
  ptracerValue := .exited
  ptracerPending := false
  tracingStarted := false
  ignoreLoaderSyscalls := false
  ignoreSyscalls := false
  options := []
  kept := none
  lastSignal := none

/-- `remove_tracee`: a ptracee whose ptracer was not told yet becomes a zombie; otherwise the
ptracer is woken if nothing else is left to wait for. -/
def remove (pid : Nat) (p : Ptracee C) : PtraceSystem C :=
  let s := { s with tracees := s.tracees.filter (·.1 ≠ pid) }
  if !p.attached then s
  else if p.ptracerPending && p.ptracerValue.over then
    { s with zombies := ⟨pid, p.clone, p.child⟩ :: s.zombies }
  else if s.nbPtracees = 0 then { s with ptracer := { s.ptracer with waitPid := none } }
  else s

/-- The tracee is freed before the next event if it terminated. -/
def settle (pid : Nat) (p : Ptracee C) : PtraceSystem C :=
  if p.tracee.terminated then s.remove pid p else s.set pid p

/-- The ptracer is not in a `wait`. -/
def acts : Bool := s.alive && s.ptracer.waitPid = none

/-- `get_stopped_ptracee`, for a request. -/
def stoppedPtracee (pid : Nat) : Option (Ptracee C) :=
  if s.zombies.any (·.pid = pid) then none
  else (s.tracee pid).filter fun p => p.attached && !p.running

/-- A zombie that a `wait` finds. -/
def findZombie (target : WaitTarget) (options : WaitOptions) : Option Zombie :=
  s.zombies.find? fun z => target.matches z.pid && options.expects z.clone

/-- A stopped ptracee that a `wait` finds. -/
def findPtracee (target : WaitTarget) (options : WaitOptions) : Option (Nat × Ptracee C) :=
  s.tracees.find? fun e =>
    e.2.attached && target.matches e.1 && options.expects e.2.clone && !e.2.running &&
      e.2.ptracerPending

/-- `translate_wait_exit`; a `wait` that cannot write the status of a zombie leaves it, unless the
end of the ptracee is left to the kernel. -/
def waitExit (target : WaitTarget) (options : WaitOptions) (w : WaitAnswers) : PtraceSystem C :=
  match s.findZombie target options, s.findPtracee target options with
  | some z, _ => if z.child || w.writes then { s with zombies := s.zombies.erase z } else s
  | none, some (pid, p) => s.set pid (p.updateWaitStatus w.writes)
  | none, none =>
      if s.nbPtracees = 0 || options.wnohang then s
      else { s with ptracer := { waitPid := some target, waitOptions := options } }

/-- The tracees are released one after the other. -/
def releaseAll (a : Nat → EventAnswers C) (g : EventGlobals) :
    List (Nat × Ptracee C) → Option (EventGlobals × List (Nat × Ptracee C))
  | [] => some (g, [])
  | (pid, p) :: tracees =>
      (p.release g (a pid)).bind fun (g, p) =>
        (releaseAll a g tracees).map fun (g, tracees) => (g, (pid, p) :: tracees)

/-- The end of `new_child`; the child has not been attached before. -/
def newChild (pid : Nat) (p : Ptracee C) (clone child inherits : Bool) (options : List Stop)
    (w : WaitAnswers) : Option (PtraceSystem C) :=
  if p.tracee.exe || p.attached then none
  else
    let held := p.tracee.sigstop = .SIGSTOP_PENDING
    let p := p.inherit clone child inherits options
    if !held then some (s.set pid p)
    else if !p.attached then (p.restart 0).map fun (p, _) => s.set pid p
    else
      -- `handle_ptracee_event`, for a `SIGSTOP`
      let (ptracer, p, keeps) :=
        Ptracee.tell { p with tracingStarted := true } s.ptracer pid w .sigstop true
      let p := { p with proot := .signal 0 }
      let s := { s with ptracer }
      if keeps then some (s.set pid p.keep)
      else (p.restart 0).map fun (p, _) => s.set pid p

/-- A step; an event that cannot happen changes nothing, and there is no step where an assertion
fails. -/
def step : PtraceEvent C → Option (PtraceSystem C)
  | .appears pid =>
      if (s.tracee pid).isSome then some s
      else some { s with tracees := (pid, newTracee) :: s.tracees }
  | .newChild pid clone child inherits options w =>
      match s.tracee pid with
      | none => some s
      | some p => s.newChild pid p clone child (inherits && s.alive) options w
  | .stop pid stop a w =>
      match s.tracee pid with
      | none => some s
      | some p =>
          -- Nothing happens to a tracee that waits but its end.
          if p.tracee.waiting && !(stop.over || stop = .exit) then some s
          else
            (p.stopped s.globals s.ptracer pid a w stop).map fun (globals, ptracer, p) =>
              { s with globals, ptracer }.settle pid p
  | .attach pid =>
      match s.tracee pid with
      | none => some s
      | some p => if s.acts && !p.attached then some (s.set pid p.attach) else some s
  | .setOptions pid options =>
      match s.stoppedPtracee pid with
      | none => some s
      | some p => if s.acts then some (s.set pid { p with options }) else some s
  | .loads pid ignore =>
      match s.tracee pid with
      | none => some s
      | some p => some (s.set pid { p with ignoreLoaderSyscalls := ignore })
  | .request pid how data a =>
      match s.stoppedPtracee pid with
      | none => some s
      | some p =>
          if s.acts then
            ((p.requested how).resume s.globals a data).map fun (globals, p) =>
              { s with globals }.set pid p
          else some s
  | .detach pid _ a =>
      match s.stoppedPtracee pid with
      | none => some s
      | some p =>
          if s.acts then
            (p.detach.resume s.globals a (-1)).map fun (globals, p) => { s with globals }.set pid p
          else some s
  | .wait target options w => if s.acts then some (s.waitExit target options w) else some s
  | .woken pid =>
      match s.tracee pid with
      | none => some s
      | some p =>
          if p.tracee.waiting then
            (Ptracee.restart { p with tracee := { p.tracee with waiting := false } } 0).map
              fun (p, _) => s.set pid p
          else some s
  | .gone a =>
      if s.alive then
        (releaseAll a s.globals s.tracees).map fun (globals, tracees) =>
          { s with
            globals, tracees, alive := false, zombies := []
            ptracer := { s.ptracer with waitPid := none } }
      else some s

end PtraceSystem

end PRoot
