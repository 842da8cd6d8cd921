import PRoot.LinkedHeap
import PRoot.Paths
import PRoot.Ptracees

/-!
# The lives of tracees

How the tracees refer to each other, from the first event of a tracee until it is freed
(`tracee/tracee.c`, `ptrace/ptrace.c`, `ptrace/wait.c` and `event_loop`).  A reference is an address
in a heap, and the use of one where there is no tracee is a fault.

* `attachToPtracer`, `detachFromPtracer`, `removeTracee`, `Tracees.newChild`;
* `translatePtraceExit`: a request of `ptrace`, `translateWaitExit`: the end of a `wait`;
* `LifeEvent`, `step`: a stop of a tracee, and what PRoot does about it.
-/

namespace PRoot

/-- `as_ptracer.waits_in`. -/
inductive WaitsIn
  | DOESNT_WAIT | WAITS_IN_KERNEL | WAITS_IN_PROOT
  deriving DecidableEq, Repr

/-- `as_ptracee`: the stop that PRoot still has to handle, and the event that is pending for the
ptracer, if there are. -/
structure AsPtracee where
  ptracer : Option Nat := none
  proot : Option Stop := none
  event : Option Stop := none
  options : BitVec 64 := 0
  deriving DecidableEq, Repr

/-- A ptracee that is gone, in the list of its ptracer until this one is told. -/
structure LifeZombie where
  pid : Nat
  clone : Bool
  parent : Option Nat
  deriving DecidableEq, Repr

/-- `as_ptracer`. -/
structure AsPtracer where
  nbPtracees : Nat := 0
  zombies : List LifeZombie := []
  waitPid : Option WaitTarget := none
  waitOptions : WaitOptions := ⟨false, false, false⟩
  waitsIn : WaitsIn := .DOESNT_WAIT
  deriving DecidableEq, Repr

/-- What PRoot keeps of a tracee, as far as its relatives depend on it.  `exe` says whether the
tracee has one: PRoot has been told then who its parent is. -/
structure LifeTracee where
  pid : Nat
  running : Bool := false
  terminated : Bool := false
  parent : Option Nat := none
  clone : Bool := false
  exe : Bool := false
  seccomp : SeccompMode := .DISABLED
  sigstop : Sigstop := .SIGSTOP_IGNORED
  asPtracee : AsPtracee := {}
  asPtracer : AsPtracer := {}
  deriving DecidableEq, Repr

/-- The list of tracees. -/
abbrev Tracees := LinkedHeap LifeTracee

/-- An assertion fails, or there is no tracee where one is used. -/
inductive LifeFault
  | assertion | missing
  deriving DecidableEq, Repr

/-- What the kernel makes of an event: which processes it restarts, whether a wait status can be
written, and a signal be sent. -/
structure LifeAnswers where
  restarts : Nat → Bool
  writes : Bool
  kills : Bool

namespace LifeTracee

variable (k : LifeAnswers) (t : LifeTracee)

def ptracer : Option Nat := t.asPtracee.ptracer

/-- `restart_tracee` works. -/
def restartable : Bool := t.asPtracer.waitPid.isNone && k.restarts t.pid

/-- `restart_tracee`, with a signal other than -1. -/
def restart : LifeTracee := if t.restartable k then { t with running := true } else t

/-- `handle_tracee_event`, but for the calls of the tracee; no restart is the signal -1. -/
def handleStop (stop : Stop) : LifeTracee × Bool :=
  let t := { t with asPtracee.proot := none }
  match stop with
  | .exited | .signaled => ({ t with terminated := true }, true)
  | .sigstop =>
      if !t.exe then ({ t with sigstop := .SIGSTOP_PENDING }, false)
      else if t.sigstop = .SIGSTOP_IGNORED then ({ t with sigstop := .SIGSTOP_ALLOWED }, true)
      else (t, true)
  | _ => (t, true)

/-- A stop is handled, and the tracee restarted. -/
def pass (stop : Stop) : LifeTracee :=
  let (t, restarts) := t.handleStop stop
  if restarts then t.restart k else t

/-- The end of `translate_ptrace_exit`: `forced` says whether the request gives a signal. -/
def resume (forced : Bool) : LifeTracee :=
  match t.asPtracee.proot with
  | none => t.restart k
  | some stop =>
      let (t, restarts) := t.handleStop stop
      if forced || restarts then t.restart k else t

/-- The event of a ptracee is released. -/
def release : LifeTracee :=
  match t.asPtracee.proot with
  | some stop => t.pass k stop
  | none => if t.asPtracee.event.isSome then t.restart k else t

/-- The tracee that is `gone` is not its parent any more. -/
def orphan (gone : Nat) : LifeTracee :=
  if t.parent = some gone then { t with parent := none } else t

/-- The tracee that is `gone` is not its ptracer any more. -/
def unbind (gone : Nat) : LifeTracee :=
  if t.ptracer = some gone then
    { { t with asPtracee.ptracer := none }.release k with asPtracee := {} }
  else t

/-- What `remove_tracee` does to a relative of the tracee that is `gone`. -/
def bereave (gone : Nat) : LifeTracee := (t.orphan gone).unbind k gone

/-- A ptracer does not wait any more. -/
def goOn : LifeTracee := { t with asPtracer.waitPid := none }.restart k

/-- The ptracer is restarted if there is nothing else to wait for. -/
def wake : LifeTracee :=
  if t.asPtracer.nbPtracees = 0 ∧ t.asPtracer.waitPid.isSome then t.goOn k else t

/-- A ptracer that waits in the kernel is woken by a signal. -/
def interrupt : LifeTracee :=
  { t with sigstop := .SIGSTOP_IGNORED, asPtracer.waitsIn := .WAITS_IN_PROOT }

/-- Its ptracer may be interested in any system call. -/
def disableSeccomp : LifeTracee :=
  if t.seccomp = .ENABLED then { t with seccomp := .DISABLING } else t

end LifeTracee

/-! ## Relatives -/

section

variable (k : LifeAnswers) (s : Tracees)

/-- A tracee is used. -/
def access (i : Nat) : Except LifeFault LifeTracee :=
  match s.get i with
  | some t => .ok t
  | none => .error .missing

/-- `PTRACER.nb_ptracees++`. -/
def countPtracee (ptracer : Nat) : Except LifeFault Tracees := do
  let _ ← access s ptracer
  return s.update ptracer fun r => { r with asPtracer.nbPtracees := r.asPtracer.nbPtracees + 1 }

/-- `PTRACER.nb_ptracees--`, with its assertion. -/
def uncountPtracee (ptracer : Nat) : Except LifeFault Tracees := do
  let r ← access s ptracer
  if r.asPtracer.nbPtracees = 0 then throw .assertion
  return s.update ptracer fun r => { r with asPtracer.nbPtracees := r.asPtracer.nbPtracees - 1 }

def attachToPtracer (ptracee : Nat) (ptracer : Option Nat) : Except LifeFault Tracees :=
  let s := s.update ptracee fun t => { t with asPtracee := { ptracer } }
  match ptracer with
  | none => .error .missing
  | some ptracer => countPtracee s ptracer

def detachFromPtracer (ptracee : Nat) : Except LifeFault Tracees := do
  let t ← access s ptracee
  let s := s.update ptracee fun t => { t with asPtracee.ptracer := none }
  match t.ptracer with
  | none => throw .missing
  | some ptracer => uncountPtracee s ptracer

/-- `remove_tracee`, the destructor of a tracee. -/
def removeTracee (i : Nat) : Except LifeFault Tracees := do
  let t ← access s i
  let s := (s.free i).map fun _ relative => relative.bereave k i
  match t.ptracer with
  | none => return s
  | some ptracer =>
      if t.asPtracee.event.any Stop.over then
        let zombie : LifeZombie := ⟨t.pid, t.clone, t.parent⟩
        let s := s.update ptracer fun r =>
          { r with asPtracer.zombies := zombie :: r.asPtracer.zombies }
        let s ← uncountPtracee s ptracer
        countPtracee s ptracer
      else
        let s ← uncountPtracee s ptracer
        return s.update ptracer (·.wake k)

/-- `free_terminated_tracees`. -/
def freeTerminated : Except LifeFault Tracees :=
  (s.cells.map (·.1)).foldlM (fun s i =>
    match s.get i with
    | some t => if t.terminated then removeTracee k s i else return s
    | none => return s) s

/-- `get_tracee`, of a tracee that PRoot knows of. -/
def findTracee (current : Option Nat) (pid : Nat) : Option Nat :=
  if current.any fun i => (s.get i).any (·.pid = pid) then current
  else (s.cells.find? (·.2.pid = pid)).map (·.1)

/-- `get_tracee`, which creates the tracee where there is none. -/
def getTracee (current : Option Nat) (pid : Nat) : Tracees × Nat :=
  match findTracee s current pid with
  | some i => (s, i)
  | none => (s.alloc { pid }, s.next)

/-! ## Ptracees -/

/-- What `get_ptracee` finds. -/
inductive LifePtracee
  | zombie (z : LifeZombie)
  | tracee (i : Nat)
  deriving DecidableEq, Repr

/-- The loop of `get_ptracee` over the tracees, for one that is stopped. -/
def seekPtracee (ptracer : Nat) (target : WaitTarget) (onlyWithPevent : Bool)
    (options : WaitOptions) : List (Nat × LifeTracee) → Option Nat
  | [] => none
  | (i, t) :: rest =>
      if t.ptracer ≠ some ptracer || !target.matches t.pid || !options.expects t.clone ||
          t.running then
        seekPtracee ptracer target onlyWithPevent options rest
      else if t.asPtracee.event.isSome || !onlyWithPevent then some i
      else if target = .pid t.pid then none
      else seekPtracee ptracer target onlyWithPevent options rest

def getStoppedPtracee (ptracer : Nat) (target : WaitTarget) (onlyWithPevent : Bool)
    (options : WaitOptions) : Except LifeFault (Option LifePtracee) := do
  let r ← access s ptracer
  match r.asPtracer.zombies.find? fun z => target.matches z.pid && options.expects z.clone with
  | some z => return some (.zombie z)
  | none => return (seekPtracee ptracer target onlyWithPevent options s.cells).map .tracee

/-- `update_wait_status`: the end of a child is left to the kernel. -/
def updateWaitStatus (ptracer : Nat) : LifePtracee → Except LifeFault Tracees
  | .zombie z =>
      if z.parent = some ptracer || k.writes then do
        let s ← uncountPtracee s ptracer
        return s.update ptracer fun r =>
          { r with asPtracer.zombies := r.asPtracer.zombies.erase z }
      else return s
  | .tracee i => do
      let t ← access s i
      if t.ptracer = t.parent ∧ t.asPtracee.event.any Stop.over then detachFromPtracer s i
      else if k.writes then return s.update i fun t => { t with asPtracee.event := none }
      else return s

/-- The end of `handle_ptracee_event`: the event is for the ptracer, which is told about it if it
waits for it.  The result says whether the ptracee is kept stopped. -/
def tellPtracer (ptracee ptracer : Nat) (stop : Stop) : Except LifeFault (Tracees × Bool) := do
  let s := s.update ptracee fun t => { t with asPtracee.event := some stop }
  let r ← access s ptracer
  let t ← access s ptracee
  if r.asPtracer.waitPid.any (·.matches t.pid) && r.asPtracer.waitOptions.expects t.clone then
    let s ← updateWaitStatus k s ptracer (.tracee ptracee)
    let s := s.update ptracer (·.goOn k)
    return (s, !stop.over && k.restarts r.pid)
  else return (s, !stop.over)

/-! ## Children -/

/-- The flags of `clone` that the life of a child depends on: `CLONE_PARENT`, `CLONE_THREAD`,
`CLONE_PTRACE` and `CLONE_VFORK`. -/
def cloneParent : BitVec 64 := 0x8000
def cloneThread : BitVec 64 := 0x10000
def clonePtrace : BitVec 64 := 0x2000
def cloneVfork : BitVec 64 := 0x4000

/-- The option of `ptrace` for the event that `clone` makes: `PTRACE_O_TRACEFORK`,
`PTRACE_O_TRACEVFORK` or `PTRACE_O_TRACECLONE`. -/
def ptraceOption (flags : BitVec 64) : BitVec 64 :=
  if flags = 0 then 0x2
  else if flags &&& 0xFF = 17 then 0x2
  else if flags &&& cloneVfork ≠ 0 then 0x4
  else 0x8

/-- The options that are inherited: all but `PTRACE_O_TRACESECCOMP` and later ones. -/
def inheritedOptions : BitVec 64 := 0x7F

/-- What a child has from its parent. -/
def LifeTracee.adopt (p : LifeTracee) (parent : Nat) (flags : BitVec 64) (c : LifeTracee) :
    LifeTracee :=
  { c with
    seccomp := p.seccomp
    parent := if flags &&& cloneParent ≠ 0 then p.parent else some parent
    clone := flags &&& cloneThread ≠ 0
    exe := p.exe }

/-- A child is traced by the ptracer of its parent, if it inherits this one. -/
def inheritPtracer (parent : LifeTracee) (child : Nat) (flags : BitVec 64) :
    Except LifeFault Tracees :=
  if parent.ptracer.isSome ∧
      (ptraceOption flags &&& parent.asPtracee.options ≠ 0 ∨ flags &&& clonePtrace ≠ 0) then do
    let s ← attachToPtracer s child parent.ptracer
    return s.update child fun c =>
      { c with asPtracee.options := parent.asPtracee.options &&& inheritedOptions }
  else return s

/-- The end of `new_child`: a child that was stopped until now. -/
def startChild (child : Nat) : Except LifeFault Tracees := do
  let c ← access s child
  if c.sigstop = .SIGSTOP_PENDING then
    let s := s.update child fun c => { c with sigstop := .SIGSTOP_ALLOWED }
    match c.ptracer with
    | none => return s.update child (·.restart k)
    | some ptracer =>
        let (s, keeps) ← tellPtracer k s child ptracer .sigstop
        let s := s.update child fun c => { c with asPtracee.proot := none }
        if keeps then return s
        else return s.update child (·.restart k)
  else return s

/-- `new_child`, with the flags that are read from the registers of the parent. -/
def Tracees.newChild (parent pid : Nat) (flags : BitVec 64) : Except LifeFault Tracees := do
  let (s, child) := getTracee s (some parent) pid
  let c ← access s child
  if c.exe || c.parent.isSome || c.ptracer.isSome then throw .assertion
  let p ← access s parent
  let s := s.update child (p.adopt parent flags)
  let s ← inheritPtracer s p child flags
  startChild k s child

/-! ## Requests -/

/-- A request of `ptrace`.  `resume` stands for `PTRACE_SYSCALL`, `PTRACE_CONT`,
`PTRACE_SINGLESTEP` and `PTRACE_SINGLEBLOCK`, and `data` for the requests that are about the memory,
the registers or the signal of the ptracee, and for unsupported ones; what these and `PTRACE_KILL`
come to is up to the kernel. -/
inductive PtraceRequest
  | TRACEME
  | ATTACH
  | resume (forced : Bool)
  | DETACH
  | KILL (result : Except Errno Unit)
  | SETOPTIONS (options : BitVec 64)
  | data (result : Except Errno Unit)

/-- `PTRACE_TRACEME`. -/
def traceme (tracee : Nat) : Except LifeFault (Tracees × Except Errno Unit) := do
  let t ← access s tracee
  if t.ptracer.isSome ∨ t.parent = some tracee then return (s, .error .EPERM)
  let s ← attachToPtracer s tracee t.parent
  match t.parent with
  | none => throw .missing
  | some ptracer =>
      let r ← access s ptracer
      let s :=
        if r.asPtracer.waitsIn = .WAITS_IN_KERNEL ∧ k.kills then s.update ptracer (·.interrupt)
        else s
      let s := s.update tracee (·.disableSeccomp)
      return (s, .ok ())

/-- `PTRACE_ATTACH`; `PTRACE_SEIZE` is not supported. -/
def attach (ptracer : Nat) (pid : WaitTarget) :
    Except LifeFault (Tracees × Except Errno Unit) :=
  match pid with
  | .any => return (s, .error .ESRCH)
  | .pid pid =>
      match findTracee s (some ptracer) pid with
      | none => return (s, .error .ESRCH)
      | some ptracee => do
          let t ← access s ptracee
          if t.ptracer.isSome ∨ ptracee = ptracer then return (s, .error .EPERM)
          let s ← attachToPtracer s ptracee (some ptracer)
          return (s, .ok ())

/-- A request about a ptracee that is stopped. -/
def requestPtracee (ptracee : Nat) :
    PtraceRequest → Except LifeFault (Tracees × Except Errno Unit)
  | .resume forced => return (s.update ptracee (·.resume k forced), .ok ())
  | .DETACH => do
      let s ← detachFromPtracer s ptracee
      return (s.update ptracee (·.resume k false), .ok ())
  | .KILL result => return (s.update ptracee (·.resume k false), result)
  | .SETOPTIONS options =>
      return (s.update ptracee fun t => { t with asPtracee.options := options }, .ok ())
  | .data result => return (s, result)
  | .TRACEME | .ATTACH => return (s, .error .ESRCH)

/-- `translate_ptrace_exit`: the tracees afterwards, and the result of the request. -/
def translatePtraceExit (tracee : Nat) (request : PtraceRequest) (pid : WaitTarget) :
    Except LifeFault (Tracees × Except Errno Unit) :=
  match request with
  | .TRACEME => traceme k s tracee
  | .ATTACH => attach s tracee pid
  | request => do
      let found ← getStoppedPtracee s tracee pid false ⟨true, false, false⟩
      match found with
      | none | some (.zombie _) => return (s, .error .ESRCH)
      | some (.tracee ptracee) =>
          let t ← access s ptracee
          if t.ptracer ≠ some tracee ∨ pid = .any then return (s, .error .ESRCH)
          requestPtracee k s ptracee request

/-- `translate_wait_enter`. -/
def translateWaitEnter (ptracer : Nat) (target : WaitTarget) : Except LifeFault Tracees := do
  let r ← access s ptracer
  let s := s.update ptracer fun r => { r with asPtracer.waitsIn := .WAITS_IN_KERNEL }
  let cancelled := s.update ptracer fun r => { r with asPtracer.waitsIn := .WAITS_IN_PROOT }
  if r.asPtracer.nbPtracees = 0 then return s
  match target with
  | .any => return cancelled
  | .pid pid =>
      match findTracee s (some ptracer) pid with
      | none => return s
      | some ptracee =>
          let t ← access s ptracee
          return if t.ptracer = some ptracer then cancelled else s

/-- `translate_wait_exit`, where PRoot emulates the `wait`. -/
def translateWaitExit (ptracer : Nat) (target : WaitTarget) (options : WaitOptions) :
    Except LifeFault Tracees := do
  let r ← access s ptracer
  if r.asPtracer.waitsIn ≠ .WAITS_IN_PROOT then return s
  let s := s.update ptracer fun r => { r with asPtracer.waitsIn := .DOESNT_WAIT }
  let found ← getStoppedPtracee s ptracer target true options
  match found with
  | some ptracee => updateWaitStatus k s ptracer ptracee
  | none =>
      if r.asPtracer.nbPtracees = 0 || options.wnohang then return s
      else return s.update ptracer fun r =>
        { r with asPtracer.waitPid := some target, asPtracer.waitOptions := options }

/-! ## Events -/

/-- What a tracee stops for: the creation of a child, the end of a `ptrace`, the start or the end
of a `wait`, or something that does not concern its relatives. -/
inductive LifeStop
  | plain (stop : Stop)
  | child (pid : Nat) (flags : BitVec 64)
  | ptrace (request : PtraceRequest) (pid : WaitTarget)
  | waitEnter (target : WaitTarget)
  | waitExit (target : WaitTarget) (options : WaitOptions)

/-- A stop that `waitpid` reports.  `passed` says whether a ptracer is told about it, as its
options have it; a `wait` that PRoot lets start later, when the ptracer restarts the tracee, is an
event of its own. -/
structure LifeEvent where
  pid : Nat
  stop : LifeStop
  passed : Bool
  answers : LifeAnswers

/-- The wait status of a stop. -/
def LifeStop.status : LifeStop → Stop
  | .plain stop => stop
  | .child .. => .clone
  | .ptrace .. | .waitEnter _ | .waitExit .. => .syscall

/-- PRoot handles the stop before the ptracer is told. -/
def LifeStop.first : LifeStop → Bool
  | .child .. | .ptrace .. | .waitExit .. => true
  | .plain _ | .waitEnter _ => false

/-- What the event loop handles after it was handled first, when the ptracer cannot be restarted:
the end of a system call is taken for the start of one. -/
def LifeStop.again : LifeStop → LifeStop
  | .ptrace .. | .waitExit .. => .plain .syscall
  | stop => stop

/-- `handle_tracee_event`.  The calls of a tracee without `exe` are not translated. -/
def handleEvent (i : Nat) : LifeStop → Except LifeFault (Tracees × Bool)
  | .plain stop => do
      let t ← access s i
      return (s.update i fun t => (t.handleStop stop).1, (t.handleStop stop).2)
  | .child pid flags => do
      let s ← Tracees.newChild k s i pid flags
      return (s, true)
  | .ptrace request pid => do
      let t ← access s i
      if !t.exe then return (s, true)
      let (s, _) ← translatePtraceExit k s i request pid
      return (s, true)
  | .waitEnter target => do
      let t ← access s i
      if !t.exe then return (s, true)
      let s ← translateWaitEnter s i target
      return (s, true)
  | .waitExit target options => do
      let t ← access s i
      if !t.exe then return (s, true)
      let s ← translateWaitExit k s i target options
      return (s, true)

/-- The event loop handles a stop, and restarts the tracee. -/
def loopEvent (i : Nat) (stop : LifeStop) : Except LifeFault Tracees := do
  let (s, restarts) ← handleEvent k s i stop
  if restarts then return s.update i (·.restart k) else return s

/-- `handle_ptracee_event`, of a stop that the ptracer is told about. -/
def handlePtraceeStop (i ptracer : Nat) (stop : LifeStop) :
    Except LifeFault (Tracees × Bool) :=
  if stop.first then do
    let (s, _) ← handleEvent k s i stop
    tellPtracer k s i ptracer stop.status
  else
    tellPtracer k (s.update i fun t => { t with asPtracee.proot := some stop.status }) i ptracer
      stop.status

/-- What precedes the handling of an event: the terminated tracees are freed, and the tracee of the
event is found or created. -/
def arrive (pid : Nat) : Except LifeFault (Tracees × Nat) := do
  let s ← freeTerminated k s
  let (s, i) := getTracee s none pid
  return (s.update i fun t => { t with running := false }, i)

/-- The handling of an event. -/
def dispatch (i : Nat) (e : LifeEvent) : Except LifeFault Tracees := do
  let t ← access s i
  match t.ptracer with
  | none => loopEvent k s i e.stop
  | some ptracer =>
      if !e.passed then loopEvent k s i e.stop
      else
        let (s, keeps) ← handlePtraceeStop k s i ptracer e.stop
        if keeps then return s else loopEvent k s i e.stop.again

end

/-- A turn of `event_loop`. -/
def step (s : Tracees) (e : LifeEvent) : Except LifeFault Tracees := do
  let (s, i) ← arrive e.answers s e.pid
  dispatch e.answers s i e

/-- `launch_process`: the first tracee, which has no parent. -/
def launched (pid : Nat) : Tracees where
  next := 1
  cells := [(0, { pid, exe := true })]
  below := by simp
  newest := List.pairwise_singleton _ _

end PRoot
