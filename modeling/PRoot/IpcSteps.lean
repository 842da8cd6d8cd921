import PRoot.IpcSystem

/-!
# What an event of System V IPC does

One case per way an event is handled, so that later proofs do not look into
`IpcSystem.step` again.

* `IpcSystem.callOf`, `IpcSystem.retryOf`: the call, or the second look for a message, that is
  carried out at an event;
* `step_spec`: the cases of `IpcSystem.step`.
-/

namespace PRoot

/-- The thread something happens to. -/
def IpcEvent.pid : IpcEvent → Nat
  | .enter pid .. | .leave pid .. | .sigsys pid _ | .signal pid _ | .fork pid .. | .exec pid
  | .exit pid => pid

namespace IpcSystem

/-- A thread may make a call of its own. -/
def mayCall (t : IpcThread) : Bool := !t.inSyscall && t.next = none

/-- The call that is carried out at an event. -/
def callOf (sys : IpcSystem) : IpcEvent → Option (IpcThread × IpcRequest)
  | .enter pid (.ipc call) _ =>
      (sys.thread pid).bind fun t =>
        if mayCall t && t.chain.isNone && t.waitState = .WSTATE_NOT_WAITING then some (t, call)
        else none
  | .sigsys pid (.ipc call) =>
      (sys.thread pid).bind fun t => if mayCall t then some (t, call) else none
  | _ => none

/-- The thread that gets at an event what it was woken for, without another system call. -/
def answeredOf (sys : IpcSystem) : IpcEvent → Option (IpcThread × StopAnswers)
  | .enter pid call answers =>
      (sys.thread pid).bind fun t =>
        if !t.inSyscall && asPlanned t call && t.chain.isNone &&
            t.waitState = .WSTATE_RESTARTED_INTO_PPOLL_CANCELED then some (t, answers)
        else none
  | .leave pid _ answers =>
      (sys.thread pid).bind fun t =>
        if t.inSyscall && t.chain.isNone && !t.chainState.inShmat &&
            (t.waitState = .WSTATE_SIGNALED_PPOLL || t.waitState = .WSTATE_ENTERED_GETPID) then
          some (t, answers)
        else none
  | _ => none

/-- The thread looks for a message again. -/
def retries (t : IpcThread) : Bool :=
  t.chainState = .CSTATE_MSGRCV_RETRY && t.config.statusAfterWait matches .error .EAGAIN

/-- The second look for a message that is made at an event. -/
def retryOf (sys : IpcSystem) (event : IpcEvent) : Option (IpcThread × StopAnswers) :=
  (sys.answeredOf event).filter fun (t, _) => retries t

/-! ## Threads -/

section

variable (sys : IpcSystem) (pid : Nat) (f : IpcThread → IpcThread)

@[simp] theorem modify_queues : (sys.modify pid f).queues = sys.queues := rfl
@[simp] theorem modify_requests : (sys.modify pid f).requests = sys.requests := rfl

theorem thread_mem {sys : IpcSystem} {pid : Nat} {t : IpcThread} (h : sys.thread pid = some t) :
    t ∈ sys.threads ∧ t.config.pid = pid := by
  have hpid := List.find?_some h
  exact ⟨List.mem_of_find?_eq_some h, by simpa using hpid⟩

end

/-! ## Steps of a `shmat` -/

/-- What a step of its `shmat` makes of a thread: the chain is over, or goes on. -/
structure ChainStep (u u' : IpcThread) : Prop where
  config : u'.config = u.config
  process : u'.process = u.process
  msgrcv : u'.msgrcv = u.msgrcv
  next : u'.next = u.next
  inSyscall : u'.inSyscall = u.inSyscall
  goesOn : u'.chainState = .CSTATE_NOT_CHAINED ∨
    u'.chainState.pastSocket = true ∧ ∃ call calls, u'.chain = some (call :: calls)

theorem registerChained_chain (t : IpcThread) (call : PlannedCall) :
    ∃ call' calls, (t.registerChained call).chain = some (call' :: calls) := by
  cases hchain : t.chain.getD [] with
  | nil => exact ⟨call, [], by rw [IpcThread.registerChained, hchain]; rfl⟩
  | cons call' calls => exact ⟨call', calls ++ [call], by rw [IpcThread.registerChained, hchain]; rfl⟩

/-- **The steps of a `shmat`**: it fails, or registers its next call, or is over and its entry gets
its place. -/
inductive ShmatStep (sys : IpcSystem) (t : IpcThread) (result : BitVec 64) : IpcSystem → Prop
  | fails {f : IpcThread → IpcThread} {sys' : IpcSystem}
      (hf : ∀ u, ChainStep u { f u with chainState := .CSTATE_NOT_CHAINED })
      (hnot : t.chainState ≠ .CSTATE_SHMAT_MMAP)
      (hfail : failShmat (sys.modify t.config.pid f) t = some sys') : ShmatStep sys t result sys'
  | goes {f : IpcThread → IpcThread} {asked : IpcSystem}
      (hsys : asked = sys ∨ ∃ fd, asked = sys.request (.SHMHELPER_DISTRIBUTE fd))
      (hf : ∀ u, ChainStep u (f u)) (hpast : ∀ u, (f u).chainState.pastSocket = true)
      (hnot : t.chainState ≠ .CSTATE_SHMAT_MMAP) :
      ShmatStep sys t result (asked.modify t.config.pid f)
  | maps {f : IpcThread → IpcThread} {mapping : ShmMapping} {size : BitVec 64} {sys' : IpcSystem}
      (hmapping : sys.findPendingMapping t.process t.config.waitingObjectIndex = some mapping)
      (hf : ∀ u, ChainStep u (f u)) (hover : ∀ u, (f u).chainState = .CSTATE_NOT_CHAINED)
      (hmmap : t.chainState = .CSTATE_SHMAT_MMAP)
      (hwoken : ((sys.placeMapping mapping result size).modify t.config.pid f).wakePendingShmat =
        some sys') : ShmatStep sys t result sys'

variable {result : BitVec 64}

theorem shmatChain_step {sys sys' : IpcSystem} {t : IpcThread} {answers : StopAnswers}
    {goesOn : Bool} (h : shmatChain sys t result answers = some (sys', goesOn)) :
    ShmatStep sys t result sys' := by
  have hfails : ∀ {b : Bool} {f : IpcThread → IpcThread},
      (∀ u, ChainStep u { f u with chainState := .CSTATE_NOT_CHAINED }) →
      t.chainState ≠ .CSTATE_SHMAT_MMAP →
      (failShmat (sys.modify t.config.pid f) t).map (·, b) = some (sys', goesOn) →
      ShmatStep sys t result sys' := fun hf hnot h => by
    obtain ⟨sys₁, hfail, heq⟩ := Option.map_eq_some_iff.mp h
    cases heq
    exact .fails hf hnot hfail
  have hclose : t.chainState ≠ .CSTATE_SHMAT_MMAP →
      (failCloseSocket sys t).map (·, true) = some (sys', goesOn) →
      ShmatStep sys t result sys' := fun hnot h => by
    refine hfails ?_ hnot h
    exact fun _ => ⟨rfl, rfl, rfl, rfl, rfl, .inl rfl⟩
  unfold shmatChain at h
  dsimp only at h
  split at h
  · cases h
  · split at h
    case h_1 hstate =>
      have hnot : t.chainState ≠ .CSTATE_SHMAT_MMAP := by rw [hstate]; nofun
      split at h
      · refine hfails ?_ hnot h
        exact fun _ => ⟨rfl, rfl, rfl, rfl, rfl, .inl rfl⟩
      · cases h
        exact .goes (.inl rfl)
          (fun _ => ⟨rfl, rfl, rfl, rfl, rfl, .inr ⟨rfl, registerChained_chain _ _⟩⟩)
          (fun _ => rfl) hnot
    case h_2 hstate =>
      have hnot : t.chainState ≠ .CSTATE_SHMAT_MMAP := by rw [hstate]; nofun
      split at h
      · exact hclose hnot h
      · cases h
        exact .goes (.inr ⟨_, rfl⟩)
          (fun _ => ⟨rfl, rfl, rfl, rfl, rfl, .inr ⟨rfl, registerChained_chain _ _⟩⟩)
          (fun _ => rfl) hnot
    case h_3 hstate =>
      have hnot : t.chainState ≠ .CSTATE_SHMAT_MMAP := by rw [hstate]; nofun
      split at h
      · exact hclose hnot h
      · split at h
        · exact hclose hnot h
        · cases h
          exact .goes (.inl rfl)
            (fun _ => ⟨rfl, rfl, rfl, rfl, rfl, .inr ⟨rfl, registerChained_chain _ _⟩⟩)
            (fun _ => rfl) hnot
    case h_4 hstate =>
      obtain ⟨mapping, hmapping, h⟩ := Option.bind_eq_some_iff.mp h
      obtain ⟨sys₁, hwoken, heq⟩ := Option.bind_eq_some_iff.mp h
      cases heq
      refine .maps hmapping ?_ ?_ hstate hwoken
      · exact fun _ => ⟨rfl, rfl, rfl, rfl, rfl, .inl rfl⟩
      · exact fun _ => rfl
    case h_5 => cases h

/-! ## What the calls leave alone -/

section Frame

variable (sys : IpcSystem)

/-- Two systems that differ in their segments only. -/
structure SameButShms (sys sys' : IpcSystem) : Prop where
  queues : sys'.queues = sys.queues
  semaphores : sys'.semaphores = sys.semaphores
  threads : sys'.threads = sys.threads

theorem SameButShms.trans {sys sys' sys'' : IpcSystem} (h : SameButShms sys sys')
    (h' : SameButShms sys' sys'') : SameButShms sys sys'' :=
  ⟨h'.queues.trans h.queues, h'.semaphores.trans h.semaphores, h'.threads.trans h.threads⟩

theorem freeMapping_same (mapping : ShmMapping) : SameButShms sys (sys.freeMapping mapping) := by
  unfold freeMapping
  dsimp only
  split <;> exact ⟨rfl, rfl, rfl⟩

theorem removeMappings_same (process : Nat) : SameButShms sys (sys.removeMappings process) := by
  unfold removeMappings
  generalize sys.mappings.filter (·.process = process) = mappings
  induction mappings generalizing sys with
  | nil => exact ⟨rfl, rfl, rfl⟩
  | cons mapping mappings ih => exact (freeMapping_same sys mapping).trans (ih _)

theorem shmctl_same (shmid cmd : BitVec 64) (written : Except Errno Unit) :
    SameButShms sys (sys.shmctl shmid cmd written).1 := by
  unfold shmctl
  split
  · exact ⟨rfl, rfl, rfl⟩
  · split
    · split <;> exact ⟨rfl, rfl, rfl⟩
    · exact ⟨rfl, rfl, rfl⟩
    · exact ⟨rfl, rfl, rfl⟩

/-- Two systems that have the same queues and semaphores. -/
structure SameMessages (sys sys' : IpcSystem) : Prop where
  queues : sys'.queues = sys.queues
  semaphores : sys'.semaphores = sys.semaphores

theorem SameMessages.trans {sys sys' sys'' : IpcSystem} (h : SameMessages sys sys')
    (h' : SameMessages sys' sys'') : SameMessages sys sys'' :=
  ⟨h'.queues.trans h.queues, h'.semaphores.trans h.semaphores⟩

theorem SameButShms.messages {sys sys' : IpcSystem} (h : SameButShms sys sys') :
    SameMessages sys sys' := ⟨h.queues, h.semaphores⟩

variable {sys}

theorem wakePendingShmat_same {sys' : IpcSystem} (h : sys.wakePendingShmat = some sys') :
    SameMessages sys sys' := by
  obtain ⟨threads, -, rfl⟩ := Option.map_eq_some_iff.mp h
  exact ⟨rfl, rfl⟩

theorem failShmat_same {t : IpcThread} {sys' : IpcSystem} (h : failShmat sys t = some sys') :
    SameMessages sys sys' := by
  obtain ⟨mapping, -, hwoken⟩ := Option.bind_eq_some_iff.mp h
  refine .trans ?_ ((freeMapping_same _ mapping).messages.trans (wakePendingShmat_same hwoken))
  exact ⟨rfl, rfl⟩

theorem shmatChain_same {t : IpcThread} {answers : StopAnswers} {sys' : IpcSystem} {goesOn : Bool}
    (h : shmatChain sys t result answers = some (sys', goesOn)) : SameMessages sys sys' := by
  cases shmatChain_step h with
  | fails hf hnot hfail =>
      refine .trans ?_ (failShmat_same hfail)
      exact ⟨rfl, rfl⟩
  | goes hsys => rcases hsys with rfl | ⟨fd, rfl⟩ <;> exact ⟨rfl, rfl⟩
  | maps hmapping hf hover hmmap hwoken =>
      refine .trans ?_ (wakePendingShmat_same hwoken)
      exact ⟨rfl, rfl⟩

theorem shmat_same (t : IpcThread) (shmid : BitVec 64) :
    SameMessages sys (sys.shmat t shmid).1 := by
  unfold shmat
  split
  · exact ⟨rfl, rfl⟩
  · dsimp only
    split <;> exact ⟨rfl, rfl⟩

theorem shmdt_same (t : IpcThread) (addr : BitVec 64) :
    SameMessages sys (sys.shmdt t addr).1 := by
  unfold shmdt
  split
  · exact ⟨rfl, rfl⟩
  · refine .trans ?_ (freeMapping_same _ _).messages
    exact ⟨rfl, rfl⟩

theorem exit_same (t : IpcThread) : SameMessages sys (sys.exit t) := by
  unfold exit
  dsimp only
  split
  · exact ⟨rfl, rfl⟩
  · refine .trans ?_ (removeMappings_same _ _).messages
    exact ⟨rfl, rfl⟩

theorem exit_threads (t : IpcThread) :
    (sys.exit t).threads = sys.threads.filter (·.config.pid ≠ t.config.pid) := by
  unfold exit
  dsimp only
  split
  · rfl
  · exact (removeMappings_same _ _).threads

theorem inheritChild_same (t : IpcThread) (child : Nat) (cloneThread : Bool) :
    SameMessages sys (sys.inheritChild t child cloneThread) := by
  unfold inheritChild
  split <;> exact ⟨rfl, rfl⟩

end Frame

theorem retries_iff (t : IpcThread) : retries t = true ↔
    t.chainState = .CSTATE_MSGRCV_RETRY ∧ t.config.statusAfterWait = .error .EAGAIN := by
  rw [retries, Bool.and_eq_true, decide_eq_true_iff]
  refine and_congr_right fun _ => ?_
  split
  · rename_i h
    exact iff_of_true rfl h
  · rename_i h
    exact iff_of_false Bool.false_ne_true h

/-- The system after the second look of a thread, and what the look gives.  A thread that would
have to wait again gives up. -/
def lookAgain (sys : IpcSystem) (t : IpcThread) (answers : StopAnswers) :
    IpcSystem × Except Errno (BitVec 32) :=
  sys.doMsgrcv t.config.pid t.config.waitingObjectIndex t.msgrcv answers.written answers.now

/-- How a thread that was woken gets its status. -/
inductive StatusSpec (sys : IpcSystem) (t : IpcThread) (answers : StopAnswers) :
    IpcSystem × Except Errno (BitVec 32) → Prop
  | kept (hchain : t.chainState ≠ .CSTATE_MSGRCV_RETRY) :
      StatusSpec sys t answers (sys, t.config.statusAfterWait)
  | closed (hchain : t.chainState = .CSTATE_MSGRCV_RETRY)
      (hstatus : t.config.statusAfterWait ≠ .error .EAGAIN) :
      StatusSpec sys t answers
        (sys.modify t.config.pid fun t => { t with chainState := .CSTATE_NOT_CHAINED },
          t.config.statusAfterWait)
  | again (hretries : retries t = true)
      (hlive : Slot.live sys.queues t.config.waitingObjectIndex = true)
      {status : Except Errno (BitVec 32)}
      (hgives : status = (sys.lookAgain t answers).2 ∨ status = .error .EINTR) :
      StatusSpec sys t answers
        ((sys.lookAgain t answers).1.modify t.config.pid fun t =>
            { t.setWaitReason .WR_NOT_WAITING with chainState := .CSTATE_NOT_CHAINED },
          status)

/-- The status of a thread that was woken, unless its queue is gone that it is to look into
again. -/
theorem statusOf_spec {sys : IpcSystem} {t : IpcThread} {answers : StopAnswers}
    {out : IpcSystem × Except Errno (BitVec 32)} (h : sys.statusOf t answers = some out) :
    StatusSpec sys t answers out := by
  unfold statusOf msgrcvRetry at h
  split at h
  · rename_i hchain
    split at h
    · rename_i hstatus
      dsimp only at h
      split at h
      · rename_i hlive
        cases h
        refine .again ((retries_iff t).mpr ⟨hchain, hstatus⟩) hlive ?_
        split
        · exact Or.inr rfl
        · exact Or.inl rfl
      · cases h
    · rename_i hstatus
      cases h
      exact .closed hchain hstatus
  · rename_i hchain
    cases h
    exact .kept hchain

theorem statusOf_eq_none_iff {sys : IpcSystem} {t : IpcThread} {answers : StopAnswers} :
    sys.statusOf t answers = none ↔
      retries t = true ∧ Slot.live sys.queues t.config.waitingObjectIndex = false := by
  rw [retries_iff]
  unfold statusOf msgrcvRetry
  split
  · rename_i hchain
    split
    · rename_i hstatus
      dsimp only
      split
      · rename_i hlive
        simp [hlive]
      · rename_i hlive
        simp [hchain, hstatus, hlive]
    · rename_i hstatus
      exact iff_of_false (by simp) fun h => hstatus h.1.2
  · rename_i hchain
    simp [hchain]

/-! ## The cases -/

/-- What becomes of a thread at a stop at which nothing else happens. -/
inductive Moves (t : IpcThread) : IpcEvent → (IpcThread → IpcThread) → Prop
  /-- It enters a system call that is not one of ours. -/
  | entered {pid : Nat} {call : EnteredCall} {answers : StopAnswers} (hout : t.inSyscall = false)
      (hplanned : asPlanned t call = true) (hwait : t.waitState = .WSTATE_NOT_WAITING)
      (hother : t.chain = none → ∀ c, call ≠ .ipc c) (hexecve : t.chain = none → ∀ b, call ≠ .execve b) :
      Moves t (.enter pid call answers) fun t => { t with inSyscall := true }
  /-- It enters the `ppoll` it was woken in, before the rest of its chain. -/
  | enteredWoken {pid : Nat} {call : EnteredCall} {answers : StopAnswers}
      (hout : t.inSyscall = false) (hplanned : asPlanned t call = true)
      (hchain : t.chain.isSome = true) (hwait : t.waitState = .WSTATE_RESTARTED_INTO_PPOLL_CANCELED) :
      Moves t (.enter pid call answers) fun t =>
        { t.setWaitState .WSTATE_SIGNALED_PPOLL with inSyscall := true }
  /-- It enters the `ppoll` it waits in. -/
  | enteredPpoll {pid : Nat} {call : EnteredCall} {answers : StopAnswers}
      (hout : t.inSyscall = false) (hplanned : asPlanned t call = true) (hchain : t.chain = none)
      (hppoll : call.isPpoll = true) (hwait : t.waitState = .WSTATE_RESTARTED_INTO_PPOLL) :
      Moves t (.enter pid call answers) fun t =>
        { t.setWaitState .WSTATE_ENTERED_PPOLL with inSyscall := true }
  /-- A system call ends that nothing was expected of. -/
  | left {pid : Nat} {result : BitVec 64} {answers : StopAnswers} (hin : t.inSyscall = true)
      (hchain : t.chain = none) (hshmat : t.chainState.inShmat = false)
      (hwait : t.waitState = .WSTATE_NOT_WAITING) :
      Moves t (.leave pid result answers) fun t =>
        chainNext (if t.next = some .void then t else { t with result })
  /-- The `ppoll` ends before the thread was woken. -/
  | waitEnded {pid : Nat} {result : BitVec 64} {answers : StopAnswers} (hin : t.inSyscall = true)
      (hchain : t.chain = none) (hshmat : t.chainState.inShmat = false)
      (hwait : t.waitState = .WSTATE_ENTERED_PPOLL) (hreason : t.waitReason ≠ .WR_NOT_WAITING) :
      Moves t (.leave pid result answers) fun t =>
        chainNext { endWait t with result := ppollResult result }
  /-- A system call of a chain ends. -/
  | leftChained {pid : Nat} {result : BitVec 64} {answers : StopAnswers} (hin : t.inSyscall = true)
      (hchain : t.chain.isSome = true) (hshmat : t.chainState.inShmat = false)
      (hwait : t.waitState = .WSTATE_NOT_WAITING) :
      Moves t (.leave pid result answers) fun t => chainNext { t with result }
  /-- The `ppoll` ends that the thread was woken in, before the rest of its chain. -/
  | leftWoken {pid : Nat} {result : BitVec 64} {answers : StopAnswers} (hin : t.inSyscall = true)
      (hchain : t.chain.isSome = true) (hwait : t.waitState = .WSTATE_SIGNALED_PPOLL) :
      Moves t (.leave pid result answers) fun t =>
        chainNext ({ t with result }.setWaitState .WSTATE_NOT_WAITING)
  /-- A handler of a signal takes the place of the next system call. -/
  | handled {pid : Nat} {putOff : Bool} (hout : t.inSyscall = false)
      (hnow : (putOff && (t.chain.isSome || t.deferring)) = false) :
      Moves t (.signal pid putOff) fun t => { t with next := none }

/-- What becomes of a thread that gets what it was woken for. -/
inductive Answers (status : Except Errno (BitVec 32)) :
    IpcEvent → (IpcThread → IpcThread) → Prop
  | enter {pid : Nat} {call : EnteredCall} {answers : StopAnswers} :
      Answers status (.enter pid call answers) fun t =>
        { t.setWaitState .WSTATE_NOT_WAITING with
          inSyscall := true, next := some .void, result := statusWord status }
  | leave {pid : Nat} {result : BitVec 64} {answers : StopAnswers} :
      Answers status (.leave pid result answers) fun t =>
        chainNext { t.setWaitState .WSTATE_NOT_WAITING with result := statusWord status }

/-- **What an event does.** -/
inductive StepSpec (sys : IpcSystem) : IpcEvent → IpcSystem → Prop
  | stays {event : IpcEvent} (hcall : sys.callOf event = none)
      (hanswered : sys.answeredOf event = none) : StepSpec sys event sys
  | called {event : IpcEvent} {t : IpcThread} {call : IpcRequest} {fromSigsys : Bool}
      {sys' : IpcSystem} (hthread : sys.thread event.pid = some t)
      (hcall : sys.callOf event = some (t, call)) (hanswered : sys.answeredOf event = none)
      (hfree : mayCall t = true) (hchain : fromSigsys = true ∨ t.chain = none)
      (hdone : sys.syscallCommon t call fromSigsys = some sys') : StepSpec sys event sys'
  | moved {event : IpcEvent} {t : IpcThread} {f : IpcThread → IpcThread}
      (hthread : sys.thread event.pid = some t) (hcall : sys.callOf event = none)
      (hanswered : sys.answeredOf event = none) (hmoves : Moves t event f) :
      StepSpec sys event (sys.modify event.pid f)
  | execve {pid : Nat} {t : IpcThread} {prepared : Bool} {answers : StopAnswers}
      (hthread : sys.thread pid = some t) (hfree : mayCall t = true) (hchain : t.chain = none)
      (hwait : t.waitState = .WSTATE_NOT_WAITING) :
      StepSpec sys (.enter pid (.execve prepared) answers)
        (let sys := sys.modify pid fun t => { t with inSyscall := true }
         if prepared then sys.removeMappings t.process else sys)
  | answered {event : IpcEvent} {t : IpcThread} {answers : StopAnswers}
      {sys' : IpcSystem} {status : Except Errno (BitVec 32)} {f : IpcThread → IpcThread}
      (hthread : sys.thread event.pid = some t) (hcall : sys.callOf event = none)
      (hanswered : sys.answeredOf event = some (t, answers))
      (hstatus : sys.statusOf t answers = some (sys', status)) (hanswers : Answers status event f) :
      StepSpec sys event (sys'.modify event.pid f)
  | shmatStarted {pid : Nat} {t : IpcThread} {result : BitVec 64} {answers : StopAnswers}
      {sys' : IpcSystem} {goesOn : Bool} (hthread : sys.thread pid = some t)
      (hin : t.inSyscall = true) (hchain : t.chain = none)
      (hshmat : t.chainState = .CSTATE_SHMAT_SOCKET)
      (hdone : sys.shmatChain t result answers = some (sys', goesOn)) :
      StepSpec sys (.leave pid result answers)
        ((sys'.modify pid fun t =>
            { t with result := if goesOn then result else statusWord (.error .ENOMEM) }).modify pid
          chainNext)
  | shmatChained {pid : Nat} {t : IpcThread} {result : BitVec 64} {answers : StopAnswers}
      {sys' : IpcSystem} {goesOn : Bool} (hthread : sys.thread pid = some t)
      (hin : t.inSyscall = true) (hchain : t.chain.isSome = true)
      (hshmat : t.chainState.inShmat = true) (hwait : t.waitState = .WSTATE_NOT_WAITING)
      (hdone : (sys.modify pid fun t => { t with result }).shmatChain t result answers =
        some (sys', goesOn)) :
      StepSpec sys (.leave pid result answers) (sys'.modify pid chainNext)
  | forked {pid child : Nat} {t : IpcThread} {cloneThread : Bool}
      (hthread : sys.thread pid = some t) (hfresh : sys.isFresh child = true) :
      StepSpec sys (.fork pid child cloneThread) (sys.inheritChild t child cloneThread)
  | replaced {pid : Nat} {t : IpcThread} (hthread : sys.thread pid = some t)
      (hin : t.inSyscall = true) : StepSpec sys (.exec pid) (sys.replaceProgram t)
  | exited {pid : Nat} {t : IpcThread} (hthread : sys.thread pid = some t) :
      StepSpec sys (.exit pid) (sys.exit t)

section

variable {sys sys' : IpcSystem} {pid : Nat} {t : IpcThread} {answers : StopAnswers}

theorem enterStart_spec {call : EnteredCall} (hthread : sys.thread pid = some t)
    (hout : t.inSyscall = false) (hplanned : asPlanned t call = true) (hchain : t.chain = none)
    (h : sys.enterStart t call answers = some sys') :
    StepSpec sys (.enter pid call answers) sys' := by
  have hpid := (thread_mem hthread).2
  have hanswered : t.waitState ≠ .WSTATE_RESTARTED_INTO_PPOLL_CANCELED →
      sys.answeredOf (.enter pid call answers) = none := fun hne => by
    simp [answeredOf, hthread, hne]
  have hcall : t.waitState ≠ .WSTATE_NOT_WAITING →
      sys.callOf (.enter pid call answers) = none := fun hne => by
    cases call <;> simp [callOf, hthread, hne]
  have hnext : (∀ planned, call ≠ .planned planned) → mayCall t = true := fun hne => by
    cases hnext : t.next <;> cases call <;> simp_all [mayCall, asPlanned]
  unfold enterStart at h
  simp only [hpid] at h
  split at h
  · rename_i hwait
    have hanswered := hanswered (by rw [hwait]; decide)
    split at h
    · rename_i call
      have hfree := hnext (by simp)
      refine .called hthread ?_ hanswered hfree (Or.inr hchain) h
      simp [callOf, hthread, hfree, hchain, hwait]
    · cases h
      exact .execve hthread (hnext (by simp)) hchain hwait
    · rename_i hipc hexecve
      cases h
      refine .moved hthread ?_ hanswered
        (.entered hout hplanned hwait (fun _ => hipc) fun _ => hexecve)
      cases call with
      | ipc call => exact absurd rfl (hipc call)
      | execve prepared => rfl
      | planned planned => rfl
      | other => rfl
  · rename_i hwait
    split at h
    · rename_i hppoll
      cases h
      exact .moved hthread (hcall (by rw [hwait]; decide)) (hanswered (by rw [hwait]; decide))
        (.enteredPpoll hout hplanned hchain hppoll hwait)
    · cases h
  · rename_i hwait
    obtain ⟨⟨sys₁, status⟩, hstatus, hsys⟩ := Option.bind_eq_some_iff.mp h
    cases hsys
    refine .answered hthread (hcall (by rw [hwait]; decide)) ?_ hstatus .enter
    simp [answeredOf, hthread, hout, hplanned, hchain, hwait]
  · cases h

theorem chainedEnter_spec {call : EnteredCall} (hthread : sys.thread pid = some t)
    (hout : t.inSyscall = false) (hplanned : asPlanned t call = true)
    (hchain : t.chain.isSome = true) (h : sys.chainedEnter t = some sys') :
    StepSpec sys (.enter pid call answers) sys' := by
  have hpid := (thread_mem hthread).2
  have hnone : t.chain ≠ none := Option.isSome_iff_ne_none.mp hchain
  have hcall : sys.callOf (.enter pid call answers) = none := by
    cases call <;> simp [callOf, hthread, hnone]
  have hanswered : sys.answeredOf (.enter pid call answers) = none := by
    simp [answeredOf, hthread, hnone]
  unfold chainedEnter at h
  rw [hpid] at h
  split at h
  · rename_i hwait
    cases h
    exact .moved hthread hcall hanswered (.entered hout hplanned hwait
      (fun h => absurd h hnone) fun h => absurd h hnone)
  · rename_i hwait
    cases h
    exact .moved hthread hcall hanswered (.enteredWoken hout hplanned hchain hwait)
  · cases h

/-- Two changes of one thread. -/
theorem modify_modify (sys : IpcSystem) (pid : Nat) {f g : IpcThread → IpcThread}
    (hf : ∀ t, (f t).config.pid = t.config.pid := by exact fun _ => rfl) :
    (sys.modify pid f).modify pid g = sys.modify pid fun t => g (f t) := by
  unfold modify
  simp only [List.map_map, IpcSystem.mk.injEq, true_and]
  refine List.map_congr_left fun t _ => ?_
  by_cases h : t.config.pid = pid <;> simp [hf, h]

theorem exitStart_spec (hthread : sys.thread pid = some t) (hin : t.inSyscall = true)
    (hchain : t.chain = none) (h : sys.exitStart t result answers = some sys') :
    StepSpec sys (.leave pid result answers) (sys'.modify pid chainNext) := by
  have hpid := (thread_mem hthread).2
  have hcall : sys.callOf (.leave pid result answers) = none := rfl
  unfold exitStart at h
  simp only [hpid] at h
  split at h
  · split at h
    · cases h
    · rename_i hshmat
      obtain ⟨⟨sys₁, goesOn⟩, hdone, hsys⟩ := Option.bind_eq_some_iff.mp h
      cases hsys
      exact .shmatStarted hthread hin hchain (not_not.mp hshmat) hdone
  · rename_i hshmat
    have hshmat := Bool.eq_false_iff.mpr hshmat
    split at h
    · rename_i hwait
      cases h
      have hkeeps : ∀ t : IpcThread,
          (if t.next = some .void then t else { t with result }).config.pid = t.config.pid :=
        fun t => by split <;> rfl
      rw [modify_modify _ _ hkeeps]
      exact .moved hthread hcall (by simp [answeredOf, hthread, hwait])
        (.left hin hchain hshmat hwait)
    · rename_i hwait
      split at h
      · cases h
      · rename_i hreason
        cases h
        rw [modify_modify]
        exact .moved hthread hcall (by simp [answeredOf, hthread, hwait])
          (.waitEnded hin hchain hshmat hwait hreason)
    · rename_i hwait
      split at h
      · cases h
      · obtain ⟨⟨sys₁, status⟩, hstatus, hsys⟩ := Option.bind_eq_some_iff.mp h
        cases hsys
        rw [modify_modify]
        refine .answered hthread hcall ?_ hstatus .leave
        simp [answeredOf, hthread, hin, hchain, hshmat, hwait]
    · rename_i hwait
      split at h
      · cases h
      · obtain ⟨⟨sys₁, status⟩, hstatus, hsys⟩ := Option.bind_eq_some_iff.mp h
        cases hsys
        rw [modify_modify]
        refine .answered hthread hcall ?_ hstatus .leave
        simp [answeredOf, hthread, hin, hchain, hshmat, hwait]
    · cases h

theorem chainedExit_spec (hthread : sys.thread pid = some t) (hin : t.inSyscall = true)
    (hchain : t.chain.isSome = true) (h : sys.chainedExit t result answers = some sys') :
    StepSpec sys (.leave pid result answers) (sys'.modify pid chainNext) := by
  have hpid := (thread_mem hthread).2
  have hcall : sys.callOf (.leave pid result answers) = none := rfl
  have hnone : t.chain ≠ none := Option.isSome_iff_ne_none.mp hchain
  have hanswered : sys.answeredOf (.leave pid result answers) = none := by
    simp [answeredOf, hthread, hnone]
  unfold chainedExit at h
  simp only [hpid] at h
  split at h
  · rename_i hwait
    split at h
    · rename_i hshmat
      obtain ⟨⟨sys₁, goesOn⟩, hdone, rfl⟩ := Option.map_eq_some_iff.mp h
      exact .shmatChained hthread hin hchain hshmat hwait hdone
    · rename_i hshmat
      cases h
      rw [modify_modify]
      exact .moved hthread hcall hanswered
        (.leftChained hin hchain (Bool.eq_false_iff.mpr hshmat) hwait)
  · rename_i hwait
    cases h
    rw [modify_modify, modify_modify]
    exact .moved hthread hcall hanswered (.leftWoken hin hchain hwait)
  · cases h

end

/-- **Every event is one of the cases.** -/
theorem step_spec {sys sys' : IpcSystem} {event : IpcEvent} (h : sys.step event = some sys') :
    StepSpec sys event sys' := by
  cases event with
  | enter pid call answers =>
      simp only [step] at h
      split at h
      · rename_i hthread
        cases h
        exact .stays (by cases call <;> simp [callOf, hthread]) (by simp [answeredOf, hthread])
      · rename_i t hthread
        split at h
        · rename_i hnot
          cases h
          refine .stays ?_ ?_
          · cases call with
            | ipc call =>
                cases hnext : t.next <;> simp_all [callOf, mayCall, asPlanned]
            | execve prepared => rfl
            | planned planned => rfl
            | other => rfl
          · cases hin : t.inSyscall <;> simp_all [answeredOf]
        · rename_i hready
          rw [Bool.or_eq_true, not_or, Bool.not_eq_true, Bool.not_eq_true',
            Bool.not_eq_false] at hready
          split at h
          · rename_i hchain
            exact chainedEnter_spec hthread hready.1 hready.2 hchain h
          · rename_i hchain
            exact enterStart_spec hthread hready.1 hready.2
              (Option.not_isSome_iff_eq_none.mp hchain) h
  | leave pid result answers =>
      simp only [step] at h
      split at h
      · rename_i hthread
        cases h
        exact .stays rfl (by simp [answeredOf, hthread])
      · rename_i t hthread
        split at h
        · rename_i hout
          cases h
          exact .stays rfl (by simp_all [answeredOf])
        · rename_i hin
          rw [Bool.not_eq_true', Bool.not_eq_false] at hin
          obtain ⟨sys₁, hsys₁, rfl⟩ := Option.map_eq_some_iff.mp h
          split at hsys₁
          · rename_i hchain
            exact chainedExit_spec hthread hin hchain hsys₁
          · rename_i hchain
            exact exitStart_spec hthread hin (Option.not_isSome_iff_eq_none.mp hchain) hsys₁
  | sigsys pid call =>
      simp only [step] at h
      split at h
      · rename_i hthread
        cases h
        exact .stays (by cases call <;> simp [callOf, hthread]) rfl
      · rename_i t hthread
        split at h
        · rename_i hnot
          cases h
          refine .stays ?_ rfl
          cases call with
          | ipc call =>
              cases hnext : t.next <;> simp_all [callOf, mayCall, asPlanned]
          | execve prepared => rfl
          | planned planned => rfl
          | other => rfl
        · rename_i hready
          rw [Bool.or_eq_true, not_or, Bool.not_eq_true, Bool.not_eq_true',
            Bool.not_eq_false] at hready
          split at h
          · rename_i call
            have hfree : mayCall t = true := by
              cases hnext : t.next <;> simp_all [mayCall, asPlanned]
            exact .called hthread (by simp [callOf, hthread, hfree]) rfl hfree (Or.inl rfl) h
          · rename_i hipc
            split at h
            · cases h
            · cases h
              refine .stays ?_ rfl
              cases call with
              | ipc call => exact absurd rfl (hipc call)
              | execve prepared => rfl
              | planned planned => rfl
              | other => rfl
  | signal pid putOff =>
      simp only [step] at h
      split at h
      · cases h
        exact .stays rfl rfl
      · rename_i t hthread
        split at h
        · cases h
          exact .stays rfl rfl
        · rename_i hnow
          cases h
          rw [Bool.or_eq_true, not_or, Bool.not_eq_true, Bool.not_eq_true] at hnow
          exact .moved hthread rfl rfl (.handled hnow.1 hnow.2)
  | fork pid child cloneThread =>
      simp only [step] at h
      split at h
      · cases h
        exact .stays rfl rfl
      · rename_i t hthread
        split at h
        · rename_i hfresh
          cases h
          exact .forked hthread hfresh
        · cases h
          exact .stays rfl rfl
  | exec pid =>
      simp only [step] at h
      split at h
      · cases h
        exact .stays rfl rfl
      · rename_i t hthread
        split at h
        · rename_i hin
          cases h
          exact .replaced hthread hin
        · cases h
          exact .stays rfl rfl
  | exit pid =>
      simp only [step] at h
      split at h
      · cases h
        exact .stays rfl rfl
      · rename_i t hthread
        cases h
        exact .exited hthread

end IpcSystem

end PRoot
