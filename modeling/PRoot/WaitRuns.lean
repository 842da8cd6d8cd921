import PRoot.IpcWaits

/-!
# Waits of threads

A call blocks, the thread is woken or gives up, and the call returns.

* `WaitPhase.next`: the order in which this happens to a thread;
* `wake_ups_arrive`: a run keeps that order for each thread, and no assertion about wait states
  fails, unless a thread is disturbed while it waits.
-/

namespace PRoot

/-- What a thread was woken for: its call has its result, or it looks for a message again, or its
`shmat` goes on. -/
inductive Wake
  | result (status : Except Errno (BitVec 32))
  | look
  | connect

/-- Where a thread is with a call that blocks. -/
inductive WaitPhase
  | free
  | blocked
  | woken (wake : Wake)

/-- What happens to the calls of a thread. -/
inductive WaitEntry
  /-- It makes a call. -/
  | calls
  /-- The call blocks. -/
  | blocks
  /-- Somebody wakes it. -/
  | wakes (wake : Wake)
  /-- It looks for a message again, and the call has its status. -/
  | looks (status : Except Errno (BitVec 32))
  /-- The call that blocked gets its result. -/
  | returns (result : BitVec 64)
  /-- The `shmat` that blocked goes on. -/
  | connects
  /-- The call is over before somebody woke the thread. -/
  | givesUp
  /-- The thread is gone. -/
  | gone

/-- **The order of a wait.**  A wake-up is for the call that blocked, and becomes its result
before the thread makes another call. -/
def WaitPhase.next : WaitPhase → WaitEntry → Option WaitPhase
  | .free, .calls => some .free
  | .free, .blocks => some .blocked
  | .blocked, .wakes wake => some (.woken wake)
  | .blocked, .givesUp => some .free
  | .woken .look, .looks status => some (.woken (.result status))
  | .woken .connect, .connects => some .free
  | .woken (.result status), .returns result =>
      if result = statusWord status then some .free else none
  | _, .gone => some .free
  | _, _ => none

/-- Where a thread is after some entries, if they are in order. -/
def WaitPhase.follow (phase : WaitPhase) (entries : List WaitEntry) : Option WaitPhase :=
  entries.foldlM WaitPhase.next phase

namespace WaitPhase

variable (phase : WaitPhase)

@[simp] theorem follow_nil : phase.follow [] = some phase := rfl

@[simp] theorem follow_cons (entry : WaitEntry) (entries : List WaitEntry) :
    phase.follow (entry :: entries) =
      (phase.next entry).bind fun phase => phase.follow entries := rfl

theorem follow_append (entries entries' : List WaitEntry) :
    phase.follow (entries ++ entries') =
      (phase.follow entries).bind fun phase => phase.follow entries' :=
  List.foldlM_append

@[simp] theorem next_gone : phase.next .gone = some .free := by
  cases phase with
  | free => rfl
  | blocked => rfl
  | woken wake => cases wake <;> rfl

theorem follow_gone : phase.follow [.gone] = some .free := by simp

end WaitPhase

namespace IpcThread

/-- What a thread was woken for. -/
def wakeOf (t : IpcThread) : Wake :=
  if t.chain.isSome then .connect
  else if IpcSystem.retries t then .look
  else .result t.config.statusAfterWait

/-- Where a thread is with a call that blocks. -/
def phase (t : IpcThread) : WaitPhase :=
  match t.waitState with
  | .WSTATE_NOT_WAITING | .WSTATE_ENTERED_GETPID => .free
  | .WSTATE_RESTARTED_INTO_PPOLL | .WSTATE_ENTERED_PPOLL => .blocked
  | .WSTATE_RESTARTED_INTO_PPOLL_CANCELED | .WSTATE_SIGNALED_PPOLL => .woken t.wakeOf

/-- A thread that was given the result of its call, in the system call that does nothing in its
place. -/
structure HasResult (t : IpcThread) : Prop where
  inSyscall : t.inSyscall = true
  chain : t.chain = none
  next : t.next = some .void
  wait : t.waitState = .WSTATE_NOT_WAITING
  chainState : t.chainState = .CSTATE_NOT_CHAINED

section

variable {t : IpcThread}

theorem phase_free (h : t.waitState = .WSTATE_NOT_WAITING) : t.phase = .free := by
  rw [phase, h]

theorem phase_answered (h : t.waitState = .WSTATE_ENTERED_GETPID) : t.phase = .free := by
  rw [phase, h]

theorem phase_blocked (h : t.waitState = .WSTATE_RESTARTED_INTO_PPOLL ∨
    t.waitState = .WSTATE_ENTERED_PPOLL) : t.phase = .blocked := by
  rcases h with h | h <;> rw [phase, h]

theorem phase_woken (h : t.waitState = .WSTATE_RESTARTED_INTO_PPOLL_CANCELED ∨
    t.waitState = .WSTATE_SIGNALED_PPOLL) : t.phase = .woken t.wakeOf := by
  rcases h with h | h <;> rw [phase, h]

/-- A thread that is not woken waits or is free. -/
theorem phase_unwoken (h : t.waitState ≠ .WSTATE_RESTARTED_INTO_PPOLL_CANCELED ∧
    t.waitState ≠ .WSTATE_SIGNALED_PPOLL) : t.phase = .free ∨ t.phase = .blocked := by
  cases hwait : t.waitState with
  | WSTATE_NOT_WAITING => exact Or.inl (phase_free hwait)
  | WSTATE_ENTERED_GETPID => exact Or.inl (phase_answered hwait)
  | WSTATE_RESTARTED_INTO_PPOLL => exact Or.inr (phase_blocked (Or.inl hwait))
  | WSTATE_ENTERED_PPOLL => exact Or.inr (phase_blocked (Or.inr hwait))
  | WSTATE_RESTARTED_INTO_PPOLL_CANCELED => exact absurd hwait h.1
  | WSTATE_SIGNALED_PPOLL => exact absurd hwait h.2

theorem chainNext_out : (IpcSystem.chainNext t).inSyscall = false := by
  unfold IpcSystem.chainNext
  split <;> rfl

theorem chainNext_result (h : t.chain = none) : (IpcSystem.chainNext t).result = t.result := by
  rw [IpcSystem.chainNext, h]

/-- Where a thread is that waited and is woken. -/
theorem Legal.phase_woken (h : t.Legal) (hreason : t.waitReason ≠ .WR_NOT_WAITING)
    {u : IpcThread} {status : Except Errno (BitVec 32)} {semopSops : List SysVIpcSembuf}
    (hconfig : u.config = wakeTracee { t.config with semopSops } status) :
    t.phase = .blocked ∧ u.phase = .woken u.wakeOf := by
  refine ⟨IpcThread.phase_blocked (h.waits_iff.mp hreason), IpcThread.phase_woken ?_⟩
  rw [IpcThread.waitState, hconfig, wakeTracee]
  rcases h.waits_iff.mp hreason with hwait | hwait <;> rw [IpcThread.waitState] at hwait <;>
    simp [hwait]

end

end IpcThread

/-- What happened to a thread between two states of it. -/
def WaitEntry.between (t : IpcThread) : Option IpcThread → List WaitEntry
  | none => [.gone]
  | some u =>
      match t.phase, u.phase with
      | .free, .blocked => [.blocks]
      | .blocked, .woken wake => [.wakes wake]
      | .blocked, .free => [.givesUp]
      | .woken .connect, .free => [.connects]
      | .woken _, .free => [.returns u.result]
      | _, _ => []

/-- Nothing happened to a thread that is where it was. -/
theorem WaitEntry.follow_between {t u : IpcThread} (h : u.phase = t.phase) :
    t.phase.follow (WaitEntry.between t (some u)) = some u.phase := by
  rw [between, h]
  cases t.phase with
  | free => rfl
  | blocked => rfl
  | woken wake => cases wake <;> rfl

namespace IpcSystem

/-- Where the thread of a pid is with a call that blocks. -/
def phaseOf (sys : IpcSystem) (pid : Nat) : WaitPhase := (sys.thread pid).elim .free (·.phase)

/-- The thread of a pid makes a call, or looks for a message again. -/
def ownEntries (sys : IpcSystem) (pid : Nat) (event : IpcEvent) : List WaitEntry :=
  match sys.callOf event, sys.retryOf event with
  | some (t, _), _ => if t.config.pid = pid then [.calls] else []
  | none, some (t, answers) =>
      if t.config.pid = pid then
        match sys.statusOf t answers with
        | some (_, status) => [.looks status]
        | none => []
      else []
  | none, none => []

/-- What an event means for the waits of the thread of a pid. -/
def waitEntries (pid : Nat) (sys : IpcSystem) (event : IpcEvent) : List WaitEntry :=
  match sys.thread pid, sys.step event with
  | some t, some after => sys.ownEntries pid event ++ WaitEntry.between t (after.thread pid)
  | _, _ => []

section

variable {sys sys' : IpcSystem} {event : IpcEvent} {t : IpcThread}

/-- A call that is made at an event. -/
theorem callOf_called {call : IpcRequest} (hcall : sys.callOf event = some (t, call))
    (hstep : sys.step event = some sys') :
    sys.thread event.pid = some t ∧ mayCall t = true ∧
      ∃ fromSigsys, sys.syscallCommon t call fromSigsys = some sys' := by
  cases step_spec hstep with
  | stays hnone => simp [hnone] at hcall
  | called hthread hcall' hanswered hfree hchain hdone =>
      obtain ⟨rfl, rfl⟩ := Prod.mk.inj (Option.some.inj (hcall'.symm.trans hcall))
      exact ⟨hthread, hfree, _, hdone⟩
  | moved hthread hnone => simp [hnone] at hcall
  | answered hthread hnone => simp [hnone] at hcall
  | execve => cases hcall
  | shmatStarted => cases hcall
  | shmatChained => cases hcall
  | forked => cases hcall
  | replaced => cases hcall
  | exited => cases hcall

/-- A thread makes a call while it is free. -/
theorem callOf_free {call : IpcRequest} (hcall : sys.callOf event = some (t, call))
    (hstep : sys.step event = some sys') :
    sys.thread event.pid = some t ∧ t.phase = .free ∧ mayCall t = true := by
  obtain ⟨hthread, hfree, fromSigsys, hdone⟩ := callOf_called hcall hstep
  refine ⟨hthread, IpcThread.phase_free ?_, hfree⟩
  by_contra hwaits
  rw [syscallCommon, if_pos hwaits] at hdone
  cases hdone

/-- What a thread is like that got what it was woken for. -/
theorem answered_thread {answers : StopAnswers} (h : sys.WaitsLegal)
    (hanswered : sys.answeredOf event = some (t, answers)) (hstep : sys.step event = some sys') :
    ∃ after status v f, sys.statusOf t answers = some (after, status) ∧ Resumed t v ∧
      Answers status event f ∧ f v ∈ sys'.threads := by
  cases step_spec hstep with
  | stays hcall hnone => simp [hnone] at hanswered
  | called hthread hcall hnone => simp [hnone] at hanswered
  | moved hthread hcall hnone => simp [hnone] at hanswered
  | execve hthread hfree hchain hwait => simp [answeredOf, hthread, hwait] at hanswered
  | @answered event t' answers' after status f hthread hcall hanswered' hstatus hanswers =>
      obtain ⟨rfl, rfl⟩ := Prod.mk.inj (Option.some.inj (hanswered'.symm.trans hanswered))
      obtain ⟨ht, hpid⟩ := thread_mem hthread
      have hchanges := statusOf_changes h (hpid ▸ hthread) hstatus
      obtain ⟨v, hv, hchange⟩ := mem_of_forall₂ hchanges.flip ht
      rcases hchange with ⟨-, hresumed⟩ | ⟨hother, -⟩
      · refine ⟨after, status, v, f, hstatus, hresumed, hanswers, ?_⟩
        refine List.mem_map.mpr ⟨v, hv, ?_⟩
        rw [if_pos (hresumed.pid.trans hpid)]
      · exact absurd rfl hother
  | shmatStarted hthread hin hchain hshmat =>
      simp [answeredOf, hthread, hshmat, SysVIpcChainState.inShmat] at hanswered
  | shmatChained hthread hin hchain =>
      simp [answeredOf, hthread, Option.isSome_iff_ne_none.mp hchain] at hanswered
  | forked => cases hanswered
  | replaced => cases hanswered
  | exited => cases hanswered

/-- A call of its own leaves a thread where it is. -/
theorem follow_ownEntries (hstep : sys.step event = some sys')
    (hnot : ∀ answers, sys.answeredOf event ≠ some (t, answers)) (pid : Nat)
    (hthread : sys.thread pid = some t) :
    t.phase.follow (sys.ownEntries pid event) = some t.phase := by
  unfold ownEntries
  split
  · rename_i caller call _ hcall
    split
    · rename_i hcaller
      obtain ⟨hcallerThread, hfree, -⟩ := callOf_free hcall hstep
      have hsame : event.pid = pid := (thread_mem hcallerThread).2.symm.trans hcaller
      rw [hsame, hthread] at hcallerThread
      obtain rfl := Option.some.inj hcallerThread
      rw [hfree]
      rfl
    · rfl
  · rename_i other answers _ hretry
    split
    · rename_i hother
      have hanswered := (Option.filter_eq_some_iff.mp hretry).1
      have hotherThread := (answeredOf_spec hanswered).1
      have hsame : event.pid = pid := (thread_mem hotherThread).2.symm.trans hother
      rw [hsame, hthread] at hotherThread
      obtain rfl := Option.some.inj hotherThread
      exact absurd hanswered (hnot answers)
    · rfl
  · rfl

/-- A call that is made by others wakes a thread, or leaves it alone. -/
theorem follow_callChange {pid : Nat} {call : IpcRequest} {u : IpcThread} (h : t.Legal)
    (hother : t.config.pid ≠ pid) (hchange : CallChange sys pid call t u) :
    t.phase.follow (WaitEntry.between t (some u)) = some u.phase := by
  have hwoken : ∀ {status : Except Errno (BitVec 32)} {semopSops : List SysVIpcSembuf},
      t.waitReason ≠ .WR_NOT_WAITING → u.config = wakeTracee { t.config with semopSops } status →
      t.phase.follow (WaitEntry.between t (some u)) = some u.phase := by
    intro status semopSops hreason hconfig
    obtain ⟨hblocked, hphase⟩ := h.phase_woken hreason hconfig
    rw [WaitEntry.between, hblocked, hphase]
    rfl
  cases hchange with
  | same => exact WaitEntry.follow_between rfl
  | retried hcall hitem hwaits =>
      exact hwoken (by rw [waitsForItem_waitReason hwaits]; decide) rfl
  | removed hcall hcmd hlookup hwaits =>
      exact hwoken (by rw [(waitsFor_waitReason hwaits).1]; decide) rfl
  | semWoken hreason => exact hwoken (by rw [hreason]; decide) rfl
  | semOwn hpid => exact absurd hpid hother
  | received hpid => exact absurd hpid hother
  | waits hpid => exact absurd hpid hother
  | busy hpid => exact absurd hpid hother
  | connects hpid => exact absurd hpid hother
  | unmaps hpid => exact absurd hpid hother

theorem follow_moves {f : IpcThread → IpcThread} (hmoves : Moves t event f) :
    t.phase.follow (WaitEntry.between t (some (f t))) = some (f t).phase := by
  have hnext : ∀ {u v : IpcThread}, u.config = v.config → v.waitState = .WSTATE_NOT_WAITING →
      u.phase = .free := fun hconfig hwait => IpcThread.phase_free <| by
    rw [IpcThread.waitState, hconfig]
    exact hwait
  cases hmoves with
  | entered hout hplanned hwait => exact WaitEntry.follow_between rfl
  | enteredWoken hout hplanned hchain hwait =>
      refine WaitEntry.follow_between ?_
      rw [IpcThread.phase_woken (Or.inl hwait), IpcThread.phase_woken (Or.inr rfl)]
      rfl
  | enteredPpoll hout hplanned hchain hppoll hwait =>
      refine WaitEntry.follow_between ?_
      rw [IpcThread.phase_blocked (Or.inl hwait), IpcThread.phase_blocked (Or.inr rfl)]
  | left hin hchain hshmat hwait =>
      refine WaitEntry.follow_between ?_
      rw [IpcThread.phase_free hwait]
      refine hnext IpcThread.chainNext_config ?_
      split <;> exact hwait
  | waitEnded hin hchain hshmat hwait hreason =>
      rw [WaitEntry.between, IpcThread.phase_blocked (Or.inr hwait)]
      rw [show (chainNext _).phase = .free from hnext IpcThread.chainNext_config rfl]
      rfl
  | leftChained hin hchain hshmat hwait =>
      refine WaitEntry.follow_between ?_
      rw [IpcThread.phase_free hwait]
      exact hnext IpcThread.chainNext_config hwait
  | leftWoken hin hchain hwait =>
      rw [WaitEntry.between, IpcThread.phase_woken (Or.inr hwait), IpcThread.wakeOf, if_pos hchain]
      rw [show (chainNext _).phase = .free from hnext IpcThread.chainNext_config rfl]
      rfl
  | handled hout hnow =>
      exact WaitEntry.follow_between rfl

/-- What an event makes of a thread is in order, but for its answer. -/
theorem follow_change {u : IpcThread} (h : sys.WaitsLegal) (hstep : sys.step event = some sys')
    (ht : t ∈ sys.threads) (hnot : ∀ answers, sys.answeredOf event ≠ some (t, answers))
    (hchange : ThreadChange sys event t u) :
    t.phase.follow (WaitEntry.between t (some u)) = some u.phase := by
  cases hchange with
  | same => exact WaitEntry.follow_between rfl
  | moved hpid hmoves => exact follow_moves hmoves
  | execve hpid hwait => exact WaitEntry.follow_between rfl
  | called hcall hpid hwait hcalled =>
      rcases hcalled with ⟨hown, v, hchange, hcalling, hfinished⟩ | ⟨hother, hchange⟩
      · obtain ⟨hthread, hfree, -⟩ := callOf_free hcall hstep
        obtain rfl := h.eq_thread hthread ht (hown.trans hpid)
        rw [WaitEntry.between, hfree]
        rcases IpcThread.phase_unwoken hfinished.unwoken with hphase | hphase <;> rw [hphase] <;> rfl
      · exact follow_callChange (h.legal t ht) hother hchange
  | answered hanswered => exact absurd hanswered (hnot _)
  | shmat hevent hpid hwait hshmat hstep =>
      refine WaitEntry.follow_between ?_
      rw [IpcThread.phase_free hwait, IpcThread.phase_free]
      rw [IpcThread.waitState, IpcThread.chainNext_config]
      exact (congrArg _ hstep.config).trans hwait
  | restarted hevent hother hreason hwakeable =>
      obtain ⟨hblocked, hphase⟩ := (h.legal t ht).phase_woken (by rw [hreason]; decide)
        (show (restartShmat t).config = wakeTracee { t.config with semopSops := t.config.semopSops }
          (.ok 0) from rfl)
      rw [WaitEntry.between, hblocked, hphase]
      rfl
  | replaced hevent hengaged => exact WaitEntry.follow_between rfl

/-- Who gets what it was woken for makes no call. -/
theorem callOf_eq_none {answers : StopAnswers} (hanswered : sys.answeredOf event = some (t, answers)) :
    sys.callOf event = none := by
  cases event with
  | enter pid call answers' =>
      cases call with
      | ipc call =>
          obtain ⟨hthread, -, hwait⟩ := answeredOf_spec hanswered
          have hne : t.waitState ≠ .WSTATE_NOT_WAITING := by
            rcases hwait with hwait | hwait | hwait <;> simp [hwait]
          simp [callOf, show sys.thread pid = some t from hthread, hne]
      | execve prepared => rfl
      | planned call => rfl
      | other => rfl
  | leave => rfl
  | sigsys => cases hanswered
  | signal => rfl
  | fork => rfl
  | exec => rfl
  | exit => rfl

theorem answers_result {status : Except Errno (BitVec 32)} {f : IpcThread → IpcThread}
    {v : IpcThread} (hanswers : Answers status event f) (hchain : v.chain = none) :
    (f v).phase = .free ∧ (f v).result = statusWord status := by
  cases hanswers with
  | enter => exact ⟨IpcThread.phase_free rfl, rfl⟩
  | leave =>
      refine ⟨IpcThread.phase_free ?_, ?_⟩
      · rw [IpcThread.waitState, IpcThread.chainNext_config]
        rfl
      · exact IpcThread.chainNext_result
          (t := { v.setWaitState .WSTATE_NOT_WAITING with result := statusWord status }) hchain

/-- **Who was woken gets its status**: the one it was woken with, or that of its second look for
a message. -/
theorem follow_answered {answers : StopAnswers} {after : IpcSystem}
    {status : Except Errno (BitVec 32)} {v : IpcThread} {f : IpcThread → IpcThread} {pid : Nat}
    (h : sys.WaitsLegal) (hthread : sys.thread pid = some t)
    (hanswered : sys.answeredOf event = some (t, answers))
    (hstatus : sys.statusOf t answers = some (after, status)) (hresumed : Resumed t v)
    (hanswers : Answers status event f) :
    t.phase.follow (sys.ownEntries pid event ++ WaitEntry.between t (some (f v))) =
      some (f v).phase := by
  have hpid := (thread_mem hthread).2
  obtain ⟨-, hchain, hwait⟩ := answeredOf_spec hanswered
  obtain ⟨hphase, hresult⟩ := answers_result hanswers (hresumed.chain.trans hchain)
  have hown : sys.ownEntries pid event = if retries t then [.looks status] else [] := by
    rw [ownEntries, callOf_eq_none hanswered, retryOf, hanswered]
    by_cases hretries : retries t = true
    · simp [Option.filter, hretries, hpid, hstatus]
    · simp [Option.filter, hretries]
  rw [hown]
  have hwoken : t.phase = .woken t.wakeOf → t.phase.follow
      ((if retries t then [.looks status] else []) ++ WaitEntry.between t (some (f v))) =
        some (f v).phase := by
    intro hwoken
    rw [WaitEntry.between, hphase, hwoken, hresult, IpcThread.wakeOf, hchain]
    by_cases hretries : retries t = true
    · simp [hretries, WaitPhase.next]
    · have hkept : status = t.config.statusAfterWait := by
        cases statusOf_spec hstatus with
        | kept => rfl
        | closed => rfl
        | again hagain => exact absurd hagain hretries
      simp [hretries, WaitPhase.next, hkept]
  rcases hwait with hwait | hwait | hwait
  · exact hwoken (IpcThread.phase_woken (Or.inl hwait))
  · exact hwoken (IpcThread.phase_woken (Or.inr hwait))
  · have hretries : retries t = false := by
      have hstate := ((h.thread_legal hthread).answered hwait).chainState
      simp [retries, hstate]
    rw [WaitEntry.between, hphase, IpcThread.phase_answered hwait, hretries]
    rfl

/-- **What an event means for the waits of a thread is in order.** -/
theorem follow_step (h : sys.WaitsLegal) (hcalm : sys.undisturbed event = true)
    (hstep : sys.step event = some sys') (pid : Nat) :
    (sys.phaseOf pid).follow (waitEntries pid sys event) = some (sys'.phaseOf pid) := by
  have hthreads := step_threads h hcalm hstep
  unfold phaseOf waitEntries
  rw [hstep]
  cases hthread : sys.thread pid with
  | none =>
      cases hthread' : sys'.thread pid with
      | none => rfl
      | some u' =>
          obtain ⟨hu', hpid'⟩ := thread_mem hthread'
          rcases hthreads.change u' hu' with ⟨u, hu, hpid, -⟩ | ⟨_, child, _, process, -, -, rfl⟩
          · have hsome := h.thread_eq hu
            rw [← hpid, hpid', hthread] at hsome
            cases hsome
          · rfl
  | some t =>
      obtain ⟨ht, hpid⟩ := thread_mem hthread
      simp only [Option.elim_some]
      by_cases hanswered : ∃ answers, sys.answeredOf event = some (t, answers)
      · obtain ⟨answers, hanswered⟩ := hanswered
        obtain ⟨after, status, v, f, hstatus, hresumed, hanswers, hmem⟩ :=
          answered_thread h hanswered hstep
        have hfpid : (f v).config.pid = pid := by
          obtain ⟨-, hchain, hwait⟩ := answeredOf_spec hanswered
          obtain ⟨hreason, hvchain, hstate⟩ := resumed_free (h.legal t ht) hchain hwait hresumed
          exact (answers_legal hanswers hreason hvchain hstate).2.trans (hresumed.pid.trans hpid)
        have hthread' : sys'.thread pid = some (f v) := hfpid ▸ hthreads.legal.thread_eq hmem
        rw [hthread']
        exact follow_answered h hthread hanswered hstatus hresumed hanswers
      · have hnot : ∀ answers, sys.answeredOf event ≠ some (t, answers) := fun answers heq =>
          hanswered ⟨answers, heq⟩
        rw [WaitPhase.follow_append, follow_ownEntries hstep hnot pid hthread]
        rw [Option.bind_some]
        cases hthread' : sys'.thread pid with
        | none => exact WaitPhase.follow_gone _
        | some u' =>
            obtain ⟨hu', hpid'⟩ := thread_mem hthread'
            rcases hthreads.change u' hu' with
              ⟨u, hu, hupid, hchange⟩ | ⟨_, child, _, process, -, hfresh, rfl⟩
            · obtain rfl := h.eq_thread hthread hu (hupid.symm.trans hpid')
              exact follow_change h hstep ht hnot hchange
            · have hnew := List.all_eq_true.mp hfresh t ht
              simp [hpid, show child = pid from hpid'] at hnew

/-- **A thread that was given its result keeps it** until its call is over. -/
theorem hasResult_kept {u : IpcThread} (h : sys.WaitsLegal) (hcalm : sys.undisturbed event = true)
    (hstep : sys.step event = some sys') (ht : t ∈ sys.threads) (hresult : t.HasResult)
    (hu : u ∈ sys'.threads) (hpid : u.config.pid = t.config.pid) :
    u.result = t.result ∧
      (u.HasResult ∨ u.inSyscall = false ∨ ∃ pid, event = .exec pid) := by
  have hthreads := step_threads h hcalm hstep
  have hfree := (h.legal t ht).free hresult.wait
  rcases hthreads.change u hu with ⟨v, hv, hvpid, hchange⟩ | ⟨_, child, _, _, -, hfresh, rfl⟩
  · obtain rfl := h.eq_thread (h.thread_eq ht) hv (hvpid.symm.trans hpid)
    have hnotWaiting : ∀ {reason : SysVIpcWaitReason}, reason ≠ .WR_NOT_WAITING →
        v.waitReason ≠ reason := fun hne heq => hne (heq.symm.trans hfree.reason)
    cases hchange with
    | same => exact ⟨rfl, Or.inl hresult⟩
    | moved hpid hmoves =>
        have hout : v.inSyscall ≠ false := by simp [hresult.inSyscall]
        have hnone : v.chain.isSome ≠ true := by simp [hresult.chain]
        cases hmoves with
        | entered hout' => exact absurd hout' hout
        | enteredWoken hout' => exact absurd hout' hout
        | enteredPpoll hout' => exact absurd hout' hout
        | left hin hchain hshmat hwait =>
            dsimp only
            rw [if_pos hresult.next]
            exact ⟨IpcThread.chainNext_result hchain, Or.inr (Or.inl IpcThread.chainNext_out)⟩
        | waitEnded hin hchain hshmat hwait => cases hwait.symm.trans hresult.wait
        | leftChained hin hchain => exact absurd hchain hnone
        | leftWoken hin hchain => exact absurd hchain hnone
        | handled hout' => exact absurd hout' hout
    | execve hpid hwait =>
        exact ⟨rfl, Or.inl ⟨rfl, hresult.chain, hresult.next, hwait, hresult.chainState⟩⟩
    | called hcall hpid hwait hcalled =>
        obtain ⟨hthread, -, hmay⟩ := callOf_free hcall hstep
        rcases hcalled with ⟨hown, -⟩ | ⟨hother, hchange⟩
        · obtain rfl := h.eq_thread hthread ht (hown.trans hpid)
          rw [mayCall, hresult.inSyscall] at hmay
          cases hmay
        · cases hchange with
          | same => exact ⟨rfl, Or.inl hresult⟩
          | retried hcall hitem hwaits =>
              exact absurd (waitsForItem_waitReason hwaits) (hnotWaiting (by decide))
          | removed hcall hcmd hlookup hwaits =>
              exact absurd (waitsFor_waitReason hwaits).1 (hnotWaiting (by decide))
          | semWoken hreason => exact absurd hreason (hnotWaiting (by decide))
          | semOwn hcaller => exact absurd hcaller hother
          | received hcaller => exact absurd hcaller hother
          | waits hcaller => exact absurd hcaller hother
          | busy hcaller => exact absurd hcaller hother
          | connects hcaller => exact absurd hcaller hother
          | unmaps hcaller => exact absurd hcaller hother
    | answered hanswered hstatus hresumed hanswers =>
        obtain ⟨-, -, hwait⟩ := answeredOf_spec hanswered
        simp [hresult.wait] at hwait
    | shmat hevent hpid hwait hshmat hstep =>
        rw [hresult.chainState] at hshmat
        cases hshmat
    | restarted hevent hother hreason => exact absurd hreason (hnotWaiting (by decide))
    | replaced hevent hengaged => exact ⟨rfl, Or.inr (Or.inr ⟨_, hevent⟩)⟩
  · have hnew := List.all_eq_true.mp hfresh t ht
    simp [show child = t.config.pid from hpid] at hnew

end

end IpcSystem

/-- **The wait states are sound**, in a run that disturbs no thread while it waits: the reason
and the state of a wait agree; the waits of each thread are in order, so that each wake-up
becomes the result of the call that blocked; a result that was given to a call is kept until the
call is over; and no assertion fails but those of the second look for a message and of the steps
of a `shmat`. -/
theorem wake_ups_arrive (pid process : Nat) (events : List IpcEvent) (sys : IpcSystem)
    (hrun : (IpcSystem.initial pid process).run events = some sys)
    (hcalm : AbortableRuns.allSteps IpcSystem.step IpcSystem.undisturbed (.initial pid process)
      events = true) :
    (∀ t ∈ sys.threads, t.waitReason ≠ .WR_NOT_WAITING ↔
        t.waitState = .WSTATE_RESTARTED_INTO_PPOLL ∨ t.waitState = .WSTATE_ENTERED_PPOLL) ∧
      (∀ p, WaitPhase.free.follow (AbortableRuns.record IpcSystem.step (IpcSystem.waitEntries p)
        (.initial pid process) events) = some (sys.phaseOf p)) ∧
      ∀ event, sys.undisturbed event = true →
        (sys.step event = none → sys.retryAborts event = true ∨ sys.shmatAborts event = true) ∧
        ∀ sys', sys.step event = some sys' → ∀ t ∈ sys.threads, t.HasResult →
          ∀ u ∈ sys'.threads, u.config.pid = t.config.pid → u.result = t.result ∧
            (u.HasResult ∨ u.inSyscall = false ∨ ∃ p, event = .exec p) := by
  have hinitial := IpcSystem.initial_legal pid process
  have hlegal : ∀ p, sys.WaitsLegal ∧ WaitPhase.free.follow (AbortableRuns.record IpcSystem.step
      (IpcSystem.waitEntries p) (.initial pid process) events) = some (sys.phaseOf p) := by
    intro p
    have hstart : (IpcSystem.initial pid process).WaitsLegal ∧
        WaitPhase.free.follow [] = some ((IpcSystem.initial pid process).phaseOf p) := by
      refine ⟨hinitial, ?_⟩
      unfold IpcSystem.phaseOf
      cases hthread : (IpcSystem.initial pid process).thread p with
      | none => rfl
      | some t =>
          obtain rfl := List.mem_singleton.mp (IpcSystem.thread_mem hthread).1
          rfl
    refine AbortableRuns.record_invariant (P := fun sys log => sys.WaitsLegal ∧
      WaitPhase.free.follow log = some (sys.phaseOf p)) ?_ hstart hcalm hrun
    rintro s log event s' ⟨hs, hlog⟩ hsuits hstep
    refine ⟨(IpcSystem.step_threads hs hsuits hstep).legal, ?_⟩
    rw [WaitPhase.follow_append, hlog]
    exact IpcSystem.follow_step hs hsuits hstep p
  have hsys := (hlegal 0).1
  refine ⟨fun t ht => (hsys.legal t ht).waits_iff, fun p => (hlegal p).2, fun event hevent =>
    ⟨fun hnone => ?_, fun sys' hstep t ht hresult u hu hpid =>
      IpcSystem.hasResult_kept hsys hevent hstep ht hresult hu hpid⟩⟩
  by_contra hneither
  rw [not_or, Bool.not_eq_true, Bool.not_eq_true] at hneither
  obtain ⟨sys', hsys'⟩ := IpcSystem.step_isSome hsys hevent hneither.1 hneither.2
  rw [hnone] at hsys'
  cases hsys'

/-- Answers of the host that nothing depends on. -/
def plainAnswers : StopAnswers := ⟨.ok (), 0, true, none, 4096, 0⟩

/-- A call that is made and does not block. -/
def callEvents (pid : Nat) (call : IpcRequest) : List IpcEvent :=
  [.enter pid (.ipc call) plainAnswers, .leave pid 0 plainAnswers]

/-- A thread waits for a message, and another one sends it. -/
def sentEvents : List IpcEvent :=
  callEvents 1 (.msgget 0 0x200) ++ [.fork 1 2 true] ++
    [.enter 1 (.ipc (.msgrcv 1 ⟨0, 8, 0, 0⟩ (.ok ()) 0)) plainAnswers] ++
    callEvents 2 (.msgsnd 1 1 (.ok 1) (.ok fun _ => 7) 0)

/-- The order of a wait in a run. -/
theorem wake_ups_arrive_run : ∃ sys,
    (IpcSystem.initial 1 1).run (sentEvents ++ [.leave 1 0 plainAnswers]) = some sys ∧
      WaitPhase.free.follow (AbortableRuns.record IpcSystem.step (IpcSystem.waitEntries 1)
        (.initial 1 1) (sentEvents ++ [.leave 1 0 plainAnswers])) = some (sys.phaseOf 1) := by
  have hsome : ((IpcSystem.initial 1 1).run
      (sentEvents ++ [.leave 1 0 plainAnswers])).isSome = true := by decide
  obtain ⟨sys, hsys⟩ := Option.isSome_iff_exists.mp hsome
  exact ⟨sys, hsys, (wake_ups_arrive 1 1 _ sys hsys (by decide)).2.1 1⟩

/-- A handler of a signal that is not put off runs while a thread is between the trap of its
call and the `ppoll` the call was turned into: the thread makes another system call, and the
assertion fails that expects the `ppoll`. -/
theorem wake_ups_lost : ∃ sys,
    (IpcSystem.initial 1 1).run [.sigsys 1 (.ipc (.msgget 0 0x200)),
        .sigsys 1 (.ipc (.msgrcv 1 ⟨0, 8, 0, 0⟩ (.ok ()) 0)), .signal 1 false] = some sys ∧
      sys.step (.enter 1 .other plainAnswers) = none ∧
      sys.retryAborts (.enter 1 .other plainAnswers) = false ∧
      sys.shmatAborts (.enter 1 .other plainAnswers) = false := by
  refine ⟨_, rfl, ?_, ?_, ?_⟩
  · decide
  · decide
  · decide

end PRoot
