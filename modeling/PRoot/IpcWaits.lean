import PRoot.CallEffects

/-!
# The wait states of threads

A call that blocks becomes a `ppoll`, which the thread restarts into or is in; who wakes the
thread cuts the `ppoll` short.

* `IpcThread.Legal`: what a thread looks like in each of its wait states;
* `step_legal`: every event keeps it, unless it disturbs a thread that waits;
* `step_isSome`: no assertion about wait states fails.
-/

namespace PRoot

theorem pastSocket_cases {chainState : SysVIpcChainState} (h : chainState.pastSocket = true) :
    chainState = .CSTATE_SHMAT_CONNECT ∨ chainState = .CSTATE_SHMAT_RECVMSG ∨
      chainState = .CSTATE_SHMAT_MMAP := by
  cases chainState <;> simp_all [SysVIpcChainState.pastSocket]

variable {status : Except Errno (BitVec 32)} {u : IpcThread}

namespace IpcThread

variable (t : IpcThread)

/-- A thread that does not wait.  A chain of system calls always has its next one planned. -/
structure Free : Prop where
  reason : t.waitReason = .WR_NOT_WAITING
  noRetry : t.chainState ≠ .CSTATE_MSGRCV_RETRY
  noSingle : t.chainState ≠ .CSTATE_SINGLE
  past : t.chainState.pastSocket = true → t.chain.isSome = true
  planned : t.chain.isSome = true ∨ t.chainState = .CSTATE_SHMAT_SOCKET → t.next.isSome = true
  putOff : t.chainState = .CSTATE_SHMAT_SOCKET → t.chain = none → t.inSyscall = false →
    t.deferring = true

/-- A thread that waits in its `ppoll`, or on its way there. -/
structure Blocked : Prop where
  reason : t.waitReason ≠ .WR_NOT_WAITING
  next : t.next = some .ppoll
  chain : t.chain = none
  chainState : t.chainState = .CSTATE_NOT_CHAINED

/-- A thread that was woken, and has not left its `ppoll`: its call returns then, or it looks for
a message, or it connects to the helper. -/
structure Woken : Prop where
  reason : t.waitReason = .WR_NOT_WAITING
  next : t.next = some .ppoll
  goesOn : (t.chain = none ∧
      (t.chainState = .CSTATE_NOT_CHAINED ∨ t.chainState = .CSTATE_MSGRCV_RETRY)) ∨
    (t.chain = some [.socket] ∧ t.chainState = .CSTATE_SHMAT_SOCKET)

/-- A thread whose call has its result, in the `getpid` that took its place. -/
structure Answered : Prop where
  reason : t.waitReason = .WR_NOT_WAITING
  inSyscall : t.inSyscall = true
  chain : t.chain = none
  chainState : t.chainState = .CSTATE_NOT_CHAINED

/-- **The wait states.** -/
def Legal : Prop :=
  match t.waitState with
  | .WSTATE_NOT_WAITING => t.Free
  | .WSTATE_RESTARTED_INTO_PPOLL => t.Blocked ∧ t.inSyscall = false ∧ t.deferring = true
  | .WSTATE_ENTERED_PPOLL => t.Blocked ∧ t.inSyscall = true
  | .WSTATE_RESTARTED_INTO_PPOLL_CANCELED => t.Woken ∧ t.inSyscall = false ∧ t.deferring = true
  | .WSTATE_SIGNALED_PPOLL => t.Woken ∧ t.inSyscall = true
  | .WSTATE_ENTERED_GETPID => t.Answered

/-- A thread in the middle of a call that blocked, or of a chain of system calls. -/
def engaged : Bool :=
  (t.waitState ≠ .WSTATE_NOT_WAITING && t.waitState ≠ .WSTATE_ENTERED_GETPID) ||
    t.chain.isSome || t.chainState ≠ .CSTATE_NOT_CHAINED

section

variable {t}

theorem Legal.free (h : t.Legal) (hwait : t.waitState = .WSTATE_NOT_WAITING) : t.Free := by
  rw [Legal, hwait] at h
  exact h

theorem Legal.restarted (h : t.Legal) (hwait : t.waitState = .WSTATE_RESTARTED_INTO_PPOLL) :
    t.Blocked ∧ t.inSyscall = false ∧ t.deferring = true := by
  rw [Legal, hwait] at h
  exact h

theorem Legal.entered (h : t.Legal) (hwait : t.waitState = .WSTATE_ENTERED_PPOLL) :
    t.Blocked ∧ t.inSyscall = true := by
  rw [Legal, hwait] at h
  exact h

theorem Legal.canceled (h : t.Legal)
    (hwait : t.waitState = .WSTATE_RESTARTED_INTO_PPOLL_CANCELED) :
    t.Woken ∧ t.inSyscall = false ∧ t.deferring = true := by
  rw [Legal, hwait] at h
  exact h

theorem Legal.signaled (h : t.Legal) (hwait : t.waitState = .WSTATE_SIGNALED_PPOLL) :
    t.Woken ∧ t.inSyscall = true := by
  rw [Legal, hwait] at h
  exact h

theorem Legal.answered (h : t.Legal) (hwait : t.waitState = .WSTATE_ENTERED_GETPID) :
    t.Answered := by
  rw [Legal, hwait] at h
  exact h

theorem legal_of_free (hwait : t.waitState = .WSTATE_NOT_WAITING) (h : t.Free) : t.Legal := by
  rw [Legal, hwait]
  exact h

/-- A free thread that is not in a `shmat` has no chain state. -/
theorem Free.notChained (h : t.Free) (hshmat : t.chainState.inShmat = false) :
    t.chainState = .CSTATE_NOT_CHAINED := by
  have hretry := h.noRetry
  have hsingle := h.noSingle
  cases hcs : t.chainState <;>
    simp_all [SysVIpcChainState.inShmat, SysVIpcChainState.pastSocket]

/-- **Who waits is in a wait state**: the reason and the state agree. -/
theorem Legal.waits_iff (h : t.Legal) : t.waitReason ≠ .WR_NOT_WAITING ↔
    t.waitState = .WSTATE_RESTARTED_INTO_PPOLL ∨ t.waitState = .WSTATE_ENTERED_PPOLL := by
  cases hwait : t.waitState with
  | WSTATE_NOT_WAITING => simp [(h.free hwait).reason]
  | WSTATE_RESTARTED_INTO_PPOLL => simp [(h.restarted hwait).1.reason]
  | WSTATE_ENTERED_PPOLL => simp [(h.entered hwait).1.reason]
  | WSTATE_RESTARTED_INTO_PPOLL_CANCELED => simp [(h.canceled hwait).1.reason]
  | WSTATE_SIGNALED_PPOLL => simp [(h.signaled hwait).1.reason]
  | WSTATE_ENTERED_GETPID => simp [(h.answered hwait).reason]

/-- Who waits can be woken. -/
theorem Legal.wakeable (h : t.Legal) (hreason : t.waitReason ≠ .WR_NOT_WAITING) :
    t.wakeable = true := by
  rcases h.waits_iff.mp hreason with hwait | hwait <;> simp [IpcThread.wakeable, hreason, hwait]

/-- A thread that is woken, whichever way its call goes on. -/
theorem Legal.woken (h : t.Legal) (hreason : t.waitReason ≠ .WR_NOT_WAITING)
    {semopSops : List SysVIpcSembuf}
    (hconfig : u.config = wakeTracee { t.config with semopSops } status) (hnext : u.next = t.next)
    (hin : u.inSyscall = t.inSyscall) (hdeferring : u.deferring = t.deferring)
    (hgoesOn : (u.chain = t.chain ∧
        (u.chainState = t.chainState ∨ u.chainState = .CSTATE_MSGRCV_RETRY)) ∨
      (u.chain = (t.registerChained .socket).chain ∧ u.chainState = .CSTATE_SHMAT_SOCKET)) :
    u.Legal := by
  have hwoken : t.Blocked → u.Woken := fun hblocked => by
    refine ⟨?_, hnext.trans hblocked.next, ?_⟩
    · rw [IpcThread.waitReason, hconfig]
      rfl
    · rw [registerChained, hblocked.chain] at hgoesOn
      rw [hblocked.chainState] at hgoesOn
      exact hgoesOn
  rcases h.waits_iff.mp hreason with hwait | hwait
  · obtain ⟨hblocked, hout, hdeferred⟩ := h.restarted hwait
    have hstate : u.waitState = .WSTATE_RESTARTED_INTO_PPOLL_CANCELED := by
      rw [IpcThread.waitState, hconfig, wakeTracee]
      rw [IpcThread.waitState] at hwait
      simp [hwait]
    rw [Legal, hstate]
    exact ⟨hwoken hblocked, hin.trans hout, hdeferring.trans hdeferred⟩
  · obtain ⟨hblocked, hentered⟩ := h.entered hwait
    have hstate : u.waitState = .WSTATE_SIGNALED_PPOLL := by
      rw [IpcThread.waitState, hconfig, wakeTracee]
      rw [IpcThread.waitState] at hwait
      simp [hwait]
    rw [Legal, hstate]
    exact ⟨hwoken hblocked, hin.trans hentered⟩

theorem zero_legal (pid process : Nat) : (zero pid process).Legal := by
  refine legal_of_free rfl ⟨rfl, ?_, ?_, ?_, ?_, ?_⟩ <;> simp [zero, SysVIpcChainState.pastSocket]

/-- A chain is over when its last system call is. -/
theorem chainNext_free (hreason : t.waitReason = .WR_NOT_WAITING)
    (hchain : t.chainState = .CSTATE_NOT_CHAINED ∨
      (t.chainState.pastSocket = true ∨ t.chainState = .CSTATE_SHMAT_SOCKET) ∧
        ∃ call calls, t.chain = some (call :: calls)) :
    (IpcSystem.chainNext t).Free := by
  unfold IpcSystem.chainNext
  split
  · rename_i hnone
    rcases hchain with hchain | ⟨-, call, calls, hsome⟩
    · refine ⟨hreason, ?_, ?_, ?_, ?_, ?_⟩ <;>
        simp [hchain, hnone, SysVIpcChainState.pastSocket]
    · rw [hnone] at hsome
      cases hsome
  · rename_i hnil
    rcases hchain with hchain | ⟨-, call, calls, hsome⟩
    · refine ⟨hreason, ?_, ?_, ?_, ?_, ?_⟩ <;>
        simp [hchain, SysVIpcChainState.pastSocket]
    · rw [hnil] at hsome
      cases hsome
  · rcases hchain with hchain | ⟨hchain | hchain, call, calls, hsome⟩
    · refine ⟨hreason, ?_, ?_, ?_, ?_, ?_⟩ <;> simp [hchain]
    · rcases pastSocket_cases hchain with hchain | hchain | hchain <;>
        refine ⟨hreason, ?_, ?_, ?_, ?_, ?_⟩ <;> simp [hchain]
    · refine ⟨hreason, ?_, ?_, ?_, ?_, ?_⟩ <;> simp [hchain]

@[simp] theorem chainNext_config : (IpcSystem.chainNext t).config = t.config := by
  unfold IpcSystem.chainNext
  split <;> rfl

end

end IpcThread

namespace IpcSystem

/-- An event that does not disturb a thread in the middle of a call: no handler of a signal that
is not put off runs, the host does not refuse the `ppoll`, and no other thread of its process
replaces the program. -/
def undisturbed (sys : IpcSystem) : IpcEvent → Bool
  | .signal pid putOff => putOff || !(sys.thread pid).any fun t => !t.inSyscall && t.engaged
  | .sigsys pid call => !(sys.thread pid).any fun t => t.next = some .ppoll && call.isPpoll
  | .exec pid =>
      !(sys.thread pid).any fun t => t.inSyscall && sys.threads.any fun u =>
        u.config.pid = t.process && u.config.pid ≠ pid && u.engaged
  | _ => true

/-- The pids of the threads differ, and their wait states are legal. -/
structure WaitsLegal (sys : IpcSystem) : Prop where
  distinct : (sys.threads.map (·.config.pid)).Nodup
  legal : ∀ t ∈ sys.threads, t.Legal

theorem initial_legal (pid process : Nat) : (initial pid process).WaitsLegal := by
  refine ⟨by simp [initial], fun t ht => ?_⟩
  obtain rfl := List.mem_singleton.mp ht
  exact IpcThread.zero_legal pid process

variable {threads : List IpcThread} {event : IpcEvent} {f : IpcThread → IpcThread}
  {answers : StopAnswers} {result : BitVec 64}

section

variable {sys sys' : IpcSystem} {pid : Nat} {t : IpcThread}

variable {R : IpcThread → IpcThread → Prop}

theorem mem_of_forall₂ {threads' : List IpcThread} (h : List.Forall₂ R threads threads')
    {u' : IpcThread} (hu' : u' ∈ threads') :
    ∃ u ∈ threads, R u u' := by
  induction h with
  | nil => cases hu'
  | cons hhead htail ih =>
      rcases List.mem_cons.mp hu' with rfl | hu'
      · exact ⟨_, List.mem_cons_self, hhead⟩
      · obtain ⟨u, hu, hR⟩ := ih hu'
        exact ⟨u, List.mem_cons_of_mem _ hu, hR⟩

theorem pids_of_forall₂ {threads' : List IpcThread}
    (hR : ∀ u u', R u u' → u'.config.pid = u.config.pid) (h : List.Forall₂ R threads threads') :
    threads'.map (·.config.pid) = threads.map (·.config.pid) := by
  induction h with
  | nil => rfl
  | cons hhead htail ih => rw [List.map_cons, List.map_cons, hR _ _ hhead, ih]

/-- A change of each thread by itself. -/
theorem WaitsLegal.forall₂ (h : sys.WaitsLegal) (hR : ∀ u u', R u u' → u'.config.pid = u.config.pid)
    (hchange : List.Forall₂ R sys.threads sys'.threads)
    (hlegal : ∀ u ∈ sys.threads, ∀ u', R u u' → u'.Legal) : sys'.WaitsLegal := by
  refine ⟨?_, fun u' hu' => ?_⟩
  · rw [pids_of_forall₂ hR hchange]
    exact h.distinct
  · obtain ⟨u, hu, hRu⟩ := mem_of_forall₂ hchange hu'
    exact hlegal u hu u' hRu

/-- The thread of a pid is the only one. -/
theorem WaitsLegal.eq_thread (h : sys.WaitsLegal) (hthread : sys.thread pid = some t)
    (hu : u ∈ sys.threads) (hpid : u.config.pid = pid) : u = t := by
  obtain ⟨ht, htpid⟩ := thread_mem hthread
  exact List.inj_on_of_nodup_map h.distinct hu ht (hpid.trans htpid.symm)

theorem WaitsLegal.thread_eq (h : sys.WaitsLegal) (ht : t ∈ sys.threads) :
    sys.thread t.config.pid = some t := by
  cases hthread : sys.thread t.config.pid with
  | none =>
      have hnone := List.find?_eq_none.mp hthread t ht
      simp at hnone
  | some u => rw [h.eq_thread hthread ht rfl]

theorem WaitsLegal.thread_legal (h : sys.WaitsLegal) (hthread : sys.thread pid = some t) :
    t.Legal := h.legal t (thread_mem hthread).1

/-! ## One event -/

/-- A thread that is engaged and outside its system call has put-off signals wait. -/
theorem putOff_of_engaged (h : t.Legal) (hout : t.inSyscall = false)
    (hengaged : t.engaged = true) : (t.chain.isSome || t.deferring) = true := by
  cases hwait : t.waitState with
  | WSTATE_NOT_WAITING =>
      have hfree := h.free hwait
      cases hchain : t.chain with
      | some calls => rfl
      | none =>
          have hstate : t.chainState ≠ .CSTATE_NOT_CHAINED := by
            simpa [IpcThread.engaged, hwait, hchain] using hengaged
          cases hcs : t.chainState with
          | CSTATE_NOT_CHAINED => exact absurd hcs hstate
          | CSTATE_SINGLE => exact absurd hcs hfree.noSingle
          | CSTATE_MSGRCV_RETRY => exact absurd hcs hfree.noRetry
          | CSTATE_SHMAT_SOCKET => simp [hfree.putOff hcs hchain hout]
          | CSTATE_SHMAT_CONNECT =>
              have hsome := hfree.past (by rw [hcs]; rfl)
              rw [hchain] at hsome
              cases hsome
          | CSTATE_SHMAT_RECVMSG =>
              have hsome := hfree.past (by rw [hcs]; rfl)
              rw [hchain] at hsome
              cases hsome
          | CSTATE_SHMAT_MMAP =>
              have hsome := hfree.past (by rw [hcs]; rfl)
              rw [hchain] at hsome
              cases hsome
  | WSTATE_RESTARTED_INTO_PPOLL => simp [(h.restarted hwait).2.2]
  | WSTATE_ENTERED_PPOLL => simp [(h.entered hwait).2] at hout
  | WSTATE_RESTARTED_INTO_PPOLL_CANCELED => simp [(h.canceled hwait).2.2]
  | WSTATE_SIGNALED_PPOLL => simp [(h.signaled hwait).2] at hout
  | WSTATE_ENTERED_GETPID => simp [(h.answered hwait).inSyscall] at hout

theorem moves_pid (h : Moves t event f) :
    (f t).config.pid = t.config.pid := by
  cases h with
  | left => rw [IpcThread.chainNext_config]; split <;> rfl
  | waitEnded => rw [IpcThread.chainNext_config]; rfl
  | leftChained => rw [IpcThread.chainNext_config]
  | leftWoken => rw [IpcThread.chainNext_config]; rfl
  | _ => rfl

theorem legal_chainNext (hwait : t.waitState = .WSTATE_NOT_WAITING)
    (hreason : t.waitReason = .WR_NOT_WAITING) (hchain : t.chainState = .CSTATE_NOT_CHAINED ∨
      (t.chainState.pastSocket = true ∨ t.chainState = .CSTATE_SHMAT_SOCKET) ∧
        ∃ call calls, t.chain = some (call :: calls)) : (chainNext t).Legal := by
  refine IpcThread.legal_of_free ?_ (IpcThread.chainNext_free hreason hchain)
  rw [IpcThread.waitState, IpcThread.chainNext_config]
  exact hwait

/-- A thread that is not engaged may lose what it was to call next. -/
theorem dropNext_legal (h : t.Legal) (hidle : t.engaged = false) :
    IpcThread.Legal { t with next := none } := by
  have hboth : (t.waitState = .WSTATE_NOT_WAITING ∨ t.waitState = .WSTATE_ENTERED_GETPID) ∧
      t.chain = none ∧ t.chainState = .CSTATE_NOT_CHAINED := by
    simp only [IpcThread.engaged, Bool.or_eq_false_iff, Bool.and_eq_false_iff,
      decide_eq_false_iff_not, not_not, Option.isSome_eq_false_iff, Option.isNone_iff_eq_none]
      at hidle
    exact ⟨hidle.1.1, hidle.1.2, hidle.2⟩
  rcases hboth with ⟨hwait | hwait, hchain, hstate⟩
  · have hfree := h.free hwait
    refine IpcThread.legal_of_free hwait
      ⟨hfree.reason, hfree.noRetry, hfree.noSingle, hfree.past, ?_, hfree.putOff⟩
    rintro (hsome | hsocket)
    · rw [show ({ t with next := none } : IpcThread).chain = none from hchain] at hsome
      cases hsome
    · rw [show ({ t with next := none } : IpcThread).chainState = _ from hstate] at hsocket
      cases hsocket
  · have hanswered := h.answered hwait
    rw [IpcThread.Legal, show ({ t with next := none } : IpcThread).waitState = _ from hwait]
    exact ⟨hanswered.reason, hanswered.inSyscall, hanswered.chain, hanswered.chainState⟩

/-- A thread that does not wait may enter a system call. -/
theorem enter_legal (h : t.Legal) (hwait : t.waitState = .WSTATE_NOT_WAITING) :
    IpcThread.Legal { t with inSyscall := true } := by
  have hfree := h.free hwait
  exact IpcThread.legal_of_free hwait ⟨hfree.reason, hfree.noRetry, hfree.noSingle, hfree.past,
    hfree.planned, fun _ _ hin => by cases hin⟩

theorem moves_legal (hthread : sys.thread event.pid = some t) (h : t.Legal)
    (hcalm : sys.undisturbed event = true) (hmoves : Moves t event f) : (f t).Legal := by
  cases hmoves with
  | entered hout hplanned hwait => exact enter_legal h hwait
  | enteredWoken hout hplanned hchain hwait =>
      obtain ⟨hwoken, -, -⟩ := h.canceled hwait
      exact ⟨⟨hwoken.reason, hwoken.next, hwoken.goesOn⟩, rfl⟩
  | enteredPpoll hout hplanned hchain hppoll hwait =>
      obtain ⟨hblocked, -, -⟩ := h.restarted hwait
      exact ⟨⟨hblocked.reason, hblocked.next, hblocked.chain, hblocked.chainState⟩, rfl⟩
  | left hin hchain hshmat hwait =>
      have hfree := h.free hwait
      have hnot := hfree.notChained hshmat
      dsimp only
      split
      · exact legal_chainNext hwait hfree.reason (Or.inl hnot)
      · exact legal_chainNext hwait hfree.reason (Or.inl hnot)
  | waitEnded hin hchain hshmat hwait hreason =>
      exact legal_chainNext rfl rfl (Or.inl (h.entered hwait).1.chainState)
  | leftChained hin hchain hshmat hwait =>
      have hfree := h.free hwait
      exact legal_chainNext hwait hfree.reason (Or.inl (hfree.notChained hshmat))
  | leftWoken hin hchain hwait =>
      obtain ⟨hwoken, -⟩ := h.signaled hwait
      refine legal_chainNext rfl hwoken.reason ?_
      rcases hwoken.goesOn with ⟨hnone, -⟩ | ⟨hsome, hstate⟩
      · rw [hnone] at hchain
        cases hchain
      · exact Or.inr ⟨Or.inr hstate, .socket, [], hsome⟩
  | @handled pid putOff hout hnow =>
      change sys.thread pid = some t at hthread
      have hidle : t.engaged = false := by
        by_contra hengaged
        rw [Bool.not_eq_false] at hengaged
        have hwaits := putOff_of_engaged h hout hengaged
        rw [hwaits, Bool.and_true] at hnow
        simp [undisturbed, hthread, hnow, hout, hengaged] at hcalm
      exact dropNext_legal h hidle

/-- A thread that is ready to finish a call. -/
structure Calling (v : IpcThread) : Prop where
  wait : v.waitState = .WSTATE_NOT_WAITING
  chain : v.chain = none
  out : v.inSyscall = false
  state : v.chainState = .CSTATE_NOT_CHAINED ∨
    v.waitReason = .WR_NOT_WAITING ∧ (v.chainState = .CSTATE_SINGLE ∨
      v.chainState = .CSTATE_SHMAT_SOCKET ∧ v.next = some .socket)

variable {v : IpcThread}

theorem free_of_not (hreason : v.waitReason = .WR_NOT_WAITING)
    (hstate : v.chainState = .CSTATE_NOT_CHAINED) (hchain : v.chain = none) : v.Free := by
  refine ⟨hreason, ?_, ?_, ?_, ?_, ?_⟩ <;> simp [hstate, hchain, SysVIpcChainState.pastSocket]

/-- What the end of a call leaves of its thread. -/
structure Finished (v u : IpcThread) : Prop where
  legal : u.Legal
  pid : u.config.pid = v.config.pid
  reason : u.waitReason = v.waitReason
  index : u.config.waitingObjectIndex = v.config.waitingObjectIndex
  semopSops : u.config.semopSops = v.config.semopSops
  msgrcv : u.msgrcv = v.msgrcv
  process : u.process = v.process
  chain : u.chain = v.chain
  chainState : u.chainState = .CSTATE_NOT_CHAINED ∨ u.chainState = v.chainState
  unwoken : u.waitState ≠ .WSTATE_RESTARTED_INTO_PPOLL_CANCELED ∧
    u.waitState ≠ .WSTATE_SIGNALED_PPOLL

theorem unwoken_of_state (waitState : SysVIpcWaitState) (hwait : t.waitState = waitState)
    (hne : waitState ≠ .WSTATE_RESTARTED_INTO_PPOLL_CANCELED ∧
      waitState ≠ .WSTATE_SIGNALED_PPOLL := by decide) :
    t.waitState ≠ .WSTATE_RESTARTED_INTO_PPOLL_CANCELED ∧
      t.waitState ≠ .WSTATE_SIGNALED_PPOLL := hwait ▸ hne

/-- **The end of a call.** -/
theorem finishCall_spec (hv : Calling v) (fromSigsys : Bool) (status : Except Errno (BitVec 32)) :
    ∃ u, finishCall fromSigsys status v = some u ∧ Finished v u := by
  obtain ⟨hwait, hchain, hout, hstate⟩ := hv
  unfold finishCall
  rcases hstate with hstate | ⟨hreason, hstate | ⟨hstate, hnext⟩⟩
  · rw [hstate]
    dsimp only
    by_cases hreason : v.waitReason = .WR_NOT_WAITING
    · have hconfig : v.config.waitReason = .WR_NOT_WAITING := hreason
      cases fromSigsys with
      | true =>
          have hafter : v.config.afterCall true status = v.config := by
            simp [SysVIpcConfig.afterCall, hconfig]
          refine ⟨{ v with result := statusWord status }, ?_, ?_⟩
          · simp [IpcThread.waitReason, hafter, hconfig, hstate]
          · exact ⟨IpcThread.legal_of_free hwait (free_of_not hreason hstate hchain), rfl, rfl, rfl,
              rfl, rfl, rfl, rfl, Or.inr rfl, unwoken_of_state _ hwait⟩
      | false =>
          have hafter : v.config.afterCall false status = { v.config with
              statusAfterWait := status, waitState := .WSTATE_ENTERED_GETPID } := by
            simp [SysVIpcConfig.afterCall, hconfig]
          refine ⟨{ v with
            config := { v.config with
              statusAfterWait := status, waitState := .WSTATE_ENTERED_GETPID }
            inSyscall := true, next := some .getpid }, ?_, ?_⟩
          · simp [IpcThread.waitReason, hafter, hconfig, hstate]
          · exact ⟨⟨hreason, rfl, hchain, hstate⟩, rfl, rfl, rfl, rfl, rfl, rfl, rfl, Or.inr rfl,
              unwoken_of_state .WSTATE_ENTERED_GETPID rfl⟩
    · have hconfig : v.config.waitReason ≠ .WR_NOT_WAITING := hreason
      have hafter : v.config.afterCall fromSigsys status = { v.config with waitState :=
          if fromSigsys then .WSTATE_RESTARTED_INTO_PPOLL else .WSTATE_ENTERED_PPOLL } := by
        simp [SysVIpcConfig.afterCall, hconfig]
      refine ⟨{ goOn fromSigsys { v with config := { v.config with waitState :=
          if fromSigsys then .WSTATE_RESTARTED_INTO_PPOLL else .WSTATE_ENTERED_PPOLL } } with
        next := some .ppoll }, ?_, ?_⟩
      · simp [IpcThread.waitReason, hafter, hconfig, hstate]
      · refine ⟨?_, rfl, rfl, rfl, rfl, rfl, rfl, rfl, Or.inr rfl, ?_⟩
        · cases fromSigsys with
          | true => exact ⟨⟨hconfig, rfl, hchain, hstate⟩, rfl, Bool.or_true _⟩
          | false => exact ⟨⟨hconfig, rfl, hchain, hstate⟩, rfl⟩
        · cases fromSigsys with
          | true => exact unwoken_of_state .WSTATE_RESTARTED_INTO_PPOLL rfl
          | false => exact unwoken_of_state .WSTATE_ENTERED_PPOLL rfl
  · rw [hstate]
    exact ⟨_, rfl, IpcThread.legal_of_free hwait (free_of_not hreason rfl hchain), rfl, rfl, rfl,
      rfl, rfl, rfl, rfl, Or.inl rfl, unwoken_of_state _ hwait⟩
  · rw [hstate]
    refine ⟨_, rfl, IpcThread.legal_of_free hwait ⟨hreason, ?_, ?_, ?_, ?_, ?_⟩, rfl, rfl, rfl,
      rfl, rfl, rfl, rfl, Or.inr rfl, unwoken_of_state _ hwait⟩
    · rw [show (goOn fromSigsys v).chainState = _ from hstate]
      decide
    · rw [show (goOn fromSigsys v).chainState = _ from hstate]
      decide
    · rw [show (goOn fromSigsys v).chainState = _ from hstate]
      intro h
      cases h
    · intro _
      rw [show (goOn fromSigsys v).next = _ from hnext]
      rfl
    · intro _ _ hin
      have hsigsys : fromSigsys = true := by simpa [goOn] using hin
      simp [goOn, hsigsys]

/-- A free thread that may make a call is not in a chain. -/
theorem mayCall_chain (h : t.Free) (hfree : mayCall t = true) :
    t.chain = none ∧ t.inSyscall = false ∧ t.chainState = .CSTATE_NOT_CHAINED := by
  rw [mayCall, Bool.and_eq_true, Bool.not_eq_true', decide_eq_true_iff] at hfree
  have hchain : t.chain = none := by
    cases hchain : t.chain with
    | none => rfl
    | some calls =>
        have hplanned := h.planned (Or.inl (by rw [hchain]; rfl))
        rw [hfree.2] at hplanned
        cases hplanned
  refine ⟨hchain, hfree.1, h.notChained ?_⟩
  by_contra hshmat
  rw [Bool.not_eq_false] at hshmat
  by_cases hsocket : t.chainState = .CSTATE_SHMAT_SOCKET
  · have hplanned := h.planned (Or.inr hsocket)
    rw [hfree.2] at hplanned
    cases hplanned
  · have hpast : t.chainState.pastSocket = true := by
      cases hcs : t.chainState <;> simp_all [SysVIpcChainState.inShmat]
    have hsome := h.past hpast
    rw [hchain] at hsome
    cases hsome

theorem waitsFor_waitReason {waitReason : SysVIpcWaitReason} {index : Nat}
    (h : t.waitsFor waitReason index = true) :
    t.waitReason = waitReason ∧ t.config.waitingObjectIndex = index := by
  rw [IpcThread.waitsFor, Bool.and_eq_true, decide_eq_true_iff, decide_eq_true_iff] at h
  exact h

theorem waitsForItem_waitReason {index : Nat} {item : MsgQueueItem}
    (h : waitsForItem index item t = true) : t.waitReason = .WR_WAIT_QUEUE_RECV := by
  rw [waitsForItem, Bool.and_eq_true] at h
  exact (waitsFor_waitReason h.1).1

variable {call : IpcRequest}

/-- A call leaves its thread ready to finish it. -/
theorem callChange_calling (h : t.Free) (hwait : t.waitState = .WSTATE_NOT_WAITING)
    (hfree : mayCall t = true) (hchange : CallChange sys pid call t v) : Calling v := by
  obtain ⟨hchain, hout, hstate⟩ := mayCall_chain h hfree
  cases hchange with
  | same => exact ⟨hwait, hchain, hout, Or.inl hstate⟩
  | retried hcall hitem hwaits => cases (waitsForItem_waitReason hwaits).symm.trans h.reason
  | removed hcall hcmd hlookup hwaits =>
      cases (waitsFor_waitReason hwaits).1.symm.trans h.reason
  | semWoken hreason => cases hreason.symm.trans h.reason
  | semOwn hpid hreason => exact ⟨hwait, hchain, hout, Or.inl hstate⟩
  | received hpid => exact ⟨hwait, hchain, hout, Or.inl hstate⟩
  | waits hpid hcall hlookup hwaits => exact ⟨hwait, hchain, hout, Or.inl hstate⟩
  | busy hpid hcall hlookup hbusy => exact ⟨hwait, hchain, hout, Or.inl hstate⟩
  | connects hpid hcall hlookup hidle =>
      exact ⟨hwait, hchain, hout, Or.inr ⟨h.reason, Or.inr ⟨rfl, rfl⟩⟩⟩
  | unmaps hpid hcall => exact ⟨hwait, hchain, hout, Or.inr ⟨h.reason, Or.inl rfl⟩⟩

/-- A call leaves other threads legal. -/
theorem callChange_legal (h : t.Legal) (hother : t.config.pid ≠ pid)
    (hchange : CallChange sys pid call t u) : u.Legal := by
  have hne : ∀ {reason : SysVIpcWaitReason}, t.waitReason = reason → reason ≠ .WR_NOT_WAITING →
      t.waitReason ≠ .WR_NOT_WAITING := fun h hne => h ▸ hne
  cases hchange with
  | same => exact h
  | retried hcall hitem hwaits =>
      exact h.woken (hne (waitsForItem_waitReason hwaits) (by decide))
        rfl rfl rfl rfl (Or.inl ⟨rfl, Or.inr rfl⟩)
  | removed hcall hcmd hlookup hwaits =>
      exact h.woken (hne (waitsFor_waitReason hwaits).1 (by decide))
        rfl rfl rfl rfl (Or.inl ⟨rfl, Or.inl rfl⟩)
  | semWoken hreason =>
      exact h.woken (hne hreason (by decide)) rfl rfl rfl rfl (Or.inl ⟨rfl, Or.inl rfl⟩)
  | semOwn hpid => exact absurd hpid hother
  | received hpid => exact absurd hpid hother
  | waits hpid => exact absurd hpid hother
  | busy hpid => exact absurd hpid hother
  | connects hpid => exact absurd hpid hother
  | unmaps hpid => exact absurd hpid hother

/-- What a call and its end make of a thread. -/
def Called (sys : IpcSystem) (pid : Nat) (call : IpcRequest) (u u' : IpcThread) : Prop :=
  (u.config.pid = pid ∧ ∃ v, CallChange sys pid call u v ∧ Calling v ∧ Finished v u') ∨
    (u.config.pid ≠ pid ∧ CallChange sys pid call u u')

/-- **A call that is made is carried out.** -/
theorem syscallCommon_spec (call : IpcRequest) (h : sys.WaitsLegal)
    (hthread : sys.thread t.config.pid = some t) (hwait : t.waitState = .WSTATE_NOT_WAITING)
    (hfree : mayCall t = true) (fromSigsys : Bool) :
    ∃ sys', sys.syscallCommon t call fromSigsys = some sys' ∧
      List.Forall₂ (Called sys t.config.pid call) sys.threads sys'.threads := by
  obtain ⟨ht, -⟩ := thread_mem hthread
  have hchanges := run_changes sys t call
  have hpids := pids_of_forall₂ (fun _ _ h => CallChange.pid h) hchanges
  unfold syscallCommon
  dsimp only
  rw [if_neg (not_not.mpr hwait)]
  generalize call.run sys t = out at *
  obtain ⟨after, status⟩ := out
  dsimp only at hchanges hpids ⊢
  have hcalling : ∀ v, CallChange sys t.config.pid call t v → Calling v := fun v =>
    callChange_calling ((h.legal t ht).free hwait) hwait hfree
  have hwoke : sys.wokeBadly after t.config.pid = false := by
    rw [wokeBadly, List.any_eq_false]
    intro u hu hbad
    simp only [Bool.and_eq_true, decide_eq_true_iff, Bool.not_eq_true'] at hbad
    rw [(h.legal u hu).wakeable hbad.1.1.2] at hbad
    exact absurd hbad.1.2 (by decide)
  rw [hwoke, if_neg Bool.false_ne_true]
  obtain ⟨v, hv⟩ : ∃ v, after.thread t.config.pid = some v := by
    cases hnone : after.thread t.config.pid with
    | some v => exact ⟨v, rfl⟩
    | none =>
        have hmem : t.config.pid ∈ after.threads.map (·.config.pid) := by
          rw [hpids]
          exact List.mem_map_of_mem ht
        obtain ⟨v, hv, hpid⟩ := List.mem_map.mp hmem
        have hno := List.find?_eq_none.mp hnone v hv
        simp [hpid] at hno
  obtain ⟨hvmem, hvpid⟩ := thread_mem hv
  have hunique : ∀ w ∈ after.threads, w.config.pid = t.config.pid → w = v := fun w hw hpid => by
    have hnodup : (after.threads.map (·.config.pid)).Nodup := hpids ▸ h.distinct
    exact List.inj_on_of_nodup_map hnodup hw hvmem (hpid.trans hvpid.symm)
  have hchange : CallChange sys t.config.pid call t v := by
    obtain ⟨u, hu, hR⟩ := mem_of_forall₂ hchanges hvmem
    rw [h.eq_thread hthread hu (hR.pid.symm.trans hvpid)] at hR
    exact hR
  obtain ⟨u, hu, hfinished⟩ := finishCall_spec (hcalling v hchange) fromSigsys status
  refine ⟨after.modify t.config.pid fun _ => u, by simp [hv, hu], ?_⟩
  have hboth : List.Forall₂ (fun u' w => CallChange sys t.config.pid call u' w ∧
      w ∈ after.threads) sys.threads after.threads := by
    refine List.forall₂_iff_zip.mpr ⟨hchanges.length_eq, fun hzip => ?_⟩
    exact ⟨List.forall₂_zip hchanges hzip, (List.of_mem_zip hzip).2⟩
  rw [modify, List.forall₂_map_right_iff]
  refine hboth.imp fun u' w hw => ?_
  split
  · rename_i hpid
    obtain rfl := hunique w hw.2 hpid
    exact Or.inl ⟨hw.1.pid.symm.trans hpid, w, hw.1, hcalling w hchange, hfinished⟩
  · rename_i hpid
    exact Or.inr ⟨fun hupid => hpid (hw.1.pid.trans hupid), hw.1⟩

theorem Called.pid_eq {u' : IpcThread} (h : Called sys pid call u u') :
    u'.config.pid = u.config.pid := by
  rcases h with ⟨-, v, hchange, -, hfinished⟩ | ⟨-, hchange⟩
  · exact hfinished.pid.trans hchange.pid
  · exact hchange.pid

/-- What a thread is like once its status is known. -/
structure Resumed (u u' : IpcThread) : Prop where
  pid : u'.config.pid = u.config.pid
  waitState : u'.waitState = u.waitState
  reason : u.waitReason = .WR_NOT_WAITING → u'.waitReason = .WR_NOT_WAITING
  msgrcv : u'.msgrcv = u.msgrcv
  process : u'.process = u.process
  chain : u'.chain = u.chain
  chainState : u'.chainState = .CSTATE_NOT_CHAINED ∨
    u'.chainState = u.chainState ∧ u.chainState ≠ .CSTATE_MSGRCV_RETRY

/-- Getting the status of a thread changes that thread only. -/
theorem statusOf_changes (h : sys.WaitsLegal) (hthread : sys.thread t.config.pid = some t)
    (hstatus : sys.statusOf t answers = some (sys', status)) :
    List.Forall₂ (fun u u' => (u = t ∧ Resumed u u') ∨ (u.config.pid ≠ t.config.pid ∧ u' = u))
      sys.threads sys'.threads := by
  have hmodify : ∀ f : IpcThread → IpcThread, Resumed t (f t) →
      List.Forall₂ (fun u u' => (u = t ∧ Resumed u u') ∨ (u.config.pid ≠ t.config.pid ∧ u' = u))
        sys.threads (sys.modify t.config.pid f).threads := by
    intro f hf
    rw [modify, List.forall₂_map_right_iff]
    refine List.forall₂_same.mpr fun u hu => ?_
    split
    · rename_i hpid
      obtain rfl := h.eq_thread hthread hu hpid
      exact Or.inl ⟨rfl, hf⟩
    · rename_i hpid
      exact Or.inr ⟨hpid, rfl⟩
  cases statusOf_spec hstatus with
  | kept hchain =>
      refine List.forall₂_same.mpr fun u hu => ?_
      by_cases hpid : u.config.pid = t.config.pid
      · obtain rfl := h.eq_thread hthread hu hpid
        exact Or.inl ⟨rfl, rfl, rfl, id, rfl, rfl, rfl, Or.inr ⟨rfl, hchain⟩⟩
      · exact Or.inr ⟨hpid, rfl⟩
  | closed hchain hne => exact hmodify _ ⟨rfl, rfl, id, rfl, rfl, rfl, Or.inl rfl⟩
  | again hretries hlive hgives =>
      unfold lookAgain doMsgrcv
      split
      · exact hmodify _ ⟨rfl, rfl, fun _ => rfl, rfl, rfl, rfl, Or.inl rfl⟩
      · rw [modify_modify]
        exact hmodify _ ⟨rfl, rfl, fun _ => rfl, rfl, rfl, rfl, Or.inl rfl⟩
      · exact hmodify _ ⟨rfl, rfl, fun _ => rfl, rfl, rfl, rfl, Or.inl rfl⟩

/-- A change of one thread after a change of all. -/
theorem forall₂_then_modify (h : List.Forall₂ R threads sys'.threads) (pid : Nat)
    (f : IpcThread → IpcThread) :
    List.Forall₂ (fun u u' => ∃ v, R u v ∧ u' = if v.config.pid = pid then f v else v) threads
      (sys'.modify pid f).threads := by
  rw [modify, List.forall₂_map_right_iff]
  exact h.imp fun u v hv => ⟨v, hv, rfl⟩

/-- Who gets what it was woken for. -/
theorem answeredOf_spec (h : sys.answeredOf event = some (t, answers)) :
    sys.thread event.pid = some t ∧ t.chain = none ∧
      (t.waitState = .WSTATE_RESTARTED_INTO_PPOLL_CANCELED ∨
        t.waitState = .WSTATE_SIGNALED_PPOLL ∨ t.waitState = .WSTATE_ENTERED_GETPID) := by
  cases event with
  | enter pid call answers' =>
      obtain ⟨u, hthread, hu⟩ := Option.bind_eq_some_iff.mp h
      split at hu
      · rename_i hall
        cases hu
        simp only [Bool.and_eq_true, decide_eq_true_iff, Option.isNone_iff_eq_none] at hall
        exact ⟨hthread, hall.1.2, Or.inl hall.2⟩
      · cases hu
  | leave pid result answers' =>
      obtain ⟨u, hthread, hu⟩ := Option.bind_eq_some_iff.mp h
      split at hu
      · rename_i hall
        cases hu
        simp only [Bool.and_eq_true, Bool.or_eq_true, decide_eq_true_iff,
          Option.isNone_iff_eq_none] at hall
        exact ⟨hthread, hall.1.1.2, Or.inr hall.2⟩
      · cases hu
  | sigsys => cases h
  | signal => cases h
  | fork => cases h
  | exec => cases h
  | exit => cases h

/-- Who was woken and has no chain gets out of its wait. -/
theorem resumed_free (h : t.Legal) (hchain : t.chain = none)
    (hwait : t.waitState = .WSTATE_RESTARTED_INTO_PPOLL_CANCELED ∨
      t.waitState = .WSTATE_SIGNALED_PPOLL ∨ t.waitState = .WSTATE_ENTERED_GETPID)
    (hresumed : Resumed t u) :
    u.waitReason = .WR_NOT_WAITING ∧ u.chain = none ∧ u.chainState = .CSTATE_NOT_CHAINED := by
  have hwoken : t.waitReason = .WR_NOT_WAITING ∧
      (t.chainState = .CSTATE_NOT_CHAINED ∨ t.chainState = .CSTATE_MSGRCV_RETRY) := by
    have hof : t.Woken → t.waitReason = .WR_NOT_WAITING ∧
        (t.chainState = .CSTATE_NOT_CHAINED ∨ t.chainState = .CSTATE_MSGRCV_RETRY) := by
      intro hwoken
      refine ⟨hwoken.reason, ?_⟩
      rcases hwoken.goesOn with ⟨-, hstate⟩ | ⟨hsome, -⟩
      · exact hstate
      · rw [hchain] at hsome
        cases hsome
    rcases hwait with hwait | hwait | hwait
    · exact hof (h.canceled hwait).1
    · exact hof (h.signaled hwait).1
    · exact ⟨(h.answered hwait).reason, Or.inl (h.answered hwait).chainState⟩
  refine ⟨hresumed.reason hwoken.1, hresumed.chain.trans hchain, ?_⟩
  rcases hresumed.chainState with hstate | ⟨hsame, hne⟩
  · exact hstate
  · exact hsame.trans (hwoken.2.resolve_right hne)

theorem answers_legal (hanswers : Answers status event f) (hreason : u.waitReason = .WR_NOT_WAITING)
    (hchain : u.chain = none) (hstate : u.chainState = .CSTATE_NOT_CHAINED) :
    (f u).Legal ∧ (f u).config.pid = u.config.pid := by
  cases hanswers with
  | enter => exact ⟨IpcThread.legal_of_free rfl (free_of_not hreason hstate hchain), rfl⟩
  | leave =>
      refine ⟨legal_chainNext rfl hreason (Or.inl hstate), ?_⟩
      rw [IpcThread.chainNext_config]
      rfl

/-- A step of a `shmat` leaves the threads legal. -/
theorem chainChange_legal (h : u.Legal) (hchange : ChainChange pid u v)
    (hown : u.config.pid = pid → u.waitState = .WSTATE_NOT_WAITING) :
    (v.config.pid = pid → ∀ result, (chainNext { v with result }).Legal) ∧
      (v.config.pid ≠ pid → v.Legal) := by
  cases hchange with
  | same hother => exact ⟨fun hpid => absurd hpid hother, fun _ => h⟩
  | restarted hother hreason hwakeable =>
      refine ⟨fun hpid => absurd hpid hother, fun _ => ?_⟩
      have hne : u.waitReason ≠ .WR_NOT_WAITING := by
        rw [hreason]
        decide
      exact h.woken hne rfl rfl rfl rfl (Or.inr ⟨rfl, rfl⟩)
  | own hpid hstep =>
      refine ⟨fun _ result => ?_, fun hne => absurd (hstep.config ▸ hpid) hne⟩
      have hfree := h.free (hown hpid)
      refine legal_chainNext ?_ ?_ ?_
      · rw [IpcThread.waitState]
        exact (congrArg _ hstep.config).trans (hown hpid)
      · rw [IpcThread.waitReason]
        exact (congrArg _ hstep.config).trans hfree.reason
      · rcases hstep.goesOn with hnot | ⟨hpast, hsome⟩
        · exact Or.inl hnot
        · exact Or.inr ⟨Or.inl hpast, hsome⟩

/-- **What an event makes of a thread.** -/
inductive ThreadChange (sys : IpcSystem) (event : IpcEvent) (u : IpcThread) : IpcThread → Prop
  | same : ThreadChange sys event u u
  | moved {f : IpcThread → IpcThread} (hpid : u.config.pid = event.pid)
      (hmoves : Moves u event f) : ThreadChange sys event u (f u)
  | execve (hpid : u.config.pid = event.pid) (hwait : u.waitState = .WSTATE_NOT_WAITING) :
      ThreadChange sys event u { u with inSyscall := true }
  | called {t u' : IpcThread} {call : IpcRequest} (hcall : sys.callOf event = some (t, call))
      (hpid : t.config.pid = event.pid) (hwait : t.waitState = .WSTATE_NOT_WAITING)
      (hcalled : Called sys t.config.pid call u u') : ThreadChange sys event u u'
  | answered {answers : StopAnswers} {status : Except Errno (BitVec 32)} {v : IpcThread}
      {f : IpcThread → IpcThread} {after : IpcSystem}
      (hanswered : sys.answeredOf event = some (u, answers))
      (hstatus : sys.statusOf u answers = some (after, status)) (hresumed : Resumed u v)
      (hanswers : Answers status event f) :
      ThreadChange sys event u (f v)
  | shmat {pid : Nat} {answers : StopAnswers} {result result' : BitVec 64} {v : IpcThread}
      (hevent : event = .leave pid result answers) (hpid : u.config.pid = event.pid)
      (hwait : u.waitState = .WSTATE_NOT_WAITING) (hshmat : u.chainState.inShmat = true)
      (hstep : ChainStep u v) :
      ThreadChange sys event u (chainNext { v with result := result' })
  | restarted {pid : Nat} {answers : StopAnswers} {result : BitVec 64}
      (hevent : event = .leave pid result answers) (hother : u.config.pid ≠ event.pid)
      (hreason : u.waitReason = .WR_WAIT_SHMAT_HELPER_BUSY) (hwakeable : u.wakeable = true) :
      ThreadChange sys event u (restartShmat u)
  | replaced {pid : Nat} (hevent : event = .exec pid) (hengaged : u.engaged = false) :
      ThreadChange sys event u { u with next := none }

/-- A thread that is gone after an event: it exits, or the program of its process is replaced. -/
def ends (sys : IpcSystem) (event : IpcEvent) (u : IpcThread) : Bool :=
  match event with
  | .exit pid => u.config.pid = pid
  | .exec pid =>
      (sys.thread pid).any fun t => t.inSyscall && u.process = t.process &&
        u.config.pid ≠ t.config.pid && u.config.pid ≠ t.process
  | _ => false

/-- The threads after an event: each of them was there, or is new. -/
structure StepThreads (sys : IpcSystem) (event : IpcEvent) (sys' : IpcSystem) : Prop where
  legal : sys'.WaitsLegal
  kept : ∀ u ∈ sys.threads, sys.ends event u = false →
    ∃ u' ∈ sys'.threads, u'.config.pid = u.config.pid
  change : ∀ u' ∈ sys'.threads,
    (∃ u ∈ sys.threads, u'.config.pid = u.config.pid ∧ ThreadChange sys event u u') ∨
      ∃ pid child cloneThread process, event = .fork pid child cloneThread ∧
        sys.isFresh child = true ∧ u' = .zero child process

/-- Threads that change by themselves. -/
theorem StepThreads.of_forall₂ (h : sys.WaitsLegal)
    (hchange : List.Forall₂ R sys.threads sys'.threads) (hR : ∀ u ∈ sys.threads, ∀ u', R u u' →
      u'.config.pid = u.config.pid ∧ u'.Legal ∧ ThreadChange sys event u u') :
    StepThreads sys event sys' := by
  have hboth : List.Forall₂ (fun u u' => u ∈ sys.threads ∧ R u u') sys.threads sys'.threads := by
    refine List.forall₂_iff_zip.mpr ⟨hchange.length_eq, fun hzip => ?_⟩
    exact ⟨(List.of_mem_zip hzip).1, List.forall₂_zip hchange hzip⟩
  refine ⟨h.forall₂ (fun u u' hu => (hR u hu.1 u' hu.2).1) hboth
    fun u hu u' hu' => (hR u hu u' hu'.2).2.1, fun u hu _ => ?_, fun u' hu' => Or.inl ?_⟩
  · obtain ⟨u', hu', hRu⟩ := mem_of_forall₂ hchange.flip hu
    exact ⟨u', hu', (hR u hu u' hRu).1⟩
  · obtain ⟨u, hu, -, hRu⟩ := mem_of_forall₂ hboth hu'
    exact ⟨u, hu, (hR u hu u' hRu).1, (hR u hu u' hRu).2.2⟩

/-- One thread changes. -/
theorem StepThreads.of_modify (h : sys.WaitsLegal) (hthread : sys.thread event.pid = some t)
    (hthreads : sys'.threads = (sys.modify event.pid f).threads)
    (hpid : (f t).config.pid = t.config.pid) (hlegal : (f t).Legal)
    (hchange : ThreadChange sys event t (f t)) : StepThreads sys event sys' := by
  refine .of_forall₂ h (R := fun u u' => u' = if u.config.pid = event.pid then f u else u) ?_ ?_
  · rw [hthreads, modify, List.forall₂_map_right_iff]
    exact List.forall₂_same.mpr fun u _ => rfl
  · rintro u hu u' rfl
    split
    · rename_i hupid
      rw [h.eq_thread hthread hu hupid]
      exact ⟨hpid, hlegal, hchange⟩
    · exact ⟨rfl, h.legal u hu, .same⟩

theorem StepThreads.of_subset (h : sys.WaitsLegal) (hsub : sys'.threads.Sublist sys.threads)
    (hkept : ∀ u ∈ sys.threads, sys.ends event u = false → u ∈ sys'.threads) :
    StepThreads sys event sys' := by
  refine ⟨⟨h.distinct.sublist (hsub.map _), fun u' hu' => h.legal u' (hsub.subset hu')⟩,
    fun u hu hends => ⟨u, hkept u hu hends, rfl⟩,
    fun u' hu' => Or.inl ⟨u', hsub.subset hu', rfl, .same⟩⟩

theorem called_threads {fromSigsys : Bool} (h : sys.WaitsLegal)
    (hthread : sys.thread event.pid = some t) (hcall : sys.callOf event = some (t, call))
    (hfree : mayCall t = true) (hdone : sys.syscallCommon t call fromSigsys = some sys') :
    StepThreads sys event sys' := by
  obtain ⟨ht, hpid⟩ := thread_mem hthread
  have hwait : t.waitState = .WSTATE_NOT_WAITING := by
    by_contra hwaits
    rw [syscallCommon, if_pos hwaits] at hdone
    cases hdone
  obtain ⟨sys₁, hsys₁, hcalled⟩ := syscallCommon_spec call h (hpid ▸ hthread) hwait hfree
    fromSigsys
  rw [hsys₁] at hdone
  obtain rfl := Option.some.inj hdone
  refine .of_forall₂ h hcalled fun u hu u' hu' => ⟨hu'.pid_eq, ?_, .called hcall hpid hwait hu'⟩
  rcases hu' with ⟨-, v, -, -, hfinished⟩ | ⟨hother, hchange⟩
  · exact hfinished.legal
  · exact callChange_legal (h.legal u hu) hother hchange

theorem answered_threads (h : sys.WaitsLegal) (hthread : sys.thread event.pid = some t)
    (hanswered : sys.answeredOf event = some (t, answers))
    (hstatus : sys.statusOf t answers = some (sys', status)) (hanswers : Answers status event f) :
    StepThreads sys event (sys'.modify event.pid f) := by
  obtain ⟨ht, hpid⟩ := thread_mem hthread
  obtain ⟨-, hchain, hwait⟩ := answeredOf_spec hanswered
  have hchanges := statusOf_changes h (hpid ▸ hthread) hstatus
  rw [← hpid]
  refine .of_forall₂ h (forall₂_then_modify hchanges t.config.pid f) fun u hu u' hu' => ?_
  obtain ⟨v, ⟨rfl, hresumed⟩ | ⟨hother, rfl⟩, rfl⟩ := hu'
  · rw [if_pos hresumed.pid]
    obtain ⟨hreason, hvchain, hstate⟩ := resumed_free (h.legal u hu) hchain hwait hresumed
    obtain ⟨hlegal, hvpid⟩ := answers_legal hanswers hreason hvchain hstate
    exact ⟨hvpid.trans hresumed.pid, hlegal, .answered hanswered hstatus hresumed hanswers⟩
  · rw [if_neg hother]
    exact ⟨rfl, h.legal v hu, .same⟩

/-- A thread in a `shmat`, other than one that is still to connect to the helper, does not wait. -/
theorem shmat_waitState (h : t.Legal) (hshmat : t.chainState.inShmat = true)
    (hsocket : t.chainState = .CSTATE_SHMAT_SOCKET → t.chain = none) :
    t.waitState = .WSTATE_NOT_WAITING := by
  have hnot : t.chainState ≠ .CSTATE_NOT_CHAINED := fun heq => by
    rw [heq] at hshmat
    cases hshmat
  have hwoken : ¬ t.Woken := fun hwoken => by
    rcases hwoken.goesOn with ⟨-, heq | hretry⟩ | ⟨hsome, hstate⟩
    · exact hnot heq
    · rw [hretry] at hshmat
      cases hshmat
    · cases (hsocket hstate).symm.trans hsome
  cases hwait : t.waitState with
  | WSTATE_NOT_WAITING => rfl
  | WSTATE_RESTARTED_INTO_PPOLL => exact absurd (h.restarted hwait).1.chainState hnot
  | WSTATE_ENTERED_PPOLL => exact absurd (h.entered hwait).1.chainState hnot
  | WSTATE_RESTARTED_INTO_PPOLL_CANCELED => exact absurd (h.canceled hwait).1 hwoken
  | WSTATE_SIGNALED_PPOLL => exact absurd (h.signaled hwait).1 hwoken
  | WSTATE_ENTERED_GETPID => exact absurd (h.answered hwait).chainState hnot

/-- The threads after a step of a `shmat`. -/
theorem shmat_threads {middle : IpcSystem} (h : sys.WaitsLegal) (hthread : sys.thread pid = some t)
    (hwait : t.waitState = .WSTATE_NOT_WAITING) (hshmat : t.chainState.inShmat = true)
    (hchanges : List.Forall₂ (ChainChange pid) sys.threads middle.threads)
    (hf : ∀ v, ∃ r, f v = chainNext { v with result := r }) :
    StepThreads sys (.leave pid result answers) (middle.modify pid f) := by
  refine .of_forall₂ h (forall₂_then_modify hchanges pid f) fun u hu u' hu' => ?_
  obtain ⟨v, hchange, rfl⟩ := hu'
  have hown : u.config.pid = pid → u = t := h.eq_thread hthread hu
  obtain ⟨hnext, hlegal⟩ := chainChange_legal (h.legal u hu) hchange fun hpid => hown hpid ▸ hwait
  cases hchange with
  | same hother =>
      rw [if_neg hother]
      exact ⟨rfl, hlegal hother, .same⟩
  | restarted hother hreason hwakeable =>
      rw [if_neg (by exact hother)]
      exact ⟨rfl, hlegal hother, .restarted rfl hother hreason hwakeable⟩
  | own hpid hstep =>
      have hvpid : v.config.pid = u.config.pid := congrArg _ hstep.config
      obtain ⟨r, hr⟩ := hf v
      rw [if_pos (hvpid.trans hpid), hr]
      refine ⟨?_, hnext (hvpid.trans hpid) r, ?_⟩
      · rw [IpcThread.chainNext_config]
        exact hvpid
      · exact .shmat rfl hpid (hown hpid ▸ hwait) (hown hpid ▸ hshmat) hstep

/-- The threads after a program was replaced. -/
theorem replaced_threads (h : sys.WaitsLegal) (hthread : sys.thread pid = some t)
    (hin : t.inSyscall = true) (hcalm : sys.undisturbed (.exec pid) = true) :
    StepThreads sys (.exec pid) (sys.replaceProgram t) := by
  obtain ⟨ht, hpid⟩ := thread_mem hthread
  have hidle : ∀ u ∈ sys.threads, u.config.pid = t.process ∧ u.config.pid ≠ t.config.pid →
      u.engaged = false := by
    intro u hu hleader
    by_contra hengaged
    rw [Bool.not_eq_false] at hengaged
    rw [undisturbed, hthread, Option.any_some, hin, Bool.true_and, Bool.not_eq_true',
      List.any_eq_false] at hcalm
    refine hcalm u hu ?_
    rw [hpid] at hleader
    simp [hleader.1, hengaged]
    exact hleader.1 ▸ hleader.2
  have hmap : ∀ u ∈ sys.threads,
      let u' := if u.config.pid = t.process ∧ u.config.pid ≠ t.config.pid then
        { u with next := none } else u
      u'.config.pid = u.config.pid ∧ u'.Legal ∧ ThreadChange sys (.exec pid) u u' := by
    intro u hu
    dsimp only
    split
    · rename_i hleader
      exact ⟨rfl, dropNext_legal (h.legal u hu) (hidle u hu hleader),
        .replaced rfl (hidle u hu hleader)⟩
    · exact ⟨rfl, h.legal u hu, .same⟩
  have hall : StepThreads sys (.exec pid) { sys with threads := sys.threads.map fun u =>
      if u.config.pid = t.process ∧ u.config.pid ≠ t.config.pid then { u with next := none }
      else u } :=
    .of_forall₂ h (List.forall₂_map_right_iff.mpr (List.forall₂_same.mpr fun u _ => Eq.refl _))
      fun u hu u' hu' => hu' ▸ hmap u hu
  have hsub : (sys.replaceProgram t).threads.Sublist (sys.threads.map fun u =>
      if u.config.pid = t.process ∧ u.config.pid ≠ t.config.pid then { u with next := none }
      else u) := List.filter_sublist.map _
  refine ⟨⟨hall.legal.distinct.sublist (hsub.map _),
    fun u hu => hall.legal.legal u (hsub.subset hu)⟩, fun u hu hends => ?_,
    fun u hu => hall.change u (hsub.subset hu)⟩
  refine ⟨_, List.mem_map_of_mem (List.mem_filter.mpr ⟨hu, ?_⟩), (hmap u hu).1⟩
  by_contra hgone
  simp only [Bool.not_eq_true, Bool.or_eq_false_iff, decide_eq_false_iff_not, not_not] at hgone
  simp [ends, hthread, hin, hgone.1.1, hgone.1.2, hgone.2] at hends

/-- **What an event makes of the threads**, unless it disturbs one of them. -/
theorem step_threads (h : sys.WaitsLegal) (hcalm : sys.undisturbed event = true)
    (hstep : sys.step event = some sys') :
    StepThreads sys event sys' := by
  have hidle : ∀ {pid : Nat} {t : IpcThread}, sys.thread pid = some t →
      t.waitState = .WSTATE_NOT_WAITING → ∀ u ∈ sys.threads, u.config.pid = pid →
        u.waitReason = .WR_NOT_WAITING := fun hthread hwait u hu hpid =>
    h.eq_thread hthread hu hpid ▸ ((h.thread_legal hthread).free hwait).reason
  cases step_spec hstep with
  | stays => exact .of_subset h (List.Sublist.refl _) fun u hu _ => hu
  | called hthread hcall hanswered hfree hchain hdone =>
      exact called_threads h hthread hcall hfree hdone
  | moved hthread hcall hanswered hmoves =>
      exact .of_modify h hthread rfl (moves_pid hmoves)
        (moves_legal hthread (h.thread_legal hthread) hcalm hmoves)
        (.moved (thread_mem hthread).2 hmoves)
  | @execve pid t prepared answers hthread hfree hchain hwait =>
      refine .of_modify h hthread (f := fun t => { t with inSyscall := true }) ?_ rfl
        (enter_legal (h.thread_legal hthread) hwait) (.execve (thread_mem hthread).2 hwait)
      dsimp only
      split
      · exact (removeMappings_same _ _).threads
      · rfl
  | answered hthread hcall hanswered hstatus hanswers =>
      exact answered_threads h hthread hanswered hstatus hanswers
  | @shmatStarted pid t result answers sys₁ goesOn hthread hin hchain hshmat hdone =>
      have hwait := shmat_waitState (h.thread_legal hthread) (by rw [hshmat]; rfl) fun _ => hchain
      rw [modify_modify]
      exact shmat_threads h hthread hwait (by rw [hshmat]; rfl)
        (shmatChain_changes (thread_mem hthread).2 (hidle hthread hwait) hdone) fun v => ⟨_, rfl⟩
  | @shmatChained pid t result answers sys₁ goesOn hthread hin hchain hshmat hwait hdone =>
      have hidle' : ∀ u ∈ (sys.modify pid fun t => { t with result }).threads,
          u.config.pid = pid → u.waitReason = .WR_NOT_WAITING := by
        intro u hu hpid
        obtain ⟨v, hv, rfl⟩ := List.mem_map.mp hu
        split at hpid
        · rename_i hvpid
          rw [if_pos hvpid]
          exact hidle hthread hwait v hv hvpid
        · rename_i hvpid
          exact absurd hpid hvpid
      have hchanges := shmatChain_changes (thread_mem hthread).2 hidle' hdone
      rw [modify, List.forall₂_map_left_iff] at hchanges
      refine shmat_threads h hthread hwait hshmat (hchanges.imp fun u v huv => ?_)
        fun v => ⟨v.result, rfl⟩
      by_cases hpid : u.config.pid = pid
      · rw [if_pos hpid] at huv
        cases huv with
        | same hother => exact absurd hpid hother
        | restarted hother => exact absurd hpid hother
        | own hpid' hstep =>
            exact .own hpid ⟨hstep.config, hstep.process, hstep.msgrcv, hstep.next,
              hstep.inSyscall, hstep.goesOn⟩
      · rw [if_neg hpid] at huv
        exact huv
  | @forked pid child t cloneThread hthread hfresh =>
      obtain ⟨process, hthreads⟩ : ∃ process, (sys.inheritChild t child cloneThread).threads =
          .zero child process :: sys.threads := by
        unfold inheritChild
        split
        · exact ⟨_, rfl⟩
        · exact ⟨_, rfl⟩
      have hnew : child ∉ sys.threads.map (·.config.pid) := by
        intro hmem
        obtain ⟨u, hu, hpid⟩ := List.mem_map.mp hmem
        have hfree := List.all_eq_true.mp hfresh u hu
        simp [hpid] at hfree
      refine ⟨⟨?_, fun u' hu' => ?_⟩, fun u hu _ => ⟨u, ?_, rfl⟩, fun u' hu' => ?_⟩
      · rw [hthreads]
        exact List.nodup_cons.mpr ⟨hnew, h.distinct⟩
      · rw [hthreads] at hu'
        rcases List.mem_cons.mp hu' with rfl | hu'
        · exact IpcThread.zero_legal child process
        · exact h.legal u' hu'
      · rw [hthreads]
        exact List.mem_cons_of_mem _ hu
      · rw [hthreads] at hu'
        rcases List.mem_cons.mp hu' with rfl | hu'
        · exact Or.inr ⟨pid, child, cloneThread, process, rfl, hfresh, rfl⟩
        · exact Or.inl ⟨u', hu', rfl, .same⟩
  | @replaced pid t hthread hin => exact replaced_threads h hthread hin hcalm
  | @exited pid t hthread =>
      refine .of_subset h ?_ fun u hu hends => ?_
      · rw [exit_threads]
        exact List.filter_sublist
      · rw [exit_threads]
        refine List.mem_filter.mpr ⟨hu, ?_⟩
        have hpid := (thread_mem hthread).2
        simpa [ends, hpid] using hends

end

/-! ## Assertions -/

/-- The queue is gone that a woken thread is to look into again (`assert(queue->valid)` of
`sysvipc_msgrcv_retry`). -/
def retryAborts (sys : IpcSystem) (event : IpcEvent) : Bool :=
  (sys.retryOf event).any fun (t, _) => !Slot.live sys.queues t.config.waitingObjectIndex

/-- The segment or the pending mapping of a `shmat` is gone (the assertions of
`sysvipc_shmat_chain` and `sysvipc_shm_find_pending_mapping`). -/
def shmatAborts (sys : IpcSystem) : IpcEvent → Bool
  | .leave pid _ _ =>
      (sys.thread pid).any fun t => t.chainState.inShmat &&
        (!Slot.live sys.shms t.config.waitingObjectIndex ||
          (sys.findPendingMapping t.process t.config.waitingObjectIndex).isNone)
  | _ => false

section

variable {sys sys' : IpcSystem} {pid : Nat} {t : IpcThread}

theorem wakePending_isSome
    (h : ∀ u ∈ threads, u.waitReason = .WR_WAIT_SHMAT_HELPER_BUSY → u.wakeable = true) :
    ∃ threads', wakePending threads = some threads' := by
  induction threads with
  | nil => exact ⟨[], rfl⟩
  | cons u threads ih =>
      rw [wakePending]
      split
      · rename_i hreason
        rw [if_pos (h u List.mem_cons_self hreason)]
        exact ⟨_, rfl⟩
      · obtain ⟨threads', hthreads'⟩ := ih fun v hv => h v (List.mem_cons_of_mem _ hv)
        rw [hthreads']
        exact ⟨_, rfl⟩

/-- Who waits for the helper can be woken. -/
def HelperWaitersWakeable (sys : IpcSystem) : Prop :=
  ∀ u ∈ sys.threads, u.waitReason = .WR_WAIT_SHMAT_HELPER_BUSY → u.wakeable = true

theorem HelperWaitersWakeable.modify (h : sys.HelperWaitersWakeable)
    (hf : ∀ u, (f u).config = u.config) :
    (sys.modify pid f).HelperWaitersWakeable := by
  intro u hu hreason
  obtain ⟨v, hv, rfl⟩ := List.mem_map.mp hu
  split at hreason
  · rename_i hpid
    rw [if_pos hpid]
    rw [IpcThread.waitReason, hf] at hreason
    rw [IpcThread.wakeable, IpcThread.waitReason, IpcThread.waitState, hf]
    exact h v hv hreason
  · rename_i hpid
    rw [if_neg hpid]
    exact h v hv hreason

theorem wakePendingShmat_isSome (h : sys.HelperWaitersWakeable) :
    ∃ sys', sys.wakePendingShmat = some sys' := by
  obtain ⟨threads, hthreads⟩ := wakePending_isSome h
  exact ⟨{ sys with threads }, by rw [wakePendingShmat, hthreads]; rfl⟩

theorem failShmat_isSome {p : Nat} (h : sys.HelperWaitersWakeable)
    (hf : ∀ u, (f u).config = u.config)
    (hpending : (sys.findPendingMapping t.process t.config.waitingObjectIndex).isSome = true) :
    ∃ sys', failShmat (sys.modify p f) t = some sys' := by
  obtain ⟨mapping, hmapping⟩ := Option.isSome_iff_exists.mp hpending
  have hwakeable : (((sys.modify p f).modify t.config.pid fun t =>
      { t with chainState := .CSTATE_NOT_CHAINED }).freeMapping mapping).HelperWaitersWakeable := by
    rw [HelperWaitersWakeable, (freeMapping_same _ _).threads]
    exact (h.modify hf).modify fun _ => rfl
  obtain ⟨sys', hsys'⟩ := wakePendingShmat_isSome hwakeable
  refine ⟨sys', ?_⟩
  rw [failShmat, show (sys.modify p f).findPendingMapping _ _ = some mapping from hmapping]
  exact hsys'

/-- A step of a `shmat` is carried out where its segment and its pending mapping are there. -/
theorem shmatChain_isSome (h : sys.HelperWaitersWakeable) (hshmat : t.chainState.inShmat = true)
    (hlive : Slot.live sys.shms t.config.waitingObjectIndex = true)
    (hpending : (sys.findPendingMapping t.process t.config.waitingObjectIndex).isSome = true)
    (result : BitVec 64) (answers : StopAnswers) :
    ∃ out, sys.shmatChain t result answers = some out := by
  have hclose : ∃ out, (failCloseSocket sys t).map (·, true) = some out := by
    obtain ⟨sys', hsys'⟩ := failShmat_isSome (p := t.config.pid) (f := fun t =>
      { t.registerChained (.close t.shmatSocketFd) with
        finalResult := some (statusWord (.error .ENOMEM)) }) h (fun _ => rfl) hpending
    refine ⟨(sys', true), ?_⟩
    rw [failCloseSocket, hsys']
    rfl
  unfold shmatChain
  dsimp only
  rw [if_neg (not_not.mpr hlive)]
  split
  · split
    · obtain ⟨sys', hsys'⟩ := failShmat_isSome (p := t.config.pid) (f := fun t =>
        { t with shmatSocketFd := result }) h (fun _ => rfl) hpending
      exact ⟨_, by rw [hsys']; rfl⟩
    · exact ⟨_, rfl⟩
  · split
    · exact hclose
    · exact ⟨_, rfl⟩
  · split
    · exact hclose
    · split
      · exact hclose
      · exact ⟨_, rfl⟩
  · obtain ⟨mapping, hmapping⟩ := Option.isSome_iff_exists.mp hpending
    rw [hmapping]
    have hwoken : ∀ middle : IpcSystem, middle.HelperWaitersWakeable →
        ∃ out, (middle.wakePendingShmat.bind fun sys => some (sys, true)) = some out := by
      intro middle hmiddle
      obtain ⟨sys', hsys'⟩ := wakePendingShmat_isSome hmiddle
      exact ⟨(sys', true), by rw [hsys']; rfl⟩
    refine hwoken _ (HelperWaitersWakeable.modify ?_ fun _ => rfl)
    exact h
  · rename_i hnone
    cases hcs : t.chainState <;> simp_all [SysVIpcChainState.inShmat, SysVIpcChainState.pastSocket]

theorem enterStart_isSome {call : EnteredCall} (h : sys.WaitsLegal)
    (hthread : sys.thread pid = some t) (hout : t.inSyscall = false)
    (hplanned : asPlanned t call = true) (hchain : t.chain = none)
    (hretry : sys.retryAborts (.enter pid call answers) = false) :
    ∃ sys', sys.enterStart t call answers = some sys' := by
  have hlegal := h.thread_legal hthread
  have hpid := (thread_mem hthread).2
  unfold enterStart
  dsimp only
  cases hwait : t.waitState with
  | WSTATE_NOT_WAITING =>
      cases call with
      | ipc call =>
          have hfree : mayCall t = true := by
            cases hnext : t.next <;> simp_all [mayCall, asPlanned]
          obtain ⟨sys', hsys', -⟩ := syscallCommon_spec call h (hpid ▸ hthread) hwait
            hfree false
          exact ⟨sys', hsys'⟩
      | execve prepared => exact ⟨_, rfl⟩
      | planned planned => exact ⟨_, rfl⟩
      | other => exact ⟨_, rfl⟩
  | WSTATE_RESTARTED_INTO_PPOLL =>
      have hnext := (hlegal.restarted hwait).1.next
      have hppoll : call.isPpoll = true := by
        cases call with
        | planned planned =>
            have heq : PlannedCall.ppoll = planned := by
              simpa [asPlanned, hnext] using hplanned
            rw [← heq]
            rfl
        | _ => simp [asPlanned, hnext] at hplanned
      dsimp only
      rw [if_pos hppoll]
      exact ⟨_, rfl⟩
  | WSTATE_RESTARTED_INTO_PPOLL_CANCELED =>
      dsimp only
      cases hstatus : sys.statusOf t answers with
      | some out => exact ⟨_, rfl⟩
      | none =>
          obtain ⟨hretries, hdead⟩ := statusOf_eq_none_iff.mp hstatus
          have hanswered : sys.answeredOf (.enter pid call answers) = some (t, answers) := by
            simp [answeredOf, hthread, hout, hplanned, hchain, hwait]
          rw [retryAborts, retryOf, hanswered] at hretry
          simp [Option.filter, hretries, hdead] at hretry
  | WSTATE_ENTERED_PPOLL => simp [(hlegal.entered hwait).2] at hout
  | WSTATE_SIGNALED_PPOLL => simp [(hlegal.signaled hwait).2] at hout
  | WSTATE_ENTERED_GETPID => simp [(hlegal.answered hwait).inSyscall] at hout

/-- Who is in a `shmat` outside a chain is to connect to the helper. -/
theorem chainState_of_inShmat (h : t.Legal) (hchain : t.chain = none)
    (hshmat : t.chainState.inShmat = true) : t.chainState = .CSTATE_SHMAT_SOCKET := by
  by_contra hne
  have hpast : t.chainState.pastSocket = true := by
    cases hcs : t.chainState <;> simp_all [SysVIpcChainState.inShmat]
  have hnot : t.chainState ≠ .CSTATE_NOT_CHAINED ∧ t.chainState ≠ .CSTATE_MSGRCV_RETRY := by
    rcases pastSocket_cases hpast with hcs | hcs | hcs <;> simp [hcs]
  have hwoken : ¬ t.Woken := fun hwoken => by
    rcases hwoken.goesOn with ⟨-, hstate | hstate⟩ | ⟨-, hstate⟩
    · exact hnot.1 hstate
    · exact hnot.2 hstate
    · exact hne hstate
  cases hwait : t.waitState with
  | WSTATE_NOT_WAITING =>
      have hsome := (h.free hwait).past hpast
      rw [hchain] at hsome
      cases hsome
  | WSTATE_RESTARTED_INTO_PPOLL => exact hnot.1 (h.restarted hwait).1.chainState
  | WSTATE_ENTERED_PPOLL => exact hnot.1 (h.entered hwait).1.chainState
  | WSTATE_RESTARTED_INTO_PPOLL_CANCELED => exact hwoken (h.canceled hwait).1
  | WSTATE_SIGNALED_PPOLL => exact hwoken (h.signaled hwait).1
  | WSTATE_ENTERED_GETPID => exact hnot.1 (h.answered hwait).chainState

theorem exitStart_isSome (h : sys.WaitsLegal) (hthread : sys.thread pid = some t)
    (hin : t.inSyscall = true) (hchain : t.chain = none)
    (hretry : sys.retryAborts (.leave pid result answers) = false)
    (hstep : t.chainState.inShmat = true → ∃ out, sys.shmatChain t result answers = some out) :
    ∃ sys', sys.exitStart t result answers = some sys' := by
  have hlegal := h.thread_legal hthread
  have hstatus : t.chainState.inShmat = false →
      (t.waitState = .WSTATE_SIGNALED_PPOLL ∨ t.waitState = .WSTATE_ENTERED_GETPID) →
        ∃ out, sys.statusOf t answers = some out := by
    intro hshmat hwait
    cases hstatus : sys.statusOf t answers with
    | some out => exact ⟨out, rfl⟩
    | none =>
        obtain ⟨hretries, hdead⟩ := statusOf_eq_none_iff.mp hstatus
        have hanswered : sys.answeredOf (.leave pid result answers) = some (t, answers) := by
          simp [answeredOf, hthread, hin, hchain, hshmat, hwait]
        rw [retryAborts, retryOf, hanswered] at hretry
        simp [Option.filter, hretries, hdead] at hretry
  unfold exitStart
  dsimp only
  split
  · rename_i hshmat
    rw [if_neg (not_not.mpr (chainState_of_inShmat hlegal hchain hshmat))]
    obtain ⟨out, hout⟩ := hstep hshmat
    rw [hout]
    exact ⟨_, rfl⟩
  · rename_i hshmat
    rw [Bool.not_eq_true] at hshmat
    cases hwait : t.waitState with
    | WSTATE_NOT_WAITING => exact ⟨_, rfl⟩
    | WSTATE_ENTERED_PPOLL =>
        dsimp only
        rw [if_neg (hlegal.entered hwait).1.reason]
        exact ⟨_, rfl⟩
    | WSTATE_SIGNALED_PPOLL =>
        obtain ⟨out, hout⟩ := hstatus hshmat (Or.inl hwait)
        dsimp only
        rw [if_neg (not_not.mpr (hlegal.signaled hwait).1.reason), hout]
        exact ⟨_, rfl⟩
    | WSTATE_ENTERED_GETPID =>
        obtain ⟨out, hout⟩ := hstatus hshmat (Or.inr hwait)
        dsimp only
        rw [if_neg (not_not.mpr (hlegal.answered hwait).reason), hout]
        exact ⟨_, rfl⟩
    | WSTATE_RESTARTED_INTO_PPOLL => simp [(hlegal.restarted hwait).2.1] at hin
    | WSTATE_RESTARTED_INTO_PPOLL_CANCELED => simp [(hlegal.canceled hwait).2.1] at hin

theorem chainedExit_isSome (h : sys.WaitsLegal) (hthread : sys.thread pid = some t)
    (hin : t.inSyscall = true) (hchain : t.chain.isSome = true)
    (hstep : t.chainState.inShmat = true → ∃ out,
      (sys.modify t.config.pid fun t => { t with result }).shmatChain t result answers =
        some out) :
    ∃ sys', sys.chainedExit t result answers = some sys' := by
  have hlegal := h.thread_legal hthread
  have hnone : ¬ t.chain = none := Option.isSome_iff_ne_none.mp hchain
  unfold chainedExit
  dsimp only
  cases hwait : t.waitState with
  | WSTATE_NOT_WAITING =>
      dsimp only
      split
      · rename_i hshmat
        obtain ⟨out, hout⟩ := hstep hshmat
        rw [hout]
        exact ⟨_, rfl⟩
      · exact ⟨_, rfl⟩
  | WSTATE_SIGNALED_PPOLL => exact ⟨_, rfl⟩
  | WSTATE_ENTERED_PPOLL => exact absurd (hlegal.entered hwait).1.chain hnone
  | WSTATE_ENTERED_GETPID => exact absurd (hlegal.answered hwait).chain hnone
  | WSTATE_RESTARTED_INTO_PPOLL => simp [(hlegal.restarted hwait).2.1] at hin
  | WSTATE_RESTARTED_INTO_PPOLL_CANCELED => simp [(hlegal.canceled hwait).2.1] at hin

theorem leave_isSome (h : sys.WaitsLegal)
    (hretry : sys.retryAborts (.leave pid result answers) = false)
    (hshmat : sys.shmatAborts (.leave pid result answers) = false) :
    ∃ sys', sys.step (.leave pid result answers) = some sys' := by
  have hwakeable : sys.HelperWaitersWakeable := fun u hu hreason =>
    (h.legal u hu).wakeable (by rw [hreason]; decide)
  simp only [step]
  cases hthread : sys.thread pid with
  | none => exact ⟨_, rfl⟩
  | some t =>
      dsimp only
      split
      · exact ⟨_, rfl⟩
      · rename_i hin
        rw [Bool.not_eq_true', Bool.not_eq_false] at hin
        have hthere : t.chainState.inShmat = true →
            Slot.live sys.shms t.config.waitingObjectIndex = true ∧
              (sys.findPendingMapping t.process t.config.waitingObjectIndex).isSome = true := by
          intro hin'
          simpa [shmatAborts, hthread, hin', ← Option.isSome_iff_ne_none] using hshmat
        split
        · rename_i hchain
          have hstep : t.chainState.inShmat = true → ∃ out,
              (sys.modify t.config.pid fun t => { t with result }).shmatChain t result answers =
                some out := fun hin' => by
            have hbase : (sys.modify t.config.pid fun t =>
                { t with result }).HelperWaitersWakeable := by
              refine hwakeable.modify ?_
              exact fun _ => rfl
            exact shmatChain_isSome hbase hin' (hthere hin').1 (hthere hin').2 result answers
          obtain ⟨sys', hsys'⟩ := chainedExit_isSome h hthread hin hchain hstep
          rw [hsys']
          exact ⟨_, rfl⟩
        · rename_i hchain
          obtain ⟨sys', hsys'⟩ := exitStart_isSome h hthread hin
            (Option.not_isSome_iff_eq_none.mp hchain) hretry fun hin' =>
              shmatChain_isSome hwakeable hin' (hthere hin').1 (hthere hin').2 result answers
          rw [hsys']
          exact ⟨_, rfl⟩

/-- **No assertion fails**, but for those of other parts: the second look of a `msgrcv`, and the
steps of a `shmat`. -/
theorem step_isSome (h : sys.WaitsLegal) (hcalm : sys.undisturbed event = true)
    (hretry : sys.retryAborts event = false) (hshmat : sys.shmatAborts event = false) :
    ∃ sys', sys.step event = some sys' := by
  cases event with
  | enter pid call answers =>
      simp only [step]
      cases hthread : sys.thread pid with
      | none => exact ⟨_, rfl⟩
      | some t =>
          have hlegal := h.thread_legal hthread
          dsimp only
          split
          · exact ⟨_, rfl⟩
          · rename_i hready
            rw [Bool.or_eq_true, not_or, Bool.not_eq_true, Bool.not_eq_true',
              Bool.not_eq_false] at hready
            split
            · rename_i hchain
              unfold chainedEnter
              cases hwait : t.waitState with
              | WSTATE_NOT_WAITING => exact ⟨_, rfl⟩
              | WSTATE_RESTARTED_INTO_PPOLL_CANCELED => exact ⟨_, rfl⟩
              | WSTATE_RESTARTED_INTO_PPOLL =>
                  rw [(hlegal.restarted hwait).1.chain] at hchain
                  cases hchain
              | WSTATE_ENTERED_PPOLL => simp [(hlegal.entered hwait).2] at hready
              | WSTATE_SIGNALED_PPOLL => simp [(hlegal.signaled hwait).2] at hready
              | WSTATE_ENTERED_GETPID => simp [(hlegal.answered hwait).inSyscall] at hready
            · rename_i hchain
              exact enterStart_isSome h hthread hready.1 hready.2
                (Option.not_isSome_iff_eq_none.mp hchain) hretry
  | leave pid result answers => exact leave_isSome h hretry hshmat
  | sigsys pid call =>
      simp only [step]
      cases hthread : sys.thread pid with
      | none => exact ⟨_, rfl⟩
      | some t =>
          have hlegal := h.thread_legal hthread
          dsimp only
          split
          · exact ⟨_, rfl⟩
          · rename_i hready
            rw [Bool.or_eq_true, not_or, Bool.not_eq_true, Bool.not_eq_true',
              Bool.not_eq_false] at hready
            have hwait : t.waitState = .WSTATE_NOT_WAITING := by
              have hppoll : t.next ≠ some .ppoll := by
                intro hnext
                cases call with
                | planned planned =>
                    have heq : PlannedCall.ppoll = planned := by
                      simpa [asPlanned, hnext] using hready.2
                    simp [undisturbed, hthread, hnext, ← heq, EnteredCall.isPpoll] at hcalm
                | _ => simp [asPlanned, hnext] at hready
              cases hwait : t.waitState with
              | WSTATE_NOT_WAITING => rfl
              | WSTATE_RESTARTED_INTO_PPOLL_CANCELED =>
                  exact absurd (hlegal.canceled hwait).1.next hppoll
              | WSTATE_RESTARTED_INTO_PPOLL =>
                  exact absurd (hlegal.restarted hwait).1.next hppoll
              | WSTATE_ENTERED_PPOLL => simp [(hlegal.entered hwait).2] at hready
              | WSTATE_SIGNALED_PPOLL => simp [(hlegal.signaled hwait).2] at hready
              | WSTATE_ENTERED_GETPID => simp [(hlegal.answered hwait).inSyscall] at hready
            cases call with
            | ipc call =>
                have hfree : mayCall t = true := by
                  cases hnext : t.next <;> simp_all [mayCall, asPlanned]
                obtain ⟨sys', hsys', -⟩ := syscallCommon_spec call h
                  ((thread_mem hthread).2 ▸ hthread) hwait hfree true
                exact ⟨sys', hsys'⟩
            | _ => simp [hwait]
  | signal pid putOff =>
      simp only [step]
      split
      · exact ⟨_, rfl⟩
      · split <;> exact ⟨_, rfl⟩
  | fork pid child cloneThread =>
      simp only [step]
      split <;> exact ⟨_, rfl⟩
  | exec pid =>
      simp only [step]
      split <;> exact ⟨_, rfl⟩
  | exit pid =>
      simp only [step]
      split <;> exact ⟨_, rfl⟩

end

end IpcSystem

end PRoot
