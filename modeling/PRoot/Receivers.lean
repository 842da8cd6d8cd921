import PRoot.MsgConserved
import PRoot.WaitRuns

/-!
# Threads that wait for messages

A thread that waits for a message is woken when one is sent, and then looks for it again.

* `receiver_before`: who waits for a message, or is woken for one, did so before the event or has
  just found none;
* `woken_after`: who was woken for a message is so until it looks again or is gone.
-/

namespace PRoot

namespace IpcSystem

/-- A thread waits for a message, or was woken for one and has not looked yet. -/
def Receives (t : IpcThread) : Prop := t.waitReason = .WR_WAIT_QUEUE_RECV ∨ retries t = true

/-- Two states of a thread between which nothing happened that is about messages. -/
structure SameReceiver (u u' : IpcThread) : Prop where
  index : u'.config.waitingObjectIndex = u.config.waitingObjectIndex
  status : u'.config.statusAfterWait = u.config.statusAfterWait
  msgrcv : u'.msgrcv = u.msgrcv
  chainState : u'.chainState = u.chainState
  reason : u'.waitReason = u.waitReason ∨ u'.waitReason = .WR_NOT_WAITING

variable {sys sys' : IpcSystem} {event : IpcEvent} {u u' : IpcThread}

/-- A thread that waits for a message is in a wait state. -/
theorem Receives.phase_ne_free (h : Receives u) (hlegal : u.Legal) : u.phase ≠ .free := by
  intro hfree
  have hwait : u.waitState = .WSTATE_NOT_WAITING ∨ u.waitState = .WSTATE_ENTERED_GETPID := by
    unfold IpcThread.phase at hfree
    split at hfree
    · rename_i hwait
      exact Or.inl hwait
    · rename_i hwait
      exact Or.inr hwait
    all_goals cases hfree
  have hnot : u.waitReason = .WR_NOT_WAITING ∧ u.chainState ≠ .CSTATE_MSGRCV_RETRY := by
    rcases hwait with hwait | hwait
    · exact ⟨(hlegal.free hwait).reason, (hlegal.free hwait).noRetry⟩
    · refine ⟨(hlegal.answered hwait).reason, ?_⟩
      rw [(hlegal.answered hwait).chainState]
      decide
  rcases h with hreason | hretries
  · cases hnot.1.symm.trans hreason
  · exact hnot.2 ((retries_iff u).mp hretries).1

theorem SameReceiver.refl (u : IpcThread) : SameReceiver u u := ⟨rfl, rfl, rfl, rfl, Or.inl rfl⟩

theorem SameReceiver.retries_eq (h : SameReceiver u u') : retries u' = retries u := by
  rw [retries, retries, h.chainState, h.status]

theorem SameReceiver.receives (h : SameReceiver u u') (hreceives : Receives u') : Receives u := by
  rcases hreceives with hreason | hretries
  · rcases h.reason with hsame | hnone
    · exact Or.inl (hsame ▸ hreason)
    · cases hnone.symm.trans hreason
  · exact Or.inr (h.retries_eq ▸ hretries)

theorem SameReceiver.chainNext (h : SameReceiver u u') : SameReceiver u (chainNext u') := by
  unfold IpcSystem.chainNext
  split <;> exact ⟨h.index, h.status, h.msgrcv, h.chainState, h.reason⟩

/-- A thread that is gone after an event is not there any more. -/
theorem ends_gone (h : sys.WaitsLegal) (hstep : sys.step event = some sys') (hu : u ∈ sys.threads)
    (hends : sys.ends event u = true) (hu' : u' ∈ sys'.threads) :
    u'.config.pid ≠ u.config.pid := by
  cases event with
  | exit pid =>
      have hpid : u.config.pid = pid := by simpa [ends] using hends
      simp only [step] at hstep
      split at hstep
      · rename_i hnone
        obtain rfl := Option.some.inj hstep
        have hother := List.find?_eq_none.mp hnone u' hu'
        simpa [hpid] using hother
      · rename_i t hthread
        obtain rfl := Option.some.inj hstep
        rw [exit_threads, List.mem_filter] at hu'
        simpa [(thread_mem hthread).2, hpid] using hu'.2
  | exec pid =>
      obtain ⟨t, hthread, hgone⟩ := (Option.any_eq_true _ _).mp hends
      simp only [Bool.and_eq_true, decide_eq_true_iff] at hgone
      simp only [step, hthread, hgone.1.1.1, if_true] at hstep
      obtain rfl := Option.some.inj hstep
      obtain ⟨v, hv, rfl⟩ := List.mem_map.mp hu'
      obtain ⟨hv, hkept⟩ := List.mem_filter.mp hv
      intro hpid
      have hsame : v = u := by
        refine h.eq_thread (h.thread_eq hu) hv (Eq.trans ?_ hpid)
        split <;> rfl
      simp [hsame, hgone.1.1.2, hgone.1.2, hgone.2] at hkept
  | enter => cases hends
  | leave => cases hends
  | sigsys => cases hends
  | signal => cases hends
  | fork => cases hends

/-- What a stop leaves of a thread that waits for a message. -/
theorem moves_receiver {f : IpcThread → IpcThread} (hmoves : Moves u event f) :
    SameReceiver u (f u) := by
  cases hmoves with
  | entered => exact ⟨rfl, rfl, rfl, rfl, Or.inl rfl⟩
  | enteredWoken => exact ⟨rfl, rfl, rfl, rfl, Or.inl rfl⟩
  | enteredPpoll => exact ⟨rfl, rfl, rfl, rfl, Or.inl rfl⟩
  | left =>
      refine SameReceiver.chainNext ?_
      split
      · exact .refl u
      · exact ⟨rfl, rfl, rfl, rfl, Or.inl rfl⟩
  | waitEnded => exact SameReceiver.chainNext ⟨rfl, rfl, rfl, rfl, Or.inr rfl⟩
  | leftChained => exact SameReceiver.chainNext ⟨rfl, rfl, rfl, rfl, Or.inl rfl⟩
  | leftWoken => exact SameReceiver.chainNext ⟨rfl, rfl, rfl, rfl, Or.inl rfl⟩
  | handled => exact ⟨rfl, rfl, rfl, rfl, Or.inl rfl⟩

/-- The call that is made at an event finds no message, and waits for one. -/
structure Blocks (sys : IpcSystem) (event : IpcEvent) (u' : IpcThread) : Prop where
  call : ∃ t msqid written now, sys.callOf event = some (t, .msgrcv msqid u'.msgrcv written now) ∧
    t.config.pid = u'.config.pid ∧
    lookupIpcObject sys.queues msqid = .ok u'.config.waitingObjectIndex ∧
    receive u'.msgrcv (sys.queueAt u'.config.waitingObjectIndex).items written = .wait
  reason : u'.waitReason = .WR_WAIT_QUEUE_RECV
  pending : retries u' = false

/-- Who waits for a message, or was woken for one. -/
inductive Before (sys : IpcSystem) (event : IpcEvent) (u u' : IpcThread) : Prop
  /-- It did so before. -/
  | same (hsame : SameReceiver u u')
  /-- It waited, and is woken by the message that is sent. -/
  | retried {t : IpcThread} {msqid msgsz : BitVec 64} {readType : Except Errno (BitVec 64)}
      {readText : Except Errno (Nat → BitVec 8)} {now : Int} {index : Nat} {item : MsgQueueItem}
      (hcall : sys.callOf event = some (t, .msgsnd msqid msgsz readType readText now))
      (hitem : sys.msgsndItem msqid msgsz readType readText = .ok (index, item))
      (hwaits : waitsForItem index item u = true) (hretry : u' = retry u)
  | blocks (hblocks : sys.Blocks event u')

/-- Who was woken for a message does not wait. -/
theorem retries_reason (h : u.Legal) (hretries : retries u = true) :
    u.waitReason = .WR_NOT_WAITING := by
  by_contra hreason
  have hstate := ((retries_iff u).mp hretries).1
  rcases h.waits_iff.mp hreason with hwait | hwait
  · cases hstate.symm.trans (h.restarted hwait).1.chainState
  · cases hstate.symm.trans (h.entered hwait).1.chainState

/-- Who waits is not in a chain, and was not woken. -/
theorem waits_retries (h : u.Legal) (hreason : u.waitReason ≠ .WR_NOT_WAITING) :
    u.chainState = .CSTATE_NOT_CHAINED := by
  rcases h.waits_iff.mp hreason with hwait | hwait
  · exact (h.restarted hwait).1.chainState
  · exact (h.entered hwait).1.chainState

theorem not_receives_of_woken {status : Except Errno (BitVec 32)} {semopSops : List SysVIpcSembuf}
    (h : u.Legal) (hreason : u.waitReason ≠ .WR_NOT_WAITING)
    (hconfig : u'.config = wakeTracee { u.config with semopSops } status)
    (hchainState : u'.chainState = u.chainState) : ¬ Receives u' := by
  rintro (hreceives | hretries)
  · rw [IpcThread.waitReason, hconfig] at hreceives
    cases hreceives
  · have hstate := ((retries_iff u').mp hretries).1
    rw [hchainState, waits_retries h hreason] at hstate
    cases hstate

/-- A thread that made a call waits for a message if the call found none. -/
theorem called_receives {call : IpcRequest} {t v : IpcThread}
    (hcall : sys.callOf event = some (t, call)) (hlegal : t.Legal) (hfree : t.phase = .free)
    (hchange : CallChange sys t.config.pid call t v) (hcalling : Calling v)
    (hfinished : Finished v u') (hreceives : Receives u') : sys.Blocks event u' := by
  have hidle : t.waitReason = .WR_NOT_WAITING := by
    by_contra hreason
    cases hfree.symm.trans (IpcThread.phase_blocked (hlegal.waits_iff.mp hreason))
  have hpending : retries u' = false := by
    have hnot : u'.chainState ≠ .CSTATE_MSGRCV_RETRY := by
      rcases hfinished.chainState with hstate | hstate
      · simp [hstate]
      · rw [hstate]
        rcases hcalling.state with hv | ⟨-, hv | ⟨hv, -⟩⟩ <;> simp [hv]
    simp [retries, hnot]
  have hreason : v.waitReason = .WR_WAIT_QUEUE_RECV := by
    rcases hreceives with hreason | hretries
    · exact hfinished.reason ▸ hreason
    · rw [hpending] at hretries
      cases hretries
  cases hchange with
  | same => cases hidle.symm.trans hreason
  | retried => cases hreason
  | removed => cases hreason
  | semWoken => cases hreason
  | semOwn hpid hwaits =>
      rcases hwaits with rfl | rfl <;> cases hreason
  | received => cases hidle.symm.trans hreason
  | @waits msqid args written now index hpid hmsgrcv hlookup hwaits =>
      subst hmsgrcv
      refine ⟨?_, hfinished.reason.trans hreason, hpending⟩
      rw [show u'.config.waitingObjectIndex = index from hfinished.index,
        show u'.msgrcv = args from hfinished.msgrcv]
      exact ⟨t, msqid, written, now, hcall, hfinished.pid.symm, hlookup, hwaits⟩
  | busy => cases hreason
  | connects => cases hidle.symm.trans hreason
  | unmaps => cases hidle.symm.trans hreason

/-- **Who waits for a message, or was woken for one,** did so before the event or has just found
none. -/
theorem receiver_before (h : sys.WaitsLegal) (hstep : sys.step event = some sys')
    (hu : u ∈ sys.threads) (hlegal : u'.Legal) (hchange : ThreadChange sys event u u')
    (hreceives : Receives u') : sys.Before event u u' := by
  have hphase := hreceives.phase_ne_free hlegal
  cases hchange with
  | same => exact .same (.refl u)
  | moved hpid hmoves => exact .same (moves_receiver hmoves)
  | execve hpid hwait => exact .same ⟨rfl, rfl, rfl, rfl, Or.inl rfl⟩
  | @called t u' call hcall hpid hwait hcalled =>
      rcases hcalled with ⟨hown, v, hchange, hcalling, hfinished⟩ | ⟨hother, hchange⟩
      · obtain ⟨hthread, hfree, -⟩ := callOf_free hcall hstep
        obtain rfl := h.eq_thread hthread hu (hown.trans hpid)
        exact .blocks (called_receives hcall (h.legal u hu) hfree hchange hcalling hfinished
          hreceives)
      · have hnot : ∀ {reason : SysVIpcWaitReason}, u.waitReason = reason →
            reason ≠ .WR_NOT_WAITING → u.waitReason ≠ .WR_NOT_WAITING := fun heq hne => heq ▸ hne
        cases hchange with
        | same => exact .same (.refl u)
        | retried hmsgsnd hitem hwaits =>
            subst hmsgsnd
            exact .retried hcall hitem hwaits rfl
        | removed hmsgctl hcmd hlookup hwaits =>
            exact absurd hreceives (not_receives_of_woken (h.legal u hu)
              (hnot (waitsFor_waitReason hwaits).1 (by decide)) rfl rfl)
        | semWoken hreason =>
            exact absurd hreceives (not_receives_of_woken (h.legal u hu)
              (hnot hreason (by decide)) rfl rfl)
        | semOwn hcaller => exact absurd hcaller hother
        | received hcaller => exact absurd hcaller hother
        | waits hcaller => exact absurd hcaller hother
        | busy hcaller => exact absurd hcaller hother
        | connects hcaller => exact absurd hcaller hother
        | unmaps hcaller => exact absurd hcaller hother
  | answered hanswered hstatus hresumed hanswers =>
      obtain ⟨-, hchain, -⟩ := answeredOf_spec hanswered
      exact absurd (answers_result hanswers (hresumed.chain.trans hchain)).1 hphase
  | shmat hevent hpid hwait hshmat hchainStep =>
      refine absurd (IpcThread.phase_free ?_) hphase
      rw [IpcThread.waitState, IpcThread.chainNext_config]
      exact (congrArg _ hchainStep.config).trans hwait
  | restarted =>
      rcases hreceives with hreason | hretries
      · cases hreason
      · cases ((retries_iff _).mp hretries).1
  | replaced => exact .same ⟨rfl, rfl, rfl, rfl, Or.inl rfl⟩

/-- **Who was woken for a message** is so until it looks again or is gone. -/
theorem woken_after (h : sys.WaitsLegal) (hstep : sys.step event = some sys')
    (hu : u ∈ sys.threads) (hchange : ThreadChange sys event u u') (hretries : retries u = true) :
    SameReceiver u u' ∨ ∃ answers, sys.retryOf event = some (u, answers) := by
  have hlegal := h.legal u hu
  have hphase := Receives.phase_ne_free (Or.inr hretries) hlegal
  have hidle := retries_reason hlegal hretries
  cases hchange with
  | same => exact Or.inl (.refl u)
  | moved hpid hmoves => exact Or.inl (moves_receiver hmoves)
  | execve hpid hwait => exact Or.inl ⟨rfl, rfl, rfl, rfl, Or.inl rfl⟩
  | @called t u' call hcall hpid hwait hcalled =>
      rcases hcalled with ⟨hown, -⟩ | ⟨hother, hchange⟩
      · obtain ⟨hthread, hfree, -⟩ := callOf_free hcall hstep
        obtain rfl := h.eq_thread hthread hu (hown.trans hpid)
        exact absurd hfree hphase
      · cases hchange with
        | same => exact Or.inl (.refl u)
        | retried hmsgsnd hitem hwaits =>
            cases hidle.symm.trans (waitsForItem_waitReason hwaits)
        | removed hmsgctl hcmd hlookup hwaits =>
            cases hidle.symm.trans (waitsFor_waitReason hwaits).1
        | semWoken hreason => cases hidle.symm.trans hreason
        | semOwn hcaller => exact absurd hcaller hother
        | received hcaller => exact absurd hcaller hother
        | waits hcaller => exact absurd hcaller hother
        | busy hcaller => exact absurd hcaller hother
        | connects hcaller => exact absurd hcaller hother
        | unmaps hcaller => exact absurd hcaller hother
  | @answered answers status v f after hanswered hstatus hresumed hanswers =>
      refine Or.inr ⟨answers, ?_⟩
      rw [retryOf, hanswered]
      simp [Option.filter, hretries]
  | shmat hevent hpid hwait => exact absurd (IpcThread.phase_free hwait) hphase
  | restarted hevent hother hreason => cases hidle.symm.trans hreason
  | replaced => exact Or.inl ⟨rfl, rfl, rfl, rfl, Or.inl rfl⟩

end IpcSystem

end PRoot
