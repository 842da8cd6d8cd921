import PRoot.Receivers

/-!
# A second look is into the same queue

A thread that was woken for a message looks again at a place of the table of queues.

* `heldBy`: the queue a thread looked up and waits for, while it is not removed;
* `retries_hold`: a run that removes no queue between a wake-up and the second look keeps each
  thread with its queue.
-/

namespace PRoot

/-- What is noted of the queues that threads wait for. -/
inductive QueueEntry
  /-- A thread looks up the queue at some place, and waits for a message. -/
  | waits (pid index : Nat)
  /-- The queue at some place is removed. -/
  | removed (index : Nat)

/-- The queue that a thread looked up, after an entry. -/
def QueueEntry.held (pid : Nat) (before : Option Nat) : QueueEntry → Option Nat
  | .waits p index => if p = pid then some index else before
  | .removed index => if before = some index then none else before

/-- **The queue a thread looked up and waits for**, unless it was removed since. -/
def heldBy (pid : Nat) (log : List QueueEntry) : Option Nat :=
  log.foldl (QueueEntry.held pid) none

theorem heldBy_append (pid : Nat) (log entries : List QueueEntry) :
    heldBy pid (log ++ entries) = entries.foldl (QueueEntry.held pid) (heldBy pid log) :=
  List.foldl_append

namespace IpcSystem

/-- The queue that is removed at an event. -/
def removedAt (sys : IpcSystem) (event : IpcEvent) : Option Nat :=
  match sys.callOf event with
  | some (_, .msgctl msqid cmd _) =>
      match lookupIpcObject sys.queues msqid, msgCommand cmd with
      | .ok index, some .IPC_RMID => some index
      | _, _ => none
  | _ => none

/-- The queue that a thread looks up at an event to wait for a message, with its pid. -/
def waitsAt (sys : IpcSystem) (event : IpcEvent) : Option (Nat × Nat) :=
  match sys.callOf event with
  | some (t, .msgrcv msqid args written _) =>
      match lookupIpcObject sys.queues msqid with
      | .ok index =>
          if receive args (sys.queueAt index).items written = .wait then
            some (t.config.pid, index)
          else none
      | .error _ => none
  | _ => none

/-- What is noted of an event. -/
def queueEntries (sys : IpcSystem) (event : IpcEvent) : List QueueEntry :=
  (sys.waitsAt event).toList.map (fun (pid, index) => .waits pid index) ++
    (sys.removedAt event).toList.map .removed

/-- A queue is removed only while no thread was woken for a message of it and has not looked
again. -/
def removesSafely (sys : IpcSystem) (event : IpcEvent) : Bool :=
  !(sys.removedAt event).any fun index =>
    sys.threads.any fun t => retries t && t.config.waitingObjectIndex = index

/-- Each thread that waits for a message, or was woken for one, still has the queue it looked
up. -/
structure Holds (sys : IpcSystem) (log : List QueueEntry) : Prop where
  legal : sys.WaitsLegal
  held : ∀ t ∈ sys.threads, Receives t →
    heldBy t.config.pid log = some t.config.waitingObjectIndex ∧
      Slot.live sys.queues t.config.waitingObjectIndex = true

section

variable {sys sys' : IpcSystem} {event : IpcEvent} {t : IpcThread}

/-- What the end of a call leaves of the wait of its thread. -/
theorem finishCall_waits {fromSigsys : Bool} {status : Except Errno (BitVec 32)}
    {v u : IpcThread} (h : finishCall fromSigsys status v = some u) :
    u.waitReason = v.waitReason ∧
      u.config.waitingObjectIndex = v.config.waitingObjectIndex := by
  have hafter : (v.config.afterCall fromSigsys status).waitReason = v.config.waitReason ∧
      (v.config.afterCall fromSigsys status).waitingObjectIndex =
        v.config.waitingObjectIndex := by
    unfold SysVIpcConfig.afterCall
    split
    · exact ⟨rfl, rfl⟩
    · split <;> exact ⟨rfl, rfl⟩
  unfold finishCall at h
  split at h
  · cases h
    exact ⟨rfl, rfl⟩
  · cases h
    exact ⟨rfl, rfl⟩
  · dsimp only at h
    split at h
    · cases h
      exact hafter
    · split at h
      · cases h
        exact hafter
      · cases h
        exact hafter
  · cases h

/-- The threads after a call: those the call leaves, but for the end of it. -/
theorem syscallCommon_threads {call : IpcRequest} {fromSigsys : Bool}
    (h : sys.syscallCommon t call fromSigsys = some sys') {u' : IpcThread}
    (hu' : u' ∈ sys'.threads) :
    ∃ v ∈ (call.run sys t).1.threads, u'.waitReason = v.waitReason ∧
      u'.config.waitingObjectIndex = v.config.waitingObjectIndex := by
  unfold syscallCommon at h
  dsimp only at h
  split at h
  · cases h
  · split at h
    · cases h
    · obtain ⟨v, hv, h⟩ := Option.bind_eq_some_iff.mp h
      obtain ⟨u, hu, h⟩ := Option.bind_eq_some_iff.mp h
      cases h
      obtain ⟨w, hw, rfl⟩ := List.mem_map.mp hu'
      split
      · exact ⟨v, (thread_mem hv).1, finishCall_waits hu⟩
      · exact ⟨w, hw, rfl, rfl⟩

/-- The call that removes a queue. -/
theorem removedAt_spec {index : Nat} (hremoved : sys.removedAt event = some index) :
    ∃ t msqid cmd written, sys.callOf event = some (t, .msgctl msqid cmd written) ∧
      lookupIpcObject sys.queues msqid = .ok index ∧ msgCommand cmd = some .IPC_RMID := by
  unfold removedAt at hremoved
  split at hremoved
  · rename_i t msqid cmd written hcall
    split at hremoved
    · rename_i index' hlookup hcmd
      cases hremoved
      exact ⟨t, msqid, cmd, written, hcall, hlookup, hcmd⟩
    · cases hremoved
  · cases hremoved

/-- Nobody waits for a queue that was just removed. -/
theorem removed_waiters {index : Nat} (hremoved : sys.removedAt event = some index)
    (hstep : sys.step event = some sys') (ht : t ∈ sys'.threads) :
    t.waitsFor .WR_WAIT_QUEUE_RECV index = false := by
  obtain ⟨caller, msqid, cmd, written, hcall, hlookup, hcmd⟩ := removedAt_spec hremoved
  obtain ⟨-, -, fromSigsys, hdone⟩ := callOf_called hcall hstep
  obtain ⟨v, hv, hreason, hindex⟩ := syscallCommon_threads hdone ht
  rw [IpcRequest.run, msgctl, hlookup] at hv
  simp only [hcmd] at hv
  obtain ⟨u, hu, rfl⟩ := List.mem_map.mp hv
  rw [IpcThread.waitsFor, hreason, hindex]
  split
  · rfl
  · rename_i hnot
    exact Bool.eq_false_iff.mpr hnot

/-- A queue that is not removed stays. -/
theorem live_kept {index : Nat} (hstep : sys.step event = some sys')
    (hlive : Slot.live sys.queues index = true) (hkept : sys.removedAt event ≠ some index) :
    Slot.live sys'.queues index = true := by
  have hlook : ∀ (sys : IpcSystem) (pid i : Nat) (args : MsgrcvArgs)
      (written : Except Errno Unit) (now : Int), Slot.live sys.queues index = true →
      Slot.live (sys.doMsgrcv pid i args written now).1.queues index = true := by
    intro sys pid i args written now hlive
    unfold doMsgrcv
    split
    · exact hlive
    · exact hlive
    · simpa [setQueue] using hlive
  rw [step_queues hstep, queuesAfter]
  cases hcall : sys.callOf event with
  | none =>
      cases hlooked : sys.lookOf event with
      | none => exact hlive
      | some look => exact hlook _ _ _ _ _ _ hlive
  | some made =>
      obtain ⟨t, call⟩ := made
      show Slot.live (call.run sys t).1.queues index = true
      cases call with
      | msgget key msgflg =>
          show Slot.live (getObject (msggetCall key msgflg) sys.queues).1 index = true
          rw [Slot.live, getObject_others _ hlive]
          exact hlive
      | msgsnd msqid msgsz readType readText now =>
          show Slot.live (sys.msgsnd t.config.pid msqid msgsz readType readText now).1.queues index =
            true
          unfold msgsnd
          split
          · exact hlive
          · simpa [setQueue] using hlive
      | msgrcv msqid args written now =>
          show Slot.live (sys.msgrcvCall t.config.pid msqid args written now).1.queues index = true
          unfold msgrcvCall
          split
          · exact hlive
          · exact hlook _ _ _ _ _ _ hlive
      | msgctl msqid cmd written =>
          show Slot.live (sys.msgctl msqid cmd written).1.queues index = true
          unfold msgctl
          split
          · exact hlive
          · rename_i i hlookup
            split
            · rename_i hcmd
              have hne : index ≠ i := by
                rintro rfl
                exact hkept (by rw [removedAt, hcall]; simp [hlookup, hcmd])
              simpa [hne] using hlive
            · exact hlive
            · exact hlive
      | sem call => exact hlive
      | shmget key shmSize shmflg fd => exact hlive
      | shmat shmid =>
          show Slot.live (sys.shmat t shmid).1.queues index = true
          rw [(shmat_same t shmid).queues]
          exact hlive
      | shmdt addr =>
          show Slot.live (sys.shmdt t addr).1.queues index = true
          rw [(shmdt_same t addr).queues]
          exact hlive
      | shmctl shmid cmd written =>
          show Slot.live (sys.shmctl shmid cmd written).1.queues index = true
          rw [(shmctl_same sys shmid cmd written).queues]
          exact hlive

/-- The call that finds no message. -/
theorem waitsAt_spec {pid index : Nat} (hwaits : sys.waitsAt event = some (pid, index)) :
    ∃ t msqid args written now, sys.callOf event = some (t, .msgrcv msqid args written now) ∧
      t.config.pid = pid := by
  unfold waitsAt at hwaits
  split at hwaits
  · rename_i t msqid args written now hcall
    split at hwaits
    · split at hwaits
      · cases hwaits
        exact ⟨t, msqid, args, written, now, hcall, rfl⟩
      · cases hwaits
    · cases hwaits
  · cases hwaits

/-- What an event that does not remove its queue leaves of what a thread holds. -/
theorem heldBy_kept {log : List QueueEntry} {pid index : Nat} (hheld : heldBy pid log = some index)
    (hother : ∀ j, sys.waitsAt event ≠ some (pid, j))
    (hkept : sys.removedAt event ≠ some index) :
    heldBy pid (log ++ sys.queueEntries event) = some index := by
  rw [heldBy_append, hheld, queueEntries, List.foldl_append]
  have hwaits : ((sys.waitsAt event).toList.map fun (pid, index) =>
      QueueEntry.waits pid index).foldl (QueueEntry.held pid) (some index) = some index := by
    cases hwaits : sys.waitsAt event with
    | none => rfl
    | some waiter =>
        have hne : waiter.1 ≠ pid := fun heq => hother waiter.2 (heq ▸ hwaits)
        simp [QueueEntry.held, hne]
  rw [hwaits]
  cases hremoved : sys.removedAt event with
  | none => rfl
  | some j =>
      have hne : index ≠ j := fun heq => hkept (heq ▸ hremoved)
      simp [QueueEntry.held, hne]

/-- **Each thread stays with its queue.** -/
theorem holds_step {log : List QueueEntry} (h : sys.Holds log)
    (hcalm : sys.undisturbed event = true) (hsafe : sys.removesSafely event = true)
    (hstep : sys.step event = some sys') : sys'.Holds (log ++ sys.queueEntries event) := by
  have hthreads := step_threads h.legal hcalm hstep
  have hcaller : ∀ u ∈ sys.threads, Receives u → ∀ j,
      sys.waitsAt event ≠ some (u.config.pid, j) := by
    intro u hu hreceives j hwaits
    obtain ⟨t, msqid, args, written, now, hcall, hpid⟩ := waitsAt_spec hwaits
    obtain ⟨hthread, hfree, -⟩ := callOf_free hcall hstep
    have hsame := h.legal.eq_thread hthread hu (hpid.symm.trans (thread_mem hthread).2)
    exact hreceives.phase_ne_free (h.legal.legal u hu) (hsame ▸ hfree)
  refine ⟨hthreads.legal, fun u' hu' hreceives => ?_⟩
  rcases hthreads.change u' hu' with ⟨u, hu, hpid, hchange⟩ | ⟨_, _, _, _, -, -, rfl⟩
  · rw [hpid]
    cases receiver_before h.legal hstep hu (hthreads.legal.legal u' hu') hchange hreceives with
    | same hsame =>
        have hbefore := hsame.receives hreceives
        obtain ⟨hheld, hlive⟩ := h.held u hu hbefore
        rw [hsame.index]
        have hkept : sys.removedAt event ≠ some u.config.waitingObjectIndex := by
          intro hremoved
          rcases hreceives with hreason | hretries
          · have hnone := removed_waiters hremoved hstep hu'
            simp [IpcThread.waitsFor, hreason, hsame.index] at hnone
          · rw [hsame.retries_eq] at hretries
            rw [removesSafely, hremoved, Option.any_some, Bool.not_eq_true',
              List.any_eq_false] at hsafe
            simpa [hretries] using hsafe u hu
        exact ⟨heldBy_kept hheld (hcaller u hu hbefore) hkept, live_kept hstep hlive hkept⟩
    | retried hcall hitem hwaits hretry =>
        have hbefore : Receives u := Or.inl (waitsForItem_waitReason hwaits)
        obtain ⟨hheld, hlive⟩ := h.held u hu hbefore
        have hkept : sys.removedAt event ≠ some u.config.waitingObjectIndex := by
          simp [removedAt, hcall]
        rw [hretry]
        exact ⟨heldBy_kept hheld (hcaller u hu hbefore) hkept, live_kept hstep hlive hkept⟩
    | blocks hblocks =>
        obtain ⟨t, msqid, written, now, hcall, hcallerPid, hlookup, hwaits⟩ := hblocks.call
        have hkept : ∀ i, sys.removedAt event ≠ some i := by simp [removedAt, hcall]
        refine ⟨?_, live_kept hstep (lookupIpcObject_live hlookup) (hkept _)⟩
        have hnoted : sys.waitsAt event =
            some (u'.config.pid, u'.config.waitingObjectIndex) := by
          simp [waitsAt, hcall, hlookup, hwaits, hcallerPid]
        have hnone : sys.removedAt event = none := Option.eq_none_iff_forall_ne_some.mpr hkept
        rw [heldBy_append, queueEntries, hnoted, hnone, ← hpid]
        simp [QueueEntry.held]
  · rcases hreceives with hreason | hretries
    · cases hreason
    · cases hretries

/-- **Who waits for a queue that is removed gets an error**, `EIDRM`. -/
theorem removed_woken {index : Nat} (h : sys.WaitsLegal) (hcalm : sys.undisturbed event = true)
    (hremoved : sys.removedAt event = some index) (hstep : sys.step event = some sys')
    (ht : t ∈ sys.threads) (hwaits : t.waitsFor .WR_WAIT_QUEUE_RECV index = true) :
    ∃ u ∈ sys'.threads, u.config.pid = t.config.pid ∧
      u.phase = .woken (.result (.error .EIDRM)) := by
  obtain ⟨hreason, hindex⟩ := waitsFor_waitReason hwaits
  have hlegal := h.legal t ht
  have hwaiting : t.waitReason ≠ .WR_NOT_WAITING := by rw [hreason]; decide
  have hphase := IpcThread.phase_blocked (hlegal.waits_iff.mp hwaiting)
  obtain ⟨caller, msqid, cmd, written, hcall, hlookup, hcmd⟩ := removedAt_spec hremoved
  obtain ⟨hcaller, hfree, -⟩ := callOf_free hcall hstep
  have hother : t.config.pid ≠ event.pid := by
    intro hpid
    obtain rfl := h.eq_thread hcaller ht hpid
    cases hphase.symm.trans hfree
  have hends : sys.ends event t = false := by
    cases event with
    | exit => cases hcall
    | exec => cases hcall
    | _ => rfl
  have hthreads := step_threads h hcalm hstep
  obtain ⟨u, hu, hpid⟩ := hthreads.kept t ht hends
  refine ⟨u, hu, hpid, ?_⟩
  have hgone := removed_waiters hremoved hstep hu
  rcases hthreads.change u hu with ⟨v, hv, hvpid, hchange⟩ | ⟨_, _, _, _, hevent, -, -⟩
  · obtain rfl := h.eq_thread (h.thread_eq ht) hv (hvpid.symm.trans hpid)
    cases hchange with
    | same => simp [hwaits] at hgone
    | moved hown hmoves => exact absurd hown hother
    | execve hown hwait => exact absurd hown hother
    | called hcall' hcallerPid hwait hcalled =>
        obtain ⟨rfl, rfl⟩ := Prod.mk.inj (Option.some.inj (hcall.symm.trans hcall'))
        rcases hcalled with ⟨hown, -⟩ | ⟨-, hchange⟩
        · exact absurd (hown.trans hcallerPid) hother
        · cases hchange with
          | same => simp [hwaits] at hgone
          | retried hmsgsnd => cases hmsgsnd
          | removed hmsgctl hcmd' hlookup' hwaits' =>
              have hconfig : (v.wake (.error .EIDRM)).config =
                  wakeTracee { v.config with semopSops := v.config.semopSops } (.error .EIDRM) :=
                rfl
              obtain ⟨-, hwoken⟩ := hlegal.phase_woken hwaiting hconfig
              have hblocked : v.chain = none ∧ v.chainState = .CSTATE_NOT_CHAINED := by
                rcases hlegal.waits_iff.mp hwaiting with hwait | hwait
                · exact ⟨(hlegal.restarted hwait).1.chain, (hlegal.restarted hwait).1.chainState⟩
                · exact ⟨(hlegal.entered hwait).1.chain, (hlegal.entered hwait).1.chainState⟩
              have hwake : (v.wake (.error .EIDRM)).wakeOf = .result (.error .EIDRM) := by
                unfold IpcThread.wakeOf
                rw [show (v.wake (.error .EIDRM)).chain = none from hblocked.1]
                have hnot : retries (v.wake (.error .EIDRM)) = false := by
                  simp [retries, IpcThread.wake, hblocked.2]
                rw [hnot]
                rfl
              rw [hwoken, hwake]
          | semWoken hreason' => cases hreason.symm.trans hreason'
          | semOwn hown => exact absurd (hown.trans hcallerPid) hother
          | received hown => exact absurd (hown.trans hcallerPid) hother
          | waits hown => exact absurd (hown.trans hcallerPid) hother
          | busy hown => exact absurd (hown.trans hcallerPid) hother
          | connects hown => exact absurd (hown.trans hcallerPid) hother
          | unmaps hown => exact absurd (hown.trans hcallerPid) hother
    | answered hanswered => exact absurd (thread_mem (answeredOf_spec hanswered).1).2 hother
    | shmat hevent => subst hevent; cases hcall
    | restarted hevent => subst hevent; cases hcall
    | replaced hevent => subst hevent; cases hcall
  · subst hevent
    cases hcall

end

/-- A step that disturbs no thread that waits, and removes no queue under a thread that was woken
for a message. -/
def retrySafe (sys : IpcSystem) (event : IpcEvent) : Bool :=
  sys.undisturbed event && sys.removesSafely event

end IpcSystem

/-- **A second look is into the queue that was looked up**, in a run that removes no queue between
a wake-up and the second look: the queue is there and was not removed since the thread looked it
up, so that the look is made in it and PRoot is not aborted.  Who waits for a queue that is
removed is woken with `EIDRM`. -/
theorem retries_hold (pid process : Nat) (events : List IpcEvent) (sys : IpcSystem)
    (hrun : (IpcSystem.initial pid process).run events = some sys)
    (hsafe : AbortableRuns.allSteps IpcSystem.step IpcSystem.retrySafe (.initial pid process)
      events = true) :
    (∀ event t answers, sys.retryOf event = some (t, answers) →
      heldBy t.config.pid (AbortableRuns.record IpcSystem.step IpcSystem.queueEntries
          (.initial pid process) events) = some t.config.waitingObjectIndex ∧
        sys.retryAborts event = false ∧
        ∃ sys' status, sys.statusOf t answers = some (sys', status) ∧
          sys'.queues = (sys.lookAgain t answers).1.queues ∧
          (status = (sys.lookAgain t answers).2 ∨ status = .error .EINTR)) ∧
      ∀ event sys' index, sys.retrySafe event = true → sys.step event = some sys' →
        sys.removedAt event = some index →
          ∀ t ∈ sys.threads, t.waitsFor .WR_WAIT_QUEUE_RECV index = true →
            ∃ u ∈ sys'.threads, u.config.pid = t.config.pid ∧
              u.phase = .woken (.result (.error .EIDRM)) := by
  have hsplit : ∀ {sys : IpcSystem} {event : IpcEvent}, sys.retrySafe event = true →
      sys.undisturbed event = true ∧ sys.removesSafely event = true := fun h =>
    (Bool.and_eq_true _ _).mp h
  have hstart : (IpcSystem.initial pid process).Holds [] := by
    refine ⟨IpcSystem.initial_legal pid process, fun t ht hreceives => ?_⟩
    obtain rfl := List.mem_singleton.mp ht
    rcases hreceives with hreason | hretries
    · cases hreason
    · cases hretries
  have hholds := AbortableRuns.record_invariant (P := IpcSystem.Holds)
    (fun s log event s' h hsuits hstep =>
      IpcSystem.holds_step h (hsplit hsuits).1 (hsplit hsuits).2 hstep) hstart hsafe hrun
  rw [List.nil_append] at hholds
  refine ⟨fun event t answers hretry => ?_, fun event sys' index hsuits hstep hremoved t ht
    hwaits => IpcSystem.removed_woken hholds.legal (hsplit hsuits).1 hremoved hstep ht hwaits⟩
  obtain ⟨hanswered, hretries⟩ := Option.filter_eq_some_iff.mp hretry
  have ht := (IpcSystem.thread_mem (IpcSystem.answeredOf_spec hanswered).1).1
  obtain ⟨hheld, hlive⟩ := hholds.held t ht (Or.inr hretries)
  refine ⟨hheld, by simp [IpcSystem.retryAborts, hretry, hlive], ?_⟩
  cases hstatus : sys.statusOf t answers with
  | none =>
      rw [(IpcSystem.statusOf_eq_none_iff.mp hstatus).2] at hlive
      cases hlive
  | some out =>
      cases IpcSystem.statusOf_spec hstatus with
      | kept hchain => exact absurd ((IpcSystem.retries_iff t).mp hretries).1 hchain
      | closed hchain hne => exact absurd ((IpcSystem.retries_iff t).mp hretries).2 hne
      | again hagain hlive' hgives => exact ⟨_, _, rfl, rfl, hgives⟩

/-- The second look of a thread in a run. -/
theorem retries_hold_run : ∃ sys t answers,
    (IpcSystem.initial 1 1).run sentEvents = some sys ∧
    sys.retryOf (.leave 1 0 plainAnswers) = some (t, answers) ∧
    heldBy t.config.pid (AbortableRuns.record IpcSystem.step IpcSystem.queueEntries
      (.initial 1 1) sentEvents) = some t.config.waitingObjectIndex := by
  have hsome : (((IpcSystem.initial 1 1).run sentEvents).bind fun sys =>
      sys.retryOf (.leave 1 0 plainAnswers)).isSome = true := by decide
  obtain ⟨⟨t, answers⟩, hretry⟩ := Option.isSome_iff_exists.mp hsome
  obtain ⟨sys, hsys, hretry⟩ := Option.bind_eq_some_iff.mp hretry
  exact ⟨sys, t, answers, hsys, hretry,
    ((retries_hold 1 1 sentEvents sys hsys (by decide)).1 _ t _ hretry).1⟩

/-- A queue is removed after a thread was woken for a message of it: the second look of the
thread aborts PRoot, or is into a queue that took the place of the one it looked up. -/
theorem retries_lost :
    (∃ sys, (IpcSystem.initial 1 1).run
        (sentEvents ++ callEvents 2 (.msgctl 1 0 (.ok ()))) = some sys ∧
      sys.retryAborts (.leave 1 0 plainAnswers) = true ∧
      sys.step (.leave 1 0 plainAnswers) = none) ∧
    ∃ sys, (IpcSystem.initial 1 1).run (sentEvents ++ callEvents 2 (.msgctl 1 0 (.ok ())) ++
        callEvents 2 (.msgget 0 0x200) ++
        callEvents 2 (.msgsnd 0x1001 1 (.ok 1) (.ok fun _ => 8) 0)) = some sys ∧
      heldBy 1 (AbortableRuns.record IpcSystem.step IpcSystem.queueEntries (.initial 1 1)
        (sentEvents ++ callEvents 2 (.msgctl 1 0 (.ok ())) ++ callEvents 2 (.msgget 0 0x200) ++
          callEvents 2 (.msgsnd 0x1001 1 (.ok 1) (.ok fun _ => 8) 0))) = none ∧
      sys.entries (.leave 1 0 plainAnswers) = [.delivered 0 ⟨1, [8]⟩ 1] := by
  refine ⟨⟨_, rfl, ?_, ?_⟩, _, rfl, ?_, ?_⟩
  · decide
  · decide
  · decide
  · decide

end PRoot
