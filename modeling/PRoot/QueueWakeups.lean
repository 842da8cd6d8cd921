import PRoot.QueueRetries

/-!
# Who is woken for a message

A message that is sent wakes one thread, which takes it later.

* `NoLostMessage`: whoever waits while there is a message for it, another thread was woken for
  the message;
* `handsOver`: a step leaves no message to nobody;
* `messages_reach`: a run of such steps loses no wake-up.
-/

namespace PRoot

/-- A message is for the call: its type matches and it fits. -/
def MsgrcvArgs.accepts (args : MsgrcvArgs) (item : MsgQueueItem) : Bool :=
  args.matchesType item && args.fits item

namespace IpcSystem

/-- A thread waits for such a message. -/
def wantedBy (index : Nat) (item : MsgQueueItem) (t : IpcThread) : Bool :=
  t.waitsFor .WR_WAIT_QUEUE_RECV index && t.msgrcv.accepts item

/-- A thread was woken, and will take such a message. -/
def promisedTo (index : Nat) (item : MsgQueueItem) (t : IpcThread) : Bool :=
  retries t && t.config.waitingObjectIndex = index && t.msgrcv.accepts item

/-- **No wake-up is lost**: where a thread waits for a message that is in its queue, some thread
was woken that will take such a message. -/
def NoLostMessage (sys : IpcSystem) : Prop :=
  ∀ index, ∀ item ∈ (sys.queueAt index).items,
    sys.threads.any (wantedBy index item) = true → sys.threads.any (promisedTo index item) = true

/-- The message that is sent at an event, with the place of its queue. -/
def sentAt (sys : IpcSystem) (event : IpcEvent) : Option (Nat × MsgQueueItem) :=
  match sys.callOf event with
  | some (_, .msgsnd msqid msgsz readType readText _) =>
      (sys.msgsndItem msqid msgsz readType readText).toOption
  | _ => none

/-- The place of the message that is taken at a second look, with that of its queue. -/
def takenAt (sys : IpcSystem) (event : IpcEvent) : Option (Nat × Nat) :=
  (sys.retryOf event).bind fun (t, answers) =>
    match receive t.msgrcv (sys.queueAt t.config.waitingObjectIndex).items answers.written with
    | .deliver place _ =>
        if t.msgrcv.has msgCopy then none else some (t.config.waitingObjectIndex, place)
    | _ => none

/-- A thread was woken for a message and looks again at an event, or it is gone after the
event. -/
def leaves (sys : IpcSystem) (event : IpcEvent) (t : IpcThread) : Bool :=
  sys.ends event t || (sys.retryOf event).any fun (u, _) => u.config.pid = t.config.pid

/-- Among the threads that stay, one waits for a message and none was woken for it. -/
def left (sys : IpcSystem) (event : IpcEvent) (index : Nat) (item : MsgQueueItem) : Bool :=
  sys.threads.any (fun t => !sys.leaves event t && wantedBy index item t) &&
    !sys.threads.any fun t => !sys.leaves event t && promisedTo index item t

/-- A message that is sent is for the first thread that waits for its type, or another thread was
woken that will take it, or nobody waits for it. -/
def sendsSafely (sys : IpcSystem) (index : Nat) (item : MsgQueueItem) : Bool :=
  !sys.threads.any (wantedBy index item) || sys.threads.any (promisedTo index item) ||
    (sys.threads.find? (waitsForItem index item)).any (·.msgrcv.fits item)

/-- **Responsibility for messages is handed over**: a message that is sent is sent safely; and who
looks again, or is gone, was not the only one that was woken for a message it leaves behind and
that another thread waits for. -/
def handsOver (sys : IpcSystem) (event : IpcEvent) : Bool :=
  (sys.sentAt event).all (fun (index, item) => sys.sendsSafely index item) &&
    sys.threads.all fun t =>
      !sys.leaves event t || (sys.queueAt t.config.waitingObjectIndex).items.zipIdx.all
        fun (item, place) => sys.takenAt event = some (t.config.waitingObjectIndex, place) ||
          !promisedTo t.config.waitingObjectIndex item t ||
          !sys.left event t.config.waitingObjectIndex item

section

variable {sys sys' : IpcSystem} {event : IpcEvent}

variable {index : Nat}

theorem queueAt_setQueue (hlive : Slot.live sys.queues index = true) (queue : MsgQueue) (j : Nat) :
    (sys.setQueue index queue).queueAt j = if j = index then queue else sys.queueAt j :=
  queueOf_update hlive queue j

variable {item : MsgQueueItem}

/-- What a look leaves in the queues. -/
theorem item_before_look {pid : Nat} {args : MsgrcvArgs} {written : Except Errno Unit} {now : Int}
    (hlive : Slot.live sys.queues index = true) {j : Nat}
    (hitem : item ∈ ((sys.doMsgrcv pid index args written now).1.queueAt j).items) :
    ∃ place, (sys.queueAt j).items[place]? = some item ∧
      ∀ place' item', receive args (sys.queueAt index).items written = .deliver place' item' →
        args.has msgCopy = false → j = index → place ≠ place' := by
  have hsame : item ∈ (sys.queueAt j).items → (∀ place' item',
      receive args (sys.queueAt index).items written = .deliver place' item' →
        args.has msgCopy = false → j ≠ index) →
      ∃ place, (sys.queueAt j).items[place]? = some item ∧
        ∀ place' item', receive args (sys.queueAt index).items written = .deliver place' item' →
          args.has msgCopy = false → j = index → place ≠ place' := by
    intro hmem hnot
    obtain ⟨place, hplace⟩ := List.mem_iff_getElem?.mp hmem
    exact ⟨place, hplace, fun place' item' hdeliver hcopy hj =>
      absurd hj (hnot place' item' hdeliver hcopy)⟩
  unfold doMsgrcv at hitem
  cases hreceive : receive args (sys.queueAt index).items written with
  | fail status =>
      rw [hreceive] at hitem hsame
      exact hsame hitem fun _ _ h => by cases h
  | wait =>
      rw [hreceive] at hitem hsame
      exact hsame hitem fun _ _ h => by cases h
  | deliver place' item' =>
      rw [hreceive] at hitem hsame
      simp only [queueAt_setQueue hlive, MsgQueue.delivered] at hitem
      split at hitem
      · rename_i hj
        split at hitem
        · rename_i hcopy
          exact hsame (hj ▸ hitem) fun _ _ _ hnot => by rw [hcopy] at hnot; cases hnot
        · obtain ⟨place, hne, hplace⟩ := List.mem_eraseIdx_iff_getElem?.mp hitem
          refine ⟨place, hj ▸ hplace, fun _ _ heq _ _ => ?_⟩
          cases heq
          exact hne
      · rename_i hj
        exact hsame hitem fun _ _ _ _ => hj

variable {t : IpcThread}

/-- The queue is there of a second look that is made. -/
theorem retry_live {answers : StopAnswers} (h : sys.WaitsLegal) (hstep : sys.step event = some sys')
    (hretry : sys.retryOf event = some (t, answers)) :
    Slot.live sys.queues t.config.waitingObjectIndex = true := by
  obtain ⟨hanswered, hretries⟩ := Option.filter_eq_some_iff.mp hretry
  obtain ⟨after, status, v, f, hstatus, -⟩ := answered_thread h hanswered hstep
  by_contra hdead
  rw [statusOf_eq_none_iff.mpr ⟨hretries, Bool.eq_false_iff.mpr hdead⟩] at hstatus
  cases hstatus

/-- Who makes a call does not look again. -/
theorem retryOf_of_callOf {call : IpcRequest} (hcall : sys.callOf event = some (t, call)) :
    sys.retryOf event = none := by
  cases hretry : sys.retryOf event with
  | none => rfl
  | some retrier =>
      have hanswered := (Option.filter_eq_some_iff.mp hretry).1
      rw [callOf_eq_none hanswered] at hcall
      cases hcall

/-- A message that is in a queue after an event was in it, or was sent. -/
theorem item_before (h : sys.WaitsLegal) (hstep : sys.step event = some sys')
    (hitem : item ∈ (sys'.queueAt index).items) :
    (∃ place, (sys.queueAt index).items[place]? = some item ∧
        sys.takenAt event ≠ some (index, place)) ∨ sys.sentAt event = some (index, item) := by
  have hstay : sys.retryOf event = none → item ∈ (sys.queueAt index).items →
      ∃ place, (sys.queueAt index).items[place]? = some item ∧
        sys.takenAt event ≠ some (index, place) := by
    intro hnone hmem
    obtain ⟨place, hplace⟩ := List.mem_iff_getElem?.mp hmem
    exact ⟨place, hplace, by simp [takenAt, hnone]⟩
  have hqueue : (sys'.queueAt index) = queueOf (sys.queuesAfter event) index := by
    rw [← step_queues hstep]
    rfl
  rw [hqueue, queuesAfter] at hitem
  cases hcall : sys.callOf event with
  | none =>
      rw [hcall] at hitem
      cases hretry : sys.retryOf event with
      | none =>
          rw [lookOf_eq_none hcall hretry] at hitem
          exact Or.inl (hstay hretry hitem)
      | some retrier =>
          obtain ⟨t, answers⟩ := retrier
          have hlook : sys.lookOf event = some ⟨t.config.pid, t.config.waitingObjectIndex, t.msgrcv,
              answers.written, answers.now⟩ := by
            rw [lookOf, hcall, hretry]
            rfl
          rw [hlook] at hitem
          obtain ⟨place, hplace, hkept⟩ := item_before_look (retry_live h hstep hretry) hitem
          refine Or.inl ⟨place, hplace, ?_⟩
          rw [takenAt, hretry, Option.bind_some]
          dsimp only
          split
          · rename_i place' item' hdeliver
            split
            · simp
            · rename_i hcopy
              intro heq
              obtain ⟨hindex, rfl⟩ := Prod.mk.inj (Option.some.inj heq)
              exact hkept place' item' hdeliver (Bool.eq_false_iff.mpr hcopy) hindex.symm rfl
          · simp
  | some made =>
      obtain ⟨t, call⟩ := made
      have hnone := retryOf_of_callOf hcall
      rw [hcall] at hitem
      change item ∈ ((call.run sys t).1.queueAt index).items at hitem
      cases call with
      | msgget key msgflg =>
          refine Or.inl (hstay hnone ?_)
          change item ∈ (slotData MsgQueue.zero
            (getObject (msggetCall key msgflg) sys.queues).1 index).items at hitem
          rcases getObject_data (msggetCall key msgflg) sys.queues index with
            ⟨-, hsame⟩ | ⟨-, hmade, -⟩
          · rw [show slotData MsgQueue.zero _ index = _ from hsame] at hitem
            exact hitem
          · rw [show slotData MsgQueue.zero _ index = _ from hmade] at hitem
            cases hitem
      | msgsnd msqid msgsz readType readText now =>
          change item ∈ ((sys.msgsnd t.config.pid msqid msgsz readType readText now).1.queueAt
            index).items at hitem
          unfold msgsnd at hitem
          split at hitem
          · exact Or.inl (hstay hnone hitem)
          · rename_i index' item' hsent
            change item ∈ ((sys.setQueue index' ((sys.queueAt index').sent item' t.config.pid
              now)).queueAt index).items at hitem
            rw [queueAt_setQueue (msgsndItem_live hsent)] at hitem
            split at hitem
            · rename_i hindex
              rcases List.mem_append.mp hitem with hitem | hitem
              · exact Or.inl (hstay hnone (hindex ▸ hitem))
              · obtain rfl := List.mem_singleton.mp hitem
                refine Or.inr ?_
                rw [sentAt, hcall, hindex]
                simp [hsent, Except.toOption]
            · exact Or.inl (hstay hnone hitem)
      | msgrcv msqid args written now =>
          change item ∈ ((sys.msgrcvCall t.config.pid msqid args written now).1.queueAt index).items
            at hitem
          unfold msgrcvCall at hitem
          split at hitem
          · exact Or.inl (hstay hnone hitem)
          · rename_i index' hlookup
            obtain ⟨place, hplace, -⟩ := item_before_look
              (show Slot.live (sys.modify t.config.pid _).queues index' = true from
                lookupIpcObject_live hlookup) hitem
            exact Or.inl (hstay hnone (List.mem_of_getElem? hplace))
      | msgctl msqid cmd written =>
          change item ∈ ((sys.msgctl msqid cmd written).1.queueAt index).items at hitem
          unfold msgctl at hitem
          split at hitem
          · exact Or.inl (hstay hnone hitem)
          · rename_i index' hlookup
            split at hitem
            · change item ∈ (slotData MsgQueue.zero (Slot.release sys.queues index' fun content =>
                { content with data := { content.data with items := [] } }) index).items at hitem
              rw [Slot.release, slotData_modify MsgQueue.zero index' index _
                (fun queue => { queue with items := [] }) (fun _ => rfl)
                (Slot.live_lt (lookupIpcObject_live hlookup))] at hitem
              split at hitem
              · cases hitem
              · exact Or.inl (hstay hnone hitem)
            · exact Or.inl (hstay hnone hitem)
            · exact Or.inl (hstay hnone hitem)
      | sem call => exact Or.inl (hstay hnone hitem)
      | shmget key shmSize shmflg fd => exact Or.inl (hstay hnone hitem)
      | shmat shmid =>
          change item ∈ ((sys.shmat t shmid).1.queueAt index).items at hitem
          rw [queueAt, (shmat_same t shmid).queues] at hitem
          exact Or.inl (hstay hnone hitem)
      | shmdt addr =>
          change item ∈ ((sys.shmdt t addr).1.queueAt index).items at hitem
          rw [queueAt, (shmdt_same t addr).queues] at hitem
          exact Or.inl (hstay hnone hitem)
      | shmctl shmid cmd written =>
          change item ∈ ((sys.shmctl shmid cmd written).1.queueAt index).items at hitem
          rw [queueAt, (shmctl_same sys shmid cmd written).queues] at hitem
          exact Or.inl (hstay hnone hitem)

/-- Who waits found no message it could take. -/
theorem wait_rejects {args : MsgrcvArgs} {items : List MsgQueueItem} {written : Except Errno Unit}
    (hwait : receive args items written = .wait) (hitem : item ∈ items) :
    args.matchesType item = false := by
  unfold receive at hwait
  split at hwait
  · cases hwait
  · rename_i hcheck
    split at hwait
    · rename_i hnone
      split at hwait
      · cases hwait
      · rename_i hnowait
        have hcopy : args.has msgCopy = false := by
          by_contra hcopy
          rw [Bool.not_eq_false] at hcopy
          rw [Bool.not_eq_true] at hnowait
          simp [MsgrcvArgs.check, hcopy, hnowait] at hcheck
        rw [MsgrcvArgs.find, hcopy, if_neg Bool.false_ne_true, List.findIdx?_eq_none_iff] at hnone
        exact hnone item hitem
    · split at hwait
      · cases hwait
      · split at hwait
        · cases hwait
        · split at hwait <;> cases hwait

/-- The first thread that waits for the type of a message is woken by it. -/
theorem mem_wakeReceiver {threads : List IpcThread}
    (hfirst : threads.find? (waitsForItem index item) = some t) :
    retry t ∈ wakeReceiver index item threads := by
  induction threads with
  | nil => cases hfirst
  | cons u threads ih =>
      rw [wakeReceiver]
      rw [List.find?_cons] at hfirst
      split
      · rename_i hwaits
        rw [hwaits] at hfirst
        obtain rfl := Option.some.inj hfirst
        exact List.mem_cons_self
      · rename_i hnot
        rw [Bool.not_eq_true] at hnot
        rw [hnot] at hfirst
        exact List.mem_cons_of_mem _ (ih hfirst)

/-- What a call leaves of the other threads. -/
theorem mem_syscallCommon {v : IpcThread} {call : IpcRequest} {fromSigsys : Bool}
    (h : sys.syscallCommon t call fromSigsys = some sys') (hv : v ∈ (call.run sys t).1.threads)
    (hpid : v.config.pid ≠ t.config.pid) : v ∈ sys'.threads := by
  unfold syscallCommon at h
  dsimp only at h
  split at h
  · cases h
  · split at h
    · cases h
    · obtain ⟨w, -, h⟩ := Option.bind_eq_some_iff.mp h
      obtain ⟨u, -, h⟩ := Option.bind_eq_some_iff.mp h
      cases h
      exact List.mem_map.mpr ⟨v, hv, if_neg hpid⟩

/-- The message that is sent at an event. -/
theorem sentAt_spec (hsent : sys.sentAt event = some (index, item)) :
    ∃ t msqid msgsz readType readText now,
      sys.callOf event = some (t, .msgsnd msqid msgsz readType readText now) ∧
        sys.msgsndItem msqid msgsz readType readText = .ok (index, item) := by
  unfold sentAt at hsent
  split at hsent
  · rename_i t msqid msgsz readType readText now hcall
    refine ⟨t, msqid, msgsz, readType, readText, now, hcall, ?_⟩
    cases hitem : sys.msgsndItem msqid msgsz readType readText with
    | error status =>
        rw [hitem] at hsent
        cases hsent
    | ok sent =>
        rw [hitem] at hsent
        exact congrArg _ (Option.some.inj hsent)
  · cases hsent

/-- The thread that a message wakes. -/
theorem sent_woken (h : sys.WaitsLegal) (hsent : sys.sentAt event = some (index, item))
    (hstep : sys.step event = some sys')
    (hfirst : sys.threads.find? (waitsForItem index item) = some t) :
    retry t ∈ sys'.threads := by
  obtain ⟨caller, msqid, msgsz, readType, readText, now, hcall, hitem⟩ := sentAt_spec hsent
  obtain ⟨-, -, fromSigsys, hdone⟩ := callOf_called hcall hstep
  obtain ⟨hthread, hfree, -⟩ := callOf_free hcall hstep
  have ht := List.mem_of_find?_eq_some hfirst
  have hwaits : waitsForItem index item t = true := List.find?_some hfirst
  refine mem_syscallCommon hdone ?_ ?_
  · show retry t ∈ (sys.msgsnd caller.config.pid msqid msgsz readType readText now).1.threads
    rw [msgsnd, hitem]
    exact mem_wakeReceiver hfirst
  · show t.config.pid ≠ caller.config.pid
    intro hpid
    have hsame := h.eq_thread hthread ht (hpid.trans (thread_mem hthread).2)
    exact Receives.phase_ne_free (Or.inl (waitsForItem_waitReason hwaits)) (h.legal t ht)
      (hsame ▸ hfree)

theorem wantedBy_spec (h : wantedBy index item t = true) :
    t.waitReason = .WR_WAIT_QUEUE_RECV ∧ t.config.waitingObjectIndex = index ∧
      t.msgrcv.accepts item = true := by
  rw [wantedBy, Bool.and_eq_true] at h
  obtain ⟨hreason, hindex⟩ := waitsFor_waitReason h.1
  exact ⟨hreason, hindex, h.2⟩

/-- Who waits after an event waited before, unless it has just found no message. -/
theorem wanted_before {r' : IpcThread} (h : sys.WaitsLegal) (hcalm : sys.undisturbed event = true)
    (hstep : sys.step event = some sys') (hr' : r' ∈ sys'.threads)
    (hwanted : wantedBy index item r' = true)
    (hitem : item ∈ (sys.queueAt index).items ∨ sys.sentAt event = some (index, item)) :
    ∃ r ∈ sys.threads, wantedBy index item r = true ∧ sys.leaves event r = false := by
  have hthreads := step_threads h hcalm hstep
  obtain ⟨hreason, hindex, haccepts⟩ := wantedBy_spec hwanted
  rcases hthreads.change r' hr' with ⟨r, hr, hpid, hchange⟩ | ⟨_, _, _, _, -, -, rfl⟩
  · cases receiver_before h hstep hr (hthreads.legal.legal r' hr') hchange (Or.inl hreason) with
    | same hsame =>
        have hbefore : r.waitReason = .WR_WAIT_QUEUE_RECV := by
          rcases hsame.reason with hkept | hnone
          · exact hkept ▸ hreason
          · cases hnone.symm.trans hreason
        refine ⟨r, hr, ?_, ?_⟩
        · rw [wantedBy, IpcThread.waitsFor, hbefore, ← hsame.index, hindex, ← hsame.msgrcv,
            haccepts]
          simp
        · rw [leaves, Bool.or_eq_false_iff, Bool.eq_false_iff]
          refine ⟨fun hends => ends_gone h hstep hr hends hr' hpid, ?_⟩
          rw [Bool.eq_false_iff]
          intro hlooks
          obtain ⟨⟨u, answers⟩, hretry, hu⟩ := (Option.any_eq_true _ _).mp hlooks
          obtain ⟨hanswered, hretries⟩ := Option.filter_eq_some_iff.mp hretry
          have husame := h.eq_thread (h.thread_eq hr)
            (thread_mem (answeredOf_spec hanswered).1).1 (of_decide_eq_true hu)
          rw [show u = r from husame] at hretries
          cases hbefore.symm.trans (retries_reason (h.legal r hr) hretries)
    | retried hcall hsent hwaits hretry =>
        rw [hretry] at hreason
        cases hreason
    | blocks hblocks =>
        obtain ⟨t, msqid, written, now, hcall, -, -, hwaits⟩ := hblocks.call
        rw [hindex] at hwaits
        rcases hitem with hitem | hsent
        · have hrejects := wait_rejects hwaits hitem
          rw [MsgrcvArgs.accepts, hrejects] at haccepts
          cases haccepts
        · simp [sentAt, hcall] at hsent
  · cases hreason

/-- Who was woken for a message and stays is still woken for it. -/
theorem promised_after {w : IpcThread} (h : sys.WaitsLegal) (hcalm : sys.undisturbed event = true)
    (hstep : sys.step event = some sys') (hw : w ∈ sys.threads)
    (hstays : sys.leaves event w = false) (hpromised : promisedTo index item w = true) :
    sys'.threads.any (promisedTo index item) = true := by
  have hthreads := step_threads h hcalm hstep
  rw [leaves, Bool.or_eq_false_iff] at hstays
  obtain ⟨w', hw', hpid⟩ := hthreads.kept w hw hstays.1
  have hretries : retries w = true := by
    rw [promisedTo, Bool.and_eq_true, Bool.and_eq_true] at hpromised
    exact hpromised.1.1
  refine List.any_eq_true.mpr ⟨w', hw', ?_⟩
  rcases hthreads.change w' hw' with ⟨u, hu, hupid, hchange⟩ | ⟨_, child, _, _, -, hfresh, rfl⟩
  · obtain rfl := h.eq_thread (h.thread_eq hw) hu (hupid.symm.trans hpid)
    rcases woken_after h hstep hu hchange hretries with hsame | ⟨answers, hretry⟩
    · rw [promisedTo, hsame.retries_eq, hsame.index, hsame.msgrcv]
      exact hpromised
    · simp [hretry] at hstays
  · have hnew := List.all_eq_true.mp hfresh w hw
    simp [show child = w.config.pid from hpid] at hnew

/-- **A step that hands over loses no wake-up.** -/
theorem noLost_step (h : sys.WaitsLegal) (hnoLost : sys.NoLostMessage)
    (hcalm : sys.undisturbed event = true) (hover : sys.handsOver event = true)
    (hstep : sys.step event = some sys') : sys'.NoLostMessage := by
  intro index item hitem hwanted
  obtain ⟨r', hr', hwants⟩ := List.any_eq_true.mp hwanted
  rw [handsOver, Bool.and_eq_true] at hover
  rcases item_before h hstep hitem with ⟨place, hplace, htaken⟩ | hsent
  · have hmem := List.mem_of_getElem? hplace
    obtain ⟨r, hr, hrwants, hrstays⟩ := wanted_before h hcalm hstep hr' hwants (Or.inl hmem)
    obtain ⟨w, hw, hpromised⟩ := List.any_eq_true.mp
      (hnoLost index item hmem (List.any_eq_true.mpr ⟨r, hr, hrwants⟩))
    cases hwleaves : sys.leaves event w with
    | false => exact promised_after h hcalm hstep hw hwleaves hpromised
    | true =>
        have hindex : w.config.waitingObjectIndex = index := by
          rw [promisedTo, Bool.and_eq_true, Bool.and_eq_true, decide_eq_true_iff] at hpromised
          exact hpromised.1.2
        have hhandled := List.all_eq_true.mp hover.2 w hw
        rw [hwleaves, hindex, Bool.not_true, Bool.false_or] at hhandled
        have hmine := List.all_eq_true.mp hhandled (item, place)
          (List.mk_mem_zipIdx_iff_getElem?.mpr hplace)
        simp only [htaken, hpromised, decide_false, Bool.false_or, Bool.not_true,
          Bool.not_eq_true', left, Bool.and_eq_false_iff, Bool.not_eq_false'] at hmine
        rcases hmine with hnobody | hother
        · have hthis := List.any_eq_false.mp hnobody r hr
          simp [hrstays, hrwants] at hthis
        · obtain ⟨w₂, hw₂, hboth⟩ := List.any_eq_true.mp hother
          rw [Bool.and_eq_true, Bool.not_eq_true'] at hboth
          exact promised_after h hcalm hstep hw₂ hboth.1 hboth.2
  · obtain ⟨caller, msqid, msgsz, readType, readText, now, hcall, hsentItem⟩ := sentAt_spec hsent
    obtain ⟨r, hr, hrwants, -⟩ := wanted_before h hcalm hstep hr' hwants (Or.inr hsent)
    have hsafe := hover.1
    rw [hsent, Option.all_some] at hsafe
    change sys.sendsSafely index item = true at hsafe
    rw [sendsSafely, List.any_eq_true.mpr ⟨r, hr, hrwants⟩, Bool.not_true, Bool.false_or,
      Bool.or_eq_true] at hsafe
    rcases hsafe with hpromised | hfirst
    · obtain ⟨w, hw, hpromised⟩ := List.any_eq_true.mp hpromised
      refine promised_after h hcalm hstep hw ?_ hpromised
      rw [leaves, retryOf_of_callOf hcall]
      cases event with
      | exit => cases hcall
      | exec => cases hcall
      | _ => rfl
    · obtain ⟨first, hfound, hfits⟩ := (Option.any_eq_true _ _).mp hfirst
      refine List.any_eq_true.mpr ⟨retry first, sent_woken h hsent hstep hfound, ?_⟩
      have hwaits : waitsForItem index item first = true := List.find?_some hfound
      rw [waitsForItem, Bool.and_eq_true] at hwaits
      have hindex := (waitsFor_waitReason hwaits.1).2
      have haccepts : first.msgrcv.accepts item = true := by
        rw [MsgrcvArgs.accepts, hwaits.2, hfits]
        rfl
      rw [promisedTo, Bool.and_eq_true, Bool.and_eq_true]
      exact ⟨⟨rfl, decide_eq_true hindex⟩, haccepts⟩

end

/-- A step that loses no wake-up, removes no queue under a thread that was woken, and disturbs no
thread. -/
def keepsMessages (sys : IpcSystem) (event : IpcEvent) : Bool :=
  sys.retrySafe event && sys.handsOver event

end IpcSystem

/-- **No wake-up for a message is lost**, in a run whose steps hand over the messages: whenever a
thread waits for a message that is in its queue, some thread was woken that will take such a
message. -/
theorem messages_reach (pid process : Nat) (events : List IpcEvent) (sys : IpcSystem)
    (hrun : (IpcSystem.initial pid process).run events = some sys)
    (hkeeps : AbortableRuns.allSteps IpcSystem.step IpcSystem.keepsMessages (.initial pid process)
      events = true) :
    sys.NoLostMessage := by
  have hstart : (IpcSystem.initial pid process).WaitsLegal ∧
      (IpcSystem.initial pid process).NoLostMessage :=
    ⟨IpcSystem.initial_legal pid process, fun index item hitem _ => by cases hitem⟩
  refine (AbortableRuns.invariant (P := fun sys => sys.WaitsLegal ∧ sys.NoLostMessage) ?_ hstart
    hkeeps hrun).2
  rintro s event s' ⟨hlegal, hnoLost⟩ hsuits hstep
  rw [IpcSystem.keepsMessages, IpcSystem.retrySafe, Bool.and_eq_true, Bool.and_eq_true] at hsuits
  exact ⟨(IpcSystem.step_threads hlegal hsuits.1.1 hstep).legal,
    IpcSystem.noLost_step hlegal hnoLost hsuits.1.1 hsuits.2 hstep⟩

/-- No wake-up is lost in a run. -/
theorem messages_reach_run : ∃ sys, (IpcSystem.initial 1 1).run sentEvents = some sys ∧
    sys.NoLostMessage := by
  have hsome : ((IpcSystem.initial 1 1).run sentEvents).isSome = true := by decide
  obtain ⟨sys, hsys⟩ := Option.isSome_iff_exists.mp hsome
  exact ⟨sys, hsys, messages_reach 1 1 sentEvents sys hsys (by decide)⟩

/-- Two threads wait, the first of them with a buffer of one byte, and a message of four bytes
is sent: the first one is woken, and the other one waits on. -/
theorem messages_missed : ∃ sys,
    (IpcSystem.initial 1 1).run (callEvents 1 (.msgget 0 0x200) ++
      [.fork 1 2 true, .fork 1 3 true,
        .enter 2 (.ipc (.msgrcv 1 ⟨0, 8, 0, 0⟩ (.ok ()) 0)) plainAnswers,
        .enter 3 (.ipc (.msgrcv 1 ⟨0, 1, 0, 0⟩ (.ok ()) 0)) plainAnswers] ++
      callEvents 1 (.msgsnd 1 4 (.ok 1) (.ok fun _ => 7) 0)) = some sys ∧
      ¬ sys.NoLostMessage := by
  refine ⟨_, rfl, fun h => ?_⟩
  have hlost := h 0 ⟨1, [7, 7, 7, 7]⟩ (by decide) (by decide)
  revert hlost
  decide

end PRoot
