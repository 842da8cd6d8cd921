import PRoot.IpcSteps

/-!
# No message is lost

What becomes of the messages of a queue, along any run.

* `IpcSystem.entries`: the messages that are sent, delivered and destroyed at an event;
* `step_queues`: what an event does to the queues;
* `messages_conserved`: every message that was sent was delivered once, was destroyed with its
  queue, or is in it.
-/

namespace PRoot

namespace IpcSystem

/-- A look for a message: whose it is, in which queue, and for what. -/
structure Look where
  pid : Nat
  index : Nat
  args : MsgrcvArgs
  written : Except Errno Unit
  now : Int

/-- The look for a message that is made at an event. -/
def lookOf (sys : IpcSystem) (event : IpcEvent) : Option Look :=
  match sys.callOf event with
  | some (t, .msgrcv msqid args written now) =>
      match lookupIpcObject sys.queues msqid with
      | .ok index => some ⟨t.config.pid, index, args, written, now⟩
      | .error _ => none
  | some _ => none
  | none =>
      (sys.retryOf event).map fun (t, answers) =>
        ⟨t.config.pid, t.config.waitingObjectIndex, t.msgrcv, answers.written, answers.now⟩

/-- What the look gives. -/
def found (sys : IpcSystem) (look : Look) : Receive :=
  receive look.args (sys.queueAt look.index).items look.written

end IpcSystem

/-- What is noted of a message. -/
inductive MsgEntry
  | sent (index : Nat) (item : MsgQueueItem)
  | delivered (index : Nat) (item : MsgQueueItem) (pid : Nat)
  | destroyed (index : Nat) (item : MsgQueueItem)
  deriving DecidableEq, Repr

namespace MsgEntry

/-- The message that was sent to the queue at some place. -/
def sentAt (index : Nat) : MsgEntry → Option MsgQueueItem
  | .sent i item => if i = index then some item else none
  | _ => none

/-- The message that left the queue at some place: it was delivered or destroyed. -/
def goneAt (index : Nat) : MsgEntry → Option MsgQueueItem
  | .sent .. => none
  | .delivered i item _ => if i = index then some item else none
  | .destroyed i item => if i = index then some item else none

end MsgEntry

namespace IpcSystem

/-- The messages that are sent, delivered or destroyed at an event.  A message that is copied
stays where it is. -/
def entries (sys : IpcSystem) (event : IpcEvent) : List MsgEntry :=
  match sys.callOf event with
  | some (_, .msgsnd msqid msgsz readType readText _) =>
      match sys.msgsndItem msqid msgsz readType readText with
      | .ok (index, item) => [.sent index item]
      | .error _ => []
  | some (_, .msgctl msqid cmd _) =>
      match lookupIpcObject sys.queues msqid, msgCommand cmd with
      | .ok index, some .IPC_RMID => (sys.queueAt index).items.map (.destroyed index)
      | _, _ => []
  | _ =>
      match sys.lookOf event with
      | none => []
      | some look =>
          match sys.found look with
          | .deliver _ item =>
              if look.args.has msgCopy then [] else [.delivered look.index item look.pid]
          | _ => []

/-! ## What an event does to the queues -/

/-- The queues after an event. -/
def queuesAfter (sys : IpcSystem) (event : IpcEvent) : List (IpcObject MsgQueue) :=
  match sys.callOf event with
  | some (t, call) => (call.run sys t).1.queues
  | none =>
      match sys.lookOf event with
      | some look =>
          (sys.doMsgrcv look.pid look.index look.args look.written look.now).1.queues
      | none => sys.queues

section

variable {sys sys' : IpcSystem} {event : IpcEvent}

theorem retryOf_eq_none (h : sys.answeredOf event = none) : sys.retryOf event = none := by
  rw [retryOf, h]
  rfl

theorem lookOf_eq_none (hcall : sys.callOf event = none) (h : sys.retryOf event = none) :
    sys.lookOf event = none := by
  rw [lookOf, hcall, h]
  rfl

theorem queuesAfter_eq_self (hcall : sys.callOf event = none)
    (hretry : sys.retryOf event = none) : sys.queuesAfter event = sys.queues := by
  rw [queuesAfter, hcall, lookOf_eq_none hcall hretry]

theorem syscallCommon_queues {t : IpcThread} {call : IpcRequest} {fromSigsys : Bool}
    (h : sys.syscallCommon t call fromSigsys = some sys') :
    sys'.queues = (call.run sys t).1.queues := by
  unfold syscallCommon at h
  dsimp only at h
  split at h
  · cases h
  · split at h
    · cases h
    · obtain ⟨u, -, h⟩ := Option.bind_eq_some_iff.mp h
      obtain ⟨u', -, h⟩ := Option.bind_eq_some_iff.mp h
      cases h
      rfl

/-- Getting the status of a thread that was woken: nothing, or a second look. -/
theorem statusOf_queues {t : IpcThread} {answers : StopAnswers}
    {status : Except Errno (BitVec 32)} (h : sys.statusOf t answers = some (sys', status)) :
    sys'.queues =
      if retries t then
        (sys.doMsgrcv t.config.pid t.config.waitingObjectIndex t.msgrcv answers.written
          answers.now).1.queues
      else sys.queues := by
  cases statusOf_spec h with
  | kept hchain => rw [if_neg fun hretries => hchain ((retries_iff t).mp hretries).1]
  | closed hchain hstatus =>
      rw [if_neg fun hretries => hstatus ((retries_iff t).mp hretries).2, modify_queues]
  | again hretries hlive hgives =>
      rw [if_pos hretries, modify_queues]
      rfl

/-- **What an event does to the queues.** -/
theorem step_queues (h : sys.step event = some sys') : sys'.queues = sys.queuesAfter event := by
  cases step_spec h with
  | stays hcall hanswered => rw [queuesAfter_eq_self hcall (retryOf_eq_none hanswered)]
  | called hthread hcall hanswered hfree hchain hdone =>
      rw [queuesAfter, hcall]
      exact syscallCommon_queues hdone
  | moved hthread hcall hanswered hmoves =>
      rw [queuesAfter_eq_self hcall (retryOf_eq_none hanswered), modify_queues]
  | @execve pid t prepared answers hthread hfree hchain hwait =>
      have hanswered : sys.answeredOf (.enter pid (.execve prepared) answers) = none := by
        simp [answeredOf, hthread, hwait]
      rw [queuesAfter_eq_self rfl (retryOf_eq_none hanswered)]
      split
      · exact (removeMappings_same _ _).queues
      · rfl
  | @answered event t answers sys₁ status f hthread hcall hanswered hstatus hanswers =>
      rw [modify_queues, statusOf_queues hstatus, queuesAfter, lookOf, hcall, retryOf, hanswered]
      by_cases hretries : retries t = true <;> simp [Option.filter, hretries]
  | shmatStarted hthread hin hchain hshmat hdone =>
      rw [queuesAfter_eq_self rfl (retryOf_eq_none ?_), modify_queues, modify_queues,
        (shmatChain_same hdone).queues]
      simp [answeredOf, hthread, hshmat, SysVIpcChainState.inShmat]
  | shmatChained hthread hin hchain hshmat hwait hdone =>
      rw [queuesAfter_eq_self rfl (retryOf_eq_none ?_), modify_queues,
        (shmatChain_same hdone).queues, modify_queues]
      simp [answeredOf, hthread, hwait]
  | forked hthread hfresh =>
      rw [queuesAfter_eq_self rfl rfl, (inheritChild_same _ _ _).queues]
  | replaced hthread hin =>
      rw [queuesAfter_eq_self rfl rfl]
      rfl
  | exited hthread => rw [queuesAfter_eq_self rfl rfl, (exit_same _).queues]

end

end IpcSystem

/-! ## The law -/

/-- The messages of one type. -/
def ofType (mtype : BitVec 64) (items : List MsgQueueItem) : List MsgQueueItem :=
  items.filter (·.mtype = mtype)

/-- The queue at some place. -/
def queueOf (queues : List (IpcObject MsgQueue)) (index : Nat) : MsgQueue :=
  slotData MsgQueue.zero queues index

/-- The sum of the lengths of some messages. -/
def lengthSum (items : List MsgQueueItem) : Nat :=
  items.foldr (fun item sum => item.mtext.length + sum) 0

/-- The counters of a queue are right. -/
def MsgQueue.Counted (queue : MsgQueue) : Prop :=
  queue.stats.msgQnum = queue.items.length ∧
    queue.stats.msgCbytes = lengthSum queue.items

/-- **What holds of the queues and of the record of their messages**: of each type, those that
were sent are those that left, and then those that are queued, in this order. -/
structure QueueLaw (queues : List (IpcObject MsgQueue)) (log : List MsgEntry) : Prop where
  conserved : ∀ index mtype, ofType mtype (log.filterMap (MsgEntry.sentAt index)) =
    ofType mtype (log.filterMap (MsgEntry.goneAt index)) ++
      ofType mtype (queueOf queues index).items
  emptied : ∀ index, Slot.live queues index = false → (queueOf queues index).items = []
  counted : ∀ index, Slot.live queues index = true → (queueOf queues index).Counted

@[simp] theorem ofType_append (mtype : BitVec 64) (items items' : List MsgQueueItem) :
    ofType mtype (items ++ items') = ofType mtype items ++ ofType mtype items' :=
  List.filter_append _ _

@[simp] theorem lengthSum_append_singleton (items : List MsgQueueItem) (item : MsgQueueItem) :
    lengthSum (items ++ [item]) = lengthSum items + item.mtext.length := by
  induction items with
  | nil => exact Nat.add_comm _ _
  | cons head items ih => exact (congrArg _ ih).trans (Nat.add_assoc _ _ _).symm

variable {place : Nat} {item : MsgQueueItem}

theorem lengthSum_eraseIdx {items : List MsgQueueItem} (hitem : items[place]? = some item) :
    lengthSum items = item.mtext.length + lengthSum (items.eraseIdx place) := by
  induction items generalizing place with
  | nil => cases hitem
  | cons head items ih =>
      cases place with
      | zero =>
          cases hitem
          rfl
      | succ place =>
          have hrest := ih hitem
          show head.mtext.length + lengthSum items =
            item.mtext.length + (head.mtext.length + lengthSum (items.eraseIdx place))
          omega

/-- A message is received before the later ones of its type. -/
theorem ofType_eraseIdx {args : MsgrcvArgs} {items : List MsgQueueItem}
    (hcopy : args.has msgCopy = false) (hfind : args.find items = some place)
    (hitem : items[place]? = some item) (mtype : BitVec 64) :
    ofType mtype items = ofType mtype [item] ++ ofType mtype (items.eraseIdx place) := by
  rw [MsgrcvArgs.find, hcopy, if_neg Bool.false_ne_true] at hfind
  induction items generalizing place with
  | nil => cases hitem
  | cons head items ih =>
      rw [List.findIdx?_cons] at hfind
      split at hfind
      · cases hfind
        cases hitem
        show ofType mtype ([item] ++ items) = _
        rw [ofType_append]
        rfl
      · rename_i hhead
        obtain ⟨place', hplace', rfl⟩ := Option.map_eq_some_iff.mp hfind
        have hrest := ih hplace' hitem
        have hmatches : args.matchesType item = true := by
          obtain ⟨hlt, hget⟩ := List.getElem?_eq_some_iff.mp hitem
          obtain ⟨hlt', hplace, -⟩ := List.findIdx?_eq_some_iff_getElem.mp hplace'
          exact hget ▸ hplace
        rw [List.eraseIdx_cons_succ]
        by_cases htype : head.mtype = mtype
        · have hne : item.mtype ≠ mtype := by
            intro heq
            rw [MsgrcvArgs.matchesType, heq, ← htype] at hmatches
            exact hhead hmatches
          have hnone : ofType mtype [item] = [] := by simp [ofType, hne]
          rw [hnone, List.nil_append] at hrest ⊢
          simp only [ofType, List.filter_cons] at hrest ⊢
          rw [hrest]
        · have hskip : ∀ rest, ofType mtype (head :: rest) = ofType mtype rest := by
            simp [ofType, htype]
          rw [hskip, hskip, hrest]

section Law

variable {queues : List (IpcObject MsgQueue)} {log : List MsgEntry} {index : Nat}

theorem queueOf_update (hlive : Slot.live queues index = true) (queue : MsgQueue) (j : Nat) :
    queueOf (Slot.update queues index fun content => { content with data := queue }) j =
      if j = index then queue else queueOf queues j :=
  slotData_modify _ _ _ _ (fun _ => queue) (fun _ => rfl) (Slot.live_lt hlive)

theorem QueueLaw.get (h : QueueLaw queues log) (key msgflg : BitVec 64) :
    QueueLaw (getObject (msggetCall key msgflg) queues).1 log := by
  have hdata := getObject_data (msggetCall key msgflg) queues
  have hitems : ∀ i, (queueOf (getObject (msggetCall key msgflg) queues).1 i).items =
      (queueOf queues i).items := by
    intro i
    rcases hdata i with ⟨-, hsame⟩ | ⟨hfree, hmade, -⟩
    · exact congrArg MsgQueue.items hsame
    · rw [h.emptied i hfree]
      exact congrArg MsgQueue.items hmade
  refine ⟨fun i mtype => ?_, fun i hdead => ?_, fun i hlive => ?_⟩
  · rw [hitems]
    exact h.conserved i mtype
  · rw [hitems]
    rcases hdata i with ⟨hsame, -⟩ | ⟨hfree, -, -⟩
    · exact h.emptied i (hsame.symm.trans hdead)
    · exact h.emptied i hfree
  · rcases hdata i with ⟨hsame, hqueue⟩ | ⟨-, hmade, -⟩
    · have hcounted := h.counted i (hsame.symm.trans hlive)
      exact (congrArg MsgQueue.Counted hqueue).mpr hcounted
    · exact (congrArg MsgQueue.Counted hmade).mpr ⟨rfl, rfl⟩

/-- One queue changes, and what happened to its messages is noted. -/
theorem QueueLaw.update (h : QueueLaw queues log) (hlive : Slot.live queues index = true)
    {queue : MsgQueue} {noted : List MsgEntry} (hcounted : queue.Counted)
    (hhere : ∀ mtype,
      ofType mtype (queueOf queues index).items ++
          ofType mtype (noted.filterMap (MsgEntry.sentAt index)) =
        ofType mtype (noted.filterMap (MsgEntry.goneAt index)) ++ ofType mtype queue.items)
    (hothers : ∀ i, i ≠ index → noted.filterMap (MsgEntry.sentAt i) = [] ∧
      noted.filterMap (MsgEntry.goneAt i) = []) :
    QueueLaw (Slot.update queues index fun content => { content with data := queue })
      (log ++ noted) := by
  have hqueue := queueOf_update hlive queue
  refine ⟨fun i mtype => ?_, fun i hdead => ?_, fun i hlive' => ?_⟩
  · rw [List.filterMap_append, List.filterMap_append, ofType_append, ofType_append, hqueue,
      h.conserved]
    split
    · rename_i hi
      subst hi
      rw [List.append_assoc, List.append_assoc, hhere]
    · rename_i hi
      rw [(hothers i hi).1, (hothers i hi).2]
      simp [ofType]
  · rw [Slot.live_update] at hdead
    have hi : i ≠ index := by
      rintro rfl
      exact absurd (hdead.symm.trans hlive) (by decide)
    rw [hqueue, if_neg hi]
    exact h.emptied i hdead
  · rw [Slot.live_update] at hlive'
    rw [hqueue]
    split
    · exact hcounted
    · exact h.counted i hlive'

theorem QueueLaw.send (h : QueueLaw queues log) (hlive : Slot.live queues index = true)
    (item : MsgQueueItem) (pid now : Int) :
    QueueLaw (Slot.update queues index fun content =>
      { content with data := (queueOf queues index).sent item pid now })
      (log ++ [.sent index item]) := by
  obtain ⟨hnum, hbytes⟩ := h.counted index hlive
  refine h.update hlive ⟨?_, ?_⟩ (fun mtype => ?_) fun i hi => ?_
  · simp [MsgQueue.sent, hnum]
  · simp [MsgQueue.sent, hbytes]
  · simp [MsgEntry.sentAt, MsgEntry.goneAt, MsgQueue.sent, ofType]
  · simp [MsgEntry.sentAt, MsgEntry.goneAt, Ne.symm hi]

theorem QueueLaw.copy (h : QueueLaw queues log) (hlive : Slot.live queues index = true)
    (place : Nat) (item : MsgQueueItem) (pid now : Int) :
    QueueLaw (Slot.update queues index fun content =>
      { content with data := (queueOf queues index).delivered true place item pid now })
      (log ++ []) := by
  refine h.update hlive ?_ (fun mtype => ?_) fun i hi => ⟨rfl, rfl⟩
  · exact h.counted index hlive
  · simp [MsgQueue.delivered, ofType]

theorem QueueLaw.deliver (h : QueueLaw queues log) (hlive : Slot.live queues index = true)
    {args : MsgrcvArgs} (hcopy : args.has msgCopy = false)
    (hfind : args.find (queueOf queues index).items = some place)
    (hitem : (queueOf queues index).items[place]? = some item) (pid : Nat) (now : Int) :
    QueueLaw (Slot.update queues index fun content =>
      { content with data := (queueOf queues index).delivered false place item pid now })
      (log ++ [.delivered index item pid]) := by
  obtain ⟨hnum, hbytes⟩ := h.counted index hlive
  obtain ⟨hlt, hget⟩ := List.getElem?_eq_some_iff.mp hitem
  refine h.update hlive ⟨?_, ?_⟩ (fun mtype => ?_) fun i hi => ?_
  · simp [MsgQueue.delivered, hnum, List.length_eraseIdx, hlt]
  · have hsum := lengthSum_eraseIdx hitem
    simp only [MsgQueue.delivered, Bool.false_eq_true, if_false, hbytes]
    omega
  · simp only [List.filterMap_cons, List.filterMap_nil, MsgEntry.sentAt, MsgEntry.goneAt]
    rw [ofType_eraseIdx hcopy hfind hitem mtype]
    simp [MsgQueue.delivered, ofType]
  · simp [MsgEntry.sentAt, MsgEntry.goneAt, Ne.symm hi]

theorem QueueLaw.remove (h : QueueLaw queues log) (hlive : Slot.live queues index = true) :
    QueueLaw (Slot.release queues index fun content =>
        { content with data := { content.data with items := [] } })
      (log ++ (queueOf queues index).items.map (.destroyed index)) := by
  have hqueue : ∀ i, queueOf (Slot.release queues index fun content =>
      { content with data := { content.data with items := [] } }) i =
      if i = index then { queueOf queues i with items := [] } else queueOf queues i := fun i =>
    slotData_modify MsgQueue.zero index i _ (fun queue => { queue with items := [] }) (fun _ => rfl)
      (Slot.live_lt hlive)
  refine ⟨fun i mtype => ?_, fun i hdead => ?_, fun i hlive' => ?_⟩
  · rw [List.filterMap_append, List.filterMap_append, ofType_append, ofType_append, hqueue,
      h.conserved, List.filterMap_map, List.filterMap_map]
    by_cases hi : i = index
    · subst hi
      have hsent : MsgEntry.sentAt i ∘ MsgEntry.destroyed i = fun _ => none := rfl
      have hgone : MsgEntry.goneAt i ∘ MsgEntry.destroyed i = some := by
        funext item
        simp [MsgEntry.goneAt]
      rw [hsent, hgone]
      simp [ofType]
    · have hsent : MsgEntry.sentAt i ∘ MsgEntry.destroyed index = fun _ => none := rfl
      have hgone : MsgEntry.goneAt i ∘ MsgEntry.destroyed index = fun _ => none := by
        funext item
        simp [MsgEntry.goneAt, Ne.symm hi]
      rw [hsent, hgone]
      simp [hi, ofType]
  · rw [hqueue]
    split
    · rfl
    · rename_i hi
      rw [Slot.live_release, decide_eq_false hi] at hdead
      exact h.emptied i hdead
  · rw [Slot.live_release, Bool.and_eq_true, Bool.not_eq_true', decide_eq_false_iff_not] at hlive'
    rw [hqueue, if_neg hlive'.1]
    exact h.counted i hlive'.2

end Law

/-! ## Runs -/

/-- What is delivered was found. -/
theorem receive_deliver {args : MsgrcvArgs} {items : List MsgQueueItem}
    {written : Except Errno Unit} (h : receive args items written = .deliver place item) :
    args.find items = some place ∧ items[place]? = some item := by
  unfold receive at h
  split at h
  · cases h
  · split at h
    · split at h <;> cases h
    · rename_i hfind
      split at h
      · cases h
      · rename_i hitem
        split at h
        · cases h
        · split at h
          · cases h
          · cases h
            exact ⟨hfind, hitem⟩

namespace IpcSystem

section

variable {sys sys' : IpcSystem} {event : IpcEvent} {log : List MsgEntry}

/-- A look leaves the queues alone, unless it delivers a message. -/
theorem doMsgrcv_queues (look : Look)
    (h : ∀ place item, sys.found look ≠ .deliver place item) :
    (sys.doMsgrcv look.pid look.index look.args look.written look.now).1.queues = sys.queues := by
  unfold doMsgrcv
  cases hfound : receive look.args (sys.queueAt look.index).items look.written with
  | fail status => rfl
  | wait => rfl
  | deliver place item => exact absurd hfound (h place item)

theorem doMsgrcv_law (h : QueueLaw sys.queues log) (look : Look)
    (hlive : Slot.live sys.queues look.index = true) :
    QueueLaw (sys.doMsgrcv look.pid look.index look.args look.written look.now).1.queues
      (log ++
        match sys.found look with
        | .deliver _ item =>
            if look.args.has msgCopy then [] else [.delivered look.index item look.pid]
        | _ => []) := by
  cases hfound : sys.found look with
  | fail status =>
      rw [doMsgrcv_queues look (by simp [hfound]), List.append_nil]
      exact h
  | wait =>
      rw [doMsgrcv_queues look (by simp [hfound]), List.append_nil]
      exact h
  | deliver place item =>
      obtain ⟨hfind, hitem⟩ := receive_deliver hfound
      unfold doMsgrcv
      rw [show receive look.args (sys.queueAt look.index).items look.written = _ from hfound]
      cases hcopy : look.args.has msgCopy with
      | true => exact h.copy hlive place item look.pid look.now
      | false => exact h.deliver hlive hcopy hfind hitem look.pid look.now

/-- The queue is there that is looked into. -/
theorem lookOf_live {look : Look} (hstep : sys.step event = some sys')
    (hlook : sys.lookOf event = some look) : Slot.live sys.queues look.index = true := by
  unfold lookOf at hlook
  split at hlook
  · split at hlook
    · rename_i hlookup
      cases hlook
      exact lookupIpcObject_live hlookup
    · cases hlook
  · cases hlook
  · obtain ⟨⟨t, answers⟩, hretry, rfl⟩ := Option.map_eq_some_iff.mp hlook
    obtain ⟨hanswered, hretries⟩ := Option.filter_eq_some_iff.mp hretry
    cases step_spec hstep with
    | answered hthread hcall hanswered' hstatus hanswers =>
        rw [hanswered] at hanswered'
        cases hanswered'
        by_contra hdead
        rw [Bool.not_eq_true] at hdead
        rw [statusOf_eq_none_iff.mpr ⟨hretries, hdead⟩] at hstatus
        cases hstatus
    | stays hcall hanswered' => rw [hanswered] at hanswered'; cases hanswered'
    | called hthread hcall hanswered' => rw [hanswered] at hanswered'; cases hanswered'
    | moved hthread hcall hanswered' => rw [hanswered] at hanswered'; cases hanswered'
    | execve hthread hfree hchain hwait => simp [answeredOf, hthread, hwait] at hanswered
    | shmatStarted hthread hin hchain hshmat =>
        simp [answeredOf, hthread, hshmat, SysVIpcChainState.inShmat] at hanswered
    | shmatChained hthread hin hchain hshmat hwait =>
        simp [answeredOf, hthread, hwait] at hanswered
    | forked => cases hanswered
    | replaced => cases hanswered
    | exited => cases hanswered

theorem msgsndItem_live {msqid msgsz : BitVec 64} {readType : Except Errno (BitVec 64)}
    {readText : Except Errno (Nat → BitVec 8)} {index : Nat}
    (h : sys.msgsndItem msqid msgsz readType readText = .ok (index, item)) :
    Slot.live sys.queues index = true := by
  unfold msgsndItem at h
  cases hlookup : lookupIpcObject sys.queues msqid with
  | error status =>
      rw [hlookup] at h
      cases h
  | ok i =>
      rw [hlookup] at h
      have hi : i = index := by
        simp only [bind, Except.bind] at h
        split at h
        · cases h
        · split at h
          · cases h
          · split at h
            · cases h
            · split at h
              · cases h
              · cases h
                rfl
      exact hi ▸ lookupIpcObject_live hlookup

/-- **Every event keeps the law.** -/
theorem step_law (h : QueueLaw sys.queues log) (hstep : sys.step event = some sys') :
    QueueLaw sys'.queues (log ++ sys.entries event) := by
  have hlookLive := fun look (h : sys.lookOf event = some look) => lookOf_live hstep h
  rw [step_queues hstep, queuesAfter, entries]
  have hnone : ∀ t call, sys.callOf event = some (t, call) →
      (∀ msqid args written now, call ≠ .msgrcv msqid args written now) →
      sys.lookOf event = none := by
    intro t call hcall hother
    rw [lookOf, hcall]
    cases call with
    | msgrcv msqid args written now => exact absurd rfl (hother msqid args written now)
    | _ => rfl
  cases hcall : sys.callOf event with
  | none =>
      simp only
      cases hlook : sys.lookOf event with
      | none => simpa using h
      | some look => exact doMsgrcv_law h look (hlookLive look hlook)
  | some made =>
      obtain ⟨t, call⟩ := made
      have hsame : ∀ {queues : List (IpcObject MsgQueue)}, queues = sys.queues →
          (∀ msqid args written now, call ≠ .msgrcv msqid args written now) →
          QueueLaw queues (log ++ match sys.lookOf event with
            | none => []
            | some look =>
                match sys.found look with
                | .deliver _ item =>
                    if look.args.has msgCopy then [] else [.delivered look.index item look.pid]
                | _ => []) := by
        rintro queues rfl hother
        rw [hnone t call hcall hother, List.append_nil]
        exact h
      cases call with
      | msgget key msgflg =>
          simp only
          rw [hnone t _ hcall (by simp), List.append_nil]
          exact h.get key msgflg
      | msgsnd msqid msgsz readType readText now =>
          simp only [IpcRequest.run, msgsnd]
          cases hitem : sys.msgsndItem msqid msgsz readType readText with
          | error status => simpa using h
          | ok place =>
              obtain ⟨index, item⟩ := place
              exact h.send (msgsndItem_live hitem) item t.config.pid now
      | msgrcv msqid args written now =>
          simp only [IpcRequest.run, msgrcvCall]
          cases hlookup : lookupIpcObject sys.queues msqid with
          | error status =>
              have hlook : sys.lookOf event = none := by rw [lookOf, hcall]; simp [hlookup]
              rw [hlook]
              simpa using h
          | ok index =>
              have hlook : sys.lookOf event = some ⟨t.config.pid, index, args, written, now⟩ := by
                rw [lookOf, hcall]
                simp [hlookup]
              rw [hlook]
              have hargs : QueueLaw
                  (sys.modify t.config.pid fun t => { t with msgrcv := args }).queues log := h
              exact doMsgrcv_law hargs ⟨t.config.pid, index, args, written, now⟩
                (lookupIpcObject_live hlookup)
      | msgctl msqid cmd written =>
          simp only [IpcRequest.run, msgctl]
          cases hlookup : lookupIpcObject sys.queues msqid with
          | error status => simpa using h
          | ok index =>
              simp only
              cases msgCommand cmd with
              | none => simpa using h
              | some command =>
                  cases command with
                  | IPC_RMID => exact h.remove (lookupIpcObject_live hlookup)
                  | IPC_STAT => simpa using h
      | sem call => exact hsame rfl (by simp)
      | shmget key shmSize shmflg fd => exact hsame rfl (by simp)
      | shmat shmid => exact hsame (shmat_same t shmid).queues (by simp)
      | shmdt addr => exact hsame (shmdt_same t addr).queues (by simp)
      | shmctl shmid cmd written => exact hsame (shmctl_same sys shmid cmd written).queues (by simp)

/-- A look that fails delivers nothing. -/
theorem found_of_error {look : Look} {status : Errno}
    (h : (sys.doMsgrcv look.pid look.index look.args look.written look.now).2 = .error status)
    (place : Nat) (item : MsgQueueItem) : sys.found look ≠ .deliver place item := by
  intro hfound
  rw [doMsgrcv, show receive look.args (sys.queueAt look.index).items look.written = _ from hfound]
    at h
  cases h

end

/-- At an event nothing is asked of the queues but messages, and none is received. -/
def ReceivesNothing (sys : IpcSystem) (event : IpcEvent) : Prop :=
  (∀ t call, sys.callOf event = some (t, call) →
    ∃ msqid args written now, call = .msgrcv msqid args written now) ∧
  ∀ look, sys.lookOf event = some look → ∀ place item, sys.found look ≠ .deliver place item

theorem step_queues_of_receivesNothing {sys sys' : IpcSystem} {event : IpcEvent}
    (h : sys.ReceivesNothing event) (hstep : sys.step event = some sys') :
    sys'.queues = sys.queues := by
  rw [step_queues hstep, queuesAfter]
  cases hcall : sys.callOf event with
  | none =>
      simp only
      cases hlook : sys.lookOf event with
      | none => rfl
      | some look => exact doMsgrcv_queues look (h.2 look hlook)
  | some made =>
      obtain ⟨t, call⟩ := made
      obtain ⟨msqid, args, written, now, rfl⟩ := h.1 t call hcall
      simp only [IpcRequest.run, msgrcvCall]
      cases hlookup : lookupIpcObject sys.queues msqid with
      | error status => rfl
      | ok index =>
          have hlook : sys.lookOf event = some ⟨t.config.pid, index, args, written, now⟩ := by
            rw [lookOf, hcall]
            simp [hlookup]
          exact @doMsgrcv_queues (sys.modify t.config.pid fun t => { t with msgrcv := args })
            ⟨t.config.pid, index, args, written, now⟩ (h.2 _ hlook)

end IpcSystem

/-- **No message is lost.**  After any run the messages that were sent to a queue, type by type,
are those that were delivered or destroyed with the queue, in the order they were sent, and then
those that are queued; the counters of the queue are right; and a look for a message that fails
or has to wait leaves the queues as they are. -/
theorem messages_conserved (pid process : Nat) (events : List IpcEvent) (sys : IpcSystem)
    (hrun : (IpcSystem.initial pid process).run events = some sys) :
    QueueLaw sys.queues
        (AbortableRuns.record IpcSystem.step IpcSystem.entries (.initial pid process) events) ∧
      (∀ event sys', sys.step event = some sys' → sys.ReceivesNothing event →
        sys'.queues = sys.queues) ∧
      ∀ look status,
        (sys.doMsgrcv look.pid look.index look.args look.written look.now).2 = .error status →
          ∀ place item, sys.found look ≠ .deliver place item := by
  refine ⟨?_, fun event sys' hstep h => IpcSystem.step_queues_of_receivesNothing h hstep,
    fun look status h => IpcSystem.found_of_error h⟩
  have hinitial : QueueLaw (IpcSystem.initial pid process).queues [] :=
    ⟨fun index mtype => rfl, fun index hdead => rfl, fun index hlive => by cases hlive⟩
  exact AbortableRuns.record_invariant (P := fun sys log => QueueLaw sys.queues log)
    (fun s log event s' h _ hstep => IpcSystem.step_law h hstep) hinitial
    (AbortableRuns.allSteps_true _ _) hrun

/-- A message is sent and received, and another one destroyed with its queue. -/
def messageEvents : List IpcEvent :=
  let answers : StopAnswers := ⟨.ok (), 0, true, none, 4096, 0⟩
  let call (c : IpcRequest) : List IpcEvent :=
    [.enter 1 (.ipc c) answers, .leave 1 0 answers]
  call (.msgget 0 0x200) ++
    call (.msgsnd 1 1 (.ok 1) (.ok fun _ => 7) 0) ++
    call (.msgsnd 1 2 (.ok 2) (.ok fun _ => 8) 0) ++
    call (.msgrcv 1 ⟨0, 8, 2, 0⟩ (.ok ()) 0) ++
    call (.msgctl 1 0 (.ok ()))

/-- The law in a run. -/
theorem messages_conserved_run : ∃ sys, (IpcSystem.initial 1 1).run messageEvents = some sys ∧
    QueueLaw sys.queues
      (AbortableRuns.record IpcSystem.step IpcSystem.entries (.initial 1 1) messageEvents) := by
  have hsome : ((IpcSystem.initial 1 1).run messageEvents).isSome = true := by decide
  obtain ⟨sys, hsys⟩ := Option.isSome_iff_exists.mp hsome
  exact ⟨sys, hsys, (messages_conserved 1 1 messageEvents sys hsys).1⟩

example : AbortableRuns.record IpcSystem.step IpcSystem.entries (.initial 1 1) messageEvents =
    [.sent 0 ⟨1, [7]⟩, .sent 0 ⟨2, [8, 8]⟩, .delivered 0 ⟨2, [8, 8]⟩ 1, .destroyed 0 ⟨1, [7]⟩] := by
  decide

end PRoot
