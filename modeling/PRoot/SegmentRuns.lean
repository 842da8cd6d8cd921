import PRoot.QueueRetries
import PRoot.Segments

/-!
# The life of a segment

* `SegmentPhase.next`: the order of what happens at one place of the table of segments;
* `SegmentsMove`, `step_segments`: what an event does to the segments;
* `follow_segments`: every event keeps the order.
-/

namespace PRoot

/-- What is noted of the segment at some place. -/
inductive SegmentEntry
  /-- It is created; the helper keeps it under a descriptor. -/
  | created (fd : Int)
  /-- Its removal is asked for with `IPC_RMID`. -/
  | asked
  /-- The helper is asked to free it. -/
  | freed (fd : Int)
  deriving DecidableEq, Repr

/-- Where a place of the table is in the life of a segment. -/
inductive SegmentPhase
  | unused
  | used (fd : Int)
  | doomed (fd : Int)
  deriving DecidableEq, Repr

/-- **The life of a segment.**  It is freed once, after its removal was asked for, and its place is
not used again before. -/
def SegmentPhase.next : SegmentPhase → SegmentEntry → Option SegmentPhase
  | .unused, .created fd => some (.used fd)
  | .used fd, .asked => some (.doomed fd)
  | .doomed fd, .asked => some (.doomed fd)
  | .doomed fd, .freed fd' => if fd' = fd then some .unused else none
  | _, _ => none

/-- Where a place is after some entries, if they are in order. -/
def SegmentPhase.follow (phase : SegmentPhase) (entries : List SegmentEntry) :
    Option SegmentPhase :=
  entries.foldlM SegmentPhase.next phase

theorem SegmentPhase.follow_append (phase : SegmentPhase) (entries entries' : List SegmentEntry) :
    phase.follow (entries ++ entries') =
      (phase.follow entries).bind fun phase => phase.follow entries' :=
  List.foldlM_append

/-- What is noted of one place. -/
def entriesAt (i : Nat) (log : List (Nat × SegmentEntry)) : List SegmentEntry :=
  (log.filter (·.1 = i)).map Prod.snd

@[simp] theorem entriesAt_append (i : Nat) (log log' : List (Nat × SegmentEntry)) :
    entriesAt i (log ++ log') = entriesAt i log ++ entriesAt i log' := by
  simp [entriesAt]

/-- What is noted of one place, where the same is noted of several. -/
theorem entriesAt_map (i : Nat) {places : List Nat} (h : places.Nodup) (entry : Nat → SegmentEntry) :
    entriesAt i (places.map fun j => (j, entry j)) = if i ∈ places then [entry i] else [] := by
  induction places with
  | nil => rfl
  | cons j places ih =>
      obtain ⟨hj, hplaces⟩ := List.nodup_cons.mp h
      have ih := ih hplaces
      rw [entriesAt] at ih
      rw [List.map_cons, entriesAt, List.filter_cons]
      by_cases hi : j = i
      · subst hi
        rw [if_neg hj] at ih
        simp [ih]
      · simp [hi, Ne.symm hi, ih]

/-- The descriptors that are noted to be freed. -/
def freedFds (log : List (Nat × SegmentEntry)) : List Int :=
  log.filterMap fun
    | (_, .freed fd) => some fd
    | _ => none

namespace IpcSystem

/-- The segment whose removal is asked for with a `shmctl`. -/
def removalOf (sys : IpcSystem) (shmid cmd : BitVec 64) : Option Nat :=
  match lookupIpcObject sys.shms shmid, shmCommand cmd with
  | .ok index, some .IPC_RMID => some index
  | _, _ => none

/-- The segment whose removal is asked for at an event. -/
def removalAsked (sys : IpcSystem) (event : IpcEvent) : Option Nat :=
  match sys.callOf event with
  | some (_, .shmctl shmid cmd _) => sys.removalOf shmid cmd
  | _ => none

/-- What is noted of the segments at an event. -/
def segmentEntries (sys : IpcSystem) (event : IpcEvent) : List (Nat × SegmentEntry) :=
  match sys.step event with
  | none => []
  | some sys' =>
      ((sys'.freedIn sys).map fun i => (i, .created (sys'.segmentAt i).fd)) ++
        (sys.removalAsked event).toList.map (fun i => (i, .asked)) ++
          (sys.freedIn sys').map fun i => (i, .freed (sys.segmentAt i).fd)

/-- Where a place is in the life of a segment. -/
def segmentPhase (sys : IpcSystem) (i : Nat) : SegmentPhase :=
  if Slot.live sys.shms i then
    if (sys.segmentAt i).rmidPending then .doomed (sys.segmentAt i).fd
    else .used (sys.segmentAt i).fd
  else .unused

/-- **What an event does to the segments**, where the removal of one is asked for or of none. -/
structure SegmentsMove (sys : IpcSystem) (asked : Option Nat) (sys' : IpcSystem) : Prop where
  right : sys'.SegmentsRight
  same : ∀ i, Slot.live sys.shms i = true → Slot.live sys'.shms i = true →
    sys'.segmentAt i = { sys.segmentAt i with
      rmidPending := (sys.segmentAt i).rmidPending || decide (asked = some i) }
  freed : ∀ i, Slot.live sys.shms i = true → Slot.live sys'.shms i = false →
    (sys.segmentAt i).rmidPending = true ∨ asked = some i
  created : ∀ i, Slot.live sys.shms i = false → Slot.live sys'.shms i = true →
    (sys'.segmentAt i).rmidPending = false
  asked : ∀ i, asked = some i → Slot.live sys.shms i = true
  requests : (freeFds sys'.requests).Perm
    (freeFds sys.requests ++ (sys.freedIn sys').map fun i => (sys.segmentAt i).fd)

section

variable {sys sys' : IpcSystem}

/-! ## What messages leave alone -/

/-- Two systems that have the same segments and entries, and the helper the same requests. -/
structure SameSegments (sys sys' : IpcSystem) : Prop where
  shms : sys'.shms = sys.shms
  mappings : sys'.mappings = sys.mappings
  requests : sys'.requests = sys.requests

theorem SameSegments.refl (sys : IpcSystem) : SameSegments sys sys := ⟨rfl, rfl, rfl⟩

theorem SameSegments.trans {sys'' : IpcSystem} (h : SameSegments sys sys')
    (h' : SameSegments sys' sys'') : SameSegments sys sys'' :=
  ⟨h'.shms.trans h.shms, h'.mappings.trans h.mappings, h'.requests.trans h.requests⟩

theorem modify_segments (sys : IpcSystem) (pid : Nat) (f : IpcThread → IpcThread) :
    SameSegments sys (sys.modify pid f) := ⟨rfl, rfl, rfl⟩

theorem msgsnd_segments (pid : Nat) (msqid msgsz : BitVec 64) (readType : Except Errno (BitVec 64))
    (readText : Except Errno (Nat → BitVec 8)) (now : Int) :
    SameSegments sys (sys.msgsnd pid msqid msgsz readType readText now).1 := by
  unfold msgsnd
  split <;> exact ⟨rfl, rfl, rfl⟩

theorem doMsgrcv_segments (pid index : Nat) (args : MsgrcvArgs) (written : Except Errno Unit)
    (now : Int) : SameSegments sys (sys.doMsgrcv pid index args written now).1 := by
  unfold doMsgrcv
  split <;> exact ⟨rfl, rfl, rfl⟩

theorem msgrcvCall_segments (pid : Nat) (msqid : BitVec 64) (args : MsgrcvArgs)
    (written : Except Errno Unit) (now : Int) :
    SameSegments sys (sys.msgrcvCall pid msqid args written now).1 := by
  unfold msgrcvCall
  split
  · exact .refl sys
  · exact (modify_segments sys _ _).trans (doMsgrcv_segments _ _ _ _ _)

theorem msgctl_segments (msqid cmd : BitVec 64) (written : Except Errno Unit) :
    SameSegments sys (sys.msgctl msqid cmd written).1 := by
  unfold msgctl
  split
  · exact .refl sys
  · split <;> exact ⟨rfl, rfl, rfl⟩

theorem statusOf_segments {t : IpcThread} {answers : StopAnswers}
    {status : Except Errno (BitVec 32)} (h : sys.statusOf t answers = some (sys', status)) :
    SameSegments sys sys' := by
  cases statusOf_spec h with
  | kept hchain => exact .refl sys
  | closed hchain hstatus => exact modify_segments sys _ _
  | again hretries hlive hgives =>
      exact (doMsgrcv_segments _ _ _ _ _).trans (modify_segments _ _ _)

theorem syscallCommon_segments {t : IpcThread} {call : IpcRequest} {fromSigsys : Bool}
    (h : sys.syscallCommon t call fromSigsys = some sys') :
    SameSegments (call.run sys t).1 sys' := by
  unfold syscallCommon at h
  dsimp only at h
  split at h
  · cases h
  · split at h
    · cases h
    · obtain ⟨u, -, h⟩ := Option.bind_eq_some_iff.mp h
      obtain ⟨u', -, h⟩ := Option.bind_eq_some_iff.mp h
      cases h
      exact modify_segments _ _ _

theorem SameSegments.shrinks (h : SameSegments sys sys') : Shrinks sys sys' :=
  .of_eq h.shms h.mappings (congrArg freeFds h.requests)

/-! ## What an event does -/

/-- Something that only frees segments. -/
theorem Shrinks.move (h : Shrinks sys sys') (hright : sys.SegmentsRight) :
    SegmentsMove sys none sys' := by
  obtain ⟨hright', hfrees⟩ := h hright
  refine ⟨hright', fun i _ hlive => ?_, fun i hlive hdead => Or.inl (hfrees.freed i hlive hdead).1,
    fun i hdead hlive => ?_, fun i hi => ?_, hfrees.requests⟩
  · rw [hfrees.same i hlive]
    simp
  · rw [hfrees.live i hlive] at hdead
    cases hdead
  · cases hi

theorem SegmentsMove.congr {sys'' : IpcSystem} {asked : Option Nat}
    (h : SegmentsMove sys asked sys') (hsame : SameSegments sys' sys'') :
    SegmentsMove sys asked sys'' := by
  obtain ⟨queues, semaphores, shms, mappings, requests, threads⟩ := sys''
  obtain ⟨rfl, rfl, rfl⟩ := hsame
  exact ⟨⟨h.right.live, h.right.entries, h.right.due⟩, h.same, h.freed, h.created, h.asked,
    h.requests⟩

/-- The removal of a segment is asked for that has an entry. -/
theorem mark_move (hright : sys.SegmentsRight) {index : Nat}
    (hlive : Slot.live sys.shms index = true) (hmapped : sys.isMapped index = true) :
    SegmentsMove sys (some index)
      { sys with shms := Slot.update sys.shms index fun content =>
          { content with data := { content.data with rmidPending := true } } } := by
  set marked : IpcSystem := { sys with shms := Slot.update sys.shms index fun content =>
    { content with data := { content.data with rmidPending := true } } } with hmarked
  have hsegment : ∀ i, marked.segmentAt i =
      if i = index then { sys.segmentAt i with rmidPending := true } else sys.segmentAt i :=
    fun i => slotData_modify Segment.zero index i _
      (fun segment => { segment with rmidPending := true }) (fun _ => rfl) (Slot.live_lt hlive)
  have hlives : ∀ i, Slot.live marked.shms i = Slot.live sys.shms i := fun i =>
    Slot.live_update sys.shms index i fun content =>
      { content with data := { content.data with rmidPending := true } }
  refine ⟨⟨fun i hi => ?_, fun m hm => ?_, fun i hi => ?_⟩, fun i _ _ => ?_,
    fun i hi hdead => ?_, fun i hdead hi => ?_, fun i hi => ?_, ?_⟩
  · rw [hlives]
    by_cases hindex : i = index
    · rw [hindex]
      exact hlive
    · rw [hsegment, if_neg hindex] at hi
      exact hright.live i hi
  · rw [hlives]
    exact hright.entries m hm
  · by_cases hindex : i = index
    · rw [hindex]
      exact hmapped
    · rw [hsegment, if_neg hindex] at hi
      exact hright.due i hi
  · rw [hsegment]
    split
    · rename_i hindex
      simp [hindex]
    · rename_i hindex
      simp [Ne.symm hindex]
  · rw [hlives, hi] at hdead
    cases hdead
  · rw [hlives, hdead] at hi
    cases hi
  · exact Option.some.inj hi ▸ hlive
  · have hnone : sys.freedIn marked = [] := by
      refine List.eq_nil_iff_forall_not_mem.mpr fun i hi => ?_
      obtain ⟨hi, hdead⟩ := mem_freedIn.mp hi
      rw [hlives, hi] at hdead
      cases hdead
    rw [hnone, List.map_nil, List.append_nil]

/-- The removal of a segment is asked for that has no entry. -/
theorem doRmid_move (hright : sys.SegmentsRight) {index : Nat}
    (hlive : Slot.live sys.shms index = true) (hfree : sys.isMapped index = false) :
    SegmentsMove sys (some index) (sys.doRmid index) := by
  have hother : ∀ i, Slot.live (sys.doRmid index).shms i = true →
      i ≠ index ∧ Slot.live sys.shms i = true := by
    intro i hi
    rw [live_doRmid, Bool.and_eq_true, Bool.not_eq_true', decide_eq_false_iff_not] at hi
    exact hi
  have hstays : ∀ i, i ≠ index → Slot.live sys.shms i = true →
      Slot.live (sys.doRmid index).shms i = true := by
    intro i hne hi
    rw [live_doRmid, decide_eq_false hne]
    exact hi
  have hpending : ∀ i, ((sys.doRmid index).segmentAt i).rmidPending = true →
      i ≠ index ∧ (sys.segmentAt i).rmidPending = true := by
    intro i hi
    rw [segmentAt_doRmid hlive] at hi
    split at hi
    · cases hi
    · rename_i hne
      exact ⟨hne, hi⟩
  refine ⟨⟨fun i hi => ?_, fun m hm => ?_, fun i hi => ?_⟩, fun i _ hi => ?_,
    fun i hi hdead => ?_, fun i hdead hi => ?_, fun i hi => ?_, requests_doRmid hlive⟩
  · obtain ⟨hne, hdue⟩ := hpending i hi
    exact hstays i hne (hright.live i hdue)
  · refine hstays _ ?_ (hright.entries m hm)
    rintro rfl
    exact absurd (List.any_eq_true.mpr ⟨m, hm, decide_eq_true rfl⟩)
      (Bool.eq_false_iff.mp hfree)
  · exact hright.due i (hpending i hi).2
  · obtain ⟨hne, -⟩ := hother i hi
    rw [segmentAt_doRmid hlive, if_neg hne]
    simp [Ne.symm hne]
  · refine Or.inr ?_
    by_contra hne
    rw [hstays i (fun h => hne (congrArg some h.symm)) hi] at hdead
    cases hdead
  · rw [(hother i hi).2] at hdead
    cases hdead
  · exact Option.some.inj hi ▸ hlive

/-- A segment gets an entry. -/
theorem shmat_move (hright : sys.SegmentsRight) (t : IpcThread) (shmid : BitVec 64) :
    SegmentsMove sys none (sys.shmat t shmid).1 := by
  unfold shmat
  split
  · exact Shrinks.move (.of_eq rfl rfl rfl) hright
  · rename_i index hlookup
    have hlive := lookupIpcObject_live hlookup
    have hmove : SegmentsMove sys none
        { sys with mappings := ⟨t.process, index, 0, 0⟩ :: sys.mappings } := by
      refine ⟨⟨hright.live, fun m hm => ?_, fun i hi => ?_⟩, fun i _ _ => ?_,
        fun i hlive hdead => ?_, fun i hdead hlive => ?_, fun i hi => ?_, ?_⟩
      · rcases List.mem_cons.mp hm with rfl | hm
        · exact hlive
        · exact hright.entries m hm
      · obtain ⟨m, hm, hmi⟩ := List.any_eq_true.mp (hright.due i hi)
        exact List.any_eq_true.mpr ⟨m, List.mem_cons_of_mem _ hm, hmi⟩
      · simp [segmentAt]
      · exact absurd (hlive.symm.trans hdead) (by decide)
      · exact absurd (hlive.symm.trans hdead) (by decide)
      · cases hi
      · exact (Frees.of_same rfl (fun i h => h) rfl : Frees sys sys).requests
    dsimp only
    split
    · exact hmove.congr (modify_segments _ _ _)
    · exact hmove.congr (modify_segments _ _ _)

/-- A segment is created, or none. -/
theorem shmget_move (hright : sys.SegmentsRight) (pgid : Int) (key shmSize shmflg : BitVec 64)
    (fd : Int) : SegmentsMove sys none (sys.shmget pgid key shmSize shmflg fd).1 := by
  set call := segmentCall key shmSize shmflg fd pgid with hcall
  have hsegment : ∀ i, (sys.shmget pgid key shmSize shmflg fd).1.segmentAt i =
      slotData call.zero (getObject call sys.shms).1 i := fun i => rfl
  have hlives : ∀ i, Slot.live (sys.shmget pgid key shmSize shmflg fd).1.shms i =
      Slot.live (getObject call sys.shms).1 i := fun i => rfl
  have hdata := getObject_data call sys.shms
  have hmade : ∀ shm, (call.make shm).rmidPending = shm.rmidPending := fun shm => by
    rw [hcall, segmentCall]
    dsimp only
    split <;> rfl
  have hpending : ∀ i, ((sys.shmget pgid key shmSize shmflg fd).1.segmentAt i).rmidPending =
      (sys.segmentAt i).rmidPending := by
    intro i
    rw [hsegment]
    rcases hdata i with ⟨-, hsame⟩ | ⟨-, hnew, -⟩
    · rw [hsame]
      rfl
    · rw [hnew, hmade]
      rfl
  have hkept : ∀ i, Slot.live sys.shms i = true →
      Slot.live (sys.shmget pgid key shmSize shmflg fd).1.shms i = true ∧
        (sys.shmget pgid key shmSize shmflg fd).1.segmentAt i = sys.segmentAt i := by
    intro i hlive
    rcases hdata i with ⟨hsame, hsegment'⟩ | ⟨hdead, -, -⟩
    · exact ⟨(hlives i).trans (hsame.trans hlive), (hsegment i).trans hsegment'⟩
    · rw [hlive] at hdead
      cases hdead
  refine ⟨⟨fun i hi => ?_, fun m hm => ?_, fun i hi => ?_⟩, fun i hlive _ => ?_,
    fun i hlive hdead => ?_, fun i hdead hlive => ?_, fun i hi => ?_, ?_⟩
  · rw [hpending] at hi
    exact (hkept i (hright.live i hi)).1
  · exact (hkept _ (hright.entries m hm)).1
  · rw [hpending] at hi
    exact hright.due i hi
  · rw [(hkept i hlive).2]
    simp
  · rw [(hkept i hlive).1] at hdead
    cases hdead
  · rw [hpending]
    by_contra hnot
    rw [hright.live i (Bool.not_eq_false _ ▸ hnot)] at hdead
    cases hdead
  · cases hi
  · have hnone : sys.freedIn (sys.shmget pgid key shmSize shmflg fd).1 = [] := by
      refine List.eq_nil_iff_forall_not_mem.mpr fun i hi => ?_
      obtain ⟨hlive, hdead⟩ := mem_freedIn.mp hi
      rw [(hkept i hlive).1] at hdead
      cases hdead
    rw [hnone, List.map_nil, List.append_nil]
    refine .of_eq ?_
    show freeFds (sys.requests ++ _) = _
    rw [freeFds_append]
    split
    · exact List.append_nil _
    · split
      · exact List.append_nil _
      · exact List.append_nil _

/-- `IPC_RMID`: a segment that is mapped goes later. -/
theorem shmctl_move (hright : sys.SegmentsRight) (shmid cmd : BitVec 64)
    (written : Except Errno Unit) :
    SegmentsMove sys (sys.removalOf shmid cmd) (sys.shmctl shmid cmd written).1 := by
  have hnothing : SegmentsMove sys none sys := Shrinks.move (.of_eq rfl rfl rfl) hright
  unfold shmctl removalOf
  cases hlookup : lookupIpcObject sys.shms shmid with
  | error status => exact hnothing
  | ok index =>
      have hlive := lookupIpcObject_live hlookup
      cases hcmd : shmCommand cmd with
      | none => exact hnothing
      | some command =>
          cases command with
          | IPC_STAT => exact hnothing
          | IPC_RMID =>
              dsimp only
              split
              · rename_i hmapped
                exact mark_move hright hlive hmapped
              · rename_i hfree
                exact doRmid_move hright hlive (Bool.eq_false_iff.mpr hfree)

/-- **What a call does to the segments.** -/
theorem run_move (hright : sys.SegmentsRight) (t : IpcThread) (call : IpcRequest) :
    SegmentsMove sys
      (match call with
        | .shmctl shmid cmd _ => sys.removalOf shmid cmd
        | _ => none)
      (call.run sys t).1 := by
  have hnothing : ∀ {sys' : IpcSystem}, SameSegments sys sys' → SegmentsMove sys none sys' :=
    fun hsame => hsame.shrinks.move hright
  cases call with
  | msgget key msgflg => exact hnothing ⟨rfl, rfl, rfl⟩
  | msgsnd msqid msgsz readType readText now => exact hnothing (msgsnd_segments _ _ _ _ _ _)
  | msgrcv msqid args written now => exact hnothing (msgrcvCall_segments _ _ _ _ _)
  | msgctl msqid cmd written => exact hnothing (msgctl_segments _ _ _)
  | sem call => exact hnothing ⟨rfl, rfl, rfl⟩
  | shmget key shmSize shmflg fd => exact shmget_move hright _ _ _ _ _
  | shmat shmid => exact shmat_move hright t shmid
  | shmdt addr => exact (shmdt_shrinks t addr).move hright
  | shmctl shmid cmd written => exact shmctl_move hright shmid cmd written

/-- **What an event does to the segments.** -/
theorem step_segments {event : IpcEvent} (hright : sys.SegmentsRight)
    (h : sys.step event = some sys') : SegmentsMove sys (sys.removalAsked event) sys' := by
  have hshrinks : sys.callOf event = none → Shrinks sys sys' →
      SegmentsMove sys (sys.removalAsked event) sys' := fun hcall hshrinks => by
    rw [removalAsked, hcall]
    exact hshrinks.move hright
  cases step_spec h with
  | stays hcall hanswered => exact hshrinks hcall (.of_eq rfl rfl rfl)
  | @called event t call fromSigsys sys' hthread hcall hanswered hfree hchain hdone =>
      have hmove := (run_move hright t call).congr (syscallCommon_segments hdone)
      rw [removalAsked, hcall]
      cases call <;> exact hmove
  | moved hthread hcall hanswered hmoves => exact hshrinks hcall (modify_shrinks _ _)
  | execve hthread hfree hchain hwait =>
      refine hshrinks rfl ?_
      split
      · exact (modify_shrinks _ _).trans (removeMappings_shrinks _)
      · exact modify_shrinks _ _
  | answered hthread hcall hanswered hstatus hanswers =>
      exact hshrinks hcall ((statusOf_segments hstatus).shrinks.trans (modify_shrinks _ _))
  | shmatStarted hthread hin hchain hshmat hdone =>
      exact hshrinks rfl
        ((shmatChain_shrinks hdone).trans ((modify_shrinks _ _).trans (modify_shrinks _ _)))
  | shmatChained hthread hin hchain hshmat hwait hdone =>
      exact hshrinks rfl
        ((modify_shrinks _ _).trans ((shmatChain_shrinks hdone).trans (modify_shrinks _ _)))
  | forked hthread hfresh => exact hshrinks rfl (inheritChild_shrinks _ _ _)
  | replaced hthread hin => exact hshrinks rfl (.of_eq rfl rfl rfl)
  | exited hthread => exact hshrinks rfl (exit_shrinks _)

/-- **Every event keeps the order.** -/
theorem follow_segments {event : IpcEvent} (hright : sys.SegmentsRight)
    (h : sys.step event = some sys') (i : Nat) :
    (sys.segmentPhase i).follow (entriesAt i (sys.segmentEntries event)) =
      some (sys'.segmentPhase i) := by
  have hmove := step_segments hright h
  have hasked : entriesAt i ((sys.removalAsked event).toList.map fun i => (i, .asked)) =
      if sys.removalAsked event = some i then [.asked] else [] := by
    cases sys.removalAsked event with
    | none => rfl
    | some j => by_cases hj : j = i <;> simp [entriesAt, hj]
  rw [segmentEntries, h]
  dsimp only
  rw [entriesAt_append, entriesAt_append, hasked,
    entriesAt_map i freedIn_nodup fun i => .created (sys'.segmentAt i).fd,
    entriesAt_map i freedIn_nodup fun i => .freed (sys.segmentAt i).fd]
  simp only [mem_freedIn]
  unfold segmentPhase
  cases hlive : Slot.live sys.shms i with
  | false =>
      have hnone : sys.removalAsked event ≠ some i := fun hi => by
        rw [hmove.asked i hi] at hlive
        cases hlive
      cases hlive' : Slot.live sys'.shms i with
      | false => simp [hnone, SegmentPhase.follow]
      | true =>
          have hcreated := hmove.created i hlive hlive'
          simp [hnone, hcreated, SegmentPhase.follow, SegmentPhase.next]
  | true =>
      cases hlive' : Slot.live sys'.shms i with
      | false =>
          have hdue := hmove.freed i hlive hlive'
          cases hpending : (sys.segmentAt i).rmidPending <;>
            by_cases hi : sys.removalAsked event = some i <;>
            simp_all [SegmentPhase.follow, SegmentPhase.next]
      | true =>
          have hsame := hmove.same i hlive hlive'
          rw [hsame]
          cases hpending : (sys.segmentAt i).rmidPending <;>
            by_cases hi : sys.removalAsked event = some i <;>
            simp_all [SegmentPhase.follow, SegmentPhase.next]

end

end IpcSystem

end PRoot
