import PRoot.Attachments

/-!
# Segments outlive their mappings

* `segments_in_order`: in every run the helper is asked to free a segment once, after its removal
  was asked for and its last entry is gone;
* `segments_outlive`: what is mapped is not freed, in a run in which memory that a process gave up
  is not mapped again.
-/

namespace PRoot

namespace IpcSystem

variable {sys sys' : IpcSystem} {event : IpcEvent} {log : List (Nat × SegmentEntry)}

@[simp] theorem freedFds_append (log log' : List (Nat × SegmentEntry)) :
    freedFds (log ++ log') = freedFds log ++ freedFds log' := List.filterMap_append

/-- **The segments are as what was noted of them says.** -/
structure SegmentsLaw (sys : IpcSystem) (log : List (Nat × SegmentEntry)) : Prop where
  right : sys.SegmentsRight
  order : ∀ i, SegmentPhase.unused.follow (entriesAt i log) = some (sys.segmentPhase i)
  requests : (freeFds sys.requests).Perm (freedFds log)

theorem initial_segments (pid process : Nat) : (initial pid process).SegmentsLaw [] := by
  refine ⟨⟨fun i hi => ?_, fun m hm => absurd hm List.not_mem_nil, fun i hi => ?_⟩, fun i => rfl,
    .refl _⟩
  · cases hi
  · cases hi

/-- The segments that are noted to be freed at an event. -/
theorem freedFds_entries (h : sys.step event = some sys') :
    freedFds (sys.segmentEntries event) =
      (sys.freedIn sys').map fun i => (sys.segmentAt i).fd := by
  rw [segmentEntries, h]
  dsimp only
  rw [freedFds_append, freedFds_append]
  have hcreated : ∀ places : List Nat, freedFds (places.map fun i =>
      (i, SegmentEntry.created (sys'.segmentAt i).fd)) = [] := fun places => by
    simp [freedFds, List.filterMap_map]
  have hasked : ∀ places : List Nat, freedFds (places.map fun i => (i, SegmentEntry.asked)) =
      [] := fun places => by simp [freedFds, List.filterMap_map]
  rw [hcreated, hasked, List.nil_append, List.nil_append, freedFds, List.filterMap_map,
    ← List.filterMap_eq_map]
  rfl

theorem segments_step (h : sys.SegmentsLaw log) (hstep : sys.step event = some sys') :
    sys'.SegmentsLaw (log ++ sys.segmentEntries event) := by
  have hmove := step_segments h.right hstep
  refine ⟨hmove.right, fun i => ?_, ?_⟩
  · rw [entriesAt_append, SegmentPhase.follow_append, h.order i, Option.bind_some]
    exact follow_segments h.right hstep i
  · rw [freedFds_append, freedFds_entries hstep]
    exact hmove.requests.trans (h.requests.append_right _)

/-- **The life of a segment**, in every run. -/
theorem segments_in_order {pid process : Nat} {events : List IpcEvent}
    (hrun : (initial pid process).run events = some sys) :
    sys.SegmentsLaw (AbortableRuns.record step segmentEntries (.initial pid process) events) := by
  have hlaw := AbortableRuns.record_invariant (P := SegmentsLaw)
    (fun s log event s' h _ hstep => segments_step h hstep) (initial_segments pid process)
    (AbortableRuns.allSteps_true _ events) hrun
  rwa [List.nil_append] at hlaw

/-- A fork: each entry of the parent counts once more. -/
theorem forked_nattch {parent child : Nat} (hforked : sys.forkedAt event = some (parent, child))
    (hstep : sys.step event = some sys') (i : Nat) :
    sys'.nattch i = sys.nattch i +
      sys.mappings.countP fun mapping => mapping.process = parent ∧ mapping.shmIndex = i := by
  rw [nattch, (forked_mappings hforked hstep).1, List.countP_append, Memory.copies,
    List.countP_map, List.countP_filter, Nat.add_comm, nattch]
  congr 1
  refine List.countP_congr fun mapping _ => ?_
  simp [and_comm]

end IpcSystem

/-- A step that disturbs no thread in the middle of a call, and after which no memory is mapped
that a process gave up before. -/
def letsGoSafely (s : IpcSystem × Memory) (event : IpcEvent) : Bool :=
  s.1.undisturbed event && (s.2.returned s.1 event).isEmpty

/-- A run with the memory of the processes is a run. -/
theorem run_of_mappedRun {s s' : IpcSystem × Memory} {events : List IpcEvent}
    (hrun : AbortableRuns.run mappedStep s events = some s') :
    s.1.run events = some s'.1 := by
  have hstep : ∀ (s : IpcSystem × Memory) (event : IpcEvent),
      IpcSystem.step s.1 event = (mappedStep s event).map Prod.fst := fun s event => by
    unfold mappedStep
    cases s.1.step event <;> rfl
  have hfst := AbortableRuns.run_map Prod.fst hstep s events
  rw [hrun] at hfst
  exact hfst

/-- What is mapped has its entry, in a run that maps nothing again. -/
theorem mapped_backed {pid process : Nat} {events : List IpcEvent} {sys : IpcSystem}
    {memory : Memory}
    (hrun : AbortableRuns.run mappedStep (.initial pid process, .empty) events =
      some (sys, memory))
    (hsafe : AbortableRuns.allSteps mappedStep letsGoSafely (.initial pid process, .empty) events =
      true) : sys.WaitsLegal ∧ memory.Backed sys := by
  refine AbortableRuns.invariant (P := fun s : IpcSystem × Memory =>
    s.1.WaitsLegal ∧ s.2.Backed s.1) (fun s event s' h hsuits hstep => ?_)
    ?_ hsafe hrun
  · obtain ⟨sys', hsys', rfl⟩ := Option.map_eq_some_iff.mp hstep
    rw [letsGoSafely, Bool.and_eq_true] at hsuits
    exact ⟨(IpcSystem.step_threads h.1 hsuits.1 hsys').legal,
      Memory.backed_step h.1 h.2 (List.isEmpty_iff.mp hsuits.2) hsys'⟩
  · exact ⟨IpcSystem.initial_legal pid process, List.nil_subperm⟩

/-- **Segments outlive their mappings**, in a run in which no memory is mapped again that a process
was let to give up: the helper is asked to free a segment once, after its removal was asked for,
and when no entry is left and nothing has it mapped; it is asked to when the last entry goes; and
a fork adds the entries of the parent. -/
theorem segments_outlive (pid process : Nat) (events : List IpcEvent) (sys : IpcSystem)
    (memory : Memory)
    (hrun : AbortableRuns.run mappedStep (.initial pid process, .empty) events =
      some (sys, memory))
    (hsafe : AbortableRuns.allSteps mappedStep letsGoSafely (.initial pid process, .empty) events =
      true) :
    (∀ i, SegmentPhase.unused.follow (entriesAt i (AbortableRuns.record IpcSystem.step
      IpcSystem.segmentEntries (.initial pid process) events)) = some (sys.segmentPhase i)) ∧
    (freeFds sys.requests).Perm (freedFds (AbortableRuns.record IpcSystem.step
      IpcSystem.segmentEntries (.initial pid process) events)) ∧
    (∀ mapping, mapping ∈ sys.mappings ∨ mapping ∈ memory.attached →
      sys.segmentPhase mapping.shmIndex ≠ .unused) ∧
    (∀ i fd, sys.segmentPhase i = .doomed fd → sys.isMapped i = true) ∧
    ∀ event sys' parent child, sys.forkedAt event = some (parent, child) →
      sys.step event = some sys' → ∀ i, sys'.nattch i = sys.nattch i +
        sys.mappings.countP fun mapping => mapping.process = parent ∧ mapping.shmIndex = i := by
  have hlaw := IpcSystem.segments_in_order (run_of_mappedRun hrun)
  obtain ⟨-, hbacked⟩ := mapped_backed hrun hsafe
  refine ⟨hlaw.order, hlaw.requests, fun mapping hmapping => ?_, fun i fd hdoomed => ?_,
    fun event sys' parent child hforked hstep i => IpcSystem.forked_nattch hforked hstep i⟩
  · have hentry : mapping ∈ sys.mappings := by
      rcases hmapping with hentry | hattached
      · exact hentry
      · exact (List.mem_filter.mp (hbacked.subset hattached)).1
    rw [IpcSystem.segmentPhase, hlaw.right.entries mapping hentry, if_pos rfl]
    split <;> exact SegmentPhase.noConfusion
  · rw [IpcSystem.segmentPhase] at hdoomed
    split at hdoomed
    · split at hdoomed
      · rename_i hpending
        exact hlaw.right.due i hpending
      · cases hdoomed
    · cases hdoomed

/-- A thread maps a segment, and the helper was idle. -/
def shmatEvents (pid : Nat) (shmid socket fd addr size : BitVec 64) : List IpcEvent :=
  [.enter pid (.ipc (.shmat shmid)) plainAnswers, .leave pid socket plainAnswers,
    .enter pid (.planned (.connect socket)) plainAnswers, .leave pid 0 plainAnswers,
    .enter pid (.planned (.recvmsg socket)) plainAnswers,
    .leave pid 0 { plainAnswers with received := some fd },
    .enter pid (.planned (.mmap size fd)) plainAnswers, .leave pid addr plainAnswers,
    .enter pid (.planned (.close fd)) plainAnswers, .leave pid 0 plainAnswers,
    .enter pid (.planned (.close socket)) plainAnswers, .leave pid 0 plainAnswers]

/-- A segment is created and mapped, and its removal is asked for. -/
def doomedEvents : List IpcEvent :=
  callEvents 1 (.shmget 0 4096 0x200 5) ++ shmatEvents 1 1 7 8 0x10000 4096 ++
    callEvents 1 (.shmctl 1 0 (.ok ()))

/-- A process with a segment whose removal was asked for gets a new program: the helper is asked
to free the segment. -/
theorem segments_outlive_run : ∃ sys memory,
    AbortableRuns.run mappedStep (.initial 1 1, .empty)
      (doomedEvents ++ [.enter 1 (.execve true) plainAnswers, .exec 1, .leave 1 0 plainAnswers]) =
        some (sys, memory) ∧
    freeFds sys.requests = [5] ∧
    ∀ mapping, mapping ∈ sys.mappings ∨ mapping ∈ memory.attached →
      sys.segmentPhase mapping.shmIndex ≠ .unused := by
  have hsome : (AbortableRuns.run mappedStep (.initial 1 1, .empty) (doomedEvents ++
      [.enter 1 (.execve true) plainAnswers, .exec 1, .leave 1 0 plainAnswers])).any
        (fun s => freeFds s.1.requests = [5]) = true := by decide
  obtain ⟨⟨sys, memory⟩, hrun, hfreed⟩ := (Option.any_eq_true _ _).mp hsome
  exact ⟨sys, memory, hrun, of_decide_eq_true hfreed,
    (segments_outlive 1 1 _ sys memory hrun (by decide)).2.2.1⟩

/-- An `execve` fails in the kernel, of a process that has a segment mapped whose removal was asked
for: the helper is asked to free the segment, and the process still has it mapped. -/
theorem segments_freed_early : ∃ sys memory,
    AbortableRuns.run mappedStep (.initial 1 1, .empty)
      (doomedEvents ++ [.enter 1 (.execve true) plainAnswers,
        .leave 1 (statusWord (.error .E2BIG)) plainAnswers]) = some (sys, memory) ∧
    freeFds sys.requests = [5] ∧
    ∃ mapping ∈ memory.attached, sys.segmentPhase mapping.shmIndex = .unused := by
  have hsome : (AbortableRuns.run mappedStep (.initial 1 1, .empty) (doomedEvents ++
      [.enter 1 (.execve true) plainAnswers,
        .leave 1 (statusWord (.error .E2BIG)) plainAnswers])).any
      (fun s => freeFds s.1.requests = [5] && s.2.attached.any fun mapping =>
        s.1.segmentPhase mapping.shmIndex = .unused) = true := by decide
  obtain ⟨⟨sys, memory⟩, hrun, hfreed⟩ := (Option.any_eq_true _ _).mp hsome
  rw [Bool.and_eq_true, decide_eq_true_iff, List.any_eq_true] at hfreed
  obtain ⟨hrequests, mapping, hmapping, hunused⟩ := hfreed
  exact ⟨sys, memory, hrun, hrequests, mapping, hmapping, of_decide_eq_true hunused⟩

end PRoot
