import Mathlib.Data.List.Count
import Mathlib.Data.List.Perm.Subperm
import PRoot.SegmentRuns

/-!
# What processes have mapped

The extension notes in its entries which segments are mapped where.  Here the memory of the
processes is followed beside it, as the kernel changes it.

* `Memory.after`: what an event does to the memory of the processes;
* `Memory.Backed`, `backed_step`: what is mapped has its entry.
-/

namespace PRoot

/-- **What is mapped of segments in processes.** -/
structure Memory where
  attached : List ShmMapping
  /-- What a thread gives up in a system call it was let into, with the pid of the thread. -/
  givenUp : List (Nat × ShmMapping)
  deriving Repr

/-- The memory of processes before anything is mapped. -/
def Memory.empty : Memory := ⟨[], []⟩

/-- An entry of a process for an address. -/
def ShmMapping.isAt (process : Nat) (addr : BitVec 64) (mapping : ShmMapping) : Bool :=
  mapping.process = process && mapping.addr = addr

/-- The result of an `mmap` is an address. -/
def isMemory (result size : BitVec 64) : Bool :=
  result ≠ 0 && size ≠ 0 && result.toNat < 2 ^ 64 - 4095

/-- An entry that has its place. -/
def ShmMapping.located (mapping : ShmMapping) : Bool := mapping.size ≠ 0

namespace IpcSystem

/-- The thread that is let into an `execve` at an event. -/
def execveOf (sys : IpcSystem) : IpcEvent → Option IpcThread
  | .enter pid (.execve true) _ =>
      (sys.thread pid).filter fun t =>
        mayCall t && t.chain.isNone && t.waitState = .WSTATE_NOT_WAITING
  | _ => none

/-- What a `shmat` maps at an event. -/
def mappedAt (sys : IpcSystem) : IpcEvent → Option ShmMapping
  | .leave pid result _ =>
      (sys.thread pid).bind fun t =>
        match t.next with
        | some (.mmap size _) =>
            if t.inSyscall && t.chainState = .CSTATE_SHMAT_MMAP && isMemory result size then
              some ⟨t.process, t.config.waitingObjectIndex, result, size⟩
            else none
        | _ => none
  | _ => none

/-- The process that is forked at an event, and the new one. -/
def forkedAt (sys : IpcSystem) : IpcEvent → Option (Nat × Nat)
  | .fork pid child cloneThread =>
      (sys.thread pid).bind fun t =>
        if sys.isFresh child && !cloneThread then some (t.process, child) else none
  | _ => none

/-- No other thread of the process of a thread is left. -/
def isLast (sys : IpcSystem) (t : IpcThread) : Bool :=
  !(sys.threads.filter (·.config.pid ≠ t.config.pid)).any (·.process = t.process)

/-- What the `munmap` of a `shmdt` gives up that a thread is about to make. -/
def unmaps (sys : IpcSystem) (t : IpcThread) (mapping : ShmMapping) : Bool :=
  match (sys.thread t.config.pid).bind (·.next) with
  | some (.munmap addr size) =>
      mapping.process = t.process && mapping.addr = addr && mapping.size.toNat ≤ size.toNat
  | _ => false

/-- What is given up at an event, or goes: in a `shmdt` or an `execve`, when the program of a
process is replaced, and with the last thread of a process. -/
def gives (sys : IpcSystem) (event : IpcEvent) (sys' : IpcSystem) (mapping : ShmMapping) : Bool :=
  match event with
  | .exec pid => (sys.thread pid).any fun t => t.inSyscall && mapping.process = t.process
  | .exit pid => (sys.thread pid).any fun t => sys.isLast t && mapping.process = t.process
  | event =>
      match sys.execveOf event, sys.callOf event with
      | some t, _ => mapping.process = t.process
      | none, some (t, .shmdt _) => sys'.unmaps t mapping
      | none, _ => false

/-- The system call does not take place, or fails, in which a thread was to give memory up. -/
def keepsMemory (sys : IpcSystem) : IpcEvent → Bool
  | .leave pid _ _ =>
      (sys.thread pid).any fun t => t.inSyscall && !(t.next matches some (.munmap _ _))
  | .signal pid putOff =>
      (sys.thread pid).any fun t =>
        !t.inSyscall && !(putOff && (t.chain.isSome || t.deferring))
  | .exit pid => (sys.thread pid).any fun t => !sys.isLast t
  | _ => false

end IpcSystem

namespace Memory

variable (memory : Memory) (sys : IpcSystem) (event : IpcEvent) (sys' : IpcSystem)

/-- The memory of a process, for another one. -/
def copies (parent child : Nat) (mappings : List ShmMapping) : List ShmMapping :=
  (mappings.filter (·.process = parent)).map fun mapping => { mapping with process := child }

/-- What is mapped in addition after an event. -/
def gained : List ShmMapping :=
  (sys.mappedAt event).toList ++
    (sys.forkedAt event).elim [] fun (parent, child) => copies parent child memory.attached

/-- **What is mapped after an event though it was given up before**: the thread did not make the
system call that gives it up, or in vain, or its process was forked before. -/
def returned : List ShmMapping :=
  (if sys.keepsMemory event then (memory.givenUp.filter (·.1 = event.pid)).map Prod.snd else []) ++
    (sys.forkedAt event).elim [] fun (parent, child) =>
      copies parent child (memory.givenUp.map Prod.snd)

/-- What is given up after an event, in a system call that is not over. -/
def pending : List (Nat × ShmMapping) :=
  match event with
  | .exec _ => memory.givenUp.filter fun (_, mapping) => !sys.gives event sys' mapping
  | .exit pid =>
      memory.givenUp.filter fun (owner, mapping) =>
        owner ≠ pid && !sys.gives event sys' mapping
  | .leave pid _ _ =>
      if (sys.thread pid).any (·.inSyscall) then memory.givenUp.filter (·.1 ≠ pid)
      else memory.givenUp
  | .signal pid _ =>
      if sys.keepsMemory event then memory.givenUp.filter (·.1 ≠ pid) else memory.givenUp
  | event =>
      memory.givenUp ++ (memory.attached.filter (sys.gives event sys')).map fun mapping =>
        (event.pid, mapping)

/-- **The memory of the processes after an event.** -/
def after : Memory where
  attached := (memory.attached.filter fun mapping => !sys.gives event sys' mapping) ++
    memory.gained sys event ++ memory.returned sys event
  givenUp := memory.pending sys event sys'

/-- What is mapped has its entry. -/
def Backed : Prop := memory.attached.Subperm (sys.mappings.filter ShmMapping.located)

end Memory

/-- **One event**, with the memory of the processes. -/
def mappedStep (s : IpcSystem × Memory) (event : IpcEvent) : Option (IpcSystem × Memory) :=
  (s.1.step event).map fun sys' => (sys', s.2.after s.1 event sys')

/-! ## Entries -/

/-- The entries that have their place. -/
def IpcSystem.located (sys : IpcSystem) : List ShmMapping :=
  sys.mappings.filter ShmMapping.located

namespace IpcSystem

section

variable {sys sys' : IpcSystem} {event : IpcEvent} {t : IpcThread}

/-- An entry goes that has no place. -/
theorem filter_erase {α : Type*} [BEq α] [LawfulBEq α] {p : α → Bool} {a : α} (h : p a = false)
    (l : List α) : (l.erase a).filter p = l.filter p := by
  induction l with
  | nil => rfl
  | cons b l ih =>
      rw [List.erase_cons]
      split
      · rename_i heq
        obtain rfl := eq_of_beq heq
        rw [List.filter_cons_of_neg (by simp [h])]
      · rw [List.filter_cons, List.filter_cons, ih]

theorem freeMapping_mappings (mapping : ShmMapping) :
    (sys.freeMapping mapping).mappings = sys.mappings.erase mapping := by
  unfold freeMapping
  dsimp only
  split <;> rfl

/-- The entries of a process go. -/
theorem removeMappings_mappings (process : Nat) :
    (sys.removeMappings process).mappings.Perm (sys.mappings.filter (·.process ≠ process)) := by
  have hfold : ∀ (mappings : List ShmMapping) (sys : IpcSystem),
      (mappings.foldl freeMapping sys).mappings = sys.mappings.diff mappings := by
    intro mappings
    induction mappings with
    | nil => exact fun sys => rfl
    | cons mapping mappings ih =>
        intro sys
        rw [List.foldl_cons, ih, freeMapping_mappings, List.diff_cons]
  rw [removeMappings, hfold]
  refine List.perm_iff_count.mpr fun m => ?_
  rw [List.count_diff]
  have hnone : ∀ {p : ShmMapping → Bool}, p m = false →
      (sys.mappings.filter p).count m = 0 := fun hp =>
    List.count_eq_zero_of_not_mem fun hm => by simp [hp] at hm
  by_cases hm : m.process = process
  · rw [List.count_filter (by simp [hm]), Nat.sub_self, hnone (by simp [hm])]
  · rw [hnone (by simp [hm]), Nat.sub_zero, List.count_filter (by simp [hm])]

variable {mapping : ShmMapping}

theorem findPendingMapping_spec {process index : Nat}
    (h : sys.findPendingMapping process index = some mapping) :
    mapping ∈ sys.mappings ∧ mapping.process = process ∧ mapping.shmIndex = index ∧
      mapping.size = 0 := by
  have hfound := List.find?_some h
  simp only [Bool.and_eq_true, decide_eq_true_eq] at hfound
  exact ⟨List.mem_of_find?_eq_some h, hfound.1.1, hfound.2, hfound.1.2⟩

/-- An entry that has no place. -/
theorem not_located (h : mapping.size = 0) : mapping.located = false := by
  simp [ShmMapping.located, h]

theorem freeMapping_located (h : mapping.size = 0) :
    (sys.freeMapping mapping).located = sys.located := by
  rw [located, freeMapping_mappings, filter_erase (not_located h)]
  rfl

theorem failShmat_located (h : failShmat sys t = some sys') : sys'.located = sys.located := by
  obtain ⟨mapping, hmapping, hwoken⟩ := Option.bind_eq_some_iff.mp h
  obtain ⟨threads, -, rfl⟩ := Option.map_eq_some_iff.mp hwoken
  exact freeMapping_located (findPendingMapping_spec hmapping).2.2.2

/-- A pending entry gets its place. -/
theorem placeMapping_perm (h : mapping ∈ sys.mappings) (addr size : BitVec 64) :
    (sys.placeMapping mapping addr size).mappings.Perm
      ({ mapping with addr, size } :: sys.mappings.erase mapping) :=
  replace_perm h

theorem placeMapping_located (h : mapping ∈ sys.mappings) (hsize : mapping.size = 0)
    (addr size : BitVec 64) :
    (sys.placeMapping mapping addr size).located.Perm
      (({ mapping with addr, size } :: sys.mappings).filter ShmMapping.located) := by
  have hperm := (placeMapping_perm h addr size).filter ShmMapping.located
  rw [List.filter_cons, filter_erase (not_located hsize), ← List.filter_cons] at hperm
  exact hperm

/-- A step of a `shmat` loses no entry that has its place. -/
theorem shmatChain_located {result : BitVec 64} {answers : StopAnswers} {goesOn : Bool}
    (h : shmatChain sys t result answers = some (sys', goesOn)) :
    sys.located.Subperm sys'.located := by
  have hsame : ∀ {sys₁ : IpcSystem}, sys₁.located = sys.located →
      sys.located.Subperm sys₁.located := fun heq => heq ▸ List.Subperm.refl _
  cases shmatChain_step h with
  | fails hf hnot hfail => exact hsame ((failShmat_located hfail).trans rfl)
  | goes hsys => rcases hsys with rfl | ⟨fd, rfl⟩ <;> exact hsame rfl
  | maps hmapping hf hover hmmap hwoken =>
      obtain ⟨threads, -, rfl⟩ := Option.map_eq_some_iff.mp hwoken
      obtain ⟨hmem, -, -, hsize⟩ := findPendingMapping_spec hmapping
      refine .trans ?_ (placeMapping_located hmem hsize _ _).symm.subperm
      exact ((List.sublist_cons_self _ _).filter _).subperm

/-- The thread of a pid after it was changed. -/
theorem thread_modify {pid : Nat} {f : IpcThread → IpcThread} (h : sys.thread pid = some t)
    (hf : (f t).config.pid = pid) : (sys.modify pid f).thread pid = some (f t) := by
  rw [thread] at h
  rw [thread, modify]
  dsimp only
  generalize sys.threads = threads at h
  induction threads with
  | nil => cases h
  | cons u threads ih =>
      rw [List.map_cons]
      by_cases hu : u.config.pid = pid
      · rw [List.find?_cons_of_pos (by simp [hu])] at h
        obtain rfl := Option.some.inj h
        rw [if_pos hu, List.find?_cons_of_pos (by simp [hf])]
      · rw [List.find?_cons_of_neg (by simp [hu])] at h
        rw [if_neg hu, List.find?_cons_of_neg (by simp [hu])]
        exact ih h

/-- A thread that makes a `shmdt` of a segment is about to unmap it. -/
theorem shmdt_next {addr : BitVec 64} {fromSigsys : Bool}
    (hfind : sys.mappings.find? (ShmMapping.isAt t.process addr) = some mapping)
    (hdone : sys.syscallCommon t (.shmdt addr) fromSigsys = some sys') :
    (sys'.thread t.config.pid).bind (·.next) = some (.munmap addr mapping.size) := by
  have hfind : (sys.mappings.find? fun mapping =>
      mapping.process = t.process && mapping.addr = addr) = some mapping := hfind
  unfold syscallCommon at hdone
  simp only [IpcRequest.run, shmdt, hfind] at hdone
  split at hdone
  · cases hdone
  · split at hdone
    · cases hdone
    · obtain ⟨v, hv, hdone⟩ := Option.bind_eq_some_iff.mp hdone
      obtain ⟨u, hu, hdone⟩ := Option.bind_eq_some_iff.mp hdone
      cases hdone
      obtain ⟨hmem, hpid⟩ := thread_mem hv
      rw [(freeMapping_same _ _).threads] at hmem
      obtain ⟨w, -, hw⟩ := List.mem_map.mp hmem
      have hwpid : w.config.pid = t.config.pid := by
        by_contra hne
        rw [if_neg hne] at hw
        exact hne (hw ▸ hpid)
      rw [if_pos hwpid] at hw
      have hnext : u.config.pid = t.config.pid ∧ u.next = some (.munmap addr mapping.size) := by
        subst hw
        cases hu
        exact ⟨hwpid, rfl⟩
      rw [thread_modify hv hnext.1]
      exact hnext.2

/-- The `mmap` of a `shmat` is over: the pending entry gets its place. -/
theorem mapped_mappings (h : sys.WaitsLegal) (hmapped : sys.mappedAt event = some mapping)
    (hstep : sys.step event = some sys') :
    ∃ pending, sys.findPendingMapping mapping.process mapping.shmIndex = some pending ∧
      sys'.mappings =
        sys.mappings.replace pending
          { pending with addr := mapping.addr, size := mapping.size } ∧
      mapping.located = true := by
  cases event with
  | leave pid result answers =>
      obtain ⟨t, hthread, hmapped⟩ := Option.bind_eq_some_iff.mp hmapped
      split at hmapped
      · rename_i size fd hnext
        split at hmapped
        · rename_i hsuits
          cases hmapped
          simp only [Bool.and_eq_true, decide_eq_true_eq] at hsuits
          obtain ⟨⟨hin, hmmap⟩, hmemory⟩ := hsuits
          have hsize : size ≠ 0 := by
            rw [isMemory, Bool.and_eq_true, Bool.and_eq_true] at hmemory
            exact of_decide_eq_true hmemory.1.2
          have hshmat : t.chainState.inShmat = true := by rw [hmmap]; rfl
          have hwait := shmat_waitState (h.thread_legal hthread) (by rw [hmmap]; rfl)
            (by rw [hmmap]; nofun)
          have hchain := ((h.thread_legal hthread).free hwait).past (by rw [hmmap]; rfl)
          simp only [step, hthread, hin, Bool.not_true, Bool.false_eq_true, if_false, hchain,
            if_true] at hstep
          obtain ⟨sys₁, hsys₁, rfl⟩ := Option.map_eq_some_iff.mp hstep
          unfold chainedExit at hsys₁
          simp only [hwait, hshmat, if_true] at hsys₁
          obtain ⟨⟨sys₂, goesOn⟩, hdone, rfl⟩ := Option.map_eq_some_iff.mp hsys₁
          unfold shmatChain at hdone
          simp only [hmmap, hnext] at hdone
          split at hdone
          · cases hdone
          · obtain ⟨pending, hpending, hdone⟩ := Option.bind_eq_some_iff.mp hdone
            obtain ⟨sys₃, hwoken, hdone⟩ := Option.bind_eq_some_iff.mp hdone
            obtain ⟨threads, -, rfl⟩ := Option.map_eq_some_iff.mp hwoken
            cases hdone
            exact ⟨pending, hpending, rfl, decide_eq_true hsize⟩
        · cases hmapped
      · cases hmapped
  | enter pid call answers => cases hmapped
  | sigsys pid call => cases hmapped
  | signal pid putOff => cases hmapped
  | fork pid child cloneThread => cases hmapped
  | exec pid => cases hmapped
  | exit pid => cases hmapped

/-- The entries after a call. -/
def mappingsAfter (sys : IpcSystem) (t : IpcThread) : IpcRequest → List ShmMapping
  | .shmat shmid =>
      match lookupIpcObject sys.shms shmid with
      | .ok index => ⟨t.process, index, 0, 0⟩ :: sys.mappings
      | .error _ => sys.mappings
  | .shmdt addr =>
      match sys.mappings.find? (ShmMapping.isAt t.process addr) with
      | some mapping => sys.mappings.erase mapping
      | none => sys.mappings
  | _ => sys.mappings

/-- **What a call does to the entries.** -/
theorem run_mappings (t : IpcThread) (call : IpcRequest) :
    (call.run sys t).1.mappings = sys.mappingsAfter t call := by
  cases call with
  | msgget key msgflg => rfl
  | msgsnd msqid msgsz readType readText now => exact (msgsnd_segments _ _ _ _ _ _).mappings
  | msgrcv msqid args written now => exact (msgrcvCall_segments _ _ _ _ _).mappings
  | msgctl msqid cmd written => exact (msgctl_segments _ _ _).mappings
  | sem call => rfl
  | shmget key shmSize shmflg fd => rfl
  | shmat shmid =>
      simp only [IpcRequest.run, shmat, mappingsAfter]
      cases lookupIpcObject sys.shms shmid with
      | error status => rfl
      | ok index =>
          dsimp only
          split <;> rfl
  | shmdt addr =>
      have hisAt : (fun mapping : ShmMapping =>
          mapping.process = t.process && mapping.addr = addr) =
            ShmMapping.isAt t.process addr := rfl
      simp only [IpcRequest.run, shmdt, mappingsAfter, hisAt]
      cases sys.mappings.find? (ShmMapping.isAt t.process addr) with
      | none => rfl
      | some mapping => exact freeMapping_mappings mapping
  | shmctl shmid cmd written =>
      simp only [IpcRequest.run, shmctl, mappingsAfter]
      cases lookupIpcObject sys.shms shmid with
      | error status => rfl
      | ok index =>
          dsimp only
          split
          · split <;> rfl
          · rfl
          · rfl

/-- The fork of a process. -/
theorem forked_mappings {parent child : Nat} (hforked : sys.forkedAt event = some (parent, child))
    (hstep : sys.step event = some sys') :
    sys'.mappings = Memory.copies parent child sys.mappings ++ sys.mappings ∧
      ∀ mapping, sys.gives event sys' mapping = false := by
  cases event with
  | fork pid child' cloneThread =>
      obtain ⟨t, hthread, hforked⟩ := Option.bind_eq_some_iff.mp hforked
      split at hforked
      · rename_i hnew
        cases hforked
        rw [Bool.and_eq_true, Bool.not_eq_true'] at hnew
        obtain ⟨hfresh, rfl⟩ := hnew
        simp only [step, hthread, hfresh, if_true] at hstep
        cases hstep
        exact ⟨rfl, fun mapping => rfl⟩
      · cases hforked
  | enter pid call answers => cases hforked
  | leave pid result answers => cases hforked
  | sigsys pid call => cases hforked
  | signal pid putOff => cases hforked
  | exec pid => cases hforked
  | exit pid => cases hforked

/-- What is given up in a `shmdt`. -/
theorem shmdt_gives {addr : BitVec 64} {fromSigsys : Bool} (hexecve : sys.execveOf event = none)
    (hcall : sys.callOf event = some (t, .shmdt addr))
    (hfind : sys.mappings.find? (ShmMapping.isAt t.process addr) = some mapping)
    (hdone : sys.syscallCommon t (.shmdt addr) fromSigsys = some sys') :
    sys.gives event sys' mapping = true := by
  have hnext := shmdt_next hfind hdone
  have hat := List.find?_some hfind
  rw [ShmMapping.isAt, Bool.and_eq_true, decide_eq_true_iff, decide_eq_true_iff] at hat
  have hunmaps : sys'.unmaps t mapping = true := by
    rw [unmaps, hnext]
    simp [hat.1, hat.2]
  cases event with
  | enter pid call answers =>
      simp only [gives, hexecve, hcall]
      exact hunmaps
  | sigsys pid call =>
      simp only [gives, hexecve, hcall]
      exact hunmaps
  | leave pid result answers => cases hcall
  | signal pid putOff => cases hcall
  | fork pid child cloneThread => cases hcall
  | exec pid => cases hcall
  | exit pid => cases hcall

/-- What a call loses of the entries that have their place is given up. -/
theorem called_located {call : IpcRequest} {fromSigsys : Bool}
    (hexecve : sys.execveOf event = none) (hcall : sys.callOf event = some (t, call))
    (hdone : sys.syscallCommon t call fromSigsys = some sys') :
    (sys.located.filter fun mapping => !sys.gives event sys' mapping).Subperm sys'.located := by
  have hmappings : sys'.mappings = sys.mappingsAfter t call :=
    (syscallCommon_segments hdone).mappings.trans (run_mappings t call)
  have hmore : sys.located.Subperm sys'.located →
      (sys.located.filter fun mapping => !sys.gives event sys' mapping).Subperm sys'.located :=
    List.filter_sublist.subperm.trans
  rw [located, located, hmappings] at hmore ⊢
  cases call with
  | shmat shmid =>
      refine hmore ?_
      simp only [mappingsAfter]
      split
      · exact ((List.sublist_cons_self _ _).filter _).subperm
      · exact List.Subperm.refl _
  | shmdt addr =>
      cases hfind : sys.mappings.find? (ShmMapping.isAt t.process addr) with
      | none =>
          refine hmore ?_
          simp only [mappingsAfter, hfind]
          exact List.Subperm.refl _
      | some mapping =>
          simp only [mappingsAfter, hfind]
          have hgiven : sys.gives event sys' mapping = true :=
            shmdt_gives hexecve hcall hfind hdone
          have hstays := filter_erase (p := fun m => !sys.gives event sys' m) (a := mapping)
            (by rw [hgiven]; rfl) sys.mappings
          rw [List.filter_comm, ← hstays, List.filter_comm]
          exact List.filter_sublist.subperm
  | msgget key msgflg => exact hmore (List.Subperm.refl _)
  | msgsnd msqid msgsz readType readText now => exact hmore (List.Subperm.refl _)
  | msgrcv msqid args written now => exact hmore (List.Subperm.refl _)
  | msgctl msqid cmd written => exact hmore (List.Subperm.refl _)
  | sem call => exact hmore (List.Subperm.refl _)
  | shmget key shmSize shmflg fd => exact hmore (List.Subperm.refl _)
  | shmctl shmid cmd written => exact hmore (List.Subperm.refl _)

/-- The entries after a thread is gone. -/
theorem exit_mappings (t : IpcThread) :
    (sys.exit t).mappings.Perm
      (if sys.isLast t then sys.mappings.filter (·.process ≠ t.process) else sys.mappings) := by
  unfold exit isLast
  dsimp only
  split
  · rename_i hothers
    rw [hothers]
    exact .refl _
  · rename_i hlast
    rw [Bool.eq_false_iff.mpr hlast]
    exact removeMappings_mappings _

/-- The entries of a process are given up that is let into an `execve`. -/
theorem execve_spec (hexecve : sys.execveOf event = some t) :
    ∃ pid answers, event = .enter pid (.execve true) answers ∧ sys.thread pid = some t ∧
      mayCall t = true ∧ t.chain = none ∧ t.waitState = .WSTATE_NOT_WAITING ∧
      ∀ sys' mapping, sys.gives event sys' mapping = decide (mapping.process = t.process) := by
  cases event with
  | enter pid call answers =>
      cases call with
      | execve prepared =>
          cases prepared with
          | true =>
              have hgives : ∀ sys' mapping, sys.gives (.enter pid (.execve true) answers) sys'
                  mapping = decide (mapping.process = t.process) := fun sys' mapping => by
                simp only [gives, hexecve]
              obtain ⟨hthread, hready⟩ := Option.filter_eq_some_iff.mp hexecve
              simp only [Bool.and_eq_true, decide_eq_true_eq, Option.isNone_iff_eq_none] at hready
              exact ⟨pid, answers, rfl, hthread, hready.1.1, hready.1.2, hready.2, hgives⟩
          | false => cases hexecve
      | ipc call => cases hexecve
      | planned call => cases hexecve
      | other => cases hexecve
  | leave pid result answers => cases hexecve
  | sigsys pid call => cases hexecve
  | signal pid putOff => cases hexecve
  | fork pid child cloneThread => cases hexecve
  | exec pid => cases hexecve
  | exit pid => cases hexecve

/-- An `execve` that is let in. -/
theorem execve_step (hexecve : sys.execveOf event = some t) (hstep : sys.step event = some sys') :
    sys' = (sys.modify event.pid fun t => { t with inSyscall := true }).removeMappings
      t.process := by
  obtain ⟨pid, answers, rfl, hthread, hfree, hchain, hwait, -⟩ := execve_spec hexecve
  rw [mayCall, Bool.and_eq_true, Bool.not_eq_true', decide_eq_true_iff] at hfree
  simp only [step, hthread, hfree.1, asPlanned, hfree.2, hchain, enterStart, hwait] at hstep
  cases hstep
  rw [(thread_mem hthread).2]
  rfl

/-- The entries after an `execve` was entered. -/
theorem execve_mappings (hexecve : sys.execveOf event = some t)
    (hstep : sys.step event = some sys') :
    sys'.mappings.Perm (sys.mappings.filter (·.process ≠ t.process)) := by
  rw [execve_step hexecve hstep]
  exact removeMappings_mappings _

/-- **What an event loses of the entries that have their place is given up.** -/
theorem step_located (hstep : sys.step event = some sys') :
    (sys.located.filter fun mapping => !sys.gives event sys' mapping).Subperm sys'.located := by
  have hmore : sys.located.Subperm sys'.located →
      (sys.located.filter fun mapping => !sys.gives event sys' mapping).Subperm sys'.located :=
    List.filter_sublist.subperm.trans
  have hsame : ∀ {sys₁ sys₂ : IpcSystem}, sys₂.mappings = sys₁.mappings →
      sys₁.located.Subperm sys₂.located := fun heq => by
    rw [located, located, heq]
  cases hexecve : sys.execveOf event with
  | some t =>
      have hperm := (execve_mappings hexecve hstep).filter ShmMapping.located
      obtain ⟨-, -, -, -, -, -, -, hgives⟩ := execve_spec hexecve
      refine .trans (List.Perm.of_eq ?_).subperm hperm.symm.subperm
      simp only [hgives]
      rw [located, List.filter_comm]
      simp
  | none =>
      cases step_spec hstep with
      | stays hcall hanswered => exact hmore (List.Subperm.refl _)
      | called hthread hcall hanswered hfree hchain hdone =>
          exact called_located hexecve hcall hdone
      | moved hthread hcall hanswered hmoves => exact hmore (List.Subperm.refl _)
      | @execve pid t prepared answers hthread hfree hchain hwait =>
          cases prepared with
          | true => simp [execveOf, hthread, hfree, hchain, hwait] at hexecve
          | false => exact hmore (List.Subperm.refl _)
      | answered hthread hcall hanswered hstatus hanswers =>
          exact hmore (hsame (statusOf_segments hstatus).mappings)
      | shmatStarted hthread hin hchain hshmat hdone =>
          have hlocated := shmatChain_located hdone
          exact hmore hlocated
      | shmatChained hthread hin hchain hshmat hwait hdone =>
          have hlocated := shmatChain_located hdone
          exact hmore hlocated
      | @forked pid child t cloneThread hthread hfresh =>
          refine hmore ?_
          unfold inheritChild
          split
          · exact hsame rfl
          · exact ((List.sublist_append_right _ _).filter _).subperm
      | replaced hthread hin => exact hmore (List.Subperm.refl _)
      | @exited pid t hthread =>
          have hgives : ∀ mapping, sys.gives (.exit pid) (sys.exit t) mapping =
              (sys.isLast t && decide (mapping.process = t.process)) := fun mapping => by
            simp [gives, hthread]
          have hexit := @exit_mappings sys t
          cases hlast : sys.isLast t with
          | false =>
              rw [if_neg (by rw [hlast]; decide)] at hexit
              exact hmore (hexit.symm.filter _).subperm
          | true =>
              rw [if_pos hlast] at hexit
              refine .trans (List.Perm.of_eq ?_).subperm
                (hexit.symm.filter ShmMapping.located).subperm
              simp only [hgives, hlast, Bool.true_and]
              rw [located, List.filter_comm]
              simp

end

end IpcSystem

/-! ## What is mapped -/

namespace Memory

variable {memory : Memory} {sys sys' : IpcSystem} {event : IpcEvent}

theorem copies_subperm (parent child : Nat) {mappings mappings' : List ShmMapping}
    (h : mappings.Subperm mappings') :
    (copies parent child mappings).Subperm (copies parent child mappings') := by
  obtain ⟨middle, hperm, hsub⟩ := h
  exact ⟨copies parent child middle, (hperm.filter _).map _, (hsub.filter _).map _⟩

theorem copies_located (parent child : Nat) (mappings : List ShmMapping) :
    (copies parent child mappings).filter ShmMapping.located =
      copies parent child (mappings.filter ShmMapping.located) := by
  rw [copies, copies, List.filter_map, List.filter_comm]
  rfl

/-- **What is mapped has its entry**, unless memory that was given up is mapped again. -/
theorem backed_step (h : sys.WaitsLegal) (hbacked : memory.Backed sys)
    (hgone : memory.returned sys event = []) (hstep : sys.step event = some sys') :
    (memory.after sys event sys').Backed sys' := by
  have hold : (memory.attached.filter fun mapping => !sys.gives event sys' mapping).Subperm
      (sys.located.filter fun mapping => !sys.gives event sys' mapping) :=
    List.Subperm.filter _ hbacked
  rw [Backed, after]
  dsimp only
  rw [hgone, List.append_nil, gained]
  cases hforked : sys.forkedAt event with
  | some parts =>
      obtain ⟨parent, child⟩ := parts
      have hmapped : sys.mappedAt event = none := by
        cases event with
        | fork pid child' cloneThread => rfl
        | leave pid result answers => cases hforked
        | enter pid call answers => rfl
        | sigsys pid call => rfl
        | signal pid putOff => rfl
        | exec pid => rfl
        | exit pid => rfl
      obtain ⟨hmappings, hgives⟩ := IpcSystem.forked_mappings hforked hstep
      rw [hmapped, hmappings, List.filter_append, copies_located]
      simp only [hgives, Bool.not_false, List.filter_true, Option.toList_none, List.nil_append,
        Option.elim_some]
      refine List.perm_append_comm.subperm.trans ?_
      exact ((List.subperm_append_right _).mpr (copies_subperm parent child hbacked)).trans
        ((List.subperm_append_left _).mpr hbacked)
  | none =>
      rw [Option.elim_none, List.append_nil]
      cases hmapped : sys.mappedAt event with
      | none =>
          rw [Option.toList_none, List.append_nil]
          exact hold.trans (IpcSystem.step_located hstep)
      | some mapping =>
          obtain ⟨pending, hpending, hmappings, hlocated⟩ :=
            IpcSystem.mapped_mappings h hmapped hstep
          obtain ⟨hmem, hprocess, hindex, hsize⟩ := IpcSystem.findPendingMapping_spec hpending
          have hplaced := IpcSystem.placeMapping_located hmem hsize mapping.addr mapping.size
          have hnew : { pending with addr := mapping.addr, size := mapping.size } = mapping := by
            rw [hprocess, hindex]
          rw [Option.toList_some, hmappings]
          refine .trans ?_ hplaced.symm.subperm
          rw [hnew, List.filter_cons_of_pos hlocated]
          refine List.perm_append_comm.subperm.trans ?_
          exact (List.subperm_append_left [mapping]).mpr
            (List.filter_sublist.subperm.trans hbacked)

end Memory

end PRoot
