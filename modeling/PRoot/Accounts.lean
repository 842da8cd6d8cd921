import PRoot.PendingEntries
import PRoot.SegmentLives

/-!
# The entries are what is mapped

* `Accounted`: each entry is of memory that is mapped, or of a `shmat` in progress;
* `keepsAccount`: the steps that keep it;
* `entries_account`: in a run of such steps the entries are exact, and no `shmat` misses its own.
-/

namespace PRoot

/-- **The entries are what is mapped, and what is being set up.** -/
def Accounted (sys : IpcSystem) (memory : Memory) : Prop :=
  sys.mappings.Perm (memory.attached ++ sys.pendings)

namespace IpcSystem

/-- A thread of a process is in a `shmat`. -/
def attaching (sys : IpcSystem) (process : Nat) : Bool :=
  sys.threads.any fun t => t.process = process && t.settingUp

/-- **A step after which the entries are still exact.**  The wait of a `shmat` for the helper does
not end early, and its `mmap` does not fail; no program is replaced, and no process forked, while
a thread of the process is in a `shmat`; none is replaced that mapped something after it was let
into `execve`; a thread does not leave its process in the middle of a `shmat`; and a `shmdt` is of
an address at which the segment of the entry is mapped. -/
def keepsEntries (sys : IpcSystem) (memory : Memory) (event : IpcEvent) : Bool :=
  match event with
  | .leave pid _ _ =>
      (sys.thread pid).all fun t => !t.inSyscall ||
        t.waitReason ≠ .WR_WAIT_SHMAT_HELPER_BUSY &&
          (t.chainState ≠ .CSTATE_SHMAT_MMAP || (sys.mappedAt event).isSome)
  | .exec pid =>
      (sys.thread pid).all fun t => !t.inSyscall ||
        !sys.attaching t.process && !memory.attached.any (·.process = t.process)
  | .exit pid => (sys.thread pid).all fun t => sys.isLast t || !t.settingUp
  | .fork .. => (sys.forkedAt event).all fun (parent, _) => !sys.attaching parent
  | event =>
      match sys.execveOf event, sys.callOf event with
      | some t, _ => !sys.attaching t.process
      | none, some (t, .shmdt addr) =>
          (sys.mappings.find? (ShmMapping.isAt t.process addr)).all fun mapping =>
            memory.attached.filter (ShmMapping.isAt t.process addr) = [mapping]
      | none, _ => true

end IpcSystem

/-- A step that keeps the entries exact, disturbs no thread in the middle of a call, and after
which no memory is mapped that a process gave up before. -/
def keepsAccount (s : IpcSystem × Memory) (event : IpcEvent) : Bool :=
  letsGoSafely s event && s.1.keepsEntries s.2 event

section

variable {sys sys' : IpcSystem} {memory : Memory} {event : IpcEvent} {t : IpcThread}

variable {mapping : ShmMapping}

namespace IpcSystem

/-- No thread of a process is in a `shmat`. -/
theorem pendings_of_not_attaching {process : Nat} (h : sys.attaching process = false) :
    ∀ mapping ∈ sys.pendings, mapping.process ≠ process := by
  intro mapping hmapping hprocess
  obtain ⟨u, hu, hentry⟩ := List.mem_filterMap.mp hmapping
  rw [IpcThread.pendingEntry] at hentry
  split at hentry
  · rename_i hsetting
    cases hentry
    have hnone := List.any_eq_false.mp h u hu
    rw [hsetting, Bool.and_true, decide_eq_true_iff] at hnone
    exact hnone hprocess
  · cases hentry

/-- An entry that has no place is of a thread that is in a `shmat`. -/
theorem mem_pendings (h : mapping ∈ sys.pendings) :
    mapping.addr = 0 ∧ mapping.size = 0 := by
  obtain ⟨u, hu, hentry⟩ := List.mem_filterMap.mp h
  rw [IpcThread.pendingEntry] at hentry
  split at hentry
  · cases hentry
    exact ⟨rfl, rfl⟩
  · cases hentry

end IpcSystem

/-- What is mapped has its place. -/
theorem Memory.Backed.located (h : memory.Backed sys) (hmapping : mapping ∈ memory.attached) :
    mapping.size ≠ 0 :=
  of_decide_eq_true (List.mem_filter.mp (h.subset hmapping)).2

/-- The entry that a `shmat` looks up is its own. -/
theorem Accounted.found (h : Accounted sys memory) (hbacked : memory.Backed sys)
    {process index : Nat} {found : ShmMapping}
    (hfound : sys.findPendingMapping process index = some found) :
    found = ⟨process, index, 0, 0⟩ := by
  obtain ⟨hmem, hprocess, hindex, hsize⟩ := IpcSystem.findPendingMapping_spec hfound
  rcases List.mem_append.mp (h.mem_iff.mp hmem) with hattached | hpending
  · exact absurd hsize (hbacked.located hattached)
  · have haddr := (IpcSystem.mem_pendings hpending).1
    cases found
    simp_all

/-- What a `shmat` does not change. -/
theorem Accounted.same (h : Accounted sys memory) {memory' : Memory}
    (hmappings : sys'.mappings = sys.mappings) (hpendings : sys'.pendings = sys.pendings)
    (hattached : memory'.attached = memory.attached) : Accounted sys' memory' := by
  rw [Accounted, hmappings, hpendings, hattached]
  exact h

/-- Memory that nothing happens to. -/
theorem after_attached (hgone : memory.returned sys event = [])
    (hgives : ∀ mapping, sys.gives event sys' mapping = false)
    (hmapped : sys.mappedAt event = none) (hforked : sys.forkedAt event = none) :
    (memory.after sys event sys').attached = memory.attached := by
  simp [Memory.after, hgone, hgives, Memory.gained, hmapped, hforked]

variable {result : BitVec 64}

/-- A step of a `shmat`, before the `mmap` is over. -/
theorem Accounted.chain (h : Accounted sys memory) (hbacked : memory.Backed sys)
    (hlegal : sys.WaitsLegal) (hthread : sys.thread t.config.pid = some t)
    (hshmat : t.chainState.inShmat = true) (hreason : t.waitReason = .WR_NOT_WAITING)
    {middle : IpcSystem} (haccount : IpcSystem.ChainAccount sys t result middle)
    (hnot : t.chainState ≠ .CSTATE_SHMAT_MMAP) {memory' : Memory}
    (hmappings : sys'.mappings = middle.mappings) (hpendings : sys'.pendings = middle.pendings)
    (hattached : memory'.attached = memory.attached) : Accounted sys' memory' := by
  rcases IpcSystem.chain_pendings hlegal hthread hshmat hreason haccount with
    ⟨hsame, hpendings', -⟩ | ⟨hout, found, hfound, herased⟩
  · exact h.same (hmappings.trans hsame) (hpendings.trans hpendings') hattached
  · rw [Accounted, hmappings, hpendings, hattached, herased hnot]
    have hown := h.found hbacked hfound
    have hperm : sys.mappings.Perm (found :: (memory.attached ++ middle.pendings)) := by
      rw [hown]
      exact h.trans ((hout.append_left _).trans List.perm_middle)
    exact (List.perm_cons found).mp
      ((List.perm_cons_erase (IpcSystem.findPendingMapping_spec hfound).1).symm.trans hperm)

/-- The `mmap` of a `shmat` is over. -/
theorem Accounted.maps (h : Accounted sys memory) (hbacked : memory.Backed sys)
    (hlegal : sys.WaitsLegal) (hthread : sys.thread t.config.pid = some t)
    (hshmat : t.chainState.inShmat = true) (hreason : t.waitReason = .WR_NOT_WAITING)
    {middle : IpcSystem} (haccount : IpcSystem.ChainAccount sys t result middle)
    (hmmap : t.chainState = .CSTATE_SHMAT_MMAP) (hmapped : sys.mappedAt event = some mapping)
    (hprocess : mapping.process = t.process)
    (hindex : mapping.shmIndex = t.config.waitingObjectIndex) (hstep : sys.step event = some sys')
    (hpendings : sys'.pendings = middle.pendings) {memory' : Memory}
    (hattached : memory'.attached = memory.attached ++ [mapping]) :
    Accounted sys' memory' := by
  obtain ⟨found, hfound, hmappings, -⟩ := IpcSystem.mapped_mappings hlegal hmapped hstep
  have hown := h.found hbacked hfound
  have hmem := (IpcSystem.findPendingMapping_spec hfound).1
  rcases IpcSystem.chain_pendings hlegal hthread hshmat hreason haccount with
    ⟨-, -, hnot⟩ | ⟨hout, -⟩
  · exact absurd hmmap hnot
  · have hplaced := IpcSystem.replace_perm (b := mapping) hmem
    have hnew : { found with addr := mapping.addr, size := mapping.size } = mapping := by
      rw [hown]
    rw [hnew] at hmappings
    have hperm : sys.mappings.Perm (found :: (memory.attached ++ middle.pendings)) := by
      rw [hown, hprocess, hindex]
      exact h.trans ((hout.append_left _).trans List.perm_middle)
    have hrest : (sys.mappings.erase found).Perm (memory.attached ++ middle.pendings) :=
      (List.perm_cons found).mp ((List.perm_cons_erase hmem).symm.trans hperm)
    rw [Accounted, hmappings, hpendings, hattached, List.append_assoc]
    exact hplaced.trans ((hrest.cons mapping).trans List.perm_middle.symm)

/-- A process is let into an `execve`: what it has mapped is given up. -/
theorem accounted_execve (h : Accounted sys memory) (hexecve : sys.execveOf event = some t)
    (hgone : memory.returned sys event = []) (hattaching : sys.attaching t.process = false)
    (hstep : sys.step event = some sys') : Accounted sys' (memory.after sys event sys') := by
  obtain ⟨pid, answers, rfl, hthread, hfree, hchain, hwait, hgives⟩ :=
    IpcSystem.execve_spec hexecve
  have hpendings : sys'.pendings = sys.pendings := by
    rw [IpcSystem.execve_step hexecve hstep, IpcSystem.pendings,
      (IpcSystem.removeMappings_same _ _).threads]
    exact IpcSystem.pendings_modify fun _ _ _ => rfl
  have hattached : (memory.after sys (.enter pid (.execve true) answers) sys').attached =
      memory.attached.filter (·.process ≠ t.process) := by
    simp [Memory.after, hgone, hgives, Memory.gained, IpcSystem.mappedAt, IpcSystem.forkedAt]
  rw [Accounted, hattached, hpendings]
  refine (IpcSystem.execve_mappings hexecve hstep).trans ?_
  refine (h.filter _).trans (.of_eq ?_)
  rw [List.filter_append]
  congr 1
  exact List.filter_eq_self.mpr fun mapping hmapping =>
    decide_eq_true (IpcSystem.pendings_of_not_attaching hattaching mapping hmapping)

variable {pid : Nat}

/-- A process is forked: the entries are copied, as the memory is. -/
theorem accounted_forked (h : Accounted sys memory) {child : Nat} {cloneThread : Bool}
    {parent new : Nat} (hforked : sys.forkedAt (.fork pid child cloneThread) = some (parent, new))
    (hgone : memory.returned sys (.fork pid child cloneThread) = [])
    (hattaching : sys.attaching parent = false) (hpendings : sys'.pendings = sys.pendings)
    (hstep : sys.step (.fork pid child cloneThread) = some sys') :
    Accounted sys' (memory.after sys (.fork pid child cloneThread) sys') := by
  obtain ⟨hmappings, hgives⟩ := IpcSystem.forked_mappings hforked hstep
  have hattached : (memory.after sys (.fork pid child cloneThread) sys').attached =
      memory.attached ++ Memory.copies parent new memory.attached := by
    simp [Memory.after, hgone, hgives, Memory.gained, IpcSystem.mappedAt, hforked]
  have hnone : Memory.copies parent new sys.pendings = [] := by
    rw [Memory.copies, List.map_eq_nil_iff, List.filter_eq_nil_iff]
    intro mapping hmapping
    simpa using IpcSystem.pendings_of_not_attaching hattaching mapping hmapping
  have hcopies : (Memory.copies parent new sys.mappings).Perm
      (Memory.copies parent new memory.attached) := by
    refine ((h.filter _).map _).trans (.of_eq ?_)
    rw [List.filter_append, List.map_append]
    exact (congrArg _ hnone).trans (List.append_nil _)
  rw [Accounted, hattached, hmappings, hpendings]
  refine (hcopies.append h).trans ?_
  rw [← List.append_assoc]
  exact List.perm_append_comm.append_right _

/-- A thread is gone. -/
theorem accounted_exit (h : Accounted sys memory) (hlegal : sys.WaitsLegal)
    (hthread : sys.thread pid = some t) (hgone : memory.returned sys (.exit pid) = [])
    (hsafe : sys.isLast t = true ∨ t.settingUp = false) :
    Accounted (sys.exit t) (memory.after sys (.exit pid) (sys.exit t)) := by
  obtain ⟨ht, hpid⟩ := IpcSystem.thread_mem hthread
  have hgives : ∀ mapping, sys.gives (.exit pid) (sys.exit t) mapping =
      (sys.isLast t && decide (mapping.process = t.process)) := fun mapping => by
    simp [IpcSystem.gives, hthread]
  have hattached : (memory.after sys (.exit pid) (sys.exit t)).attached =
      memory.attached.filter fun mapping =>
        !(sys.isLast t && decide (mapping.process = t.process)) := by
    simp [Memory.after, hgone, hgives, Memory.gained, IpcSystem.mappedAt, IpcSystem.forkedAt]
  have hmappings := @IpcSystem.exit_mappings sys t
  have hpendings : (sys.exit t).pendings =
      IpcSystem.pendingEntries (sys.threads.filter (·.config.pid ≠ t.config.pid)) :=
    congrArg IpcSystem.pendingEntries (IpcSystem.exit_threads t)
  have hsplit := IpcSystem.pendingEntries_split hlegal.distinct ht
  rw [Accounted, hattached, hpendings]
  cases hlast : sys.isLast t with
  | false =>
      rw [hlast, if_neg Bool.false_ne_true] at hmappings
      have hnone := IpcThread.pendingEntry_none (hsafe.resolve_left (by simp [hlast]))
      rw [hnone] at hsplit
      refine hmappings.trans (h.trans ?_)
      simp only [Bool.false_and, Bool.not_false, List.filter_true]
      exact hsplit.append_left _
  | true =>
      rw [hlast, if_pos rfl] at hmappings
      refine hmappings.trans ((h.filter _).trans ?_)
      rw [List.filter_append]
      refine (List.Perm.of_eq ?_).append ?_
      · simp
      · refine (hsplit.filter _).trans (.of_eq ?_)
        rw [List.filter_append]
        have hown : t.pendingEntry.toList.filter (·.process ≠ t.process) = [] := by
          rw [IpcThread.pendingEntry]
          split <;> simp
        rw [hown, List.nil_append]
        refine List.filter_eq_self.mpr fun mapping hmapping => ?_
        obtain ⟨u, hu, hentry⟩ := List.mem_filterMap.mp hmapping
        have hother : u.process ≠ t.process := fun heq => by
          rw [IpcSystem.isLast, Bool.not_eq_true', List.any_eq_false] at hlast
          exact hlast u hu (decide_eq_true heq)
        rw [IpcThread.pendingEntry] at hentry
        split at hentry
        · cases hentry
          exact decide_eq_true hother
        · cases hentry

/-- The program of a process is replaced that has nothing mapped. -/
theorem accounted_exec (h : Accounted sys memory) (hthread : sys.thread pid = some t)
    (hin : t.inSyscall = true) (hgone : memory.returned sys (.exec pid) = [])
    (hattaching : sys.attaching t.process = false)
    (hnone : (memory.attached.any (·.process = t.process)) = false) :
    Accounted (sys.replaceProgram t) (memory.after sys (.exec pid) (sys.replaceProgram t)) := by
  have hattached : (memory.after sys (.exec pid) (sys.replaceProgram t)).attached =
      memory.attached := by
    have hstays : ∀ mapping ∈ memory.attached, mapping.process ≠ t.process := fun mapping hm =>
      of_decide_eq_false (Bool.eq_false_iff.mpr (List.any_eq_false.mp hnone mapping hm))
    rw [Memory.after]
    simp only [hgone, Memory.gained, IpcSystem.mappedAt, IpcSystem.forkedAt, IpcSystem.gives,
      hthread, Option.any_some, hin, Bool.true_and, Option.toList_none, Option.elim_none,
      List.append_nil]
    exact List.filter_eq_self.mpr fun mapping hm => by simp [hstays mapping hm]
  have hidle : ∀ u ∈ sys.threads, u.process = t.process → u.pendingEntry = none := by
    intro u hu hprocess
    refine IpcThread.pendingEntry_none ?_
    have hnot := List.any_eq_false.mp hattaching u hu
    simpa [hprocess] using hnot
  have hpendings : (sys.replaceProgram t).pendings = sys.pendings := by
    rw [IpcSystem.pendings, IpcSystem.pendings, IpcSystem.pendingEntries,
      IpcSystem.replaceProgram]
    dsimp only
    rw [List.filterMap_map]
    generalize sys.threads = threads at hidle
    induction threads with
    | nil => rfl
    | cons u threads ih =>
        have ih := ih fun v hv => hidle v (List.mem_cons_of_mem _ hv)
        rw [IpcSystem.pendingEntries, List.filterMap_cons, List.filter_cons]
        rw [IpcSystem.pendingEntries] at ih
        split
        · rw [List.filterMap_cons, ih]
          have hsame : (IpcThread.pendingEntry ∘ fun u : IpcThread =>
              if u.config.pid = t.process ∧ u.config.pid ≠ t.config.pid then { u with next := none }
              else u) u = u.pendingEntry := by
            simp only [Function.comp]
            split <;> rfl
          rw [hsame]
        · rename_i hgone
          rw [ih]
          have hprocess : u.process = t.process := by
            by_contra hne
            simp [hne] at hgone
          rw [hidle u List.mem_cons_self hprocess]
  exact h.same rfl hpendings hattached

/-- A `shmdt` gives up the memory that its entry is of. -/
theorem accounted_shmdt (h : Accounted sys memory) {addr : BitVec 64} {fromSigsys : Bool}
    (hexecve : sys.execveOf event = none) (hcall : sys.callOf event = some (t, .shmdt addr))
    (hfind : sys.mappings.find? (ShmMapping.isAt t.process addr) = some mapping)
    (honly : memory.attached.filter (ShmMapping.isAt t.process addr) = [mapping])
    (hgone : memory.returned sys event = []) (hpendings : sys'.pendings = sys.pendings)
    (hdone : sys.syscallCommon t (.shmdt addr) fromSigsys = some sys') :
    Accounted sys' (memory.after sys event sys') := by
  have hmappings : sys'.mappings = sys.mappings.erase mapping := by
    rw [(IpcSystem.syscallCommon_segments hdone).mappings, IpcSystem.run_mappings,
      IpcSystem.mappingsAfter, hfind]
  have hnext := IpcSystem.shmdt_next hfind hdone
  have hgives : ∀ m, sys.gives event sys' m =
      (ShmMapping.isAt t.process addr m && decide (m.size.toNat ≤ mapping.size.toNat)) := by
    intro m
    have hunmaps : sys'.unmaps t m =
        (ShmMapping.isAt t.process addr m && decide (m.size.toNat ≤ mapping.size.toNat)) := by
      rw [IpcSystem.unmaps, hnext]
      rfl
    cases event with
    | enter pid call answers => simp only [IpcSystem.gives, hexecve, hcall, hunmaps]
    | sigsys pid call => simp only [IpcSystem.gives, hexecve, hcall, hunmaps]
    | leave pid result answers => cases hcall
    | signal pid putOff => cases hcall
    | fork pid child cloneThread => cases hcall
    | exec pid => cases hcall
    | exit pid => cases hcall
  have hgiven : memory.attached.filter (sys.gives event sys') = [mapping] := by
    rw [show sys.gives event sys' = fun m => ShmMapping.isAt t.process addr m &&
      decide (m.size.toNat ≤ mapping.size.toNat) from funext hgives]
    rw [← List.filter_filter, List.filter_comm, honly]
    simp
  have hmapped : sys.mappedAt event = none ∧ sys.forkedAt event = none := by
    cases event with
    | enter pid call answers => exact ⟨rfl, rfl⟩
    | sigsys pid call => exact ⟨rfl, rfl⟩
    | leave pid result answers => cases hcall
    | signal pid putOff => cases hcall
    | fork pid child cloneThread => cases hcall
    | exec pid => cases hcall
    | exit pid => cases hcall
  have hattached : (memory.after sys event sys').attached =
      memory.attached.filter fun m => !sys.gives event sys' m := by
    simp [Memory.after, hgone, Memory.gained, hmapped.1, hmapped.2]
  have hparts := List.filter_append_perm (sys.gives event sys') memory.attached
  rw [hgiven] at hparts
  rw [Accounted, hmappings, hattached, hpendings]
  refine (List.perm_cons mapping).mp ?_
  have hmem := List.mem_of_find?_eq_some hfind
  refine (List.perm_cons_erase hmem).symm.trans (h.trans ?_)
  exact (hparts.symm.append_right _).trans (.refl _)

/-- A `shmdt` that finds no entry gives nothing up. -/
theorem shmdt_keeps {addr : BitVec 64} {fromSigsys : Bool} (hlegal : sys.WaitsLegal)
    (hthread : sys.thread t.config.pid = some t) (hfree : IpcSystem.mayCall t = true)
    (hfind : sys.mappings.find? (ShmMapping.isAt t.process addr) = none)
    (hdone : sys.syscallCommon t (.shmdt addr) fromSigsys = some sys') (mapping : ShmMapping) :
    sys'.unmaps t mapping = false := by
  obtain ⟨hwait, -⟩ := IpcSystem.called_changes hlegal hthread hfree hdone
  have hfree' := (hlegal.thread_legal hthread).free hwait
  have hstate := (IpcSystem.mayCall_chain hfree' hfree).2.2
  have hreason : t.config.waitReason = .WR_NOT_WAITING := hfree'.reason
  have hnone : t.next = none := by
    rw [IpcSystem.mayCall, Bool.and_eq_true, decide_eq_true_iff] at hfree
    exact hfree.2
  have hfind : (sys.mappings.find? fun mapping =>
      mapping.process = t.process && mapping.addr = addr) = none := hfind
  unfold IpcSystem.syscallCommon at hdone
  simp only [IpcRequest.run, IpcSystem.shmdt, hfind] at hdone
  split at hdone
  · cases hdone
  · split at hdone
    · cases hdone
    · obtain ⟨v, hv, hdone⟩ := Option.bind_eq_some_iff.mp hdone
      obtain ⟨u, hu, hdone⟩ := Option.bind_eq_some_iff.mp hdone
      cases hdone
      obtain rfl := Option.some.inj (hv.symm.trans hthread)
      have hnext : u.config.pid = v.config.pid ∧ (u.next = none ∨ u.next = some .getpid) := by
        unfold IpcSystem.finishCall at hu
        cases fromSigsys with
        | true =>
            simp [hstate, SysVIpcConfig.afterCall, hreason, IpcThread.waitReason] at hu
            subst hu
            exact ⟨rfl, Or.inl hnone⟩
        | false =>
            simp [hstate, SysVIpcConfig.afterCall, hreason, IpcThread.waitReason] at hu
            subst hu
            exact ⟨rfl, Or.inr rfl⟩
      rw [IpcSystem.unmaps, IpcSystem.thread_modify hthread hnext.1, Option.bind_some]
      rcases hnext.2 with hnext | hnext
      · rw [hnext]
      · rw [hnext]

/-- What a `shmat` maps is of the segment it looked up. -/
theorem mappedAt_spec {answers : StopAnswers} (hthread : sys.thread pid = some t)
    (hmapped : sys.mappedAt (.leave pid result answers) = some mapping) :
    mapping.process = t.process ∧ mapping.shmIndex = t.config.waitingObjectIndex := by
  rw [IpcSystem.mappedAt, hthread, Option.bind_some] at hmapped
  split at hmapped
  · split at hmapped
    · cases hmapped
      exact ⟨rfl, rfl⟩
    · cases hmapped
  · cases hmapped

/-- A call that is made. -/
theorem accounted_called (h : Accounted sys memory) {call : IpcRequest} {fromSigsys : Bool}
    (hlegal : sys.WaitsLegal) (hthread : sys.thread event.pid = some t)
    (hexecve : sys.execveOf event = none) (hcall : sys.callOf event = some (t, call))
    (hfree : IpcSystem.mayCall t = true) (hgone : memory.returned sys event = [])
    (honly : ∀ addr mapping, call = .shmdt addr →
      sys.mappings.find? (ShmMapping.isAt t.process addr) = some mapping →
        memory.attached.filter (ShmMapping.isAt t.process addr) = [mapping])
    (hdone : sys.syscallCommon t call fromSigsys = some sys') :
    Accounted sys' (memory.after sys event sys') := by
  have hpid := (IpcSystem.thread_mem hthread).2
  have hown : sys.thread t.config.pid = some t := hpid ▸ hthread
  have hmappings : sys'.mappings = sys.mappingsAfter t call := by
    rw [(IpcSystem.syscallCommon_segments hdone).mappings, IpcSystem.run_mappings]
  have hkinds : sys.mappedAt event = none ∧ sys.forkedAt event = none ∧
      ((∀ addr, call = .shmdt addr → ∀ m, sys'.unmaps t m = false) →
        ∀ m, sys.gives event sys' m = false) := by
    cases event with
    | enter pid entered answers =>
        refine ⟨rfl, rfl, fun hunmaps m => ?_⟩
        simp only [IpcSystem.gives, hexecve, hcall]
        cases call with
        | shmdt addr => exact hunmaps addr rfl m
        | _ => rfl
    | sigsys pid entered =>
        refine ⟨rfl, rfl, fun hunmaps m => ?_⟩
        simp only [IpcSystem.gives, hexecve, hcall]
        cases call with
        | shmdt addr => exact hunmaps addr rfl m
        | _ => rfl
    | leave pid result answers => cases hcall
    | signal pid putOff => cases hcall
    | fork pid child cloneThread => cases hcall
    | exec pid => cases hcall
    | exit pid => cases hcall
  obtain ⟨hmapped, hforked, hgives⟩ := hkinds
  have hother : (∀ shmid index, call = .shmat shmid →
      lookupIpcObject sys.shms shmid ≠ .ok index) → sys'.mappings = sys.mappings →
      (∀ addr, call = .shmdt addr → ∀ m, sys'.unmaps t m = false) →
      Accounted sys' (memory.after sys event sys') := fun hnot hsame hunmaps =>
    h.same hsame (IpcSystem.called_pendings hlegal hown hfree hnot hdone)
      (after_attached hgone (hgives hunmaps) hmapped hforked)
  cases call with
  | shmat shmid =>
      cases hlookup : lookupIpcObject sys.shms shmid with
      | error status =>
          refine hother (fun shmid' index heq => ?_) ?_ fun addr heq => by cases heq
          · cases heq
            rw [hlookup]
            exact fun herror => by cases herror
          · rw [hmappings, IpcSystem.mappingsAfter, hlookup]
      | ok index =>
          have hattached := @after_attached sys sys' memory _ hgone
            (hgives fun addr heq => by cases heq) hmapped hforked
          rw [Accounted, hattached, hmappings, IpcSystem.mappingsAfter, hlookup]
          refine (h.cons _).trans ?_
          refine .trans ?_
            ((IpcSystem.shmat_pendings hlegal hown hfree hlookup hdone).symm.append_left _)
          exact List.perm_middle.symm
  | shmdt addr =>
      have hnot : ∀ shmid index, IpcRequest.shmdt addr = .shmat shmid →
          lookupIpcObject sys.shms shmid ≠ .ok index := fun shmid index heq => by cases heq
      cases hfind : sys.mappings.find? (ShmMapping.isAt t.process addr) with
      | none =>
          refine hother hnot ?_ fun addr' heq m => ?_
          · rw [hmappings, IpcSystem.mappingsAfter, hfind]
          · cases heq
            exact shmdt_keeps hlegal hown hfree hfind hdone m
      | some mapping =>
          exact accounted_shmdt h hexecve hcall hfind (honly addr mapping rfl hfind) hgone
            (IpcSystem.called_pendings hlegal hown hfree hnot hdone) hdone
  | msgget key msgflg =>
      exact hother (fun _ _ heq => by cases heq) hmappings fun _ heq => by cases heq
  | msgsnd msqid msgsz readType readText now =>
      exact hother (fun _ _ heq => by cases heq) hmappings fun _ heq => by cases heq
  | msgrcv msqid args written now =>
      exact hother (fun _ _ heq => by cases heq) hmappings fun _ heq => by cases heq
  | msgctl msqid cmd written =>
      exact hother (fun _ _ heq => by cases heq) hmappings fun _ heq => by cases heq
  | sem call => exact hother (fun _ _ heq => by cases heq) hmappings fun _ heq => by cases heq
  | shmget key shmSize shmflg fd =>
      exact hother (fun _ _ heq => by cases heq) hmappings fun _ heq => by cases heq
  | shmctl shmid cmd written =>
      exact hother (fun _ _ heq => by cases heq) hmappings fun _ heq => by cases heq

/-- A system call of a thread is over. -/
theorem accounted_leave (h : Accounted sys memory) (hbacked : memory.Backed sys)
    (hlegal : sys.WaitsLegal) {answers : StopAnswers}
    (hgone : memory.returned sys (.leave pid result answers) = [])
    (hkeeps : sys.keepsEntries memory (.leave pid result answers) = true)
    (hstep : sys.step (.leave pid result answers) = some sys') :
    Accounted sys' (memory.after sys (.leave pid result answers) sys') := by
  have hgives : ∀ m, sys.gives (.leave pid result answers) sys' m = false := fun m => rfl
  have hsame : sys.mappedAt (.leave pid result answers) = none → sys'.mappings = sys.mappings →
      sys'.pendings = sys.pendings →
      Accounted sys' (memory.after sys (.leave pid result answers) sys') :=
    fun hmapped hmappings hpendings =>
      h.same hmappings hpendings (after_attached hgone hgives hmapped rfl)
  cases hthread : sys.thread pid with
  | none =>
      simp only [IpcSystem.step, hthread] at hstep
      cases hstep
      exact hsame (by simp [IpcSystem.mappedAt, hthread]) rfl rfl
  | some t =>
      have hpid := (IpcSystem.thread_mem hthread).2
      have hlegal' := hlegal.thread_legal hthread
      cases hin : t.inSyscall with
      | false =>
          simp only [IpcSystem.step, hthread, hin, Bool.not_false, if_true] at hstep
          cases hstep
          refine hsame ?_ rfl rfl
          simp only [IpcSystem.mappedAt, hthread, Option.bind_some, hin, Bool.false_and]
          split <;> rfl
      | true =>
          simp only [IpcSystem.keepsEntries, hthread, Option.all_some, hin, Bool.not_true,
            Bool.false_or, Bool.and_eq_true, Bool.or_eq_true, decide_eq_true_eq] at hkeeps
          obtain ⟨hbusy, hmmap⟩ := hkeeps
          by_cases hshmat : t.chainState.inShmat = true ∧ t.waitState = .WSTATE_NOT_WAITING
          · obtain ⟨hshmat, hwait⟩ := hshmat
            have hreason := (hlegal'.free hwait).reason
            have hown : sys.thread t.config.pid = some t := hpid ▸ hthread
            obtain ⟨middle, haccount, hmappings, hpendings⟩ :=
              IpcSystem.leave_chain hthread hin hshmat hwait hstep
            by_cases hcs : t.chainState = .CSTATE_SHMAT_MMAP
            · obtain ⟨mapping, hmapped⟩ :=
                Option.isSome_iff_exists.mp (hmmap.resolve_left (not_not.mpr hcs))
              obtain ⟨hprocess, hindex⟩ := mappedAt_spec hthread hmapped
              refine h.maps hbacked hlegal hown hshmat hreason haccount hcs hmapped hprocess
                hindex hstep hpendings ?_
              simp [Memory.after, hgone, hgives, Memory.gained, hmapped, IpcSystem.forkedAt]
            · refine h.chain hbacked hlegal hown hshmat hreason haccount hcs hmappings hpendings ?_
              refine after_attached hgone hgives ?_ rfl
              simp only [IpcSystem.mappedAt, hthread, Option.bind_some, hcs, decide_false,
                Bool.and_false, Bool.false_and]
              split <;> rfl
          · have hmapped : sys.mappedAt (.leave pid result answers) = none := by
              have hcs : t.chainState ≠ .CSTATE_SHMAT_MMAP := fun hcs =>
                hshmat ⟨by rw [hcs]; rfl, IpcSystem.shmat_waitState hlegal' (by rw [hcs]; rfl)
                  fun hsocket => by rw [hcs] at hsocket; cases hsocket⟩
              simp only [IpcSystem.mappedAt, hthread, Option.bind_some, hcs, decide_false,
                Bool.and_false, Bool.false_and]
              split <;> rfl
            cases IpcSystem.step_spec hstep with
            | stays hcall hanswered => exact hsame hmapped rfl rfl
            | called hthread' hcall => cases hcall
            | @moved event t' f hthread' hcall hanswered hmoves =>
                obtain rfl := Option.some.inj (hthread'.symm.trans hthread)
                refine hsame hmapped rfl (IpcSystem.pendings_modify fun u hu hupid => ?_)
                obtain rfl := hlegal.eq_thread hthread hu hupid
                exact IpcSystem.moves_pendingEntry hlegal' (fun _ => hbusy) hmoves
            | answered hthread' hcall hanswered hstatus hanswers =>
                exact hsame hmapped (IpcSystem.statusOf_segments hstatus).mappings
                  (IpcSystem.answered_pendings hlegal hanswered hstatus hanswers)
            | shmatStarted hthread' hin' hchain hsocket hdone =>
                obtain rfl := Option.some.inj (hthread'.symm.trans hthread)
                exact absurd ⟨by rw [hsocket]; rfl,
                  IpcSystem.shmat_waitState hlegal' (by rw [hsocket]; rfl) fun _ => hchain⟩ hshmat
            | shmatChained hthread' hin' hchain hin'' hwait hdone =>
                obtain rfl := Option.some.inj (hthread'.symm.trans hthread)
                exact absurd ⟨hin'', hwait⟩ hshmat

/-- **A step that keeps the entries exact.** -/
theorem accounted_step (h : Accounted sys memory) (hbacked : memory.Backed sys)
    (hlegal : sys.WaitsLegal) (hgone : memory.returned sys event = [])
    (hkeeps : sys.keepsEntries memory event = true) (hstep : sys.step event = some sys') :
    Accounted sys' (memory.after sys event sys') := by
  cases event with
  | leave pid result answers => exact accounted_leave h hbacked hlegal hgone hkeeps hstep
  | enter pid call answers =>
      cases hexecve : sys.execveOf (.enter pid call answers) with
      | some t =>
          simp only [IpcSystem.keepsEntries, hexecve, Bool.not_eq_true'] at hkeeps
          exact accounted_execve h hexecve hgone hkeeps hstep
      | none =>
          have hsame : sys.callOf (.enter pid call answers) = none →
              sys'.mappings = sys.mappings → sys'.pendings = sys.pendings →
              Accounted sys' (memory.after sys (.enter pid call answers) sys') :=
            fun hcall hmappings hpendings => h.same hmappings hpendings
              (after_attached hgone
                (fun m => by simp only [IpcSystem.gives, hexecve, hcall]) rfl rfl)
          cases IpcSystem.step_spec hstep with
          | stays hcall hanswered => exact hsame hcall rfl rfl
          | called hthread hcall hanswered hfree hchain hdone =>
              refine accounted_called h hlegal hthread hexecve hcall hfree hgone
                (fun addr mapping hshmdt hfind => ?_) hdone
              subst hshmdt
              simp only [IpcSystem.keepsEntries, hexecve, hcall, hfind, Option.all_some,
                decide_eq_true_eq] at hkeeps
              exact hkeeps
          | @moved event t f hthread hcall hanswered hmoves =>
              refine hsame hcall rfl (IpcSystem.pendings_modify fun u hu hupid => ?_)
              obtain rfl := hlegal.eq_thread hthread hu hupid
              refine IpcSystem.moves_pendingEntry (hlegal.thread_legal hthread) ?_ hmoves
              intro hin
              cases hmoves with
              | entered hout => cases hin.symm.trans hout
              | enteredWoken hout => cases hin.symm.trans hout
              | enteredPpoll hout => cases hin.symm.trans hout
          | @execve pid t prepared answers hthread hfree hchain hwait =>
              cases prepared with
              | true => simp [IpcSystem.execveOf, hthread, hfree, hchain, hwait] at hexecve
              | false => exact hsame rfl rfl (IpcSystem.pendings_modify fun _ _ _ => rfl)
          | answered hthread hcall hanswered hstatus hanswers =>
              exact hsame hcall (IpcSystem.statusOf_segments hstatus).mappings
                (IpcSystem.answered_pendings hlegal hanswered hstatus hanswers)
  | sigsys pid call =>
      have hexecve : sys.execveOf (.sigsys pid call) = none := rfl
      cases IpcSystem.step_spec hstep with
      | stays hcall hanswered =>
          exact h.same rfl rfl (after_attached hgone
            (fun m => by simp only [IpcSystem.gives, hexecve, hcall]) rfl rfl)
      | called hthread hcall hanswered hfree hchain hdone =>
          refine accounted_called h hlegal hthread hexecve hcall hfree hgone
            (fun addr mapping hshmdt hfind => ?_) hdone
          subst hshmdt
          simp only [IpcSystem.keepsEntries, hexecve, hcall, hfind, Option.all_some,
            decide_eq_true_eq] at hkeeps
          exact hkeeps
      | moved hthread hcall hanswered hmoves => cases hmoves
      | answered hthread hcall hanswered => cases hanswered
  | signal pid putOff =>
      have hattached := @after_attached sys sys' memory _ hgone
        (fun m => rfl) rfl rfl
      cases IpcSystem.step_spec hstep with
      | stays hcall hanswered => exact h.same rfl rfl hattached
      | called hthread hcall => cases hcall
      | @moved event t f hthread hcall hanswered hmoves =>
          refine h.same rfl (IpcSystem.pendings_modify fun u hu hupid => ?_) hattached
          cases hmoves with
          | handled hout => rfl
      | answered hthread hcall hanswered => cases hanswered
  | fork pid child cloneThread =>
      cases hthread : sys.thread pid with
      | none =>
          simp only [IpcSystem.step, hthread] at hstep
          cases hstep
          refine h.same rfl rfl (after_attached hgone (fun m => rfl) rfl ?_)
          simp [IpcSystem.forkedAt, hthread]
      | some t =>
          simp only [IpcSystem.step, hthread] at hstep
          cases hfresh : sys.isFresh child with
          | false =>
              rw [hfresh, if_neg Bool.false_ne_true] at hstep
              cases hstep
              refine h.same rfl rfl (after_attached hgone (fun m => rfl) rfl ?_)
              simp [IpcSystem.forkedAt, hthread, hfresh]
          | true =>
              cases cloneThread with
              | true =>
                  rw [hfresh, if_pos rfl] at hstep
                  cases hstep
                  refine h.same rfl rfl (after_attached hgone (fun m => rfl) rfl ?_)
                  simp [IpcSystem.forkedAt, hthread]
              | false =>
                  have hforked : sys.forkedAt (.fork pid child false) =
                      some (t.process, child) := by simp [IpcSystem.forkedAt, hthread, hfresh]
                  have hstep' : sys.step (.fork pid child false) = some sys' := by
                    simp only [IpcSystem.step, hthread]
                    exact hstep
                  simp only [IpcSystem.keepsEntries, hforked, Option.all_some,
                    Bool.not_eq_true'] at hkeeps
                  refine accounted_forked h hforked hgone hkeeps ?_ hstep'
                  rw [hfresh, if_pos rfl] at hstep
                  cases hstep
                  rfl
  | exec pid =>
      cases hthread : sys.thread pid with
      | none =>
          simp only [IpcSystem.step, hthread] at hstep
          cases hstep
          exact h.same rfl rfl (after_attached hgone
            (fun m => by simp [IpcSystem.gives, hthread]) rfl rfl)
      | some t =>
          simp only [IpcSystem.step, hthread] at hstep
          cases hin : t.inSyscall with
          | false =>
              rw [hin, if_neg Bool.false_ne_true] at hstep
              cases hstep
              exact h.same rfl rfl (after_attached hgone
                (fun m => by simp [IpcSystem.gives, hthread, hin]) rfl rfl)
          | true =>
              rw [hin, if_pos rfl] at hstep
              cases hstep
              simp only [IpcSystem.keepsEntries, hthread, Option.all_some, hin, Bool.not_true,
                Bool.false_or, Bool.and_eq_true, Bool.not_eq_true'] at hkeeps
              exact accounted_exec h hthread hin hgone hkeeps.1 hkeeps.2
  | exit pid =>
      cases hthread : sys.thread pid with
      | none =>
          simp only [IpcSystem.step, hthread] at hstep
          cases hstep
          exact h.same rfl rfl (after_attached hgone
            (fun m => by simp [IpcSystem.gives, hthread]) rfl rfl)
      | some t =>
          simp only [IpcSystem.step, hthread] at hstep
          cases hstep
          simp only [IpcSystem.keepsEntries, hthread, Option.all_some, Bool.or_eq_true,
            Bool.not_eq_true'] at hkeeps
          exact accounted_exit h hlegal hthread hgone hkeeps

/-- **Who is in a `shmat` finds its entry**, and its segment is there. -/
theorem Accounted.not_aborts (h : Accounted sys memory) (hright : sys.SegmentsRight)
    (event : IpcEvent) : sys.shmatAborts event = false := by
  cases event with
  | leave pid result answers =>
      rw [IpcSystem.shmatAborts]
      cases hthread : sys.thread pid with
      | none => rfl
      | some t =>
          rw [Option.any_some]
          cases hshmat : t.chainState.inShmat with
          | false => rfl
          | true =>
              have hsetting : t.settingUp = true := by rw [IpcThread.settingUp, hshmat]; rfl
              have hpending : (⟨t.process, t.config.waitingObjectIndex, 0, 0⟩ : ShmMapping) ∈
                  sys.mappings := by
                refine h.mem_iff.mpr (List.mem_append_right _ ?_)
                exact List.mem_filterMap.mpr ⟨t, (IpcSystem.thread_mem hthread).1,
                  IpcThread.pendingEntry_some hsetting⟩
              have hfound : (sys.findPendingMapping t.process
                  t.config.waitingObjectIndex).isSome = true := by
                rw [IpcSystem.findPendingMapping, List.find?_isSome]
                exact ⟨_, hpending, by simp⟩
              rw [hright.entries _ hpending, Option.isNone_eq_false_iff.mpr hfound]
              rfl
  | enter pid call answers => rfl
  | sigsys pid call => rfl
  | signal pid putOff => rfl
  | fork pid child cloneThread => rfl
  | exec pid => rfl
  | exit pid => rfl

/-- The entries of a segment are counted. -/
theorem Accounted.nattch (h : Accounted sys memory) (i : Nat) :
    sys.nattch i = memory.attached.countP (·.shmIndex = i) +
      sys.threads.countP fun t => t.settingUp && t.config.waitingObjectIndex = i := by
  rw [IpcSystem.nattch, h.countP_eq, List.countP_append]
  congr 1
  rw [IpcSystem.pendings, IpcSystem.pendingEntries]
  induction sys.threads with
  | nil => rfl
  | cons t threads ih =>
      rw [List.filterMap_cons, List.countP_cons, IpcThread.pendingEntry]
      cases t.settingUp with
      | false => simpa using ih
      | true => simpa [List.countP_cons] using ih

end

/-- **The entries are exact** in a run of steps that keep them so: each is of memory that is mapped
in a process or of a `shmat` in progress, `shm_nattch` counts these, and a `shmat` in progress
finds its entry and its segment at each of its steps. -/
theorem entries_account (pid process : Nat) (events : List IpcEvent) (sys : IpcSystem)
    (memory : Memory)
    (hrun : AbortableRuns.run mappedStep (.initial pid process, .empty) events =
      some (sys, memory))
    (hsafe : AbortableRuns.allSteps mappedStep keepsAccount (.initial pid process, .empty) events =
      true) :
    Accounted sys memory ∧
      (∀ i, sys.nattch i = memory.attached.countP (·.shmIndex = i) +
        sys.threads.countP fun t => t.settingUp && t.config.waitingObjectIndex = i) ∧
      ∀ event, sys.shmatAborts event = false := by
  have haccounted : sys.WaitsLegal ∧ memory.Backed sys ∧ Accounted sys memory := by
    refine AbortableRuns.invariant (P := fun s : IpcSystem × Memory =>
      s.1.WaitsLegal ∧ s.2.Backed s.1 ∧ Accounted s.1 s.2)
      (fun s event s' h hsuits hstep => ?_) ?_ hsafe hrun
    · obtain ⟨sys', hsys', rfl⟩ := Option.map_eq_some_iff.mp hstep
      rw [keepsAccount, letsGoSafely, Bool.and_eq_true, Bool.and_eq_true] at hsuits
      obtain ⟨⟨hcalm, hgone⟩, hkeeps⟩ := hsuits
      obtain ⟨hlegal, hbacked, hall⟩ := h
      have hgone := List.isEmpty_iff.mp hgone
      exact ⟨(IpcSystem.step_threads hlegal hcalm hsys').legal,
        Memory.backed_step hlegal hbacked hgone hsys',
        accounted_step hall hbacked hlegal hgone hkeeps hsys'⟩
    · exact ⟨IpcSystem.initial_legal pid process, List.nil_subperm, .refl _⟩
  have hright := (IpcSystem.segments_in_order (run_of_mappedRun hrun)).right
  exact ⟨haccounted.2.2, haccounted.2.2.nattch, haccounted.2.2.not_aborts hright⟩

/-- A segment that is mapped, before a fork. -/
def forkedEvents : List IpcEvent :=
  callEvents 1 (.shmget 0 4096 0x200 5) ++ shmatEvents 1 1 7 8 0x10000 4096 ++ [.fork 1 2 false]

/-- A segment is mapped in a process and its child, and the parent starts another `shmat` of
it. -/
theorem entries_account_run : ∃ sys memory,
    AbortableRuns.run mappedStep (.initial 1 1, .empty)
      (forkedEvents ++ [.enter 1 (.ipc (.shmat 1)) plainAnswers]) = some (sys, memory) ∧
    Accounted sys memory ∧ sys.nattch 0 = 3 := by
  have hsome : (AbortableRuns.run mappedStep (.initial 1 1, .empty)
      (forkedEvents ++ [.enter 1 (.ipc (.shmat 1)) plainAnswers])).any
        (fun s => s.1.nattch 0 = 3) = true := by decide
  obtain ⟨⟨sys, memory⟩, hrun, hcount⟩ := (Option.any_eq_true _ _).mp hsome
  exact ⟨sys, memory, hrun, (entries_account 1 1 _ sys memory hrun (by decide)).1,
    of_decide_eq_true hcount⟩

/-- A thread has created a segment, and connects to the helper for it; another thread of its
process is there. -/
def dialogueEvents : List IpcEvent :=
  callEvents 1 (.shmget 0 4096 0x200 5) ++ [.fork 1 2 true] ++ (shmatEvents 1 1 7 8 0 4096).take 2

/-- The entries go wrong: the `mmap` of a `shmat` fails and its entry stays; a `shmat` that waits
for the helper is interrupted and its entry stays; an `execve` fails and the entries are gone; and
a `shmdt` of address 0 takes the entry of another thread's `shmat` away, so that the assertion
fails. -/
theorem entries_wrong :
    (∃ sys memory, AbortableRuns.run mappedStep (.initial 1 1, .empty)
        (callEvents 1 (.shmget 0 4096 0x200 5) ++ (shmatEvents 1 1 7 8 0 4096).take 7 ++
          [.leave 1 (statusWord (.error .ENOMEM)) plainAnswers]) = some (sys, memory) ∧
      memory.attached = [] ∧ sys.threads.all (!·.settingUp) = true ∧ sys.nattch 0 = 1) ∧
    (∃ sys memory, AbortableRuns.run mappedStep (.initial 1 1, .empty)
        (dialogueEvents ++ [.enter 2 (.ipc (.shmat 1)) plainAnswers,
          .leave 2 (statusWord (.error .EINTR)) plainAnswers]) = some (sys, memory) ∧
      memory.attached = [] ∧ sys.threads.countP (·.settingUp) = 1 ∧ sys.nattch 0 = 2) ∧
    (∃ sys memory, AbortableRuns.run mappedStep (.initial 1 1, .empty)
        (forkedEvents ++ [.enter 1 (.execve true) plainAnswers,
          .leave 1 (statusWord (.error .E2BIG)) plainAnswers]) = some (sys, memory) ∧
      memory.attached.length = 2 ∧ sys.threads.all (!·.settingUp) = true ∧ sys.nattch 0 = 1) ∧
    ∃ sys memory, AbortableRuns.run mappedStep (.initial 1 1, .empty)
        (dialogueEvents ++ callEvents 2 (.shmdt 0) ++
          ((shmatEvents 1 1 7 8 0 4096).take 7).drop 2) = some (sys, memory) ∧
      sys.shmatAborts (.leave 1 0x10000 plainAnswers) = true ∧
      sys.step (.leave 1 0x10000 plainAnswers) = none := by
  refine ⟨⟨_, _, rfl, ?_, ?_, ?_⟩, ⟨_, _, rfl, ?_, ?_, ?_⟩, ⟨_, _, rfl, ?_, ?_, ?_⟩,
    _, _, rfl, ?_, ?_⟩
  all_goals decide

end PRoot
