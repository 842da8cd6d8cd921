import PRoot.Attachments

/-!
# Entries of a `shmat` in progress

A `shmat` makes its entry before it maps the segment; until then the entry has no place.

* `IpcSystem.pendings`: the entries of the threads that are in a `shmat`;
* `chain_account`: what a step of a `shmat` does to the entries, and to the threads;
* `called_pendings`, `shmat_pendings`: what the calls do to the threads that are in a `shmat`.
-/

namespace PRoot

namespace IpcThread

/-- A thread is in a `shmat`, or waits to go on with it. -/
def settingUp (t : IpcThread) : Bool :=
  t.chainState.inShmat || t.waitReason = .WR_WAIT_SHMAT_HELPER_BUSY

/-- The entry that a thread will look up in its `shmat`. -/
def pendingEntry (t : IpcThread) : Option ShmMapping :=
  if t.settingUp then some ⟨t.process, t.config.waitingObjectIndex, 0, 0⟩ else none

variable {t u : IpcThread}

theorem pendingEntry_congr (hprocess : u.process = t.process)
    (hindex : u.config.waitingObjectIndex = t.config.waitingObjectIndex)
    (hsetting : u.settingUp = t.settingUp) : u.pendingEntry = t.pendingEntry := by
  rw [pendingEntry, pendingEntry, hprocess, hindex, hsetting]

theorem pendingEntry_none (h : t.settingUp = false) : t.pendingEntry = none := by
  rw [pendingEntry, h]
  rfl

theorem pendingEntry_some (h : t.settingUp = true) :
    t.pendingEntry = some ⟨t.process, t.config.waitingObjectIndex, 0, 0⟩ := by
  rw [pendingEntry, h]
  rfl

theorem settingUp_eq_false (hchain : t.chainState.inShmat = false)
    (hreason : t.waitReason ≠ .WR_WAIT_SHMAT_HELPER_BUSY) : t.settingUp = false := by
  rw [settingUp, hchain, decide_eq_false hreason]
  rfl

/-- A thread that waits for something else. -/
theorem Legal.not_settingUp (h : t.Legal) (hreason : t.waitReason ≠ .WR_NOT_WAITING)
    (hother : t.waitReason ≠ .WR_WAIT_SHMAT_HELPER_BUSY) : t.settingUp = false := by
  refine settingUp_eq_false ?_ hother
  rcases h.waits_iff.mp hreason with hwait | hwait
  · rw [(h.restarted hwait).1.chainState]
    rfl
  · rw [(h.entered hwait).1.chainState]
    rfl

end IpcThread

namespace IpcSystem

/-- The entries of some threads that are in a `shmat`. -/
def pendingEntries (threads : List IpcThread) : List ShmMapping :=
  threads.filterMap IpcThread.pendingEntry

/-- **The entries that have no place yet**, one for each thread that is in a `shmat`. -/
def pendings (sys : IpcSystem) : List ShmMapping := pendingEntries sys.threads

section

variable {threads threads' : List IpcThread} {sys sys' : IpcSystem} {t t' : IpcThread} {pid : Nat}

theorem pendingEntries_congr {R : IpcThread → IpcThread → Prop}
    (h : List.Forall₂ R threads threads')
    (hR : ∀ u ∈ threads, ∀ u', R u u' → u'.pendingEntry = u.pendingEntry) :
    pendingEntries threads' = pendingEntries threads := by
  induction h with
  | nil => rfl
  | cons hhead htail ih =>
      rw [pendingEntries, pendingEntries, List.filterMap_cons, List.filterMap_cons,
        hR _ List.mem_cons_self _ hhead]
      have ih := ih fun u hu => hR u (List.mem_cons_of_mem _ hu)
      rw [pendingEntries, pendingEntries] at ih
      rw [ih]

/-- One of the threads, and the others. -/
theorem pendingEntries_split (hdistinct : (threads.map (·.config.pid)).Nodup)
    (ht : t ∈ threads) : (pendingEntries threads).Perm
      (t.pendingEntry.toList ++ pendingEntries (threads.filter (·.config.pid ≠ t.config.pid))) := by
  induction threads with
  | nil => cases ht
  | cons u threads ih =>
      obtain ⟨hu, hdistinct⟩ := List.nodup_cons.mp hdistinct
      have hcons : pendingEntries (u :: threads) =
          u.pendingEntry.toList ++ pendingEntries threads := by
        rw [pendingEntries, List.filterMap_cons]
        cases u.pendingEntry <;> rfl
      rw [hcons]
      rcases List.mem_cons.mp ht with rfl | ht
      · rw [List.filter_cons_of_neg (by simp), List.filter_eq_self.mpr]
        intro v hv
        have hne : v.config.pid ≠ t.config.pid := fun heq =>
          hu (List.mem_map.mpr ⟨v, hv, heq⟩)
        simpa using hne
      · have hne : u.config.pid ≠ t.config.pid := fun heq =>
          hu (List.mem_map.mpr ⟨t, ht, heq.symm⟩)
        have hrest : pendingEntries (u :: threads.filter (·.config.pid ≠ t.config.pid)) =
            u.pendingEntry.toList ++
              pendingEntries (threads.filter (·.config.pid ≠ t.config.pid)) := by
          rw [pendingEntries, List.filterMap_cons]
          cases u.pendingEntry <;> rfl
        rw [List.filter_cons_of_pos (by simpa using hne), hrest]
        refine ((ih hdistinct ht).append_left _).trans ?_
        rw [← List.append_assoc, ← List.append_assoc]
        exact List.perm_append_comm.append_right _

/-- One of the threads changes. -/
theorem pendings_change (hdistinct : (sys.threads.map (·.config.pid)).Nodup)
    (h : List.Forall₂ (fun u u' => u'.config.pid = u.config.pid ∧
      (u.config.pid ≠ pid → u'.pendingEntry = u.pendingEntry)) sys.threads sys'.threads)
    (ht : t ∈ sys.threads) (hpid : t.config.pid = pid) (ht' : t' ∈ sys'.threads)
    (hpid' : t'.config.pid = pid) :
    ∃ rest, sys.pendings.Perm (t.pendingEntry.toList ++ rest) ∧
      sys'.pendings.Perm (t'.pendingEntry.toList ++ rest) := by
  have hdistinct' : (sys'.threads.map (·.config.pid)).Nodup := by
    rw [pids_of_forall₂ (fun u u' hu => hu.1) h]
    exact hdistinct
  refine ⟨_, pendingEntries_split hdistinct ht, (pendingEntries_split hdistinct' ht').trans ?_⟩
  rw [hpid, hpid']
  refine (List.Perm.of_eq ?_).append_left _
  generalize sys.threads = threads at h
  generalize sys'.threads = threads' at h
  clear hdistinct hdistinct'
  induction h with
  | nil => rfl
  | @cons u u' threads threads' hhead htail ih =>
      by_cases hu : u.config.pid = pid
      · rw [List.filter_cons_of_neg (by simp [hhead.1, hu]),
          List.filter_cons_of_neg (by simp [hu]), ih]
      · rw [List.filter_cons_of_pos (by simp [hhead.1, hu]),
          List.filter_cons_of_pos (by simp [hu]), pendingEntries, pendingEntries,
          List.filterMap_cons, List.filterMap_cons, hhead.2 hu]
        rw [pendingEntries, pendingEntries] at ih
        rw [ih]

variable {f : IpcThread → IpcThread}

theorem pendings_modify
    (hf : ∀ u ∈ sys.threads, u.config.pid = pid → (f u).pendingEntry = u.pendingEntry) :
    (sys.modify pid f).pendings = sys.pendings := by
  refine pendingEntries_congr (R := fun u u' => u' = if u.config.pid = pid then f u else u)
    (List.forall₂_map_right_iff.mpr (List.forall₂_same.mpr fun u _ => rfl)) ?_
  rintro u hu u' rfl
  split
  · rename_i hpid
    exact hf u hu hpid
  · rfl

/-! ## A step of a `shmat` -/

/-- A change of a thread in its `shmat`. -/
structure ChainKeeps (f : IpcThread → IpcThread) : Prop where
  config : ∀ u, (f u).config = u.config
  process : ∀ u, (f u).process = u.process

/-- **What a step of a `shmat` does to the entries and the threads**: the `shmat` goes on, or fails
and its entry goes, or is over and its entry gets its place. -/
inductive ChainAccount (sys : IpcSystem) (t : IpcThread) (result : BitVec 64) (sys' : IpcSystem) :
    Prop
  | goes (f : IpcThread → IpcThread) (hkeeps : ChainKeeps f)
      (hchain : ∀ u, (f u).chainState.pastSocket = true)
      (hmappings : sys'.mappings = sys.mappings)
      (hthreads : sys'.threads = (sys.modify t.config.pid f).threads)
      (hnot : t.chainState ≠ .CSTATE_SHMAT_MMAP)
  | fails (f : IpcThread → IpcThread) (hkeeps : ChainKeeps f)
      (hchain : ∀ u, (f u).chainState = .CSTATE_NOT_CHAINED) {found : ShmMapping}
      (hfound : sys.findPendingMapping t.process t.config.waitingObjectIndex = some found)
      (hmappings : sys'.mappings = sys.mappings.erase found)
      (hthreads : wakePending (sys.modify t.config.pid f).threads = some sys'.threads)
      (hnot : t.chainState ≠ .CSTATE_SHMAT_MMAP)
  | maps (f : IpcThread → IpcThread) (hkeeps : ChainKeeps f)
      (hchain : ∀ u, (f u).chainState = .CSTATE_NOT_CHAINED) {found : ShmMapping}
      (size : BitVec 64)
      (hfound : sys.findPendingMapping t.process t.config.waitingObjectIndex = some found)
      (hmappings : sys'.mappings = sys.mappings.replace found { found with addr := result, size })
      (hthreads : wakePending (sys.modify t.config.pid f).threads = some sys'.threads)
      (hmmap : t.chainState = .CSTATE_SHMAT_MMAP)

variable {result : BitVec 64}

theorem failShmat_account (h : failShmat (sys.modify t.config.pid f) t = some sys')
    (hkeeps : ChainKeeps f) (hnot : t.chainState ≠ .CSTATE_SHMAT_MMAP) :
    ChainAccount sys t result sys' := by
  obtain ⟨found, hfound, hwoken⟩ := Option.bind_eq_some_iff.mp h
  obtain ⟨threads, hthreads, rfl⟩ := Option.map_eq_some_iff.mp hwoken
  refine .fails (fun u => { f u with chainState := .CSTATE_NOT_CHAINED })
    ⟨hkeeps.config, hkeeps.process⟩ (fun u => rfl) hfound (freeMapping_mappings found) ?_ hnot
  rw [(freeMapping_same _ _).threads, modify_modify _ _ fun u =>
    congrArg SysVIpcConfig.pid (hkeeps.config u)] at hthreads
  exact hthreads

/-- **The cases of a step.** -/
theorem chain_account {answers : StopAnswers} {goesOn : Bool}
    (h : shmatChain sys t result answers = some (sys', goesOn)) :
    ChainAccount sys t result sys' := by
  have hkeeps : ∀ {f : IpcThread → IpcThread}, (∀ u, ChainStep u (f u)) → ChainKeeps f :=
    fun hf => ⟨fun u => (hf u).config, fun u => (hf u).process⟩
  cases shmatChain_step h with
  | fails hf hnot hfail =>
      exact failShmat_account hfail ⟨fun u => (hf u).config, fun u => (hf u).process⟩ hnot
  | goes hsys hf hpast hnot =>
      rcases hsys with rfl | ⟨fd, rfl⟩ <;> exact .goes _ (hkeeps hf) hpast rfl rfl hnot
  | maps hmapping hf hover hmmap hwoken =>
      obtain ⟨threads, hthreads, rfl⟩ := Option.map_eq_some_iff.mp hwoken
      exact .maps _ (hkeeps hf) hover _ hmapping rfl hthreads hmmap

/-- A step of a thread whose result was written before. -/
theorem ChainAccount.of_modify {r : IpcThread → IpcThread} (hr : ChainKeeps r)
    (h : ChainAccount (sys.modify t.config.pid r) t result sys') :
    ChainAccount sys t result sys' := by
  have hmodify : ∀ f, (sys.modify t.config.pid r).modify t.config.pid f =
      sys.modify t.config.pid fun u => f (r u) := fun f =>
    modify_modify _ _ fun u => congrArg SysVIpcConfig.pid (hr.config u)
  have hkeeps : ∀ {f}, ChainKeeps f → ChainKeeps fun u => f (r u) := fun hf =>
    ⟨fun u => (hf.config _).trans (hr.config u), fun u => (hf.process _).trans (hr.process u)⟩
  cases h with
  | goes f hf hchain hmappings hthreads hnot =>
      rw [hmodify] at hthreads
      exact .goes _ (hkeeps hf) (fun u => hchain (r u)) hmappings hthreads hnot
  | fails f hf hchain hfound hmappings hthreads hnot =>
      rw [hmodify] at hthreads
      exact .fails _ (hkeeps hf) (fun u => hchain (r u)) hfound hmappings hthreads hnot
  | maps f hf hchain size hfound hmappings hthreads hmmap =>
      rw [hmodify] at hthreads
      exact .maps _ (hkeeps hf) (fun u => hchain (r u)) size hfound hmappings hthreads hmmap

/-- Who is told to go on with its `shmat` is still in it. -/
theorem wakePending_entries (h : wakePending threads = some threads') :
    pendingEntries threads' = pendingEntries threads := by
  induction threads generalizing threads' with
  | nil =>
      cases h
      rfl
  | cons u threads ih =>
      rw [wakePending] at h
      split at h
      · rename_i hreason
        split at h
        · cases h
          have hsame : (restartShmat u).pendingEntry = u.pendingEntry := by
            have hsetting : u.settingUp = true := by simp [IpcThread.settingUp, hreason]
            refine IpcThread.pendingEntry_congr rfl rfl ?_
            rw [hsetting]
            rfl
          rw [pendingEntries, pendingEntries, List.filterMap_cons, List.filterMap_cons, hsame]
        · cases h
      · obtain ⟨rest, hrest, rfl⟩ := Option.map_eq_some_iff.mp h
        have ih := ih hrest
        rw [pendingEntries, pendingEntries] at ih
        rw [pendingEntries, pendingEntries, List.filterMap_cons, List.filterMap_cons, ih]

/-- The threads that are in a `shmat` after one of them is out of it. -/
theorem pendings_leave (h : sys.WaitsLegal) (hthread : sys.thread pid = some t)
    (hshmat : t.chainState.inShmat = true) (hreason : t.waitReason = .WR_NOT_WAITING)
    (hkeeps : ChainKeeps f) (hchain : ∀ u, (f u).chainState = .CSTATE_NOT_CHAINED) :
    sys.pendings.Perm
      (⟨t.process, t.config.waitingObjectIndex, 0, 0⟩ :: (sys.modify pid f).pendings) := by
  obtain ⟨ht, hpid⟩ := thread_mem hthread
  have hfpid : ∀ u, (f u).config.pid = u.config.pid := fun u =>
    congrArg SysVIpcConfig.pid (hkeeps.config u)
  have hchange : List.Forall₂ (fun u u' => u'.config.pid = u.config.pid ∧
      (u.config.pid ≠ pid → u'.pendingEntry = u.pendingEntry)) sys.threads
      (sys.modify pid f).threads := by
    rw [modify, List.forall₂_map_right_iff]
    refine List.forall₂_same.mpr fun u _ => ?_
    split
    · rename_i hu
      exact ⟨hfpid u, fun hne => absurd hu hne⟩
    · exact ⟨rfl, fun _ => rfl⟩
  have hmem : f t ∈ (sys.modify pid f).threads :=
    List.mem_map.mpr ⟨t, ht, if_pos hpid⟩
  obtain ⟨rest, hbefore, hafter⟩ :=
    pendings_change h.distinct hchange ht hpid hmem ((hfpid t).trans hpid)
  have hsetting : t.settingUp = true := by rw [IpcThread.settingUp, hshmat]; rfl
  have hout : (f t).settingUp = false := by
    refine IpcThread.settingUp_eq_false (by rw [hchain]; rfl) ?_
    rw [IpcThread.waitReason, hkeeps.config]
    exact fun hbusy => by cases hreason.symm.trans hbusy
  rw [IpcThread.pendingEntry_some hsetting] at hbefore
  rw [IpcThread.pendingEntry_none hout] at hafter
  exact hbefore.trans (hafter.symm.cons _)

/-- The threads that are in a `shmat` after one of them made a step of it. -/
theorem chain_pendings (h : sys.WaitsLegal) (hthread : sys.thread t.config.pid = some t)
    (hshmat : t.chainState.inShmat = true) (hreason : t.waitReason = .WR_NOT_WAITING)
    (haccount : ChainAccount sys t result sys') :
    (sys'.mappings = sys.mappings ∧ sys'.pendings = sys.pendings ∧
        t.chainState ≠ .CSTATE_SHMAT_MMAP) ∨
      sys.pendings.Perm (⟨t.process, t.config.waitingObjectIndex, 0, 0⟩ :: sys'.pendings) ∧
        ∃ found, sys.findPendingMapping t.process t.config.waitingObjectIndex = some found ∧
          (t.chainState ≠ .CSTATE_SHMAT_MMAP → sys'.mappings = sys.mappings.erase found) := by
  cases haccount with
  | goes f hkeeps hchain hmappings hthreads hnot =>
      refine Or.inl ⟨hmappings, ?_, hnot⟩
      rw [pendings, hthreads]
      refine pendings_modify fun u hu hpid => ?_
      obtain rfl := h.eq_thread hthread hu hpid
      refine IpcThread.pendingEntry_congr (hkeeps.process u)
        (congrArg _ (hkeeps.config u)) ?_
      rw [IpcThread.settingUp, IpcThread.settingUp, hshmat, Bool.true_or]
      have hpast := hchain u
      cases hcs : (f u).chainState <;>
        simp_all [SysVIpcChainState.inShmat, SysVIpcChainState.pastSocket]
  | fails f hkeeps hchain hfound hmappings hthreads hnot =>
      refine Or.inr ⟨?_, _, hfound, fun _ => hmappings⟩
      rw [show sys'.pendings = (sys.modify t.config.pid f).pendings from
        wakePending_entries hthreads]
      exact pendings_leave h hthread hshmat hreason hkeeps hchain
  | maps f hkeeps hchain size hfound hmappings hthreads hmmap =>
      refine Or.inr ⟨?_, _, hfound, fun hnot => absurd hmmap hnot⟩
      rw [show sys'.pendings = (sys.modify t.config.pid f).pendings from
        wakePending_entries hthreads]
      exact pendings_leave h hthread hshmat hreason hkeeps hchain

/-! ## Calls -/

/-- A thread that may make a call is in no `shmat`. -/
theorem mayCall_settingUp (h : t.Legal) (hwait : t.waitState = .WSTATE_NOT_WAITING)
    (hfree : mayCall t = true) : t.settingUp = false := by
  have hfree' := h.free hwait
  refine IpcThread.settingUp_eq_false ?_ ?_
  · rw [(mayCall_chain hfree' hfree).2.2]
    rfl
  · rw [hfree'.reason]
    decide

variable {call : IpcRequest}

/-- A call leaves the other threads where they are in a `shmat`. -/
theorem callChange_pendingEntry {u u' : IpcThread} (h : u.Legal) (hother : u.config.pid ≠ pid)
    (hchange : CallChange sys pid call u u') :
    u'.pendingEntry = u.pendingEntry := by
  have hnone : ∀ {v : IpcThread}, u.waitReason ≠ .WR_NOT_WAITING →
      u.waitReason ≠ .WR_WAIT_SHMAT_HELPER_BUSY → v.settingUp = false →
      v.pendingEntry = u.pendingEntry := fun hreason hbusy hv => by
    rw [IpcThread.pendingEntry_none hv,
      IpcThread.pendingEntry_none (h.not_settingUp hreason hbusy)]
  have hunset : ∀ {reason : SysVIpcWaitReason}, u.waitReason = reason →
      reason ≠ .WR_NOT_WAITING → reason ≠ .WR_WAIT_SHMAT_HELPER_BUSY →
      u.chainState.inShmat = false := fun hreason hne hbusy => by
    have hnot := h.not_settingUp (hreason ▸ hne) (hreason ▸ hbusy)
    rw [IpcThread.settingUp, Bool.or_eq_false_iff] at hnot
    exact hnot.1
  cases hchange with
  | same => rfl
  | retried hcall hitem hwaits =>
      have hreason := waitsForItem_waitReason hwaits
      exact hnone (by rw [hreason]; decide) (by rw [hreason]; decide) rfl
  | removed hcall hcmd hlookup hwaits =>
      have hreason := (waitsFor_waitReason hwaits).1
      refine hnone (by rw [hreason]; decide) (by rw [hreason]; decide) ?_
      refine IpcThread.settingUp_eq_false (hunset hreason (by decide) (by decide)) ?_
      exact fun hbusy => by cases hbusy
  | semWoken hreason =>
      refine hnone (by rw [hreason]; decide) (by rw [hreason]; decide) ?_
      refine IpcThread.settingUp_eq_false (hunset hreason (by decide) (by decide)) ?_
      exact fun hbusy => by cases hbusy
  | semOwn hpid => exact absurd hpid hother
  | received hpid => exact absurd hpid hother
  | waits hpid => exact absurd hpid hother
  | busy hpid => exact absurd hpid hother
  | connects hpid => exact absurd hpid hother
  | unmaps hpid => exact absurd hpid hother

/-- The thread that makes a call is in no `shmat` after it, unless the call is one. -/
theorem called_settingUp {v u' : IpcThread} (h : t.Free) (hfree : mayCall t = true)
    (hcall : ∀ shmid index, call = .shmat shmid → lookupIpcObject sys.shms shmid ≠ .ok index)
    (hchange : CallChange sys pid call t v) (hfinished : Finished v u') :
    u'.settingUp = false := by
  have hstate := (mayCall_chain h hfree).2.2
  have hof : v.chainState.inShmat = false → v.waitReason ≠ .WR_WAIT_SHMAT_HELPER_BUSY →
      u'.settingUp = false := fun hchain hreason => by
    refine IpcThread.settingUp_eq_false ?_ (hfinished.reason ▸ hreason)
    rcases hfinished.chainState with hnot | hsame
    · rw [hnot]
      rfl
    · rw [hsame]
      exact hchain
  have hnot : t.chainState.inShmat = false := by rw [hstate]; rfl
  have hreason : t.waitReason ≠ .WR_WAIT_SHMAT_HELPER_BUSY := by rw [h.reason]; decide
  cases hchange with
  | same => exact hof hnot hreason
  | retried hcall hitem hwaits => cases (waitsForItem_waitReason hwaits).symm.trans h.reason
  | removed hcall hcmd hlookup hwaits =>
      cases (waitsFor_waitReason hwaits).1.symm.trans h.reason
  | semWoken hsem => cases hsem.symm.trans h.reason
  | semOwn hpid hsem =>
      refine hof hnot fun hbusy => ?_
      rcases hsem with hsem | hsem
      · cases hsem.symm.trans hbusy
      · cases hsem.symm.trans hbusy
  | received hpid => exact hof hnot hreason
  | waits hpid => exact hof hnot fun hbusy => by cases hbusy
  | busy hpid hshmat hlookup => exact absurd hlookup (hcall _ _ hshmat)
  | connects hpid hshmat hlookup => exact absurd hlookup (hcall _ _ hshmat)
  | unmaps hpid => exact hof rfl hreason

variable {fromSigsys : Bool}

/-- What a call makes of the threads. -/
theorem called_changes (h : sys.WaitsLegal) (hthread : sys.thread t.config.pid = some t)
    (hfree : mayCall t = true) (hdone : sys.syscallCommon t call fromSigsys = some sys') :
    t.waitState = .WSTATE_NOT_WAITING ∧
      List.Forall₂ (Called sys t.config.pid call) sys.threads sys'.threads := by
  have hwait : t.waitState = .WSTATE_NOT_WAITING := by
    by_contra hwaits
    rw [syscallCommon, if_pos hwaits] at hdone
    cases hdone
  obtain ⟨same, hsame, hchanges⟩ := syscallCommon_spec call h hthread hwait hfree fromSigsys
  obtain rfl := Option.some.inj (hdone.symm.trans hsame)
  exact ⟨hwait, hchanges⟩

/-- A call that is no `shmat`, or fails, leaves the entries in progress alone. -/
theorem called_pendings (h : sys.WaitsLegal) (hthread : sys.thread t.config.pid = some t)
    (hfree : mayCall t = true)
    (hcall : ∀ shmid index, call = .shmat shmid → lookupIpcObject sys.shms shmid ≠ .ok index)
    (hdone : sys.syscallCommon t call fromSigsys = some sys') : sys'.pendings = sys.pendings := by
  obtain ⟨hwait, hchanges⟩ := called_changes h hthread hfree hdone
  refine pendingEntries_congr hchanges fun u hu u' hcalled => ?_
  rcases hcalled with ⟨hpid, v, hchange, -, hfinished⟩ | ⟨hother, hchange⟩
  · obtain rfl := h.eq_thread hthread hu hpid
    have hlegal := h.thread_legal hthread
    rw [IpcThread.pendingEntry_none (mayCall_settingUp hlegal hwait hfree),
      IpcThread.pendingEntry_none
        (called_settingUp (hlegal.free hwait) hfree hcall hchange hfinished)]
  · exact callChange_pendingEntry (h.legal u hu) hother hchange

/-- A thread that starts a `shmat` is in it. -/
theorem shmat_settingUp {shmid : BitVec 64} {index : Nat} (h : sys.WaitsLegal)
    (hthread : sys.thread t.config.pid = some t) (hfree : mayCall t = true)
    (hlookup : lookupIpcObject sys.shms shmid = .ok index)
    (hdone : sys.syscallCommon t (.shmat shmid) fromSigsys = some sys') :
    ∃ u ∈ sys'.threads, u.config.pid = t.config.pid ∧
      u.pendingEntry = some ⟨t.process, index, 0, 0⟩ := by
  obtain ⟨ht, -⟩ := thread_mem hthread
  have hwait := (called_changes h hthread hfree hdone).1
  have hfree' := (h.thread_legal hthread).free hwait
  have hstate := (mayCall_chain hfree' hfree).2.2
  have hafter : ∃ f, ((IpcRequest.shmat shmid).run sys t).1.threads =
      (sys.modify t.config.pid f).threads ∧ (f t).config.pid = t.config.pid ∧
      ∀ status u, finishCall fromSigsys status (f t) = some u →
        u.config.pid = t.config.pid ∧ u.pendingEntry = some ⟨t.process, index, 0, 0⟩ := by
    simp only [IpcRequest.run, shmat, hlookup]
    split
    · refine ⟨_, rfl, rfl, fun status u hu => ?_⟩
      unfold finishCall at hu
      simp only [IpcThread.waitFor, hstate, SysVIpcConfig.afterCall, IpcThread.waitReason, goOn,
        ne_eq, reduceCtorEq, not_false_eq_true, if_true] at hu
      cases hu
      exact ⟨rfl, by simp [IpcThread.pendingEntry, IpcThread.settingUp, IpcThread.waitReason]⟩
    · refine ⟨_, rfl, rfl, fun status u hu => ?_⟩
      cases hu
      exact ⟨rfl, rfl⟩
  obtain ⟨f, hthreads, hfpid, hfinish⟩ := hafter
  have hmiddle := thread_modify hthread hfpid
  unfold syscallCommon at hdone
  dsimp only at hdone
  split at hdone
  · cases hdone
  · split at hdone
    · cases hdone
    · obtain ⟨v, hv, hdone⟩ := Option.bind_eq_some_iff.mp hdone
      obtain ⟨u, hu, hdone⟩ := Option.bind_eq_some_iff.mp hdone
      cases hdone
      rw [thread, hthreads] at hv
      obtain rfl : f t = v := Option.some.inj (hmiddle.symm.trans hv)
      obtain ⟨hupid, hentry⟩ := hfinish _ u hu
      refine ⟨u, ?_, hupid, hentry⟩
      refine List.mem_map.mpr ⟨f t, ?_, if_pos hfpid⟩
      rw [hthreads]
      exact List.mem_map.mpr ⟨t, ht, if_pos rfl⟩

/-- **A `shmat` that starts has its entry.** -/
theorem shmat_pendings {shmid : BitVec 64} {index : Nat} (h : sys.WaitsLegal)
    (hthread : sys.thread t.config.pid = some t) (hfree : mayCall t = true)
    (hlookup : lookupIpcObject sys.shms shmid = .ok index)
    (hdone : sys.syscallCommon t (.shmat shmid) fromSigsys = some sys') :
    sys'.pendings.Perm (⟨t.process, index, 0, 0⟩ :: sys.pendings) := by
  obtain ⟨ht, -⟩ := thread_mem hthread
  obtain ⟨hwait, hchanges⟩ := called_changes h hthread hfree hdone
  obtain ⟨u, hu, hupid, hentry⟩ := shmat_settingUp h hthread hfree hlookup hdone
  have hall : List.Forall₂ (fun u u' => u ∈ sys.threads ∧
      Called sys t.config.pid (.shmat shmid) u u') sys.threads sys'.threads :=
    List.forall₂_iff_zip.mpr ⟨hchanges.length_eq, fun hzip =>
      ⟨(List.of_mem_zip hzip).1, List.forall₂_zip hchanges hzip⟩⟩
  obtain ⟨rest, hbefore, hafter⟩ := pendings_change h.distinct
    (hall.imp fun u u' hu => ⟨hu.2.pid_eq, fun hother => by
      rcases hu.2 with ⟨hpid, -⟩ | ⟨-, hchange⟩
      · exact absurd hpid hother
      · exact callChange_pendingEntry (h.legal u hu.1) hother hchange⟩) ht rfl hu hupid
  rw [IpcThread.pendingEntry_none
    (mayCall_settingUp (h.thread_legal hthread) hwait hfree)] at hbefore
  rw [hentry] at hafter
  exact hafter.trans (hbefore.symm.cons _)

/-! ## Other events -/

theorem chainNext_pendingEntry (t : IpcThread) :
    (chainNext t).pendingEntry = t.pendingEntry := by
  unfold chainNext
  split <;> rfl

/-- A thread that moves on is in its `shmat` as before, unless its wait for the helper ends. -/
theorem moves_pendingEntry {event : IpcEvent} (h : t.Legal)
    (hbusy : t.inSyscall = true → t.waitReason ≠ .WR_WAIT_SHMAT_HELPER_BUSY)
    (hmoves : Moves t event f) : (f t).pendingEntry = t.pendingEntry := by
  cases hmoves with
  | entered => rfl
  | enteredWoken => rfl
  | enteredPpoll => rfl
  | left hin hchain hshmat hwait =>
      rw [chainNext_pendingEntry]
      split <;> rfl
  | waitEnded hin hchain hshmat hwait hreason =>
      have hbefore := h.not_settingUp hreason (hbusy hin)
      rw [chainNext_pendingEntry, IpcThread.pendingEntry_none hbefore,
        IpcThread.pendingEntry_none]
      refine IpcThread.settingUp_eq_false hshmat ?_
      exact fun hnot => by cases hnot
  | leftChained => rw [chainNext_pendingEntry]; rfl
  | leftWoken => rw [chainNext_pendingEntry]; rfl
  | handled => rfl

/-- A thread that gets what it was woken for is in no `shmat`. -/
theorem answered_pendings {event : IpcEvent} {answers : StopAnswers}
    {status : Except Errno (BitVec 32)} (h : sys.WaitsLegal)
    (hanswered : sys.answeredOf event = some (t, answers))
    (hstatus : sys.statusOf t answers = some (sys', status)) (hanswers : Answers status event f) :
    (sys'.modify event.pid f).pendings = sys.pendings := by
  obtain ⟨hthread, hchain, hwait⟩ := answeredOf_spec hanswered
  obtain ⟨ht, hpid⟩ := thread_mem hthread
  have hlegal := h.legal t ht
  have hout : ∀ v, Resumed t v → (f v).pendingEntry = none := by
    intro v hresumed
    obtain ⟨hreason, -, hstate⟩ := resumed_free hlegal hchain hwait hresumed
    have hv : v.settingUp = false := by
      refine IpcThread.settingUp_eq_false (by rw [hstate]; rfl) ?_
      rw [hreason]
      decide
    cases hanswers with
    | enter => exact IpcThread.pendingEntry_none hv
    | leave =>
        rw [chainNext_pendingEntry]
        exact IpcThread.pendingEntry_none hv
  have hbefore : t.pendingEntry = none := by
    have hwoken : t.Woken → t.settingUp = false := fun hwoken => by
      refine IpcThread.settingUp_eq_false ?_ (by rw [hwoken.reason]; decide)
      rcases hwoken.goesOn with ⟨-, hnot | hretry⟩ | ⟨hsome, -⟩
      · rw [hnot]
        rfl
      · rw [hretry]
        rfl
      · cases hchain.symm.trans hsome
    refine IpcThread.pendingEntry_none ?_
    rcases hwait with hwait | hwait | hwait
    · exact hwoken (hlegal.canceled hwait).1
    · exact hwoken (hlegal.signaled hwait).1
    · have hanswered' := hlegal.answered hwait
      refine IpcThread.settingUp_eq_false (by rw [hanswered'.chainState]; rfl) ?_
      rw [hanswered'.reason]
      decide
  have hchanges := statusOf_changes h (hpid ▸ hthread) hstatus
  refine pendingEntries_congr (forall₂_then_modify hchanges event.pid f) fun u hu u' hu' => ?_
  obtain ⟨v, hchange, rfl⟩ := hu'
  rcases hchange with ⟨rfl, hresumed⟩ | ⟨hother, rfl⟩
  · rw [if_pos (hresumed.pid.trans hpid), hout v hresumed, hbefore]
  · rw [if_neg (hpid ▸ hother)]

/-- A step of a `shmat`, when one of its system calls is over. -/
theorem leave_chain {answers : StopAnswers} (hthread : sys.thread pid = some t)
    (hin : t.inSyscall = true) (hshmat : t.chainState.inShmat = true)
    (hwait : t.waitState = .WSTATE_NOT_WAITING)
    (hstep : sys.step (.leave pid result answers) = some sys') :
    ∃ middle, ChainAccount sys t result middle ∧ sys'.mappings = middle.mappings ∧
      sys'.pendings = middle.pendings := by
  have hnext : ∀ sys₁ : IpcSystem, (sys₁.modify pid chainNext).pendings = sys₁.pendings :=
    fun sys₁ => pendings_modify fun u _ _ => chainNext_pendingEntry u
  simp only [step, hthread, hin, Bool.not_true, Bool.false_eq_true, if_false] at hstep
  obtain ⟨sys₁, hsys₁, rfl⟩ := Option.map_eq_some_iff.mp hstep
  rw [hnext]
  split at hsys₁
  · unfold chainedExit at hsys₁
    simp only [hwait, hshmat, if_true] at hsys₁
    obtain ⟨⟨middle, goesOn⟩, hdone, rfl⟩ := Option.map_eq_some_iff.mp hsys₁
    have haccount := chain_account hdone
    have hkeeps : ChainKeeps fun u => { u with result } := ⟨fun _ => rfl, fun _ => rfl⟩
    exact ⟨middle, haccount.of_modify hkeeps, rfl, rfl⟩
  · unfold exitStart at hsys₁
    simp only [hshmat, if_true] at hsys₁
    split at hsys₁
    · cases hsys₁
    · obtain ⟨⟨middle, goesOn⟩, hdone, hsys₂⟩ := Option.bind_eq_some_iff.mp hsys₁
      cases hsys₂
      exact ⟨middle, chain_account hdone, rfl, pendings_modify fun _ _ _ => rfl⟩

end

end IpcSystem

end PRoot
