import PRoot.IpcRuns
import PRoot.Semaphores

/-!
# Wake-ups of tracees that wait for semaphores

`semop` goes over the waiting tracees once, `SETVAL` does not.

* `wakeWaiters_left`: the loop of `semop` is one scan;
* `step_noLostWakeup_iff`: which events leave a tracee blocked that could go on;
* `noLostWakeup_iff`: no tracee is ever left so in exactly the runs without them;
* `noLostWakeup_fails`: a tracee that waits for a semaphore to be set.
-/

namespace PRoot

/-- The set a tracee waits for is there, and its operations cannot be carried out in
full on the values the set has. -/
def IpcNamespace.Blocks (ns : IpcNamespace) (config : SysVIpcConfig) : Prop :=
  Slot.live ns.semaphores config.waitingObjectIndex = true ∧
    ¬ Waiters.Ready semCheck (ns.semaphoreAt config.waitingObjectIndex).sems config.semopSops

/-- **No lost wake-up**: whoever waits in `semop` has to. -/
def SemSystem.NoLostWakeup (sys : SemSystem) : Prop :=
  ∀ config ∈ sys.tracees, config.waitReason = .WR_WAIT_SEMOP → sys.ns.Blocks config

/-- What the other tracees that wait for a set wait to do, in the order of the list. -/
def waiters (pid index : Nat) (tracees : List SysVIpcConfig) : List (List SysVIpcSembuf) :=
  (tracees.filter fun config => config.pid ≠ pid ∧ config.waitsFor index).map
    SysVIpcConfig.semopSops

/-- An event that leaves no tracee blocked that could go on.  For a `semop`, one scan
over the caller and the waiters is enough; a `SETVAL` sets no value with which a waiter
could go on. -/
def SemEvent.Suits (sys : SemSystem) : SemEvent → Prop
  | .call pid (.semop semid nsops readSop) _ =>
      sys.idle pid = true → ∀ index sops,
        semopArgs sys.ns semid nsops readSop = .ok (index, sops) →
          Waiters.Settles semCheck (sys.ns.semaphoreAt index).sems
            (sops :: waiters pid index sys.tracees)
  | .call pid (.semctl semid semnum cmd cmdarg _) _ =>
      sys.idle pid = true → semCommand cmd = some .SETVAL → ∀ index sems,
        lookupIpcObject sys.ns.semaphores semid = .ok index →
        semctlSetval (sys.ns.semaphoreAt index) semnum cmdarg = .ok sems →
          ∀ config ∈ sys.tracees, config.waitsFor index = true →
            ¬ Waiters.Ready semCheck sems config.semopSops
  | _ => True

/-! ## The loop of semop -/

theorem waitsFor_iff (config : SysVIpcConfig) (index : Nat) : config.waitsFor index = true ↔
    config.waitReason = .WR_WAIT_SEMOP ∧ config.waitingObjectIndex = index := by
  rw [SysVIpcConfig.waitsFor, decide_eq_true_iff]

@[simp] theorem wakeTracee_waitReason (config : SysVIpcConfig)
    (status : Except Errno (BitVec 32)) :
    (wakeTracee config status).waitReason = .WR_NOT_WAITING := rfl

theorem wakeTracee_waitsFor (config : SysVIpcConfig) (status : Except Errno (BitVec 32))
    (index : Nat) : (wakeTracee config status).waitsFor index = false := by
  rw [SysVIpcConfig.waitsFor, wakeTracee_waitReason]
  rfl

section Scan

variable (pid index : Nat)

theorem waiters_cons (config : SysVIpcConfig) (tracees : List SysVIpcConfig) :
    waiters pid index (config :: tracees) =
      if config.pid ≠ pid ∧ config.waitsFor index then
        config.semopSops :: waiters pid index tracees
      else waiters pid index tracees := by
  unfold waiters
  rw [List.filter_cons]
  simp only [decide_eq_true_iff]
  split <;> rfl

theorem waiters_woken (config : SysVIpcConfig) (status : Except Errno (BitVec 32))
    (tracees : List SysVIpcConfig) :
    waiters pid index (wakeTracee config status :: tracees) = waiters pid index tracees := by
  rw [waiters_cons, if_neg]
  rintro ⟨-, hwaits⟩
  rw [wakeTracee_waitsFor] at hwaits
  cases hwaits

/-- The loop is a scan over the waiters: as for the values, -/
theorem wakeWaiters_sems (sems : List (BitVec 16)) (tracees : List SysVIpcConfig) :
    (wakeWaiters pid index sems tracees).2 =
      Waiters.pass semCheck sems (waiters pid index tracees) := by
  induction tracees generalizing sems with
  | nil => rfl
  | cons config tracees ih =>
      rw [wakeWaiters, waiters_cons]
      split
      · rw [Waiters.pass_cons]
        cases semCheck sems config.semopSops with
        | wait => exact ih sems
        | fail e => exact ih sems
        | done sems' => exact ih sems'
      · exact ih sems

/-- and as for the tracees that still wait. -/
theorem wakeWaiters_left (sems : List (BitVec 16)) (tracees : List SysVIpcConfig) :
    waiters pid index (wakeWaiters pid index sems tracees).1 =
      Waiters.left semCheck sems (waiters pid index tracees) := by
  induction tracees generalizing sems with
  | nil => rfl
  | cons config tracees ih =>
      rw [wakeWaiters, waiters_cons]
      split
      · rename_i hwaits
        rw [Waiters.left]
        cases semCheck sems config.semopSops with
        | wait =>
            simp only
            rw [waiters_cons, if_pos hwaits, ih]
        | fail e =>
            simp only
            rw [waiters_woken, ih]
        | done sems' =>
            simp only
            rw [waiters_woken, ih]
      · rename_i hwaits
        simp only
        rw [waiters_cons, if_neg hwaits, ih]

/-- The loop leaves other tracees alone. -/
theorem mem_wakeWaiters (sems : List (BitVec 16)) (tracees : List SysVIpcConfig)
    {config : SysVIpcConfig} (hother : ¬ (config.pid ≠ pid ∧ config.waitsFor index = true))
    (hsemop : config.waitReason = .WR_WAIT_SEMOP) :
    config ∈ (wakeWaiters pid index sems tracees).1 ↔ config ∈ tracees := by
  have hwoken : ∀ {woken : SysVIpcConfig} {status : Except Errno (BitVec 32)},
      config ≠ wakeTracee woken status := by
    rintro woken status rfl
    cases hsemop
  induction tracees generalizing sems with
  | nil => rfl
  | cons head tracees ih =>
      rw [wakeWaiters, List.mem_cons]
      split
      · rename_i hwaits
        have hne : config ≠ head := by
          rintro rfl
          exact hother hwaits
        cases semCheck sems head.semopSops with
        | wait => exact List.mem_cons.trans (or_congr_right (ih sems))
        | fail e =>
            exact (List.mem_cons.trans (or_iff_right hwoken)).trans
              ((ih sems).trans (or_iff_right hne).symm)
        | done sems' =>
            exact (List.mem_cons.trans (or_iff_right hwoken)).trans
              ((ih sems').trans (or_iff_right hne).symm)
      · exact List.mem_cons.trans (or_congr_right (ih sems))

/-- No tracee goes. -/
theorem wakeWaiters_any (sems : List (BitVec 16)) (tracees : List SysVIpcConfig)
    (h : ∃ config ∈ tracees, config.pid = pid) :
    ∃ config ∈ (wakeWaiters pid index sems tracees).1, config.pid = pid := by
  induction tracees generalizing sems with
  | nil => exact h
  | cons head tracees ih =>
      rw [wakeWaiters]
      obtain ⟨config, hconfig, hpid⟩ := h
      split
      · rename_i hwaits
        have hrest : ∃ config ∈ tracees, config.pid = pid := by
          rcases List.mem_cons.mp hconfig with rfl | hconfig
          · exact absurd hpid hwaits.1
          · exact ⟨config, hconfig, hpid⟩
        cases semCheck sems head.semopSops with
        | wait =>
            obtain ⟨config', hconfig', hpid'⟩ := ih sems hrest
            exact ⟨config', List.mem_cons_of_mem _ hconfig', hpid'⟩
        | fail e =>
            obtain ⟨config', hconfig', hpid'⟩ := ih sems hrest
            exact ⟨config', List.mem_cons_of_mem _ hconfig', hpid'⟩
        | done sems' =>
            obtain ⟨config', hconfig', hpid'⟩ := ih sems' hrest
            exact ⟨config', List.mem_cons_of_mem _ hconfig', hpid'⟩
      · rcases List.mem_cons.mp hconfig with rfl | hconfig
        · exact ⟨config, List.mem_cons_self, hpid⟩
        · obtain ⟨config', hconfig', hpid'⟩ := ih sems ⟨config, hconfig, hpid⟩
          exact ⟨config', List.mem_cons_of_mem _ hconfig', hpid'⟩

end Scan

/-! ## The namespace -/

theorem semget_keeps (ns : IpcNamespace) (key nsems semflg : BitVec 64) {i : Nat}
    (hlive : Slot.live ns.semaphores i = true) :
    Slot.live (semget ns key nsems semflg).1.semaphores i = true ∧
      (semget ns key nsems semflg).1.semaphoreAt i = ns.semaphoreAt i := by
  unfold semget
  split
  · have hsame := getObject_others (semgetCall key nsems semflg) hlive
    refine ⟨?_, ?_⟩
    · show Slot.live (getObject (semgetCall key nsems semflg) ns.semaphores).1 i = true
      rw [Slot.live, hsame]
      exact hlive
    · show ((getObject (semgetCall key nsems semflg) ns.semaphores).1[i]?).elim _ _ = _
      rw [hsame]
      rfl
  · exact ⟨hlive, rfl⟩

theorem live_setSems (ns : IpcNamespace) (index i : Nat) (sems : List (BitVec 16)) :
    Slot.live (ns.setSems index sems).semaphores i = Slot.live ns.semaphores i := by
  rw [IpcNamespace.setSems, Slot.live_update]

theorem setSems_sems (ns : IpcNamespace) {index : Nat} (i : Nat) (sems : List (BitVec 16))
    (hlive : Slot.live ns.semaphores index = true) :
    ((ns.setSems index sems).semaphoreAt i).sems =
      if i = index then sems else (ns.semaphoreAt i).sems := by
  unfold IpcNamespace.setSems IpcNamespace.semaphoreAt
  rw [Slot.update, List.getElem?_modify]
  by_cases h : i = index
  · subst h
    rw [if_pos rfl, List.getElem?_eq_getElem (Slot.live_lt hlive)]
    simp
  · simp [h, Ne.symm h]

theorem semctlRmid_keeps (ns : IpcNamespace) {semid : BitVec 64} {index i : Nat}
    (hlookup : lookupIpcObject ns.semaphores semid = .ok index) (hne : i ≠ index) :
    Slot.live (semctlRmid ns semid).1.semaphores i = Slot.live ns.semaphores i ∧
      (semctlRmid ns semid).1.semaphoreAt i = ns.semaphoreAt i := by
  unfold semctlRmid
  rw [hlookup]
  refine ⟨?_, ?_⟩
  · simp [Slot.live_release, hne]
  · simp [IpcNamespace.semaphoreAt, Slot.release, Ne.symm hne]

theorem semopArgs_ok {ns : IpcNamespace} {semid nsops : BitVec 64}
    {readSop : Nat → Except Errno SysVIpcSembuf} {index : Nat} {sops : List SysVIpcSembuf}
    (h : semopArgs ns semid nsops readSop = .ok (index, sops)) :
    Slot.live ns.semaphores index = true ∧
      ∀ sop ∈ sops, sop.semNum.toNat < (ns.semaphoreAt index).nsems := by
  unfold semopArgs at h
  cases hlookup : lookupIpcObject ns.semaphores semid with
  | error e =>
      rw [hlookup] at h
      cases h
  | ok i =>
      rw [hlookup] at h
      simp only [bind, Except.bind] at h
      split at h
      · cases h
      · split at h
        · cases h
        · split at h
          · cases h
          · split at h
            · cases h
            · rename_i hany
              cases h
              refine ⟨lookupIpcObject_live hlookup, fun sop hsop => ?_⟩
              by_contra hge
              exact hany (List.any_eq_true.mpr ⟨sop, hsop, decide_eq_true (Nat.le_of_not_lt hge)⟩)

/-! ## Events -/

section Events

variable {ns ns' : IpcNamespace} {tracees : List SysVIpcConfig} {pid : Nat}
  {f : SysVIpcConfig → SysVIpcConfig}

/-- Two configurations that wait for the same. -/
def SysVIpcConfig.SameWait (config config' : SysVIpcConfig) : Prop :=
  config'.waitReason = config.waitReason ∧
    config'.waitingObjectIndex = config.waitingObjectIndex ∧ config'.semopSops = config.semopSops

theorem blocks_congr {config config' : SysVIpcConfig} (h : config.SameWait config') :
    ns.Blocks config' ↔ ns.Blocks config := by
  rw [IpcNamespace.Blocks, h.2.1, h.2.2]
  rfl

theorem afterCall_sameWait (fromSigsys : Bool) (status : Except Errno (BitVec 32))
    (config : SysVIpcConfig) : config.SameWait (config.afterCall fromSigsys status) := by
  unfold SysVIpcConfig.afterCall
  split
  · exact ⟨rfl, rfl, rfl⟩
  · split <;> exact ⟨rfl, rfl, rfl⟩

theorem mem_setConfig {config' : SysVIpcConfig} : config' ∈ setConfig pid f tracees ↔
    ∃ config ∈ tracees, (if config.pid = pid then f config else config) = config' :=
  List.mem_map

/-- Whoever goes on does not wait, and the others wait as before. -/
theorem noLostWakeup_setConfig
    (hf : ∀ config, (f config).waitReason = .WR_WAIT_SEMOP → config.SameWait (f config))
    (h : SemSystem.NoLostWakeup ⟨ns, tracees⟩) :
    SemSystem.NoLostWakeup ⟨ns, PRoot.setConfig pid f tracees⟩ := by
  intro config' hconfig' hsemop
  obtain ⟨config, hconfig, heq⟩ := mem_setConfig.mp hconfig'
  subst heq
  split at hsemop
  · rename_i hpid
    rw [if_pos hpid]
    exact (blocks_congr (hf config hsemop)).mpr
      (h config hconfig ((hf config hsemop).1.symm.trans hsemop))
  · rename_i hpid
    rw [if_neg hpid]
    exact h config hconfig hsemop

theorem noLostWakeup_afterCall_iff (fromSigsys : Bool) (status : Except Errno (BitVec 32)) :
    SemSystem.NoLostWakeup ⟨ns, setConfig pid (·.afterCall fromSigsys status) tracees⟩ ↔
      SemSystem.NoLostWakeup ⟨ns, tracees⟩ := by
  refine ⟨fun h config hconfig hsemop => ?_,
    noLostWakeup_setConfig fun config _ => afterCall_sameWait fromSigsys status config⟩
  have hsame := afterCall_sameWait fromSigsys status config
  have hmem := h _ (mem_setConfig.mpr ⟨config, hconfig, rfl⟩)
  split at hmem
  · exact (blocks_congr hsame).mp (hmem (hsame.1.trans hsemop))
  · exact hmem hsemop

theorem noLostWakeup_keep (h : SemSystem.NoLostWakeup ⟨ns, tracees⟩)
    (hkeep : ∀ i, Slot.live ns.semaphores i = true →
      Slot.live ns'.semaphores i = true ∧ ns'.semaphoreAt i = ns.semaphoreAt i) :
    SemSystem.NoLostWakeup ⟨ns', tracees⟩ := by
  intro config hconfig hsemop
  obtain ⟨hlive, hready⟩ := h config hconfig hsemop
  obtain ⟨hlive', hsame⟩ := hkeep _ hlive
  refine ⟨hlive', ?_⟩
  show ¬ Waiters.Ready semCheck (ns'.semaphoreAt config.waitingObjectIndex).sems config.semopSops
  rw [hsame]
  exact hready

theorem atStop_sameWait (stop : IpcStop) (config : SysVIpcConfig)
    (hsemop : (config.atStop stop).waitReason = .WR_WAIT_SEMOP) :
    config.SameWait (config.atStop stop) := by
  unfold SysVIpcConfig.atStop at hsemop ⊢
  split at hsemop
  case h_3 => cases hsemop
  all_goals exact ⟨rfl, rfl, rfl⟩

/-- `SETVAL` wakes nobody. -/
theorem setval_noLostWakeup_iff {index : Nat} {sems : List (BitVec 16)}
    (hlive : Slot.live ns.semaphores index = true)
    (h : SemSystem.NoLostWakeup ⟨ns, tracees⟩) :
    SemSystem.NoLostWakeup ⟨ns.setSems index sems, tracees⟩ ↔
      ∀ config ∈ tracees, config.waitsFor index = true →
        ¬ Waiters.Ready semCheck sems config.semopSops := by
  constructor
  · intro hafter config hconfig hwaits
    obtain ⟨hsemop, hindex⟩ := (waitsFor_iff config index).mp hwaits
    have hready := (hafter config hconfig hsemop).2
    rwa [setSems_sems ns _ sems hlive, if_pos hindex] at hready
  · intro hsuits config hconfig hsemop
    obtain ⟨hlive', hready⟩ := h config hconfig hsemop
    refine ⟨(live_setSems ns index _ sems).trans hlive', ?_⟩
    rw [setSems_sems ns _ sems hlive]
    split
    · rename_i hindex
      exact hsuits config hconfig ((waitsFor_iff config index).mpr ⟨hsemop, hindex⟩)
    · exact hready

/-- `IPC_RMID` wakes everybody. -/
theorem rmid_noLostWakeup {semid : BitVec 64} {index : Nat}
    (hlookup : lookupIpcObject ns.semaphores semid = .ok index)
    (h : SemSystem.NoLostWakeup ⟨ns, tracees⟩) :
    SemSystem.NoLostWakeup ⟨(semctlRmid ns semid).1, wakeAll index tracees⟩ := by
  intro config' hconfig' hsemop
  obtain ⟨config, hconfig, heq⟩ := List.mem_map.mp hconfig'
  subst heq
  split at hsemop
  · cases hsemop
  · rename_i hwaits
    rw [if_neg hwaits]
    obtain ⟨hlive, hready⟩ := h config hconfig hsemop
    have hne : config.waitingObjectIndex ≠ index := fun hindex =>
      hwaits ((waitsFor_iff config index).mpr ⟨hsemop, hindex⟩)
    obtain ⟨hlive', hsame⟩ := semctlRmid_keeps ns hlookup hne
    refine ⟨hlive'.trans hlive, ?_⟩
    show ¬ Waiters.Ready semCheck
      ((semctlRmid ns semid).1.semaphoreAt config.waitingObjectIndex).sems config.semopSops
    rw [hsame]
    exact hready

/-- The scan of `semop`, where `g` is what becomes of the caller. -/
theorem scan_noLostWakeup_iff {index : Nat} {sops : List SysVIpcSembuf}
    {sems : List (BitVec 16)} {g : SysVIpcConfig → SysVIpcConfig}
    (hlive : Slot.live ns.semaphores index = true)
    (hpid : ∃ config ∈ tracees, config.pid = pid)
    (hwait : semCheck sems sops = .wait → ∀ config, (g config).waitReason = .WR_WAIT_SEMOP ∧
      (g config).waitingObjectIndex = index ∧ (g config).semopSops = sops)
    (hgo : semCheck sems sops ≠ .wait → ∀ config, (g config).waitReason = .WR_NOT_WAITING)
    (h : SemSystem.NoLostWakeup ⟨ns, tracees⟩) :
    let scan := wakeWaiters pid index ((semCheck sems sops).next sems) tracees
    SemSystem.NoLostWakeup ⟨ns.setSems index scan.2, setConfig pid g scan.1⟩ ↔
      Waiters.Settles semCheck sems (sops :: waiters pid index tracees) := by
  intro scan
  have hfinal : Waiters.pass semCheck sems (sops :: waiters pid index tracees) = scan.2 :=
    (wakeWaiters_sems pid index _ tracees).symm
  have hleft : Waiters.left semCheck ((semCheck sems sops).next sems)
      (waiters pid index tracees) = waiters pid index scan.1 :=
    (wakeWaiters_left pid index _ tracees).symm
  have hblocks : ∀ config : SysVIpcConfig, config.waitingObjectIndex = index →
      ((ns.setSems index scan.2).Blocks config ↔
        ¬ Waiters.Ready semCheck scan.2 config.semopSops) := by
    intro config hindex
    rw [IpcNamespace.Blocks, live_setSems, setSems_sems ns _ _ hlive, if_pos hindex, hindex]
    exact and_iff_right hlive
  rw [Waiters.settles_iff, hfinal]
  simp only [Waiters.mem_left_cons, hleft]
  constructor
  · rintro hafter w (⟨rfl, hwaits⟩ | hw)
    · obtain ⟨caller, hcaller, hcallerPid⟩ := wakeWaiters_any pid index
        ((semCheck sems w).next sems) tracees hpid
      obtain ⟨hsemop, hindex, hsops⟩ := hwait hwaits caller
      have hmem : g caller ∈ setConfig pid g scan.1 :=
        mem_setConfig.mpr ⟨caller, hcaller, if_pos hcallerPid⟩
      have hnot := (hblocks (g caller) hindex).mp (hafter (g caller) hmem hsemop)
      rwa [hsops] at hnot
    · obtain ⟨config, hconfig, hsops⟩ := List.mem_map.mp hw
      obtain ⟨hmem, hcond⟩ := List.mem_filter.mp hconfig
      obtain ⟨hother, hwaits⟩ := of_decide_eq_true hcond
      obtain ⟨hsemop, hindex⟩ := (waitsFor_iff config index).mp hwaits
      rw [← hsops]
      exact (hblocks config hindex).mp
        (hafter config (mem_setConfig.mpr ⟨config, hmem, if_neg hother⟩) hsemop)
  · intro hsettles config' hconfig' hsemop
    obtain ⟨config, hconfig, heq⟩ := mem_setConfig.mp hconfig'
    subst heq
    by_cases hown : config.pid = pid
    · simp only [if_pos hown] at hsemop ⊢
      by_cases hwaits : semCheck sems sops = .wait
      · obtain ⟨-, hindex, hsops⟩ := hwait hwaits config
        rw [hblocks (g config) hindex, hsops]
        exact hsettles sops (Or.inl ⟨rfl, hwaits⟩)
      · rw [hgo hwaits config] at hsemop
        cases hsemop
    · simp only [if_neg hown] at hsemop ⊢
      by_cases hindex : config.waitingObjectIndex = index
      · rw [hblocks config hindex]
        refine hsettles config.semopSops (Or.inr (List.mem_map.mpr ⟨config, ?_, rfl⟩))
        exact List.mem_filter.mpr ⟨hconfig,
          decide_eq_true ⟨hown, (waitsFor_iff config index).mpr ⟨hsemop, hindex⟩⟩⟩
      · have hother : ¬ (config.pid ≠ pid ∧ config.waitsFor index = true) := fun hboth =>
          hindex ((waitsFor_iff config index).mp hboth.2).2
        obtain ⟨hlive', hready⟩ :=
          h config ((mem_wakeWaiters pid index _ tracees hother hsemop).mp hconfig) hsemop
        refine ⟨(live_setSems ns index _ _).trans hlive', ?_⟩
        rw [setSems_sems ns _ _ hlive, if_neg hindex]
        exact hready

/-- **After a semop** the tracees wait rightly exactly if one scan was enough. -/
theorem semop_noLostWakeup_iff {index : Nat} {sops : List SysVIpcSembuf} {semid nsops : BitVec 64}
    {readSop : Nat → Except Errno SysVIpcSembuf}
    (hargs : semopArgs ns semid nsops readSop = .ok (index, sops))
    (hpid : ∃ config ∈ tracees, config.pid = pid)
    (h : SemSystem.NoLostWakeup ⟨ns, tracees⟩) :
    (semop ⟨ns, tracees⟩ pid semid nsops readSop).1.NoLostWakeup ↔
      Waiters.Settles semCheck (ns.semaphoreAt index).sems
        (sops :: waiters pid index tracees) := by
  have hscan := fun g hwait hgo => @scan_noLostWakeup_iff ns tracees pid index sops
    (ns.semaphoreAt index).sems g (semopArgs_ok hargs).1 hpid hwait hgo h
  unfold semop
  simp only [hargs]
  cases houtcome : semCheck (ns.semaphoreAt index).sems sops with
  | wait =>
      rw [houtcome] at hscan
      exact hscan _ (fun _ config => ⟨rfl, rfl, rfl⟩) fun hgo => absurd rfl hgo
  | fail e =>
      rw [houtcome] at hscan
      exact hscan _ (fun hwait => by cases hwait) fun _ config => rfl
  | done sems' =>
      rw [houtcome] at hscan
      exact hscan _ (fun hwait => by cases hwait) fun _ config => rfl

/-- **After a semctl** they do unless it sets a value that lets a waiter go on. -/
theorem semctl_noLostWakeup_iff {semid semnum cmd cmdarg : BitVec 64}
    {written : Except Errno Unit} {fromSigsys : Bool}
    (hidle : SemSystem.idle ⟨ns, tracees⟩ pid = true)
    (h : SemSystem.NoLostWakeup ⟨ns, tracees⟩) :
    (semctl ⟨ns, tracees⟩ semid semnum cmd cmdarg written).1.NoLostWakeup ↔
      (SemEvent.call pid (.semctl semid semnum cmd cmdarg written) fromSigsys).Suits
        ⟨ns, tracees⟩ := by
  unfold semctl
  cases hlookup : lookupIpcObject ns.semaphores semid with
  | error e =>
      refine iff_of_true h fun _ _ index sems hok => ?_
      rw [hlookup] at hok
      cases hok
  | ok index =>
      have hlive := lookupIpcObject_live hlookup
      have hother : semCommand cmd ≠ some .SETVAL →
          (SemEvent.call pid (.semctl semid semnum cmd cmdarg written)
            fromSigsys).Suits ⟨ns, tracees⟩ := fun hne _ hcmd => absurd hcmd hne
      simp only
      cases hcmd : semCommand cmd with
      | none => exact iff_of_true h (hother (by simp [hcmd]))
      | some command =>
          cases command with
          | GETVAL | GETALL | IPC_INFO =>
              exact iff_of_true h (hother (by simp [hcmd]))
          | IPC_RMID =>
              exact iff_of_true (rmid_noLostWakeup hlookup h) (hother (by simp [hcmd]))
          | SETVAL =>
              simp only
              cases hset : semctlSetval (ns.semaphoreAt index) semnum cmdarg with
              | error e =>
                  refine iff_of_true h fun _ _ index' sems hok hok' => ?_
                  rw [hlookup] at hok
                  cases hok
                  rw [hset] at hok'
                  cases hok'
              | ok sems =>
                  refine (setval_noLostWakeup_iff hlive h).trans ⟨?_, ?_⟩
                  · intro hsuits _ _ index' sems' hok hok'
                    rw [hlookup] at hok
                    cases hok
                    rw [hset] at hok'
                    cases hok'
                    exact hsuits
                  · intro hsuits
                    exact hsuits hidle hcmd index sems hlookup hset

/-- **Which events lose a wake-up**: those that do not suit. -/
theorem step_noLostWakeup_iff {sys : SemSystem} (h : sys.NoLostWakeup) (event : SemEvent) :
    (sys.step event).NoLostWakeup ↔ event.Suits sys := by
  obtain ⟨ns, tracees⟩ := sys
  cases event with
  | call pid call fromSigsys =>
      by_cases hidle : SemSystem.idle ⟨ns, tracees⟩ pid = true
      · rw [SemSystem.step, if_pos hidle]
        refine (noLostWakeup_afterCall_iff fromSigsys _).trans ?_
        cases call with
        | semget key nsems semflg =>
            refine iff_of_true (noLostWakeup_keep h fun i hi => ?_) True.intro
            exact semget_keeps ns key nsems semflg hi
        | semop semid nsops readSop =>
            have hpid : ∃ config ∈ tracees, config.pid = pid := by
              obtain ⟨config, hconfig, hboth⟩ := List.any_eq_true.mp hidle
              exact ⟨config, hconfig, (of_decide_eq_true hboth).1⟩
            show (semop ⟨ns, tracees⟩ pid semid nsops readSop).1.NoLostWakeup ↔ _
            cases hargs : semopArgs ns semid nsops readSop with
            | error e =>
                have hsame : (semop ⟨ns, tracees⟩ pid semid nsops readSop).1 = ⟨ns, tracees⟩ := by
                  rw [semop, hargs]
                rw [hsame]
                refine iff_of_true h fun _ index sops hok => ?_
                rw [hargs] at hok
                cases hok
            | ok args =>
                obtain ⟨index, sops⟩ := args
                rw [semop_noLostWakeup_iff hargs hpid h]
                constructor
                · intro hsettles _ index' sops' hok
                  rw [hargs] at hok
                  cases hok
                  exact hsettles
                · intro hsuits
                  exact hsuits hidle index sops hargs
        | semctl semid semnum cmd cmdarg written =>
            exact semctl_noLostWakeup_iff hidle h
      · rw [SemSystem.step, if_neg hidle]
        refine iff_of_true h ?_
        cases call with
        | semget => exact True.intro
        | semop => exact fun hidle' => absurd hidle' hidle
        | semctl => exact fun hidle' => absurd hidle' hidle
  | stop pid stop =>
      exact iff_of_true (noLostWakeup_setConfig (atStop_sameWait stop) h) True.intro
  | inheritChild child =>
      refine iff_of_true (fun config hconfig hsemop => ?_) True.intro
      rcases List.mem_cons.mp hconfig with rfl | hconfig
      · cases hsemop
      · exact h config hconfig hsemop
  | exit pid =>
      exact iff_of_true (fun config hconfig => h config (List.mem_filter.mp hconfig).1) True.intro

end Events

/-- **No lost semaphore wake-up**: in every state of a run no tracee waits for a set
that could do its operations, or is gone, exactly if all events of the run suit. -/
theorem noLostWakeup_iff (pid : Nat) (events : List SemEvent) :
    (∀ before, before <+: events → ((SemSystem.initial pid).run before).NoLostWakeup) ↔
      ∀ before event, before ++ [event] <+: events →
        event.Suits ((SemSystem.initial pid).run before) := by
  have hrun : ∀ before event, (SemSystem.initial pid).run (before ++ [event]) =
      ((SemSystem.initial pid).run before).step event := fun before event => List.foldl_append
  constructor
  · intro h before event hbefore
    have hnow := h before ((List.prefix_append before [event]).trans hbefore)
    have hafter := h (before ++ [event]) hbefore
    rw [hrun] at hafter
    exact (step_noLostWakeup_iff hnow event).mp hafter
  · intro h before hbefore
    induction before using List.reverseRecOn with
    | nil =>
        intro config hconfig hsemop
        obtain rfl := List.mem_singleton.mp hconfig
        cases hsemop
    | append_singleton before event ih =>
        rw [hrun]
        exact (step_noLostWakeup_iff (ih ((List.prefix_append before [event]).trans hbefore))
          event).mpr (h before event hbefore)

/-- Two tracees, of which one waits for the semaphore that the other sets. -/
def setvalEvents : List SemEvent := [
  .call 1 (.semget 0 1 0x200) false,
  .stop 1 .SYSCALL_EXIT_START,
  .inheritChild 2,
  .call 2 (.semop 1 1 fun _ => .ok ⟨0, 0xFFFF, 0⟩) false,
  .call 1 (.semctl 1 0 16 1 (.ok ())) false]

/-- `SETVAL` leaves it waiting. -/
theorem noLostWakeup_fails : ¬ ∀ before, before <+: setvalEvents →
    ((SemSystem.initial 1).run before).NoLostWakeup := by
  intro h
  have hwaits := h setvalEvents (List.prefix_refl _)
    ⟨2, .WR_WAIT_SEMOP, .WSTATE_ENTERED_PPOLL, .ok 0, 0, [⟨0, 0xFFFF, 0⟩]⟩ (List.Mem.head _) rfl
  exact hwaits.2 ⟨[0], rfl⟩

end PRoot
