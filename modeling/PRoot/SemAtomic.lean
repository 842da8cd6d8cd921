import PRoot.SemPhases
import PRoot.SemSets

/-!
# Semaphore operations, all or nothing

* `AccountedFor`: a change that its notes account for;
* `accounted_semop`, `accounted_semctl`, `accounted_semget`: the calls are;
* `step_logged`: every event keeps the log right;
* `semop_atomic`: so the values are what the arrays in the log make of them, in every run.
-/

namespace PRoot

/-! ## Runs -/

/-- **The log is right**: the values are what the noted arrays make of them, and every tracee
is where the notes about it lead. -/
structure SemSystem.Logged (sys : SemSystem) (log : List SemNote) : Prop where
  distinct : (sys.tracees.map SysVIpcConfig.pid).Nodup
  sets : sys.ns.SemsRight
  names : ∀ config ∈ sys.tracees, config.waitReason = .WR_WAIT_SEMOP →
    sys.ns.Names config.waitingObjectIndex config.semopSops
  values : replayNotes (fun _ => []) log = some sys.ns.values
  phases : ∀ config ∈ sys.tracees, ∃ phase,
    SemPhase.follow config.pid .free log = some phase ∧ config.At phase
  absent : ∀ pid, pid ∉ sys.tracees.map SysVIpcConfig.pid →
    SemPhase.follow pid .free log = some .free

/-- A change that its notes account for. -/
structure AccountedFor (sys : SemSystem) (notes : List SemNote) (sys' : SemSystem) : Prop where
  pids : sys'.tracees.map SysVIpcConfig.pid = sys.tracees.map SysVIpcConfig.pid
  sets : sys'.ns.SemsRight
  names : ∀ config ∈ sys'.tracees, config.waitReason = .WR_WAIT_SEMOP →
    sys'.ns.Names config.waitingObjectIndex config.semopSops
  values : replayNotes sys.ns.values notes = some sys'.ns.values
  moves : ∀ config' ∈ sys'.tracees, ∃ config ∈ sys.tracees,
    SysVIpcConfig.Moves notes config config'
  known : ∀ note ∈ notes, ∀ pid, note.pid = some pid → pid ∈ sys.tracees.map SysVIpcConfig.pid

section Steps

variable {sys sys' : SemSystem} {log notes : List SemNote}

theorem SemSystem.Logged.step (h : sys.Logged log) (haccounted : AccountedFor sys notes sys') :
    sys'.Logged (log ++ notes) := by
  refine ⟨?_, haccounted.sets, haccounted.names, ?_, fun config' hconfig' => ?_, fun pid hpid => ?_⟩
  · rw [haccounted.pids]
    exact h.distinct
  · rw [replayNotes_append, h.values]
    exact haccounted.values
  · obtain ⟨config, hconfig, hpid, hmoves⟩ := haccounted.moves config' hconfig'
    obtain ⟨phase, hfollow, hat⟩ := h.phases config hconfig
    obtain ⟨phase', hfollow', hat'⟩ := hmoves phase hat
    refine ⟨phase', ?_, hat'⟩
    rw [hpid, SemPhase.follow_append, hfollow]
    exact hfollow'
  · rw [haccounted.pids] at hpid
    rw [SemPhase.follow_append, h.absent pid hpid]
    exact SemPhase.follow_others _ _ fun note hnote hnotePid =>
      hpid (haccounted.known note hnote pid hnotePid)

theorem setConfig_pids (pid : Nat) {f : SysVIpcConfig → SysVIpcConfig}
    (hf : ∀ config, (f config).pid = config.pid) (tracees : List SysVIpcConfig) :
    (setConfig pid f tracees).map SysVIpcConfig.pid = tracees.map SysVIpcConfig.pid := by
  rw [setConfig, List.map_map]
  refine List.map_congr_left fun config _ => ?_
  rw [Function.comp_apply]
  split
  · exact hf config
  · rfl

variable {config : SysVIpcConfig}

/-- There is one tracee of a pid. -/
theorem filter_pid {tracees : List SysVIpcConfig}
    (hdistinct : (tracees.map SysVIpcConfig.pid).Nodup) (hconfig : config ∈ tracees) :
    tracees.filter (fun other => other.pid = config.pid) = [config] := by
  induction tracees with
  | nil => cases hconfig
  | cons head tracees ih =>
      obtain ⟨hfresh, hrest⟩ := List.nodup_cons.mp hdistinct
      rcases List.mem_cons.mp hconfig with rfl | hconfig
      · rw [List.filter_cons, if_pos (decide_eq_true rfl), List.filter_eq_nil_iff.mpr]
        exact fun other hother heq =>
          hfresh (List.mem_map.mpr ⟨other, hother, of_decide_eq_true heq⟩)
      · rw [List.filter_cons, if_neg, ih hrest hconfig]
        exact fun heq =>
          hfresh (List.mem_map.mpr ⟨config, hconfig, (of_decide_eq_true heq).symm⟩)

variable {pid : Nat}

theorem idle_state (hdistinct : (sys.tracees.map SysVIpcConfig.pid).Nodup)
    (hidle : sys.idle pid = true) (hconfig : config ∈ sys.tracees) (hpid : config.pid = pid) :
    config.waitState = .WSTATE_NOT_WAITING := by
  obtain ⟨other, hother, hboth⟩ := List.any_eq_true.mp hidle
  obtain ⟨hotherPid, hstate⟩ := of_decide_eq_true hboth
  obtain rfl := List.inj_on_of_nodup_map hdistinct hother hconfig (hotherPid.trans hpid.symm)
  exact hstate

theorem idle_mem (hidle : sys.idle pid = true) :
    pid ∈ sys.tracees.map SysVIpcConfig.pid := by
  obtain ⟨config, hconfig, hboth⟩ := List.any_eq_true.mp hidle
  exact List.mem_map.mpr ⟨config, hconfig, (of_decide_eq_true hboth).1⟩

variable {fromSigsys : Bool} {status : Except Errno (BitVec 32)}

/-- Whoever waits after a call waited so before the end of the call. -/
theorem mem_afterCall {tracees : List SysVIpcConfig} {config' : SysVIpcConfig}
    (h : config' ∈ setConfig pid (·.afterCall fromSigsys status) tracees) :
    ∃ config ∈ tracees, config.SameWait config' ∧
      (if config.pid = pid then config.afterCall fromSigsys status else config) = config' := by
  obtain ⟨config, hconfig, heq⟩ := mem_setConfig.mp h
  refine ⟨config, hconfig, ?_, heq⟩
  rw [← heq]
  split
  · exact afterCall_sameWait fromSigsys status config
  · exact ⟨rfl, rfl, rfl⟩

theorem names_sameWait {ns : IpcNamespace} {config' : SysVIpcConfig}
    (hsame : config.SameWait config') (h : config.waitReason = .WR_WAIT_SEMOP →
      ns.Names config.waitingObjectIndex config.semopSops)
    (hreason : config'.waitReason = .WR_WAIT_SEMOP) :
    ns.Names config'.waitingObjectIndex config'.semopSops := by
  rw [hsame.2.1, hsame.2.2]
  exact h (hsame.1.symm.trans hreason)

/-- A call other than `semop`.  The caller goes on, and the others wait as before or are
woken with an error. -/
theorem accounted_other {ns' : IpcNamespace} {tracees' : List SysVIpcConfig} (h : sys.Logged log)
    (hidle : sys.idle pid = true) (hnotes : ∀ note ∈ notes, note.pid = none)
    (hpids : tracees'.map SysVIpcConfig.pid = sys.tracees.map SysVIpcConfig.pid)
    (hsets : ns'.SemsRight) (hvalues : replayNotes sys.ns.values notes = some ns'.values)
    (hnames : ∀ config ∈ tracees', config.waitReason = .WR_WAIT_SEMOP →
      ns'.Names config.waitingObjectIndex config.semopSops)
    (htracees : ∀ config' ∈ tracees', ∃ config ∈ sys.tracees,
      SysVIpcConfig.Moves notes config config' ∧
        (config.waitState = .WSTATE_NOT_WAITING → config' = config)) :
    AccountedFor sys notes ⟨ns', setConfig pid (·.afterCall fromSigsys status) tracees'⟩ := by
  have hothers : ∀ config : SysVIpcConfig, ∀ note ∈ notes, note.pid ≠ some config.pid := by
    intro config note hnote
    rw [hnotes note hnote]
    exact fun heq => by cases heq
  refine ⟨?_, hsets, fun config' hconfig' => ?_, hvalues, fun config' hconfig' => ?_,
    fun note hnote pid hpid => ?_⟩
  · exact (setConfig_pids pid (SysVIpcConfig.afterCall_pid fromSigsys status) tracees').trans
      hpids
  · obtain ⟨config, hconfig, hsame, -⟩ := mem_afterCall hconfig'
    exact names_sameWait hsame (hnames config hconfig)
  · obtain ⟨config, hconfig, -, rfl⟩ := mem_afterCall hconfig'
    obtain ⟨before, hbefore, hmoves, hkept⟩ := htracees config hconfig
    refine ⟨before, hbefore, ?_⟩
    by_cases hpid : config.pid = pid
    · have hstate := idle_state h.distinct hidle hbefore (hmoves.1.symm.trans hpid)
      rw [if_pos hpid, hkept hstate]
      exact SysVIpcConfig.moves_afterCall fromSigsys status (hothers before) hstate
    · rw [if_neg hpid]
      exact hmoves
  · rw [hnotes note hnote] at hpid
    cases hpid

theorem accounted_semget {key nsems semflg : BitVec 64} (h : sys.Logged log)
    (hidle : sys.idle pid = true) :
    AccountedFor sys ((SemCall.semget key nsems semflg).notes sys pid fromSigsys)
      ⟨(semget sys.ns key nsems semflg).1,
        setConfig pid (·.afterCall fromSigsys status) sys.tracees⟩ := by
  have hnotes : ∀ note ∈ (SemCall.semget key nsems semflg).notes sys pid fromSigsys,
      note.pid = none := by
    intro note hnote
    rw [SemCall.notes] at hnote
    split at hnote
    · obtain ⟨index, -, rfl⟩ := List.mem_map.mp hnote
      rfl
    · cases hnote
  refine accounted_other h hidle hnotes rfl (semget_right key nsems semflg h.sets)
    (semget_values sys pid fromSigsys key nsems semflg) (fun config hconfig hreason => ?_)
    fun config hconfig => ⟨config, hconfig, .refl fun note hnote => ?_, fun _ => rfl⟩
  · obtain ⟨hlive, hnames⟩ := h.names config hconfig hreason
    obtain ⟨hlive', hsame⟩ := semget_keeps sys.ns key nsems semflg hlive
    refine ⟨hlive', ?_⟩
    rw [hsame]
    exact hnames
  · rw [hnotes note hnote]
    exact fun heq => by cases heq

/-- What `SETVAL` sets. -/
theorem semctlSetval_ok {semaphore : Semaphore} {semnum cmdarg : BitVec 64}
    {sems : List (BitVec 16)} (h : semctlSetval semaphore semnum cmdarg = .ok sems) :
    sems = semaphore.sems.set (semnum.setWidth 32).toNat (cmdarg.setWidth 16) ∧
      (cmdarg.setWidth 16).toNat = cmdarg.toNat ∧ cmdarg.toNat ≤ sysvipcMaxSemval := by
  unfold semctlSetval at h
  split at h
  · cases h
  · rename_i hmax
    have hle : cmdarg.toNat ≤ sysvipcMaxSemval := Nat.le_of_not_lt hmax
    unfold semctlNum at h
    simp only [bind, Except.bind] at h
    split at h
    · cases h
    · rename_i num hnum
      split at hnum
      · cases hnum
      · rename_i hrange
        cases hnum
        cases h
        have hsame : (semnum.setWidth 32).toInt.toNat = (semnum.setWidth 32).toNat := by
          rw [BitVec.toInt_eq_toNat_cond] at hrange ⊢
          split at hrange <;> omega
        refine ⟨?_, ?_, hle⟩
        · rw [hsame]
        · rw [BitVec.toNat_setWidth, Nat.mod_eq_of_lt]
          unfold sysvipcMaxSemval at hle
          omega

theorem wakeAll_moves {index : Nat} {config' : SysVIpcConfig}
    (hnotes : ∀ note ∈ notes, note.pid = none) (hphases : ∀ config ∈ sys.tracees,
      ∃ phase, config.At phase) (h : config' ∈ wakeAll index sys.tracees) :
    ∃ config ∈ sys.tracees, SysVIpcConfig.Moves notes config config' ∧
      (config.waitState = .WSTATE_NOT_WAITING → config' = config) := by
  obtain ⟨config, hconfig, rfl⟩ := List.mem_map.mp h
  have hothers : ∀ note ∈ notes, note.pid ≠ some config.pid := by
    intro note hnote
    rw [hnotes note hnote]
    exact fun heq => by cases heq
  refine ⟨config, hconfig, ?_⟩
  split
  · rename_i hwaits
    have hreason := ((waitsFor_iff config index).mp hwaits).1
    refine ⟨SysVIpcConfig.moves_error hothers hreason, fun hstate => ?_⟩
    obtain ⟨phase, hat⟩ := hphases config hconfig
    cases (hat.of_idle hstate).2.symm.trans hreason
  · exact ⟨.refl hothers, fun _ => rfl⟩

theorem wakeAll_pids (index : Nat) (tracees : List SysVIpcConfig) :
    (wakeAll index tracees).map SysVIpcConfig.pid = tracees.map SysVIpcConfig.pid := by
  rw [wakeAll, List.map_map]
  refine List.map_congr_left fun config _ => ?_
  rw [Function.comp_apply]
  split <;> rfl

theorem accounted_rmid {semid : BitVec 64} {index : Nat} (h : sys.Logged log)
    (hidle : sys.idle pid = true) (hlookup : lookupIpcObject sys.ns.semaphores semid = .ok index) :
    AccountedFor sys [.removed index] ⟨(semctlRmid sys.ns semid).1,
      setConfig pid (·.afterCall fromSigsys status) (wakeAll index sys.tracees)⟩ := by
  have hnotes : ∀ note ∈ [SemNote.removed index], note.pid = none := by
    intro note hnote
    obtain rfl := List.mem_singleton.mp hnote
    rfl
  refine accounted_other h hidle hnotes (wakeAll_pids index sys.tracees)
    (semctlRmid_right hlookup h.sets) (congrArg some (semctlRmid_values hlookup).symm)
    (fun config' hconfig' hreason => ?_) fun config' hconfig' => ?_
  · obtain ⟨config, hconfig, rfl⟩ := List.mem_map.mp hconfig'
    split at hreason
    · cases hreason
    · rename_i hwaits
      rw [if_neg hwaits]
      obtain ⟨hlive, hnames⟩ := h.names config hconfig hreason
      have hne : config.waitingObjectIndex ≠ index := fun heq =>
        hwaits ((waitsFor_iff config index).mpr ⟨hreason, heq⟩)
      obtain ⟨hlive', hsame⟩ := semctlRmid_keeps sys.ns hlookup hne
      refine ⟨hlive'.trans hlive, ?_⟩
      rw [hsame]
      exact hnames
  · refine wakeAll_moves hnotes (fun config hconfig => ?_) hconfig'
    obtain ⟨phase, -, hat⟩ := h.phases config hconfig
    exact ⟨phase, hat⟩

/-- A call that changes nothing but values of sets. -/
theorem accounted_values {ns' : IpcNamespace} (h : sys.Logged log) (hidle : sys.idle pid = true)
    (hnotes : ∀ note ∈ notes, note.pid = none) (hsets : ns'.SemsRight)
    (hvalues : replayNotes sys.ns.values notes = some ns'.values)
    (hnames : ∀ index sops, sys.ns.Names index sops → ns'.Names index sops) :
    AccountedFor sys notes ⟨ns', setConfig pid (·.afterCall fromSigsys status) sys.tracees⟩ := by
  refine accounted_other h hidle hnotes rfl hsets hvalues
    (fun config hconfig hreason => hnames _ _ (h.names config hconfig hreason))
    fun config hconfig => ⟨config, hconfig, .refl fun note hnote => ?_, fun _ => rfl⟩
  rw [hnotes note hnote]
  exact fun heq => by cases heq

theorem accounted_semctl {semid semnum cmd cmdarg : BitVec 64} {written : Except Errno Unit}
    (h : sys.Logged log) (hidle : sys.idle pid = true) :
    AccountedFor sys ((SemCall.semctl semid semnum cmd cmdarg written).notes sys pid fromSigsys)
      ⟨(semctl sys semid semnum cmd cmdarg written).1.ns,
        setConfig pid (·.afterCall fromSigsys (semctl sys semid semnum cmd cmdarg written).2)
          (semctl sys semid semnum cmd cmdarg written).1.tracees⟩ := by
  have hnone : ∀ note ∈ ([] : List SemNote), note.pid = none := fun _ hnote => by cases hnote
  have hkeep : ∀ status : Except Errno (BitVec 32), AccountedFor sys []
      ⟨sys.ns, setConfig pid (·.afterCall fromSigsys status) sys.tracees⟩ := fun status =>
    accounted_values h hidle hnone h.sets rfl fun _ _ => id
  rw [SemCall.notes]
  unfold semctl
  cases hlookup : lookupIpcObject sys.ns.semaphores semid with
  | error e => exact hkeep _
  | ok index =>
      simp only
      cases hcmd : semCommand cmd with
      | none => exact hkeep _
      | some command =>
          cases command with
          | GETVAL => exact hkeep _
          | GETALL => exact hkeep _
          | IPC_INFO => exact hkeep _
          | IPC_RMID => exact accounted_rmid h hidle hlookup
          | SETVAL =>
              simp only
              cases hset : semctlSetval (sys.ns.semaphoreAt index) semnum cmdarg with
              | error e => exact hkeep _
              | ok sems =>
                  obtain ⟨rfl, hvalue, hmax⟩ := semctlSetval_ok hset
                  have hlive := lookupIpcObject_live hlookup
                  refine accounted_values h hidle (fun note hnote => ?_) ?_ ?_ fun i sops hi => ?_
                  · obtain rfl := List.mem_singleton.mp hnote
                    rfl
                  · exact semsRight_setSems h.sets hlive List.length_set
                      (semsBounded_set (h.sets.bounded index) (hvalue.le.trans hmax))
                  · rw [values_setSems _ hlive, semValues_set, hvalue]
                    rfl
                  · exact names_setSems hlive List.length_set hi

theorem mem_resultNote {result : Option (Except Errno (BitVec 32))} {note : SemNote}
    (h : note ∈ resultNote pid fromSigsys result) : note.pid = some pid := by
  unfold resultNote at h
  split at h
  · obtain ⟨status, -, rfl⟩ := List.mem_map.mp h
    rfl
  · cases h

/-- Results change no values. -/
theorem replayNotes_result (values : Nat → List Int) (pid : Nat) (fromSigsys : Bool)
    (result : Option (Except Errno (BitVec 32))) :
    replayNotes values (resultNote pid fromSigsys result) = some values := by
  cases fromSigsys with
  | false => rfl
  | true => cases result <;> rfl

theorem replayNotes_same (values : Nat → List Int) {log : List SemNote}
    (h : ∀ note ∈ log, ∀ values, note.replay values = some values) :
    replayNotes values log = some values := by
  induction log with
  | nil => rfl
  | cons note log ih =>
      rw [replayNotes, List.foldlM_cons, h note List.mem_cons_self]
      exact ih fun note hnote => h note (List.mem_cons_of_mem _ hnote)

theorem accounted_refused {e : Errno} (h : sys.Logged log) (hidle : sys.idle pid = true) :
    AccountedFor sys (.called pid (.error e) :: resultNote pid fromSigsys (some (.error e)))
      ⟨sys.ns, setConfig pid (·.afterCall fromSigsys (.error e)) sys.tracees⟩ := by
  have hpid : ∀ note ∈ SemNote.called pid (.error e) ::
      resultNote pid fromSigsys (some (.error e)), note.pid = some pid := by
    intro note hnote
    rcases List.mem_cons.mp hnote with rfl | hnote
    · rfl
    · exact mem_resultNote hnote
  refine ⟨setConfig_pids pid (SysVIpcConfig.afterCall_pid fromSigsys _) _, h.sets,
    fun config' hconfig' => ?_, replayNotes_result _ _ _ _, fun config' hconfig' => ?_,
    fun note hnote q hq => ?_⟩
  · obtain ⟨config, hconfig, hsame, -⟩ := mem_afterCall hconfig'
    exact names_sameWait hsame (h.names config hconfig)
  · obtain ⟨config, hconfig, -, rfl⟩ := mem_afterCall hconfig'
    refine ⟨config, hconfig, ?_⟩
    split
    · rename_i hown
      subst hown
      exact SysVIpcConfig.moves_refused fromSigsys (idle_state h.distinct hidle hconfig rfl)
    · rename_i hother
      refine .refl fun note hnote heq => hother ?_
      exact Option.some.inj (heq.symm.trans (hpid note hnote))
  · obtain rfl := Option.some.inj ((hpid note hnote).symm.trans hq)
    exact idle_mem hidle

/-- **A `semop`** is accounted for by the arrays it notes. -/
theorem accounted_semop {semid nsops : BitVec 64} {readSop : Nat → Except Errno SysVIpcSembuf}
    (h : sys.Logged log) (hidle : sys.idle pid = true) :
    AccountedFor sys ((SemCall.semop semid nsops readSop).notes sys pid fromSigsys)
      ⟨(semop sys pid semid nsops readSop).1.ns,
        setConfig pid (·.afterCall fromSigsys (semop sys pid semid nsops readSop).2)
          (semop sys pid semid nsops readSop).1.tracees⟩ := by
  rw [SemCall.notes]
  cases hargs : semopArgs sys.ns semid nsops readSop with
  | error e =>
      have hsemop : semop sys pid semid nsops readSop = (sys, .error e) := by
        rw [semop, hargs]
      rw [hsemop]
      exact accounted_refused h hidle
  | ok args =>
      obtain ⟨index, sops⟩ := args
      obtain ⟨hlive, hrange⟩ := semopArgs_names h.sets hargs
      rw [semop_eq hargs]
      simp only
      have hone := appliedNote_carried pid index hrange
      generalize semCheck (sys.ns.semaphoreAt index).sems sops = outcome at hone ⊢
      have hrest := @wokenNotes_carried
        (outcome.next (sys.ns.semaphoreAt index).sems) pid index sys.tracees
        fun config hconfig hwaits sop hsop => by
          obtain ⟨hreason, rfl⟩ := (waitsFor_iff config index).mp hwaits
          rw [hone.length]
          exact (h.names config hconfig hreason).2 sop hsop
      have hboth := hone.trans hrest
      have hturned := fun config' hconfig' => @mem_wakeWaiters_turned config' pid index
        (outcome.next (sys.ns.semaphoreAt index).sems) sys.tracees h.distinct hconfig'
      have hwoken := fun note => @mem_wokenNotes note pid index
        (outcome.next (sys.ns.semaphoreAt index).sems) sys.tracees
      have hpids := wakeWaiters_pids pid index (outcome.next (sys.ns.semaphoreAt index).sems)
        sys.tracees
      generalize wakeWaiters pid index (outcome.next (sys.ns.semaphoreAt index).sems)
        sys.tracees = scan at hrest hboth hturned hpids ⊢
      generalize wokenNotes pid index (outcome.next (sys.ns.semaphoreAt index).sems)
        sys.tracees = woken at hrest hboth hturned hwoken ⊢
      have hvalues : sys.ns.values =
          Function.update sys.ns.values index (semValues (sys.ns.semaphoreAt index).sems) :=
        (Function.update_eq_self index sys.ns.values).symm
      refine ⟨?_, ?_, fun config' hconfig' => ?_, ?_, fun config' hconfig' => ?_,
        fun note hnote q hq => ?_⟩
      · refine (setConfig_pids pid (SysVIpcConfig.afterCall_pid fromSigsys _) _).trans ?_
        exact (setConfig_pids pid (SysVIpcConfig.semopCaller_pid index sops outcome) _).trans hpids
      · exact semsRight_setSems h.sets hlive hboth.length (hboth.bounded (h.sets.bounded index))
      · obtain ⟨config1, hconfig1, hsame, -⟩ := mem_afterCall hconfig'
        obtain ⟨config2, hconfig2, rfl⟩ := mem_setConfig.mp hconfig1
        obtain ⟨config, hconfig, -, -, hkept⟩ := hturned config2 hconfig2
        refine names_sameWait hsame fun hreason => ?_
        refine names_setSems hlive hboth.length ?_
        split at hreason
        · rename_i hown
          rw [if_pos hown]
          cases outcome with
          | wait => exact ⟨hlive, hrange⟩
          | fail e => cases hreason
          | done sems => cases hreason
        · rename_i hother
          rw [if_neg hother]
          obtain rfl := hkept hreason
          exact h.names config2 hconfig hreason
      · have hreplay : replayNotes sys.ns.values (appliedNote pid index sops outcome ++ woken) =
            some (sys.ns.setSems index scan.2).values := by
          rw [values_setSems scan.2 hlive, hvalues, hboth.values, Function.update_idem]
        show replayNotes sys.ns.values (appliedNote pid index sops outcome ++ woken ++
          resultNote pid fromSigsys (semResult outcome)) = _
        rw [replayNotes_append, hreplay]
        exact replayNotes_result _ _ _ _
      · obtain ⟨config1, hconfig1, -, rfl⟩ := mem_afterCall hconfig'
        obtain ⟨config2, hconfig2, rfl⟩ := mem_setConfig.mp hconfig1
        obtain ⟨config, hconfig, hmoves, hown, -⟩ := hturned config2 hconfig2
        refine ⟨config, hconfig, ?_⟩
        by_cases hpid : config2.pid = pid
        · obtain rfl := hown (hmoves.1.symm.trans hpid)
          subst hpid
          rw [if_pos rfl, if_pos (SysVIpcConfig.semopCaller_pid index sops outcome config2)]
          refine SysVIpcConfig.moves_semop outcome fromSigsys (fun note hnote heq => ?_)
            (idle_state h.distinct hidle hconfig rfl)
          obtain ⟨other, -, hne, hother⟩ := hwoken note hnote
          exact hne (Option.some.inj (hother.symm.trans heq))
        · rw [if_neg hpid, if_neg hpid]
          have hne : ∀ {note : SemNote}, note.pid = some pid → note.pid ≠ some config.pid :=
            fun hnote heq => hpid (hmoves.1.trans (Option.some.inj (heq.symm.trans hnote)))
          show SysVIpcConfig.Moves ((.called pid (.ok (index, sops)) ::
            appliedNote pid index sops outcome) ++ woken ++ _) config config2
          refine (hmoves.append_left fun note hnote => ?_).append_right
            fun note hnote => hne (mem_resultNote hnote)
          rcases List.mem_cons.mp hnote with rfl | hnote
          · exact hne rfl
          · exact hne (mem_appliedNote hnote)
      · rcases List.mem_cons.mp hnote with rfl | hnote
        · obtain rfl := Option.some.inj hq
          exact idle_mem hidle
        · rcases List.mem_append.mp hnote with hnote | hnote
          · rcases List.mem_append.mp hnote with hnote | hnote
            · obtain rfl := Option.some.inj ((mem_appliedNote hnote).symm.trans hq)
              exact idle_mem hidle
            · obtain ⟨config, hconfig, -, hpid⟩ := hwoken note hnote
              exact List.mem_map.mpr ⟨config, hconfig, Option.some.inj (hpid.symm.trans hq)⟩
          · obtain rfl := Option.some.inj ((mem_resultNote hnote).symm.trans hq)
            exact idle_mem hidle

theorem mem_stopNotes {stop : IpcStop} {note : SemNote} (h : note ∈ config.stopNotes stop) :
    note.pid = some config.pid ∧ ∀ values, note.replay values = some values := by
  unfold SysVIpcConfig.stopNotes at h
  split at h
  case h_6 => cases h
  all_goals
    obtain rfl := List.mem_singleton.mp h
    exact ⟨rfl, fun _ => rfl⟩

theorem accounted_stop {stop : IpcStop} (h : sys.Logged log) :
    AccountedFor sys ((SemEvent.stop pid stop).notes sys) (sys.step (.stop pid stop)) := by
  have hpid : ∀ note ∈ (SemEvent.stop pid stop).notes sys,
      note.pid = some pid ∧ pid ∈ sys.tracees.map SysVIpcConfig.pid := by
    intro note hnote
    obtain ⟨config, hconfig, hnote⟩ := List.mem_flatMap.mp hnote
    obtain ⟨hconfig, hown⟩ := List.mem_filter.mp hconfig
    rw [(mem_stopNotes hnote).1, of_decide_eq_true hown]
    exact ⟨rfl, List.mem_map.mpr ⟨config, hconfig, of_decide_eq_true hown⟩⟩
  refine ⟨setConfig_pids pid (SysVIpcConfig.atStop_pid stop) _, h.sets,
    fun config' hconfig' hreason => ?_, ?_, fun config' hconfig' => ?_, fun note hnote q hq => ?_⟩
  · obtain ⟨config, hconfig, rfl⟩ := mem_setConfig.mp hconfig'
    by_cases hown : config.pid = pid
    · rw [if_pos hown] at hreason ⊢
      exact names_sameWait (atStop_sameWait stop config hreason) (h.names config hconfig) hreason
    · rw [if_neg hown] at hreason ⊢
      exact h.names config hconfig hreason
  · refine replayNotes_same _ fun note hnote => ?_
    obtain ⟨config, -, hnote⟩ := List.mem_flatMap.mp hnote
    exact (mem_stopNotes hnote).2
  · obtain ⟨config, hconfig, rfl⟩ := mem_setConfig.mp hconfig'
    refine ⟨config, hconfig, ?_⟩
    split
    · rename_i hown
      subst hown
      show SysVIpcConfig.Moves ((sys.tracees.filter fun other =>
        other.pid = config.pid).flatMap (·.stopNotes stop)) _ _
      rw [filter_pid h.distinct hconfig, List.flatMap_singleton]
      exact SysVIpcConfig.moves_atStop stop
    · rename_i hother
      exact .refl fun note hnote heq =>
        hother (Option.some.inj (heq.symm.trans (hpid note hnote).1))
  · obtain rfl := Option.some.inj ((hpid note hnote).1.symm.trans hq)
    exact (hpid note hnote).2

/-- A new tracee. -/
theorem logged_inheritChild {child : Nat} (h : sys.Logged log)
    (hfresh : child ∉ sys.tracees.map SysVIpcConfig.pid) :
    (sys.step (.inheritChild child)).Logged log := by
  refine ⟨List.nodup_cons.mpr ⟨hfresh, h.distinct⟩, h.sets, fun config hconfig hreason => ?_,
    h.values, fun config hconfig => ?_, fun pid hpid => ?_⟩
  · rcases List.mem_cons.mp hconfig with rfl | hconfig
    · cases hreason
    · exact h.names config hconfig hreason
  · rcases List.mem_cons.mp hconfig with rfl | hconfig
    · exact ⟨.free, h.absent child hfresh, .idle rfl rfl⟩
    · exact h.phases config hconfig
  · exact h.absent pid fun hmem => hpid (List.mem_cons_of_mem _ hmem)

/-- A tracee that is gone. -/
theorem logged_exit (h : sys.Logged log) :
    (sys.step (.exit pid)).Logged (log ++ [.gone pid]) := by
  have hmem : ∀ {config}, config ∈ (sys.step (.exit pid)).tracees →
      config ∈ sys.tracees ∧ config.pid ≠ pid := by
    intro config hconfig
    obtain ⟨hconfig, hpid⟩ := List.mem_filter.mp hconfig
    exact ⟨hconfig, of_decide_eq_true hpid⟩
  have hother : ∀ {q}, q ≠ pid → SemPhase.follow q .free (log ++ [.gone pid]) =
      SemPhase.follow q .free log := by
    intro q hq
    have hnote : (SemNote.gone pid).pid ≠ some q := fun heq => hq (Option.some.inj heq).symm
    rw [SemPhase.follow_append]
    cases SemPhase.follow q .free log with
    | none => rfl
    | some phase => exact SemPhase.follow_other q phase hnote []
  refine ⟨List.Nodup.sublist (List.filter_sublist.map _) h.distinct, h.sets,
    fun config hconfig => h.names config (hmem hconfig).1, ?_, fun config hconfig => ?_,
    fun q hq => ?_⟩
  · rw [replayNotes_append, h.values]
    rfl
  · rw [hother (hmem hconfig).2]
    exact h.phases config (hmem hconfig).1
  · by_cases hpid : q = pid
    · subst hpid
      have hfollow : ∃ phase, SemPhase.follow q .free log = some phase := by
        by_cases hin : q ∈ sys.tracees.map SysVIpcConfig.pid
        · obtain ⟨config, hconfig, rfl⟩ := List.mem_map.mp hin
          obtain ⟨phase, hphase, -⟩ := h.phases config hconfig
          exact ⟨phase, hphase⟩
        · exact ⟨.free, h.absent q hin⟩
      obtain ⟨phase, hphase⟩ := hfollow
      rw [SemPhase.follow_append, hphase, Option.bind_some, SemPhase.follow_own _ _ rfl]
      cases phase <;> rfl
    · rw [hother hpid]
      refine h.absent q fun hin => hq ?_
      obtain ⟨config, hconfig, rfl⟩ := List.mem_map.mp hin
      exact List.mem_map.mpr ⟨config, List.mem_filter.mpr ⟨hconfig, decide_eq_true hpid⟩, rfl⟩

/-- A new tracee has a pid that no other has. -/
def SemEvent.Fresh (sys : SemSystem) : SemEvent → Prop
  | .inheritChild child => child ∉ sys.tracees.map SysVIpcConfig.pid
  | _ => True

/-- **Every event keeps the log right.** -/
theorem step_logged (h : sys.Logged log) (event : SemEvent) (hfresh : event.Fresh sys) :
    (sys.step event).Logged (log ++ event.notes sys) := by
  cases event with
  | call pid semCall fromSigsys =>
      rw [SemSystem.step, SemEvent.notes]
      by_cases hidle : sys.idle pid = true
      · rw [if_pos hidle, if_pos hidle]
        cases semCall with
        | semget key nsems semflg => exact h.step (accounted_semget h hidle)
        | semop semid nsops readSop => exact h.step (accounted_semop h hidle)
        | semctl semid semnum cmd cmdarg written => exact h.step (accounted_semctl h hidle)
      · rw [if_neg hidle, if_neg hidle, List.append_nil]
        exact h
  | stop pid ipcStop => exact h.step (accounted_stop h)
  | inheritChild child =>
      rw [SemEvent.notes, List.append_nil]
      exact logged_inheritChild h hfresh
  | exit pid => exact logged_exit h

theorem initial_logged (pid : Nat) : (SemSystem.initial pid).Logged [] := by
  refine ⟨List.nodup_singleton pid, ⟨fun _ _ hvalue => ?_, fun _ hlive => ?_⟩,
    fun config hconfig hreason => ?_, rfl, fun config hconfig => ?_, fun _ _ => rfl⟩
  · cases hvalue
  · cases hlive
  · obtain rfl := List.mem_singleton.mp hconfig
    cases hreason
  · obtain rfl := List.mem_singleton.mp hconfig
    exact ⟨.free, rfl, .idle rfl rfl⟩

/-- New tracees have pids of their own, in a whole run. -/
def SemSystem.FreshRun (sys : SemSystem) : List SemEvent → Prop
  | [] => True
  | event :: events => event.Fresh sys ∧ (sys.step event).FreshRun events

theorem run_logged (h : sys.Logged log) {events : List SemEvent} (hfresh : sys.FreshRun events) :
    (sys.run events).Logged (log ++ sys.log events) := by
  induction events generalizing sys log with
  | nil =>
      rw [SemSystem.log, List.append_nil]
      exact h
  | cons event events ih =>
      rw [SemSystem.log, ← List.append_assoc]
      exact ih (step_logged h event hfresh.1) hfresh.2

/-- **Semaphore operations are all or nothing, and bounded.**  In every run the values of the
sets are what the creations, removals and `SETVAL`s of the log, and the arrays it notes, make of
nothing, operation by operation; every tracee had its array carried out just where its call
succeeds; and no value leaves the range from 0 to `SYSVIPC_MAX_SEMVAL`. -/
theorem semop_atomic (pid : Nat) (events : List SemEvent)
    (hfresh : (SemSystem.initial pid).FreshRun events) :
    let log := (SemSystem.initial pid).log events
    let ns := ((SemSystem.initial pid).run events).ns
    replayNotes (fun _ => []) log = some ns.values ∧
      (∀ q, (SemPhase.follow q .free log).isSome = true) ∧
      ∀ index, ∀ value ∈ ns.values index, 0 ≤ value ∧ value ≤ sysvipcMaxSemval := by
  have h := run_logged (initial_logged pid) hfresh
  rw [List.nil_append] at h
  refine ⟨h.values, fun q => ?_, fun index value hvalue => ?_⟩
  · by_cases hin : q ∈ ((SemSystem.initial pid).run events).tracees.map SysVIpcConfig.pid
    · obtain ⟨config, hconfig, rfl⟩ := List.mem_map.mp hin
      obtain ⟨phase, hphase, -⟩ := h.phases config hconfig
      rw [hphase]
      rfl
    · rw [h.absent q hin]
      rfl
  · obtain ⟨sem, hsem, rfl⟩ := List.mem_map.mp hvalue
    have hmax := h.sets.bounded index sem hsem
    exact ⟨Int.natCast_nonneg _, Int.ofNat_le.mpr hmax⟩

end Steps

/-- A tracee waits with an array of two operations; `SETVAL` wakes nobody, but the failing
`semop` of another tracee does. -/
def resumedEvents : List SemEvent := [
  .call 1 (.semget 0 2 0x200) false,
  .stop 1 .SYSCALL_EXIT_START,
  .inheritChild 2,
  .call 2 (.semop 1 2 fun i => .ok (if i = 0 then ⟨0, 0xFFFF, 0⟩ else ⟨1, 2, 0⟩)) false,
  .call 1 (.semctl 1 0 16 1 (.ok ())) false,
  .stop 1 .SYSCALL_EXIT_START,
  .call 1 (.semop 1 1 fun _ => .ok ⟨0, 0xFFF0, 0x800⟩) false,
  .stop 1 .SYSCALL_EXIT_START,
  .stop 2 .SYSCALL_EXIT_START]

/-- Its array is carried out, once. -/
theorem semop_atomic_resumed :
    ((SemSystem.initial 1).run resumedEvents).ns.values 0 = [0, 2] ∧
      replayNotes (fun _ => []) ((SemSystem.initial 1).log resumedEvents) =
        some ((SemSystem.initial 1).run resumedEvents).ns.values := by
  have hfresh : (SemSystem.initial 1).FreshRun resumedEvents := by
    refine ⟨True.intro, True.intro, ?_, True.intro, True.intro, True.intro, True.intro,
      True.intro, True.intro, True.intro⟩
    show 2 ∉ List.map SysVIpcConfig.pid _
    decide
  exact ⟨by decide, (semop_atomic 1 resumedEvents hfresh).1⟩

end PRoot
