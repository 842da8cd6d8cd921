import PRoot.SemLog

/-!
# The phases of a semaphore call

* `SysVIpcConfig.At`: where a tracee is with its call, as its configuration has it;
* `mem_wakeWaiters_turned`: what the loop of `sysvipc_semop` does to the other tracees;
* `moves_atStop`, `moves_semop`: what a stop and a call do to a tracee.
-/

namespace PRoot

/-! ## The calls of the tracees -/

variable {note : SemNote} {log : List SemNote}

namespace SemPhase

variable (pid : Nat) (phase : SemPhase)

@[simp] theorem follow_nil : follow pid phase [] = some phase := rfl

theorem follow_own (hnote : note.pid = some pid) (log : List SemNote) :
    follow pid phase (note :: log) = (phase.next note).bind fun phase => follow pid phase log := by
  rw [follow, List.filter_cons, if_pos (decide_eq_true hnote)]
  rfl

theorem follow_other (hnote : note.pid ≠ some pid) (log : List SemNote) :
    follow pid phase (note :: log) = follow pid phase log := by
  rw [follow, List.filter_cons, if_neg fun h => hnote (of_decide_eq_true h)]
  rfl

theorem follow_append (log log' : List SemNote) : follow pid phase (log ++ log') =
    (follow pid phase log).bind fun phase => follow pid phase log' := by
  rw [follow, List.filter_append]
  exact List.foldlM_append

theorem follow_others (h : ∀ note ∈ log, note.pid ≠ some pid) :
    follow pid phase log = some phase := by
  induction log with
  | nil => rfl
  | cons note log ih =>
      rw [follow_other pid phase (h note List.mem_cons_self)]
      exact ih fun note hnote => h note (List.mem_cons_of_mem _ hnote)

end SemPhase

variable {config' : SysVIpcConfig} {sops : List SysVIpcSembuf}

namespace SysVIpcConfig

variable (config : SysVIpcConfig)

/-- A tracee whose result is there, and that has not got it. -/
def answered : Bool :=
  config.waitState = .WSTATE_SIGNALED_PPOLL ∨
    config.waitState = .WSTATE_RESTARTED_INTO_PPOLL_CANCELED ∨
    config.waitState = .WSTATE_ENTERED_GETPID

/-- **Where a tracee is with its call**, as its configuration has it. -/
inductive At : SemPhase → Prop
  | idle (hreason : config.waitReason = .WR_NOT_WAITING)
      (hstate : config.waitState = .WSTATE_NOT_WAITING) : At .free
  -- the result of another call
  | other (hreason : config.waitReason = .WR_NOT_WAITING)
      (hstate : config.waitState = .WSTATE_ENTERED_GETPID) : At .free
  | waits (hreason : config.waitReason = .WR_WAIT_SEMOP)
      (hstate : config.waitState = .WSTATE_RESTARTED_INTO_PPOLL ∨
        config.waitState = .WSTATE_ENTERED_PPOLL) :
      At (.asked (.ok (config.waitingObjectIndex, config.semopSops)))
  | failed {args : Except Errno (Nat × List SysVIpcSembuf)} {e : Errno}
      (hreason : config.waitReason = .WR_NOT_WAITING) (hanswered : config.answered = true)
      (hstatus : config.statusAfterWait = .error e) : At (.asked args)
  | done (hreason : config.waitReason = .WR_NOT_WAITING) (hanswered : config.answered = true)
      (hstatus : config.statusAfterWait = .ok 0) : At .done

variable {config}

/-- A change of a tracee that its notes account for. -/
def Moves (log : List SemNote) (config config' : SysVIpcConfig) : Prop :=
  config'.pid = config.pid ∧ ∀ phase, config.At phase →
    ∃ phase', SemPhase.follow config.pid phase log = some phase' ∧ config'.At phase'

theorem Moves.refl (h : ∀ note ∈ log, note.pid ≠ some config.pid) :
    Moves log config config :=
  ⟨rfl, fun phase hat => ⟨phase, SemPhase.follow_others _ _ h, hat⟩⟩

/-- Notes about others before do not matter, -/
theorem Moves.append_left {log' : List SemNote} (h : Moves log config config')
    (hothers : ∀ note ∈ log', note.pid ≠ some config.pid) :
    Moves (log' ++ log) config config' := by
  refine ⟨h.1, fun phase hat => ?_⟩
  obtain ⟨phase', hfollow, hat'⟩ := h.2 phase hat
  refine ⟨phase', ?_, hat'⟩
  rw [SemPhase.follow_append, SemPhase.follow_others _ _ hothers]
  exact hfollow

/-- nor after. -/
theorem Moves.append_right {log' : List SemNote} (h : Moves log config config')
    (hothers : ∀ note ∈ log', note.pid ≠ some config.pid) :
    Moves (log ++ log') config config' := by
  refine ⟨h.1, fun phase hat => ?_⟩
  obtain ⟨phase', hfollow, hat'⟩ := h.2 phase hat
  refine ⟨phase', ?_, hat'⟩
  rw [SemPhase.follow_append, hfollow]
  exact SemPhase.follow_others _ _ hothers

/-- A tracee that waits. -/
theorem At.of_waits {phase : SemPhase} (h : config.At phase)
    (hreason : config.waitReason = .WR_WAIT_SEMOP) :
    phase = .asked (.ok (config.waitingObjectIndex, config.semopSops)) ∧
      (config.waitState = .WSTATE_RESTARTED_INTO_PPOLL ∨
        config.waitState = .WSTATE_ENTERED_PPOLL) := by
  cases h with
  | waits _ hstate => exact ⟨rfl, hstate⟩
  | idle hnot => cases hnot.symm.trans hreason
  | other hnot => cases hnot.symm.trans hreason
  | failed hnot => cases hnot.symm.trans hreason
  | done hnot => cases hnot.symm.trans hreason

/-- A tracee between two calls. -/
theorem At.of_idle {phase : SemPhase} (h : config.At phase)
    (hstate : config.waitState = .WSTATE_NOT_WAITING) :
    phase = .free ∧ config.waitReason = .WR_NOT_WAITING := by
  have hnot : config.answered = false := by
    rw [answered, hstate]
    rfl
  cases h with
  | idle hreason => exact ⟨rfl, hreason⟩
  | other _ hother => cases hother.symm.trans hstate
  | waits _ hwaits =>
      rcases hwaits with hwaits | hwaits
      · cases hwaits.symm.trans hstate
      · cases hwaits.symm.trans hstate
  | failed _ hanswered => cases hanswered.symm.trans hnot
  | done _ hanswered => cases hanswered.symm.trans hnot

theorem wakeTracee_answered {status : Except Errno (BitVec 32)}
    (hstate : config.waitState = .WSTATE_RESTARTED_INTO_PPOLL ∨
      config.waitState = .WSTATE_ENTERED_PPOLL) :
    (wakeTracee config status).answered = true := by
  rcases hstate with hstate | hstate <;> simp [answered, wakeTracee, hstate]

/-- Who is woken with an error has not had its array carried out. -/
theorem moves_error {e : Errno} (hlog : ∀ note ∈ log, note.pid ≠ some config.pid)
    (hreason : config.waitReason = .WR_WAIT_SEMOP) :
    Moves log config (wakeTracee { config with semopSops := sops } (.error e)) := by
  refine ⟨rfl, fun phase hat => ⟨phase, SemPhase.follow_others _ _ hlog, ?_⟩⟩
  obtain ⟨rfl, hstate⟩ := hat.of_waits hreason
  exact .failed rfl (wakeTracee_answered hstate) rfl

/-- Who is woken with success has. -/
theorem moves_done {index : Nat} (hwaits : config.waitsFor index = true) :
    Moves [.applied config.pid index config.semopSops] config
      (wakeTracee { config with semopSops := sops } (.ok 0)) := by
  refine ⟨rfl, fun phase hat => ⟨.done, ?_, ?_⟩⟩
  · obtain ⟨hreason, rfl⟩ := (waitsFor_iff config index).mp hwaits
    obtain ⟨rfl, -⟩ := hat.of_waits hreason
    rw [SemPhase.follow_own _ _ rfl, SemPhase.next, if_pos rfl]
    rfl
  · obtain ⟨hreason, -⟩ := (waitsFor_iff config index).mp hwaits
    obtain ⟨-, hstate⟩ := hat.of_waits hreason
    exact .done rfl (wakeTracee_answered hstate) rfl

end SysVIpcConfig

section Scan

variable (pid index : Nat)

theorem mem_appliedNote {pid index : Nat} {outcome : SemOutcome}
    (h : note ∈ appliedNote pid index sops outcome) : note.pid = some pid := by
  cases outcome with
  | wait => cases h
  | fail e => cases h
  | done sems =>
      obtain rfl := List.mem_singleton.mp h
      rfl

/-- The loop is over the other tracees. -/
theorem mem_wokenNotes {sems : List (BitVec 16)} {tracees : List SysVIpcConfig}
    (h : note ∈ wokenNotes pid index sems tracees) :
    ∃ config ∈ tracees, config.pid ≠ pid ∧ note.pid = some config.pid := by
  induction tracees generalizing sems with
  | nil => cases h
  | cons config tracees ih =>
      have hrest : ∀ {sems}, note ∈ wokenNotes pid index sems tracees →
          ∃ other ∈ config :: tracees, other.pid ≠ pid ∧ note.pid = some other.pid := by
        intro sems hnote
        obtain ⟨other, hother, hboth⟩ := ih hnote
        exact ⟨other, List.mem_cons_of_mem _ hother, hboth⟩
      rw [wokenNotes] at h
      split at h
      · rename_i hwaits
        rcases List.mem_append.mp h with hnote | hnote
        · exact ⟨config, List.mem_cons_self, hwaits.1, mem_appliedNote hnote⟩
        · exact hrest hnote
      · exact hrest h

/-- What the loop makes of a tracee. -/
structure Turned (log : List SemNote) (config config' : SysVIpcConfig) : Prop where
  moves : SysVIpcConfig.Moves log config config'
  own : config.pid = pid → config' = config
  waits : config'.waitReason = .WR_WAIT_SEMOP → config' = config

/-- The turn of one tracee. -/
theorem turned_head {config : SysVIpcConfig} {sems : List (BitVec 16)}
    {tracees : List SysVIpcConfig} (hwaits : config.pid ≠ pid ∧ config.waitsFor index = true)
    (h : config' ∈ (wakeWaiters pid index sems (config :: tracees)).1) :
    config' ∈ (wakeWaiters pid index ((semCheck sems config.semopSops).next sems) tracees).1 ∨
      Turned pid (appliedNote config.pid index config.semopSops (semCheck sems config.semopSops))
        config config' := by
  rw [wakeWaiters, if_pos hwaits] at h
  cases houtcome : semCheck sems config.semopSops with
  | wait =>
      rw [houtcome] at h
      rcases List.mem_cons.mp h with rfl | h
      · exact Or.inr ⟨.refl (fun _ hnote => by cases hnote), fun _ => rfl, fun _ => rfl⟩
      · exact Or.inl h
  | fail e =>
      rw [houtcome] at h
      rcases List.mem_cons.mp h with rfl | h
      · refine Or.inr ⟨?_, fun hpid => absurd hpid hwaits.1, fun hreason => by cases hreason⟩
        exact SysVIpcConfig.moves_error (fun _ hnote => by cases hnote)
          ((waitsFor_iff config index).mp hwaits.2).1
      · exact Or.inl h
  | done sems' =>
      rw [houtcome] at h
      rcases List.mem_cons.mp h with rfl | h
      · refine Or.inr ⟨?_, fun hpid => absurd hpid hwaits.1, fun hreason => by cases hreason⟩
        exact SysVIpcConfig.moves_done hwaits.2
      · exact Or.inl h

/-- **What the loop does to the tracees** its notes account for. -/
theorem mem_wakeWaiters_turned {sems : List (BitVec 16)} {tracees : List SysVIpcConfig}
    (hdistinct : (tracees.map SysVIpcConfig.pid).Nodup)
    (h : config' ∈ (wakeWaiters pid index sems tracees).1) :
    ∃ config ∈ tracees, Turned pid (wokenNotes pid index sems tracees) config config' := by
  induction tracees generalizing sems with
  | nil => cases h
  | cons config tracees ih =>
      obtain ⟨hfresh, hrest⟩ := List.nodup_cons.mp hdistinct
      have hothers : ∀ sems, ∀ note ∈ wokenNotes pid index sems tracees,
          note.pid ≠ some config.pid := by
        intro sems note hnote hpid
        obtain ⟨other, hother, -, heq⟩ := mem_wokenNotes pid index hnote
        refine hfresh (List.mem_map.mpr ⟨other, hother, ?_⟩)
        exact Option.some.inj (heq.symm.trans hpid)
      rw [wokenNotes]
      split
      · rename_i hwaits
        rcases turned_head pid index hwaits h with h | hturned
        · obtain ⟨other, hother, hmoves, hown, hkept⟩ := ih hrest h
          refine ⟨other, List.mem_cons_of_mem _ hother, hmoves.append_left fun note hnote => ?_,
            hown, hkept⟩
          rw [mem_appliedNote hnote]
          exact fun heq => hfresh (List.mem_map.mpr ⟨other, hother, (Option.some.inj heq).symm⟩)
        · exact ⟨config, List.mem_cons_self, hturned.moves.append_right (hothers _),
            hturned.own, hturned.waits⟩
      · rename_i hwaits
        rw [wakeWaiters, if_neg hwaits] at h
        rcases List.mem_cons.mp h with rfl | h
        · exact ⟨config', List.mem_cons_self, .refl (hothers _), fun _ => rfl, fun _ => rfl⟩
        · obtain ⟨other, hother, hturned⟩ := ih hrest h
          exact ⟨other, List.mem_cons_of_mem _ hother, hturned⟩

theorem wakeWaiters_pids (sems : List (BitVec 16)) (tracees : List SysVIpcConfig) :
    (wakeWaiters pid index sems tracees).1.map SysVIpcConfig.pid =
      tracees.map SysVIpcConfig.pid := by
  induction tracees generalizing sems with
  | nil => rfl
  | cons config tracees ih =>
      rw [wakeWaiters]
      split
      · cases semCheck sems config.semopSops with
        | wait => exact congrArg (config.pid :: ·) (ih sems)
        | fail e => exact congrArg (config.pid :: ·) (ih sems)
        | done sems' => exact congrArg (config.pid :: ·) (ih sems')
      · exact congrArg (config.pid :: ·) (ih sems)

end Scan

/-! ## The stops and the ends of calls -/

namespace SysVIpcConfig

variable {config : SysVIpcConfig} {phase : SemPhase}

/-- A tracee that gets its result. -/
theorem At.resume (h : config.At phase) (hanswered : config.answered = true) :
    config.waitReason = .WR_NOT_WAITING ∧
      phase.next (.resumed config.pid config.statusAfterWait) = some .free := by
  cases h with
  | idle _ hstate =>
      rw [answered, hstate] at hanswered
      cases hanswered
  | other hreason hstate => exact ⟨hreason, rfl⟩
  | waits _ hstate =>
      rcases hstate with hstate | hstate
      · rw [answered, hstate] at hanswered
        cases hanswered
      · rw [answered, hstate] at hanswered
        cases hanswered
  | failed hreason _ hstatus =>
      rw [hstatus]
      exact ⟨hreason, rfl⟩
  | done hreason _ hstatus =>
      rw [hstatus]
      exact ⟨hreason, rfl⟩

/-- A tracee in its `ppoll`, or on its way there. -/
theorem At.of_ppoll (h : config.At phase)
    (hstate : config.waitState = .WSTATE_RESTARTED_INTO_PPOLL ∨
      config.waitState = .WSTATE_ENTERED_PPOLL) :
    config.waitReason = .WR_WAIT_SEMOP ∧
      phase = .asked (.ok (config.waitingObjectIndex, config.semopSops)) := by
  have hnot : config.answered = false := by
    rcases hstate with hstate | hstate <;> simp [answered, hstate]
  cases h with
  | waits hreason _ => exact ⟨hreason, rfl⟩
  | idle _ hidle => rcases hstate with hstate | hstate <;> cases hstate.symm.trans hidle
  | other _ hother => rcases hstate with hstate | hstate <;> cases hstate.symm.trans hother
  | failed _ hanswered => cases hanswered.symm.trans hnot
  | done _ hanswered => cases hanswered.symm.trans hnot

/-- The note of a stop at which a tracee gets its result. -/
theorem moves_resumed (hanswered : config.answered = true) :
    Moves [.resumed config.pid config.statusAfterWait] config
      { config with waitState := .WSTATE_NOT_WAITING } := by
  refine ⟨rfl, fun phase hat => ⟨.free, ?_, .idle (hat.resume hanswered).1 rfl⟩⟩
  rw [SemPhase.follow_own _ _ rfl, (hat.resume hanswered).2]
  rfl

/-- What a stop does to a tracee its notes account for. -/
theorem moves_atStop (stop : IpcStop) :
    Moves (config.stopNotes stop) config (config.atStop stop) := by
  cases stop <;> cases hstate : config.waitState <;> simp only [stopNotes, atStop, hstate]
  case SYSCALL_ENTER_START.WSTATE_RESTARTED_INTO_PPOLL =>
      refine ⟨rfl, fun phase hat => ⟨phase, rfl, ?_⟩⟩
      obtain ⟨hreason, rfl⟩ := hat.of_ppoll (Or.inl hstate)
      exact @At.waits { config with waitState := .WSTATE_ENTERED_PPOLL } hreason (Or.inr rfl)
  case SYSCALL_ENTER_START.WSTATE_RESTARTED_INTO_PPOLL_CANCELED =>
      exact moves_resumed (by simp [answered, hstate])
  case SYSCALL_EXIT_START.WSTATE_ENTERED_PPOLL =>
      refine ⟨rfl, fun phase hat => ⟨.free, ?_, .idle rfl rfl⟩⟩
      obtain ⟨-, rfl⟩ := hat.of_ppoll (Or.inr hstate)
      rw [SemPhase.follow_own _ _ rfl]
      rfl
  case SYSCALL_EXIT_START.WSTATE_SIGNALED_PPOLL =>
      exact moves_resumed (by simp [answered, hstate])
  case SYSCALL_EXIT_START.WSTATE_ENTERED_GETPID =>
      exact moves_resumed (by simp [answered, hstate])
  case SYSCALL_CHAINED_ENTER.WSTATE_RESTARTED_INTO_PPOLL_CANCELED =>
      refine ⟨rfl, fun phase hat => ⟨phase, rfl, ?_⟩⟩
      have hnext : ({ config with waitState := .WSTATE_SIGNALED_PPOLL } :
          SysVIpcConfig).answered = true := by simp [answered]
      cases hat with
      | idle _ hidle => cases hstate.symm.trans hidle
      | other _ hother => cases hstate.symm.trans hother
      | waits _ hwaits => rcases hwaits with hwaits | hwaits <;> cases hstate.symm.trans hwaits
      | failed hreason _ hstatus => exact .failed hreason hnext hstatus
      | done hreason _ hstatus => exact .done hreason hnext hstatus
  case SYSCALL_CHAINED_EXIT.WSTATE_SIGNALED_PPOLL =>
      refine ⟨rfl, fun phase hat => ⟨.free, ?_, ?_⟩⟩
      · rw [SemPhase.follow_own _ _ rfl]
        cases hat with
        | idle _ hidle => cases hstate.symm.trans hidle
        | other _ hother => cases hstate.symm.trans hother
        | waits _ hwaits => rfl
        | failed _ _ _ => rfl
        | done _ _ _ => rfl
      · exact .idle (hat.resume (by simp [answered, hstate])).1 rfl
  all_goals exact .refl fun _ hnote => by cases hnote

/-- A call of `semop` ends: its result goes with what was carried out. -/
theorem afterCall_at {status : Except Errno (BitVec 32)} (fromSigsys : Bool)
    (hreason : config.waitReason = .WR_NOT_WAITING)
    (hstate : config.waitState = .WSTATE_NOT_WAITING)
    (hstatus : (∃ args e, phase = .asked args ∧ status = .error e) ∨
      (phase = .done ∧ status = .ok 0)) :
    ∃ phase', SemPhase.follow config.pid phase (resultNote config.pid fromSigsys (some status)) =
      some phase' ∧ (config.afterCall fromSigsys status).At phase' := by
  have hnot : ¬ config.waitReason ≠ .WR_NOT_WAITING := not_not.mpr hreason
  rw [afterCall, if_neg hnot]
  cases fromSigsys with
  | true =>
      refine ⟨.free, ?_, .idle hreason hstate⟩
      show SemPhase.follow _ _ [.resumed config.pid status] = _
      rw [SemPhase.follow_own _ _ rfl]
      rcases hstatus with ⟨args, e, rfl, rfl⟩ | ⟨rfl, rfl⟩
      · rfl
      · rfl
  | false =>
      refine ⟨phase, rfl, ?_⟩
      rcases hstatus with ⟨args, e, rfl, rfl⟩ | ⟨rfl, rfl⟩
      · exact .failed hreason rfl rfl
      · exact .done hreason rfl rfl

/-- Another call ends. -/
theorem moves_afterCall (fromSigsys : Bool) (status : Except Errno (BitVec 32))
    (hlog : ∀ note ∈ log, note.pid ≠ some config.pid)
    (hstate : config.waitState = .WSTATE_NOT_WAITING) :
    Moves log config (config.afterCall fromSigsys status) := by
  have hpid : (config.afterCall fromSigsys status).pid = config.pid := by
    unfold afterCall
    split
    · rfl
    · split <;> rfl
  refine ⟨hpid, fun phase hat => ⟨phase, SemPhase.follow_others _ _ hlog, ?_⟩⟩
  obtain ⟨rfl, hreason⟩ := hat.of_idle hstate
  rw [afterCall, if_neg (not_not.mpr hreason)]
  cases fromSigsys with
  | true => exact .idle hreason hstate
  | false => exact .other hreason rfl

end SysVIpcConfig

/-! ## The call of `semop` -/

/-- What becomes of the caller. -/
def semopCaller (index : Nat) (sops : List SysVIpcSembuf) (outcome : SemOutcome)
    (config : SysVIpcConfig) : SysVIpcConfig :=
  match outcome with
  | .wait => { config with
      waitReason := .WR_WAIT_SEMOP, waitingObjectIndex := index, semopSops := sops }
  | _ => { config with
      waitReason := .WR_NOT_WAITING, waitingObjectIndex := index, semopSops := [] }

theorem semop_eq {sys : SemSystem} {pid : Nat} {semid nsops : BitVec 64}
    {readSop : Nat → Except Errno SysVIpcSembuf} {index : Nat}
    (hargs : semopArgs sys.ns semid nsops readSop = .ok (index, sops)) :
    semop sys pid semid nsops readSop =
      let outcome := semCheck (sys.ns.semaphoreAt index).sems sops
      let scan :=
        wakeWaiters pid index (outcome.next (sys.ns.semaphoreAt index).sems) sys.tracees
      (⟨sys.ns.setSems index scan.2, setConfig pid (semopCaller index sops outcome) scan.1⟩,
        (semResult outcome).getD (.ok 0)) := by
  unfold semop
  simp only [hargs]
  cases semCheck (sys.ns.semaphoreAt index).sems sops <;> rfl

namespace SysVIpcConfig

variable {config : SysVIpcConfig}

theorem afterCall_pid (fromSigsys : Bool) (status : Except Errno (BitVec 32))
    (config : SysVIpcConfig) : (config.afterCall fromSigsys status).pid = config.pid := by
  unfold afterCall
  split
  · rfl
  · split <;> rfl

theorem atStop_pid (stop : IpcStop) (config : SysVIpcConfig) :
    (config.atStop stop).pid = config.pid := by
  unfold atStop
  split <;> rfl

theorem semopCaller_pid (index : Nat) (sops : List SysVIpcSembuf) (outcome : SemOutcome)
    (config : SysVIpcConfig) : (semopCaller index sops outcome config).pid = config.pid := by
  cases outcome <;> rfl

/-- A call with bad arguments. -/
theorem moves_refused {e : Errno} (fromSigsys : Bool)
    (hstate : config.waitState = .WSTATE_NOT_WAITING) :
    Moves (.called config.pid (.error e) :: resultNote config.pid fromSigsys (some (.error e)))
      config (config.afterCall fromSigsys (.error e)) := by
  refine ⟨afterCall_pid _ _ _, fun phase hat => ?_⟩
  obtain ⟨rfl, hreason⟩ := hat.of_idle hstate
  rw [SemPhase.follow_own _ _ rfl]
  exact afterCall_at fromSigsys hreason hstate (Or.inl ⟨.error e, e, rfl, rfl⟩)

/-- **The caller of `semop`**: its array is carried out, or it waits or fails. -/
theorem moves_semop {index : Nat} {woken : List SemNote} (outcome : SemOutcome) (fromSigsys : Bool)
    (hwoken : ∀ note ∈ woken, note.pid ≠ some config.pid)
    (hstate : config.waitState = .WSTATE_NOT_WAITING) :
    Moves (.called config.pid (.ok (index, sops)) ::
        (appliedNote config.pid index sops outcome ++ woken ++
          resultNote config.pid fromSigsys (semResult outcome)))
      config ((semopCaller index sops outcome config).afterCall fromSigsys
        ((semResult outcome).getD (.ok 0))) := by
  refine ⟨(afterCall_pid _ _ _).trans (semopCaller_pid _ _ _ _), fun phase hat => ?_⟩
  obtain ⟨rfl, -⟩ := hat.of_idle hstate
  rw [SemPhase.follow_own _ _ rfl, List.append_assoc]
  show ∃ phase', SemPhase.follow _ (.asked (.ok (index, sops))) _ = _ ∧ _
  cases outcome with
  | wait =>
      have hnote : resultNote config.pid fromSigsys (semResult .wait) = [] := by
        cases fromSigsys <;> rfl
      refine ⟨.asked (.ok (index, sops)), ?_, ?_⟩
      · rw [hnote, List.append_nil]
        exact SemPhase.follow_others _ _ hwoken
      · have hwaits : (semopCaller index sops .wait config).waitReason ≠ .WR_NOT_WAITING :=
          fun heq => by cases heq
        rw [afterCall, if_pos hwaits]
        cases fromSigsys with
        | true => exact @At.waits { config with
            waitReason := .WR_WAIT_SEMOP, waitingObjectIndex := index, semopSops := sops
            waitState := .WSTATE_RESTARTED_INTO_PPOLL } rfl (Or.inl rfl)
        | false => exact @At.waits { config with
            waitReason := .WR_WAIT_SEMOP, waitingObjectIndex := index, semopSops := sops
            waitState := .WSTATE_ENTERED_PPOLL } rfl (Or.inr rfl)
  | fail e =>
      show ∃ phase', SemPhase.follow _ _ (woken ++ _) = _ ∧ _
      rw [SemPhase.follow_append, SemPhase.follow_others _ _ hwoken]
      exact @afterCall_at { config with
        waitReason := .WR_NOT_WAITING, waitingObjectIndex := index, semopSops := [] } _
        (.error e) fromSigsys rfl hstate (Or.inl ⟨.ok (index, sops), e, rfl, rfl⟩)
  | done sems =>
      show ∃ phase', SemPhase.follow _ _ (.applied config.pid index sops :: (woken ++ _)) = _ ∧ _
      rw [SemPhase.follow_own _ _ rfl, SemPhase.next, if_pos rfl, Option.bind_some,
        SemPhase.follow_append, SemPhase.follow_others _ _ hwoken]
      exact @afterCall_at { config with
        waitReason := .WR_NOT_WAITING, waitingObjectIndex := index, semopSops := [] } _
        (.ok 0) fromSigsys rfl hstate (Or.inr ⟨rfl, rfl⟩)

end SysVIpcConfig

end PRoot
