import PRoot.SemWakeups

/-!
# The log of semaphore calls

The log of a run notes when a tracee calls `semop`, when an array of operations is carried
out, and when a tracee gets a result.

* `SemNote.replay`: what a note makes of the values, in terms of integers;
* `SemPhase.next`: a call succeeds exactly if its whole array was carried out, once;
* `SemEvent.notes`: what an event notes;
* `semCheck_done`, `wokenNotes_carried`: what the arrays make of the values of a set.
-/

namespace PRoot

/-! ## The log -/

/-- What is noted of the calls. -/
inductive SemNote
  /-- A tracee calls `semop`, with these arguments. -/
  | called (pid : Nat) (args : Except Errno (Nat × List SysVIpcSembuf))
  /-- The array of a tracee is carried out on a set. -/
  | applied (pid index : Nat) (sops : List SysVIpcSembuf)
  /-- A tracee gets its result. -/
  | resumed (pid : Nat) (status : Except Errno (BitVec 32))
  /-- The `ppoll` of a tracee ends before the tracee was woken: its call fails. -/
  | interrupted (pid : Nat)
  /-- A chain of system calls ends, with a result of its own. -/
  | chained (pid : Nat)
  /-- A tracee is gone. -/
  | gone (pid : Nat)
  /-- A set is created. -/
  | created (index nsems : Nat)
  /-- `SETVAL`. -/
  | set (index num : Nat) (value : Int)
  /-- A set is removed. -/
  | removed (index : Nat)

/-- The tracee a note is about. -/
def SemNote.pid : SemNote → Option Nat
  | .called pid _ | .applied pid .. | .resumed pid _ | .interrupted pid | .chained pid
  | .gone pid => some pid
  | .created .. | .set .. | .removed _ => none

/-- An operation on the values of a set, if it can be carried out now. -/
def SysVIpcSembuf.carryOut (values : List Int) (sop : SysVIpcSembuf) : Option (List Int) :=
  (values[sop.semNum.toNat]?).bind fun value =>
    if sop.semOp.toInt = 0 then
      if value = 0 then some values else none
    else if 0 ≤ value + sop.semOp.toInt ∧ value + sop.semOp.toInt ≤ sysvipcMaxSemval then
      some (values.set sop.semNum.toNat (value + sop.semOp.toInt))
    else none

/-- A whole array of operations, in its order. -/
def carryOutAll (values : List Int) (sops : List SysVIpcSembuf) : Option (List Int) :=
  sops.foldlM SysVIpcSembuf.carryOut values

/-- What a note makes of the values of all sets. -/
def SemNote.replay (values : Nat → List Int) : SemNote → Option (Nat → List Int)
  | .applied _ index sops => (carryOutAll (values index) sops).map (Function.update values index)
  | .created index nsems => some (Function.update values index (List.replicate nsems 0))
  | .set index num value => some (Function.update values index ((values index).set num value))
  | .removed index => some (Function.update values index [])
  | _ => some values

/-- The values after some notes: nothing but these changes them. -/
def replayNotes (values : Nat → List Int) (log : List SemNote) : Option (Nat → List Int) :=
  log.foldlM SemNote.replay values

/-- Where a tracee is with its call of `semop`. -/
inductive SemPhase
  /-- In no such call. -/
  | free
  /-- Its array was not carried out. -/
  | asked (args : Except Errno (Nat × List SysVIpcSembuf))
  /-- Its array was carried out. -/
  | done
  deriving DecidableEq

/-- **All or nothing**: a call that succeeds had its whole array carried out once, on the set
it looked up; a call that waits, fails or is interrupted had not. -/
def SemPhase.next : SemPhase → SemNote → Option SemPhase
  | .free, .called _ args => some (.asked args)
  | .asked args, .applied _ index sops => if args = .ok (index, sops) then some .done else none
  | .asked _, .resumed _ (.error _) => some .free
  | .done, .resumed _ (.ok result) => if result = 0 then some .free else none
  -- the result of another call
  | .free, .resumed .. => some .free
  | .asked _, .interrupted _ => some .free
  | .asked _, .chained _ | .done, .chained _ => some .free
  | _, .gone _ => some .free
  | _, _ => none

/-- Where a tracee is after some notes, if they are in order. -/
def SemPhase.follow (pid : Nat) (phase : SemPhase) (log : List SemNote) : Option SemPhase :=
  (log.filter fun note => note.pid = some pid).foldlM SemPhase.next phase

/-! ## What the events note -/

/-- The result of `semop`, unless the tracee has to wait. -/
def semResult : SemOutcome → Option (Except Errno (BitVec 32))
  | .wait => none
  | .fail e => some (.error e)
  | .done _ => some (.ok 0)

/-- The array of a tracee, if it is carried out. -/
def appliedNote (pid index : Nat) (sops : List SysVIpcSembuf) : SemOutcome → List SemNote
  | .done _ => [.applied pid index sops]
  | _ => []

/-- What the loop of `sysvipc_semop` over the other tracees carries out. -/
def wokenNotes (pid index : Nat) (sems : List (BitVec 16)) : List SysVIpcConfig → List SemNote
  | [] => []
  | config :: rest =>
      if config.pid ≠ pid ∧ config.waitsFor index then
        let outcome := semCheck sems config.semopSops
        appliedNote config.pid index config.semopSops outcome ++
          wokenNotes pid index (outcome.next sems) rest
      else wokenNotes pid index sems rest

/-- A result that is given at once, as it is after a `SIGSYS`. -/
def resultNote (pid : Nat) (fromSigsys : Bool) (result : Option (Except Errno (BitVec 32))) :
    List SemNote :=
  if fromSigsys then result.toList.map (.resumed pid) else []

/-- What a call notes. -/
def SemCall.notes (sys : SemSystem) (pid : Nat) (fromSigsys : Bool) : SemCall → List SemNote
  | .semget key nsems semflg =>
      if nsemsValid nsems then
        ((semgetCall key nsems semflg).place sys.ns.semaphores).toList.map
          (.created · (nsems.setWidth 32).toNat)
      else []
  | .semop semid nsops readSop =>
      let args := semopArgs sys.ns semid nsops readSop
      .called pid args ::
        match args with
        | .error e => resultNote pid fromSigsys (some (.error e))
        | .ok (index, sops) =>
            let outcome := semCheck (sys.ns.semaphoreAt index).sems sops
            appliedNote pid index sops outcome ++
              wokenNotes pid index (outcome.next (sys.ns.semaphoreAt index).sems) sys.tracees ++
              resultNote pid fromSigsys (semResult outcome)
  | .semctl semid semnum cmd cmdarg _ =>
      match lookupIpcObject sys.ns.semaphores semid with
      | .error _ => []
      | .ok index =>
          match semCommand cmd with
          | some .SETVAL =>
              match semctlSetval (sys.ns.semaphoreAt index) semnum cmdarg with
              | .error _ => []
              | .ok _ => [.set index (semnum.setWidth 32).toNat cmdarg.toNat]
          | some .IPC_RMID => [.removed index]
          | _ => []

/-- What a stop notes: the tracee gets its result, or its `ppoll` ends by itself. -/
def SysVIpcConfig.stopNotes (config : SysVIpcConfig) (stop : IpcStop) : List SemNote :=
  match stop, config.waitState with
  | .SYSCALL_ENTER_START, .WSTATE_RESTARTED_INTO_PPOLL_CANCELED
  | .SYSCALL_EXIT_START, .WSTATE_SIGNALED_PPOLL
  | .SYSCALL_EXIT_START, .WSTATE_ENTERED_GETPID =>
      [.resumed config.pid config.statusAfterWait]
  | .SYSCALL_EXIT_START, .WSTATE_ENTERED_PPOLL => [.interrupted config.pid]
  | .SYSCALL_CHAINED_EXIT, .WSTATE_SIGNALED_PPOLL => [.chained config.pid]
  | _, _ => []

/-- What an event notes. -/
def SemEvent.notes (sys : SemSystem) : SemEvent → List SemNote
  | .call pid semCall fromSigsys =>
      if sys.idle pid then semCall.notes sys pid fromSigsys else []
  | .stop pid ipcStop =>
      (sys.tracees.filter fun config => config.pid = pid).flatMap (·.stopNotes ipcStop)
  | .inheritChild _ => []
  | .exit pid => [.gone pid]

/-- The log of a run. -/
def SemSystem.log (sys : SemSystem) : List SemEvent → List SemNote
  | [] => []
  | event :: events => event.notes sys ++ (sys.step event).log events

/-! ## The values -/

/-- The values of a set. -/
def semValues (sems : List (BitVec 16)) : List Int := sems.map fun value => (value.toNat : Int)

/-- The values of all sets of a namespace. -/
def IpcNamespace.values (ns : IpcNamespace) (index : Nat) : List Int :=
  semValues (ns.semaphoreAt index).sems

/-- Values that are not too large. -/
def SemsBounded (sems : List (BitVec 16)) : Prop :=
  ∀ value ∈ sems, value.toNat ≤ sysvipcMaxSemval

theorem semValues_getElem? (sems : List (BitVec 16)) (num : Nat) :
    (semValues sems)[num]? = (sems[num]?).map fun value => (value.toNat : Int) :=
  List.getElem?_map

theorem semValues_set (sems : List (BitVec 16)) (num : Nat) (value : BitVec 16) :
    semValues (sems.set num value) = (semValues sems).set num value.toNat :=
  List.map_set

variable {sems : List (BitVec 16)}

theorem semsBounded_set {value : BitVec 16} {num : Nat} (h : SemsBounded sems)
    (hvalue : value.toNat ≤ sysvipcMaxSemval) :
    SemsBounded (sems.set num value) := by
  intro v hv
  rcases List.mem_or_eq_of_mem_set hv with hv | rfl
  · exact h v hv
  · exact hvalue

/-- One operation of `sysvipc_sem_check`. -/
theorem semCheck_cons_done {sems' : List (BitVec 16)} {sop : SysVIpcSembuf}
    {sops : List SysVIpcSembuf} (hnum : sop.semNum.toNat < sems.length)
    (h : semCheck sems (sop :: sops) = .done sems') :
    ∃ sems1, sop.carryOut (semValues sems) = some (semValues sems1) ∧
      sems1.length = sems.length ∧ (SemsBounded sems → SemsBounded sems1) ∧
      semCheck sems1 sops = .done sems' := by
  have hblocked : (if sop.semFlg &&& ipcNowait ≠ 0 then .fail .EAGAIN else .wait : SemOutcome) ≠
      .done sems' := by
    split <;> simp
  have hvalue : (semValues sems)[sop.semNum.toNat]? =
      some ((sems.getD sop.semNum.toNat 0).toNat : Int) := by
    rw [semValues_getElem?, List.getD, List.getElem?_eq_getElem hnum]
    rfl
  rw [semCheck] at h
  unfold SysVIpcSembuf.carryOut
  rw [hvalue]
  simp only [Option.bind_some] at h ⊢
  generalize sems.getD sop.semNum.toNat 0 = value at h ⊢
  by_cases hop : sop.semOp = 0
  · have hzero : sop.semOp.toInt = 0 := by
      rw [hop]
      rfl
    rw [if_pos hop] at h
    rw [if_pos hzero]
    by_cases hv : value = 0
    · rw [if_neg (not_not.mpr hv)] at h
      refine ⟨sems, ?_, rfl, id, h⟩
      rw [hv]
      rfl
    · rw [if_pos hv] at h
      exact absurd h hblocked
  · have hne : sop.semOp.toInt ≠ 0 := fun heq =>
      hop (BitVec.eq_of_toInt_eq (heq.trans BitVec.toInt_zero.symm))
    rw [if_neg hop] at h
    rw [if_neg hne]
    by_cases hneg : (value.toNat : Int) + sop.semOp.toInt < 0
    · rw [if_pos hneg] at h
      exact absurd h hblocked
    · rw [if_neg hneg] at h
      split at h
      · cases h
      · rename_i hmax
        have hfits : ((BitVec.ofInt 16 (value.toNat + sop.semOp.toInt)).toNat : Int) =
            value.toNat + sop.semOp.toInt := by
          rw [BitVec.toNat_ofInt]
          unfold sysvipcMaxSemval at hmax
          omega
        refine ⟨_, ?_, List.length_set, fun hb => semsBounded_set hb ?_, h⟩
        · rw [if_pos ⟨by omega, by omega⟩, semValues_set, hfits]
        · omega

/-- **What `sysvipc_sem_check` does**: if no operation has to wait or fails, it carries out all
of them in order. -/
theorem semCheck_done {sems' : List (BitVec 16)} {sops : List SysVIpcSembuf}
    (hrange : ∀ sop ∈ sops, sop.semNum.toNat < sems.length) (h : semCheck sems sops = .done sems') :
    carryOutAll (semValues sems) sops = some (semValues sems') ∧ sems'.length = sems.length ∧
      (SemsBounded sems → SemsBounded sems') := by
  induction sops generalizing sems with
  | nil =>
      obtain rfl := Waiters.Outcome.done.inj h
      exact ⟨rfl, rfl, id⟩
  | cons sop sops ih =>
      obtain ⟨sems1, hone, hlength, hbounded, hrest⟩ :=
        semCheck_cons_done (hrange sop List.mem_cons_self) h
      obtain ⟨hall, hlength', hbounded'⟩ := ih (fun sop hsop => by
        rw [hlength]
        exact hrange sop (List.mem_cons_of_mem _ hsop)) hrest
      refine ⟨?_, hlength'.trans hlength, hbounded' ∘ hbounded⟩
      rw [carryOutAll, List.foldlM_cons, hone]
      exact hall

/-- What some notes make of the values of one set. -/
structure Carried (index : Nat) (log : List SemNote) (sems sems' : List (BitVec 16)) : Prop where
  values : ∀ values, replayNotes (Function.update values index (semValues sems)) log =
    some (Function.update values index (semValues sems'))
  length : sems'.length = sems.length
  bounded : SemsBounded sems → SemsBounded sems'

theorem replayNotes_append (values : Nat → List Int) (log log' : List SemNote) :
    replayNotes values (log ++ log') =
      (replayNotes values log).bind fun values => replayNotes values log' :=
  List.foldlM_append

theorem Carried.refl (index : Nat) (sems : List (BitVec 16)) : Carried index [] sems sems :=
  ⟨fun _ => rfl, rfl, id⟩

theorem Carried.trans {index : Nat} {log log' : List SemNote} {sems' sems'' : List (BitVec 16)}
    (h : Carried index log sems sems') (h' : Carried index log' sems' sems'') :
    Carried index (log ++ log') sems sems'' := by
  refine ⟨fun values => ?_, h'.length.trans h.length, h'.bounded ∘ h.bounded⟩
  rw [replayNotes_append, h.values, Option.bind_some, h'.values]

/-- One turn: the array is carried out, or nothing is. -/
theorem appliedNote_carried (pid index : Nat) {sops : List SysVIpcSembuf}
    (hrange : ∀ sop ∈ sops, sop.semNum.toNat < sems.length) :
    Carried index (appliedNote pid index sops (semCheck sems sops)) sems
      ((semCheck sems sops).next sems) := by
  cases houtcome : semCheck sems sops with
  | wait => exact .refl index sems
  | fail e => exact .refl index sems
  | done sems' =>
      obtain ⟨hall, hlength, hbounded⟩ := semCheck_done hrange houtcome
      refine ⟨fun values => ?_, hlength, hbounded⟩
      simp only [appliedNote, replayNotes, List.foldlM_cons, List.foldlM_nil, SemNote.replay,
        Function.update_self, hall, Option.map_some, Function.update_idem, Waiters.Outcome.next]
      rfl

/-- The turns of the other tracees. -/
theorem wokenNotes_carried (pid index : Nat) {tracees : List SysVIpcConfig}
    (hrange : ∀ config ∈ tracees, config.waitsFor index = true →
      ∀ sop ∈ config.semopSops, sop.semNum.toNat < sems.length) :
    Carried index (wokenNotes pid index sems tracees) sems
      (wakeWaiters pid index sems tracees).2 := by
  induction tracees generalizing sems with
  | nil => exact .refl index sems
  | cons config tracees ih =>
      have hrest : ∀ sems' : List (BitVec 16), sems'.length = sems.length →
          ∀ config ∈ tracees, config.waitsFor index = true →
            ∀ sop ∈ config.semopSops, sop.semNum.toNat < sems'.length := by
        intro sems' hlength config hconfig hwaits sop hsop
        rw [hlength]
        exact hrange config (List.mem_cons_of_mem _ hconfig) hwaits sop hsop
      rw [wokenNotes, wakeWaiters]
      split
      · rename_i hwaits
        have hone := appliedNote_carried config.pid index
          (hrange config List.mem_cons_self hwaits.2)
        refine hone.trans ?_
        cases houtcome : semCheck sems config.semopSops with
        | wait => exact ih (hrest sems rfl)
        | fail e => exact ih (hrest sems rfl)
        | done sems' =>
            rw [houtcome] at hone
            exact ih (hrest sems' hone.length)
      · exact ih (hrest sems rfl)

end PRoot
