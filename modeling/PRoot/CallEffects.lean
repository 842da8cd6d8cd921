import Mathlib.Data.List.Forall2
import PRoot.IpcSteps

/-!
# What System V IPC calls do to threads

A call changes the thread that makes it, and wakes others.

* `CallChange`: what a call makes of a thread;
* `run_changes`: the calls do no more.
-/

namespace PRoot

/-! ## Semaphores -/

/-- What a semaphore call makes of a configuration. -/
inductive SemChange (pid : Nat) (config : SysVIpcConfig) : SysVIpcConfig → Prop
  | same : SemChange pid config config
  | woken {status : Except Errno (BitVec 32)} {semopSops : List SysVIpcSembuf}
      (hreason : config.waitReason = .WR_WAIT_SEMOP) :
      SemChange pid config (wakeTracee { config with semopSops } status)
  | own {waitReason : SysVIpcWaitReason} {waitingObjectIndex : Nat}
      {semopSops : List SysVIpcSembuf} (hpid : config.pid = pid)
      (hreason : waitReason = .WR_WAIT_SEMOP ∨ waitReason = .WR_NOT_WAITING) :
      SemChange pid config { config with waitReason, waitingObjectIndex, semopSops }

theorem waitsFor_reason {config : SysVIpcConfig} {index : Nat}
    (h : config.waitsFor index = true) : config.waitReason = .WR_WAIT_SEMOP := by
  rw [SysVIpcConfig.waitsFor, decide_eq_true_iff] at h
  exact h.1

/-- The loop of `semop` wakes others. -/
theorem wakeWaiters_changes (pid index : Nat) (sems : List (BitVec 16))
    (tracees : List SysVIpcConfig) :
    List.Forall₂ (fun config config' => SemChange pid config config' ∧
        (config.pid = pid → config' = config))
      tracees (wakeWaiters pid index sems tracees).1 := by
  induction tracees generalizing sems with
  | nil => exact .nil
  | cons config rest ih =>
      rw [wakeWaiters]
      split
      · rename_i hwaits
        have hreason := waitsFor_reason hwaits.2
        split
        · exact .cons ⟨.same, fun _ => rfl⟩ (ih _)
        · exact .cons ⟨.woken hreason, fun hpid => absurd hpid hwaits.1⟩ (ih _)
        · exact .cons ⟨.woken hreason, fun hpid => absurd hpid hwaits.1⟩ (ih _)
      · exact .cons ⟨.same, fun _ => rfl⟩ (ih _)

theorem semop_changes (sys : SemSystem) (pid : Nat) (semid nsops : BitVec 64)
    (readSop : Nat → Except Errno SysVIpcSembuf) :
    List.Forall₂ (SemChange pid) sys.tracees (semop sys pid semid nsops readSop).1.tracees := by
  have hset : ∀ {index : Nat} {sems : List (BitVec 16)}
      (f : SysVIpcConfig → SysVIpcConfig),
      (∀ config : SysVIpcConfig, config.pid = pid → SemChange pid config (f config)) →
      List.Forall₂ (SemChange pid) sys.tracees
        (setConfig pid f (wakeWaiters pid index sems sys.tracees).1) := by
    intro index sems f hf
    rw [setConfig, List.forall₂_map_right_iff]
    refine (wakeWaiters_changes pid index sems sys.tracees).imp fun config config' h => ?_
    split
    · rename_i hpid'
      by_cases hpid : config.pid = pid
      · rw [h.2 hpid]
        exact hf config hpid
      · cases h.1 with
        | same => exact absurd hpid' hpid
        | woken hreason => exact absurd hpid' hpid
        | own hpid'' => exact absurd hpid'' hpid
    · exact h.1
  unfold semop
  split
  · exact List.forall₂_same.mpr fun _ _ => .same
  · dsimp only
    split
    · exact hset _ fun config hpid => .own hpid (Or.inl rfl)
    · exact hset _ fun config hpid => .own hpid (Or.inr rfl)
    · exact hset _ fun config hpid => .own hpid (Or.inr rfl)

theorem SemCall.run_changes (sys : SemSystem) (pid : Nat) (call : SemCall) :
    List.Forall₂ (SemChange pid) sys.tracees (call.run sys pid).1.tracees := by
  have hsame : List.Forall₂ (SemChange pid) sys.tracees sys.tracees :=
    List.forall₂_same.mpr fun _ _ => .same
  cases call with
  | semget key nsems semflg => exact hsame
  | semop semid nsops readSop => exact semop_changes sys pid semid nsops readSop
  | semctl semid semnum cmd cmdarg written =>
      show List.Forall₂ _ _ (PRoot.semctl sys semid semnum cmd cmdarg written).1.tracees
      unfold PRoot.semctl
      split
      · exact hsame
      · dsimp only
        split
        · exact hsame
        · split <;> exact hsame
        · rw [wakeAll, List.forall₂_map_right_iff]
          refine List.forall₂_same.mpr fun config _ => ?_
          split
          · rename_i hwaits
            exact .woken (waitsFor_reason hwaits)
          · exact .same
        · exact hsame
        · exact hsame
        · exact hsame

/-! ## All calls -/

namespace IpcSystem

/-- **What a call makes of a thread.** -/
inductive CallChange (sys : IpcSystem) (pid : Nat) (call : IpcRequest) (u : IpcThread) :
    IpcThread → Prop
  | same : CallChange sys pid call u u
  /-- A message that was sent is for it. -/
  | retried {msqid msgsz : BitVec 64} {readType : Except Errno (BitVec 64)}
      {readText : Except Errno (Nat → BitVec 8)} {now : Int} {index : Nat} {item : MsgQueueItem}
      (hcall : call = .msgsnd msqid msgsz readType readText now)
      (hitem : sys.msgsndItem msqid msgsz readType readText = .ok (index, item))
      (hwaits : waitsForItem index item u = true) : CallChange sys pid call u (retry u)
  /-- The queue it waits for is removed. -/
  | removed {msqid cmd : BitVec 64} {written : Except Errno Unit} {index : Nat}
      (hcall : call = .msgctl msqid cmd written) (hcmd : msgCommand cmd = some .IPC_RMID)
      (hlookup : lookupIpcObject sys.queues msqid = .ok index)
      (hwaits : u.waitsFor .WR_WAIT_QUEUE_RECV index = true) :
      CallChange sys pid call u (u.wake (.error .EIDRM))
  /-- It waited for semaphores. -/
  | semWoken {status : Except Errno (BitVec 32)} {semopSops : List SysVIpcSembuf}
      (hreason : u.waitReason = .WR_WAIT_SEMOP) :
      CallChange sys pid call u
        { u with config := wakeTracee { u.config with semopSops } status }
  /-- It made the call, and waits for semaphores or goes on. -/
  | semOwn {waitReason : SysVIpcWaitReason} {waitingObjectIndex : Nat}
      {semopSops : List SysVIpcSembuf} (hpid : u.config.pid = pid)
      (hreason : waitReason = .WR_WAIT_SEMOP ∨ waitReason = .WR_NOT_WAITING) :
      CallChange sys pid call u
        { u with config := { u.config with waitReason, waitingObjectIndex, semopSops } }
  /-- It made the call, and is answered. -/
  | received {msgrcv : MsgrcvArgs} (hpid : u.config.pid = pid) :
      CallChange sys pid call u { u with msgrcv }
  /-- It made the call, and waits for a message. -/
  | waits {msqid : BitVec 64} {args : MsgrcvArgs} {written : Except Errno Unit} {now : Int}
      {index : Nat} (hpid : u.config.pid = pid) (hcall : call = .msgrcv msqid args written now)
      (hlookup : lookupIpcObject sys.queues msqid = .ok index)
      (hwaits : receive args (sys.queueAt index).items written = .wait) :
      CallChange sys pid call u
        ({ u with msgrcv := args }.waitFor .WR_WAIT_QUEUE_RECV index)
  /-- It made the call, and waits for the helper. -/
  | busy {shmid : BitVec 64} {index : Nat} (hpid : u.config.pid = pid)
      (hcall : call = .shmat shmid) (hlookup : lookupIpcObject sys.shms shmid = .ok index)
      (hbusy : sys.threads.any (·.chainState.pastSocket) = true) :
      CallChange sys pid call u (u.waitFor .WR_WAIT_SHMAT_HELPER_BUSY index)
  /-- It made the call, and connects to the helper. -/
  | connects {shmid : BitVec 64} {index : Nat} (hpid : u.config.pid = pid)
      (hcall : call = .shmat shmid) (hlookup : lookupIpcObject sys.shms shmid = .ok index)
      (hidle : sys.threads.any (·.chainState.pastSocket) = false) :
      CallChange sys pid call u
        { u.waitFor u.waitReason index with
          next := some .socket, chainState := .CSTATE_SHMAT_SOCKET }
  /-- It made the call, and unmaps. -/
  | unmaps {addr : BitVec 64} {mapping : ShmMapping} (hpid : u.config.pid = pid)
      (hcall : call = .shmdt addr) :
      CallChange sys pid call u
        { u with next := some (.munmap addr mapping.size), chainState := .CSTATE_SINGLE }

theorem forall₂_modify {R : IpcThread → IpcThread → Prop} (sys : IpcSystem) (pid : Nat)
    (f : IpcThread → IpcThread) (hsame : ∀ u, R u u) (hf : ∀ u, u.config.pid = pid → R u (f u)) :
    List.Forall₂ R sys.threads (sys.modify pid f).threads := by
  rw [modify, List.forall₂_map_right_iff]
  refine List.forall₂_same.mpr fun u _ => ?_
  split
  · rename_i hpid
    exact hf u hpid
  · exact hsame u

theorem forall₂_zipWith {R : SysVIpcConfig → SysVIpcConfig → Prop}
    {S : IpcThread → IpcThread → Prop} {threads : List IpcThread} {configs : List SysVIpcConfig}
    (h : List.Forall₂ R (threads.map (·.config)) configs)
    (hS : ∀ u config, R u.config config → S u { u with config }) :
    List.Forall₂ S threads (List.zipWith (fun t config => { t with config }) threads configs) := by
  induction threads generalizing configs with
  | nil => exact .nil
  | cons u threads ih =>
      cases h with
      | cons hhead htail => exact .cons (hS u _ hhead) (ih htail)

variable (sys : IpcSystem) (t : IpcThread)

theorem msgsnd_changes (msqid msgsz : BitVec 64) (readType : Except Errno (BitVec 64))
    (readText : Except Errno (Nat → BitVec 8)) (now : Int) :
    List.Forall₂ (CallChange sys t.config.pid (.msgsnd msqid msgsz readType readText now))
      sys.threads (sys.msgsnd t.config.pid msqid msgsz readType readText now).1.threads := by
  have hsame : ∀ threads, List.Forall₂
      (CallChange sys t.config.pid (.msgsnd msqid msgsz readType readText now)) threads threads :=
    fun threads => List.forall₂_same.mpr fun _ _ => .same
  unfold msgsnd
  split
  · exact hsame _
  · rename_i index item hitem
    show List.Forall₂ _ _ (wakeReceiver index item sys.threads)
    induction sys.threads with
    | nil => exact .nil
    | cons u threads ih =>
        rw [wakeReceiver]
        split
        · rename_i hwaits
          exact .cons (.retried rfl hitem hwaits) (hsame threads)
        · exact .cons .same ih

theorem msgrcvCall_changes (msqid : BitVec 64) (args : MsgrcvArgs) (written : Except Errno Unit)
    (now : Int) :
    List.Forall₂ (CallChange sys t.config.pid (.msgrcv msqid args written now)) sys.threads
      (sys.msgrcvCall t.config.pid msqid args written now).1.threads := by
  have hsame : ∀ u, CallChange sys t.config.pid (.msgrcv msqid args written now) u u :=
    fun _ => .same
  have hreceived : List.Forall₂ (CallChange sys t.config.pid (.msgrcv msqid args written now))
      sys.threads (sys.modify t.config.pid fun t => { t with msgrcv := args }).threads :=
    forall₂_modify sys _ _ hsame fun u hpid => .received hpid
  unfold msgrcvCall
  split
  · exact List.forall₂_same.mpr fun _ _ => .same
  · rename_i index hlookup
    unfold doMsgrcv
    split
    · exact hreceived
    · rename_i hwaits
      rw [modify_modify]
      exact forall₂_modify sys _ _ hsame fun u hpid => .waits hpid rfl hlookup hwaits
    · exact hreceived

theorem shmat_changes (shmid : BitVec 64) :
    List.Forall₂ (CallChange sys t.config.pid (.shmat shmid)) sys.threads
      (sys.shmat t shmid).1.threads := by
  unfold shmat
  split
  · exact List.forall₂_same.mpr fun _ _ => .same
  · rename_i index hlookup
    dsimp only
    split
    · rename_i hbusy
      exact forall₂_modify sys _ _ (fun _ => .same) fun u hpid => .busy hpid rfl hlookup hbusy
    · rename_i hidle
      exact forall₂_modify sys _ _ (fun _ => .same) fun u hpid =>
        .connects hpid rfl hlookup (Bool.eq_false_iff.mpr hidle)

theorem shmdt_changes (addr : BitVec 64) :
    List.Forall₂ (CallChange sys t.config.pid (.shmdt addr)) sys.threads
      (sys.shmdt t addr).1.threads := by
  unfold shmdt
  split
  · exact List.forall₂_same.mpr fun _ _ => .same
  · dsimp only
    rw [(freeMapping_same _ _).threads]
    exact forall₂_modify sys _ _ (fun _ => .same) fun u hpid => .unmaps hpid rfl

/-- **The calls change threads in no other way.** -/
theorem run_changes (call : IpcRequest) :
    List.Forall₂ (CallChange sys t.config.pid call) sys.threads (call.run sys t).1.threads := by
  have hsame : List.Forall₂ (CallChange sys t.config.pid call) sys.threads sys.threads :=
    List.forall₂_same.mpr fun _ _ => .same
  cases call with
  | msgget key msgflg => exact hsame
  | msgsnd msqid msgsz readType readText now =>
      exact msgsnd_changes sys t msqid msgsz readType readText now
  | msgrcv msqid args written now => exact msgrcvCall_changes sys t msqid args written now
  | msgctl msqid cmd written =>
      show List.Forall₂ _ _ (sys.msgctl msqid cmd written).1.threads
      unfold msgctl
      split
      · exact hsame
      · rename_i index hlookup
        split
        · rename_i hcmd
          show List.Forall₂ _ _ (wakeReceivers index sys.threads)
          rw [wakeReceivers, List.forall₂_map_right_iff]
          refine List.forall₂_same.mpr fun u _ => ?_
          split
          · rename_i hwaits
            exact .removed rfl hcmd hlookup hwaits
          · exact .same
        · exact hsame
        · exact hsame
  | sem call =>
      have hconfigs := SemCall.run_changes
        ⟨⟨[], sys.semaphores, []⟩, sys.threads.map (·.config)⟩ t.config.pid call
      refine forall₂_zipWith hconfigs fun u config h => ?_
      cases h with
      | same => exact .same
      | woken hreason => exact .semWoken hreason
      | own hpid hreason => exact .semOwn hpid hreason
  | shmget key shmSize shmflg fd => exact hsame
  | shmat shmid => exact shmat_changes sys t shmid
  | shmdt addr => exact shmdt_changes sys t addr
  | shmctl shmid cmd written =>
      show List.Forall₂ _ _ (sys.shmctl shmid cmd written).1.threads
      rw [(shmctl_same sys shmid cmd written).threads]
      exact hsame

theorem CallChange.pid {sys : IpcSystem} {pid : Nat} {call : IpcRequest} {u u' : IpcThread}
    (h : CallChange sys pid call u u') : u'.config.pid = u.config.pid := by
  cases h <;> rfl

/-! ## Steps of a shmat -/

/-- What a step of a `shmat` makes of the threads: one that found the helper busy goes on. -/
inductive ChainChange (pid : Nat) (u : IpcThread) : IpcThread → Prop
  | same (hother : u.config.pid ≠ pid) : ChainChange pid u u
  | restarted (hother : u.config.pid ≠ pid) (hreason : u.waitReason = .WR_WAIT_SHMAT_HELPER_BUSY)
      (hwakeable : u.wakeable = true) : ChainChange pid u (restartShmat u)
  | own {u' : IpcThread} (hpid : u.config.pid = pid) (hstep : ChainStep u u') :
      ChainChange pid u u'

section Chain

variable {sys : IpcSystem} {t : IpcThread} {sys' : IpcSystem} {pid : Nat}

/-- A thread that is in its chain is not woken. -/
theorem wakePending_changes {before threads threads' : List IpcThread}
    (hown : List.Forall₂ (fun u v => ChainChange pid u v ∧ (u.config.pid ≠ pid → v = u) ∧
      (u.config.pid = pid → v.waitReason = .WR_NOT_WAITING)) before threads)
    (h : wakePending threads = some threads') :
    List.Forall₂ (ChainChange pid) before threads' := by
  induction hown generalizing threads' with
  | nil =>
      cases h
      exact .nil
  | @cons u v before threads hhead htail ih =>
      rw [wakePending] at h
      split at h
      · rename_i hreason
        split at h
        · rename_i hwakeable
          cases h
          have hother : u.config.pid ≠ pid := fun hpid => by
            rw [hhead.2.2 hpid] at hreason
            cases hreason
          obtain rfl := hhead.2.1 hother
          exact .cons (.restarted hother hreason hwakeable) (htail.imp fun _ _ h => h.1)
        · cases h
      · obtain ⟨rest, hrest, rfl⟩ := Option.map_eq_some_iff.mp h
        exact .cons hhead.1 (ih hrest)

/-- A change of one thread, before the others are woken. -/
theorem modify_before (f : IpcThread → IpcThread)
    (hidle : ∀ u ∈ sys.threads, u.config.pid = pid → u.waitReason = .WR_NOT_WAITING)
    (hf : ∀ u, u.config.pid = pid → ChainStep u (f u)) :
    List.Forall₂ (fun u v => ChainChange pid u v ∧ (u.config.pid ≠ pid → v = u) ∧
      (u.config.pid = pid → v.waitReason = .WR_NOT_WAITING)) sys.threads
      (sys.modify pid f).threads := by
  rw [modify, List.forall₂_map_right_iff]
  refine List.forall₂_same.mpr fun u hu => ?_
  split
  · rename_i hpid
    have hstep := hf u hpid
    refine ⟨.own hpid hstep, fun hother => absurd hpid hother, fun _ => ?_⟩
    rw [IpcThread.waitReason, hstep.config]
    exact hidle u hu hpid
  · rename_i hother
    exact ⟨.same hother, fun _ => rfl, fun hpid => absurd hpid hother⟩

theorem wakePendingShmat_changes {middle : IpcSystem}
    (hown : List.Forall₂ (fun u v => ChainChange pid u v ∧ (u.config.pid ≠ pid → v = u) ∧
      (u.config.pid = pid → v.waitReason = .WR_NOT_WAITING)) sys.threads middle.threads)
    (h : middle.wakePendingShmat = some sys') :
    List.Forall₂ (ChainChange pid) sys.threads sys'.threads := by
  obtain ⟨threads, hthreads, rfl⟩ := Option.map_eq_some_iff.mp h
  exact wakePending_changes hown hthreads

theorem failShmat_changes {f : IpcThread → IpcThread} (hpid : t.config.pid = pid)
    (hidle : ∀ u ∈ sys.threads, u.config.pid = pid → u.waitReason = .WR_NOT_WAITING)
    (hf : ∀ u, u.config.pid = pid → ChainStep u { f u with chainState := .CSTATE_NOT_CHAINED })
    (hkeeps : ∀ u, (f u).config.pid = u.config.pid)
    (h : failShmat (sys.modify pid f) t = some sys') :
    List.Forall₂ (ChainChange pid) sys.threads sys'.threads := by
  obtain ⟨mapping, -, hwoken⟩ := Option.bind_eq_some_iff.mp h
  refine wakePendingShmat_changes ?_ hwoken
  rw [(freeMapping_same _ _).threads, hpid, modify_modify _ _ hkeeps]
  exact modify_before _ hidle hf

/-- **What a step of a `shmat` does to the threads.** -/
theorem shmatChain_changes {result : BitVec 64} {answers : StopAnswers} {goesOn : Bool}
    (hpid : t.config.pid = pid)
    (hidle : ∀ u ∈ sys.threads, u.config.pid = pid → u.waitReason = .WR_NOT_WAITING)
    (h : shmatChain sys t result answers = some (sys', goesOn)) :
    List.Forall₂ (ChainChange pid) sys.threads sys'.threads := by
  subst hpid
  cases shmatChain_step h with
  | fails hf hnot hfail =>
      exact failShmat_changes rfl hidle (fun u _ => hf u)
        (fun u => congrArg SysVIpcConfig.pid (hf u).config) hfail
  | goes hsys hf hpast hnot =>
      have hgoes := (modify_before _ hidle fun u _ => hf u).imp fun _ _ h => h.1
      rcases hsys with rfl | ⟨fd, rfl⟩
      · exact hgoes
      · exact hgoes
  | maps hmapping hf hover hmmap hwoken =>
      refine wakePendingShmat_changes ?_ hwoken
      exact modify_before _ hidle fun u _ => hf u

end Chain

end IpcSystem

end PRoot
