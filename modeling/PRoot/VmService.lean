import PRoot.AbortableRuns

/-!
# The virtual machines of the app

`VmService` runs one QEMU process for each architecture, and `MainActivity` starts and stops them,
imports their disk images and clears their slots (`VmService.kt`, `MainActivity.kt`).  Processes die
and are reaped at any time, and imports and clears run on threads of their own.

* `VmForge.step`: an action of the user, of a thread or of a process;
* `Safe`: one live process for each disk, registered, and no disk changed while it is in use;
* `step_safe_iff`: when an action keeps that;
* `step_slot`: an action on one architecture leaves the slot of the other alone;
* `one_writer_iff`: a run stays safe exactly if all its actions are `careful`.
-/

namespace VmForge

inductive GuestArch
  | ARM64 | X86_64
  deriving DecidableEq, Repr

/-- `archKey`, which is `dirName` too. -/
def archKey : GuestArch → String
  | .X86_64 => "x86_64"
  | .ARM64 => "arm64"

/-- The architecture that `onStartCommand` takes a key for. -/
def archOf (key : String) : GuestArch := if key = "x86_64" then .X86_64 else .ARM64

/-- A process runs, was told to terminate, has exited, or was reaped as well. -/
inductive Phase
  | running | terminating | exited | reaped
  deriving DecidableEq, Repr

/-- A QEMU process, which uses the disk image of its architecture. -/
structure VmProcess where
  arch : GuestArch
  phase : Phase
  deriving DecidableEq, Repr

namespace VmProcess

variable (process : VmProcess)

/-- `Process.isAlive`, which is not false before the process was reaped. -/
def isAlive : Bool := process.phase ≠ .reaped

/-- The process exists. -/
def live : Bool := process.phase = .running || process.phase = .terminating

/-- `Process.destroy` sends a signal; `ends` says whether the process has ended on return. -/
def destroy (ends : Bool) : VmProcess :=
  if process.live then { process with phase := if ends then .exited else .terminating }
  else process

def exit : VmProcess := if process.live then { process with phase := .exited } else process

def reap : VmProcess :=
  if process.phase = .exited then { process with phase := .reaped } else process

end VmProcess

/-- The app.  Processes are numbered as they are launched; `intents` are the start intents that are
not delivered yet, `imports` the directories of the threads that import a disk image, `clears` those
of the jobs of `diskIo`.  `disks` has the disk images by their directories, as a number that each
change makes greater, and `harmed` says that one was changed while it was in use. -/
structure App where
  processes : String → Option Nat
  launched : List VmProcess
  intents : List String
  imports : List String
  clears : List String
  disks : String → Option Nat
  harmed : Bool

/-- What happens: clicks of the user, the delivery of a start intent, the end of a process, and the
steps of the threads that import or clear. -/
inductive AppAction
  | startClick (arch : GuestArch)
  /-- `fails`: the service cannot enter the foreground, or QEMU cannot be launched. -/
  | startCommand (fails : Bool)
  /-- `bound`: the activity is bound to the service. -/
  | stopClick (arch : GuestArch) (bound ends : Bool)
  | exits (id : Nat)
  | reaped (id : Nat)
  | importPicked (arch : GuestArch)
  | importOpens (thread : Nat)
  | importWrites (thread : Nat)
  | importEnds (thread : Nat)
  | clearConfirmed (arch : GuestArch)
  | clearDeletes
  | clearEnds
  deriving DecidableEq, Repr

namespace App

variable (s : App)

/-- `isRunning`. -/
def isRunning (key : String) : Bool :=
  (s.processes key).any fun id => (s.launched[id]?).any (·.isAlive)

/-- A live process uses the disk image of a directory. -/
def usesDisk (dir : String) : Bool :=
  s.launched.any fun process => process.live && archKey process.arch == dir

def setProcess (key : String) (id : Option Nat) : String → Option Nat :=
  fun other => if other = key then id else s.processes other

/-- `onStartCommand`, where nothing runs. -/
def launch (key : String) : App :=
  { s with
    launched := s.launched ++ [⟨archOf key, .running⟩]
    processes := s.setProcess key (some s.launched.length) }

/-- `stopVm`. -/
def stopVm (key : String) (ends : Bool) : App :=
  match s.processes key with
  | none => s
  | some id =>
      { s with
        launched := s.launched.modify id (·.destroy ends)
        processes := s.setProcess key none }

/-- A disk image is overwritten, or deleted. -/
def changeDisk (dir : String) (image : Option Nat) : App :=
  { s with
    disks := fun other => if other = dir then image else s.disks other
    harmed := s.harmed || s.usesDisk dir }

/-- The number of the next image in a directory. -/
def nextImage (dir : String) : Nat := (s.disks dir).elim 0 (· + 1)

def step : AppAction → Option App
  | .startClick arch =>
      some (if (s.disks (archKey arch)).isSome then
        { s with intents := s.intents ++ [archKey arch] } else s)
  | .startCommand fails =>
      s.intents.head?.map fun key =>
        let s := { s with intents := s.intents.tail }
        if s.isRunning key || fails then s else s.launch key
  | .stopClick arch bound ends =>
      some (if bound && s.isRunning (archKey arch) then s.stopVm (archKey arch) ends else s)
  | .exits id => some { s with launched := s.launched.modify id (·.exit) }
  | .reaped id => some { s with launched := s.launched.modify id (·.reap) }
  | .importPicked arch => some { s with imports := s.imports ++ [archKey arch] }
  | .importOpens thread | .importWrites thread =>
      (s.imports[thread]?).map fun dir => s.changeDisk dir (some (s.nextImage dir))
  | .importEnds thread => some { s with imports := s.imports.eraseIdx thread }
  | .clearConfirmed arch => some { s with clears := s.clears ++ [archKey arch] }
  | .clearDeletes => s.clears.head?.map fun dir => s.changeDisk dir none
  | .clearEnds => some { s with clears := s.clears.tail }

/-- **One writer for each disk**: at most one live process uses the disk image of an architecture,
every live process is registered under its architecture, and no disk image was changed while it was
in use. -/
structure Safe (s : App) : Prop where
  one : ∀ (i j : Nat) (p q : VmProcess), s.launched[i]? = some p → s.launched[j]? = some q →
    p.live = true → q.live = true → p.arch = q.arch → i = j
  registered : ∀ (i : Nat) (p : VmProcess), s.launched[i]? = some p → p.live = true →
    s.processes (archKey p.arch) = some i
  unharmed : s.harmed = false

/-- The start intents are for an architecture, and what is registered is a process of it. -/
structure Keyed (s : App) : Prop where
  intents : ∀ key ∈ s.intents, ∃ arch, key = archKey arch
  processes : ∀ key id, s.processes key = some id →
    ∃ p, s.launched[id]? = some p ∧ archKey p.arch = key

/-- An action that is careful: a process that is stopped has ended before it is forgotten, and no
disk image is changed while it is in use. -/
def careful : AppAction → Bool
  | .stopClick arch bound ends =>
      !(bound && s.isRunning (archKey arch)) || ends ||
        (s.processes (archKey arch)).all fun id => (s.launched[id]?).all fun p => !p.live
  | .importOpens thread | .importWrites thread => (s.imports[thread]?).all fun dir => !s.usesDisk dir
  | .clearDeletes => s.clears.head?.all fun dir => !s.usesDisk dir
  | _ => true

/-- What there is of an architecture: what is registered, its processes, and its disk image. -/
def slot (arch : GuestArch) : Option Nat × (Nat → Option VmProcess) × Option Nat :=
  (s.processes (archKey arch), fun id => (s.launched[id]?).filter (·.arch = arch),
    s.disks (archKey arch))

/-- The architecture that an action is about, by its key. -/
def key : AppAction → Option String
  | .startClick arch | .stopClick arch _ _ | .importPicked arch | .clearConfirmed arch =>
      some (archKey arch)
  | .startCommand _ => s.intents.head?
  | .exits id | .reaped id => (s.launched[id]?).map (archKey ·.arch)
  | .importOpens thread | .importWrites thread | .importEnds thread => s.imports[thread]?
  | .clearDeletes | .clearEnds => s.clears.head?

end App

/-! ## Keys and processes -/

theorem archKey_inj {a b : GuestArch} (h : archKey a = archKey b) : a = b := by
  cases a <;> cases b <;> first | rfl | exact absurd h (by decide)

theorem archOf_archKey (arch : GuestArch) : archOf (archKey arch) = arch := by
  cases arch <;> rfl

namespace VmProcess

variable (p : VmProcess)

theorem isAlive_of_live (h : p.live = true) : p.isAlive = true := by
  obtain ⟨arch, phase⟩ := p
  cases phase <;> first | rfl | exact absurd h (by simp [live])

/-- What only ends processes. -/
structure Ends (f : VmProcess → VmProcess) : Prop where
  arch : ∀ p, (f p).arch = p.arch
  live : ∀ p, (f p).live = true → p.live = true

theorem destroy_ends (ends : Bool) : Ends (·.destroy ends) where
  arch p := by
    unfold destroy
    split_ifs <;> rfl
  live p h := by
    by_contra hdead
    rw [destroy, if_neg hdead] at h
    exact hdead h

theorem exit_ends : Ends exit where
  arch p := by
    unfold exit
    split_ifs <;> rfl
  live p h := by
    by_contra hdead
    rw [exit, if_neg hdead] at h
    exact hdead h

theorem reap_ends : Ends reap where
  arch p := by
    unfold reap
    split_ifs <;> rfl
  live p h := by
    unfold reap at h
    split_ifs at h
    · exact absurd h (by simp [live])
    · exact h

end VmProcess

namespace App

variable {s s' : App} {action : AppAction}

variable {f : VmProcess → VmProcess}

theorem modify_live (hf : VmProcess.Ends f) {id i : Nat} {p : VmProcess}
    (h : (s.launched.modify id f)[i]? = some p) :
    ∃ q, s.launched[i]? = some q ∧ q.arch = p.arch ∧ (p.live = true → q.live = true) := by
  rw [List.getElem?_modify] at h
  obtain ⟨q, hq, hp⟩ := Option.map_eq_some_iff.mp h
  refine ⟨q, hq, ?_, ?_⟩
  · rw [← hp]
    split_ifs
    · exact (hf.arch q).symm
    · rfl
  · rw [← hp]
    split_ifs
    · exact hf.live q
    · exact fun hlive => hlive

/-- Processes end, and nothing else happens. -/
theorem Safe.ends (h : s.Safe) (hf : VmProcess.Ends f) (id : Nat) :
    Safe { s with launched := s.launched.modify id f } where
  one i j p q hi hj hp hq harch := by
    obtain ⟨p', hi, hparch, hplive⟩ := modify_live hf hi
    obtain ⟨q', hj, hqarch, hqlive⟩ := modify_live hf hj
    exact h.one i j p' q' hi hj (hplive hp) (hqlive hq) (hparch.trans (harch.trans hqarch.symm))
  registered i p hi hp := by
    obtain ⟨q, hi, harch, hlive⟩ := modify_live hf hi
    rw [← harch]
    exact h.registered i q hi (hlive hp)
  unharmed := h.unharmed

theorem Keyed.ends (h : s.Keyed) (hf : VmProcess.Ends f) (id : Nat) :
    Keyed { s with launched := s.launched.modify id f } where
  intents := h.intents
  processes key other hkey := by
    obtain ⟨p, hp, harch⟩ := h.processes key other hkey
    have hget : (s.launched.modify id f)[other]? =
        some (if id = other then f p else p) := by
      rw [List.getElem?_modify, hp]
      rfl
    refine ⟨_, hget, ?_⟩
    split_ifs
    · rw [hf.arch, harch]
    · exact harch

/-- A live process counts as running, if it is registered. -/
theorem Safe.isRunning (h : s.Safe) {i : Nat} {p : VmProcess} (hi : s.launched[i]? = some p)
    (hp : p.live = true) : s.isRunning (archKey p.arch) = true := by
  rw [App.isRunning, h.registered i p hi hp, Option.any_some, hi, Option.any_some]
  exact p.isAlive_of_live hp

/-- A disk image is changed while it is not in use, or the app is not safe any more. -/
theorem Safe.changeDisk_iff (h : s.Safe) (dir : String) (image : Option Nat) :
    (s.changeDisk dir image).Safe ↔ s.usesDisk dir = false := by
  constructor
  · intro hsafe
    have hunharmed : (s.harmed || s.usesDisk dir) = false := hsafe.unharmed
    exact (Bool.or_eq_false_iff.mp hunharmed).2
  · intro hunused
    exact ⟨h.one, h.registered, Bool.or_eq_false_iff.mpr ⟨h.unharmed, hunused⟩⟩

/-- Where nothing runs, the new process is the only one. -/
theorem Safe.launch (h : s.Safe) {arch : GuestArch} (hidle : s.isRunning (archKey arch) = false) :
    (s.launch (archKey arch)).Safe := by
  have hold : ∀ (i : Nat) (p : VmProcess), (s.launched ++ [⟨arch, .running⟩])[i]? = some p →
      p.live = true → (s.launched[i]? = some p ∧ p.arch ≠ arch) ∨
        i = s.launched.length ∧ p.arch = arch := by
    intro i p hi hp
    rw [List.getElem?_append] at hi
    split_ifs at hi with hlt
    · refine .inl ⟨hi, fun harch => ?_⟩
      rw [← harch, h.isRunning hi hp] at hidle
      exact Bool.noConfusion hidle
    · have hplace : i - s.launched.length = 0 := by
        by_contra hne
        rw [List.getElem?_eq_none (by simp; omega)] at hi
        cases hi
      rw [hplace] at hi
      cases hi
      exact .inr ⟨by omega, rfl⟩
  have hnew : (s.launch (archKey arch)).launched = s.launched ++ [⟨arch, .running⟩] := by
    rw [App.launch, archOf_archKey]
  constructor
  · intro i j p q hi hj hp hq harch
    rw [hnew] at hi hj
    rcases hold i p hi hp with ⟨hi, hpa⟩ | ⟨hi, hpa⟩ <;> rcases hold j q hj hq with ⟨hj, hqa⟩ | ⟨hj, hqa⟩
    · exact h.one i j p q hi hj hp hq harch
    · exact absurd (harch.trans hqa) hpa
    · exact absurd (harch.symm.trans hpa) hqa
    · rw [hi, hj]
  · intro i p hi hp
    rw [hnew] at hi
    show s.setProcess (archKey arch) (some s.launched.length) (archKey p.arch) = some i
    rcases hold i p hi hp with ⟨hi, hpa⟩ | ⟨hi, hpa⟩
    · rw [setProcess, if_neg fun hkey => hpa (archKey_inj hkey)]
      exact h.registered i p hi hp
    · rw [setProcess, hpa, if_pos rfl, hi]
  · exact h.unharmed

/-- A process that is stopped has ended before it is forgotten, or the app is not safe any more. -/
theorem Safe.stopVm_iff (h : s.Safe) (hkeyed : s.Keyed) {arch : GuestArch} {ends : Bool}
    (hruns : s.isRunning (archKey arch) = true) :
    (s.stopVm (archKey arch) ends).Safe ↔
      (ends || (s.processes (archKey arch)).all fun id => (s.launched[id]?).all fun p => !p.live) =
        true := by
  obtain ⟨id, hid, halive⟩ := (Option.any_eq_true _ _).mp hruns
  obtain ⟨p, hp, -⟩ := (Option.any_eq_true _ _).mp halive
  have hkey : archKey p.arch = archKey arch := by
    obtain ⟨q, hq, hqkey⟩ := hkeyed.processes _ _ hid
    rw [hp] at hq
    cases hq
    exact hqkey
  have hafter : s.stopVm (archKey arch) ends = { s with
      launched := s.launched.modify id (·.destroy ends)
      processes := s.setProcess (archKey arch) none } := by
    rw [stopVm, hid]
  have hget : (s.launched.modify id (·.destroy ends))[id]? = some (p.destroy ends) := by
    rw [List.getElem?_modify, hp]
    exact congrArg some (if_pos rfl)
  rw [hafter, hid, Option.all_some, hp, Option.all_some]
  constructor
  · intro hsafe
    by_contra hlives
    rw [Bool.or_eq_true, not_or, Bool.not_eq_true', Bool.not_eq_false, Bool.not_eq_true] at hlives
    have hdying : p.destroy ends = { p with phase := .terminating } := by
      rw [VmProcess.destroy, if_pos hlives.2, hlives.1]
      rfl
    have hregistered : s.setProcess (archKey arch) none (archKey (p.destroy ends).arch) = some id :=
      hsafe.registered id _ hget (by rw [hdying]; rfl)
    rw [(VmProcess.destroy_ends ends).arch, hkey, setProcess, if_pos rfl] at hregistered
    cases hregistered
  · intro hends
    have hbase := h.ends (VmProcess.destroy_ends ends) id
    refine ⟨hbase.one, fun i q hi hq => ?_, h.unharmed⟩
    have hold := hbase.registered i q hi hq
    show s.setProcess (archKey arch) none (archKey q.arch) = some i
    rw [setProcess, if_neg fun hsame => ?_]
    · exact hold
    · -- the process that is stopped is not live afterwards
      have hi' : id = i := Option.some.inj (hid.symm.trans (hsame ▸ hold))
      rw [← hi', hget, Option.some.injEq] at hi
      rw [← hi, VmProcess.destroy] at hq
      rcases Bool.or_eq_true_iff.mp hends with hends | hdead
      · rw [hends] at hq
        by_cases hlive : p.live = true
        · rw [if_pos hlive] at hq
          exact absurd hq (by simp [VmProcess.live])
        · rw [if_neg hlive] at hq
          exact hlive hq
      · rw [Bool.not_eq_true'] at hdead
        rw [if_neg (by simp [hdead]), hdead] at hq
        exact Bool.noConfusion hq

/-! ## Runs -/

theorem Keyed.launch (h : s.Keyed) (arch : GuestArch) : (s.launch (archKey arch)).Keyed where
  intents := h.intents
  processes key id hid := by
    have hid : s.setProcess (archKey arch) (some s.launched.length) key = some id := hid
    show ∃ p, (s.launched ++ [⟨archOf (archKey arch), .running⟩])[id]? = some p ∧ _
    rw [setProcess] at hid
    split_ifs at hid with hkey
    · cases hid
      exact ⟨_, List.getElem?_concat_length, by rw [archOf_archKey, hkey]⟩
    · obtain ⟨p, hp, hpkey⟩ := h.processes key id hid
      refine ⟨p, ?_, hpkey⟩
      rw [List.getElem?_append_left (List.getElem?_eq_some_iff.mp hp).1]
      exact hp

theorem Keyed.stopVm (h : s.Keyed) (arch : GuestArch) (ends : Bool) :
    (s.stopVm (archKey arch) ends).Keyed := by
  unfold App.stopVm
  cases s.processes (archKey arch) with
  | none => exact h
  | some id =>
      have hbase := h.ends (VmProcess.destroy_ends ends) id
      refine ⟨h.intents, fun key other hother => ?_⟩
      have hother : s.setProcess (archKey arch) none key = some other := hother
      rw [setProcess] at hother
      split_ifs at hother
      exact hbase.processes key other hother

theorem step_keyed (h : s.Keyed) (hstep : s.step action = some s') : s'.Keyed := by
  cases action with
  | startClick arch =>
      cases hstep
      split_ifs
      · refine ⟨fun key hkey => ?_, h.processes⟩
        rcases List.mem_append.mp hkey with hkey | hkey
        · exact h.intents key hkey
        · exact ⟨arch, List.mem_singleton.mp hkey⟩
      · exact h
  | startCommand fails =>
      obtain ⟨key, hkey, hlaunch⟩ := Option.map_eq_some_iff.mp hstep
      obtain ⟨arch, rfl⟩ := h.intents key (List.mem_of_head? hkey)
      have hrest : Keyed { s with intents := s.intents.tail } :=
        ⟨fun key hkey => h.intents key (List.mem_of_mem_tail hkey), h.processes⟩
      rw [← hlaunch]
      dsimp only
      split_ifs
      · exact hrest
      · exact hrest.launch arch
  | stopClick arch bound ends =>
      cases hstep
      split_ifs
      · exact h.stopVm arch ends
      · exact h
  | exits id =>
      cases hstep
      exact h.ends VmProcess.exit_ends id
  | reaped id =>
      cases hstep
      exact h.ends VmProcess.reap_ends id
  | importOpens thread | importWrites thread | clearDeletes =>
      obtain ⟨dir, -, rfl⟩ := Option.map_eq_some_iff.mp hstep
      exact ⟨h.intents, h.processes⟩
  | importPicked | importEnds | clearConfirmed | clearEnds =>
      cases hstep
      exact ⟨h.intents, h.processes⟩

/-- **An action keeps the app safe** exactly if it is `careful`. -/
theorem step_safe_iff (h : s.Safe) (hkeyed : s.Keyed) (hstep : s.step action = some s') :
    s'.Safe ↔ s.careful action = true := by
  cases action with
  | startClick arch =>
      cases hstep
      refine iff_of_true ?_ rfl
      split_ifs
      · exact ⟨h.one, h.registered, h.unharmed⟩
      · exact h
  | startCommand fails =>
      obtain ⟨key, hkey, hlaunch⟩ := Option.map_eq_some_iff.mp hstep
      obtain ⟨arch, rfl⟩ := hkeyed.intents key (List.mem_of_head? hkey)
      have hrest : Safe { s with intents := s.intents.tail } := ⟨h.one, h.registered, h.unharmed⟩
      refine iff_of_true ?_ rfl
      rw [← hlaunch]
      dsimp only
      split_ifs with hidle
      · exact hrest
      · rw [Bool.or_eq_true, not_or, Bool.not_eq_true] at hidle
        exact hrest.launch hidle.1
  | stopClick arch bound ends =>
      cases hstep
      cases hstops : bound && s.isRunning (archKey arch) with
      | true =>
          rw [if_pos rfl, h.stopVm_iff hkeyed (Bool.and_eq_true_iff.mp hstops).2, careful, hstops]
          simp
      | false =>
          rw [if_neg Bool.false_ne_true]
          exact iff_of_true h (by simp [careful, hstops])
  | exits id =>
      cases hstep
      exact iff_of_true (h.ends VmProcess.exit_ends id) rfl
  | reaped id =>
      cases hstep
      exact iff_of_true (h.ends VmProcess.reap_ends id) rfl
  | importOpens thread | importWrites thread =>
      obtain ⟨dir, hdir, rfl⟩ := Option.map_eq_some_iff.mp hstep
      rw [h.changeDisk_iff, careful, hdir, Option.all_some, Bool.not_eq_true']
  | clearDeletes =>
      obtain ⟨dir, hdir, rfl⟩ := Option.map_eq_some_iff.mp hstep
      rw [h.changeDisk_iff, careful, hdir, Option.all_some, Bool.not_eq_true']
  | importPicked | importEnds | clearConfirmed | clearEnds =>
      cases hstep
      exact iff_of_true ⟨h.one, h.registered, h.unharmed⟩ rfl

/-- A process of another architecture changes. -/
theorem modify_other (hf : VmProcess.Ends f) {arch : GuestArch} {id : Nat}
    (h : ∀ p, s.launched[id]? = some p → p.arch ≠ arch) (i : Nat) :
    ((s.launched.modify id f)[i]?).filter (·.arch = arch) =
      (s.launched[i]?).filter (·.arch = arch) := by
  rw [List.getElem?_modify]
  cases hi : s.launched[i]? with
  | none => rfl
  | some p =>
      show Option.filter _ (some (if id = i then f p else p)) = _
      split_ifs with hid
      · have hother : p.arch ≠ arch := h p (hid ▸ hi)
        rw [Option.filter_some, Option.filter_some]
        simp [hf.arch, hother]
      · rfl

theorem launch_slot {arch other : GuestArch} (h : arch ≠ other) :
    (s.launch (archKey arch)).slot other = s.slot other := by
  have hnew : (s.launch (archKey arch)).launched = s.launched ++ [⟨arch, .running⟩] := by
    rw [launch, archOf_archKey]
  have hregistered : (s.launch (archKey arch)).processes (archKey other) =
      s.processes (archKey other) := if_neg fun hkey => h (archKey_inj hkey).symm
  have hprocesses (i : Nat) : ((s.launch (archKey arch)).launched[i]?).filter (·.arch = other) =
      (s.launched[i]?).filter (·.arch = other) := by
    rw [hnew, List.getElem?_append]
    split_ifs with hlt
    · rfl
    · rw [List.getElem?_eq_none (Nat.not_lt.mp hlt)]
      cases i - s.launched.length with
      | zero => simp [Option.filter, h]
      | succ place => rfl
  rw [slot, slot, hregistered, funext hprocesses]
  rfl

theorem stopVm_slot (hkeyed : s.Keyed) {arch other : GuestArch} {ends : Bool} (h : arch ≠ other) :
    (s.stopVm (archKey arch) ends).slot other = s.slot other := by
  unfold stopVm
  cases hid : s.processes (archKey arch) with
  | none => rfl
  | some id =>
      have hregistered : s.setProcess (archKey arch) none (archKey other) =
          s.processes (archKey other) := if_neg fun hkey => h (archKey_inj hkey).symm
      have hprocesses := modify_other (VmProcess.destroy_ends ends) fun p hp => by
        obtain ⟨q, hq, hqkey⟩ := hkeyed.processes _ _ hid
        rw [hp] at hq
        cases hq
        rw [archKey_inj hqkey]
        exact h
      dsimp only [slot]
      rw [hregistered, funext hprocesses]

/-- **An action on one architecture changes nothing of the other.** -/
theorem step_slot (hkeyed : s.Keyed) (hstep : s.step action = some s') {arch : GuestArch}
    (hother : s.key action ≠ some (archKey arch)) : s'.slot arch = s.slot arch := by
  cases action with
  | startClick =>
      cases hstep
      split_ifs <;> rfl
  | startCommand fails =>
      obtain ⟨key, hkey, hlaunch⟩ := Option.map_eq_some_iff.mp hstep
      obtain ⟨started, rfl⟩ := hkeyed.intents key (List.mem_of_head? hkey)
      have hne : started ≠ arch := fun heq => hother (heq ▸ hkey)
      rw [← hlaunch]
      dsimp only
      split_ifs
      · rfl
      · exact launch_slot hne
  | stopClick stopped bound ends =>
      cases hstep
      have hne : stopped ≠ arch := fun heq => hother (congrArg (fun a => some (archKey a)) heq)
      split_ifs
      · exact stopVm_slot hkeyed hne
      · rfl
  | exits id | reaped id =>
      cases hstep
      have hprocesses (f : VmProcess → VmProcess) (hf : VmProcess.Ends f) :=
        @modify_other s f hf arch id fun p hp heq => hother (by rw [key, hp, ← heq]; rfl)
      dsimp only [slot]
      first
        | rw [funext (hprocesses _ VmProcess.exit_ends)]
        | rw [funext (hprocesses _ VmProcess.reap_ends)]
  | importOpens thread | importWrites thread | clearDeletes =>
      obtain ⟨dir, hdir, rfl⟩ := Option.map_eq_some_iff.mp hstep
      have hne : archKey arch ≠ dir := fun heq => hother (heq ▸ hdir)
      dsimp only [slot, changeDisk]
      rw [if_neg hne]
  | importPicked | importEnds | clearConfirmed | clearEnds =>
      cases hstep
      rfl

end App

open AbortableRuns App

/-- **One writer per disk.**  A run stays safe if and only if each of its actions is `careful`; and
whether or not it does, no action on one architecture changes anything of the other. -/
theorem one_writer_iff {s₀ : App} (hsafe : s₀.Safe) (hkeyed : s₀.Keyed) (actions : List AppAction) :
    ((∀ before s, before <+: actions → run step s₀ before = some s → s.Safe) ↔
      ∀ before action s s', before ++ [action] <+: actions → run step s₀ before = some s →
        s.step action = some s' → s.careful action = true) ∧
    ∀ before action s s', before ++ [action] <+: actions → run step s₀ before = some s →
      s.step action = some s' → ∀ arch, s.key action ≠ some (archKey arch) →
        s'.slot arch = s.slot arch := by
  constructor
  · exact always_iff hkeyed hsafe (fun _ _ _ hkeyed _ hstep => step_keyed hkeyed hstep)
      (fun _ _ _ hkeyed hsafe hstep => step_safe_iff hsafe hkeyed hstep) actions
  · intro before action s s' _ hrun hstep arch hother
    have hreached : s.Keyed :=
      invariant (fun _ _ _ h _ hstep => step_keyed h hstep) hkeyed
        (allSteps_true s₀ before) hrun
    exact step_slot hreached hstep hother

/-- The app with a disk image for each architecture, and nothing running. -/
def idleApp : App where
  processes _ := none
  launched := []
  intents := []
  imports := []
  clears := []
  disks dir := if dir = "arm64" ∨ dir = "x86_64" then some 0 else none
  harmed := false

theorem idleApp_safe : idleApp.Safe where
  one i j p q hi := by simp [idleApp] at hi
  registered i p hi := by simp [idleApp] at hi
  unharmed := rfl

theorem idleApp_keyed : idleApp.Keyed where
  intents key hkey := absurd hkey List.not_mem_nil
  processes key id hid := by simp [idleApp] at hid

/-- A machine is started and powers itself off; then its disk image is imported again, while the other
machine runs. -/
def importAfterwards : List AppAction :=
  [.startClick .ARM64, .startCommand false, .startClick .X86_64, .startCommand false, .exits 0,
    .reaped 0, .importPicked .ARM64, .importOpens 0, .importWrites 0, .importEnds 0,
    .stopClick .ARM64 true false, .startClick .ARM64, .startCommand false]

theorem one_writer_imported :
    allSteps step careful idleApp importAfterwards = true ∧
      ∀ before s, before <+: importAfterwards → run step idleApp before = some s → s.Safe := by
  have hcareful : allSteps step careful idleApp importAfterwards = true := by decide
  refine ⟨hcareful, (one_writer_iff idleApp_safe idleApp_keyed importAfterwards).1.mpr ?_⟩
  exact fun before action s s' hbefore hrun _ => suits_of_allSteps hcareful hbefore hrun

/-- **A machine that is stopped and started again** at once: the process that terminates is not
registered any more, and two live ones use the disk image. -/
theorem two_writers :
    ∃ s, run step idleApp [.startClick .ARM64, .startCommand false, .stopClick .ARM64 true false,
        .startClick .ARM64, .startCommand false] = some s ∧
      s.launched = [⟨.ARM64, .terminating⟩, ⟨.ARM64, .running⟩] ∧
      s.processes "arm64" = some 1 ∧ ¬ s.Safe := by
  refine ⟨_, rfl, by decide, by decide, fun hsafe => ?_⟩
  exact absurd (hsafe.one 0 1 ⟨.ARM64, .terminating⟩ ⟨.ARM64, .running⟩ (by decide) (by decide)
    rfl rfl rfl) (by decide)

end VmForge
