import Mathlib.Data.List.Nodup
import PRoot.AbortableRuns

/-!
# The descriptors of substituted netlink sockets

Where the host refuses netlink sockets, `translate_syscall_enter` makes a UNIX socket of a netlink
one, and PRoot keeps the descriptor in `fake_netlink_fds` (`syscall/enter.c`, `syscall/exit.c`).
The kernel keeps the descriptors of the tracee, which many calls change.

* `FdState.step`: a call is made, by PRoot's two stages and the kernel;
* `Exact`: PRoot tracks the substituted sockets;
* `step_exact_iff`: when a call keeps that;
* `fds_exact_iff`: it stays so in a run exactly if each call `keepsFds`.
-/

namespace PRoot

/-! ## The descriptors that are tracked -/

def maxFakeNetlinkFds : Nat := 8

/-- `is_fake_netlink_fd`. -/
def isFakeNetlinkFd (fds : List Int) (fd : Int) : Bool := 0 ≤ fd && fds.contains fd

/-- `unmark_fake_netlink_fd`: the last one takes the place of the one that goes. -/
def unmarkFakeNetlinkFd (fds : List Int) (fd : Int) : List Int :=
  if fds.contains fd then (fds.set (fds.idxOf fd) (fds.getLastD fd)).dropLast else fds

/-- The exit stage of a substituted `socket`. -/
def markFakeNetlinkFd (fds : List Int) (fd : Int) : List Int :=
  if 0 ≤ fd && fds.length < maxFakeNetlinkFds && !fds.contains fd then fds ++ [fd] else fds

/-! ## The descriptors of the kernel -/

/-- A descriptor: whether it denotes a substituted socket, and is closed by `execve`. -/
structure Descriptor where
  substituted : Bool
  cloexec : Bool
  deriving DecidableEq, Repr

/-- The descriptors of a tracee, by their numbers. -/
abbrev FdTable := Nat → Option Descriptor

namespace FdTable

variable (table : FdTable)

def get (fd : Int) : Option Descriptor := if 0 ≤ fd then table fd.toNat else none

def set (fd : Int) (descriptor : Option Descriptor) : FdTable :=
  fun number => if (number : Int) = fd then descriptor else table number

/-- A descriptor denotes a substituted socket. -/
def substituted (fd : Int) : Bool := (table.get fd).any (·.substituted)

/-- A call that makes a descriptor fails, or has a number that is free. -/
def create (result : Int) (descriptor : Descriptor) : Option FdTable :=
  if result < 0 then some table
  else if (table.get result).isSome then none
  else some (table.set result descriptor)

/-- A call that makes a descriptor of another one. -/
def duplicate (fd result : Int) (cloexec : Bool) : Option FdTable :=
  if result < 0 then some table
  else (table.get fd).bind fun old => table.create result { old with cloexec }

/-- A call that replaces a descriptor by another one. -/
def replace (oldFd newFd result : Int) (cloexec : Bool) : Option FdTable :=
  if result < 0 then some table
  else if result ≠ newFd then none
  else (table.get oldFd).map fun old => table.set newFd (some { old with cloexec })

/-- Some descriptors are closed. -/
def closeAll (closed : Nat → Descriptor → Bool) : FdTable :=
  fun number => (table number).filter fun descriptor => !closed number descriptor

/-- The flag of some descriptors is set. -/
def flagAll (flagged : Nat → Bool) : FdTable :=
  fun number => (table number).map fun descriptor =>
    { descriptor with cloexec := flagged number || descriptor.cloexec }

end FdTable

/-! ## System calls -/

/-- The calls that change descriptors, with the kernel's results; `opens` is any call that makes
a descriptor of another kind. -/
inductive FdCall
  | socket (domain type protocol : Nat) (result : Int)
  | opens (cloexec : Bool) (result : Int)
  | dup (fd result : Int)
  | dup2 (oldFd newFd result : Int)
  | dup3 (oldFd newFd : Int) (cloexec : Bool) (result : Int)
  /-- `F_DUPFD` and `F_DUPFD_CLOEXEC`. -/
  | fcntlDupFd (fd : Int) (cloexec : Bool) (result : Int)
  | close (fd : Int)
  /-- `flag` is `CLOSE_RANGE_CLOEXEC`. -/
  | closeRange (first last : Nat) (flag : Bool) (result : Int)
  | execve (result : Int)
  deriving DecidableEq, Repr

def afNetlink : Nat := 16

def netlinkRoute : Nat := 0

def sockCloexec : Nat := 0x80000

/-- What PRoot and the kernel keep of the descriptors of a tracee. -/
structure FdState where
  fakeNetlinkFds : List Int
  pendingFakeNetlinkSocket : Bool
  table : FdTable

namespace FdState

variable (blocks : Bool)

/-- PRoot substitutes a socket; `blocks` is `host_blocks_af_netlink`. -/
def substitutes (domain protocol : Nat) : Bool :=
  domain = afNetlink && protocol = netlinkRoute && blocks

/-- The cases of `translate_syscall_enter`. -/
def enter (s : FdState) : FdCall → FdState
  | .socket domain _ protocol _ =>
      if substitutes blocks domain protocol then { s with pendingFakeNetlinkSocket := true } else s
  | .close fd => { s with fakeNetlinkFds := unmarkFakeNetlinkFd s.fakeNetlinkFds fd }
  | _ => s

/-- The kernel makes the call, unless it would not have that result. -/
def kernel (table : FdTable) (call : FdCall) : Option FdTable :=
  match call with
  | .socket domain type protocol result =>
      table.create result ⟨substitutes blocks domain protocol, type &&& sockCloexec ≠ 0⟩
  | .opens cloexec result => table.create result ⟨false, cloexec⟩
  | .dup fd result => table.duplicate fd result false
  | .dup2 oldFd newFd result =>
      if oldFd = newFd then if 0 ≤ result && (table.get oldFd).isNone then none else some table
      else table.replace oldFd newFd result false
  | .dup3 oldFd newFd cloexec result =>
      if oldFd = newFd then if 0 ≤ result then none else some table
      else table.replace oldFd newFd result cloexec
  | .fcntlDupFd fd cloexec result => table.duplicate fd result cloexec
  | .close fd => some (table.set fd none)
  | .closeRange first last flag result =>
      if result < 0 then some table
      else if flag then some (table.flagAll fun number => first ≤ number && number ≤ last)
      else some (table.closeAll fun number _ => first ≤ number && number ≤ last)
  | .execve result =>
      if result < 0 then some table
      else some (table.closeAll fun _ descriptor => descriptor.cloexec)

/-- The case of `translate_syscall_exit`. -/
def exit (s : FdState) : FdCall → FdState
  | .socket _ _ _ result =>
      if s.pendingFakeNetlinkSocket then
        { s with
          fakeNetlinkFds := markFakeNetlinkFd s.fakeNetlinkFds result
          pendingFakeNetlinkSocket := false }
      else s
  | _ => s

/-- A call of the tracee. -/
def step (s : FdState) (call : FdCall) : Option FdState :=
  (kernel blocks s.table call).map fun table =>
    FdState.exit { s.enter blocks call with table } call

/-- **PRoot tracks the substituted sockets**, and nothing else. -/
def Exact (s : FdState) : Prop :=
  ∀ fd, fd ∈ s.fakeNetlinkFds ↔ s.table.substituted fd = true

/-- No descriptor is tracked twice, and no call is under way. -/
structure Tidy (s : FdState) : Prop where
  nodup : s.fakeNetlinkFds.Nodup
  idle : s.pendingFakeNetlinkSocket = false

/-- A call that does not hide a substituted socket from PRoot. -/
def keepsFds (s : FdState) : FdCall → Bool
  | .socket domain _ protocol result =>
      !substitutes blocks domain protocol || result < 0 ||
        s.fakeNetlinkFds.length < maxFakeNetlinkFds
  | .opens _ _ => true
  | .dup fd result => result < 0 || !s.table.substituted fd
  | .dup2 oldFd newFd result =>
      result < 0 || s.table.substituted oldFd == s.table.substituted newFd
  | .dup3 oldFd newFd _ result =>
      result < 0 || s.table.substituted oldFd == s.table.substituted newFd
  | .fcntlDupFd fd _ result => result < 0 || !s.table.substituted fd
  | .close _ => true
  | .closeRange first last flag result =>
      result < 0 || flag ||
        s.fakeNetlinkFds.all fun fd => !(decide ((first : Int) ≤ fd) && fd ≤ last)
  | .execve result =>
      result < 0 || s.fakeNetlinkFds.all fun fd => !(s.table.get fd).any (·.cloexec)

end FdState

/-! ## What the operations do -/

/-- The descriptor is taken out, and the others are kept in some order. -/
theorem unmark_perm (fds : List Int) (fd : Int) :
    (unmarkFakeNetlinkFd fds fd).Perm (fds.erase fd) := by
  unfold unmarkFakeNetlinkFd
  by_cases hmem : fd ∈ fds
  · obtain ⟨before, after, rfl, hbefore⟩ := List.eq_append_cons_of_mem hmem
    have hplace : (before ++ fd :: after).idxOf fd = before.length := by
      rw [List.idxOf_append_of_notMem hbefore, List.idxOf_cons_self, Nat.add_zero]
    have herase : (before ++ fd :: after).erase fd = before ++ after := by
      rw [List.erase_append_right _ hbefore, List.erase_cons_head]
    rw [if_pos (by simp), hplace, herase, List.set_append_right _ _ (Nat.le_refl _),
      Nat.sub_self, List.set_cons_zero]
    rcases List.eq_nil_or_concat after with rfl | ⟨middle, last, rfl⟩
    · simp
    · have hlast : (before ++ fd :: (middle.concat last)).getLastD fd = last := by
        rw [List.concat_eq_append, ← List.cons_append, ← List.append_assoc, List.getLastD_concat]
      rw [hlast, List.concat_eq_append, ← List.cons_append, ← List.append_assoc,
        List.dropLast_concat]
      exact List.perm_append_left_iff before |>.mpr (List.perm_append_singleton last middle).symm
  · rw [if_neg (by simpa using hmem), List.erase_of_not_mem hmem]

theorem mem_unmark {fds : List Int} (h : fds.Nodup) (fd other : Int) :
    other ∈ unmarkFakeNetlinkFd fds fd ↔ other ≠ fd ∧ other ∈ fds := by
  rw [(unmark_perm fds fd).mem_iff, h.mem_erase_iff]

namespace FdTable

variable {table table' : FdTable} {fd result : Int}

theorem get_set (table : FdTable) (fd other : Int) (descriptor : Option Descriptor) :
    (table.set fd descriptor).get other =
      if other = fd ∧ 0 ≤ other then descriptor else table.get other := by
  unfold get set
  by_cases hother : 0 ≤ other
  · rw [if_pos hother, if_pos hother, Int.toNat_of_nonneg hother]
    simp [hother]
  · simp [hother]

theorem substituted_nonneg (h : table.substituted fd = true) : 0 ≤ fd := by
  by_contra hfd
  simp [substituted, get, hfd] at h

/-- Of the descriptors only one is replaced. -/
theorem substituted_set (fd other : Int) (descriptor : Option Descriptor) :
    (table.set fd descriptor).substituted other =
      if other = fd ∧ 0 ≤ other then descriptor.any (·.substituted) else table.substituted other := by
  rw [substituted, get_set]
  split_ifs <;> rfl

theorem create_some {descriptor : Descriptor} (h : table.create result descriptor = some table') :
    result < 0 ∧ table' = table ∨
      0 ≤ result ∧ table.get result = none ∧ table' = table.set result (some descriptor) := by
  unfold create at h
  split_ifs at h with hfails hused
  · exact .inl ⟨hfails, (Option.some.inj h).symm⟩
  · exact .inr ⟨Int.not_lt.mp hfails, by simpa using hused, (Option.some.inj h).symm⟩

theorem duplicate_some {cloexec : Bool} (h : table.duplicate fd result cloexec = some table') :
    result < 0 ∧ table' = table ∨
      0 ≤ result ∧ table.get result = none ∧ ∃ old, table.get fd = some old ∧
        table' = table.set result (some { old with cloexec }) := by
  unfold duplicate at h
  split_ifs at h with hfails
  · exact .inl ⟨hfails, (Option.some.inj h).symm⟩
  · obtain ⟨old, hold, hcreate⟩ := Option.bind_eq_some_iff.mp h
    rcases create_some hcreate with ⟨hlt, -⟩ | ⟨hle, hfree, hset⟩
    · exact absurd hlt hfails
    · exact .inr ⟨hle, hfree, old, hold, hset⟩

theorem replace_some {oldFd newFd : Int} {cloexec : Bool}
    (h : table.replace oldFd newFd result cloexec = some table') :
    result < 0 ∧ table' = table ∨
      0 ≤ result ∧ result = newFd ∧ ∃ old, table.get oldFd = some old ∧
        table' = table.set newFd (some { old with cloexec }) := by
  unfold replace at h
  split_ifs at h with hfails hother
  · exact .inl ⟨hfails, (Option.some.inj h).symm⟩
  · obtain ⟨old, hold, hset⟩ := Option.map_eq_some_iff.mp h
    exact .inr ⟨Int.not_lt.mp hfails, not_not.mp hother, old, hold, hset.symm⟩

theorem substituted_of_get {old : Descriptor} (h : table.get fd = some old) :
    table.substituted fd = old.substituted := by
  rw [substituted, h, Option.any_some]

theorem substituted_of_free (h : table.get fd = none) : table.substituted fd = false := by
  rw [substituted, h, Option.any_none]

theorem substituted_flagAll (flagged : Nat → Bool) (fd : Int) :
    (table.flagAll flagged).substituted fd = table.substituted fd := by
  unfold substituted get flagAll
  split_ifs
  · rw [Option.any_map]
  · rfl

theorem substituted_closeAll (closed : Nat → Descriptor → Bool) (fd : Int) :
    (table.closeAll closed).substituted fd =
      (table.get fd).any fun old => old.substituted && !closed fd.toNat old := by
  unfold substituted get closeAll
  split_ifs
  · cases table fd.toNat with
    | none => rfl
    | some old => cases hclosed : closed fd.toNat old <;> simp [Option.filter, hclosed]
  · rfl

end FdTable

/-! ## Tracking -/

/-- Some numbers are those of the descriptors of substituted sockets. -/
def Tracks (fds : List Int) (table : FdTable) : Prop :=
  ∀ fd, fd ∈ fds ↔ table.substituted fd = true

namespace Tracks

variable {fds : List Int} {table : FdTable}

theorem set_iff (h : Tracks fds table) {fd : Int} (hfd : 0 ≤ fd) (descriptor : Descriptor) :
    Tracks fds (table.set fd (some descriptor)) ↔
      descriptor.substituted = table.substituted fd := by
  constructor
  · intro hset
    have hsame := hset fd
    rw [FdTable.substituted_set, if_pos ⟨rfl, hfd⟩, h fd, Option.any_some] at hsame
    exact (Bool.eq_iff_iff.mpr hsame).symm
  · intro hsame other
    rw [FdTable.substituted_set, h other]
    split_ifs with hother
    · rw [hother.1, ← hsame, Option.any_some]
    · rfl

/-- Where no descriptor was, one of another kind is not tracked. -/
theorem set_free_iff (h : Tracks fds table) {fd : Int} (hfd : 0 ≤ fd) (hfree : table.get fd = none)
    (descriptor : Descriptor) :
    Tracks fds (table.set fd (some descriptor)) ↔ descriptor.substituted = false := by
  rw [h.set_iff hfd, FdTable.substituted_of_free hfree]

theorem mark (h : Tracks fds table) {fd : Int} (hfd : 0 ≤ fd) {descriptor : Descriptor}
    (hsubstituted : descriptor.substituted = true) (hfree : table.get fd = none) :
    Tracks (markFakeNetlinkFd fds fd) (table.set fd (some descriptor)) ↔
      fds.length < maxFakeNetlinkFds := by
  have hnew : fd ∉ fds := fun hmem => by
    rw [h fd, FdTable.substituted_of_free hfree] at hmem
    exact Bool.noConfusion hmem
  by_cases hroom : fds.length < maxFakeNetlinkFds
  · have hmark : markFakeNetlinkFd fds fd = fds ++ [fd] := by
      simp [markFakeNetlinkFd, hfd, hroom, hnew]
    rw [hmark]
    refine ⟨fun _ => hroom, fun _ other => ?_⟩
    rw [List.mem_append, List.mem_singleton, FdTable.substituted_set, h other]
    split_ifs with hother
    · simp [hother.1, hsubstituted]
    · have hne : other ≠ fd := fun heq => hother ⟨heq, heq ▸ hfd⟩
      simp [hne]
  · have hmark : markFakeNetlinkFd fds fd = fds := by
      simp [markFakeNetlinkFd, hroom]
    rw [hmark, h.set_free_iff hfd hfree, hsubstituted]
    simp [hroom]

theorem unmark (h : Tracks fds table) (hnodup : fds.Nodup) (fd : Int) :
    Tracks (unmarkFakeNetlinkFd fds fd) (table.set fd none) := by
  intro other
  rw [mem_unmark hnodup, FdTable.substituted_set, h other]
  split_ifs with hother
  · simp [hother.1]
  · constructor
    · exact fun hmem => hmem.2
    · intro hsub
      exact ⟨fun heq => hother ⟨heq, FdTable.substituted_nonneg hsub⟩, hsub⟩

theorem flagAll (h : Tracks fds table) (flagged : Nat → Bool) :
    Tracks fds (table.flagAll flagged) := by
  intro other
  rw [FdTable.substituted_flagAll, h other]

theorem closeAll_iff (h : Tracks fds table) (closed : Nat → Descriptor → Bool) :
    Tracks fds (table.closeAll closed) ↔
      ∀ fd ∈ fds, (table.get fd).any (closed fd.toNat) = false := by
  constructor
  · intro hclose fd hmem
    have hopen := (h fd).mp hmem
    have hstays := (hclose fd).mp hmem
    rw [FdTable.substituted_closeAll] at hstays
    cases hget : table.get fd with
    | none => rfl
    | some old =>
        simp only [hget, Option.any_some, Bool.and_eq_true, Bool.not_eq_true'] at hstays
        exact hstays.2
  · intro hclose fd
    rw [FdTable.substituted_closeAll, h fd, FdTable.substituted]
    constructor
    · intro hopen
      have hstays := hclose fd ((h fd).mpr hopen)
      cases hget : table.get fd with
      | none => simp [hget] at hopen
      | some old =>
          simp only [hget, Option.any_some] at hopen hstays ⊢
          rw [hopen, hstays]
          rfl
    · intro hstays
      cases hget : table.get fd with
      | none => simp [hget] at hstays
      | some old =>
          simp only [hget, Option.any_some, Bool.and_eq_true] at hstays ⊢
          exact hstays.1

/-- A call whose descriptor is a copy: the copy is not tracked. -/
theorem duplicate_iff (h : Tracks fds table) {table' : FdTable} {fd result : Int} {cloexec : Bool}
    (hmade : table.duplicate fd result cloexec = some table') :
    Tracks fds table' ↔ (result < 0 || !table.substituted fd) = true := by
  rcases FdTable.duplicate_some hmade with ⟨hfails, rfl⟩ | ⟨hresult, hfree, old, hold, rfl⟩
  · simp [h, hfails]
  · rw [h.set_free_iff hresult hfree, FdTable.substituted_of_get hold]
    simp [Int.not_lt.mpr hresult]

theorem replace_iff (h : Tracks fds table) {table' : FdTable} {oldFd newFd result : Int}
    {cloexec : Bool} (hmade : table.replace oldFd newFd result cloexec = some table') :
    Tracks fds table' ↔
      (result < 0 || table.substituted oldFd == table.substituted newFd) = true := by
  rcases FdTable.replace_some hmade with ⟨hfails, rfl⟩ | ⟨hresult, rfl, old, hold, rfl⟩
  · simp [h, hfails]
  · rw [h.set_iff hresult, FdTable.substituted_of_get hold]
    simp [Int.not_lt.mpr hresult]

end Tracks

/-! ## Runs -/

namespace FdState

variable {blocks : Bool} {s s' : FdState} {call : FdCall}

theorem mark_nodup {fds : List Int} (h : fds.Nodup) (fd : Int) :
    (markFakeNetlinkFd fds fd).Nodup := by
  unfold markFakeNetlinkFd
  split_ifs with hnew
  · have hmem : fd ∉ fds := by simpa using (Bool.and_eq_true_iff.mp hnew).2
    exact List.nodup_append.mpr ⟨h, List.nodup_singleton fd, by
      intro other hother same hsame heq
      rw [List.mem_singleton.mp hsame] at heq
      exact hmem (heq ▸ hother)⟩
  · exact h

theorem step_tidy (h : s.Tidy) (hstep : s.step blocks call = some s') : s'.Tidy := by
  obtain ⟨table, -, rfl⟩ := Option.map_eq_some_iff.mp hstep
  cases call with
  | socket domain type protocol result =>
      simp only [enter, exit]
      split_ifs with hsubstitutes hpending
      · exact ⟨mark_nodup h.nodup result, rfl⟩
      · exact absurd rfl hpending
      · exact ⟨mark_nodup h.nodup result, rfl⟩
      · exact ⟨h.nodup, h.idle⟩
  | close fd =>
      exact ⟨(unmark_perm s.fakeNetlinkFds fd).nodup_iff.mpr (h.nodup.erase fd), h.idle⟩
  | _ => exact ⟨h.nodup, h.idle⟩

/-- **PRoot goes on tracking the substituted sockets** exactly if the call `keepsFds`. -/
theorem step_exact_iff (hexact : s.Exact) (htidy : s.Tidy) (hstep : s.step blocks call = some s') :
    s'.Exact ↔ s.keepsFds blocks call = true := by
  have htracks : Tracks s.fakeNetlinkFds s.table := hexact
  obtain ⟨table, hkernel, rfl⟩ := Option.map_eq_some_iff.mp hstep
  cases call with
  | socket domain type protocol result =>
      rw [kernel] at hkernel
      cases hsubstitutes : substitutes blocks domain protocol with
      | true =>
          have hafter : (exit { enter blocks s (.socket domain type protocol result) with table }
              (.socket domain type protocol result)).Exact ↔
              Tracks (markFakeNetlinkFd s.fakeNetlinkFds result) table := by
            simp [enter, exit, hsubstitutes, Exact, Tracks]
          rw [hafter]
          rw [hsubstitutes] at hkernel
          rcases FdTable.create_some hkernel with ⟨hfails, rfl⟩ | ⟨hresult, hfree, rfl⟩
          · simp [markFakeNetlinkFd, Int.not_le.mpr hfails, htracks, keepsFds, hfails]
          · rw [htracks.mark hresult rfl hfree]
            simp [keepsFds, hsubstitutes, Int.not_lt.mpr hresult]
      | false =>
          have hafter : (exit { enter blocks s (.socket domain type protocol result) with table }
              (.socket domain type protocol result)).Exact ↔ Tracks s.fakeNetlinkFds table := by
            simp [enter, exit, hsubstitutes, Exact, Tracks, htidy.idle]
          rw [hafter]
          rw [hsubstitutes] at hkernel
          have hkeeps : s.keepsFds blocks (.socket domain type protocol result) = true := by
            simp [keepsFds, hsubstitutes]
          rcases FdTable.create_some hkernel with ⟨-, rfl⟩ | ⟨hresult, hfree, rfl⟩
          · simp [htracks, hkeeps]
          · rw [htracks.set_free_iff hresult hfree]
            simp [hkeeps]
  | opens cloexec result =>
      rcases FdTable.create_some hkernel with ⟨-, rfl⟩ | ⟨hresult, hfree, rfl⟩
      · exact iff_of_true htracks rfl
      · exact iff_of_true ((htracks.set_free_iff hresult hfree _).mpr rfl) rfl
  | dup fd result => exact htracks.duplicate_iff hkernel
  | fcntlDupFd fd cloexec result => exact htracks.duplicate_iff hkernel
  | dup2 oldFd newFd result =>
      rw [kernel] at hkernel
      by_cases hsame : oldFd = newFd
      · rw [if_pos hsame] at hkernel
        split_ifs at hkernel
        cases hkernel
        refine iff_of_true htracks ?_
        simp [keepsFds, hsame]
      · rw [if_neg hsame] at hkernel
        exact htracks.replace_iff hkernel
  | dup3 oldFd newFd cloexec result =>
      rw [kernel] at hkernel
      split_ifs at hkernel with hsame
      · cases hkernel
        refine iff_of_true htracks ?_
        simp [keepsFds, hsame]
      · exact htracks.replace_iff hkernel
  | close fd =>
      cases hkernel
      exact iff_of_true (htracks.unmark htidy.nodup fd) rfl
  | closeRange first last flag result =>
      rw [kernel] at hkernel
      split_ifs at hkernel with hfails hflag
      · cases hkernel
        refine iff_of_true htracks ?_
        simp [keepsFds, hfails]
      · cases hkernel
        refine iff_of_true (htracks.flagAll _) ?_
        simp [keepsFds, hflag]
      · cases hkernel
        refine (htracks.closeAll_iff _).trans ?_
        simp only [keepsFds, hfails, hflag, decide_false, Bool.false_or, List.all_eq_true,
          Bool.not_eq_true']
        refine forall₂_congr fun fd hmem => ?_
        have hopen := (htracks fd).mp hmem
        obtain ⟨number, rfl⟩ := Int.eq_ofNat_of_zero_le (FdTable.substituted_nonneg hopen)
        obtain ⟨old, hold, -⟩ := (Option.any_eq_true _ _).mp hopen
        rw [hold, Option.any_some, Int.toNat_natCast, Bool.and_eq_false_iff, Bool.and_eq_false_iff]
        simp
  | execve result =>
      rw [kernel] at hkernel
      split_ifs at hkernel with hfails
      · cases hkernel
        refine iff_of_true htracks ?_
        simp [keepsFds, hfails]
      · cases hkernel
        refine (htracks.closeAll_iff _).trans ?_
        simp [keepsFds, hfails]

end FdState

open AbortableRuns FdState

/-- **Fake netlink descriptors are tracked exactly** all along a run if and only if each of its calls
`keepsFds`. -/
theorem fds_exact_iff {blocks : Bool} {s₀ : FdState} (hexact : s₀.Exact) (htidy : s₀.Tidy)
    (calls : List FdCall) :
    (∀ before s, before <+: calls → run (step blocks) s₀ before = some s → s.Exact) ↔
      ∀ before call s s', before ++ [call] <+: calls → run (step blocks) s₀ before = some s →
        s.step blocks call = some s' → s.keepsFds blocks call = true :=
  always_iff htidy hexact (fun _ _ _ htidy _ hstep => step_tidy htidy hstep)
    (fun _ _ _ htidy hexact hstep => step_exact_iff hexact htidy hstep) calls

/-- A tracee with the standard descriptors. -/
def freshFds : FdState where
  fakeNetlinkFds := []
  pendingFakeNetlinkSocket := false
  table := fun number => if number < 3 then some ⟨false, false⟩ else none

theorem freshFds_exact : freshFds.Exact := by
  intro fd
  have hfree : freshFds.table.substituted fd = false := by
    unfold FdTable.substituted FdTable.get freshFds
    dsimp only
    split_ifs <;> rfl
  rw [hfree]
  exact iff_of_false List.not_mem_nil Bool.false_ne_true

theorem freshFds_tidy : freshFds.Tidy := ⟨List.nodup_nil, rfl⟩

/-- A netlink socket is opened and closed, and its number used again. -/
theorem fds_exact_closed :
    allSteps (step true) (keepsFds true) freshFds
        [.socket 16 3 0 3, .close 3, .opens false 3] = true ∧
      ∀ before s, before <+: [FdCall.socket 16 3 0 3, .close 3, .opens false 3] →
        run (step true) freshFds before = some s → s.Exact := by
  refine ⟨by decide, ?_⟩
  refine (fds_exact_iff freshFds_exact freshFds_tidy _).mpr fun before call s s' hbefore hrun _ => ?_
  have hkeeps : allSteps (step true) (keepsFds true) freshFds
      [FdCall.socket 16 3 0 3, .close 3, .opens false 3] = true := by decide
  exact suits_of_allSteps hkeeps hbefore hrun

/-- **A number that is used again** by `dup2` stays that of a netlink socket for PRoot, and the copy
that `dup` makes of the socket never becomes one. -/
theorem fds_inexact :
    ∃ s, run (step true) freshFds [.socket 16 3 0 3, .dup 3 4, .socket 2 1 0 5, .dup2 5 3 3] =
      some s ∧ s.fakeNetlinkFds = [3] ∧ s.table.substituted 3 = false ∧
      s.table.substituted 4 = true ∧ ¬ s.Exact := by
  refine ⟨_, rfl, rfl, rfl, rfl, fun hexact => ?_⟩
  exact absurd ((hexact 3).mp (List.mem_singleton.mpr rfl)) (by decide)

end PRoot
