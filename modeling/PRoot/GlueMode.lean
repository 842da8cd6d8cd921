import PRoot.Namespaces
import PRoot.Startup

/-!
# The end of glue mode

`initialize_binding` sets `glue_type` before it canonicalizes a guest path, and resets it where
that succeeds only.

* `initializeAll_glueType_iff`: the last of the bindings decides how the loop leaves it;
* `Running.glueless`: afterwards no tracee sets it, whatever they do;
* `glue_ends_iff`: so one binding decides whether tracees build glue for the rest of the run;
* `glue_stays`: a binding whose guest path leads through a regular file.
-/

namespace PRoot

variable {W : Type} {k : Kernel W}

/-- A binding that is installed as it is. -/
def Binding.isRoot (binding : Binding) : Bool :=
  comparePaths binding.guest.path slash = .pathsAreEqual

/-- The guest path of a binding can be canonicalized, in the state `initialize_binding` finds. -/
def resolves (k : Kernel W) (fuel : Nat) (sys : Sys W) (binding : Binding) : Bool :=
  (canonicalize k fuel (sys.setGlueType (some (glueTypeOf k sys.world binding.host.path)))
      (bindingTarget binding.guest.path).1 (bindingTarget binding.guest.path).2 slash 0).any
    (·.result.isOk)

/-- **The last of the bindings resolves**, of those that are to be canonicalized. -/
def lastResolves (k : Kernel W) (fuel : Nat) : Sys W → List Binding → Bool
  | _, [] => true
  | sys, binding :: rest =>
      (binding.isRoot || rest.any (!·.isRoot) || resolves k fuel sys binding) &&
        (initializeBinding k fuel sys binding).all (lastResolves k fuel · rest)

/-- No tracee is in glue mode. -/
def Glueless (sys : Sys W) : Prop := ∀ t ∈ sys.tracee :: sys.others, t.glueType = none

/-- What can happen after start-up: a tracee makes an operation, another one has its turn, or
there is a new one. -/
inductive Running (k : Kernel W) (start : Sys W) : Sys W → Prop
  | start : Running k start start
  | step {fuel : Nat} {sys sys' : Sys W} {op : Op W} (hrun : Running k start sys)
      (hstep : op.run k fuel sys = some sys') : Running k start sys'
  | turn {sys sys' : Sys W} {pid : Int} (hrun : Running k start sys)
      (hresume : sys.resume pid = some sys') : Running k start sys'
  | child {sys : Sys W} {pid : Int} {cloneFs strippedNewns : Bool} (hrun : Running k start sys) :
      Running k start (newChild sys pid cloneFs strippedNewns)

/-- **Glue mode has ended**: extensions are notified of host paths again, since `glue_type` is 0
for every tracee, and no path that is resolved for a tracee makes files or bindings. -/
def GlueEnds (k : Kernel W) (start : Sys W) : Prop :=
  ∀ sys, Running k start sys → Glueless sys ∧
    ∀ (fuel : Nat) (userPath guestPath : CStr) (deref : Bool) (level : Nat) (out : Outcome W),
      canonicalize k fuel sys userPath deref guestPath level = some out → out.sys = sys

/-! ## Initializing the bindings -/

/-- Resolving a path leaves the mode as it is. -/
theorem canonicalize_glueType {fuel : Nat} {sys : Sys W} {userPath guestPath : CStr}
    {deref : Bool} {level : Nat} {out : Outcome W}
    (h : canonicalize k fuel sys userPath deref guestPath level = some out) :
    out.sys.tracee.glueType = sys.tracee.glueType := by
  have hstable : Stable fun s : Sys W => s.tracee.glueType = sys.tracee.glueType :=
    ⟨fun _ h => h, fun _ h => h, fun _ _ h => h⟩
  exact hstable.canonicalize rfl h

/-- **One binding** leaves its type behind where its guest path does not resolve. -/
theorem initializeBinding_glueType {fuel : Nat} {sys sys' : Sys W} {binding : Binding}
    (h : initializeBinding k fuel sys binding = some sys') :
    sys'.others = sys.others ∧ sys'.tracee.glueType =
      if binding.isRoot then sys.tracee.glueType
      else if resolves k fuel sys binding then none
      else some (glueTypeOf k sys.world binding.host.path) := by
  unfold initializeBinding at h
  split at h
  · rename_i hnot
    have hroot : ¬ binding.isRoot = true := by simpa [Binding.isRoot] using hnot
    rw [if_neg hroot]
    simp only at h
    obtain ⟨out, hout, rfl⟩ := Option.map_eq_some_iff.mp h
    have hothers : out.sys.others = sys.others := (canonicalize_grown hout).others
    unfold resolves
    rw [hout, Option.any_some]
    cases hr : out.result with
    | error e => exact ⟨hothers, canonicalize_glueType hout⟩
    | ok guestPath => exact ⟨hothers, rfl⟩
  · rename_i hequal
    obtain rfl := Option.some.inj h
    have hroot : binding.isRoot = true := by simpa [Binding.isRoot] using hequal
    rw [if_pos hroot]
    exact ⟨rfl, rfl⟩

/-- **The loop** leaves glue mode exactly if the last of the bindings resolves, or if there is
none and the mode was off before. -/
theorem initializeAll_glueType_iff {fuel : Nat} {l : List Binding} :
    ∀ {sys sys' : Sys W}, initializeAll k fuel sys l = some sys' →
      (sys'.tracee.glueType = none ↔ lastResolves k fuel sys l = true ∧
        (sys.tracee.glueType = none ∨ l.any (!·.isRoot) = true)) := by
  induction l with
  | nil =>
      intro sys sys' h
      obtain rfl := Option.some.inj h
      simp [lastResolves]
  | cons binding rest ih =>
      intro sys sys' h
      obtain ⟨mid, hmid, hrest⟩ := Option.bind_eq_some_iff.mp h
      have hglue := (initializeBinding_glueType hmid).2
      rw [ih hrest, lastResolves, hmid, Option.all_some, List.any_cons, hglue]
      cases binding.isRoot with
      | true => simp
      | false =>
          cases resolves k fuel sys binding with
          | true => simp
          | false => cases rest.any (!·.isRoot) <;> simp

theorem initializeAll_others {fuel : Nat} {l : List Binding} :
    ∀ {sys sys' : Sys W}, initializeAll k fuel sys l = some sys' → sys'.others = sys.others := by
  induction l with
  | nil =>
      intro sys sys' h
      obtain rfl := Option.some.inj h
      rfl
  | cons binding rest ih =>
      intro sys sys' h
      obtain ⟨mid, hmid, hrest⟩ := Option.bind_eq_some_iff.mp h
      exact (ih hrest).trans (initializeBinding_glueType hmid).1

/-! ## Afterwards -/

/-- No operation sets the mode. -/
theorem Glueless.kept : Kept (Glueless : Sys W → Prop) where
  world _ h := h
  glue := by
    intro sys _ h t ht
    rcases List.mem_cons.mp ht with rfl | ht
    · exact h sys.tracee List.mem_cons_self
    · exact h t (List.mem_cons_of_mem _ ht)
  insort _ _ h := h
  remove _ h := h
  chdir _ h := h

/-- **Nothing sets the mode after start-up.** -/
theorem Running.glueless {start sys : Sys W} (h : Running k start sys) (hstart : Glueless start) :
    Glueless sys := by
  induction h with
  | start => exact hstart
  | step hrun hstep ih => exact Glueless.kept.opRun ih hstep
  | @turn sys sys' pid hrun hresume ih =>
      unfold Sys.resume at hresume
      split at hresume
      · obtain rfl := Option.some.inj hresume
        exact ih
      · obtain ⟨t, hfind, rfl⟩ := Option.map_eq_some_iff.mp hresume
        intro u hu
        rcases List.mem_cons.mp hu with rfl | hu
        · exact ih u (List.mem_cons_of_mem _ (List.mem_of_find?_eq_some hfind))
        · rcases List.mem_cons.mp hu with rfl | hu
          · exact ih _ List.mem_cons_self
          · exact ih u (List.mem_cons_of_mem _ (List.mem_filter.mp hu).1)
  | @child sys pid cloneFs strippedNewns hrun ih =>
      intro t ht
      unfold newChild at ht
      cases cloneFs with
      | true =>
          rcases List.mem_cons.mp ht with rfl | ht
          · exact ih _ List.mem_cons_self
          · rcases List.mem_cons.mp ht with rfl | ht
            · rfl
            · exact ih t (List.mem_cons_of_mem _ ht)
      | false =>
          rcases List.mem_cons.mp ht with rfl | ht
          · exact ih _ List.mem_cons_self
          · rcases List.mem_cons.mp ht with rfl | ht
            · rfl
            · exact ih t (List.mem_cons_of_mem _ ht)

/-- **When glue mode ends with start-up**: exactly if the binding that is initialized last can be
canonicalized. -/
theorem glue_ends_iff {fuel : Nat} {sys start : Sys W} (hglue : Glueless sys)
    (h : initializeBindings k fuel sys = some start) :
    GlueEnds k start ↔ lastResolves k fuel sys sys.bindings.pending.reverse = true := by
  unfold initializeBindings at h
  split at h
  · cases h
  · obtain ⟨all, hall, rfl⟩ := Option.map_eq_some_iff.mp h
    have hiff := initializeAll_glueType_iff hall
    constructor
    · intro hends
      exact (hiff.mp ((hends _ .start).1 _ List.mem_cons_self)).1
    · intro hlast s hs
      have hstart : Glueless (all.setBindings { all.bindings with pending := [] }) := by
        intro t ht
        rcases List.mem_cons.mp ht with rfl | ht
        · exact hiff.mpr ⟨hlast, Or.inl (hglue _ List.mem_cons_self)⟩
        · exact hglue t (List.mem_cons_of_mem _ ((initializeAll_others hall) ▸ ht))
      have hglueless := hs.glueless hstart
      refine ⟨hglueless, ?_⟩
      intro fuel userPath guestPath deref level out hout
      exact canonicalize_static (hglueless _ List.mem_cons_self) hout

/-- A host whose root file system has a directory and a regular file. -/
def glueHost : Kernel Unit :=
  .frozen [("/r".toList, .dir), ("/r/d".toList, .dir), ("/r/f".toList, .reg)] []

/-- The state in which the bindings of the root and of one other path are pending. -/
def pendingSys (guest : CStr) : Sys Unit :=
  (newBinding glueHost (newBinding glueHost bootSys "/r".toList (some slash)).1 "/r".toList
    (some guest)).1

theorem pendingSys_glueless (guest : CStr) : Glueless (pendingSys guest) := by
  have hnew : ∀ {sys : Sys Unit} {host guest}, Glueless sys →
      Glueless (newBinding glueHost sys host guest).1 := by
    intro sys host guest hglue
    unfold newBinding
    split
    · exact hglue
    · simp only
      split <;> exact hglue
  apply hnew
  apply hnew
  intro t ht
  obtain rfl := List.mem_singleton.mp ht
  rfl

/-- "/r" bound to "/d/x", which can be canonicalized. -/
theorem glue_ends_below_directory : ∃ start,
    initializeBindings glueHost 9 (pendingSys "/d/x".toList) = some start ∧
      GlueEnds glueHost start := by
  have hrun : (initializeBindings glueHost 9 (pendingSys "/d/x".toList)).isSome = true := by
    decide
  obtain ⟨start, hstart⟩ := Option.isSome_iff_exists.mp hrun
  have hlast : lastResolves glueHost 9 (pendingSys "/d/x".toList)
      (pendingSys "/d/x".toList).bindings.pending.reverse = true := by
    decide
  exact ⟨start, hstart, (glue_ends_iff (pendingSys_glueless _) hstart).mpr hlast⟩

/-- "/r" bound to "/f/x", where "/f" is a regular file: the binding is skipped, but from then on
tracees build glue. -/
theorem glue_stays : ∃ start,
    initializeBindings glueHost 9 (pendingSys "/f/x".toList) = some start ∧
      start.tracee.glueType = some .dir ∧ ¬ GlueEnds glueHost start := by
  have hrun : (initializeBindings glueHost 9 (pendingSys "/f/x".toList)).map
      (·.tracee.glueType) = some (some .dir) := by
    decide
  obtain ⟨start, hstart, hglue⟩ := Option.map_eq_some_iff.mp hrun
  refine ⟨start, hstart, hglue, ?_⟩
  intro hends
  cases hglue.symm.trans ((hends start .start).1 _ List.mem_cons_self)

end PRoot
