import PRoot.Canon
import PRoot.PathEdits

/-!
# Runs of canonicalization

The loop of `canonicalize` as a relation, with one rule for each way a turn of
the loop can go.  It is the induction principle of everything that is proved
about whole runs.

* `CanonRun.total`: there is a run from every state, over every file system;
* `CanonRun.runLog`: levels and links stay within bounds, and an error is passed
  on by every invocation that is open when it arises;
* `canonicalize_terminates`: hence `canonicalize` ends, its recursion stays
  within `MAXSYMLINKS + 1`, and errors are passed on to the outermost caller.
-/

namespace PRoot

variable {W : Type} {k : Kernel W}

/-- The log of a pass that meets a link and starts on its text. -/
def followLog (f : Frame) (log : List Event) (component : CStr) : List Event :=
  log ++ [.follow f.level (f.symlinksFollowed + 1) f.guestPath component,
    .enter (f.level + (f.symlinksFollowed + 1))]

/-- The variables after a link is followed to `guestPath`. -/
def Frame.landed (f : Frame) (finality : Finality) (cursor guestPath : CStr) : Frame :=
  { f with symlinksFollowed := f.symlinksFollowed + 1, finality, cursor, guestPath }

/-- The variables of the invocation on the text of a link. -/
def Frame.nested (f : Frame) (guestPath text : CStr) : Frame :=
  .start true (f.level + (f.symlinksFollowed + 1)) guestPath text

/-- **The runs of the loop of `canonicalize`.** -/
inductive CanonRun (k : Kernel W) : Sys W → Frame → Outcome W → Prop
  /-- The last component was reached. -/
  | final {sys : Sys W} {f : Frame} (hf : f.finality.isFinal = true) :
      CanonRun k sys f (leave sys [] f.level (exitStage f.level f.finality f.guestPath))
  /-- A component cannot be entered. -/
  | fail {sys sys' : Sys W} {f : Frame} {log : List Event} {e : Errno}
      (hf : f.finality.isFinal = false)
      (hp : pass k sys f.derefFinal f.guestPath f.cursor = (sys', log, .fail e)) :
      CanonRun k sys f (leave sys' log f.level (.error e))
  /-- A link of /proc that is not followed. -/
  | stop {sys sys' : Sys W} {f : Frame} {log : List Event} {path : CStr}
      (hf : f.finality.isFinal = false)
      (hp : pass k sys f.derefFinal f.guestPath f.cursor = (sys', log, .stop path)) :
      CanonRun k sys f (leave sys' (log ++ [.stop f.level path]) f.level (.ok path))
  /-- A component is entered. -/
  | next {sys sys' : Sys W} {f : Frame} {log : List Event} {finality : Finality}
      {cursor guestPath : CStr} {out : Outcome W}
      (hf : f.finality.isFinal = false)
      (hp : pass k sys f.derefFinal f.guestPath f.cursor =
        (sys', log, .next finality cursor guestPath))
      (hrest : CanonRun k sys' { f with finality, cursor, guestPath } out) :
      CanonRun k sys f (out.after log)
  /-- A link is met that may not be followed any more. -/
  | refused {sys sys' : Sys W} {f : Frame} {log : List Event} {finality : Finality}
      {cursor component text : CStr} {e : Errno}
      (hf : f.finality.isFinal = false)
      (hp : pass k sys f.derefFinal f.guestPath f.cursor =
        (sys', log, .follow finality cursor component text))
      (he : enterStage k text f.guestPath (f.level + (f.symlinksFollowed + 1)) = .error e) :
      CanonRun k sys f (leave sys' (followLog f log component ++
        [.leave (f.level + (f.symlinksFollowed + 1)) (some e)]) f.level (.error e))
  /-- The text of a link cannot be canonicalized. -/
  | lost {sys sys' : Sys W} {f : Frame} {log : List Event} {finality : Finality}
      {cursor component text base : CStr} {inner : Outcome W} {e : Errno}
      (hf : f.finality.isFinal = false)
      (hp : pass k sys f.derefFinal f.guestPath f.cursor =
        (sys', log, .follow finality cursor component text))
      (he : enterStage k text f.guestPath (f.level + (f.symlinksFollowed + 1)) = .ok base)
      (hinner : CanonRun k sys' (f.nested base text) inner)
      (hr : inner.result = .error e) :
      CanonRun k sys f
        (leave inner.sys (followLog f log component ++ inner.log) f.level (.error e))
  /-- A link leads back to its own directory. -/
  | same {sys sys' : Sys W} {f : Frame} {log : List Event} {finality : Finality}
      {cursor component text base : CStr} {inner : Outcome W}
      (hf : f.finality.isFinal = false)
      (hp : pass k sys f.derefFinal f.guestPath f.cursor =
        (sys', log, .follow finality cursor component text))
      (he : enterStage k text f.guestPath (f.level + (f.symlinksFollowed + 1)) = .ok base)
      (hinner : CanonRun k sys' (f.nested base text) inner)
      (hr : inner.result = .ok f.guestPath) :
      CanonRun k sys f
        (leave inner.sys (followLog f log component ++ inner.log) f.level (.error .ELOOP))
  /-- A link does not lead to what its place requires. -/
  | wrong {sys sys' sys'' : Sys W} {f : Frame} {log : List Event} {finality : Finality}
      {cursor component text base guestPath : CStr} {inner : Outcome W} {e : Errno}
      (hf : f.finality.isFinal = false)
      (hp : pass k sys f.derefFinal f.guestPath f.cursor =
        (sys', log, .follow finality cursor component text))
      (he : enterStage k text f.guestPath (f.level + (f.symlinksFollowed + 1)) = .ok base)
      (hinner : CanonRun k sys' (f.nested base text) inner)
      (hr : inner.result = .ok guestPath) (hne : guestPath ≠ f.guestPath)
      (hs : substituteBindingStat k inner.sys finality guestPath = (sys'', .error e)) :
      CanonRun k sys f (leave sys''
        (followLog f log component ++ inner.log ++ [.look guestPath]) f.level (.error e))
  /-- A link is followed. -/
  | follow {sys sys' sys'' : Sys W} {f : Frame} {log : List Event} {finality : Finality}
      {cursor component text base guestPath : CStr} {inner out : Outcome W} {stat : Bool × CStr}
      (hf : f.finality.isFinal = false)
      (hp : pass k sys f.derefFinal f.guestPath f.cursor =
        (sys', log, .follow finality cursor component text))
      (he : enterStage k text f.guestPath (f.level + (f.symlinksFollowed + 1)) = .ok base)
      (hinner : CanonRun k sys' (f.nested base text) inner)
      (hr : inner.result = .ok guestPath) (hne : guestPath ≠ f.guestPath)
      (hs : substituteBindingStat k inner.sys finality guestPath = (sys'', .ok stat))
      (hrest : CanonRun k sys'' (f.landed finality cursor guestPath) out) :
      CanonRun k sys f
        (out.after (followLog f log component ++ inner.log ++ [.look guestPath]))

/-! ## The relation is the loop -/

variable {fuel : Nat} {sys : Sys W} {f : Frame} {out : Outcome W}

/-- What the loop computes is a run. -/
theorem canonLoop_run (h : canonLoop k fuel sys f = some out) : CanonRun k sys f out := by
  induction fuel generalizing sys f out with
  | zero => cases h
  | succ fuel ih =>
      rw [canonLoop] at h
      cases hf : f.finality.isFinal with
      | true =>
          rw [if_pos hf] at h
          obtain rfl := Option.some.inj h
          exact .final hf
      | false =>
          rw [if_neg (by simp [hf])] at h
          rcases hp : pass k sys f.derefFinal f.guestPath f.cursor with ⟨sys', log, result⟩
          rw [hp] at h
          cases result with
          | fail e =>
              obtain rfl := Option.some.inj h
              exact .fail hf hp
          | stop path =>
              obtain rfl := Option.some.inj h
              exact .stop hf hp
          | next finality cursor guestPath =>
              obtain ⟨rest, hrest, rfl⟩ := Option.map_eq_some_iff.mp h
              exact .next hf hp (ih hrest)
          | follow finality cursor component text =>
              simp only at h
              obtain ⟨inner, hinner, h⟩ := Option.bind_eq_some_iff.mp h
              cases he : enterStage k text f.guestPath (f.level + (f.symlinksFollowed + 1)) with
              | error e =>
                  rw [he] at hinner
                  obtain rfl := Option.some.inj hinner
                  obtain rfl := Option.some.inj h
                  exact .refused hf hp he
              | ok base =>
                  rw [he] at hinner
                  have hinner := ih hinner
                  cases hr : inner.result with
                  | error e =>
                      rw [hr] at h
                      obtain rfl := Option.some.inj h
                      exact .lost hf hp he hinner hr
                  | ok guestPath =>
                      rw [hr] at h
                      simp only at h
                      by_cases heq : guestPath = f.guestPath
                      · rw [if_pos heq] at h
                        obtain rfl := Option.some.inj h
                        exact .same hf hp he hinner (heq ▸ hr)
                      · rw [if_neg heq] at h
                        rcases hs : substituteBindingStat k inner.sys finality guestPath with
                          ⟨sys'', e | stat⟩
                        · rw [hs] at h
                          obtain rfl := Option.some.inj h
                          exact .wrong hf hp he hinner hr heq hs
                        · rw [hs] at h
                          obtain ⟨rest, hrest, rfl⟩ := Option.map_eq_some_iff.mp h
                          exact .follow hf hp he hinner hr heq hs (ih hrest)

/-- The loop computes every run, with enough fuel. -/
theorem CanonRun.canonLoop (h : CanonRun k sys f out) :
    ∃ fuel₀, ∀ fuel, fuel₀ ≤ fuel → canonLoop k fuel sys f = some out := by
  induction h with
  | @final sys f hf =>
      refine ⟨1, fun fuel hfuel => ?_⟩
      obtain ⟨n, rfl⟩ : ∃ n, fuel = n + 1 := ⟨fuel - 1, by omega⟩
      rw [PRoot.canonLoop, if_pos hf]
  | @fail sys sys' f log e hf hp =>
      refine ⟨1, fun fuel hfuel => ?_⟩
      obtain ⟨n, rfl⟩ : ∃ n, fuel = n + 1 := ⟨fuel - 1, by omega⟩
      rw [PRoot.canonLoop, if_neg (by simp [hf]), hp]
  | @stop sys sys' f log path hf hp =>
      refine ⟨1, fun fuel hfuel => ?_⟩
      obtain ⟨n, rfl⟩ : ∃ n, fuel = n + 1 := ⟨fuel - 1, by omega⟩
      rw [PRoot.canonLoop, if_neg (by simp [hf]), hp]
  | @next sys sys' f log finality cursor guestPath out hf hp hrest ih =>
      obtain ⟨m, hm⟩ := ih
      refine ⟨m + 1, fun fuel hfuel => ?_⟩
      obtain ⟨n, rfl⟩ : ∃ n, fuel = n + 1 := ⟨fuel - 1, by omega⟩
      rw [PRoot.canonLoop, if_neg (by simp [hf]), hp]
      simp only [hm n (by omega), Option.map_some]
  | @refused sys sys' f log finality cursor component text e hf hp he =>
      refine ⟨1, fun fuel hfuel => ?_⟩
      obtain ⟨n, rfl⟩ : ∃ n, fuel = n + 1 := ⟨fuel - 1, by omega⟩
      rw [PRoot.canonLoop, if_neg (by simp [hf]), hp]
      simp only [he, Option.bind_some]
      rfl
  | @lost sys sys' f log finality cursor component text base inner e hf hp he hinner hr ih =>
      obtain ⟨m, hm⟩ := ih
      refine ⟨m + 1, fun fuel hfuel => ?_⟩
      obtain ⟨n, rfl⟩ : ∃ n, fuel = n + 1 := ⟨fuel - 1, by omega⟩
      have hin := hm n (by omega)
      rw [Frame.nested] at hin
      rw [PRoot.canonLoop, if_neg (by simp [hf]), hp]
      simp only [he, hin, Option.bind_some, hr]
      rfl
  | @same sys sys' f log finality cursor component text base inner hf hp he hinner hr ih =>
      obtain ⟨m, hm⟩ := ih
      refine ⟨m + 1, fun fuel hfuel => ?_⟩
      obtain ⟨n, rfl⟩ : ∃ n, fuel = n + 1 := ⟨fuel - 1, by omega⟩
      have hin := hm n (by omega)
      rw [Frame.nested] at hin
      rw [PRoot.canonLoop, if_neg (by simp [hf]), hp]
      simp only [he, hin, Option.bind_some, hr, if_true]
      rfl
  | @wrong sys sys' sys'' f log finality cursor component text base guestPath inner e hf hp he
      hinner hr hne hs ih =>
      obtain ⟨m, hm⟩ := ih
      refine ⟨m + 1, fun fuel hfuel => ?_⟩
      obtain ⟨n, rfl⟩ : ∃ n, fuel = n + 1 := ⟨fuel - 1, by omega⟩
      have hin := hm n (by omega)
      rw [Frame.nested] at hin
      rw [PRoot.canonLoop, if_neg (by simp [hf]), hp]
      simp only [he, hin, Option.bind_some, hr, if_neg hne, hs]
      rfl
  | @follow sys sys' sys'' f log finality cursor component text base guestPath inner out stat hf hp
      he hinner hr hne hs hrest ihinner ihrest =>
      obtain ⟨m, hm⟩ := ihinner
      obtain ⟨m', hm'⟩ := ihrest
      refine ⟨max m m' + 1, fun fuel hfuel => ?_⟩
      obtain ⟨n, rfl⟩ : ∃ n, fuel = n + 1 := ⟨fuel - 1, by omega⟩
      have hin := hm n (by omega)
      have hout := hm' n (by omega)
      rw [Frame.nested] at hin
      rw [Frame.landed] at hout
      rw [PRoot.canonLoop, if_neg (by simp [hf]), hp]
      simp only [he, hin, Option.bind_some, hr, if_neg hne, hs, hout, Option.map_some]
      rfl

/-- There is one run at most. -/
theorem CanonRun.unique {out' : Outcome W} (h : CanonRun k sys f out) (h' : CanonRun k sys f out') :
    out = out' := by
  obtain ⟨m, hm⟩ := h.canonLoop
  obtain ⟨m', hm'⟩ := h'.canonLoop
  have heq := hm (max m m') (Nat.le_max_left _ _)
  rw [hm' (max m m') (Nat.le_max_right _ _)] at heq
  exact (Option.some.inj heq).symm

/-! ## Every pass consumes text -/

variable {cursor cursor' : CStr} {finality : Finality}

theorem nextComponent_progress {component : CStr}
    (h : nextComponent cursor = .ok (component, finality, cursor')) :
    finality.isFinal = true ∨ cursor'.length < cursor.length := by
  have hspec := nextComponent_spec cursor
  rw [h] at hspec
  cases hspec with
  | empty _ => exact Or.inl rfl
  | last _ _ =>
      left
      split <;> rfl
  | more _ _ _ hshort _ => exact Or.inr hshort

/-- Where the cursor stands after a pass that goes on, if it does. -/
def Pass.rest : Pass → Option (Finality × CStr)
  | .next finality cursor _ => some (finality, cursor)
  | .follow finality cursor _ _ => some (finality, cursor)
  | _ => none

theorem enterComponent_rest {finality' : Finality} {g c : CStr}
    (h : (enterComponent finality cursor g c).rest = some (finality', cursor')) :
    finality' = finality ∧ cursor' = cursor := by
  unfold enterComponent at h
  split at h
  · cases h
  · cases h
    exact ⟨rfl, rfl⟩

variable {deref : Bool}

theorem passComponent_rest {finality' : Finality} {g c p : CStr}
    (h : (passComponent k sys deref finality cursor g c p).2.rest = some (finality', cursor')) :
    finality' = finality ∧ cursor' = cursor := by
  unfold passComponent at h
  split at h
  · cases h
  · split at h
    · exact enterComponent_rest h
    · split at h
      · cases h
      · cases h
      · cases h
        exact ⟨rfl, rfl⟩

variable {guestPath : CStr}

/-- **A pass that goes on has come to the end or has consumed text.** -/
theorem pass_progress (h : (pass k sys deref guestPath cursor).2.2.rest = some (finality, cursor')) :
    finality.isFinal = true ∨ cursor'.length < cursor.length := by
  unfold pass at h
  split at h
  · cases h
  · rename_i component fin cur hnext
    have hprog := nextComponent_progress hnext
    split at h
    · cases h
      rcases hprog with hfin | hshort
      · exact Or.inl (by rw [if_pos hfin]; rfl)
      · exact Or.inr hshort
    · split at h
      · cases h
        rcases hprog with hfin | hshort
        · exact Or.inl (by rw [if_pos hfin]; rfl)
        · exact Or.inr hshort
      · split at h
        · cases h
        · obtain ⟨rfl, rfl⟩ := passComponent_rest h
          exact hprog

variable {userPath : CStr} {level : Nat}

/-- An invocation that starts is within the limit. -/
theorem enterStage_level {base : CStr} (h : enterStage k userPath guestPath level = .ok base) :
    level ≤ k.maxSymlinks := by
  unfold enterStage at h
  split at h
  · cases h
  · omega

/-- **There is a run from every state.**  The invocation on the text of a link
has a higher level, the rest of the loop has less text. -/
theorem CanonRun.total (sys : Sys W) (f : Frame) : ∃ out, CanonRun k sys f out := by
  induction hb : k.maxSymlinks - f.level using Nat.strong_induction_on generalizing sys f with
  | _ b ihnested =>
  induction hn : f.cursor.length using Nat.strong_induction_on generalizing sys f with
  | _ n ihrest =>
  have hgo : ∀ (sys' : Sys W) (f' : Frame), f'.level = f.level →
      (f'.finality.isFinal = true ∨ f'.cursor.length < f.cursor.length) →
      ∃ out, CanonRun k sys' f' out := by
    rintro sys' f' hlevel (hfin | hshort)
    · exact ⟨_, .final hfin⟩
    · exact ihrest _ (hn ▸ hshort) sys' f' (by rw [hlevel, hb]) rfl
  cases hf : f.finality.isFinal with
  | true => exact ⟨_, .final hf⟩
  | false =>
      have hprog : ∀ {finality cursor},
          (pass k sys f.derefFinal f.guestPath f.cursor).2.2.rest = some (finality, cursor) →
          finality.isFinal = true ∨ cursor.length < f.cursor.length := fun h => pass_progress h
      rcases hp : pass k sys f.derefFinal f.guestPath f.cursor with ⟨sys', log, result⟩
      rw [hp] at hprog
      cases result with
      | fail e => exact ⟨_, .fail hf hp⟩
      | stop path => exact ⟨_, .stop hf hp⟩
      | next finality cursor guestPath =>
          obtain ⟨out, hout⟩ := hgo sys' { f with finality, cursor, guestPath } rfl (hprog rfl)
          exact ⟨_, .next hf hp hout⟩
      | follow finality cursor component text =>
          cases he : enterStage k text f.guestPath (f.level + (f.symlinksFollowed + 1)) with
          | error e => exact ⟨_, .refused hf hp he⟩
          | ok base =>
              have hlevel := enterStage_level he
              obtain ⟨inner, hinner⟩ := ihnested (k.maxSymlinks - (f.nested base text).level)
                (by simp only [Frame.nested, Frame.start]; omega) sys' (f.nested base text) rfl
              cases hr : inner.result with
              | error e => exact ⟨_, .lost hf hp he hinner hr⟩
              | ok guestPath =>
                  by_cases heq : guestPath = f.guestPath
                  · exact ⟨_, .same hf hp he hinner (heq ▸ hr)⟩
                  · rcases hs : substituteBindingStat k inner.sys finality guestPath with
                      ⟨sys'', e | stat⟩
                    · exact ⟨_, .wrong hf hp he hinner hr heq hs⟩
                    · obtain ⟨out, hout⟩ :=
                        hgo sys'' (f.landed finality cursor guestPath) rfl (hprog rfl)
                      exact ⟨_, .follow hf hp he hinner hr heq hs hout⟩

/-! ## Without glue nothing changes -/

theorem substituteBindingStat_static (h : sys.tracee.glueType = none) :
    (substituteBindingStat k sys finality guestPath).1 = sys := by
  unfold substituteBindingStat
  split
  · rfl
  · rw [h]
    split
    · rfl
    · rfl
    · rename_i hglue
      cases hglue

variable {log : List Event}

/-- A pass changes the state by its lookup only. -/
theorem pass_state {P : Sys W → Prop}
    (hstat : ∀ {sys : Sys W}, P sys → ∀ finality guestPath,
      P (substituteBindingStat k sys finality guestPath).1)
    {sys' : Sys W} {result : Pass} (h : P sys)
    (hp : pass k sys deref guestPath cursor = (sys', log, result)) : P sys' := by
  have hcomponent : ∀ finality cur component scratch,
      P (passComponent k sys deref finality cur guestPath component scratch).1 := by
    intro finality cur component scratch
    have hlooked := hstat h finality scratch
    unfold passComponent
    rcases hs : substituteBindingStat k sys finality scratch with ⟨sys'', e | ⟨isLink, hostPath⟩⟩
    · rw [hs] at hlooked
      exact hlooked
    · rw [hs] at hlooked
      simp only
      split
      · exact hlooked
      · split <;> exact hlooked
  unfold pass at hp
  split at hp
  · cases hp
    exact h
  · split at hp
    · cases hp
      exact h
    · split at hp
      · cases hp
        exact h
      · split at hp
        · cases hp
          exact h
        · simp only [Prod.mk.injEq] at hp
          obtain ⟨rfl, -, -⟩ := hp
          exact hcomponent _ _ _ _

/-- **A run changes the state by its lookups only.** -/
theorem CanonRun.state {P : Sys W → Prop}
    (hstat : ∀ {sys : Sys W}, P sys → ∀ finality guestPath,
      P (substituteBindingStat k sys finality guestPath).1)
    (hrun : CanonRun k sys f out) (h : P sys) : P out.sys := by
  have hlook : ∀ {sys sys' : Sys W} {finality : Finality} {guestPath : CStr}
      {r : Except Errno (Bool × CStr)}, P sys →
      substituteBindingStat k sys finality guestPath = (sys', r) → P sys' := by
    intro sys sys' finality guestPath r h hs
    have hlooked := hstat h finality guestPath
    rwa [hs] at hlooked
  induction hrun with
  | final hf => exact h
  | fail hf hp => exact pass_state hstat h hp
  | stop hf hp => exact pass_state hstat h hp
  | next hf hp hrest ih => exact ih (pass_state hstat h hp)
  | refused hf hp he => exact pass_state hstat h hp
  | lost hf hp he hinner hr ih => exact ih (pass_state hstat h hp)
  | same hf hp he hinner hr ih => exact ih (pass_state hstat h hp)
  | wrong hf hp he hinner hr hne hs ih => exact hlook (ih (pass_state hstat h hp)) hs
  | follow hf hp he hinner hr hne hs hrest ihinner ihrest =>
      exact ihrest (hlook (ihinner (pass_state hstat h hp)) hs)

theorem static_lookup (hglue : sys.tracee.glueType = none) {sys' : Sys W} (h : sys' = sys)
    (finality : Finality) (guestPath : CStr) :
    (substituteBindingStat k sys' finality guestPath).1 = sys := by
  rw [h]
  exact substituteBindingStat_static hglue

theorem pass_static {sys' : Sys W} {result : Pass} (h : sys.tracee.glueType = none)
    (hp : pass k sys deref guestPath cursor = (sys', log, result)) : sys' = sys :=
  pass_state (P := fun state => state = sys) (static_lookup h) rfl hp

/-- **What one pass can do**, without glue.  The first component of the text is
"." or "..", or it is looked up: then it is entered, canonicalization stops at
it, or it is a link to follow. -/
inductive PassSpec (k : Kernel W) (sys : Sys W) (deref : Bool) (g cursor : CStr) :
    List Event → Pass → Prop
  | fail {log : List Event} {e : Errno} : PassSpec k sys deref g cursor log (.fail e)
  | here {finality : Finality} {cur : CStr}
      (hnext : nextComponent cursor = .ok (['.'], finality, cur)) :
      PassSpec k sys deref g cursor []
        (.next (if finality.isFinal then .finalDot else finality) cur g)
  | up {finality : Finality} {cur : CStr}
      (hnext : nextComponent cursor = .ok (['.', '.'], finality, cur)) :
      PassSpec k sys deref g cursor []
        (.next (if finality.isFinal then .finalSlash else finality) cur (popComponent g))
  | enter {component cur scratch hostPath : CStr} {finality : Finality} {isLink : Bool}
      (hnext : nextComponent cursor = .ok (component, finality, cur))
      (hdot : component ≠ ['.']) (hdotdot : component ≠ ['.', '.'])
      (hjoin : joinPaths [g, component] = .ok scratch)
      (hstat : substituteBindingStat k sys finality scratch = (sys, .ok (isLink, hostPath)))
      (hlink : isLink = false ∨ finality = .finalNormal ∧ deref = false) :
      PassSpec k sys deref g cursor [.look scratch] (.next finality cur scratch)
  | stop {component cur scratch hostPath path : CStr} {finality : Finality}
      (hnext : nextComponent cursor = .ok (component, finality, cur))
      (hdot : component ≠ ['.']) (hdotdot : component ≠ ['.', '.'])
      (hjoin : joinPaths [g, component] = .ok scratch)
      (hstat : substituteBindingStat k sys finality scratch = (sys, .ok (true, hostPath)))
      (htext : linkText k sys finality g component hostPath = .ok (.stop path)) :
      PassSpec k sys deref g cursor [.look scratch] (.stop path)
  | follow {component cur scratch hostPath text : CStr} {finality : Finality}
      (hnext : nextComponent cursor = .ok (component, finality, cur))
      (hdot : component ≠ ['.']) (hdotdot : component ≠ ['.', '.'])
      (hjoin : joinPaths [g, component] = .ok scratch)
      (hstat : substituteBindingStat k sys finality scratch = (sys, .ok (true, hostPath)))
      (hnormal : ¬ (finality = .finalNormal ∧ deref = false))
      (htext : linkText k sys finality g component hostPath = .ok (.text text)) :
      PassSpec k sys deref g cursor [.look scratch] (.follow finality cur component text)

theorem pass_spec {sys' : Sys W} {g : CStr} {result : Pass} (h : sys.tracee.glueType = none)
    (hp : pass k sys deref g cursor = (sys', log, result)) :
    PassSpec k sys deref g cursor log result := by
  unfold pass at hp
  split at hp
  · cases hp
    exact .fail
  · rename_i component finality cur hnext
    split at hp
    · rename_i hc
      cases hp
      exact .here (hc ▸ hnext)
    · split at hp
      · rename_i hc
        cases hp
        exact .up (hc ▸ hnext)
      · rename_i hdot hdotdot
        split at hp
        · cases hp
          exact .fail
        · rename_i scratch hjoin
          simp only [Prod.mk.injEq] at hp
          obtain ⟨-, rfl, rfl⟩ := hp
          have hstatic : (substituteBindingStat k sys finality scratch).1 = sys :=
            substituteBindingStat_static h
          unfold passComponent
          rcases hs : substituteBindingStat k sys finality scratch with
            ⟨sys'', e | ⟨isLink, hostPath⟩⟩
          · exact .fail
          · rw [hs] at hstatic
            obtain rfl : sys'' = sys := hstatic
            simp only
            split
            · rename_i hcond
              rw [enterComponent, hjoin]
              refine .enter hnext hdot hdotdot hjoin hs ?_
              rcases hcond with hno | ⟨hfin, hno⟩
              · exact Or.inl (by simpa using hno)
              · exact Or.inr ⟨hfin, by simpa using hno⟩
            · rename_i hcond
              have hlink : isLink = true := by
                by_contra hno
                exact hcond (Or.inl hno)
              subst hlink
              split
              · exact .fail
              · rename_i path htext
                exact .stop hnext hdot hdotdot hjoin hs htext
              · rename_i text htext
                refine .follow hnext hdot hdotdot hjoin hs (fun hc => hcond (Or.inr ⟨hc.1, ?_⟩)) htext
                simp [hc.2]

/-- **Without glue a run leaves the state alone.** -/
theorem CanonRun.static (h : CanonRun k sys f out) (hglue : sys.tracee.glueType = none) :
    out.sys = sys :=
  h.state (P := fun state => state = sys) (static_lookup hglue) rfl

/-! ## Runs that look up the same -/

section Carry

variable {k' : Kernel W} {sys₂ : Sys W} {looked : CStr → Prop}

/-- What is looked up, of the paths of a run, is the same on another host or with other
lists, and links read the same. -/
structure LooksSame (k k' : Kernel W) (sys sys₂ : Sys W) (looked : CStr → Prop) : Prop where
  limit : k'.maxSymlinks = k.maxSymlinks
  stat : ∀ finality path, looked path → substituteBindingStat k' sys₂ finality path =
    (sys₂, (substituteBindingStat k sys finality path).2)
  link : ∀ finality guestPath component hostPath,
    linkText k' sys₂ finality guestPath component hostPath =
      linkText k sys finality guestPath component hostPath

theorem LooksSame.enterStage (h : LooksSame k k' sys sys₂ looked) (userPath guestPath : CStr)
    (level : Nat) :
    enterStage k' userPath guestPath level = enterStage k userPath guestPath level := by
  rw [PRoot.enterStage, PRoot.enterStage, h.limit]

theorem LooksSame.pass (h : LooksSame k k' sys sys₂ looked) (hglue : sys.tracee.glueType = none)
    (hlook : ∀ path, .look path ∈ (pass k sys deref guestPath cursor).2.1 → looked path) :
    pass k' sys₂ deref guestPath cursor = (sys₂, (pass k sys deref guestPath cursor).2) := by
  unfold PRoot.pass at hlook ⊢
  cases hnext : nextComponent cursor with
  | error e => rfl
  | ok next =>
      obtain ⟨component, finality, cur⟩ := next
      rw [hnext] at hlook
      simp only at hlook ⊢
      by_cases hdot : component = ['.']
      · simp only [if_pos hdot]
      · by_cases hdots : component = ['.', '.']
        · simp only [if_neg hdot, if_pos hdots]
        · simp only [if_neg hdot, if_neg hdots] at hlook ⊢
          cases hjoin : joinPaths [guestPath, component] with
          | error e => rfl
          | ok scratchPath =>
              rw [hjoin] at hlook
              have hstatic : (substituteBindingStat k sys finality scratchPath).1 = sys :=
                substituteBindingStat_static hglue
              have hsame := h.stat finality _ (hlook scratchPath (List.mem_singleton_self _))
              simp only [passComponent, hsame]
              rcases hs : substituteBindingStat k sys finality scratchPath with
                ⟨sys', e | ⟨isLink, hostPath⟩⟩
              · rfl
              · rw [hs] at hstatic
                obtain rfl : sys' = sys := hstatic
                simp only [h.link]
                split
                · rfl
                · split <;> rfl

/-- **A run depends on the host and on the lists through what it looks up.**  By induction
over its turns. -/
theorem CanonRun.carry (hrun : CanonRun k sys f out) (hglue : sys.tracee.glueType = none)
    (h : LooksSame k k' sys sys₂ looked) (hlook : ∀ path, .look path ∈ out.log → looked path) :
    CanonRun k' sys₂ f { out with sys := sys₂ } := by
  have hpass : ∀ {sys sys' : Sys W} {deref : Bool} {guestPath cursor : CStr} {log : List Event}
      {result : Pass}, LooksSame k k' sys sys₂ looked → sys.tracee.glueType = none →
      pass k sys deref guestPath cursor = (sys', log, result) →
      (∀ path, .look path ∈ log → looked path) →
      pass k' sys₂ deref guestPath cursor = (sys₂, log, result) := by
    intro sys sys' deref guestPath cursor log result h hglue hp hlook
    rw [h.pass hglue (by rw [hp]; exact hlook), hp]
  induction hrun with
  | final hf => exact .final hf
  | fail hf hp => exact .fail hf (hpass h hglue hp fun path hm => hlook path (by simp [leave, hm]))
  | stop hf hp => exact .stop hf (hpass h hglue hp fun path hm => hlook path (by simp [leave, hm]))
  | next hf hp hrest ih =>
      have hp' := hpass h hglue hp fun path hm => hlook path (by simp [Outcome.after, hm])
      obtain rfl := pass_static hglue hp
      exact .next hf hp' (ih hglue h fun path hm => hlook path (by simp [Outcome.after, hm]))
  | refused hf hp he =>
      have hp' := hpass h hglue hp fun path hm => hlook path (by simp [leave, followLog, hm])
      exact .refused hf hp' ((h.enterStage _ _ _).trans he)
  | @lost sys sys' f log finality cursor component text base inner e hf hp he hinner hr ih =>
      have hp' := hpass h hglue hp fun path hm => hlook path (by simp [leave, followLog, hm])
      obtain rfl := pass_static hglue hp
      have hin := ih hglue h fun path hm => hlook path (by simp [leave, hm])
      have hrun' := CanonRun.lost hf hp' ((h.enterStage _ _ _).trans he) hin hr
      exact hrun'
  | @same sys sys' f log finality cursor component text base inner hf hp he hinner hr ih =>
      have hp' := hpass h hglue hp fun path hm => hlook path (by simp [leave, followLog, hm])
      obtain rfl := pass_static hglue hp
      have hin := ih hglue h fun path hm => hlook path (by simp [leave, hm])
      have hrun' := CanonRun.same hf hp' ((h.enterStage _ _ _).trans he) hin hr
      exact hrun'
  | @wrong sys sys' sys'' f log finality cursor component text base guestPath inner e hf hp he
      hinner hr hne hs ih =>
      have hp' := hpass h hglue hp fun path hm => hlook path (by simp [leave, followLog, hm])
      obtain rfl := pass_static hglue hp
      rw [hinner.static hglue] at hs
      have hs' : substituteBindingStat k' sys₂ finality guestPath = (sys₂, .error e) := by
        rw [h.stat finality _ (hlook guestPath (by simp [leave])), hs]
      have hin := ih hglue h fun path hm => hlook path (by simp [leave, hm])
      have hrun' := CanonRun.wrong hf hp' ((h.enterStage _ _ _).trans he) hin hr hne hs'
      exact hrun'
  | @follow sys sys' sys'' f log finality cursor component text base guestPath inner out stat hf hp
      he hinner hr hne hs hrest ihinner ihrest =>
      have hp' := hpass h hglue hp fun path hm =>
        hlook path (by simp [Outcome.after, followLog, hm])
      obtain rfl := pass_static hglue hp
      rw [hinner.static hglue] at hs
      have hs' : substituteBindingStat k' sys₂ finality guestPath = (sys₂, .ok stat) := by
        rw [h.stat finality _ (hlook guestPath (by simp [Outcome.after])), hs]
      have hsame : sys'' = sys' := by
        have hstatic : (substituteBindingStat k sys' finality guestPath).1 = sys' :=
          substituteBindingStat_static hglue
        rwa [hs] at hstatic
      subst hsame
      have hin := ihinner hglue h fun path hm => hlook path (by simp [Outcome.after, hm])
      have hout := ihrest hglue h fun path hm => hlook path (by simp [Outcome.after, hm])
      have hrun' := CanonRun.follow hf hp' ((h.enterStage _ _ _).trans he) hin hr hne hs' hout
      exact hrun'

end Carry

/-! ## What a run logs -/

/-- An event of a run in which nothing has gone wrong yet. -/
def Event.Calm (k : Kernel W) : Event → Prop
  | .enter level => level ≤ k.maxSymlinks + 1
  | .follow level count _ _ => level + count ≤ k.maxSymlinks
  | .leave _ status => status = none
  | .look _ => True
  | .stop _ _ => True

/-- The event is a link met when no further one may be followed. -/
def Event.AtLimit (k : Kernel W) : Event → Prop
  | .follow level count _ _ => level + count = k.maxSymlinks + 1
  | _ => False

/-- The log of a run: calm when it succeeds, and otherwise calm up to the point
where the error arises, from where on all open invocations leave with it. -/
def RunLog (k : Kernel W) (log : List Event) : Except Errno CStr → Prop
  | .ok _ => ∀ ev ∈ log, ev.Calm k
  | .error e => ∃ before leaving, log = before ++ leaving ∧
      (∀ ev ∈ before, ev.Calm k ∨ (ev.AtLimit k ∧ e = .ELOOP)) ∧
      ∀ ev ∈ leaving, ∃ level, ev = .leave level (some e)

theorem RunLog.prepend {calm : List Event} {result : Except Errno CStr} (h : RunLog k log result)
    (hcalm : ∀ ev ∈ calm, ev.Calm k) :
    RunLog k (calm ++ log) result := by
  cases result with
  | ok path =>
      intro ev hev
      rcases List.mem_append.mp hev with hev | hev
      · exact hcalm ev hev
      · exact h ev hev
  | error e =>
      obtain ⟨before, leaving, rfl, hbefore, hleaving⟩ := h
      refine ⟨calm ++ before, leaving, by simp, fun ev hev => ?_, hleaving⟩
      rcases List.mem_append.mp hev with hev | hev
      · exact Or.inl (hcalm ev hev)
      · exact hbefore ev hev

/-- Leaving with the error that has arisen. -/
theorem RunLog.leave_error {e : Errno} (h : RunLog k log (.error e)) :
    RunLog k (leave sys log level (.error e)).log (.error e) := by
  obtain ⟨before, leaving, rfl, hbefore, hleaving⟩ := h
  refine ⟨before, leaving ++ [.leave level (some e)], by simp [leave], hbefore, ?_⟩
  intro ev hev
  rcases List.mem_append.mp hev with hev | hev
  · exact hleaving ev hev
  · exact ⟨level, List.mem_singleton.mp hev⟩

/-- Leaving when nothing has gone wrong before. -/
theorem RunLog.leave_calm {result : Except Errno CStr} (hcalm : ∀ ev ∈ log, ev.Calm k) :
    RunLog k (leave sys log level result).log (leave sys log level result).result := by
  cases result with
  | ok path =>
      intro ev hev
      rcases List.mem_append.mp hev with hev | hev
      · exact hcalm ev hev
      · rw [List.mem_singleton.mp hev]
        exact rfl
  | error e =>
      exact RunLog.leave_error ⟨log, [], by simp, fun ev hev => Or.inl (hcalm ev hev), by simp⟩

/-- A pass logs lookups only. -/
theorem pass_log :
    ∀ ev ∈ (pass k sys deref guestPath cursor).2.1, ∃ path, ev = .look path := by
  unfold pass
  split
  · simp
  · split
    · simp
    · split
      · simp
      · split
        · simp
        · simp

theorem pass_calm {sys' : Sys W} {result : Pass}
    (hp : pass k sys deref guestPath cursor = (sys', log, result)) :
    ∀ ev ∈ log, ev.Calm k := by
  intro ev hev
  have hin : ev ∈ (pass k sys deref guestPath cursor).2.1 := by rw [hp]; exact hev
  obtain ⟨path, rfl⟩ := pass_log ev hin
  trivial

theorem followLog_calm {component : CStr} (hlog : ∀ ev ∈ log, ev.Calm k)
    (hlevel : f.level + (f.symlinksFollowed + 1) ≤ k.maxSymlinks) :
    ∀ ev ∈ followLog f log component, ev.Calm k := by
  intro ev hev
  rcases List.mem_append.mp hev with hev | hev
  · exact hlog ev hev
  · have : ev = .follow f.level (f.symlinksFollowed + 1) f.guestPath component ∨
        ev = .enter (f.level + (f.symlinksFollowed + 1)) := by simpa using hev
    rcases this with rfl | rfl
    · exact hlevel
    · show _ ≤ _
      omega

/-- **Levels, links and errors of a run.**  By induction over its turns; every
turn starts within the limit. -/
theorem CanonRun.runLog (h : CanonRun k sys f out)
    (hlevel : f.level + f.symlinksFollowed ≤ k.maxSymlinks) : RunLog k out.log out.result := by
  induction h with
  | final hf => exact RunLog.leave_calm (by simp)
  | fail hf hp => exact RunLog.leave_calm (pass_calm hp)
  | stop hf hp =>
      refine RunLog.leave_calm fun ev hev => ?_
      rcases List.mem_append.mp hev with hev | hev
      · exact pass_calm hp ev hev
      · rw [List.mem_singleton.mp hev]
        trivial
  | next hf hp hrest ih => exact (ih hlevel).prepend (pass_calm hp)
  | @refused sys sys' f log finality cursor component text e hf hp he =>
      refine RunLog.leave_error
        ⟨followLog f log component, [.leave _ (some e)], rfl, fun ev hev => ?_, by simp⟩
      rcases Nat.lt_or_ge k.maxSymlinks (f.level + (f.symlinksFollowed + 1)) with hgt | hle
      · -- the limit is reached right here
        have heloop : e = .ELOOP := by
          unfold enterStage at he
          rw [if_pos hgt] at he
          exact (Except.error.inj he).symm
        rcases List.mem_append.mp hev with hev | hev
        · exact Or.inl (pass_calm hp ev hev)
        · have : ev = .follow f.level (f.symlinksFollowed + 1) f.guestPath component ∨
              ev = .enter (f.level + (f.symlinksFollowed + 1)) := by simpa using hev
          rcases this with rfl | rfl
          · exact Or.inr ⟨show _ = _ by omega, heloop⟩
          · exact Or.inl (show _ ≤ _ by omega)
      · exact Or.inl (followLog_calm (pass_calm hp) hle ev hev)
  | @lost sys sys' f log finality cursor component text base inner e hf hp he hinner hr ih =>
      have hle := enterStage_level he
      have hin := ih hle
      rw [hr] at hin
      exact (hin.prepend (followLog_calm (pass_calm hp) hle)).leave_error
  | @same sys sys' f log finality cursor component text base inner hf hp he hinner hr ih =>
      have hle := enterStage_level he
      have hin := ih hle
      rw [hr] at hin
      exact RunLog.leave_calm (hin.prepend (followLog_calm (pass_calm hp) hle))
  | @wrong sys sys' sys'' f log finality cursor component text base guestPath inner e hf hp he
      hinner hr hne hs ih =>
      have hle := enterStage_level he
      have hin := ih hle
      rw [hr] at hin
      refine RunLog.leave_calm fun ev hev => ?_
      rcases List.mem_append.mp hev with hev | hev
      · exact hin.prepend (followLog_calm (pass_calm hp) hle) ev hev
      · rw [List.mem_singleton.mp hev]
        trivial
  | @follow sys sys' sys'' f log finality cursor component text base guestPath inner out stat hf hp
      he hinner hr hne hs hrest ihinner ihrest =>
      have hle := enterStage_level he
      have hin := ihinner hle
      rw [hr] at hin
      refine RunLog.prepend (ihrest hle) fun ev hev => ?_
      rcases List.mem_append.mp hev with hev | hev
      · exact hin.prepend (followLog_calm (pass_calm hp) hle) ev hev
      · rw [List.mem_singleton.mp hev]
        trivial

/-! ## Whole runs of `canonicalize` -/

/-- A run of `canonicalize`, whatever its fuel. -/
def Canonicalizes (k : Kernel W) (sys : Sys W) (userPath : CStr) (derefFinal : Bool)
    (guestPath : CStr) (level : Nat) (out : Outcome W) : Prop :=
  ∃ fuel₀, ∀ fuel, fuel₀ ≤ fuel →
    canonicalize k fuel sys userPath derefFinal guestPath level = some out

theorem canonicalize_cases (h : canonicalize k fuel sys userPath deref guestPath level = some out) :
    (∃ e, enterStage k userPath guestPath level = .error e ∧
      out = leave sys [.enter level] level (.error e)) ∨
    ∃ base inner, enterStage k userPath guestPath level = .ok base ∧
      CanonRun k sys (.start deref level base userPath) inner ∧
      out = inner.after [.enter level] := by
  unfold canonicalize at h
  cases he : enterStage k userPath guestPath level with
  | error e =>
      rw [he] at h
      exact Or.inl ⟨e, rfl, (Option.some.inj h).symm⟩
  | ok base =>
      rw [he] at h
      obtain ⟨inner, hinner, rfl⟩ := Option.map_eq_some_iff.mp h
      exact Or.inr ⟨base, inner, rfl, canonLoop_run hinner, rfl⟩

/-- More fuel does not change the outcome. -/
theorem canonicalize_unique {fuel' : Nat} {out' : Outcome W}
    (h : canonicalize k fuel sys userPath deref guestPath level = some out)
    (h' : canonicalize k fuel' sys userPath deref guestPath level = some out') : out = out' := by
  rcases canonicalize_cases h with ⟨e, he, rfl⟩ | ⟨base, inner, he, hrun, rfl⟩
  · rcases canonicalize_cases h' with ⟨e', he', rfl⟩ | ⟨base', inner', he', -, -⟩
    · rw [Except.error.inj (he.symm.trans he')]
    · cases he.symm.trans he'
  · rcases canonicalize_cases h' with ⟨e', he', -⟩ | ⟨base', inner', he', hrun', rfl⟩
    · cases he.symm.trans he'
    · obtain rfl := Except.ok.inj (he.symm.trans he')
      rw [hrun.unique hrun']

/-- The log of a whole run. -/
theorem canonicalize_runLog (hlevel : level ≤ k.maxSymlinks + 1)
    (h : canonicalize k fuel sys userPath deref guestPath level = some out) :
    RunLog k out.log out.result := by
  rcases canonicalize_cases h with ⟨e, -, rfl⟩ | ⟨base, inner, he, hrun, rfl⟩
  · refine RunLog.leave_calm fun ev hev => ?_
    rw [List.mem_singleton.mp hev]
    exact hlevel
  · refine RunLog.prepend (hrun.runLog (enterStage_level he)) fun ev hev => ?_
    rw [List.mem_singleton.mp hev]
    exact hlevel

/-- **Canonicalization ends**, over every file system and from every state: with
enough fuel there is one outcome.  Called at level 0, no level exceeds
`MAXSYMLINKS + 1`; the `count`-th link of an invocation raises the level by
`count`, so that at most `MAXSYMLINKS + 1 - level` links are met, and meeting
the last of them is `ELOOP`; and once an invocation leaves with an error, the
enclosing ones leave with the same error and nothing else happens. -/
theorem canonicalize_terminates (k : Kernel W) (sys : Sys W) (userPath : CStr)
    (derefFinal : Bool) (guestPath : CStr) :
    ∃ out, Canonicalizes k sys userPath derefFinal guestPath 0 out ∧
      (∀ level, .enter level ∈ out.log → level ≤ k.maxSymlinks + 1) ∧
      (∀ level count base component, .follow level count base component ∈ out.log →
        level + count ≤ k.maxSymlinks + 1 ∧
        (level + count = k.maxSymlinks + 1 → out.result = .error .ELOOP)) ∧
      ∀ before level e after, out.log = before ++ .leave level (some e) :: after →
        out.result = .error e ∧ ∀ ev ∈ after, ∃ level', ev = .leave level' (some e) := by
  obtain ⟨out, hcanon⟩ : ∃ out, Canonicalizes k sys userPath derefFinal guestPath 0 out := by
    cases he : enterStage k userPath guestPath 0 with
    | error e => exact ⟨_, 0, fun fuel _ => by rw [canonicalize, he]⟩
    | ok base =>
        obtain ⟨inner, hinner⟩ := CanonRun.total (k := k) sys (.start derefFinal 0 base userPath)
        obtain ⟨fuel₀, hfuel⟩ := hinner.canonLoop
        refine ⟨inner.after [.enter 0], fuel₀, fun fuel hle => ?_⟩
        simp only [canonicalize, he, hfuel fuel hle, Option.map_some]
  obtain ⟨fuel, hfuel⟩ := hcanon
  have hlog := canonicalize_runLog (Nat.zero_le _) (hfuel fuel (Nat.le_refl _))
  refine ⟨out, ⟨fuel, hfuel⟩, ?_⟩
  cases hr : out.result with
  | ok path =>
      rw [hr] at hlog
      refine ⟨fun level hmem => hlog _ hmem, fun level count base component hmem => ?_, ?_⟩
      · have hle : level + count ≤ k.maxSymlinks := hlog _ hmem
        exact ⟨by omega, fun heq => absurd hle (by omega)⟩
      · intro before level e after hsplit
        have hnone : some e = none := hlog (.leave level (some e)) (by rw [hsplit]; simp)
        cases hnone
  | error e =>
      rw [hr] at hlog
      obtain ⟨before, leaving, hsplit, hbefore, hleaving⟩ := hlog
      refine ⟨fun level hmem => ?_, fun level count base component hmem => ?_, ?_⟩
      · rw [hsplit] at hmem
        rcases List.mem_append.mp hmem with hmem | hmem
        · rcases hbefore _ hmem with h | ⟨h, -⟩
          · exact h
          · exact absurd h (by simp [Event.AtLimit])
        · obtain ⟨_, h⟩ := hleaving _ hmem
          cases h
      · rw [hsplit] at hmem
        rcases List.mem_append.mp hmem with hmem | hmem
        · rcases hbefore _ hmem with h | ⟨h, rfl⟩
          · have h : level + count ≤ k.maxSymlinks := h
            exact ⟨by omega, fun heq => absurd h (by omega)⟩
          · have h : level + count = k.maxSymlinks + 1 := h
            exact ⟨by omega, fun _ => rfl⟩
        · obtain ⟨_, h⟩ := hleaving _ hmem
          cases h
      · intro pre level e' post hsplit'
        rw [hsplit] at hsplit'
        -- the first invocation to fail is among the leaving ones
        rcases List.append_eq_append_iff.mp hsplit' with ⟨mid, hpre, hl⟩ | ⟨mid, hb, hpost⟩
        · have hmem : (.leave level (some e') : Event) ∈ leaving := by rw [hl]; simp
          obtain ⟨_, heq⟩ := hleaving _ hmem
          cases heq
          exact ⟨rfl, fun ev hev => hleaving ev (by rw [hl]; simp [hev])⟩
        · cases mid with
          | nil =>
              have hl : leaving = .leave level (some e') :: post := by simpa using hpost.symm
              obtain ⟨_, heq⟩ := hleaving (.leave level (some e')) (by rw [hl]; simp)
              cases heq
              exact ⟨rfl, fun ev hev => hleaving ev (by rw [hl]; simp [hev])⟩
          | cons ev rest =>
              have hev : ev = .leave level (some e') := by
                have := congrArg List.head? hpost
                simpa using this.symm
              have hmem : ev ∈ before := by rw [hb]; simp
              rcases hbefore _ hmem with h | ⟨h, -⟩
              · rw [hev] at h
                cases (show some e' = none from h)
              · rw [hev] at h
                exact absurd h (by simp [Event.AtLimit])

theorem canonicalize_carry {k' : Kernel W} {sys₂ : Sys W} {looked : CStr → Prop}
    (hglue : sys.tracee.glueType = none) (h : LooksSame k k' sys sys₂ looked)
    (hout : canonicalize k fuel sys userPath deref guestPath level = some out)
    (hlook : ∀ path, .look path ∈ out.log → looked path) :
    Canonicalizes k' sys₂ userPath deref guestPath level { out with sys := sys₂ } := by
  rcases canonicalize_cases hout with ⟨e, he, rfl⟩ | ⟨base, inner, he, hrun, rfl⟩
  · refine ⟨0, fun fuel _ => ?_⟩
    rw [canonicalize, h.enterStage, he]
    rfl
  · have hrun' := hrun.carry hglue h fun path hm => hlook path (by simp [Outcome.after, hm])
    obtain ⟨fuel₀, hfuel⟩ := hrun'.canonLoop
    refine ⟨fuel₀, fun fuel hle => ?_⟩
    simp only [canonicalize, h.enterStage, he, hfuel fuel hle, Option.map_some]
    rfl

/-- **Without glue canonicalization leaves the state alone.** -/
theorem canonicalize_static (hglue : sys.tracee.glueType = none)
    (h : canonicalize k fuel sys userPath deref guestPath level = some out) : out.sys = sys := by
  rcases canonicalize_cases h with ⟨e, -, rfl⟩ | ⟨base, inner, -, hrun, rfl⟩
  · rfl
  · exact hrun.static hglue

end PRoot
