import Mathlib.Data.List.Induction

/-!
# Runs of a machine that may abort

A machine takes a step at each event, or aborts.

* `allSteps`: all steps of a run meet a condition;
* `invariant`: what every such step keeps holds after the run;
* `record`, `record_invariant`: the same with a record of what happened;
* `always_iff`: runs that keep a property are the runs whose steps suit.
-/

namespace AbortableRuns

variable {S E A : Type*} {step : S → E → Option S}

/-- The state after some events. -/
def run (step : S → E → Option S) (s : S) (events : List E) : Option S := events.foldlM step s

@[simp] theorem run_nil (s : S) : run step s [] = some s := rfl

@[simp] theorem run_cons (s : S) (event : E) (events : List E) :
    run step s (event :: events) = (step s event).bind fun s' => run step s' events := rfl

theorem run_append_singleton (s : S) (events : List E) (event : E) :
    run step s (events ++ [event]) = (run step s events).bind fun s' => step s' event := by
  induction events generalizing s with
  | nil => simp
  | cons first events ih => simp [ih, Option.bind_assoc]

/-- A machine that another one is a part of. -/
theorem run_map {T : Type*} {step' : T → E → Option T} (f : S → T)
    (hstep : ∀ s event, step' (f s) event = (step s event).map f) (s : S) (events : List E) :
    run step' (f s) events = (run step s events).map f := by
  induction events generalizing s with
  | nil => rfl
  | cons event events ih =>
      rw [run_cons, run_cons, hstep]
      cases step s event with
      | none => rfl
      | some s' => exact ih s'

/-- All steps of a run suit. -/
def allSteps (step : S → E → Option S) (suits : S → E → Bool) (s : S) : List E → Bool
  | [] => true
  | event :: events =>
      suits s event &&
        match step s event with
        | none => true
        | some s' => allSteps step suits s' events

theorem allSteps_true (s : S) (events : List E) : allSteps step (fun _ _ => true) s events = true := by
  induction events generalizing s with
  | nil => rfl
  | cons event events ih =>
      simp only [allSteps, Bool.true_and]
      cases step s event with
      | none => rfl
      | some s' => exact ih s'

theorem suits_of_allSteps {suits : S → E → Bool} {s s' : S} {events before : List E} {event : E}
    (h : allSteps step suits s events = true) (hbefore : before ++ [event] <+: events)
    (hrun : run step s before = some s') : suits s' event = true := by
  induction before generalizing s events with
  | nil =>
      obtain ⟨rest, rfl⟩ := hbefore
      rw [run_nil, Option.some.injEq] at hrun
      rw [List.nil_append, List.cons_append, allSteps, Bool.and_eq_true, hrun] at h
      exact h.1
  | cons first before ih =>
      obtain ⟨rest, rfl⟩ := hbefore
      obtain ⟨middle, hmiddle, hrest⟩ := Option.bind_eq_some_iff.mp hrun
      rw [List.cons_append, List.cons_append, allSteps, Bool.and_eq_true, hmiddle] at h
      exact ih h.2 (List.prefix_append _ _) hrest

/-- What every step keeps holds all along a run whose steps all suit. -/
theorem always_of_allSteps {suits : S → E → Bool} {P : S → Prop}
    (hstep : ∀ s event s', P s → suits s event = true → step s event = some s' → P s') {s s' : S}
    (h : P s) {events before : List E} (hsuits : allSteps step suits s events = true)
    (hbefore : before <+: events) (hrun : run step s before = some s') : P s' := by
  induction before generalizing s events with
  | nil =>
      rw [run_nil, Option.some.injEq] at hrun
      exact hrun ▸ h
  | cons first before ih =>
      obtain ⟨rest, rfl⟩ := hbefore
      obtain ⟨middle, hmiddle, hrest⟩ := Option.bind_eq_some_iff.mp hrun
      rw [List.cons_append, allSteps, Bool.and_eq_true, hmiddle] at hsuits
      exact ih (hstep s first middle h hsuits.1 hmiddle) hsuits.2 (List.prefix_append _ _) hrest

/-! ## Records -/

/-- What is recorded along a run. -/
def record (step : S → E → Option S) (entries : S → E → List A) (s : S) : List E → List A
  | [] => []
  | event :: events =>
      match step s event with
      | none => []
      | some s' => entries s event ++ record step entries s' events

/-- What every step keeps, with what it records, in a run whose steps all suit. -/
theorem record_invariant {entries : S → E → List A} {suits : S → E → Bool}
    {P : S → List A → Prop} (hstep : ∀ s log event s', P s log → suits s event = true →
      step s event = some s' → P s' (log ++ entries s event))
    {s s' : S} {log : List A} (h : P s log) {events : List E}
    (hsuits : allSteps step suits s events = true) (hrun : run step s events = some s') :
    P s' (log ++ record step entries s events) := by
  induction events generalizing s log with
  | nil =>
      rw [record, List.append_nil]
      exact Option.some.inj hrun ▸ h
  | cons event events ih =>
      obtain ⟨middle, hmiddle, hrest⟩ := Option.bind_eq_some_iff.mp hrun
      simp only [record, hmiddle]
      rw [allSteps, hmiddle, Bool.and_eq_true] at hsuits
      rw [← List.append_assoc]
      exact ih (hstep s log event middle h hsuits.1 hmiddle) hsuits.2 hrest

/-- What every step keeps, in a run whose steps all suit. -/
theorem invariant {suits : S → E → Bool} {P : S → Prop}
    (hstep : ∀ s event s', P s → suits s event = true → step s event = some s' → P s')
    {s s' : S} (h : P s) {events : List E} (hsuits : allSteps step suits s events = true)
    (hrun : run step s events = some s') : P s' :=
  @record_invariant S E Unit step (fun _ _ => []) suits (fun s _ => P s)
    (fun s _ event s' h hsuits hs' => hstep s event s' h hsuits hs') s s' [] h events hsuits hrun

/-! ## Runs that keep a property -/

section Always

variable {Inv P : S → Prop} {Suits : S → E → Prop} {s₀ : S} (hinv : Inv s₀) (h₀ : P s₀)
  (hkeep : ∀ s event s', Inv s → P s → step s event = some s' → Inv s')

include hinv h₀ hkeep

/-- **A property holds all along a run** exactly if each of its steps suits. -/
theorem always_iff
    (hstep : ∀ s event s', Inv s → P s → step s event = some s' → (P s' ↔ Suits s event))
    (events : List E) :
    (∀ before s, before <+: events → run step s₀ before = some s → P s) ↔
      ∀ before event s s', before ++ [event] <+: events → run step s₀ before = some s →
        step s event = some s' → Suits s event := by
  have hreach : (∀ before s, before <+: events → run step s₀ before = some s → P s) →
      ∀ before s, before <+: events → run step s₀ before = some s → Inv s := by
    intro hP before
    induction before using List.reverseRecOn with
    | nil => exact fun s _ hrun => Option.some.inj hrun ▸ hinv
    | append_singleton before event ih =>
        intro s hbefore hrun
        rw [run_append_singleton] at hrun
        obtain ⟨middle, hmiddle, hlast⟩ := Option.bind_eq_some_iff.mp hrun
        have hprefix := (List.prefix_append before [event]).trans hbefore
        exact hkeep middle event s (ih middle hprefix hmiddle) (hP before middle hprefix hmiddle)
          hlast
  constructor
  · intro hP before event s s' hbefore hrun hlast
    have hprefix := (List.prefix_append before [event]).trans hbefore
    have hrun' : run step s₀ (before ++ [event]) = some s' := by
      rw [run_append_singleton, hrun]
      exact hlast
    exact (hstep s event s' (hreach hP before s hprefix hrun) (hP before s hprefix hrun)
      hlast).mp (hP _ s' hbefore hrun')
  · intro hsuits before s hbefore hrun
    have hboth : ∀ before s, before <+: events → run step s₀ before = some s → Inv s ∧ P s := by
      intro before
      induction before using List.reverseRecOn with
      | nil => exact fun s _ hrun => Option.some.inj hrun ▸ ⟨hinv, h₀⟩
      | append_singleton before event ih =>
          intro s hbefore hrun
          rw [run_append_singleton] at hrun
          obtain ⟨middle, hmiddle, hlast⟩ := Option.bind_eq_some_iff.mp hrun
          have hprefix := (List.prefix_append before [event]).trans hbefore
          obtain ⟨hI, hP⟩ := ih middle hprefix hmiddle
          exact ⟨hkeep middle event s hI hP hlast,
            (hstep middle event s hI hP hlast).mpr
              (hsuits before event middle s hbefore hmiddle hlast)⟩
    exact (hboth before s hbefore hrun).2

end Always

end AbortableRuns
