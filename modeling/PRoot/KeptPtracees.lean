import PRoot.PtraceeStops

/-!
# Ptracees that are kept stopped

* `Ptracee.Held`, `Ptracee.Good`: a ptracee that is kept stopped, and what holds of every tracee;
* `Ptracee.goesOn`, `resume_works`: when such a ptracee goes on with a signal;
* `stopped_good`: a stop leaves a tracee good, or it is the end of it.
-/

namespace PRoot

variable {C : Type} {g g' : EventGlobals}

namespace Ptracee

variable (p : Ptracee C)

/-- PRoot can handle the stop, where it still has to. -/
def handles (g : EventGlobals) : Bool :=
  match p.proot with
  | .pending stop => p.tracee.handles g stop
  | _ => p.tracee.restartHow.isSome

/-- No signal that was put off is left, where PRoot still has to handle the stop. -/
def quiet : Bool :=
  match p.proot with
  | .pending stop => p.tracee.quiet stop
  | _ => true

/-- The signal that PRoot itself restarts the ptracee with. -/
def ownSignal : Int :=
  match p.proot with
  | .pending stop => p.tracee.signalOf stop
  | event => event.value

/-- A restart with a signal works. -/
def goesOn (g : EventGlobals) (signal : Int) : Bool :=
  !p.tracee.waiting && validSignal signal && p.handles g

/-- What is known of a ptracee that is kept stopped for its ptracer. -/
structure Held (signal : Int) : Prop where
  stopped : p.running = false
  attached : p.attached = true
  waiting : p.tracee.waiting = false
  stopSignal : p.stopSignal = signal
  notOver : p.ptracerValue.over = false
  later : ∀ stop, p.proot = .pending stop →
    stop.later = true ∧ (stop = .syscall → p.tracee.isInSysenter = true)
  first : (∀ stop, p.proot ≠ .pending stop) → p.proot = .signal signal

/-- What holds of every tracee between two steps. -/
structure Good : Prop where
  alive : p.tracee.terminated = false
  kept : ∀ signal, p.kept = some signal → p.Held signal
  pending : ∀ stop, p.proot = .pending stop → p.kept.isSome = true

/-- A tracee was restarted. -/
structure Restarted (p p' : Ptracee C) (signal : Int) : Prop where
  running : p'.running = true
  lastSignal : p'.lastSignal = some signal
  kept : p'.kept = none
  settled : ∀ stop, p'.proot ≠ .pending stop
  alive : p'.tracee.terminated = false
  attached : p'.attached = p.attached
  clone : p'.clone = p.clone

variable {p} {p' : Ptracee C} {signal : Int} {a : EventAnswers C} {stop : Stop}

theorem ne_neg_one_of_valid (h : validSignal signal = true) : signal ≠ -1 := by
  rintro rfl
  cases h

/-- A restart that works. -/
theorem restart_works (hwaiting : p.tracee.waiting = false) (hvalid : validSignal signal = true)
    (hhow : p.tracee.restartHow.isSome = true) (hstopped : p.running = false)
    (halive : p.tracee.terminated = false) (hsettled : ∀ stop, p.proot ≠ .pending stop) :
    ∃ p', p.restart signal = some (p', true) ∧ Restarted p p' signal := by
  have hnot : signal ≠ -1 := ne_neg_one_of_valid hvalid
  have hsome : p.tracee.restartHow ≠ none := Option.isSome_iff_ne_none.mp hhow
  unfold restart restartTracee
  simp only [hwaiting, hnot, hsome, hstopped, halive, hvalid, decide_false, Bool.or_self,
    Bool.not_true, Bool.false_eq_true, if_false]
  exact ⟨_, rfl, rfl, rfl, rfl, hsettled, rfl, rfl, rfl⟩

/-- The handling of a stop that was put off. -/
theorem handleEvent_later (hlater : stop.later = true)
    (henter : stop = .syscall → p.tracee.isInSysenter = true) (hproot : p.proot = .pending stop)
    (hhandles : p.handles g = true) (a : EventAnswers C) :
    ∃ t number, p.handleEvent g a stop =
        some (g, { p with tracee := t, proot := .handled stop }, number) ∧
      t.waiting = p.tracee.waiting ∧ t.restartHow.isSome = true ∧
      t.terminated = p.tracee.terminated ∧ (p.quiet = true → number = p.ownSignal) := by
  unfold handles at hhandles
  unfold handleEvent quiet ownSignal
  rw [hproot] at hhandles ⊢
  obtain ⟨t, number, hdone, hwaiting, hquiet⟩ := handleTraceeEvent_later hlater hhandles henter a
  obtain ⟨hhow, hterminated⟩ := handleTraceeEvent_ready hdone
  have hseccomp : stop ≠ .seccomp := by
    rintro rfl
    cases hlater
  have hover : stop.over = false := by cases stop <;> first | rfl | cases hlater
  rw [hover, Bool.or_false] at hterminated
  rw [hdone]
  exact ⟨t, number, rfl, hwaiting, hhow hseccomp, hterminated, hquiet⟩

/-- A ptracee that is kept stopped goes on, with the signal that is forced or with PRoot's own. -/
theorem resume_works (hstopped : p.running = false) (halive : p.tracee.terminated = false)
    (hlater : ∀ stop, p.proot = .pending stop →
      stop.later = true ∧ (stop = .syscall → p.tracee.isInSysenter = true))
    (hgoes : p.goesOn g signal = true) {forced : Int}
    (hforced : forced = signal ∨ forced = -1 ∧ p.quiet = true ∧ p.ownSignal = signal)
    (a : EventAnswers C) :
    ∃ p', p.resume g a forced = some (g, p') ∧ Restarted p p' signal := by
  unfold goesOn at hgoes
  simp only [Bool.and_eq_true, Bool.not_eq_true'] at hgoes
  obtain ⟨⟨hwaiting, hvalid⟩, hhandles⟩ := hgoes
  have hnot : signal ≠ -1 := ne_neg_one_of_valid hvalid
  -- whatever signal PRoot has made of the stop, the restart is with the right one
  have hchosen : ∀ number, (p.quiet = true → number = p.ownSignal) →
      (if forced ≠ -1 then forced else number) = signal := by
    intro number hnumber
    rcases hforced with rfl | ⟨rfl, hquiet, hown⟩
    · exact if_pos hnot
    · rw [if_neg (by simp), hnumber hquiet, hown]
  have hdone : ∀ event, p.proot = event → (∀ stop, event ≠ .pending stop) →
      ∃ p', (p.restart (if forced ≠ -1 then forced else event.value)).map
        (fun x => (g, x.1)) = some (g, p') ∧ Restarted p p' signal := by
    intro event hproot hsettled
    have hown : p.ownSignal = event.value := by
      unfold ownSignal
      rw [hproot]
      cases event with
      | pending stop => exact absurd rfl (hsettled stop)
      | handled stop => rfl
      | signal number => rfl
    have hhow : p.tracee.restartHow.isSome = true := by
      unfold handles at hhandles
      rw [hproot] at hhandles
      cases event with
      | pending stop => exact absurd rfl (hsettled stop)
      | handled stop => exact hhandles
      | signal number => exact hhandles
    rw [hchosen _ fun _ => hown.symm]
    obtain ⟨p', hrestart, hrestarted⟩ := restart_works hwaiting hvalid hhow hstopped halive
      (hproot ▸ hsettled)
    exact ⟨p', by rw [hrestart]; rfl, hrestarted⟩
  unfold resume
  cases hproot : p.proot with
  | pending stop =>
      obtain ⟨hlater, henter⟩ := hlater stop hproot
      obtain ⟨t, number, hevent, hwaits, hhow, hterminated, hnumber⟩ :=
        handleEvent_later hlater henter hproot hhandles a
      obtain ⟨p', hrestart, hrestarted⟩ := @restart_works C
        { p with tracee := t, proot := .handled stop } signal (hwaits.trans hwaiting) hvalid hhow
        hstopped (hterminated.trans halive) (by exact nofun)
      dsimp only
      rw [hevent, Option.bind_some, hchosen number hnumber, hrestart]
      exact ⟨p', rfl, hrestarted.running, hrestarted.lastSignal, hrestarted.kept,
        hrestarted.settled, hrestarted.alive, hrestarted.attached, hrestarted.clone⟩
  | handled stop => exact hdone _ hproot (by exact nofun)
  | signal number => exact hdone _ hproot (by exact nofun)

/-- A tracee that has no ptracer is not kept. -/
theorem Good.free (hgood : p.Good) (hfree : p.attached = false) :
    p.kept = none ∧ ∀ stop, p.proot ≠ .pending stop := by
  have hkept : p.kept = none := by
    cases hkept : p.kept with
    | none => rfl
    | some signal =>
        have hattached := (hgood.kept signal hkept).attached
        rw [hfree] at hattached
        cases hattached
  refine ⟨hkept, fun stop hproot => ?_⟩
  have hsome := hgood.pending stop hproot
  rw [hkept] at hsome
  cases hsome

/-! ## A stop -/

/-- A ptracee that is not kept, at the end of a request. -/
theorem resume_settled (hsettled : ∀ stop, p.proot ≠ .pending stop) {forced : Int}
    (h : p.resume g a forced = some (g', p')) :
    ∃ signal works, p.restart signal = some (p', works) := by
  unfold resume at h
  obtain ⟨⟨g₁, p₁, signal⟩, hhandled, hlast⟩ := Option.bind_eq_some_iff.mp h
  obtain ⟨⟨p₂, works⟩, hrestart, hdone⟩ := Option.map_eq_some_iff.mp hlast
  cases hdone
  cases hproot : p.proot with
  | pending stop => exact absurd hproot (hsettled stop)
  | handled stop =>
      rw [hproot] at hhandled
      cases hhandled
      exact ⟨_, works, hrestart⟩
  | signal number =>
      rw [hproot] at hhandled
      cases hhandled
      exact ⟨_, works, hrestart⟩

/-- What a restart, or the handling of a stop, leaves of a tracee. -/
structure Follows (p p' : Ptracee C) : Prop where
  kept : p.kept = none → p'.kept = none
  attached : p'.attached = p.attached
  clone : p'.clone = p.clone

theorem Follows.trans {p'' : Ptracee C} (h : Follows p p') (h' : Follows p' p'') : Follows p p'' :=
  ⟨fun hkept => h'.kept (h.kept hkept), h'.attached.trans h.attached, h'.clone.trans h.clone⟩

theorem restart_follows {works : Bool} (h : p.restart signal = some (p', works)) :
    Follows p p' ∧ p'.proot = p.proot ∧ p'.tracee.terminated = p.tracee.terminated := by
  unfold restart restartTracee at h
  split_ifs at h <;> cases h
  · exact ⟨⟨id, rfl, rfl⟩, rfl, rfl⟩
  · exact ⟨⟨id, rfl, rfl⟩, rfl, rfl⟩
  · exact ⟨⟨fun _ => rfl, rfl, rfl⟩, rfl, rfl⟩

/-- The assertion of `restart_tracee` holds. -/
theorem restart_total (h : p.tracee.waiting = true ∨ p.tracee.restartHow.isSome = true)
    (signal : Int) : ∃ p' works, p.restart signal = some (p', works) := by
  unfold restart
  split_ifs with hwaits hhow
  · exact ⟨_, _, rfl⟩
  · rcases h with hwaiting | hsome
    · exact absurd (by rw [hwaiting, Bool.true_or]) hwaits
    · rw [hhow] at hsome
      cases hsome
  · exact ⟨_, _, rfl⟩
  · exact ⟨_, _, rfl⟩

/-- A tracee that is stopped is restarted unless it waits. -/
theorem restart_zero {works : Bool} (h : p.restart 0 = some (p', works))
    (hstopped : p.running = false) (halive : p.tracee.terminated = false) :
    p'.running = true ∨ p'.tracee.waiting = true := by
  unfold restart at h
  cases hwaiting : p.tracee.waiting with
  | true =>
      rw [if_pos (by rw [hwaiting, Bool.true_or])] at h
      cases h
      exact .inr hwaiting
  | false =>
      rw [if_neg (by rw [hwaiting]; decide)] at h
      by_cases hhow : p.tracee.restartHow = none
      · rw [if_pos hhow] at h
        cases h
      · rw [if_neg hhow, hstopped, halive, if_neg (by decide)] at h
        cases h
        exact .inl rfl

theorem ProotEvent.clear_ne_pending (event : ProotEvent) (stop : Stop) :
    event.clear ≠ .pending stop := by
  cases event <;> exact nofun

theorem handleEvent_follows (h : p.handleEvent g a stop = some (g', p', signal)) :
    Follows p p' ∧ p'.proot = p.proot.clear ∧ p'.running = p.running ∧
      p'.tracee.terminated = (p.tracee.terminated || stop.over) := by
  unfold handleEvent at h
  obtain ⟨⟨g₁, t, number⟩, hdone, hlast⟩ := Option.map_eq_some_iff.mp h
  cases hlast
  exact ⟨⟨id, rfl, rfl⟩, rfl, rfl, (handleTraceeEvent_ready hdone).2⟩

/-- The event loop handles a stop. -/
theorem loop_follows (h : p.loop g a stop = some (g', p')) :
    Follows p p' ∧ (∀ stop, p'.proot ≠ .pending stop) ∧
      p'.tracee.terminated = (p.tracee.terminated || stop.over) := by
  unfold loop at h
  obtain ⟨⟨g₁, p₁, number⟩, hevent, hlast⟩ := Option.bind_eq_some_iff.mp h
  obtain ⟨⟨p₂, works⟩, hrestart, hdone⟩ := Option.map_eq_some_iff.mp hlast
  cases hdone
  obtain ⟨hfollows, hproot, -, hterminated⟩ := handleEvent_follows hevent
  obtain ⟨hfollows', hproot', hterminated'⟩ := restart_follows hrestart
  refine ⟨hfollows.trans hfollows', fun stop => ?_, hterminated'.trans hterminated⟩
  rw [hproot', hproot]
  exact ProotEvent.clear_ne_pending _ _

/-- A tracee that nobody keeps. -/
theorem Good.of_free (halive : p.tracee.terminated = false) (hkept : p.kept = none)
    (hsettled : ∀ stop, p.proot ≠ .pending stop) : p.Good :=
  ⟨halive, fun signal h => (Option.some_ne_none signal (h.symm.trans hkept)).elim,
    fun stop h => (hsettled stop h).elim⟩

theorem Restarted.good (h : Restarted p p' signal) : p'.Good :=
  .of_free h.alive h.kept h.settled

/-- What the ptracer is told. -/
structure Told (p p' : Ptracee C) (ptracer ptracer' : Ptracer) (pid : Nat) (event : Stop) :
    Prop where
  tracee : p'.tracee = p.tracee
  proot : p'.proot = p.proot
  kept : p'.kept = p.kept
  running : p'.running = p.running
  clone : p'.clone = p.clone
  value : p'.ptracerValue = event
  attached : event.over = false → p'.attached = p.attached
  ptracer : ptracer'.waitPid = none ∨
    ptracer' = ptracer ∧ p'.attached = p.attached ∧ ptracer.awaits pid p.clone = false

variable {ptracer ptracer' : Ptracer} {pid : Nat}

theorem tell_told {w : WaitAnswers} {event : Stop} {keeps keeps' : Bool}
    (h : p.tell ptracer pid w event keeps = (ptracer', p', keeps')) :
    Told p p' ptracer ptracer' pid event ∧ (keeps' = true → keeps = true) := by
  unfold tell at h
  dsimp only at h
  by_cases hawaits : ptracer.awaits pid p.clone = true
  · rw [if_pos hawaits] at h
    unfold updateWaitStatus detach at h
    dsimp only at h
    split_ifs at h with hover hwrites <;> cases h
    · refine ⟨⟨rfl, rfl, rfl, rfl, rfl, rfl, fun h => ?_, .inl rfl⟩,
        fun h => (Bool.and_eq_true_iff.mp h).1⟩
      rw [h, Bool.and_false] at hover
      cases hover
    · exact ⟨⟨rfl, rfl, rfl, rfl, rfl, rfl, fun _ => rfl, .inl rfl⟩,
        fun h => (Bool.and_eq_true_iff.mp h).1⟩
    · exact ⟨⟨rfl, rfl, rfl, rfl, rfl, rfl, fun _ => rfl, .inl rfl⟩,
        fun h => (Bool.and_eq_true_iff.mp h).1⟩
  · rw [if_neg hawaits] at h
    cases h
    exact ⟨⟨rfl, rfl, rfl, rfl, rfl, rfl, fun _ => rfl,
      .inr ⟨rfl, rfl, Bool.not_eq_true _ ▸ hawaits⟩⟩, id⟩

theorem keep_follows (p : Ptracee C) :
    p.keep.attached = p.attached ∧ p.keep.clone = p.clone ∧ p.keep.tracee = p.tracee := by
  unfold keep
  split_ifs <;> exact ⟨rfl, rfl, rfl⟩

theorem keep_of_free (h : p.running = true ∨ p.tracee.waiting = true) : p.keep = p :=
  if_pos (Bool.or_eq_true_iff.mpr h)

/-- A ptracee that is kept from a stop on. -/
theorem keep_good (halive : p.tracee.terminated = false) (hkept : p.kept = none)
    (hattached : p.attached = true) (hover : p.ptracerValue.over = false)
    (hlater : ∀ stop, p.proot = .pending stop → p.running = false ∧ p.tracee.waiting = false ∧
      stop.later = true ∧ (stop = .syscall → p.tracee.isInSysenter = true))
    (hfirst : (∀ stop, p.proot ≠ .pending stop) → p.proot = .signal p.stopSignal) :
    p.keep.Good := by
  unfold keep
  by_cases hfree : (p.running || p.tracee.waiting) = true
  · rw [if_pos hfree]
    refine .of_free halive hkept fun stop hproot => ?_
    obtain ⟨hstopped, hwaiting, -⟩ := hlater stop hproot
    rw [hstopped, hwaiting] at hfree
    cases hfree
  · rw [if_neg hfree]
    simp only [Bool.or_eq_true, not_or, Bool.not_eq_true] at hfree
    refine ⟨halive, fun signal h => ?_, fun stop _ => rfl⟩
    cases h
    exact ⟨hfree.1, hattached, hfree.2, rfl, hover, fun stop h => (hlater stop h).2.2, hfirst⟩

/-- A stop was passed to the ptracer, or is left to the event loop. -/
structure PassedOn (p p' : Ptracee C) (ptracer ptracer' : Ptracer) (pid : Nat) (stop : Stop)
    (keeps : Bool) : Prop where
  kept : p'.kept = none
  clone : p'.clone = p.clone
  alive : p'.tracee.terminated = false
  good : keeps = true → p'.keep.Good ∧ stop.over = false
  ptracer : ptracer'.waitPid = none ∨ ptracer' = ptracer ∧ p'.attached = p.attached ∧
    (stop.over = true → ptracer.awaits pid p.clone = false)

/-- What is passed on is what a ptracee may be kept for. -/
structure Expected (p p' : Ptracee C) (stop : Stop) (first : Bool) : Prop where
  started : ∃ started, p' = { p with tracingStarted := started }
  ended : stop.over = true → first = false ∧ p'.tracingStarted = true
  later : first = false → stop.over = false → stop ≠ .exit ∧ stop.later = true ∧
    (stop = .syscall → p.tracee.isInSysenter = true)

theorem expects_expected {first : Bool} (h : p.expects stop = some (p', first)) :
    Expected p p' stop first := by
  unfold expects at h
  cases stop with
  | syscall =>
      dsimp only at h
      split_ifs at h
      cases h
      refine ⟨⟨p.tracingStarted, rfl⟩, nofun, fun hfirst _ => ⟨nofun, rfl, fun _ => ?_⟩⟩
      rwa [Bool.not_eq_false'] at hfirst
  | seccomp => cases h
  | sigsys =>
      cases h
      exact ⟨⟨p.tracingStarted, rfl⟩, nofun, nofun⟩
  | exited | signaled =>
      cases h
      exact ⟨⟨true, rfl⟩, fun _ => ⟨rfl, rfl⟩, nofun⟩
  | sigtrap | sigstop | signal =>
      cases h
      exact ⟨⟨true, rfl⟩, nofun, fun _ _ => ⟨nofun, rfl, nofun⟩⟩
  | _ =>
      dsimp only at h
      split_ifs at h
      cases h
      exact ⟨⟨true, rfl⟩, nofun, nofun⟩

theorem expects_over (h : p.expects stop = none) : stop.over = false := by
  cases stop <;> first | rfl | cases h

/-- The ptracer is told, and the ptracee kept for it. -/
theorem Told.passedOn {p₂ : Ptracee C} {event : Stop} {keeps : Bool}
    (told : Told p₂ p' ptracer ptracer' pid event) (hattached : p₂.attached = true)
    (hsame : p₂.attached = p.attached) (hclone : p₂.clone = p.clone) (hkept : p₂.kept = none)
    (halive : p₂.tracee.terminated = false) (hover : event.over = stop.over)
    (hkeeps : keeps = true → stop.over = false)
    (hlater : stop.over = false → ∀ stop, p₂.proot = .pending stop → p₂.running = false ∧
      p₂.tracee.waiting = false ∧ stop.later = true ∧
      (stop = .syscall → p₂.tracee.isInSysenter = true))
    (hfirst : (∀ stop, p₂.proot ≠ .pending stop) → p₂.proot = .signal p₂.stopSignal) :
    PassedOn p p' ptracer ptracer' pid stop keeps := by
  have hsignal : p'.stopSignal = p₂.stopSignal := by
    unfold stopSignal
    rw [told.proot, told.tracee]
  refine ⟨told.kept.trans hkept, told.clone.trans hclone, told.tracee ▸ halive, fun hk => ?_, ?_⟩
  · have hnot := hkeeps hk
    refine ⟨keep_good (told.tracee ▸ halive) (told.kept.trans hkept)
      ((told.attached (hover.trans hnot)).trans hattached) ?_ ?_ ?_, hnot⟩
    · rw [told.value, hover, hnot]
    · rw [told.proot, told.tracee, told.running]
      exact hlater hnot
    · rw [told.proot, hsignal]
      exact hfirst
  · rcases told.ptracer with hwoken | ⟨hptracer, hattached', hawaits⟩
    · exact .inl hwoken
    · exact .inr ⟨hptracer, hattached'.trans hsame, fun _ => hclone ▸ hawaits⟩

theorem handlePtraceeEvent_passedOn {w : WaitAnswers} {keeps : Bool} (hstopped : p.running = false)
    (hkept : p.kept = none) (halive : p.tracee.terminated = false) (hattached : p.attached = true)
    (hends : p.tracee.waiting = true → stop.over = true ∨ stop = .exit)
    (h : p.handlePtraceeEvent g ptracer pid a w stop = some (g', ptracer', p', keeps)) :
    PassedOn p p' ptracer ptracer' pid stop keeps := by
  unfold handlePtraceeEvent at h
  dsimp only at h
  cases hexpects : ({ p with proot := .pending stop } : Ptracee C).expects stop with
  | none =>
      rw [hexpects] at h
      cases h
      have hover := expects_over hexpects
      exact ⟨hkept, rfl, halive, nofun, .inr ⟨rfl, rfl, fun h => by rw [hover] at h; cases h⟩⟩
  | some expected =>
      obtain ⟨p₂, first⟩ := expected
      rw [hexpects] at h
      dsimp only at h
      obtain ⟨⟨started, rfl⟩, hover, hlater⟩ := expects_expected hexpects
      cases hstarted : started with
      | false =>
          rw [hstarted] at h
          cases h
          refine ⟨hkept, rfl, halive, nofun, .inr ⟨rfl, rfl, fun h => ?_⟩⟩
          have hcontra : started = true := (hover h).2
          rw [hstarted] at hcontra
          cases hcontra
      | true =>
          rw [hstarted] at h
          cases first with
          | false =>
              -- the stop is handled when the ptracer goes on
              rw [Bool.not_true, if_neg Bool.false_ne_true, Bool.not_false, if_pos rfl] at h
              obtain ⟨-, htell⟩ := Prod.mk.inj (Option.some.inj h)
              obtain ⟨htold, hkeeps⟩ := tell_told htell
              refine htold.passedOn hattached rfl rfl hkept halive rfl
                (fun hk => by simpa using hkeeps hk) ?_ (fun h => absurd rfl (h stop))
              rintro hnot _ ⟨⟩
              obtain ⟨hexit, hlater, henter⟩ := hlater rfl hnot
              refine ⟨hstopped, Bool.eq_false_iff.mpr fun hwaits => ?_, hlater, henter⟩
              rcases hends hwaits with hover | hstop
              · rw [hnot] at hover
                cases hover
              · exact hexit hstop
          | true =>
              rw [Bool.not_true, if_neg Bool.false_ne_true, if_neg Bool.false_ne_true] at h
              have hnot : stop.over = false := Bool.eq_false_iff.mpr fun h =>
                Bool.noConfusion (hover h).1
              obtain ⟨⟨g₁, p₃, signal⟩, hevent, hlast⟩ := Option.bind_eq_some_iff.mp h
              obtain ⟨hfollows, -, hrunning, hterminated⟩ := handleEvent_follows hevent
              rw [hnot, Bool.or_false] at hterminated
              have hpassed : ∀ event, event.over = false →
                  some (g₁, tell { p₃ with proot := .signal signal } ptracer pid w event true) =
                    some (g', ptracer', p', keeps) →
                  PassedOn p p' ptracer ptracer' pid stop keeps := by
                intro event hevent' hsome
                obtain ⟨-, htell⟩ := Prod.mk.inj (Option.some.inj hsome)
                obtain ⟨htold, -⟩ := tell_told htell
                exact htold.passedOn (hfollows.attached.trans hattached) hfollows.attached
                  hfollows.clone (hfollows.kept hkept) (hterminated.trans halive)
                  (hevent'.trans hnot.symm) (fun _ => hnot) (fun _ _ h => by cases h)
                  fun _ => rfl
              dsimp only at hlast
              split_ifs at hlast with hsigsys hsignal hquietly hsignal
              · exact hpassed stop hnot hlast
              · -- the call was emulated, and the ptracer is not told
                obtain ⟨⟨p₄, works⟩, hrestart, hdone⟩ := Option.map_eq_some_iff.mp hlast
                cases hdone
                obtain ⟨hfollows', hproot, hterminated'⟩ := restart_follows hrestart
                have hkept' : p₄.kept = none := hfollows'.kept (hfollows.kept hkept)
                have halive' : p₄.tracee.terminated = false :=
                  hterminated'.trans (hterminated.trans halive)
                have hfree := restart_zero hrestart (hrunning.trans hstopped)
                  (hterminated.trans halive)
                refine ⟨hkept', hfollows'.clone.trans hfollows.clone, halive', fun _ => ⟨?_, hnot⟩,
                  .inr ⟨rfl, hfollows'.attached.trans hfollows.attached, fun h => ?_⟩⟩
                · rw [keep_of_free hfree]
                  exact .of_free halive' hkept' fun stop h => by
                    rw [hproot] at h
                    cases h
                · rw [hnot] at h
                  cases h
              · exact hpassed .syscall rfl hlast
              · exact hpassed stop hnot hlast

/-- **A stop leaves a tracee good**, or it is over. -/
theorem stopped_good {w : WaitAnswers} {a : PtraceeAnswers C} (hgood : p.Good)
    (hends : p.tracee.waiting = true → stop.over = true ∨ stop = .exit)
    (h : p.stopped g ptracer pid a w stop = some (g', ptracer', p')) :
    p'.tracee.terminated = stop.over ∧ (stop.over = false → p'.Good) ∧ p'.clone = p.clone ∧
      (p.attached = false → p'.attached = false ∧ ptracer' = ptracer) ∧
      (ptracer'.waitPid = none ∨ ptracer' = ptracer ∧ p'.attached = p.attached ∧
        (p.attached = true → stop.over = true → ptracer.awaits pid p.clone = false)) := by
  have halive := hgood.alive
  have hlooped : ∀ {p₁ : Ptracee C} {g₁ g₂ : EventGlobals} {a}, p₁.kept = none →
      p₁.tracee.terminated = false → p₁.clone = p.clone → p₁.loop g₁ a stop = some (g₂, p') →
      p'.tracee.terminated = stop.over ∧ (stop.over = false → p'.Good) ∧ p'.clone = p.clone ∧
        p'.attached = p₁.attached := by
    intro p₁ g₁ g₂ a hkept halive hclone hloop
    obtain ⟨hfollows, hsettled, hterminated⟩ := loop_follows hloop
    rw [halive, Bool.false_or] at hterminated
    exact ⟨hterminated,
      fun hnot => .of_free (hterminated.trans hnot) (hfollows.kept hkept) hsettled,
      hfollows.clone.trans hclone, hfollows.attached⟩
  unfold stopped at h
  dsimp only at h
  cases hattached : p.attached with
  | false =>
      have hdetached : (!p.attached) = true := by rw [hattached, Bool.not_false]
      rw [if_pos hdetached] at h
      obtain ⟨⟨g₁, p₁⟩, hloop, hdone⟩ := Option.map_eq_some_iff.mp h
      cases hdone
      obtain ⟨hterminated, hgood', hclone, hsame⟩ :=
        hlooped (by exact rfl) (by exact halive) (by exact rfl) hloop
      have hsame := hsame.trans hattached
      exact ⟨hterminated, hgood', hclone, fun _ => ⟨hsame, rfl⟩, .inr ⟨rfl, hsame, nofun⟩⟩
  | true =>
      have hstays : ¬(!p.attached) = true := by rw [hattached]; exact Bool.false_ne_true
      rw [if_neg hstays] at h
      obtain ⟨⟨g₁, ptracer₁, p₁, keeps⟩, hevent, hlast⟩ := Option.bind_eq_some_iff.mp h
      have hpassed := handlePtraceeEvent_passedOn (p := { p with running := false, kept := none })
        rfl rfl halive hattached hends hevent
      dsimp only at hlast
      split_ifs at hlast with hkeeps
      · cases hlast
        obtain ⟨hgood', hnot⟩ := hpassed.good hkeeps
        obtain ⟨hsame, hclone, htracee⟩ := keep_follows p₁
        refine ⟨?_, fun _ => hgood', hclone.trans hpassed.clone, nofun, ?_⟩
        · rw [htracee, hpassed.alive, hnot]
        · rcases hpassed.ptracer with hwoken | ⟨hptracer, hattached', hawaits⟩
          · exact .inl hwoken
          · exact .inr ⟨hptracer, hsame.trans (hattached'.trans hattached), fun _ => hawaits⟩
      · obtain ⟨⟨g₂, p₂⟩, hloop, hdone⟩ := Option.map_eq_some_iff.mp hlast
        cases hdone
        obtain ⟨hterminated, hgood', hclone, hsame⟩ :=
          hlooped hpassed.kept hpassed.alive hpassed.clone hloop
        refine ⟨hterminated, hgood', hclone, nofun, ?_⟩
        rcases hpassed.ptracer with hwoken | ⟨hptracer, hattached', hawaits⟩
        · exact .inl hwoken
        · exact .inr ⟨hptracer, hsame.trans (hattached'.trans hattached), fun _ => hawaits⟩

/-! ## Other changes -/

/-- A tracee changes in nothing that its restart depends on. -/
theorem Good.same (hgood : p.Good) (htracee : p'.tracee = p.tracee)
    (hrunning : p'.running = p.running) (hattached : p'.attached = p.attached)
    (hproot : p'.proot = p.proot) (hvalue : p'.ptracerValue = p.ptracerValue)
    (hkept : p'.kept = p.kept) : p'.Good := by
  have hsignal : p'.stopSignal = p.stopSignal := by
    unfold stopSignal
    rw [hproot, htracee]
  refine ⟨htracee ▸ hgood.alive, fun signal h => ?_, fun stop h => ?_⟩
  · obtain ⟨hstopped, hattached', hwaiting, hstop, hover, hlater, hfirst⟩ :=
      hgood.kept signal (hkept ▸ h)
    exact ⟨hrunning.trans hstopped, hattached.trans hattached', htracee ▸ hwaiting,
      hsignal.trans hstop, hvalue ▸ hover, by rw [hproot, htracee]; exact hlater,
      by rw [hproot]; exact hfirst⟩
  · rw [hkept]
    exact hgood.pending stop (hproot ▸ h)

/-- The ptracer is told about the stop of a ptracee. -/
theorem updateWaitStatus_good (hgood : p.Good) (writes : Bool) :
    (p.updateWaitStatus writes).Good := by
  unfold updateWaitStatus
  split_ifs with hends hwrites
  · have hkept : p.kept = none := by
      cases hkept : p.kept with
      | none => rfl
      | some signal =>
          rw [(hgood.kept signal hkept).notOver, Bool.and_false] at hends
          cases hends
    refine .of_free hgood.alive hkept fun stop hproot => ?_
    have hsome := hgood.pending stop hproot
    rw [hkept] at hsome
    cases hsome
  · exact hgood.same rfl rfl rfl rfl rfl rfl
  · exact hgood

/-- The ptracer is removed, and the ptracee let go. -/
structure Released (p p' : Ptracee C) : Prop where
  good : p'.Good
  detached : p'.attached = false
  restarted : ∀ signal, p.kept = some signal → p'.running = true ∧ p'.lastSignal = some signal

end Ptracee

end PRoot
