import PRoot.AbortableRuns
import PRoot.TraceeEvents

/-!
# Signals that are put off

A signal that stops a tracee while PRoot makes system calls on its behalf is kept back, in one
place, and delivered at the end.

* `Turn`, `turn`: a stop is handled, and the tracee restarted;
* `PutOff`: every signal kept back was delivered once, or is the one that is kept;
* `turn_putOff`: a turn that `keepsSignals` keeps that;
* `signals_delivered`: so does a run of such turns.
-/

namespace PRoot

variable {C : Type}

/-- A stop of a tracee and how the tracee goes on.  Without a `forced` signal it is restarted by
the event loop, or by a ptracer that detaches or dies; otherwise by a request of its ptracer with
that signal.  The stop is handled `first` when `handle_ptracee_event` does so before the ptracer
is told. -/
structure Turn (C : Type) where
  stop : Stop
  answers : EventAnswers C
  first : Bool
  forced : Option Nat
  deriving DecidableEq, Repr

/-- One turn.  `handle_ptracee_event` asserts that an event it has handled first leaves no signal,
a `SIGSYS` apart. -/
def turn (s : EventGlobals × EventTracee C) (e : Turn C) : Option (EventGlobals × EventTracee C) :=
  (handleTraceeEvent s.1 s.2 e.answers e.stop).bind fun (g, t, signal) =>
    if e.first && e.stop ≠ .sigsys && signal ≠ 0 then none
    else
      let signal : Int := (e.forced.map Int.ofNat).getD signal
      some (g, (restartTracee t signal).1)

/-- What happens to a signal. -/
inductive SignalEntry
  | keptBack (signal : Nat)
  | delivered (signal : Nat)
  deriving DecidableEq, Repr

/-- The signal of a stop, if it is one that may be kept back. -/
def Stop.ordinary : Stop → Option Nat
  | .signal number _ => some number
  | _ => none

/-- The signals a turn keeps back and delivers, of those that are kept back at some time: that of
its stop, and the one that was kept. -/
def signalEntries (s : EventGlobals × EventTracee C) (e : Turn C) : List SignalEntry :=
  match handleTraceeEvent s.1 s.2 e.answers e.stop with
  | none => []
  | some (_, t, signal) =>
      let restart : Int := (e.forced.map Int.ofNat).getD signal
      let goes := fun number : Nat => (restartTracee t restart).2 && restart = number
      (match e.stop.ordinary with
        | some number =>
            if s.2.chaining then
              .keptBack number :: if goes number then [.delivered number] else []
            else []
        | none => []) ++
      if s.2.suppressedSignal ≠ 0 && t.suppressedSignal = 0 && goes s.2.suppressedSignal then
        [.delivered s.2.suppressedSignal]
      else []

/-- The signals kept back in a log, and those delivered. -/
def keptBack (log : List SignalEntry) : List Nat :=
  log.filterMap fun | .keptBack signal => some signal | .delivered _ => none

def deliveredSignals (log : List SignalEntry) : List Nat :=
  log.filterMap fun | .delivered signal => some signal | .keptBack _ => none

/-- The signal that is kept. -/
def EventTracee.kept (t : EventTracee C) : List Nat :=
  if t.suppressedSignal = 0 then [] else [t.suppressedSignal]

/-- **No signal is lost or delivered twice**: what was kept back was delivered, in order, but for
the one that is kept; and none is once the chain is over. -/
structure PutOff (t : EventTracee C) (log : List SignalEntry) : Prop where
  once : keptBack log = deliveredSignals log ++ t.kept
  settled : t.chaining = false → t.suppressedSignal = 0

/-- A chain, or a restarted call, comes to its end in the exit stage. -/
def EventTracee.ends (t : EventTracee C) (a : EventAnswers C) : Bool :=
  a.fetches && !t.isInSysenter && a.registers.isEmpty && !a.restartsCall &&
    (t.chain = none || t.chain.any (·.isEmpty)) &&
    (!t.restoreOriginalRegsAfterSeccompEvent || a.restores)

/-- The stop of a system call is one where the call is translated. -/
def EventTracee.translates (t : EventTracee C) : Bool :=
  t.exe && t.seccomp ≠ .DISABLING && !t.seccompAlreadyHandledEnter

/-- The restart after the chain has its end at this stop delivers the signal that is kept: the
ptracer is not told about the stop afterwards and gives no other signal, and the tracee is not made
to wait. -/
def handsOver (s : EventGlobals × EventTracee C) (e : Turn C) : Bool :=
  s.2.suppressedSignal = 0 || !(s.2.translates && s.2.ends e.answers) ||
    !e.first && !s.2.waiting && !e.answers.waits &&
      (e.forced = none || e.forced = some s.2.suppressedSignal)

/-- A turn that neither loses a signal nor delivers it twice.  A signal is kept back only when
none is kept, and the ptracer does not give it as well.  The stop where a chain ends with a signal
kept `handsOver` the signal; it is not a `SIGSYS`, unless a call is restarted at once. -/
def keepsSignals (s : EventGlobals × EventTracee C) (e : Turn C) : Bool :=
  match e.stop with
  | .signal number _ =>
      !s.2.chaining || s.2.suppressedSignal = 0 && e.forced ≠ some number
  | .sigsys =>
      s.2.suppressedSignal = 0 || !(e.answers.sysSeccomp && s.2.ends e.answers) ||
        e.answers.rewrites && !(s.2.skipNextSeccompSignal ||
          s.1.seccompAfterPtraceEnter && e.answers.syscallAvoider)
  | .syscall => handsOver s e
  | .sigtrap => s.1.deliverSigtrap || handsOver s e
  | _ => true

/-! ## What a stop does to the signal that is kept -/

/-- A signal that is kept stays, and the chain with it. -/
structure Carries (t t' : EventTracee C) : Prop where
  suppressed : t'.suppressedSignal = t.suppressedSignal
  chaining : t.suppressedSignal ≠ 0 → t.chaining = true → t'.chaining = true

namespace Carries

variable {t t' t'' : EventTracee C}

theorem refl (t : EventTracee C) : Carries t t := ⟨rfl, fun _ => id⟩

theorem trans (h : Carries t t') (h' : Carries t' t'') : Carries t t'' :=
  ⟨h'.suppressed.trans h.suppressed, fun hkept hchaining =>
    h'.chaining (h.suppressed ▸ hkept) (h.chaining hkept hchaining)⟩

/-- What does not touch the chain. -/
theorem of_eq (hsuppressed : t'.suppressedSignal = t.suppressedSignal) (hchain : t'.chain = t.chain)
    (hrestore : t'.restoreOriginalRegsAfterSeccompEvent = t.restoreOriginalRegsAfterSeccompEvent) :
    Carries t t' :=
  ⟨hsuppressed, fun _ hchaining => by
    rwa [EventTracee.chaining, hchain, hrestore]⟩

theorem restarts (t : EventTracee C) (how : Option RestartHow) :
    Carries t { t with restartHow := how } :=
  of_eq rfl rfl rfl

end Carries

theorem registerChained_isSome {chain : Option (List C)} (calls : List C)
    (h : chain.isSome = true) : (registerChained chain calls).isSome = true := by
  unfold registerChained
  split
  · exact h
  · rfl

namespace EventTracee

variable (t : EventTracee C) (a : EventAnswers C)

/-- The end of a chain is the only way out of it. -/
theorem chainNext_none {chain : Option (List C)} (calls : List C)
    (h : (chainNext (registerChained chain calls)).1 = none) :
    calls = [] ∧ (chain = none ∨ chain = some []) ∧
      (chainNext (registerChained chain calls)).2 = false := by
  cases calls with
  | cons first calls =>
      rcases chain with _ | _ | ⟨call, chain⟩ <;> simp [registerChained, chainNext] at h
  | nil =>
      rcases chain with _ | _ | ⟨call, chain⟩
      · exact ⟨rfl, .inl rfl, rfl⟩
      · exact ⟨rfl, .inr rfl, rfl⟩
      · simp [registerChained, chainNext] at h

theorem chooseRestart_eq : ∃ how, t.chooseRestart = { t with restartHow := how } := by
  unfold chooseRestart
  split_ifs
  · exact ⟨t.restartHow, rfl⟩
  · exact ⟨_, rfl⟩
  · exact ⟨_, rfl⟩

/-- The enter stage never ends a chain. -/
theorem translateEnter_carries : Carries t (t.translateEnter a) := by
  constructor
  · unfold translateEnter
    dsimp only
    split_ifs <;> rfl
  · intro _ hchaining
    rw [chaining, Bool.or_eq_true] at hchaining ⊢
    rcases hchaining with hchain | hrestore
    · left
      unfold translateEnter
      have hsome := registerChained_isSome a.registers hchain
      dsimp only
      split_ifs <;> first | exact hsome | rfl
    · right
      unfold translateEnter
      dsimp only
      split_ifs <;> exact hrestore

/-- The exit stage ends a chain where nothing is left of it. -/
theorem translateExit_chaining (hfetches : a.fetches = true) (hexit : t.isInSysenter = false)
    (hends : t.ends a = false) : (t.translateExit a).chaining = true := by
  by_contra hover
  rw [chaining, Bool.or_eq_true, not_or, Bool.not_eq_true, Bool.not_eq_true,
    Option.isSome_eq_false_iff, Option.isNone_iff_eq_none] at hover
  obtain ⟨hnone, hrestore⟩ := hover
  obtain ⟨hregisters, hchain, hnext⟩ := chainNext_none a.registers hnone
  simp only [translateExit, hnext, Bool.or_eq_false_iff, Bool.not_false, Bool.and_true,
    Bool.and_eq_false_iff, Bool.not_eq_false'] at hrestore
  obtain ⟨hcall, hrestore⟩ := hrestore
  have : t.ends a = true := by
    simp only [ends, hfetches, hexit, hregisters, hcall, List.isEmpty_nil, Bool.not_false,
      Bool.and_true, Bool.true_and, Bool.and_eq_true, Bool.or_eq_true, Bool.not_eq_true',
      decide_eq_true_eq]
    refine ⟨?_, hrestore⟩
    rcases hchain with hchain | hchain
    · exact .inl hchain
    · exact .inr (by simp [hchain])
  rw [hends] at this
  exact Bool.false_ne_true this

/-- A translated call keeps the signal; the chain goes on unless it `ends`. -/
theorem translateSyscall_carries (hends : t.suppressedSignal ≠ 0 → t.ends a = false) :
    Carries t (t.translateSyscall a) := by
  unfold translateSyscall
  split_ifs with hfetches hexit
  · exact Carries.refl t
  · exact t.translateEnter_carries a
  · exact ⟨rfl, fun hkept _ => t.translateExit_chaining a (by simpa using hfetches)
      (by simpa using hexit) (hends hkept)⟩

theorem translateSyscall_suppressed :
    (t.translateSyscall a).suppressedSignal = t.suppressedSignal := by
  unfold translateSyscall
  split_ifs
  · rfl
  · exact (t.translateEnter_carries a).suppressed
  · rfl

theorem translateSyscall_skips :
    (t.translateSyscall a).skipNextSeccompSignal = t.skipNextSeccompSignal := by
  unfold translateSyscall translateEnter
  dsimp only
  split_ifs <;> rfl

theorem fetches_of_ends (h : t.ends a = true) : a.fetches = true := by
  simp only [ends, Bool.and_eq_true] at h
  exact h.1.1.1.1.1

theorem not_ends_of_enter (h : t.isInSysenter = true) : t.ends a = false := by
  simp [ends, h]

theorem translateSyscall_waiting (hexit : t.isInSysenter = false) (hwaits : a.waits = false) :
    (t.translateSyscall a).waiting = t.waiting := by
  cases hfetches : a.fetches <;> simp [translateSyscall, hfetches, hexit, translateExit, hwaits]

end EventTracee

section Stops

variable {g g' : EventGlobals} {t t' : EventTracee C} {a : EventAnswers C} {signal : Int}

/-- The kept signal is handed over to the restart. -/
structure HandedOver (t t' : EventTracee C) (a : EventAnswers C) (signal : Int) : Prop where
  kept : t.suppressedSignal ≠ 0
  ends : t.ends a = true
  released : t'.suppressedSignal = 0
  signal : signal = t.suppressedSignal
  waiting : a.waits = false → t'.waiting = t.waiting

/-- `handleSyscall`, by what it does to a kept signal. -/
theorem handleSyscall_cases (hover : t.suppressedSignal ≠ 0 → t.chaining = true)
    (h : handleSyscall g t a = some (t', signal)) :
    Carries t t' ∨ t.seccompAlreadyHandledEnter = false ∧ HandedOver t t' a signal := by
  unfold handleSyscall at h
  obtain ⟨⟨done, signal₁⟩, hdone, hlast⟩ := Option.map_eq_some_iff.mp h
  obtain ⟨hsuppressed, hchaining, hwaiting, rfl⟩ : t'.suppressedSignal = done.suppressedSignal ∧
      t'.chaining = done.chaining ∧ t'.waiting = done.waiting ∧ signal = signal₁ := by
    dsimp only at hlast
    split_ifs at hlast <;> cases hlast <;> exact ⟨rfl, rfl, rfl, rfl⟩
  suffices hcases : Carries t done ∨
      t.seccompAlreadyHandledEnter = false ∧ HandedOver t done a signal by
    rcases hcases with hcarries | ⟨hhandled, handed⟩
    · exact .inl ⟨hsuppressed.trans hcarries.suppressed,
        fun hkept hbefore => hchaining.trans (hcarries.chaining hkept hbefore)⟩
    · exact .inr ⟨hhandled, handed.kept, handed.ends, hsuppressed.trans handed.released,
        handed.signal, fun hwaits => hwaiting.trans (handed.waiting hwaits)⟩
  by_cases hhandled : t.seccompAlreadyHandledEnter = true
  · simp only [hhandled, Bool.not_true, Bool.false_eq_true, if_false] at hdone
    split_ifs at hdone
    cases hdone
    exact .inl (Carries.of_eq rfl rfl rfl)
  · rw [Bool.not_eq_true] at hhandled
    simp only [hhandled, Bool.not_false, if_true] at hdone
    obtain ⟨translated, htranslated⟩ : ∃ translated, translated = (if t.isInSysenter then
        { t.translateSyscall a with
          skipNextSeccompSignal := g.seccompAfterPtraceEnter && a.avoids }
      else t.translateSyscall a) := ⟨_, rfl⟩
    have hkept : translated.suppressedSignal = t.suppressedSignal := by
      rw [htranslated, ← t.translateSyscall_suppressed a]
      split_ifs <;> rfl
    have hchain : translated.chaining = (t.translateSyscall a).chaining := by
      rw [htranslated]
      split_ifs <;> rfl
    rw [← htranslated] at hdone
    split_ifs at hdone with hover'
    · -- the chain is over, which is where it `ends`
      cases hdone
      simp only [hkept, hchain, Bool.and_eq_true, decide_eq_true_eq, Bool.not_eq_true'] at hover'
      have hends : t.ends a = true := by
        by_contra hends
        have hcarries := t.translateSyscall_carries a fun _ => Bool.not_eq_true _ ▸ hends
        rw [hcarries.chaining hover'.1 (hover hover'.1)] at hover'
        exact Bool.noConfusion hover'.2
      have hexit : t.isInSysenter = false := by
        by_contra henter
        rw [t.not_ends_of_enter a (by simpa using henter)] at hends
        exact Bool.noConfusion hends
      refine .inr ⟨hhandled, hover'.1, hends, rfl, congrArg _ hkept, fun hwaits => ?_⟩
      rw [← t.translateSyscall_waiting a hexit hwaits]
      simp [htranslated, hexit]
    · cases hdone
      refine .inl ⟨hkept, fun hsignal _ => ?_⟩
      simpa [hkept, hsignal] using hover'

/-- The case `SIGTRAP | 0x80`. -/
theorem handleSyscallStop_cases (hover : t.suppressedSignal ≠ 0 → t.chaining = true)
    (h : handleSyscallStop g t a = some (t', signal)) :
    Carries t t' ∨ t.translates = true ∧ HandedOver t t' a signal := by
  unfold handleSyscallStop at h
  by_cases hexe : t.exe = true
  · simp only [hexe, Bool.not_true, Bool.false_eq_true, if_false] at h
    cases hseccomp : t.seccomp with
    | DISABLED =>
        rw [hseccomp] at h
        rcases handleSyscall_cases hover h with hcarries | ⟨hhandled, handed⟩
        · exact .inl hcarries
        · exact .inr ⟨by simp [EventTracee.translates, hexe, hseccomp, hhandled], handed⟩
    | DISABLING =>
        rw [hseccomp] at h
        cases h
        exact .inl (Carries.of_eq rfl rfl rfl)
    | ENABLED =>
        rw [hseccomp] at h
        dsimp only at h
        split_ifs at h
        all_goals
          rcases handleSyscall_cases (by exact hover) h with hcarries | ⟨hhandled, handed⟩
          · exact .inl ⟨hcarries.suppressed, hcarries.chaining⟩
          · exact .inr ⟨by simpa [EventTracee.translates, hexe, hseccomp] using hhandled,
              handed.kept, handed.ends, handed.released, handed.signal, handed.waiting⟩
  · simp only [hexe, Bool.not_false, if_true] at h
    cases h
    exact .inl (Carries.of_eq rfl rfl rfl)

/-- A seccomp stop comes at the entry of a call, where no chain ends. -/
theorem handleSeccompStop_carries {necessary : Bool}
    (h : handleSeccompStop g t a necessary = some (g', t')) : Carries t t' := by
  have henter : ∀ {entered result : EventTracee C}, entered.isInSysenter = true →
      Carries t entered → Carries (entered.translateSyscall a) result → Carries t result :=
    fun hentry hbefore hafter => (hbefore.trans (EventTracee.translateSyscall_carries _ a
      fun _ => EventTracee.not_ends_of_enter _ a hentry)).trans hafter
  unfold handleSeccompStop at h
  cases hmessage : a.eventMessage with
  | none =>
      simp only [hmessage] at h
      split_ifs at h <;> cases h <;> exact Carries.of_eq rfl rfl rfl
  | some filterSysexit =>
      simp only [hmessage] at h
      split_ifs at h <;> cases h
      all_goals first
        | exact Carries.of_eq rfl rfl rfl
        | refine henter ?_ ?_ (Carries.of_eq rfl rfl rfl)
          · have hentry : ¬(!t.isInSysenter) = true := by assumption
            rw [Bool.not_eq_true, Bool.not_eq_false'] at hentry
            exact hentry
          · exact Carries.of_eq rfl rfl rfl

/-- A signal that is kept stays when a call is restarted because of a `SIGSYS`. -/
theorem EventTracee.handleSeccompEvent_carries (t : EventTracee C) (number : Int)
    (a : EventAnswers C) : Carries t (t.handleSeccompEvent number a).1 := by
  unfold handleSeccompEvent
  dsimp only
  split_ifs
  · exact Carries.of_eq rfl rfl rfl
  · exact ⟨rfl, fun _ _ => by simp [chaining]⟩
  · exact Carries.of_eq rfl rfl rfl

/-- A `SIGSYS` of seccomp is handled like the exit of the call; the chain goes on unless it `ends`
there with no call restarted. -/
theorem handleSigsysStop_carries
    (hkeeps : t.suppressedSignal ≠ 0 → a.sysSeccomp = true → t.ends a = true →
      a.rewrites = true ∧ (t.skipNextSeccompSignal ||
        g.seccompAfterPtraceEnter && a.syscallAvoider) = false) :
    Carries t (handleSigsysStop g t a).1 := by
  have hrest : ∀ exited : EventTracee C, Carries exited
      (if exited.skipNextSeccompSignal || g.seccompAfterPtraceEnter && a.syscallAvoider then
        ({ exited with skipNextSeccompSignal := false }, 0)
      else exited.handleSeccompEvent sigsys a).1 := by
    intro exited
    split_ifs
    · exact Carries.of_eq rfl rfl rfl
    · exact exited.handleSeccompEvent_carries sigsys a
  unfold handleSigsysStop
  split_ifs with hseccomp hexit
  · exact Carries.refl t
  · by_cases hends : t.suppressedSignal ≠ 0 → t.ends a = false
    · exact (t.translateSyscall_carries a hends).trans (hrest _)
    · -- the chain is over, and a call is restarted
      rw [Classical.not_imp, Bool.not_eq_false] at hends
      obtain ⟨hrewrites, hskip⟩ := hkeeps hends.1 (by simpa using hseccomp) hends.2
      have hfetches : a.fetches = true := t.fetches_of_ends a hends.2
      rw [← t.translateSyscall_skips a] at hskip
      refine ⟨?_, fun _ _ => ?_⟩
      · exact (hrest _).suppressed.trans (t.translateSyscall_suppressed a)
      · simp [hskip, EventTracee.handleSeccompEvent, hfetches, hrewrites, EventTracee.chaining]
  · exact hrest t

end Stops

section Turns

variable {s s' : EventGlobals × EventTracee C} {e : Turn C} {g' : EventGlobals}
  {t' : EventTracee C} {signal : Int}

/-- At the stop of a system call. -/
theorem handSyscallStop {how : Option RestartHow}
    (hover : s.2.suppressedSignal ≠ 0 → s.2.chaining = true) (hkeeps : handsOver s e = true)
    (h : handleSyscallStop s.1 { s.2 with restartHow := how } e.answers = some (t', signal)) :
    (HandedOver s.2 t' e.answers signal ∧ s.2.waiting = false ∧ e.answers.waits = false ∧
      (e.forced = none ∨ e.forced = some s.2.suppressedSignal)) ∨ Carries s.2 t' := by
  rcases handleSyscallStop_cases (by exact hover) h with hcarries | ⟨htranslates, handed⟩
  · exact .inr ((Carries.restarts s.2 how).trans hcarries)
  · have hends : s.2.translates = true ∧ s.2.ends e.answers = true := ⟨htranslates, handed.ends⟩
    have hkept : s.2.suppressedSignal ≠ 0 := handed.kept
    simp only [handsOver, hkept, hends, Bool.and_self, Bool.not_true, Bool.false_or,
      Bool.and_eq_true, Bool.not_eq_true', Bool.or_eq_true, decide_eq_true_eq, decide_false] at hkeeps
    obtain ⟨⟨⟨-, hwaiting⟩, hwaits⟩, hforced⟩ := hkeeps
    exact .inl ⟨⟨handed.kept, handed.ends, handed.released, handed.signal, handed.waiting⟩,
      hwaiting, hwaits, hforced⟩

/-- What the stop of a turn that `keepsSignals` does: a signal is kept back, the one that is kept
is handed over, or neither. -/
theorem handleTraceeEvent_cases (hover : s.2.suppressedSignal ≠ 0 → s.2.chaining = true)
    (hkeeps : keepsSignals s e = true)
    (h : handleTraceeEvent s.1 s.2 e.answers e.stop = some (g', t', signal)) :
    (∃ number, e.stop.ordinary = some number ∧ 0 < number ∧ s.2.chaining = true ∧
      s.2.suppressedSignal = 0 ∧ e.forced ≠ some number ∧ t'.suppressedSignal = number ∧
      t'.chaining = true ∧ signal = 0) ∨
    (e.stop.ordinary = none ∧ HandedOver s.2 t' e.answers signal ∧ s.2.waiting = false ∧
      e.answers.waits = false ∧ (e.forced = none ∨ e.forced = some s.2.suppressedSignal)) ∨
    Carries s.2 t' ∧ (e.stop.ordinary = none ∨ s.2.chaining = false) := by
  obtain ⟨how, hchoose⟩ := s.2.chooseRestart_eq
  unfold handleTraceeEvent at h
  rw [hchoose] at h
  unfold keepsSignals at hkeeps
  cases hstop : e.stop with
  | signal number positive =>
      rw [hstop] at h hkeeps
      dsimp only at h hkeeps
      split_ifs at h with hchaining
      · cases h
        simp only [show s.2.chaining = true from hchaining, Bool.not_true, Bool.false_or,
          Bool.and_eq_true, decide_eq_true_eq] at hkeeps
        exact .inl ⟨number, rfl, positive, hchaining, hkeeps.1, hkeeps.2, rfl, hchaining, rfl⟩
      · cases h
        exact .inr (.inr ⟨Carries.of_eq rfl rfl rfl, .inr (Bool.not_eq_true _ ▸ hchaining)⟩)
  | syscall =>
      rw [hstop] at h hkeeps
      dsimp only at h hkeeps
      obtain ⟨⟨done, signal₁⟩, hdone, hlast⟩ := Option.map_eq_some_iff.mp h
      cases hlast
      exact .inr ((handSyscallStop hover hkeeps hdone).imp (⟨rfl, ·⟩) (⟨·, .inl rfl⟩))
  | sigtrap =>
      rw [hstop] at h hkeeps
      dsimp only at h hkeeps
      split_ifs at h with hdeliver
      · cases h
        exact .inr (.inr ⟨Carries.of_eq rfl rfl rfl, .inl rfl⟩)
      · rw [Bool.not_eq_true] at hdeliver
        rw [hdeliver, Bool.false_or] at hkeeps
        obtain ⟨⟨done, signal₁⟩, hdone, hlast⟩ := Option.map_eq_some_iff.mp h
        cases hlast
        exact .inr ((handSyscallStop hover hkeeps hdone).imp (⟨rfl, ·⟩) (⟨·, .inl rfl⟩))
  | sigsys =>
      rw [hstop] at h hkeeps
      dsimp only at h hkeeps
      cases h
      refine .inr (.inr ⟨?_, .inl rfl⟩)
      refine (Carries.restarts s.2 how).trans (handleSigsysStop_carries ?_)
      intro hkept hseccomp hends
      simp only [show s.2.suppressedSignal ≠ 0 from hkept, hseccomp,
        show s.2.ends e.answers = true from hends, decide_false, Bool.and_self, Bool.not_true,
        Bool.or_self, Bool.false_or, Bool.and_eq_true, Bool.not_eq_true'] at hkeeps
      exact hkeeps
  | seccomp =>
      rw [hstop] at h
      obtain ⟨done, hdone, hlast⟩ := Option.map_eq_some_iff.mp h
      cases hlast
      exact .inr (.inr ⟨(Carries.restarts s.2 how).trans (handleSeccompStop_carries hdone),
        .inl rfl⟩)
  | sigstop =>
      rw [hstop] at h
      dsimp only at h
      refine .inr (.inr ⟨?_, .inl rfl⟩)
      split_ifs at h <;> cases h <;> exact Carries.of_eq rfl rfl rfl
  | _ =>
      rw [hstop] at h
      cases h
      exact .inr (.inr ⟨Carries.of_eq rfl rfl rfl, .inl rfl⟩)

theorem restartTracee_suppressed (t : EventTracee C) (signal : Int) :
    (restartTracee t signal).1.suppressedSignal = t.suppressedSignal := by
  unfold restartTracee
  split_ifs <;> rfl

theorem restartTracee_chaining (t : EventTracee C) (signal : Int) :
    (restartTracee t signal).1.chaining = t.chaining := by
  unfold restartTracee
  split_ifs <;> rfl

theorem keptBack_append (log more : List SignalEntry) :
    keptBack (log ++ more) = keptBack log ++ keptBack more := List.filterMap_append

theorem deliveredSignals_append (log more : List SignalEntry) :
    deliveredSignals (log ++ more) = deliveredSignals log ++ deliveredSignals more :=
  List.filterMap_append

theorem PutOff.unless {t : EventTracee C} {log : List SignalEntry} (h : PutOff t log) :
    t.suppressedSignal ≠ 0 → t.chaining = true :=
  fun hkept => by
    by_contra hchaining
    exact hkept (h.settled (Bool.not_eq_true _ ▸ hchaining))

/-- **A turn that `keepsSignals` loses no signal** and delivers none twice. -/
theorem turn_putOff {log : List SignalEntry} (h : PutOff s.2 log) (hkeeps : keepsSignals s e = true)
    (hturn : turn s e = some s') : PutOff s'.2 (log ++ signalEntries s e) := by
  unfold turn at hturn
  obtain ⟨⟨g', t', signal⟩, hhandled, hrestart⟩ := Option.bind_eq_some_iff.mp hturn
  dsimp only at hrestart
  split_ifs at hrestart
  cases hrestart
  have hkept (number : Nat) (hnumber : t'.suppressedSignal = number) (signal : Int) :
      (restartTracee t' signal).1.kept = if number = 0 then [] else [number] := by
    rw [EventTracee.kept, restartTracee_suppressed, hnumber]
  rcases handleTraceeEvent_cases h.unless hkeeps hhandled with
    ⟨number, hordinary, hpositive, hchaining, hfree, hforced, hnumber, hchain, rfl⟩ |
    ⟨hordinary, handed, hwaiting, hwaits, hforced⟩ | ⟨hcarries, hordinary⟩
  · -- a signal is kept back, and the tracee goes on without it
    have hentries : signalEntries s e = [.keptBack number] := by
      have hother : ((e.forced.map Int.ofNat).getD 0 = (number : Int)) = False := by
        cases hgiven : e.forced with
        | none => simpa using Int.natCast_ne_zero.mpr (Nat.ne_of_gt hpositive) ∘ Eq.symm
        | some given =>
            simp only [hgiven, ne_eq, Option.some.injEq] at hforced
            simpa [Int.ofNat_inj] using hforced
      simp [signalEntries, hhandled, hordinary, hchaining, hfree, hother]
    constructor
    · rw [hentries, keptBack_append, deliveredSignals_append, h.once, hkept number hnumber,
        EventTracee.kept, if_pos hfree, if_neg (Nat.ne_of_gt hpositive)]
      simp [keptBack, deliveredSignals]
    · rw [restartTracee_chaining, hchain]
      exact fun hover => Bool.noConfusion hover
  · -- the chain is over, and the tracee is restarted with the signal
    have hentries : signalEntries s e = [.delivered s.2.suppressedSignal] := by
      have hgiven : (e.forced.map Int.ofNat).getD signal = (s.2.suppressedSignal : Int) := by
        rcases hforced with hforced | hforced
        · rw [hforced]
          exact handed.signal
        · rw [hforced]
          rfl
      have hrestarted : (restartTracee t' (s.2.suppressedSignal : Int)).2 = true := by
        simp [restartTracee, handed.waiting hwaits, hwaiting]
      simp [signalEntries, hhandled, hordinary, handed.kept, handed.released, hgiven, hrestarted]
    constructor
    · rw [hentries, keptBack_append, deliveredSignals_append, h.once, hkept 0 handed.released,
        EventTracee.kept, if_neg handed.kept]
      simp [keptBack, deliveredSignals]
    · rw [restartTracee_suppressed]
      exact fun _ => handed.released
  · have hentries : signalEntries s e = [] := by
      have hsame : ¬s.2.suppressedSignal = 0 → ¬t'.suppressedSignal = 0 := by
        rw [hcarries.suppressed]
        exact id
      rcases hordinary with hordinary | hchaining
      · simpa [signalEntries, hhandled, hordinary] using fun hne heq => absurd heq (hsame hne)
      · cases hstop : e.stop.ordinary <;>
          simpa [signalEntries, hhandled, hchaining, hstop] using
            fun hne heq => absurd heq (hsame hne)
    constructor
    · rw [hentries, List.append_nil, h.once, hkept _ hcarries.suppressed, EventTracee.kept]
    · rw [restartTracee_chaining, restartTracee_suppressed, hcarries.suppressed]
      intro hover
      by_contra hsignal
      rw [hcarries.chaining hsignal (h.unless hsignal)] at hover
      exact Bool.noConfusion hover

end Turns

open AbortableRuns

/-- **Signals that are put off are delivered.**  In a run whose turns all `keepsSignals`, what was
kept back was delivered in order, each signal once, but for the one that is kept; when the chain is
over there is none. -/
theorem signals_delivered {g : EventGlobals} {t : EventTracee C} (hfree : t.suppressedSignal = 0)
    {turns : List (Turn C)} (hkeeps : allSteps turn keepsSignals (g, t) turns = true)
    {s' : EventGlobals × EventTracee C} (hrun : run turn (g, t) turns = some s') :
    keptBack (record turn signalEntries (g, t) turns) =
        deliveredSignals (record turn signalEntries (g, t) turns) ++ s'.2.kept ∧
      (s'.2.chaining = false → keptBack (record turn signalEntries (g, t) turns) =
        deliveredSignals (record turn signalEntries (g, t) turns)) := by
  have hstart : PutOff t [] := ⟨by simp [keptBack, deliveredSignals, EventTracee.kept, hfree],
    fun _ => hfree⟩
  have hend : PutOff s'.2 ([] ++ record turn signalEntries (g, t) turns) :=
    record_invariant (P := fun s log => PutOff s.2 log)
      (fun _ _ _ _ h hkeeps hturn => turn_putOff h hkeeps hturn) hstart hkeeps hrun
  rw [List.nil_append] at hend
  refine ⟨hend.once, fun hover => ?_⟩
  rw [hend.once, EventTracee.kept, if_pos (hend.settled hover), List.append_nil]

/-- What is found out at a stop where nothing in particular happens. -/
def nothingSpecial : EventAnswers Nat where
  fetches := true
  registers := []
  status := 0
  restartsHow := false
  sysexitPending := false
  disables := false
  avoids := false
  pushes := true
  current := 0
  restores := false
  restartsCall := false
  waits := false
  eventMessage := none
  sysSeccomp := false
  syscallAvoider := false
  rewrites := false

/-- A tracee in its own code, with no seccomp. -/
def runningTracee : EventTracee Nat where
  exe := true
  status := 0
  seccomp := .DISABLED
  sysexitPending := false
  seccompAlreadyHandledEnter := false
  restartHow := none
  lastRestartHow := some .PTRACE_SYSCALL
  chain := none
  suppressedSignal := 0
  restoreOriginalRegsAfterSeccompEvent := false
  skipNextSeccompSignal := false
  sigstop := .SIGSTOP_ALLOWED
  waiting := false
  terminated := false

/-- A call with another one chained to it, and the signals that come between the two. -/
def chainedCall (signals : List Stop) : List (Turn Nat) :=
  [⟨.syscall, { nothingSpecial with registers := [198] }, false, none⟩,
    ⟨.syscall, nothingSpecial, false, none⟩] ++
  signals.map (⟨·, nothingSpecial, false, none⟩) ++
  [⟨.syscall, nothingSpecial, false, none⟩, ⟨.syscall, nothingSpecial, false, none⟩]

/-- The variables of the event loop, when the loop has begun. -/
def tracing : EventGlobals := ⟨true, false, true⟩

theorem signals_delivered_one :
    keptBack (record turn signalEntries (tracing, runningTracee)
        (chainedCall [.signal 10 (by decide)])) =
      deliveredSignals (record turn signalEntries (tracing, runningTracee)
        (chainedCall [.signal 10 (by decide)])) := by
  have hrun : ∃ t, run turn (tracing, runningTracee) (chainedCall [.signal 10 (by decide)]) =
      some (tracing, t) ∧ t.chaining = false := ⟨_, rfl, rfl⟩
  obtain ⟨t, hrun, hover⟩ := hrun
  exact (signals_delivered rfl (by decide) hrun).2 hover

/-- The second of two signals that come in one chain takes the place of the first. -/
theorem signals_overwritten :
    ∃ t, run turn (tracing, runningTracee)
        (chainedCall [.signal 10 (by decide), .signal 12 (by decide)]) = some (tracing, t) ∧
      t.chaining = false ∧
      keptBack (record turn signalEntries (tracing, runningTracee)
        (chainedCall [.signal 10 (by decide), .signal 12 (by decide)])) = [10, 12] ∧
      deliveredSignals (record turn signalEntries (tracing, runningTracee)
        (chainedCall [.signal 10 (by decide), .signal 12 (by decide)])) = [12] :=
  ⟨_, rfl, rfl, by decide, by decide⟩

end PRoot
