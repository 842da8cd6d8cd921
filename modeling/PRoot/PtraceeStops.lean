import PRoot.PutOffSignals
import PRoot.Ptracees

/-!
# Stops of ptracees

What the handling of a stop leaves of a tracee that is to be restarted.

* `Ready`: it can be restarted as before;
* `handleTraceeEvent_ready`: the stops for which ptracees are kept, and the signal they come to;
* `Ptracee.Held`: what is known of a ptracee while it is kept stopped.
-/

namespace PRoot

variable {C : Type} {g g' : EventGlobals} {t t' : EventTracee C} {a : EventAnswers C}

/-! ## Tracees -/

namespace EventTracee

/-- A tracee after a stop was handled, as far as its restart is concerned. -/
structure Ready (t t' : EventTracee C) : Prop where
  how : t'.restartHow.isSome = true
  terminated : t'.terminated = t.terminated

namespace Ready

theorem trans {t'' : EventTracee C} (h : Ready t t') (h' : Ready t' t'') : Ready t t'' :=
  ⟨h'.how, h'.terminated.trans h.terminated⟩

end Ready

theorem chooseRestart_ready (t : EventTracee C) : Ready t t.chooseRestart := by
  unfold chooseRestart
  split_ifs with hhow
  · exact ⟨Option.isSome_iff_ne_none.mpr hhow, rfl⟩
  · exact ⟨rfl, rfl⟩
  · exact ⟨rfl, rfl⟩

theorem translateEnter_ready (hhow : t.restartHow.isSome = true) :
    Ready t (t.translateEnter a) := by
  unfold translateEnter
  dsimp only
  split_ifs <;> first | exact ⟨hhow, rfl⟩ | exact ⟨rfl, rfl⟩

theorem translateEnter_waiting (t : EventTracee C) (a : EventAnswers C) :
    (t.translateEnter a).waiting = t.waiting := by
  unfold translateEnter
  dsimp only
  split_ifs <;> rfl

theorem translateExit_ready (hhow : t.restartHow.isSome = true) :
    Ready t (t.translateExit a) := by
  unfold translateExit
  dsimp only
  refine ⟨?_, rfl⟩
  show (if _ then _ else _ : Option RestartHow).isSome = true
  split_ifs
  · rfl
  · exact hhow

theorem translateSyscall_ready (hhow : t.restartHow.isSome = true) :
    Ready t (t.translateSyscall a) := by
  unfold translateSyscall
  split_ifs
  · exact ⟨hhow, rfl⟩
  · exact translateEnter_ready hhow
  · exact translateExit_ready hhow

end EventTracee

open EventTracee

theorem handleSyscall_ready (hhow : t.restartHow.isSome = true) {signal : Int}
    (h : handleSyscall g t a = some (t', signal)) : Ready t t' := by
  unfold handleSyscall at h
  obtain ⟨⟨middle, number⟩, hmiddle, hlast⟩ := Option.map_eq_some_iff.mp h
  have hready : Ready t middle := by
    dsimp only at hmiddle
    have htranslated := translateSyscall_ready (a := a) hhow
    split_ifs at hmiddle <;> cases hmiddle <;>
      first | exact ⟨htranslated.how, htranslated.terminated⟩ | exact ⟨rfl, rfl⟩
  dsimp only at hlast
  split_ifs at hlast <;> cases hlast
  · exact ⟨rfl, hready.terminated⟩
  · exact hready

theorem handleSyscallStop_ready (hhow : t.restartHow.isSome = true) {signal : Int}
    (h : handleSyscallStop g t a = some (t', signal)) : Ready t t' := by
  unfold handleSyscallStop at h
  by_cases hexe : (!t.exe) = true
  · rw [if_pos hexe] at h
    cases h
    exact ⟨rfl, rfl⟩
  · rw [if_neg hexe] at h
    cases hseccomp : t.seccomp with
    | ENABLED =>
        rw [hseccomp] at h
        dsimp only at h
        split_ifs at h
        · have hready := handleSyscall_ready (by rfl) h
          exact ⟨hready.how, hready.terminated⟩
        · have hready := handleSyscall_ready (by rfl) h
          exact ⟨hready.how, hready.terminated⟩
    | DISABLED =>
        rw [hseccomp] at h
        exact handleSyscall_ready hhow h
    | DISABLING =>
        rw [hseccomp] at h
        cases h
        exact ⟨hhow, rfl⟩

theorem handleSeccompEvent_ready (hhow : t.restartHow.isSome = true) (number : Int) :
    Ready t (t.handleSeccompEvent number a).1 := by
  unfold handleSeccompEvent
  dsimp only
  split_ifs <;> first | exact ⟨hhow, rfl⟩ | exact ⟨rfl, rfl⟩

theorem handleSigsysStop_ready (hhow : t.restartHow.isSome = true) :
    Ready t (handleSigsysStop g t a).1 := by
  unfold handleSigsysStop
  by_cases hseccomp : (!a.sysSeccomp) = true
  · rw [if_pos hseccomp]
    exact ⟨hhow, rfl⟩
  · rw [if_neg hseccomp]
    have hready : Ready t (if !t.isInSysenter then t.translateSyscall a else t) := by
      split_ifs
      · exact translateSyscall_ready hhow
      · exact ⟨hhow, rfl⟩
    generalize (if !t.isInSysenter then t.translateSyscall a else t) = middle at hready
    dsimp only
    split_ifs
    · exact ⟨hready.how, hready.terminated⟩
    · exact hready.trans (handleSeccompEvent_ready hready.how _)

theorem translateSyscall_terminated (t : EventTracee C) (a : EventAnswers C) :
    (t.translateSyscall a).terminated = t.terminated := by
  unfold translateSyscall
  split_ifs
  · rfl
  · unfold translateEnter
    dsimp only
    split_ifs <;> rfl
  · rfl

theorem handleSeccompStop_terminated {necessary : Bool}
    (h : handleSeccompStop g t a necessary = some (g', t')) : t'.terminated = t.terminated := by
  unfold handleSeccompStop at h
  cases hmessage : a.eventMessage with
  | none =>
      simp only [hmessage] at h
      split_ifs at h <;> cases h <;> rfl
  | some filterSysexit =>
      simp only [hmessage] at h
      split_ifs at h <;> cases h <;> first | rfl | exact translateSyscall_terminated _ _

/-- A stop leaves a tracee that can be restarted, where it is not one of seccomp; the tracee
terminates only when it is over. -/
theorem handleTraceeEvent_ready {stop : Stop} {signal : Int}
    (h : handleTraceeEvent g t a stop = some (g', t', signal)) :
    (stop ≠ .seccomp → t'.restartHow.isSome = true) ∧
      t'.terminated = (t.terminated || stop.over) := by
  have hready := chooseRestart_ready t
  unfold handleTraceeEvent at h
  dsimp only at h
  generalize t.chooseRestart = chosen at h hready
  have hsame : ∀ t', Ready chosen t' →
      (stop ≠ .seccomp → t'.restartHow.isSome = true) ∧ t'.terminated = (t.terminated || false) :=
    fun t' h => ⟨fun _ => h.how, by rw [Bool.or_false, h.terminated, hready.terminated]⟩
  cases stop with
  | exited =>
      cases h
      exact ⟨fun _ => hready.how, (Bool.or_true _).symm⟩
  | signaled =>
      cases h
      exact ⟨fun _ => hready.how, (Bool.or_true _).symm⟩
  | seccomp =>
      obtain ⟨⟨g'', middle⟩, hmiddle, hlast⟩ := Option.map_eq_some_iff.mp h
      cases hlast
      refine ⟨fun hstop => absurd rfl hstop, ?_⟩
      rw [handleSeccompStop_terminated hmiddle, hready.terminated]
      exact (Bool.or_false _).symm
  | sigtrap =>
      dsimp only at h
      split_ifs at h
      · cases h
        exact hsame _ ⟨hready.how, rfl⟩
      · obtain ⟨⟨middle, number⟩, hmiddle, hlast⟩ := Option.map_eq_some_iff.mp h
        cases hlast
        exact hsame _ (handleSyscallStop_ready hready.how hmiddle)
  | syscall =>
      obtain ⟨⟨middle, number⟩, hmiddle, hlast⟩ := Option.map_eq_some_iff.mp h
      cases hlast
      exact hsame _ (handleSyscallStop_ready hready.how hmiddle)
  | vfork | fork | clone =>
      cases h
      exact hsame _ ⟨hready.how, rfl⟩
  | vforkDone | exec | exit =>
      cases h
      refine hsame _ ⟨?_, rfl⟩
      show (chosen.lastRestartHow.or chosen.restartHow).isSome = true
      rw [Option.isSome_or, hready.how, Bool.or_true]
  | sigstop =>
      dsimp only at h
      split_ifs at h <;> cases h <;> exact hsame _ ⟨hready.how, rfl⟩
  | sigsys =>
      cases h
      exact hsame _ (handleSigsysStop_ready hready.how)
  | signal number =>
      dsimp only at h
      split_ifs at h <;> cases h <;> exact hsame _ ⟨hready.how, rfl⟩

/-! ## Stops that are handled later -/

/-- The stops for which a ptracee may be kept before PRoot handles them. -/
def Stop.later : Stop → Bool
  | .syscall | .sigtrap | .sigstop | .signal .. => true
  | _ => false

namespace EventTracee

/-- No assertion fails when PRoot handles such a stop. -/
def handles (g : EventGlobals) (t : EventTracee C) : Stop → Bool
  | .syscall => !t.exe || t.seccomp = .DISABLING || !t.seccompAlreadyHandledEnter
  | .sigtrap => g.deliverSigtrap
  | _ => true

/-- No signal that was put off is left when no call is made on behalf of the tracee. -/
def quiet (t : EventTracee C) : Stop → Bool
  | .syscall => !t.exe || t.seccomp = .DISABLING || t.suppressedSignal = 0 || t.chaining
  | _ => true

/-- The signal that PRoot makes of such a stop. -/
def signalOf (t : EventTracee C) : Stop → Int
  | .signal number _ => if t.chaining then 0 else number
  | .sigtrap => sigtrap
  | .sigstop => if !t.exe then -1 else if t.sigstop = .SIGSTOP_IGNORED then 0 else PRoot.sigstop
  | _ => 0

end EventTracee

theorem translateSyscall_enter_waiting (henter : t.isInSysenter = true) (a : EventAnswers C) :
    (t.translateSyscall a).waiting = t.waiting := by
  unfold translateSyscall
  rw [if_pos henter]
  split_ifs
  · rfl
  · exact translateEnter_waiting t a

/-- The entry of a call is translated. -/
theorem handleSyscall_enter (g : EventGlobals) (henter : t.isInSysenter = true)
    (hhandled : t.seccompAlreadyHandledEnter = false) (a : EventAnswers C) :
    ∃ t' signal, handleSyscall g t a = some (t', signal) ∧ t'.waiting = t.waiting ∧
      (t.suppressedSignal = 0 ∨ t.chaining = true → signal = 0) := by
  have hcarries := t.translateSyscall_carries a fun _ => t.not_ends_of_enter a henter
  have hwaiting := translateSyscall_enter_waiting henter a
  unfold handleSyscall
  rw [hhandled, henter]
  simp only [Bool.not_false, if_true]
  generalize t.translateSyscall a = middle at hcarries hwaiting
  have hquiet : t.suppressedSignal = 0 ∨ t.chaining = true →
      ¬(middle.suppressedSignal ≠ 0 && !middle.chaining) = true := by
    intro hquiet hleft
    rw [Bool.and_eq_true, decide_eq_true_eq, hcarries.suppressed, Bool.not_eq_true'] at hleft
    have hchaining := hcarries.chaining hleft.1 (hquiet.resolve_left hleft.1)
    rw [hchaining] at hleft
    exact Bool.noConfusion hleft.2
  split_ifs with hleft
  · rw [Option.map_some]
    dsimp only
    split_ifs <;> exact ⟨_, _, rfl, hwaiting, fun h => absurd hleft (hquiet h)⟩
  · rw [Option.map_some]
    dsimp only
    split_ifs <;> exact ⟨_, _, rfl, hwaiting, fun _ => rfl⟩

theorem handleSyscallStop_enter (g : EventGlobals) (henter : t.isInSysenter = true)
    (hhandles : t.handles g .syscall = true) (a : EventAnswers C) :
    ∃ t' signal, handleSyscallStop g t a = some (t', signal) ∧ t'.waiting = t.waiting ∧
      (t.quiet .syscall = true → signal = 0) := by
  unfold handles at hhandles
  unfold quiet handleSyscallStop
  by_cases hexe : (!t.exe) = true
  · rw [if_pos hexe]
    exact ⟨_, _, rfl, rfl, fun _ => rfl⟩
  · rw [if_neg hexe]
    simp only [hexe, Bool.false_or, Bool.or_eq_true, decide_eq_true_eq,
      Bool.not_eq_true'] at hhandles ⊢
    cases hseccomp : t.seccomp with
    | DISABLING => exact ⟨_, _, rfl, rfl, fun _ => rfl⟩
    | DISABLED =>
        have hhandled := hhandles.resolve_left (by rw [hseccomp]; exact nofun)
        obtain ⟨t', signal, hdone, hwaiting, hquiet⟩ := handleSyscall_enter g henter hhandled a
        exact ⟨t', signal, hdone, hwaiting, fun h => hquiet (by simpa using h)⟩
    | ENABLED =>
        have hhandled := hhandles.resolve_left (by rw [hseccomp]; exact nofun)
        dsimp only
        rw [if_pos henter]
        obtain ⟨t', signal, hdone, hwaiting, hquiet⟩ :=
          @handleSyscall_enter C { t with
            restartHow := some .PTRACE_SYSCALL, sysexitPending := true } g henter hhandled a
        refine ⟨t', signal, hseccomp ▸ hdone, hwaiting, fun h => ?_⟩
        have hleft : t.suppressedSignal = 0 ∨ t.chaining = true := by simpa using h
        exact hquiet hleft

/-- **The handling of a stop that was put off until the ptracer goes on.** -/
theorem handleTraceeEvent_later {stop : Stop} (hlater : stop.later = true)
    (hhandles : t.handles g stop = true) (henter : stop = .syscall → t.isInSysenter = true)
    (a : EventAnswers C) :
    ∃ t' signal, handleTraceeEvent g t a stop = some (g, t', signal) ∧ t'.waiting = t.waiting ∧
      (t.quiet stop = true → signal = t.signalOf stop) := by
  obtain ⟨how, hhow⟩ := t.chooseRestart_eq
  unfold handleTraceeEvent
  dsimp only
  rw [hhow]
  cases stop with
  | syscall =>
      obtain ⟨t', signal, hdone, hwaiting', hquiet⟩ :=
        @handleSyscallStop_enter C { t with restartHow := how } g (henter rfl) hhandles a
      exact ⟨t', signal, congrArg (Option.map _) hdone, hwaiting', hquiet⟩
  | sigtrap => exact ⟨_, _, if_pos hhandles, rfl, fun _ => rfl⟩
  | sigstop =>
      unfold signalOf
      dsimp only
      cases hexe : t.exe with
      | false => exact ⟨_, _, rfl, rfl, fun _ => rfl⟩
      | true =>
          by_cases hignored : t.sigstop = .SIGSTOP_IGNORED
          · exact ⟨_, _, if_pos hignored, rfl, fun _ => (if_pos hignored).symm⟩
          · exact ⟨_, _, if_neg hignored, rfl, fun _ => (if_neg hignored).symm⟩
  | signal number positive =>
      have hchaining : ({ t with restartHow := how } : EventTracee C).chaining = t.chaining := rfl
      unfold signalOf
      dsimp only
      rw [hchaining]
      split_ifs
      · exact ⟨_, _, rfl, rfl, fun _ => rfl⟩
      · exact ⟨_, _, rfl, rfl, fun _ => rfl⟩
  | _ => cases hlater

end PRoot
