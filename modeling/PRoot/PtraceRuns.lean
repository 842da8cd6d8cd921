import PRoot.KeptPtracees

/-!
# Ptracees are released

* `PtraceSystem.Good`: what holds between two steps; `nobodyHeld`: nobody is stopped in vain;
* `PtraceSystem.releases`: the steps that restart each ptracee they should, with its signal;
* `ptracees_released`: in a run of such steps no ptracee stays stopped for a ptracer that let it go,
  and no ptracer for a ptracee that is gone.
-/

namespace PRoot

variable {C : Type}

/-- PRoot still has to handle the stop. -/
def ProotEvent.isPending : ProotEvent → Bool
  | .pending _ => true
  | _ => false

/-- **The removal of the ptracer lets the ptracee go.**  PRoot has not handled the stop that the
ptracee is kept for, or the ptracer was not told about it; the ptracee can go on, with the signal of
the stop; and a ptracee that is not kept has no event left for the ptracer. -/
def Ptracee.letsGo (g : EventGlobals) (p : Ptracee C) : Bool :=
  !p.attached ||
    match p.kept with
    | some signal => (p.proot.isPending || p.ptracerPending) && p.goesOn g signal && p.quiet &&
        p.ownSignal = signal
    | none => !p.ptracerPending || p.tracee.waiting || p.tracee.restartHow.isSome

namespace PtraceSystem

/-- The `wait` makes the ptracer wait. -/
def blocks (s : PtraceSystem C) (target : WaitTarget) (options : WaitOptions) : Bool :=
  s.acts && (s.findZombie target options).isNone && (s.findPtracee target options).isNone &&
    s.nbPtracees ≠ 0 && !options.wnohang

/-- **A step that restarts each ptracee it should.**  A request restarts a ptracee that can go on,
with a signal that there is; `PTRACE_DETACH` gives the signal that PRoot has for the ptracee; the
ptracer waits for any ptracee, or for one of the kind that it expects; and when it terminates, each
of its ptracees is let go. -/
def releases (s : PtraceSystem C) : PtraceEvent C → Bool
  | .request pid how data _ =>
      (s.stoppedPtracee pid).all fun p => !s.acts || (p.requested how).goesOn s.globals data
  | .detach pid data _ =>
      (s.stoppedPtracee pid).all fun p => !s.acts || p.kept = none ||
        p.goesOn s.globals data && p.quiet && p.ownSignal = data
  | .wait (.pid pid) options _ =>
      !s.blocks (.pid pid) options ||
        (s.tracee pid).any fun p => p.attached && options.expects p.clone
  | .gone _ => s.tracees.all fun e => e.2.letsGo s.globals
  | _ => true

/-! ## What a run keeps -/

/-- What holds between two steps: the ptracer waits for a ptracee that is there, and a ptracer that
is gone has no ptracees. -/
structure Good (s : PtraceSystem C) : Prop where
  tracees : ∀ e ∈ s.tracees, e.2.Good
  keys : (s.tracees.map (·.1)).Nodup
  target : ∀ pid, s.ptracer.waitPid = some (.pid pid) → ∃ p, s.tracee pid = some p ∧
    p.attached = true ∧ s.ptracer.waitOptions.expects p.clone = true
  any : s.ptracer.waitPid = some .any → s.nbPtracees ≠ 0
  dead : s.alive = false → ∀ e ∈ s.tracees, e.2.attached = false

section

variable {s s' : PtraceSystem C} {pid other : Nat} {p p₀ : Ptracee C}

theorem mem_of_tracee (h : s.tracee pid = some p) : (pid, p) ∈ s.tracees := by
  unfold tracee at h
  obtain ⟨⟨key, found⟩, hfound, rfl⟩ := Option.map_eq_some_iff.mp h
  have hkey : key = pid := by simpa using List.find?_some hfound
  exact hkey ▸ List.mem_of_find?_eq_some hfound

theorem tracee_of_mem (hkeys : (s.tracees.map (·.1)).Nodup) (h : (pid, p) ∈ s.tracees) :
    s.tracee pid = some p := by
  unfold tracee
  generalize s.tracees = tracees at hkeys h
  induction tracees with
  | nil => cases h
  | cons first tracees ih =>
      rw [List.map_cons, List.nodup_cons] at hkeys
      rcases List.mem_cons.mp h with rfl | hrest
      · simp
      · have hother : first.1 ≠ pid := fun hsame =>
          hkeys.1 (hsame ▸ List.mem_map.mpr ⟨(pid, p), hrest, rfl⟩)
        rw [List.find?_cons_of_neg (by simpa using hother)]
        exact ih hkeys.2 hrest

theorem nbPtracees_ne_zero :
    s.nbPtracees ≠ 0 ↔ (∃ e ∈ s.tracees, e.2.attached = true) ∨ s.zombies ≠ [] := by
  unfold nbPtracees
  rw [← Nat.pos_iff_ne_zero, Nat.add_pos_iff_pos_or_pos, List.countP_pos_iff, List.length_pos_iff]

theorem mem_set {e : Nat × Ptracee C} (h : e ∈ (s.set pid p).tracees) :
    e = (pid, p) ∨ e ∈ s.tracees ∧ e.1 ≠ pid := by
  obtain ⟨e₀, he₀, rfl⟩ := List.mem_map.mp h
  split_ifs with hkey
  · exact .inl rfl
  · exact .inr ⟨he₀, hkey⟩

theorem keys_set : (s.set pid p).tracees.map (·.1) = s.tracees.map (·.1) := by
  unfold set
  rw [List.map_map]
  refine List.map_congr_left fun e _ => ?_
  show (if e.1 = pid then (pid, p) else e).1 = e.1
  split_ifs with hkey
  · exact hkey.symm
  · rfl

theorem tracee_set :
    (s.set pid p).tracee other = if other = pid then (s.tracee pid).map fun _ => p
      else s.tracee other := by
  have hsame : (fun e : Nat × Ptracee C => decide (e.1 = other)) ∘
      (fun e => if e.1 = pid then (pid, p) else e) = fun e => decide (e.1 = other) := by
    funext e
    show decide ((if e.1 = pid then (pid, p) else e).1 = other) = decide (e.1 = other)
    split_ifs with hkey
    · rw [hkey]
    · rfl
  unfold tracee set
  rw [List.find?_map, hsame, Option.map_map]
  cases hfound : s.tracees.find? fun e => decide (e.1 = other) with
  | none =>
      split_ifs with hother
      · subst hother
        rw [hfound]
        rfl
      · rfl
  | some e =>
      have hkey : e.1 = other := by simpa using List.find?_some hfound
      split_ifs with hother
      · subst hother
        rw [hfound]
        simp [hkey]
      · simp [hkey, hother]

/-- The removal of a tracee. -/
theorem tracee_filter (h : s'.tracees = s.tracees.filter (·.1 ≠ pid)) (hother : other ≠ pid) :
    s'.tracee other = s.tracee other := by
  unfold tracee
  rw [h, List.find?_filter]
  congr 2
  funext e
  by_cases hkey : e.1 = other
  · simp [hkey, hother]
  · simp [hkey]

/-! ## The invariant -/

/-- The ptracer does not wait any more. -/
theorem Good.awake (hgood : s.Good) (g : EventGlobals) {ptracer : Ptracer}
    (hptracer : ptracer.waitPid = none ∨ ptracer = s.ptracer) :
    ({ s with globals := g, ptracer } : PtraceSystem C).Good := by
  rcases hptracer with hnone | rfl
  · exact ⟨hgood.tracees, hgood.keys,
      fun pid h => (Option.some_ne_none _ (h.symm.trans hnone)).elim,
      fun h => (Option.some_ne_none _ (h.symm.trans hnone)).elim, hgood.dead⟩
  · exact ⟨hgood.tracees, hgood.keys, hgood.target, hgood.any, hgood.dead⟩

/-- A tracee changes, without a loss for a ptracer that waits. -/
theorem Good.set (hgood : s.Good) (hp₀ : s.tracee pid = some p₀) (hp : p.Good)
    (hstays : s.ptracer.waitPid = none ∨
      (p₀.attached = true → p.attached = true ∧ p.clone = p₀.clone))
    (hdead : s.alive = false → p.attached = false) : (s.set pid p).Good := by
  refine ⟨fun e he => ?_, by rw [keys_set]; exact hgood.keys, fun target htarget => ?_,
    fun hany => ?_, fun halive e he => ?_⟩
  · rcases mem_set he with rfl | ⟨hmem, -⟩
    · exact hp
    · exact hgood.tracees e hmem
  · have hstays := hstays.resolve_left fun hnone => Option.some_ne_none _ (htarget.symm.trans hnone)
    obtain ⟨p₁, hp₁, hattached, hexpects⟩ := hgood.target target htarget
    rw [tracee_set]
    split_ifs with hsame
    · subst hsame
      obtain rfl := Option.some.inj (hp₁.symm.trans hp₀)
      obtain ⟨hattached', hclone⟩ := hstays hattached
      exact ⟨p, by rw [hp₀]; rfl, hattached', hclone ▸ hexpects⟩
    · exact ⟨p₁, hp₁, hattached, hexpects⟩
  · have hstays := hstays.resolve_left fun hnone => Option.some_ne_none _ (hany.symm.trans hnone)
    rw [nbPtracees_ne_zero]
    rcases nbPtracees_ne_zero.mp (hgood.any hany) with ⟨⟨key, p₁⟩, he, hattached⟩ | hzombies
    · left
      by_cases hkey : key = pid
      · subst hkey
        obtain rfl := Option.some.inj ((tracee_of_mem hgood.keys he).symm.trans hp₀)
        exact ⟨(key, p), mem_of_tracee (by rw [tracee_set, if_pos rfl, hp₀]; rfl),
          (hstays hattached).1⟩
      · exact ⟨(key, p₁), List.mem_map.mpr ⟨(key, p₁), he, if_neg hkey⟩, hattached⟩
    · exact .inr hzombies
  · rcases mem_set he with rfl | ⟨hmem, -⟩
    · exact hdead halive
    · exact hgood.dead halive e hmem

/-- A tracee that terminated is removed, and the ptracer did not wait for it. -/
theorem Good.remove (hgood : s.Good) (hp₀ : s.tracee pid = some p₀)
    (hstays : s.ptracer.waitPid = none ∨ p.attached = p₀.attached ∧ p.clone = p₀.clone ∧
      (p.attached = true → s.ptracer.awaits pid p.clone = false)) : (s.remove pid p).Good := by
  have hrest : ∀ s' : PtraceSystem C, s'.tracees = s.tracees.filter (·.1 ≠ pid) →
      s'.alive = s.alive → (s'.ptracer.waitPid = none ∨ s'.ptracer = s.ptracer ∧
        (s.ptracer.waitPid = some .any → s'.nbPtracees ≠ 0)) → s'.Good := by
    intro s' htracees halive hptracer
    refine ⟨fun e he => ?_, ?_, fun target htarget => ?_, fun hany => ?_, fun hdead e he => ?_⟩
    · rw [htracees] at he
      exact hgood.tracees e (List.mem_filter.mp he).1
    · rw [htracees]
      exact hgood.keys.sublist (List.filter_sublist.map _)
    · obtain ⟨hsame, -⟩ := hptracer.resolve_left fun hnone =>
        Option.some_ne_none _ (htarget.symm.trans hnone)
      rw [hsame] at htarget ⊢
      obtain ⟨hattached, hclone, hawaits⟩ := hstays.resolve_left fun hnone =>
        Option.some_ne_none _ (htarget.symm.trans hnone)
      obtain ⟨p₁, hp₁, hattached₁, hexpects⟩ := hgood.target target htarget
      refine ⟨p₁, ?_, hattached₁, hexpects⟩
      have hother : target ≠ pid := by
        rintro rfl
        obtain rfl := Option.some.inj (hp₁.symm.trans hp₀)
        have hnot := hawaits (hattached.trans hattached₁)
        unfold Ptracer.awaits at hnot
        rw [htarget, hclone, hexpects] at hnot
        simp [WaitTarget.matches] at hnot
      rw [tracee_filter htracees hother, hp₁]
    · obtain ⟨hsame, hleft⟩ := hptracer.resolve_left fun hnone =>
        Option.some_ne_none _ (hany.symm.trans hnone)
      exact hleft (hsame ▸ hany)
    · rw [htracees] at he
      exact hgood.dead (halive ▸ hdead) e (List.mem_filter.mp he).1
  unfold PtraceSystem.remove
  dsimp only
  split_ifs with hdetached hzombie hnothing
  · -- somebody else is attached, if the ptracer waits for any
    refine hrest _ rfl rfl (.inr ⟨rfl, fun hany => ?_⟩)
    rw [nbPtracees_ne_zero]
    rcases nbPtracees_ne_zero.mp (hgood.any hany) with ⟨⟨key, p₁⟩, he, hattached⟩ | hzombies
    · refine .inl ⟨(key, p₁), List.mem_filter.mpr ⟨he, decide_eq_true ?_⟩, hattached⟩
      rintro rfl
      obtain rfl := Option.some.inj ((tracee_of_mem hgood.keys he).symm.trans hp₀)
      obtain ⟨hsame, -⟩ := hstays.resolve_left fun hnone =>
        Option.some_ne_none _ (hany.symm.trans hnone)
      rw [hsame] at hdetached
      have hattached : p₁.attached = true := hattached
      rw [hattached] at hdetached
      cases hdetached
    · exact .inr hzombies
  · refine hrest _ rfl rfl (.inr ⟨rfl, fun _ => ?_⟩)
    rw [nbPtracees_ne_zero]
    exact .inr (List.cons_ne_nil _ _)
  · exact hrest _ rfl rfl (.inl rfl)
  · exact hrest _ rfl rfl (.inr ⟨rfl, fun _ => hnothing⟩)

/-! ## One step -/

theorem tracee_of_stopped (h : s.stoppedPtracee pid = some p) :
    s.tracee pid = some p ∧ p.attached = true ∧ p.running = false := by
  unfold stoppedPtracee at h
  split_ifs at h
  obtain ⟨htracee, hstopped⟩ := Option.filter_eq_some_iff.mp h
  rw [Bool.and_eq_true, Bool.not_eq_true'] at hstopped
  exact ⟨htracee, hstopped⟩

/-- A ptracer that acts is there, and does not wait. -/
theorem of_acts (h : s.acts = true) : s.alive = true ∧ s.ptracer.waitPid = none := by
  rwa [acts, Bool.and_eq_true, decide_eq_true_eq] at h

/-- A tracee is set by a ptracer that acts. -/
theorem Good.set_acts (hgood : s.Good) (hacts : s.acts = true) (hp₀ : s.tracee pid = some p₀)
    (hp : p.Good) : (s.set pid p).Good :=
  hgood.set hp₀ hp (.inl (of_acts hacts).2) fun hdead =>
    Bool.noConfusion ((of_acts hacts).1.symm.trans hdead)

/-- A ptracee that is stopped goes on at a request. -/
theorem request_works (hp : p.Good) (hstopped : p.running = false) {g : EventGlobals}
    {how : RestartHow} {data : Int} (hgoes : (p.requested how).goesOn g data = true)
    (a : EventAnswers C) :
    ∃ p', (p.requested how).resume g a data = some (g, p') ∧
      Ptracee.Restarted (p.requested how) p' data := by
  have hsame : (p.requested how).running = p.running ∧ (p.requested how).proot = p.proot ∧
      (p.requested how).tracee.terminated = p.tracee.terminated ∧
      (p.requested how).tracee.isInSysenter = p.tracee.isInSysenter := by
    cases how <;> exact ⟨rfl, rfl, rfl, rfl⟩
  obtain ⟨hrunning, hproot, hterminated, henter⟩ := hsame
  refine Ptracee.resume_works (hrunning.trans hstopped) (hterminated.trans hp.alive)
    (fun stop hpending => ?_) hgoes (.inl rfl) a
  rw [hproot] at hpending
  obtain ⟨signal, hkept⟩ := Option.isSome_iff_exists.mp (hp.pending stop hpending)
  rw [henter]
  exact (hp.kept signal hkept).later stop hpending

/-- A ptracee that is kept goes on when it is detached. -/
theorem detach_works {signal : Int} (hp : p.Good) (hkept : p.kept = some signal)
    {g : EventGlobals} {data : Int} (hgoes : p.goesOn g data = true) (hquiet : p.quiet = true)
    (hown : p.ownSignal = data) (a : EventAnswers C) :
    ∃ p', p.detach.resume g a (-1) = some (g, p') ∧ Ptracee.Restarted p.detach p' data := by
  have hheld := hp.kept signal hkept
  exact @Ptracee.resume_works C g p.detach data hheld.stopped hp.alive hheld.later hgoes (-1)
    (.inr ⟨rfl, hquiet, hown⟩) a

/-- A ptracee with an event left goes on as it does at the end of a request. -/
theorem release_eq_resume (hattached : p.attached = true)
    (hleft : (p.proot.isPending || p.ptracerPending) = true) (g : EventGlobals)
    (a : EventAnswers C) :
    p.release g a = (p.detach.resume g a (-1)).map fun x => (x.1, x.2.clear) := by
  unfold Ptracee.release Ptracee.resume Ptracee.loop Ptracee.detach
  rw [hattached]
  cases hproot : p.proot with
  | pending stop => rfl
  | handled stop =>
      rw [hproot] at hleft
      have hleft : p.ptracerPending = true := hleft
      simp [hleft]
  | signal number =>
      rw [hproot] at hleft
      have hleft : p.ptracerPending = true := hleft
      simp [hleft]

/-- A ptracee whose stop is handled goes on if its ptracer was not told about it. -/
theorem release_settled (hattached : p.attached = true) (hsettled : ∀ stop, p.proot ≠ .pending stop)
    (g : EventGlobals) (a : EventAnswers C) :
    p.release g a =
      (if p.ptracerPending then (p.detach.restart p.proot.value).map fun x => (g, x.1)
        else some (g, p.detach)).map fun x => (x.1, x.2.clear) := by
  obtain ⟨tracee, running, clone, child, attached, proot, value, pending, _⟩ := p
  obtain rfl : attached = true := hattached
  cases proot with
  | pending stop => exact absurd rfl (hsettled stop)
  | handled stop => rfl
  | signal number => rfl

/-- A ptracee is let go. -/
theorem release_works (hp : p.Good) {g : EventGlobals} (hgo : p.letsGo g = true)
    (a : EventAnswers C) : ∃ p', p.release g a = some (g, p') ∧ Ptracee.Released p p' := by
  unfold Ptracee.letsGo at hgo
  cases hattached : p.attached with
  | false =>
      have hfree := hp.free hattached
      refine ⟨p, ?_, hp, hattached, fun signal h => by rw [hfree.1] at h; cases h⟩
      unfold Ptracee.release
      rw [hattached]
      rfl
  | true =>
      rw [hattached, Bool.not_true, Bool.false_or] at hgo
      cases hkept : p.kept with
      | some signal =>
          rw [hkept] at hgo
          simp only [Bool.and_eq_true, decide_eq_true_eq] at hgo
          obtain ⟨⟨⟨hleft, hgoes⟩, hquiet⟩, hown⟩ := hgo
          obtain ⟨p', hresume, hrestarted⟩ := detach_works hp hkept hgoes hquiet hown a
          refine ⟨p'.clear, ?_, ?_, rfl, ?_⟩
          · rw [release_eq_resume hattached hleft, hresume]
            rfl
          · exact .of_free hrestarted.alive hrestarted.kept nofun
          · rintro _ h
            obtain rfl := Option.some.inj (hkept.symm.trans h)
            exact ⟨hrestarted.running, hrestarted.lastSignal⟩
      | none =>
          rw [hkept] at hgo
          dsimp only at hgo
          have hsettled : ∀ stop, p.proot ≠ .pending stop := fun stop hproot => by
            have hsome := hp.pending stop hproot
            rw [hkept] at hsome
            cases hsome
          -- at most an event that the ptracer was not told about is left
          have hrestart : ∀ signal, ∃ p' : Ptracee C,
              (if p.ptracerPending then (p.detach.restart signal).map fun x => (g, x.1)
                else some (g, p.detach)) = some (g, p') ∧ Ptracee.Follows p.detach p' ∧
              p'.tracee.terminated = p.tracee.terminated := by
            intro signal
            split_ifs with hleft
            · rw [hleft, Bool.not_true, Bool.false_or, Bool.or_eq_true] at hgo
              obtain ⟨p', works, hrestart⟩ := @Ptracee.restart_total C p.detach hgo signal
              obtain ⟨hfollows, -, hterminated⟩ := Ptracee.restart_follows hrestart
              exact ⟨p', by rw [hrestart]; rfl, hfollows, hterminated⟩
            · exact ⟨p.detach, rfl, ⟨id, rfl, rfl⟩, rfl⟩
          obtain ⟨p', hdone, hfollows, hterminated⟩ := hrestart p.proot.value
          refine ⟨p'.clear, ?_,
            .of_free (hterminated.trans hp.alive) (hfollows.kept hkept) nofun, rfl,
            fun signal h => by rw [hkept] at h; cases h⟩
          rw [release_settled hattached hsettled, hdone]
          rfl

/-- **Every ptracee is let go**, one after the other. -/
theorem releaseAll_works (a : Nat → EventAnswers C) {g : EventGlobals}
    {tracees : List (Nat × Ptracee C)} (hgood : ∀ e ∈ tracees, e.2.Good)
    (hgo : tracees.all fun e => e.2.letsGo g) :
    ∃ tracees', releaseAll a g tracees = some (g, tracees') ∧
      tracees'.map (·.1) = tracees.map (·.1) ∧
      (∀ e ∈ tracees', e.2.Good ∧ e.2.attached = false) ∧
      ∀ e ∈ tracees, ∃ p', (e.1, p') ∈ tracees' ∧ Ptracee.Released e.2 p' := by
  induction tracees with
  | nil =>
      exact ⟨[], rfl, rfl, fun e he => absurd he List.not_mem_nil,
        fun e he => absurd he List.not_mem_nil⟩
  | cons first tracees ih =>
      obtain ⟨pid, p⟩ := first
      simp only [List.all_cons, Bool.and_eq_true] at hgo
      obtain ⟨hgoes, hgo⟩ := hgo
      have hp : p.Good := hgood (pid, p) List.mem_cons_self
      obtain ⟨p', hfirst, hreleased⟩ := release_works hp hgoes (a pid)
      obtain ⟨tracees', hrest, hkeys, hgood', hall⟩ :=
        ih (fun e he => hgood e (List.mem_cons_of_mem _ he)) hgo
      refine ⟨(pid, p') :: tracees', ?_, ?_, fun e he => ?_, fun e he => ?_⟩
      · unfold releaseAll
        rw [hfirst, Option.bind_some]
        dsimp only
        rw [hrest]
        rfl
      · rw [List.map_cons, List.map_cons, hkeys]
      · rcases List.mem_cons.mp he with rfl | he
        · exact ⟨hreleased.good, hreleased.detached⟩
        · exact hgood' e he
      · rcases List.mem_cons.mp he with rfl | he
        · exact ⟨p', List.mem_cons_self, hreleased⟩
        · obtain ⟨p'', hmem, hreleased'⟩ := hall e he
          exact ⟨p'', List.mem_cons_of_mem _ hmem, hreleased'⟩

/-! ## What each step keeps -/

theorem newTracee_good : (newTracee : Ptracee C).Good :=
  .of_free rfl rfl nofun

theorem appears_good (hgood : s.Good) (hnew : s.tracee pid = none) :
    ({ s with tracees := (pid, newTracee) :: s.tracees } : PtraceSystem C).Good := by
  have hnone : ∀ e ∈ s.tracees, e.1 ≠ pid := by
    rintro ⟨key, p⟩ he rfl
    rw [tracee_of_mem hgood.keys he] at hnew
    cases hnew
  refine ⟨fun e he => ?_, ?_, fun target htarget => ?_, fun hany => ?_, fun hdead e he => ?_⟩
  · rcases List.mem_cons.mp he with rfl | he
    · exact newTracee_good
    · exact hgood.tracees e he
  · rw [List.map_cons, List.nodup_cons]
    refine ⟨fun hmem => ?_, hgood.keys⟩
    obtain ⟨e, he, hkey⟩ := List.mem_map.mp hmem
    exact hnone e he hkey
  · obtain ⟨p, hp, hattached⟩ := hgood.target target htarget
    refine ⟨p, ?_, hattached⟩
    have hother : pid ≠ target := by
      rintro rfl
      rw [hnew] at hp
      cases hp
    unfold tracee
    rw [List.find?_cons_of_neg (by simpa using hother)]
    exact hp
  · rw [nbPtracees_ne_zero]
    exact (nbPtracees_ne_zero.mp (hgood.any hany)).imp_left fun ⟨e, he, hattached⟩ =>
      ⟨e, List.mem_cons_of_mem _ he, hattached⟩
  · rcases List.mem_cons.mp he with rfl | he
    · rfl
    · exact hgood.dead hdead e he

theorem newChild_good (hgood : s.Good) (hp : s.tracee pid = some p) {clone child inherits : Bool}
    (hinherits : s.alive = false → inherits = false) {options : List Stop} {w : WaitAnswers}
    (h : s.newChild pid p clone child inherits options w = some s') : s'.Good := by
  unfold newChild at h
  split_ifs at h with hknown
  simp only [Bool.or_eq_true, not_or, Bool.not_eq_true] at hknown
  have hp' := hgood.tracees _ (mem_of_tracee hp)
  obtain ⟨hkept, hsettled⟩ := hp'.free hknown.2
  dsimp only at h
  obtain ⟨halive₁, hkept₁, hsettled₁, hdead₁⟩ :
      (p.inherit clone child inherits options).tracee.terminated = false ∧
      (p.inherit clone child inherits options).kept = none ∧
      (∀ stop, (p.inherit clone child inherits options).proot ≠ .pending stop) ∧
      (s.alive = false → (p.inherit clone child inherits options).attached = false) := by
    cases hinherit : inherits with
    | false => exact ⟨hp'.alive, hkept, hsettled, fun _ => hknown.2⟩
    | true =>
        refine ⟨hp'.alive, hkept, nofun, fun hdead => ?_⟩
        rw [hinherits hdead] at hinherit
        cases hinherit
  generalize p.inherit clone child inherits options = p₁ at h halive₁ hkept₁ hsettled₁ hdead₁
  have hset : ∀ {s₁ : PtraceSystem C} {p₂ : Ptracee C}, s₁.Good → s₁.tracee pid = some p →
      s₁.alive = s.alive → p₂.Good → p₂.attached = p₁.attached → (s₁.set pid p₂).Good :=
    fun hgood₁ hfound halive hgood₂ hattached => hgood₁.set hfound hgood₂
      (.inr fun h => Bool.noConfusion (hknown.2.symm.trans h))
      fun hdead => hattached.trans (hdead₁ (halive ▸ hdead))
  by_cases hheld : (!decide (p.tracee.sigstop = .SIGSTOP_PENDING)) = true
  · rw [if_pos hheld] at h
    exact Option.some.inj h ▸ hset hgood hp rfl (.of_free halive₁ hkept₁ hsettled₁) rfl
  rw [if_neg hheld] at h
  by_cases hdetached : (!p₁.attached) = true
  · rw [if_pos hdetached] at h
    obtain ⟨⟨p₂, works⟩, hrestart, rfl⟩ := Option.map_eq_some_iff.mp h
    obtain ⟨hfollows, hproot, hterminated⟩ := Ptracee.restart_follows hrestart
    exact hset hgood hp rfl (.of_free (hterminated.trans halive₁) (hfollows.kept hkept₁)
      (hproot ▸ hsettled₁)) hfollows.attached
  rw [if_neg hdetached] at h
  generalize htell : Ptracee.tell { p₁ with tracingStarted := true } s.ptracer pid w .sigstop true =
    told at h
  obtain ⟨ptracer, p₂, keeps⟩ := told
  obtain ⟨htold, -⟩ := Ptracee.tell_told htell
  have hgood₁ : ({ s with ptracer } : PtraceSystem C).Good :=
    hgood.awake s.globals (htold.ptracer.imp_right And.left)
  have hattached₂ : p₂.attached = p₁.attached := htold.attached rfl
  have hkept₂ : p₂.kept = none := htold.kept.trans hkept₁
  have halive₂ : p₂.tracee.terminated = false := htold.tracee ▸ halive₁
  have hattached₁ : p₁.attached = true := by simpa using hdetached
  dsimp only at h
  split_ifs at h with hkeeps
  · refine Option.some.inj h ▸ hset hgood₁ hp rfl ?_
      ((Ptracee.keep_follows _).1.trans hattached₂)
    exact Ptracee.keep_good halive₂ hkept₂ (hattached₂.trans hattached₁)
      (by rw [htold.value]; rfl) nofun fun _ => rfl
  · obtain ⟨⟨p₃, works⟩, hrestart, rfl⟩ := Option.map_eq_some_iff.mp h
    obtain ⟨hfollows, hproot, hterminated⟩ := Ptracee.restart_follows hrestart
    exact hset hgood₁ hp rfl (.of_free (hterminated.trans halive₂) (hfollows.kept hkept₂)
      fun stop h => by rw [hproot] at h; cases h) (hfollows.attached.trans hattached₂)

/-- A step about a tracee, if there is one. -/
theorem good_of_found (hgood : s.Good) {found : Option (Ptracee C)}
    {f : Ptracee C → Option (PtraceSystem C)}
    (h : (match found with | none => some s | some p => f p) = some s')
    (hf : ∀ p, found = some p → f p = some s' → s'.Good) : s'.Good := by
  cases found with
  | none => exact Option.some.inj h ▸ hgood
  | some p => exact hf p rfl h

/-- A step that is taken on a condition. -/
theorem good_of_if (hgood : s.Good) {c : Prop} [Decidable c] {result : Option (PtraceSystem C)}
    (h : (if c then result else some s) = some s') (hc : c → result = some s' → s'.Good) :
    s'.Good := by
  split_ifs at h with hcond
  · exact hc hcond h
  · exact Option.some.inj h ▸ hgood

theorem stop_good (hgood : s.Good) {stop : Stop} {a : PtraceeAnswers C} {w : WaitAnswers}
    (h : s.step (.stop pid stop a w) = some s') : s'.Good := by
  refine good_of_found hgood h fun p hp h => ?_
  dsimp only at h
  split_ifs at h with hends
  · exact Option.some.inj h ▸ hgood
  · obtain ⟨⟨g, ptracer, p'⟩, hstopped, rfl⟩ := Option.map_eq_some_iff.mp h
    have hends : p.tracee.waiting = true → stop.over = true ∨ stop = .exit := fun hwaits => by
      rw [hwaits, Bool.true_and, Bool.not_eq_true, Bool.not_eq_false', Bool.or_eq_true,
        decide_eq_true_eq] at hends
      exact hends
    obtain ⟨hterminated, hgood', hclone, hdetached, hptracer⟩ :=
      Ptracee.stopped_good (hgood.tracees _ (mem_of_tracee hp)) hends hstopped
    have hgood₁ : ({ s with globals := g, ptracer } : PtraceSystem C).Good :=
      hgood.awake g (hptracer.imp_right And.left)
    unfold settle
    split_ifs with hover
    · rw [hterminated] at hover
      refine hgood₁.remove hp (hptracer.imp_right fun ⟨hsame, hattached, hawaits⟩ =>
        ⟨hattached, hclone, fun h => ?_⟩)
      rw [hclone, hsame]
      exact hawaits (hattached ▸ h) hover
    · rw [hterminated, Bool.not_eq_true] at hover
      refine hgood₁.set hp (hgood' hover) (hptracer.imp_right fun ⟨_, hattached, _⟩ h =>
        ⟨hattached.trans h, hclone⟩) fun hdead => ?_
      exact (hdetached (hgood.dead hdead _ (mem_of_tracee hp))).1

/-- **Every step that releases the ptracees it should keeps the system good.** -/
theorem step_good (hgood : s.Good) {event : PtraceEvent C} (hreleases : s.releases event = true)
    (h : s.step event = some s') : s'.Good := by
  cases event with
  | appears pid =>
      unfold step at h
      dsimp only at h
      split_ifs at h with hknown
      · exact Option.some.inj h ▸ hgood
      · cases h
        exact appears_good hgood (Option.not_isSome_iff_eq_none.mp hknown)
  | newChild pid clone child inherits options w =>
      refine good_of_found hgood h fun p hp h => ?_
      exact newChild_good hgood hp (fun hdead => by rw [hdead, Bool.and_false]) h
  | stop pid stop a w => exact stop_good hgood h
  | attach pid =>
      refine good_of_found hgood h fun p hp h => good_of_if hgood h fun hacts h => ?_
      rw [Bool.and_eq_true, Bool.not_eq_true'] at hacts
      have hp' := hgood.tracees _ (mem_of_tracee hp)
      exact Option.some.inj h ▸ hgood.set_acts hacts.1 hp
        (.of_free hp'.alive (hp'.free hacts.2).1 nofun)
  | setOptions pid options =>
      refine good_of_found hgood h fun p hp h => good_of_if hgood h fun hacts h => ?_
      have hp := (tracee_of_stopped hp).1
      exact Option.some.inj h ▸ hgood.set_acts hacts hp
        ((hgood.tracees _ (mem_of_tracee hp)).same rfl rfl rfl rfl rfl rfl)
  | loads pid ignore =>
      refine good_of_found hgood h fun p hp h => ?_
      exact Option.some.inj h ▸ hgood.set hp
        ((hgood.tracees _ (mem_of_tracee hp)).same rfl rfl rfl rfl rfl rfl)
        (.inr fun hattached => ⟨hattached, rfl⟩)
        fun hdead => hgood.dead hdead _ (mem_of_tracee hp)
  | request pid how data a =>
      refine good_of_found hgood h fun p hfound h => good_of_if hgood h fun hacts h => ?_
      obtain ⟨hp, -, hstopped⟩ := tracee_of_stopped hfound
      unfold releases at hreleases
      dsimp only at hreleases
      rw [hfound, Option.all_some, hacts, Bool.not_true, Bool.false_or] at hreleases
      obtain ⟨p', hdone, hrestarted⟩ :=
        request_works (hgood.tracees _ (mem_of_tracee hp)) hstopped hreleases a
      rw [hdone] at h
      exact Option.some.inj h ▸ hgood.set_acts hacts hp hrestarted.good
  | detach pid data a =>
      refine good_of_found hgood h fun p hfound h => good_of_if hgood h fun hacts h => ?_
      obtain ⟨hp, hattached, hstopped⟩ := tracee_of_stopped hfound
      have hp' := hgood.tracees _ (mem_of_tracee hp)
      unfold releases at hreleases
      dsimp only at hreleases
      rw [hfound, Option.all_some, hacts, Bool.not_true, Bool.false_or, Bool.or_eq_true,
        decide_eq_true_eq] at hreleases
      cases hkept : p.kept with
      | some signal =>
          have hreleases := hreleases.resolve_left (by rw [hkept]; exact nofun)
          simp only [Bool.and_eq_true, decide_eq_true_eq] at hreleases
          obtain ⟨p', hdone, hrestarted⟩ :=
            detach_works hp' hkept hreleases.1.1 hreleases.1.2 hreleases.2 a
          rw [hdone] at h
          exact Option.some.inj h ▸ hgood.set_acts hacts hp hrestarted.good
      | none =>
          have hsettled : ∀ stop, p.proot ≠ .pending stop := fun stop hproot => by
            have hsome := hp'.pending stop hproot
            rw [hkept] at hsome
            cases hsome
          obtain ⟨⟨g, p'⟩, hresume, rfl⟩ := Option.map_eq_some_iff.mp h
          obtain ⟨signal, works, hrestart⟩ :=
            @Ptracee.resume_settled C _ _ p.detach _ _ hsettled _ hresume
          obtain ⟨hfollows, hproot, hterminated⟩ := Ptracee.restart_follows hrestart
          have hgood₁ : ({ s with globals := g } : PtraceSystem C).Good := hgood.awake g (.inr rfl)
          exact hgood₁.set_acts hacts hp (.of_free (hterminated.trans hp'.alive)
            (hfollows.kept hkept) (hproot ▸ hsettled))
  | wait target options w =>
      refine good_of_if hgood h fun hacts h => ?_
      have hwaiting := (of_acts hacts).2
      obtain rfl := Option.some.inj h
      unfold waitExit
      cases hzombie : s.findZombie target options with
      | some z =>
          dsimp only
          split_ifs
          · exact ⟨hgood.tracees, hgood.keys, hgood.target,
              fun hany => (Option.some_ne_none _ (hany.symm.trans hwaiting)).elim, hgood.dead⟩
          · exact hgood
      | none =>
          cases hptracee : s.findPtracee target options with
          | some found =>
              obtain ⟨pid, p⟩ := found
              have hmem : (pid, p) ∈ s.tracees := List.mem_of_find?_eq_some hptracee
              exact hgood.set_acts hacts (tracee_of_mem hgood.keys hmem)
                (Ptracee.updateWaitStatus_good (hgood.tracees _ hmem) w.writes)
          | none =>
              dsimp only
              split_ifs with hreturns
              · exact hgood
              · simp only [Bool.or_eq_true, decide_eq_true_eq, not_or, Bool.not_eq_true] at hreturns
                refine ⟨hgood.tracees, hgood.keys, fun pid htarget => ?_, fun _ => hreturns.1,
                  hgood.dead⟩
                obtain rfl := Option.some.inj htarget
                have hblocks : s.blocks (.pid pid) options = true := by
                  unfold blocks
                  rw [hacts, hzombie, hptracee, hreturns.2]
                  simpa using hreturns.1
                unfold releases at hreleases
                dsimp only at hreleases
                rw [hblocks, Bool.not_true, Bool.false_or, Option.any_eq_true] at hreleases
                obtain ⟨p, hp, hexpects⟩ := hreleases
                exact ⟨p, hp, Bool.and_eq_true_iff.mp hexpects⟩
  | woken pid =>
      refine good_of_found hgood h fun p hp h => good_of_if hgood h fun hwaits h => ?_
      obtain ⟨⟨p', works⟩, hrestart, rfl⟩ := Option.map_eq_some_iff.mp h
      obtain ⟨hfollows, hproot, hterminated⟩ := Ptracee.restart_follows hrestart
      have hp' := hgood.tracees _ (mem_of_tracee hp)
      have hkept : p.kept = none := by
        cases hkept : p.kept with
        | none => rfl
        | some signal =>
            rw [(hp'.kept signal hkept).waiting] at hwaits
            cases hwaits
      have hsettled : ∀ stop, p'.proot ≠ .pending stop := fun stop hpending => by
        have hsome := hp'.pending stop (hproot ▸ hpending)
        rw [hkept] at hsome
        cases hsome
      exact hgood.set hp (.of_free (hterminated.trans hp'.alive) (hfollows.kept hkept) hsettled)
        (.inr fun hattached => ⟨hfollows.attached.trans hattached, hfollows.clone⟩)
        fun hdead => hfollows.attached.trans (hgood.dead hdead _ (mem_of_tracee hp))
  | gone a =>
      refine good_of_if hgood h fun halive h => ?_
      obtain ⟨tracees, hdone, hkeys, hall, -⟩ := releaseAll_works a hgood.tracees hreleases
      rw [hdone] at h
      cases h
      refine ⟨fun e he => (hall e he).1, ?_, nofun, nofun, fun _ e he => (hall e he).2⟩
      rw [hkeys]
      exact hgood.keys

/-- **Nobody is stopped in vain.**  A tracee that is kept stopped has a ptracer, which is there; and
the ptracer waits for a ptracee that it has, or for any as long as one is left. -/
structure NobodyHeld (s : PtraceSystem C) : Prop where
  kept : ∀ pid p, s.tracee pid = some p → p.kept.isSome = true →
    p.attached = true ∧ s.alive = true
  target : ∀ pid, s.ptracer.waitPid = some (.pid pid) →
    ∃ p, s.tracee pid = some p ∧ p.attached = true
  any : s.ptracer.waitPid = some .any → s.nbPtracees ≠ 0

theorem Good.nobodyHeld (hgood : s.Good) : s.NobodyHeld := by
  refine ⟨fun pid p hp hkept => ?_, fun pid htarget => ?_, hgood.any⟩
  · have hp' := hgood.tracees _ (mem_of_tracee hp)
    obtain ⟨signal, hkept⟩ := Option.isSome_iff_exists.mp hkept
    have hattached : p.attached = true := (hp'.kept signal hkept).attached
    refine ⟨hattached, Bool.not_eq_false _ ▸ fun hdead => ?_⟩
    have hnot : p.attached = false := hgood.dead hdead _ (mem_of_tracee hp)
    exact Bool.noConfusion (hattached.symm.trans hnot)
  · obtain ⟨p, hp, hattached, -⟩ := hgood.target pid htarget
    exact ⟨p, hp, hattached⟩

/-- **What a step of the ptracer should do.**  A request restarts the ptracee with its signal, and
so does `PTRACE_DETACH` if the ptracee is kept stopped; when the ptracer terminates, each ptracee
that is kept is restarted with the signal its stop was for. -/
def Restarts (s : PtraceSystem C) : PtraceEvent C → Prop
  | .request pid how data a => s.acts = true → ∀ p, s.stoppedPtracee pid = some p →
      ∃ s' p', s.step (.request pid how data a) = some s' ∧ s'.tracee pid = some p' ∧
        p'.running = true ∧ p'.lastSignal = some data
  | .detach pid data a => s.acts = true → ∀ p, s.stoppedPtracee pid = some p →
      p.kept.isSome = true → ∃ s' p', s.step (.detach pid data a) = some s' ∧
        s'.tracee pid = some p' ∧ p'.running = true ∧ p'.lastSignal = some data
  | .gone a => s.alive = true → ∃ s', s.step (.gone a) = some s' ∧
      ∀ pid p signal, s.tracee pid = some p → p.kept = some signal →
        ∃ p', s'.tracee pid = some p' ∧ p'.running = true ∧ p'.lastSignal = some signal
  | _ => True

theorem tracee_set_self (hp : s.tracee pid = some p₀) : (s.set pid p).tracee pid = some p := by
  rw [tracee_set, if_pos rfl, hp]
  rfl

theorem restarts_of_releases (hgood : s.Good) {event : PtraceEvent C}
    (hreleases : s.releases event = true) : s.Restarts event := by
  cases event with
  | request pid how data a =>
      intro hacts p hfound
      obtain ⟨hp, -, hstopped⟩ := tracee_of_stopped hfound
      unfold releases at hreleases
      dsimp only at hreleases
      rw [hfound, Option.all_some, hacts, Bool.not_true, Bool.false_or] at hreleases
      obtain ⟨p', hdone, hrestarted⟩ :=
        request_works (hgood.tracees _ (mem_of_tracee hp)) hstopped hreleases a
      refine ⟨s.set pid p', p', ?_, tracee_set_self hp, hrestarted.running, hrestarted.lastSignal⟩
      unfold step
      dsimp only
      rw [hfound]
      dsimp only
      rw [if_pos hacts, hdone]
      rfl
  | detach pid data a =>
      intro hacts p hfound hkept
      have hp := (tracee_of_stopped hfound).1
      obtain ⟨signal, hkept⟩ := Option.isSome_iff_exists.mp hkept
      unfold releases at hreleases
      dsimp only at hreleases
      rw [hfound, Option.all_some, hacts, hkept, Bool.not_true, Bool.false_or] at hreleases
      simp only [reduceCtorEq, decide_false, Bool.false_or, Bool.and_eq_true,
        decide_eq_true_eq] at hreleases
      obtain ⟨⟨hgoes, hquiet⟩, hown⟩ := hreleases
      obtain ⟨p', hdone, hrestarted⟩ :=
        detach_works (hgood.tracees _ (mem_of_tracee hp)) hkept hgoes hquiet hown a
      refine ⟨s.set pid p', p', ?_, tracee_set_self hp, hrestarted.running, hrestarted.lastSignal⟩
      unfold step
      dsimp only
      rw [hfound]
      dsimp only
      rw [if_pos hacts, hdone]
      rfl
  | gone a =>
      intro halive
      obtain ⟨tracees, hdone, hkeys, -, hall⟩ := releaseAll_works a hgood.tracees hreleases
      refine ⟨{ s with
        tracees, alive := false, zombies := [], ptracer := { s.ptracer with waitPid := none } },
        ?_, fun pid p signal hp hkept => ?_⟩
      · unfold step
        dsimp only
        rw [if_pos halive, hdone]
        rfl
      · obtain ⟨p', hmem, hreleased⟩ := hall _ (mem_of_tracee hp)
        obtain ⟨hrunning, hsignal⟩ := hreleased.restarted signal hkept
        exact ⟨p', tracee_of_mem (by rw [hkeys]; exact hgood.keys) hmem, hrunning, hsignal⟩
  | _ => trivial

end

end PtraceSystem

open PtraceSystem

/-- **Ptracees are released.**  In a run whose steps all release the ptracees they should, nobody is
stopped in vain in any state that is reached, and each step of the ptracer restarts its ptracees
with the signals it should. -/
theorem ptracees_released (globals : EventGlobals) {events : List (PtraceEvent C)}
    (hreleases : AbortableRuns.allSteps step releases (initial globals) events = true) :
    (∀ before s, before <+: events →
      AbortableRuns.run step (initial globals) before = some s → s.NobodyHeld) ∧
    ∀ before event s, before ++ [event] <+: events →
      AbortableRuns.run step (initial globals) before = some s → s.Restarts event := by
  have hinitial : (initial globals : PtraceSystem C).Good :=
    ⟨fun e he => absurd he List.not_mem_nil, List.nodup_nil, nofun, nofun, nofun⟩
  have hgood : ∀ before s, before <+: events →
      AbortableRuns.run step (initial globals) before = some s → s.Good :=
    fun before s => AbortableRuns.always_of_allSteps
      (fun _ _ _ hgood hreleases hstep => step_good hgood hreleases hstep) hinitial hreleases
  refine ⟨fun before s hbefore hrun => (hgood before s hbefore hrun).nobodyHeld,
    fun before event s hbefore hrun => ?_⟩
  exact restarts_of_releases
    (hgood before s ((List.prefix_append before [event]).trans hbefore) hrun)
    (AbortableRuns.suits_of_allSteps hreleases hbefore hrun)

/-- What is found out when nothing in particular happens to a ptracee and its ptracer. -/
def nothingElse : PtraceeAnswers Nat := ⟨nothingSpecial, nothingSpecial⟩

def allWorks : WaitAnswers := ⟨true, true⟩

/-- A child is started and attached; its stop is reported, and it goes on, to be stopped when it
executes a program. -/
def attachedChild : List (PtraceEvent Nat) :=
  [.appears 7, .newChild 7 false true false [] allWorks, .stop 7 .sigstop nothingElse allWorks,
    .attach 7, .stop 7 .sigstop nothingElse allWorks, .wait (.pid 7) ⟨false, false, false⟩ allWorks,
    .setOptions 7 [.exec], .request 7 .PTRACE_CONT 0 nothingSpecial]

/-- It gets a signal. -/
def signalledChild : List (PtraceEvent Nat) :=
  attachedChild ++ [.stop 7 (.signal 10 (by decide)) nothingElse allWorks]

theorem ptracees_released_one :
    ∃ s, AbortableRuns.run step (initial tracing) signalledChild = some s ∧
      s.NobodyHeld ∧ s.Restarts (.gone fun _ => nothingSpecial) := by
  obtain ⟨s, hrun⟩ : ∃ s, AbortableRuns.run step (initial tracing) signalledChild = some s :=
    ⟨_, rfl⟩
  have h := @ptracees_released Nat tracing
    (signalledChild ++ [.gone fun _ => nothingSpecial]) (by decide)
  exact ⟨s, hrun, h.1 _ _ (List.prefix_append _ _) hrun, h.2 _ _ _ (List.prefix_refl _) hrun⟩

/-- The stop at an `execve` is handled before the ptracer is told; when the ptracer terminates
after that, the ptracee stays stopped, with nobody to restart it. -/
theorem ptracee_frozen :
    ∃ s p, AbortableRuns.run step (initial tracing)
        (attachedChild ++ [.stop 7 .exec nothingElse allWorks,
          .wait (.pid 7) ⟨false, false, false⟩ allWorks, .gone fun _ => nothingSpecial]) = some s ∧
      s.tracee 7 = some p ∧ p.running = false ∧ p.attached = false ∧ p.kept = some 0 :=
  ⟨_, _, rfl, rfl, rfl, rfl, rfl⟩

end PRoot
