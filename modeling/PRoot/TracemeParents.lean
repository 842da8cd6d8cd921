import PRoot.TraceeKin

/-!
# The parent of a `PTRACE_TRACEME`

`PTRACE_TRACEME` makes the parent of a tracee its ptracer, as if each tracee had one
(`translate_ptrace_exit`).

* `traceme_fine`, `traceme_missing`: what comes of the request;
* `dispatch_fine`: no event uses a tracee that is gone, this request apart;
* `traceme_parent_iff`: in which runs each request is safe.
-/

namespace PRoot

variable {k : LifeAnswers} {s s' : Tracees} {i : Nat} {t : LifeTracee} {fault : LifeFault → Prop}

/-- A tracee has a certain ptracer. -/
def Traces (s : Tracees) (ptracer i : Nat) : Prop :=
  ∃ t, s.get i = some t ∧ t.ptracer = some ptracer

/-- The request attaches the tracee to its parent, which is there, or it fails and changes
nothing. -/
def AttachedOrUnchanged (s : Tracees) (i : Nat) (t : LifeTracee)
    (result : Tracees × Except Errno Unit) : Prop :=
  (result.2 = .ok () ∧ ∃ p r, t.parent = some p ∧ s.get p = some r ∧ Traces result.1 p i) ∨
    ∃ e, result = (s, .error e)

theorem Traces.update {p j : Nat} (htraces : Traces s p i) {f : LifeTracee → LifeTracee}
    (hf : ∀ t : LifeTracee, t.SameKin (f t)) : Traces (s.update j f) p i := by
  obtain ⟨t, ht, hp⟩ := htraces
  unfold Traces
  rw [LinkedHeap.get_update, ht]
  split_ifs
  · exact ⟨f t, rfl, (hf t).ptracer.trans hp⟩
  · exact ⟨t, rfl, hp⟩

theorem attachToPtracer_traces {p : Nat} (hkin : Kin s) (hknown : Known s p) (hne : p ≠ i)
    (ht : s.get i = some t) :
    OkOr fault (fun s' => Grows s s' ∧ Traces s' p i) (attachToPtracer s i (some p)) := by
  have hset : Grows s (s.update i fun t => { t with asPtracee := { ptracer := some p } }) := by
    refine hkin.set_ptracer (fun _ => rfl) (fun _ => rfl) fun t q hq => ?_
    obtain rfl : p = q := Option.some.inj hq
    exact ⟨hne, hknown⟩
  have htraces : Traces (s.update i fun t => { t with asPtracee := { ptracer := some p } }) p i :=
    ⟨_, get_update_self ht, rfl⟩
  obtain ⟨r, hr, -⟩ := hset.known hknown
  unfold attachToPtracer countPtracee
  dsimp only
  refine (access_fine hr).bind ?_
  rintro r rfl
  exact ⟨hset.trans (hset.kin.update_same fun _ => ⟨rfl, rfl, rfl⟩),
    htraces.update fun _ => ⟨rfl, rfl, rfl⟩⟩

theorem disableSeccomp_same (t : LifeTracee) : t.SameKin t.disableSeccomp := by
  unfold LifeTracee.disableSeccomp
  split_ifs
  · exact ⟨rfl, rfl, rfl⟩
  · exact ⟨rfl, rfl, rfl⟩

/-- What comes of a `PTRACE_TRACEME`, where the tracee has a parent or a ptracer. -/
theorem traceme_fine (hkin : Kin s) (ht : s.get i = some t) (hexe : t.exe = true)
    (hparent : t.parent.isSome = true ∨ t.ptracer.isSome = true) :
    OkOr fault (fun result => Grows s result.1 ∧ AttachedOrUnchanged s i t result)
      (traceme k s i) := by
  unfold traceme
  refine (access_fine ht).bind ?_
  rintro t rfl
  split_ifs with hrefused
  · exact ⟨Grows.refl hkin, .inr ⟨_, rfl⟩⟩
  · obtain ⟨hfree, hself⟩ := not_or.mp hrefused
    obtain ⟨p, hp⟩ := Option.isSome_iff_exists.mp (hparent.resolve_right hfree)
    have hne : p ≠ i := fun h => hself (h ▸ hp)
    obtain ⟨r, hr, hrexe⟩ := hkin.parents i t p ht hp
    rw [hp]
    refine (attachToPtracer_traces hkin ⟨r, hr, hrexe hexe⟩ hne ht).bind ?_
    rintro s₁ ⟨h₁, htraces⟩
    obtain ⟨r₁, hr₁, -⟩ := h₁.lives p r hr
    dsimp only
    refine (access_fine hr₁).bind ?_
    rintro r₁ rfl
    -- the parent may be woken, which says nothing about who traces whom
    have hwoken : ∀ s₂, Grows s₁ s₂ → Traces s₂ p i →
        Grows s (s₂.update i (·.disableSeccomp)) ∧
          AttachedOrUnchanged s i t (s₂.update i (·.disableSeccomp), .ok ()) := by
      intro s₂ h₂ htraces₂
      refine ⟨h₁.trans (h₂.trans (h₂.kin.update_same disableSeccomp_same)),
        .inl ⟨rfl, p, r, hp, hr, ?_⟩⟩
      exact htraces₂.update disableSeccomp_same
    split_ifs
    · exact hwoken _ (h₁.kin.update_same fun _ => ⟨rfl, rfl, rfl⟩)
        (htraces.update fun _ => ⟨rfl, rfl, rfl⟩)
    · exact hwoken _ (Grows.refl h₁.kin) htraces

/-- A tracee without a parent crashes PRoot. -/
theorem traceme_missing (ht : s.get i = some t) (hparent : t.parent = none)
    (hptracer : t.ptracer = none) : traceme k s i = .error .missing := by
  unfold traceme
  rw [access_eq ht]
  simp only [bind, Except.bind, hparent, hptracer, attachToPtracer]
  rfl

/-! ## Requests and waits -/

/-- What each part of an event keeps, but for its result. -/
abbrev FineResult {α : Type} (s : Tracees) (x : Except LifeFault (Tracees × α)) : Prop :=
  Fine (fun result => Grows s result.1) x

variable {target : WaitTarget}

theorem attach_fine (hkin : Kin s) (hknown : Known s i) :
    FineResult s (attach s i target) := by
  unfold attach
  cases target with
  | any => exact Grows.refl hkin
  | pid pid =>
      dsimp only
      split
      · exact Grows.refl hkin
      · next j hfind =>
          obtain ⟨t, ht⟩ := findTracee_lives hfind
          refine (access_fine ht).bind ?_
          rintro t rfl
          split_ifs with hrefused
          · exact Grows.refl hkin
          · have hne : i ≠ j := fun h => (not_or.mp hrefused).2 h.symm
            exact (attachToPtracer_fine hkin hknown hne).bind fun _ h => h

theorem requestPtracee_fine {request : PtraceRequest} {j : Nat} (hkin : Kin s)
    (ht : s.get i = some t) (hj : t.ptracer = some j) :
    FineResult s (requestPtracee k s i request) := by
  have hresume : ∀ s₁, Kin s₁ → ∀ forced, Grows s₁ (s₁.update i (·.resume k forced)) :=
    fun s₁ h₁ forced => h₁.update_same fun t => t.resume_same forced
  unfold requestPtracee
  cases request with
  | DETACH =>
      refine (detachFromPtracer_fine hkin ht hj).bind fun s₁ h₁ => ?_
      exact h₁.trans (hresume s₁ h₁.kin false)
  | resume forced => exact hresume s hkin forced
  | KILL result => exact hresume s hkin false
  | SETOPTIONS options =>
      have hset : Grows s (s.update i fun t => { t with asPtracee.options := options }) :=
        hkin.update_same fun _ => ⟨rfl, rfl, rfl⟩
      exact hset
  | TRACEME | ATTACH | data result => exact Grows.refl hkin

/-- A request of a tracee that PRoot was told about. -/
theorem translatePtraceExit_fine {request : PtraceRequest} (hkin : Kin s) (ht : s.get i = some t)
    (hexe : t.exe = true)
    (hparent : request = .TRACEME → t.parent.isSome = true ∨ t.ptracer.isSome = true) :
    FineResult s (translatePtraceExit k s i request target) := by
  unfold translatePtraceExit
  split
  · exact (traceme_fine hkin ht hexe (hparent rfl)).mono fun _ h => h.1
  · exact attach_fine hkin ⟨t, ht, hexe⟩
  · refine (getStoppedPtracee_fine ht target false _).bind fun found hfound => ?_
    split
    · exact Grows.refl hkin
    · exact Grows.refl hkin
    · next j =>
        obtain ⟨p, hp, hj⟩ := hfound
        refine (access_fine hp).bind ?_
        rintro p rfl
        split_ifs
        · exact Grows.refl hkin
        · exact requestPtracee_fine hkin hp hj

theorem translateWaitEnter_fine (hkin : Kin s) (ht : s.get i = some t) :
    Fine (Grows s) (translateWaitEnter s i target) := by
  have hwaits : ∀ waitsIn s₁, Kin s₁ →
      Grows s₁ (s₁.update i fun r => { r with asPtracer.waitsIn := waitsIn }) :=
    fun waitsIn s₁ h₁ => h₁.update_same fun _ => ⟨rfl, rfl, rfl⟩
  have hkernel := hwaits .WAITS_IN_KERNEL s hkin
  have hproot := hkernel.trans (hwaits .WAITS_IN_PROOT _ hkernel.kin)
  unfold translateWaitEnter
  refine (access_fine ht).bind ?_
  rintro t rfl
  dsimp only
  split_ifs
  · exact hkernel
  · cases target with
    | any => exact hproot
    | pid pid =>
        dsimp only
        split
        · exact hkernel
        · next j hfind =>
            obtain ⟨p, hp⟩ := findTracee_lives hfind
            refine (access_fine hp).bind ?_
            rintro p rfl
            show Grows s (if p.ptracer = some i then _ else _)
            split_ifs
            · exact hproot
            · exact hkernel

theorem translateWaitExit_fine {options : WaitOptions} (hkin : Kin s) (ht : s.get i = some t) :
    Fine (Grows s) (translateWaitExit k s i target options) := by
  have hset : Grows s (s.update i fun r => { r with asPtracer.waitsIn := .DOESNT_WAIT }) :=
    hkin.update_same fun _ => ⟨rfl, rfl, rfl⟩
  obtain ⟨t', ht', -⟩ := hset.lives i t ht
  unfold translateWaitExit
  refine (access_fine ht).bind ?_
  rintro t rfl
  by_cases hwaits : t.asPtracer.waitsIn ≠ .WAITS_IN_PROOT
  · rw [if_pos hwaits]
    exact Grows.refl hkin
  · rw [if_neg hwaits]
    refine (getStoppedPtracee_fine ht' target true options).bind fun found hfound => ?_
    split
    · next ptracee =>
        cases ptracee with
        | zombie z => exact (updateWaitStatus_zombie hset.kin ht' z).mono fun _ h => hset.trans h
        | tracee j =>
            obtain ⟨p, hp, hj⟩ := hfound
            refine (updateWaitStatus_tracee hset.kin hp fun _ => ?_).mono fun _ h => hset.trans h
            rw [hj]
            exact Option.some_ne_none i
    · split_ifs
      · exact hset
      · exact hset.trans (hset.kin.update_same fun _ => ⟨rfl, rfl, rfl⟩)

/-! ## Events -/

/-- Where the stop is the end of a `PTRACE_TRACEME` that PRoot translates, the tracee has a parent,
or a ptracer already. -/
def HasParent (s : Tracees) (i : Nat) (stop : LifeStop) : Prop :=
  ∀ pid t, stop = .ptrace .TRACEME pid → s.get i = some t → t.exe = true →
    t.parent.isSome = true ∨ t.ptracer.isSome = true

theorem handleEvent_fine {stop : LifeStop} (hkin : Kin s) (ht : s.get i = some t)
    (hparent : HasParent s i stop) : FineResult s (handleEvent k s i stop) := by
  unfold handleEvent
  cases stop with
  | plain stop =>
      refine (access_fine ht).bind ?_
      rintro t rfl
      exact hkin.update_same fun t => t.handleStop_same stop
  | child pid flags => exact (newChild_fine hkin ht).bind fun _ h => h
  | ptrace request pid =>
      refine (access_fine ht).bind ?_
      rintro t rfl
      by_cases hexe : t.exe = true
      · rw [if_neg (by simp [hexe])]
        refine (translatePtraceExit_fine hkin ht hexe fun h => ?_).bind fun _ h => h
        exact hparent pid t (by rw [h]) ht hexe
      · rw [if_pos (by simp [hexe])]
        exact Grows.refl hkin
  | waitEnter target =>
      refine (access_fine ht).bind ?_
      rintro t rfl
      split_ifs
      · exact Grows.refl hkin
      · exact (translateWaitEnter_fine hkin ht).bind fun _ h => h
  | waitExit target options =>
      refine (access_fine ht).bind ?_
      rintro t rfl
      split_ifs
      · exact Grows.refl hkin
      · exact (translateWaitExit_fine hkin ht).bind fun _ h => h

theorem loopEvent_fine {stop : LifeStop} (hkin : Kin s) (ht : s.get i = some t)
    (hparent : HasParent s i stop) : Fine Kin (loopEvent k s i stop) := by
  unfold loopEvent
  refine (handleEvent_fine hkin ht hparent).bind fun result h => ?_
  dsimp only
  split_ifs
  · exact (h.kin.update_same fun t => t.restart_same).kin
  · exact h.kin

theorem handlePtraceeStop_fine {stop : LifeStop} {ptracer : Nat} (hkin : Kin s)
    (ht : s.get i = some t) (hptracer : t.ptracer = some ptracer) (hparent : HasParent s i stop) :
    FineResult s (handlePtraceeStop k s i ptracer stop) := by
  obtain ⟨r, hr, -⟩ := (hkin.ptracer ht hptracer).2
  unfold handlePtraceeStop
  split_ifs with hfirst
  · refine (handleEvent_fine hkin ht hparent).bind fun result h => ?_
    obtain ⟨t₁, ht₁, -⟩ := h.lives i t ht
    obtain ⟨r₁, hr₁, -⟩ := h.lives ptracer r hr
    refine (tellPtracer_fine h.kin ht₁ hr₁ fun hover => ?_).mono fun _ h' => h.trans h'
    -- a stop that PRoot handles first is not the end of the tracee
    cases stop with
    | plain stop => cases hfirst
    | waitEnter target => cases hfirst
    | child pid flags => cases hover
    | ptrace request pid => cases hover
    | waitExit target options => cases hover
  · have hset : Grows s (s.update i fun t => { t with asPtracee.proot := some stop.status }) :=
      hkin.update_same fun _ => ⟨rfl, rfl, rfl⟩
    have ht' := get_update_self (f := fun t => { t with asPtracee.proot := some stop.status }) ht
    obtain ⟨r₁, hr₁, -⟩ := hset.lives ptracer r hr
    refine (tellPtracer_fine hset.kin ht' hr₁ fun _ hnone => ?_).mono fun _ h' => hset.trans h'
    cases hptracer.symm.trans hnone

theorem HasParent.again (stop : LifeStop) : HasParent s i stop.again := by
  intro pid t hstop
  cases stop <;> cases hstop

variable {e : LifeEvent}

theorem dispatch_fine (hkin : Kin s) (ht : s.get i = some t) (hparent : HasParent s i e.stop) :
    Fine Kin (dispatch k s i e) := by
  unfold dispatch
  refine (access_fine ht).bind ?_
  rintro t rfl
  split
  · exact loopEvent_fine hkin ht hparent
  · next ptracer hptracer =>
      by_cases hpassed : e.passed = true
      · rw [if_neg (by simp [hpassed])]
        refine (handlePtraceeStop_fine hkin ht hptracer hparent).bind fun result h => ?_
        obtain ⟨t₁, ht₁, -⟩ := h.lives i t ht
        dsimp only
        split_ifs
        · exact h.kin
        · exact loopEvent_fine h.kin ht₁ (HasParent.again e.stop)
      · rw [if_pos (by simp [hpassed])]
        exact loopEvent_fine hkin ht hparent

/-- A `PTRACE_TRACEME` without a parent. -/
theorem dispatch_missing (ht : s.get i = some t) (hparent : ¬ HasParent s i e.stop) :
    dispatch k s i e = .error .missing := by
  unfold HasParent at hparent
  push Not at hparent
  obtain ⟨pid, t', hstop, ht', hexe, hnone, hfree⟩ := hparent
  obtain rfl := Option.some.inj (ht.symm.trans ht')
  have hnone := Option.not_isSome_iff_eq_none.mp hnone
  have hfree := Option.not_isSome_iff_eq_none.mp hfree
  unfold dispatch loopEvent handleEvent
  rw [access_eq ht, hstop]
  simp only [bind, Except.bind, hfree, hexe, Bool.not_true, Bool.false_eq_true, if_false,
    translatePtraceExit, traceme_missing ht hnone hfree]

theorem arrive_fine (k : LifeAnswers) (pid : Nat) (hkin : Kin s) :
    Fine (fun result => Kin result.1 ∧ ∃ t, result.1.get result.2 = some t) (arrive k s pid) := by
  unfold arrive
  refine (freeTerminated_fine hkin).bind fun s₁ hkin₁ => ?_
  obtain ⟨hgrows, t, ht⟩ := getTracee_grows hkin₁ none pid
  have hset : Grows (getTracee s₁ none pid).1
      ((getTracee s₁ none pid).1.update (getTracee s₁ none pid).2
        fun t => { t with running := false }) :=
    hgrows.kin.update_same fun _ => ⟨rfl, rfl, rfl⟩
  obtain ⟨t', ht', -⟩ := hset.lives _ t ht
  exact ⟨hset.kin, t', ht'⟩

/-! ## Runs -/

/-- The turns of the event loop, with the tracees that there are before each of them.  PRoot ends
at a fault. -/
def turns : Tracees → List LifeEvent → List (Tracees × LifeEvent)
  | _, [] => []
  | s, e :: events =>
      (s, e) :: match step s e with
        | .ok s' => turns s' events
        | .error _ => []

theorem mem_turns {events : List LifeEvent} {turn : Tracees × LifeEvent}
    (hturn : turn ∈ turns s (e :: events)) :
    turn = (s, e) ∨ ∃ s', step s e = .ok s' ∧ turn ∈ turns s' events := by
  unfold turns at hturn
  rcases List.mem_cons.mp hturn with rfl | hlater
  · exact .inl rfl
  · split at hlater
    · next s' hstep => exact .inr ⟨s', hstep, hlater⟩
    · cases hlater

/-- **A safe turn.**  It uses no tracee that there is not, and a `PTRACE_TRACEME` attaches the
tracee to its parent or fails with an error and changes nothing. -/
def SafeTurn (turn : Tracees × LifeEvent) : Prop :=
  step turn.1 turn.2 ≠ .error .missing ∧
    ∀ s i pid t, arrive turn.2.answers turn.1 turn.2.pid = .ok (s, i) →
      turn.2.stop = .ptrace .TRACEME pid → s.get i = some t → t.exe = true →
      ∃ result, translatePtraceExit turn.2.answers s i .TRACEME pid = .ok result ∧
        AttachedOrUnchanged s i t result

/-- **The tracee that asks to be traced has a parent**, or is traced already. -/
def ParentKnown (turn : Tracees × LifeEvent) : Prop :=
  ∀ s i, arrive turn.2.answers turn.1 turn.2.pid = .ok (s, i) → HasParent s i turn.2.stop

theorem step_fine (hkin : Kin s) (hparent : ParentKnown (s, e)) :
    Fine Kin (step s e) := by
  unfold step
  have harrive := arrive_fine e.answers e.pid hkin
  cases hs : arrive e.answers s e.pid with
  | error fault =>
      rw [hs] at harrive
      exact harrive
  | ok result =>
      rw [hs] at harrive
      obtain ⟨hkin', t, ht⟩ := harrive
      exact dispatch_fine hkin' ht (hparent _ _ hs)

theorem step_missing (hkin : Kin s) (hparent : ¬ ParentKnown (s, e)) :
    step s e = .error .missing := by
  unfold ParentKnown at hparent
  push Not at hparent
  obtain ⟨s', i, hs, hparent⟩ := hparent
  have harrive := arrive_fine e.answers e.pid hkin
  dsimp only at hs
  unfold step
  rw [hs] at harrive ⊢
  obtain ⟨-, t, ht⟩ := harrive
  exact dispatch_missing ht hparent

theorem safeTurn_iff (hkin : Kin s) : SafeTurn (s, e) ↔ ParentKnown (s, e) := by
  constructor
  · intro hsafe
    by_contra hparent
    exact hsafe.1 (step_missing hkin hparent)
  · intro hparent
    refine ⟨fun hmissing => ?_, fun s' i pid t hs hstop ht hexe => ?_⟩
    · have hfine := step_fine hkin hparent
      rw [hmissing] at hfine
      cases hfine
    · have harrive := arrive_fine e.answers e.pid hkin
      dsimp only at hs
      rw [hs] at harrive
      have hknown := hparent s' i hs pid t hstop ht hexe
      obtain ⟨result, hresult, -, hsafe⟩ := (traceme_fine harrive.1 ht hexe hknown).ok
      exact ⟨result, hresult, hsafe⟩

theorem kin_launched (pid : Nat) : Kin (launched pid) := by
  have hfirst : ∀ i t, (launched pid).get i = some t → t.parent = none ∧ t.ptracer = none := by
    intro i t ht
    have hcell : (launched pid).get i = if i = 0 then some { pid, exe := true } else none :=
      LinkedHeap.lookup_cons_if 0 i _ []
    rw [hcell] at ht
    split_ifs at ht
    cases ht
    exact ⟨rfl, rfl⟩
  refine ⟨fun i t j ht hj => ?_, fun i t j ht hj => ?_⟩
  · cases (hfirst i t ht).1.symm.trans hj
  · cases (hfirst i t ht).2.symm.trans hj

/-- What holds before each turn. -/
theorem turns_kin {events : List LifeEvent} (hkin : Kin s) :
    ∀ turn ∈ turns s events, Kin turn.1 := by
  induction events generalizing s with
  | nil =>
      intro turn hturn
      cases hturn
  | cons e events ih =>
      intro turn hturn
      rcases mem_turns hturn with rfl | ⟨s', hstep, hlater⟩
      · exact hkin
      · by_cases hparent : ParentKnown (s, e)
        · have hfine := step_fine hkin hparent
          rw [hstep] at hfine
          exact ih hfine turn hlater
        · cases hstep.symm.trans (step_missing hkin hparent)

/-- **`PTRACE_TRACEME` needs a parent.**  Every turn of a run is safe if and only if each
`PTRACE_TRACEME` is the request of a tracee that has a parent, or a ptracer already. -/
theorem traceme_parent_iff (pid : Nat) (events : List LifeEvent) :
    (∀ turn ∈ turns (launched pid) events, SafeTurn turn) ↔
      ∀ turn ∈ turns (launched pid) events, ParentKnown turn := by
  have hkin : ∀ turn ∈ turns (launched pid) events, Kin turn.1 := turns_kin (kin_launched pid)
  constructor
  · exact fun hsafe turn hturn => (safeTurn_iff (hkin turn hturn)).mp (hsafe turn hturn)
  · exact fun hparent turn hturn => (safeTurn_iff (hkin turn hturn)).mpr (hparent turn hturn)

/-- **No reference outlives its tracee.**  Before every turn of every run, a ptracer is another
tracee, which PRoot still has and was told about, and a parent is one that PRoot still has. -/
theorem references_live (pid : Nat) (events : List LifeEvent) :
    ∀ turn ∈ turns (launched pid) events, ∀ i t, turn.1.get i = some t →
      (∀ p, t.ptracer = some p → p ≠ i ∧ ∃ r, turn.1.get p = some r ∧ r.exe = true) ∧
        ∀ p, t.parent = some p → ∃ r, turn.1.get p = some r := by
  intro turn hturn i t ht
  have hkin := turns_kin (kin_launched pid) turn hturn
  refine ⟨fun p hp => hkin.ptracer ht hp, fun p hp => ?_⟩
  obtain ⟨r, hr, -⟩ := hkin.parents i t p ht hp
  exact ⟨r, hr⟩

/-- The first tracee creates another one and exits. -/
def orphaned : List LifeEvent :=
  let answers : LifeAnswers := ⟨fun _ => true, true, true⟩
  [⟨1, .child 2 0, false, answers⟩, ⟨1, .plain .exited, false, answers⟩,
    ⟨2, .plain .sigstop, false, answers⟩, ⟨2, .ptrace .TRACEME .any, false, answers⟩]

theorem references_live_child :
    ∃ r, ((turns (launched 1) orphaned).get ⟨1, by decide⟩).1.get 0 = some r :=
  (references_live 1 orphaned _ (List.get_mem ..) 1 _ rfl).2 0 rfl

/-- The call of the orphan has no tracee to ask. -/
theorem orphaned_missing : (turns (launched 1) orphaned).any (fun turn =>
    match step turn.1 turn.2 with
    | .error .missing => true
    | _ => false) = true := by
  decide

theorem traceme_without_parent :
    ¬ ∀ turn ∈ turns (launched 1) orphaned, SafeTurn turn := by
  intro hsafe
  obtain ⟨turn, hturn, hfault⟩ := List.any_eq_true.mp orphaned_missing
  split at hfault
  · next hstep => exact (hsafe turn hturn).1 hstep
  · cases hfault

end PRoot
