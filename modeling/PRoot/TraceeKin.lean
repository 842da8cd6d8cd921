import PRoot.TraceeLives

/-!
# The relatives of tracees

* `Kin`: the parent and the ptracer of each tracee are tracees that PRoot still has, the ptracer
  another one that PRoot was told about;
* `Grows`: what a part of an event keeps; `removeTracee_fine`: what the end of a tracee keeps;
* `newChild_fine`, `tellPtracer_fine`, `updateWaitStatus_fine`: no part uses a tracee that is gone.
-/

namespace PRoot

/-- **No tracee refers to one that is gone.** -/
structure Kin (s : Tracees) : Prop where
  parents : s.Linked (·.parent) fun _ t _ p => t.exe = true → p.exe = true
  ptracers : s.Linked (·.ptracer) fun i _ j r => j ≠ i ∧ r.exe = true

/-- PRoot has the tracee, and was told who its parent is. -/
def Known (s : Tracees) (i : Nat) : Prop := ∃ t, s.get i = some t ∧ t.exe = true

/-- No tracee is freed. -/
structure Grows (s s' : Tracees) : Prop where
  kin : Kin s'
  lives : ∀ i t, s.get i = some t → ∃ t', s'.get i = some t' ∧ (t.exe = true → t'.exe = true)

/-- Only an assertion can fail, and otherwise the result is a good one. -/
abbrev Fine {α : Type} (good : α → Prop) (x : Except LifeFault α) : Prop :=
  OkOr (· = LifeFault.assertion) good x

variable {k : LifeAnswers} {s s' : Tracees} {i j : Nat} {t : LifeTracee}

theorem Grows.refl (hkin : Kin s) : Grows s s := ⟨hkin, fun _ t ht => ⟨t, ht, id⟩⟩

theorem Grows.trans {s'' : Tracees} (h : Grows s s') (h' : Grows s' s'') : Grows s s'' := by
  refine ⟨h'.kin, fun i t ht => ?_⟩
  obtain ⟨t', ht', hexe⟩ := h.lives i t ht
  obtain ⟨t'', ht'', hexe'⟩ := h'.lives i t' ht'
  exact ⟨t'', ht'', fun h => hexe' (hexe h)⟩

theorem Grows.known (h : Grows s s') (hknown : Known s i) : Known s' i := by
  obtain ⟨t, ht, hexe⟩ := hknown
  obtain ⟨t', ht', hkeeps⟩ := h.lives i t ht
  exact ⟨t', ht', hkeeps hexe⟩

/-- A part of an event, and then another one. -/
theorem Grows.bind {x : Except LifeFault Tracees} {f : Tracees → Except LifeFault Tracees}
    (hx : Fine (Grows s) x) (hf : ∀ s', Grows s s' → Fine (Grows s') (f s')) :
    Fine (Grows s) (x >>= f) :=
  hx.bind fun s' h' => (hf s' h').mono fun _ h'' => h'.trans h''

theorem access_eq (ht : s.get i = some t) : access s i = .ok t := by
  unfold access
  rw [ht]

theorem access_fine {fault : LifeFault → Prop} (ht : s.get i = some t) :
    OkOr fault (· = t) (access s i) := by
  rw [access_eq ht]
  rfl

/-- The ptracer of a tracee. -/
theorem Kin.ptracer (hkin : Kin s) (ht : s.get i = some t) {p : Nat} (hp : t.ptracer = some p) :
    p ≠ i ∧ Known s p := by
  obtain ⟨r, hr, hne, hexe⟩ := hkin.ptracers i t p ht hp
  exact ⟨hne, r, hr, hexe⟩

/-- What a function on a tracee leaves alone. -/
structure LifeTracee.SameKin (t t' : LifeTracee) : Prop where
  parent : t'.parent = t.parent
  ptracer : t'.ptracer = t.ptracer
  exe : t'.exe = t.exe

theorem LifeTracee.SameKin.trans {t t' t'' : LifeTracee} (h : t.SameKin t') (h' : t'.SameKin t'') :
    t.SameKin t'' :=
  ⟨h'.parent.trans h.parent, h'.ptracer.trans h.ptracer, h'.exe.trans h.exe⟩

variable {f : LifeTracee → LifeTracee}

/-- A tracee is changed, but not who its relatives are. -/
theorem Kin.update_same (hkin : Kin s) (hf : ∀ t : LifeTracee, t.SameKin (f t)) :
    Grows s (s.update i f) := by
  refine ⟨⟨hkin.parents.update_same (fun t => (hf t).parent) fun i a j b hab => ?_,
    hkin.ptracers.update_same (fun t => (hf t).ptracer) fun i a j b hab => ?_⟩, fun j t ht => ?_⟩
  · rw [(hf a).exe, (hf b).exe]
    exact ⟨hab, hab⟩
  · rw [(hf b).exe]
    exact ⟨hab, hab⟩
  · rw [LinkedHeap.get_update, ht]
    split_ifs
    · exact ⟨f t, rfl, by rw [(hf t).exe]; exact id⟩
    · exact ⟨t, rfl, id⟩

/-! ## Ptracees -/

theorem countPtracee_fine (hkin : Kin s) (ht : s.get i = some t) :
    Fine (Grows s) (countPtracee s i) := by
  unfold countPtracee
  rw [access_eq ht]
  exact hkin.update_same fun _ => ⟨rfl, rfl, rfl⟩

theorem uncountPtracee_fine (hkin : Kin s) (ht : s.get i = some t) :
    Fine (Grows s) (uncountPtracee s i) := by
  unfold uncountPtracee
  rw [access_eq ht]
  by_cases hzero : t.asPtracer.nbPtracees = 0
  · simp only [bind, Except.bind, hzero, if_true]
    rfl
  · simp only [bind, Except.bind, hzero, if_false]
    exact hkin.update_same fun _ => ⟨rfl, rfl, rfl⟩

/-- The link of a tracee to its ptracer is set, or cut. -/
theorem Kin.set_ptracer (hkin : Kin s) (hparent : ∀ t, (f t).parent = t.parent)
    (hexe : ∀ t, (f t).exe = t.exe) (hptracer : ∀ t p, (f t).ptracer = some p → p ≠ i ∧ Known s p) :
    Grows s (s.update i f) := by
  refine ⟨⟨hkin.parents.update_same hparent fun i a j b hab => ?_,
    hkin.ptracers.update (fun a p _ hp => ?_) fun j a b _ hab => ?_⟩, fun j t ht => ?_⟩
  · rw [hexe, hexe]
    exact ⟨hab, hab⟩
  · obtain ⟨hne, r, hr, hknown⟩ := hptracer a p hp
    exact ⟨r, by rw [LinkedHeap.get_update, if_neg hne, hr], hne, hknown⟩
  · rw [hexe]
    exact hab
  · rw [LinkedHeap.get_update, ht]
    split_ifs
    · exact ⟨f t, rfl, by rw [hexe]; exact id⟩
    · exact ⟨t, rfl, id⟩

theorem attachToPtracer_fine (hkin : Kin s) (hknown : Known s j) (hne : j ≠ i) :
    Fine (Grows s) (attachToPtracer s i (some j)) := by
  have hset : Grows s (s.update i fun t => { t with asPtracee := { ptracer := some j } }) := by
    refine hkin.set_ptracer (fun _ => rfl) (fun _ => rfl) fun t p hp => ?_
    obtain rfl : j = p := Option.some.inj hp
    exact ⟨hne, hknown⟩
  obtain ⟨r, hr, -⟩ := hset.known hknown
  exact (countPtracee_fine hset.kin hr).mono fun _ h => hset.trans h

theorem detachFromPtracer_fine (hkin : Kin s) (ht : s.get i = some t) (hp : t.ptracer = some j) :
    Fine (Grows s) (detachFromPtracer s i) := by
  have hset : Grows s (s.update i fun t => { t with asPtracee.ptracer := none }) :=
    hkin.set_ptracer (fun _ => rfl) (fun _ => rfl) fun t p hp => by cases hp
  obtain ⟨r, hr, -⟩ := hset.known (hkin.ptracer ht hp).2
  unfold detachFromPtracer
  rw [access_eq ht]
  simp only [bind, Except.bind, hp]
  exact (uncountPtracee_fine hset.kin hr).mono fun _ h => hset.trans h

/-! ## The end of a tracee -/

namespace LifeTracee

theorem restart_same (t : LifeTracee) : t.SameKin (t.restart k) := by
  unfold restart
  split_ifs
  · exact ⟨rfl, rfl, rfl⟩
  · exact ⟨rfl, rfl, rfl⟩

theorem handleStop_same (t : LifeTracee) (stop : Stop) : t.SameKin (t.handleStop stop).1 := by
  unfold handleStop
  cases stop with
  | sigstop =>
      dsimp only
      split_ifs
      · exact ⟨rfl, rfl, rfl⟩
      · exact ⟨rfl, rfl, rfl⟩
      · exact ⟨rfl, rfl, rfl⟩
  | _ => exact ⟨rfl, rfl, rfl⟩

theorem pass_same (t : LifeTracee) (stop : Stop) : t.SameKin (t.pass k stop) := by
  have hsame := t.handleStop_same stop
  unfold pass
  dsimp only
  split_ifs
  · exact hsame.trans (restart_same _)
  · exact hsame

theorem resume_same (t : LifeTracee) (forced : Bool) : t.SameKin (t.resume k forced) := by
  unfold resume
  split
  · exact t.restart_same
  · next stop hstop =>
      have hsame := t.handleStop_same stop
      dsimp only
      split_ifs
      · exact hsame.trans (restart_same _)
      · exact hsame

theorem goOn_same (t : LifeTracee) : t.SameKin (t.goOn k) := by
  have hcleared : t.SameKin { t with asPtracer.waitPid := none } := ⟨rfl, rfl, rfl⟩
  exact hcleared.trans (restart_same _)

theorem wake_same (t : LifeTracee) : t.SameKin (t.wake k) := by
  unfold wake
  split_ifs
  · exact t.goOn_same
  · exact ⟨rfl, rfl, rfl⟩

theorem release_same (t : LifeTracee) : t.SameKin (t.release k) := by
  unfold release
  split
  · exact t.pass_same _
  · split_ifs
    · exact t.restart_same
    · exact ⟨rfl, rfl, rfl⟩

theorem orphan_links (t : LifeTracee) (gone : Nat) :
    (t.orphan gone).parent = (if t.parent = some gone then none else t.parent) ∧
      (t.orphan gone).ptracer = t.ptracer ∧ (t.orphan gone).exe = t.exe := by
  unfold orphan
  split_ifs
  · exact ⟨rfl, rfl, rfl⟩
  · exact ⟨rfl, rfl, rfl⟩

theorem unbind_links (t : LifeTracee) (gone : Nat) :
    (t.unbind k gone).parent = t.parent ∧
      (t.unbind k gone).ptracer = (if t.ptracer = some gone then none else t.ptracer) ∧
      (t.unbind k gone).exe = t.exe := by
  have hsame := LifeTracee.release_same (k := k) { t with asPtracee.ptracer := none }
  unfold unbind
  split_ifs
  · exact ⟨hsame.parent, rfl, hsame.exe⟩
  · exact ⟨rfl, rfl, rfl⟩

/-- A relative of a tracee that is gone keeps its other relatives. -/
theorem bereave_links (t : LifeTracee) (gone : Nat) :
    (t.bereave k gone).parent = (if t.parent = some gone then none else t.parent) ∧
      (t.bereave k gone).ptracer = (if t.ptracer = some gone then none else t.ptracer) ∧
      (t.bereave k gone).exe = t.exe := by
  obtain ⟨hparent, hptracer, hexe⟩ := t.orphan_links gone
  obtain ⟨hparent', hptracer', hexe'⟩ := (t.orphan gone).unbind_links (k := k) gone
  exact ⟨hparent'.trans hparent, by rw [← hptracer]; exact hptracer', hexe'.trans hexe⟩

end LifeTracee

/-- The tracee is gone, and nobody refers to it. -/
theorem Kin.bereaved (hkin : Kin s) :
    Kin ((s.free i).map fun _ relative => relative.bereave k i) := by
  refine ⟨hkin.parents.free_map (fun j t p hp => ?_) fun j t p b hab => ?_,
    hkin.ptracers.free_map (fun j t p hp => ?_) fun j t p b hab => ?_⟩
  · rw [(t.bereave_links i).1] at hp
    split_ifs at hp with hgone
    exact ⟨hp, fun h => hgone (h ▸ hp)⟩
  · rw [(t.bereave_links i).2.2, (b.bereave_links i).2.2]
    exact hab
  · rw [(t.bereave_links i).2.1] at hp
    split_ifs at hp with hgone
    exact ⟨hp, fun h => hgone (h ▸ hp)⟩
  · rw [(b.bereave_links i).2.2]
    exact hab

/-- A tracee that PRoot was told about is still there when another one is gone. -/
theorem Known.bereaved (hknown : Known s j) (hne : j ≠ i) :
    Known ((s.free i).map fun _ relative => relative.bereave k i) j := by
  obtain ⟨t, ht, hexe⟩ := hknown
  refine ⟨t.bereave k i, ?_, by rw [(t.bereave_links i).2.2, hexe]⟩
  rw [LinkedHeap.get_map, LinkedHeap.get_free, if_neg hne, ht]
  rfl

theorem removeTracee_fine (hkin : Kin s) (ht : s.get i = some t) :
    Fine Kin (removeTracee k s i) := by
  unfold removeTracee
  rw [access_eq ht]
  simp only [bind, Except.bind]
  have hgone : Kin ((s.free i).map fun _ relative => relative.bereave k i) := hkin.bereaved
  cases hp : t.ptracer with
  | none => exact hgone
  | some p =>
      obtain ⟨hne, hknown⟩ := hkin.ptracer ht hp
      have hknown' : Known ((s.free i).map fun _ relative => relative.bereave k i) p :=
        hknown.bereaved hne
      generalize ((s.free i).map fun _ relative => relative.bereave k i) = s₁ at hgone hknown' ⊢
      dsimp only
      split_ifs
      · have hzombie : Grows s₁ (s₁.update p fun r =>
            { r with asPtracer.zombies := ⟨t.pid, t.clone, t.parent⟩ :: r.asPtracer.zombies }) :=
          hgone.update_same fun _ => ⟨rfl, rfl, rfl⟩
        obtain ⟨r, hr, -⟩ := hzombie.known hknown'
        refine (uncountPtracee_fine hzombie.kin hr).bind fun s₂ h₂ => ?_
        obtain ⟨r₂, hr₂, -⟩ := h₂.lives p r hr
        exact (countPtracee_fine h₂.kin hr₂).mono fun _ h => h.kin
      · obtain ⟨r, hr, -⟩ := hknown'
        refine (uncountPtracee_fine hgone hr).bind fun s₂ h₂ => ?_
        exact (h₂.kin.update_same fun t => t.wake_same).kin

/-- The tracees that are gone are freed. -/
theorem freeTerminated_fine (hkin : Kin s) : Fine Kin (freeTerminated k s) := by
  unfold freeTerminated
  refine OkOr.foldlM (fun s i hkin => ?_) hkin
  split
  · next t ht =>
      split_ifs
      · exact removeTracee_fine hkin ht
      · exact hkin
  · exact hkin

theorem findTracee_lives {current : Option Nat} {pid : Nat}
    (hfind : findTracee s current pid = some i) : ∃ t, s.get i = some t := by
  unfold findTracee at hfind
  split_ifs at hfind with hcurrent
  · subst hfind
    rw [Option.any_some] at hcurrent
    cases ht : s.get i with
    | none =>
        rw [ht] at hcurrent
        cases hcurrent
    | some t => exact ⟨t, rfl⟩
  · obtain ⟨⟨j, t⟩, hcell, rfl⟩ := Option.map_eq_some_iff.mp hfind
    exact ⟨t, LinkedHeap.get_of_mem (List.mem_of_find?_eq_some hcell)⟩

/-- A tracee is found or created. -/
theorem getTracee_grows (hkin : Kin s) (current : Option Nat) (pid : Nat) :
    Grows s (getTracee s current pid).1 ∧
      ∃ t, (getTracee s current pid).1.get (getTracee s current pid).2 = some t := by
  unfold getTracee
  cases hfind : findTracee s current pid with
  | some i => exact ⟨Grows.refl hkin, findTracee_lives hfind⟩
  | none =>
      refine ⟨⟨⟨hkin.parents.alloc rfl, hkin.ptracers.alloc rfl⟩, fun i t ht => ⟨t, ?_, id⟩⟩,
        ⟨{ pid }, ?_⟩⟩
      · rw [LinkedHeap.get_alloc, if_neg]
        · exact ht
        · rintro rfl
          rw [LinkedHeap.get_next] at ht
          cases ht
      · rw [LinkedHeap.get_alloc, if_pos rfl]

/-! ## The events of ptracees -/

/-- A tracee that is changed is still there. -/
theorem get_update_self (ht : s.get i = some t) :
    (s.update i f).get i = some (f t) := by
  rw [LinkedHeap.get_update, ht, if_pos rfl]
  rfl

variable {ptracer : Nat}

/-- What `get_ptracee` finds among the tracees. -/
theorem seekPtracee_ptracer {target : WaitTarget} {pevent : Bool} {options : WaitOptions}
    {cells : List (Nat × LifeTracee)}
    (hseek : seekPtracee ptracer target pevent options cells = some i) :
    ∃ t, (i, t) ∈ cells ∧ t.ptracer = some ptracer := by
  induction cells with
  | nil => cases hseek
  | cons first cells ih =>
      obtain ⟨j, t⟩ := first
      have hlater : seekPtracee ptracer target pevent options cells = some i →
          ∃ t', (i, t') ∈ (j, t) :: cells ∧ t'.ptracer = some ptracer := by
        intro h
        obtain ⟨t', hmem, hptracer⟩ := ih h
        exact ⟨t', List.mem_cons_of_mem _ hmem, hptracer⟩
      unfold seekPtracee at hseek
      split_ifs at hseek with hother hpending
      · exact hlater hseek
      · cases hseek
        simp only [Bool.or_eq_true, not_or, decide_eq_true_eq, not_not] at hother
        exact ⟨t, List.mem_cons_self .., hother.1.1.1⟩
      · exact hlater hseek

/-- What `get_stopped_ptracee` finds. -/
def Found (s : Tracees) (ptracer : Nat) : Option LifePtracee → Prop
  | some (.tracee i) => ∃ t, s.get i = some t ∧ t.ptracer = some ptracer
  | _ => True

theorem getStoppedPtracee_fine (ht : s.get ptracer = some t) (target : WaitTarget) (pevent : Bool)
    (options : WaitOptions) :
    Fine (Found s ptracer) (getStoppedPtracee s ptracer target pevent options) := by
  unfold getStoppedPtracee
  rw [access_eq ht]
  simp only [bind, Except.bind]
  split
  · trivial
  · cases hseek : seekPtracee ptracer target pevent options s.cells with
    | none => trivial
    | some i =>
        obtain ⟨t', hmem, hptracer⟩ := seekPtracee_ptracer hseek
        exact ⟨t', LinkedHeap.get_of_mem hmem, hptracer⟩

theorem updateWaitStatus_zombie (hkin : Kin s) (ht : s.get ptracer = some t) (z : LifeZombie) :
    Fine (Grows s) (updateWaitStatus k s ptracer (.zombie z)) := by
  unfold updateWaitStatus
  dsimp only
  split_ifs
  · refine Grows.bind (uncountPtracee_fine hkin ht) fun s₁ h₁ => ?_
    exact h₁.kin.update_same fun _ => ⟨rfl, rfl, rfl⟩
  · exact Grows.refl hkin

/-- The wait status of a ptracee, which has a ptracer if it is gone. -/
theorem updateWaitStatus_tracee (hkin : Kin s) (ht : s.get i = some t)
    (hover : t.asPtracee.event.any Stop.over = true → t.ptracer ≠ none) :
    Fine (Grows s) (updateWaitStatus k s ptracer (.tracee i)) := by
  unfold updateWaitStatus
  dsimp only
  rw [access_eq ht]
  simp only [bind, Except.bind]
  split_ifs with hchild
  · obtain ⟨p, hp⟩ := Option.ne_none_iff_exists'.mp (hover hchild.2)
    exact detachFromPtracer_fine hkin ht hp
  · exact hkin.update_same fun _ => ⟨rfl, rfl, rfl⟩
  · exact Grows.refl hkin

/-- The ptracer is told about an event of a tracee. -/
theorem tellPtracer_fine {stop : Stop} (hkin : Kin s) (ht : s.get i = some t) {r : LifeTracee}
    (hr : s.get ptracer = some r) (hover : stop.over = true → t.ptracer ≠ none) :
    Fine (fun result => Grows s result.1) (tellPtracer k s i ptracer stop) := by
  have hset : Grows s (s.update i fun t => { t with asPtracee.event := some stop }) :=
    hkin.update_same fun _ => ⟨rfl, rfl, rfl⟩
  have ht' := get_update_self (f := fun t => { t with asPtracee.event := some stop }) ht
  obtain ⟨r', hr', -⟩ := hset.lives ptracer r hr
  unfold tellPtracer
  dsimp only
  refine (access_fine hr').bind ?_
  rintro _ rfl
  refine (access_fine ht').bind ?_
  rintro _ rfl
  split_ifs
  · refine (updateWaitStatus_tracee hset.kin ht' hover).bind fun s₁ h₁ => ?_
    exact hset.trans (h₁.trans (h₁.kin.update_same fun r => r.goOn_same))
  · exact hset

/-! ## Children -/

theorem startChild_fine (hkin : Kin s) (ht : s.get i = some t) :
    Fine (Grows s) (startChild k s i) := by
  unfold startChild
  refine (access_fine ht).bind ?_
  rintro _ rfl
  split_ifs
  · have hset : Grows s (s.update i fun c => { c with sigstop := .SIGSTOP_ALLOWED }) :=
      hkin.update_same fun _ => ⟨rfl, rfl, rfl⟩
    have ht' := get_update_self (f := fun c => { c with sigstop := .SIGSTOP_ALLOWED }) ht
    have hrestart : ∀ s₁, Kin s₁ → Grows s₁ (s₁.update i (·.restart k)) :=
      fun s₁ h₁ => h₁.update_same fun c => c.restart_same
    dsimp only
    split
    · exact hset.trans (hrestart _ hset.kin)
    · next p hp =>
        obtain ⟨r, hr, -⟩ := (hset.kin.ptracer ht' hp).2
        refine (tellPtracer_fine hset.kin ht' hr fun h => by cases h).bind fun told h₁ => ?_
        have hcleared : Grows told.1
            (told.1.update i fun c => { c with asPtracee.proot := none }) :=
          h₁.kin.update_same fun _ => ⟨rfl, rfl, rfl⟩
        split_ifs
        · exact hset.trans (h₁.trans hcleared)
        · exact hset.trans (h₁.trans (hcleared.trans (hrestart _ hcleared.kin)))
  · exact Grows.refl hkin

/-- The child of a tracee: PRoot was not told about it before, and nobody has it for a ptracer. -/
theorem Kin.adopt (hkin : Kin s) {parent child : Nat} {p c : LifeTracee}
    (hp : s.get parent = some p) (hc : s.get child = some c) (hexe : c.exe = false)
    (hptracer : c.ptracer = none) (hf : ∀ t : LifeTracee, (f t).ptracer = t.ptracer ∧
      (f t).exe = p.exe ∧ ((f t).parent = p.parent ∨ (f t).parent = some parent)) :
    Grows s (s.update child f) := by
  have hlives : ∀ j t, s.get j = some t → ∃ t', (s.update child f).get j = some t' ∧
      (t.exe = true → t'.exe = true) := by
    intro j t ht
    rw [LinkedHeap.get_update, ht]
    split_ifs with hj
    · subst hj
      obtain rfl := Option.some.inj (hc.symm.trans ht)
      exact ⟨f c, rfl, by rw [hexe]; exact nofun⟩
    · exact ⟨t, rfl, id⟩
  -- a tracee that PRoot was told about has a parent that PRoot was told about
  have hknown : ∀ j, p.parent = some j ∨ parent = j →
      ∃ q, s.get j = some q ∧ (p.exe = true → q.exe = true) := by
    rintro j (hj | rfl)
    · exact hkin.parents parent p j hp hj
    · exact ⟨p, hp, id⟩
  refine ⟨⟨hkin.parents.update (fun t j _ hj => ?_) fun j t b hb htarget hchild => ?_,
    hkin.ptracers.update (fun t j ht hj => ?_) fun j t b hb htarget => ?_⟩, hlives⟩
  · obtain ⟨q, hq, hqexe⟩ := hknown j (by
      rcases (hf t).2.2 with hparent | hparent
      · exact .inl (hparent.symm.trans hj)
      · exact .inr (Option.some.inj (hparent.symm.trans hj)))
    obtain ⟨q', hq', hkeeps⟩ := hlives j q hq
    exact ⟨q', hq', fun h => hkeeps (hqexe ((hf t).2.1 ▸ h))⟩
  · obtain rfl := Option.some.inj (hc.symm.trans hb)
    rw [htarget hchild] at hexe
    cases hexe
  · obtain rfl := Option.some.inj (hc.symm.trans ht)
    rw [(hf c).1, hptracer] at hj
    cases hj
  · obtain rfl := Option.some.inj (hc.symm.trans hb)
    rw [htarget.2] at hexe
    cases hexe

theorem inheritPtracer_fine (hkin : Kin s) {p : LifeTracee} {child : Nat} {flags : BitVec 64}
    (hp : ∀ r, p.ptracer = some r → r ≠ child ∧ Known s r) :
    Fine (Grows s) (inheritPtracer s p child flags) := by
  unfold inheritPtracer
  split_ifs with hinherits
  · obtain ⟨r, hr⟩ := Option.isSome_iff_exists.mp hinherits.1
    obtain ⟨hne, hknown⟩ := hp r hr
    rw [hr]
    refine Grows.bind (attachToPtracer_fine hkin hknown hne) fun s₁ h₁ => ?_
    exact h₁.kin.update_same fun _ => ⟨rfl, rfl, rfl⟩
  · exact Grows.refl hkin

theorem newChild_fine (hkin : Kin s) {p : LifeTracee} {parent pid : Nat} {flags : BitVec 64}
    (hp : s.get parent = some p) : Fine (Grows s) (Tracees.newChild k s parent pid flags) := by
  obtain ⟨hgrows, c, hc⟩ := getTracee_grows hkin (some parent) pid
  unfold Tracees.newChild
  dsimp only
  generalize (getTracee s (some parent) pid).2 = child at hc ⊢
  generalize (getTracee s (some parent) pid).1 = s₁ at hgrows hc ⊢
  obtain ⟨p₁, hp₁, -⟩ := hgrows.lives parent p hp
  refine (access_fine hc).bind ?_
  rintro c rfl
  split_ifs with hnew
  · rfl
  · refine (access_fine hp₁).bind ?_
    rintro p₁ rfl
    simp only [Bool.or_eq_true, not_or, Bool.not_eq_true, Option.isSome_eq_false_iff,
      Option.isNone_iff_eq_none] at hnew
    obtain ⟨⟨hexe, hparent⟩, hptracer⟩ := hnew
    have hadopted : Grows s₁ (s₁.update child (p₁.adopt parent flags)) := by
      refine hgrows.kin.adopt hp₁ hc hexe hptracer fun t => ⟨rfl, rfl, ?_⟩
      unfold LifeTracee.adopt
      dsimp only
      split_ifs
      · exact .inl rfl
      · exact .inr rfl
    -- the ptracer of the parent was known before the child was
    have hinherits : ∀ r, p₁.ptracer = some r → r ≠ child ∧ Known s₁ r := by
      intro r hr
      obtain ⟨q, hq, hqexe⟩ := (hgrows.kin.ptracer hp₁ hr).2
      refine ⟨?_, q, hq, hqexe⟩
      rintro rfl
      obtain rfl := Option.some.inj (hc.symm.trans hq)
      rw [hqexe] at hexe
      cases hexe
    obtain ⟨c₁, hc₁, -⟩ := hadopted.lives child c hc
    refine (inheritPtracer_fine hadopted.kin fun r hr =>
      ⟨(hinherits r hr).1, hadopted.known (hinherits r hr).2⟩).bind fun s₂ h₂ => ?_
    obtain ⟨c₂, hc₂, -⟩ := h₂.lives child c₁ hc₁
    exact (startChild_fine h₂.kin hc₂).mono fun _ h =>
      hgrows.trans (hadopted.trans (h₂.trans h))

end PRoot
