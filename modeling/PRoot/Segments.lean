import PRoot.MsgConserved

/-!
# Segments and the entries of their mappings

A segment goes when its removal was asked for and its last entry goes.

* `SegmentsRight`: entries are of segments that are there, and a segment whose removal is due has
  an entry;
* `Frees`: what it means that entries go: some segments are freed, each of them once;
* `Shrinks`: what only frees segments, and leaves them right;
* `freeMapping_shrinks`, `removeMappings_shrinks`, `shmatChain_shrinks`: an entry goes, or all
  those of a process; a step of a `shmat`.
-/

namespace PRoot

/-- The descriptors that the helper was asked to free. -/
def freeFds (requests : List ShmRequest) : List Int :=
  requests.filterMap fun
    | .SHMHELPER_FREE fd => some fd
    | _ => none

@[simp] theorem freeFds_append (requests requests' : List ShmRequest) :
    freeFds (requests ++ requests') = freeFds requests ++ freeFds requests' :=
  List.filterMap_append

namespace IpcSystem

/-- **The segments are right.** -/
structure SegmentsRight (sys : IpcSystem) : Prop where
  /-- A removal is due of a segment that is there. -/
  live : ∀ i, (sys.segmentAt i).rmidPending = true → Slot.live sys.shms i = true
  /-- An entry is of a segment that is there. -/
  entries : ∀ mapping ∈ sys.mappings, Slot.live sys.shms mapping.shmIndex = true
  /-- A segment whose removal is due has an entry. -/
  due : ∀ i, (sys.segmentAt i).rmidPending = true → sys.isMapped i = true

/-- The segments that are there before, and not after. -/
def freedIn (sys sys' : IpcSystem) : List Nat :=
  (List.range sys.shms.length).filter fun i =>
    Slot.live sys.shms i && !Slot.live sys'.shms i

/-- **Some entries go**, and the segments whose last entry they were, where their removal is
due: the helper is asked to free each of these once. -/
structure Frees (sys sys' : IpcSystem) : Prop where
  live : ∀ i, Slot.live sys'.shms i = true → Slot.live sys.shms i = true
  same : ∀ i, Slot.live sys'.shms i = true → sys'.segmentAt i = sys.segmentAt i
  freed : ∀ i, Slot.live sys.shms i = true → Slot.live sys'.shms i = false →
    (sys.segmentAt i).rmidPending = true ∧ sys'.isMapped i = false
  length : sys'.shms.length = sys.shms.length
  entries : ∀ i, sys'.isMapped i = true → sys.isMapped i = true
  requests : (freeFds sys'.requests).Perm
    (freeFds sys.requests ++ (sys.freedIn sys').map fun i => (sys.segmentAt i).fd)

section

variable {sys sys' sys'' : IpcSystem}

/-- Nothing that is about segments changes, and no entry is new. -/
theorem Frees.of_same (hshms : sys'.shms = sys.shms)
    (hentries : ∀ i, sys'.isMapped i = true → sys.isMapped i = true)
    (hrequests : freeFds sys'.requests = freeFds sys.requests) : Frees sys sys' := by
  have hfreed : sys.freedIn sys' = [] := by simp [freedIn, hshms]
  refine ⟨fun i => by simp [hshms], fun i _ => by simp [segmentAt, hshms], fun i hlive hdead => ?_,
    by rw [hshms], hentries, ?_⟩
  · rw [hshms, hlive] at hdead
    cases hdead
  · rw [hfreed, hrequests, List.map_nil, List.append_nil]

theorem mem_freedIn {i : Nat} : i ∈ sys.freedIn sys' ↔
    Slot.live sys.shms i = true ∧ Slot.live sys'.shms i = false := by
  rw [freedIn, List.mem_filter, List.mem_range, Bool.and_eq_true, Bool.not_eq_true']
  exact ⟨fun h => h.2, fun h => ⟨Slot.live_lt h.1, h⟩⟩

theorem freedIn_nodup : (sys.freedIn sys').Nodup := List.nodup_range.filter _

theorem Frees.trans (h : Frees sys sys') (h' : Frees sys' sys'') : Frees sys sys'' := by
  have hfreed : (sys.freedIn sys'').Perm (sys.freedIn sys' ++ sys'.freedIn sys'') := by
    have hdisjoint : (sys.freedIn sys' ++ sys'.freedIn sys'').Nodup := by
      refine List.Nodup.append freedIn_nodup freedIn_nodup fun i hi hi' => ?_
      have hdead := (mem_freedIn.mp hi).2
      rw [(mem_freedIn.mp hi').1] at hdead
      cases hdead
    refine (List.perm_ext_iff_of_nodup freedIn_nodup hdisjoint).mpr fun i => ?_
    rw [List.mem_append, mem_freedIn, mem_freedIn, mem_freedIn]
    constructor
    · rintro ⟨hlive, hdead⟩
      cases hmiddle : Slot.live sys'.shms i with
      | true => exact Or.inr ⟨rfl, hdead⟩
      | false => exact Or.inl ⟨hlive, rfl⟩
    · rintro (⟨hlive, hdead⟩ | ⟨hlive, hdead⟩)
      · refine ⟨hlive, ?_⟩
        by_contra hagain
        rw [Bool.not_eq_false] at hagain
        rw [h'.live i hagain] at hdead
        cases hdead
      · exact ⟨h.live i hlive, hdead⟩
  refine ⟨fun i hlive => h.live i (h'.live i hlive), fun i hlive => ?_, fun i hlive hdead => ?_,
    h'.length.trans h.length, fun i hmapped => h.entries i (h'.entries i hmapped), ?_⟩
  · exact (h'.same i hlive).trans (h.same i (h'.live i hlive))
  · cases hmiddle : Slot.live sys'.shms i with
    | true =>
        obtain ⟨hpending, hnone⟩ := h'.freed i hmiddle hdead
        exact ⟨h.same i hmiddle ▸ hpending, hnone⟩
    | false =>
        obtain ⟨hpending, hnone⟩ := h.freed i hlive hmiddle
        refine ⟨hpending, ?_⟩
        by_contra hmapped
        rw [Bool.not_eq_false] at hmapped
        rw [h'.entries i hmapped] at hnone
        cases hnone
  · have hfds : ((sys'.freedIn sys'').map fun i => (sys'.segmentAt i).fd) =
        (sys'.freedIn sys'').map fun i => (sys.segmentAt i).fd :=
      List.map_congr_left fun i hi => by rw [h.same i (mem_freedIn.mp hi).1]
    have hall := (hfreed.map fun i => (sys.segmentAt i).fd).append_left (freeFds sys.requests)
    rw [List.map_append, ← List.append_assoc] at hall
    refine h'.requests.trans (.trans ?_ hall.symm)
    rw [hfds]
    exact h.requests.append_right _

/-! ## An entry goes -/

theorem isMapped_erase {mapping : ShmMapping} {i : Nat}
    (h : { sys with mappings := sys.mappings.erase mapping }.isMapped i = true) :
    sys.isMapped i = true := by
  obtain ⟨m, hm, hi⟩ := List.any_eq_true.mp h
  exact List.any_eq_true.mpr ⟨m, List.mem_of_mem_erase hm, hi⟩

theorem isMapped_erase_of_ne {mapping : ShmMapping} {i : Nat} (hne : i ≠ mapping.shmIndex) :
    { sys with mappings := sys.mappings.erase mapping }.isMapped i = sys.isMapped i := by
  refine Bool.eq_iff_iff.mpr ⟨isMapped_erase, fun h => ?_⟩
  obtain ⟨m, hm, hi⟩ := List.any_eq_true.mp h
  refine List.any_eq_true.mpr ⟨m, (List.mem_erase_of_ne ?_).mpr hm, hi⟩
  rintro rfl
  exact hne (of_decide_eq_true hi).symm

theorem segmentAt_doRmid {index : Nat} (hlive : Slot.live sys.shms index = true) (i : Nat) :
    (sys.doRmid index).segmentAt i =
      if i = index then { sys.segmentAt i with rmidPending := false, fd := -1 }
      else sys.segmentAt i :=
  slotData_modify Segment.zero index i _
    (fun segment => { segment with rmidPending := false, fd := -1 }) (fun _ => rfl)
    (Slot.live_lt hlive)

theorem live_doRmid (index i : Nat) : Slot.live (sys.doRmid index).shms i =
    (!decide (i = index) && Slot.live sys.shms i) := by
  show Slot.live (Slot.release sys.shms index fun content =>
    { content with data := { content.data with rmidPending := false, fd := -1 } }) i = _
  exact Slot.live_release _ _ _ _

theorem freedIn_doRmid {index : Nat} (hlive : Slot.live sys.shms index = true) :
    (sys.freedIn (sys.doRmid index)).Perm [index] := by
  refine (List.perm_ext_iff_of_nodup freedIn_nodup (List.nodup_singleton _)).mpr fun i => ?_
  rw [mem_freedIn, live_doRmid, List.mem_singleton]
  constructor
  · rintro ⟨hi, hdead⟩
    by_contra hne
    simp [hne, hi] at hdead
  · rintro rfl
    simp [hlive]

/-- A segment is freed: the helper is asked to. -/
theorem requests_doRmid {index : Nat} (hlive : Slot.live sys.shms index = true) :
    (freeFds (sys.doRmid index).requests).Perm (freeFds sys.requests ++
      (sys.freedIn (sys.doRmid index)).map fun i => (sys.segmentAt i).fd) := by
  have hfds := (freedIn_doRmid hlive).map fun i => (sys.segmentAt i).fd
  refine .trans (.of_eq ?_) (hfds.symm.append_left _)
  rw [doRmid, request, freeFds_append]
  rfl

/-- Something that only frees segments, and leaves them right. -/
def Shrinks (sys sys' : IpcSystem) : Prop :=
  sys.SegmentsRight → sys'.SegmentsRight ∧ Frees sys sys'

theorem Shrinks.trans (h : Shrinks sys sys') (h' : Shrinks sys' sys'') : Shrinks sys sys'' := by
  intro hright
  obtain ⟨hright', hfrees⟩ := h hright
  obtain ⟨hright'', hfrees'⟩ := h' hright'
  exact ⟨hright'', hfrees.trans hfrees'⟩

/-- Entries change, but they are of the same segments. -/
theorem Shrinks.of_entries (hshms : sys'.shms = sys.shms)
    (hrequests : freeFds sys'.requests = freeFds sys.requests)
    (hold : ∀ m ∈ sys'.mappings, ∃ m' ∈ sys.mappings, m'.shmIndex = m.shmIndex)
    (hnew : ∀ m ∈ sys.mappings, ∃ m' ∈ sys'.mappings, m'.shmIndex = m.shmIndex) :
    Shrinks sys sys' := by
  intro h
  have hsegment : ∀ i, sys'.segmentAt i = sys.segmentAt i := fun i => by simp [segmentAt, hshms]
  have hmapped : ∀ {sys₁ sys₂ : IpcSystem}, (∀ m ∈ sys₁.mappings, ∃ m' ∈ sys₂.mappings,
      m'.shmIndex = m.shmIndex) → ∀ i, sys₁.isMapped i = true → sys₂.isMapped i = true := by
    intro sys₁ sys₂ hsame i hi
    obtain ⟨m, hm, hmi⟩ := List.any_eq_true.mp hi
    obtain ⟨m', hm', heq⟩ := hsame m hm
    exact List.any_eq_true.mpr ⟨m', hm', by rw [heq]; exact hmi⟩
  refine ⟨⟨fun i hi => ?_, fun m hm => ?_, fun i hi => ?_⟩, .of_same hshms (hmapped hold) hrequests⟩
  · rw [hshms]
    exact h.live i (hsegment i ▸ hi)
  · obtain ⟨m', hm', heq⟩ := hold m hm
    rw [hshms, ← heq]
    exact h.entries m' hm'
  · exact hmapped hnew i (h.due i (hsegment i ▸ hi))

/-- Nothing that is about segments changes. -/
theorem Shrinks.of_eq (hshms : sys'.shms = sys.shms) (hmappings : sys'.mappings = sys.mappings)
    (hrequests : freeFds sys'.requests = freeFds sys.requests) : Shrinks sys sys' :=
  .of_entries hshms hrequests (fun m hm => ⟨m, hmappings ▸ hm, rfl⟩)
    fun m hm => ⟨m, hmappings ▸ hm, rfl⟩

theorem modify_shrinks (pid : Nat) (f : IpcThread → IpcThread) : Shrinks sys (sys.modify pid f) :=
  .of_eq rfl rfl rfl

/-- **An entry goes.** -/
theorem freeMapping_shrinks (mapping : ShmMapping) : Shrinks sys (sys.freeMapping mapping) := by
  intro h
  unfold freeMapping
  dsimp only
  split
  · rename_i hdue
    rw [Bool.and_eq_true, Bool.not_eq_true'] at hdue
    obtain ⟨hpending, hlast⟩ := hdue
    have hlive : Slot.live sys.shms mapping.shmIndex = true := h.live _ hpending
    set middle : IpcSystem := { sys with mappings := sys.mappings.erase mapping } with hmiddle
    have hother : ∀ i, Slot.live (middle.doRmid mapping.shmIndex).shms i = true →
        i ≠ mapping.shmIndex ∧ Slot.live sys.shms i = true := by
      intro i hi
      rw [live_doRmid, Bool.and_eq_true, Bool.not_eq_true', decide_eq_false_iff_not] at hi
      exact hi
    have hsegment := @segmentAt_doRmid middle mapping.shmIndex hlive
    refine ⟨⟨fun i hi => ?_, fun m hm => ?_, fun i hi => ?_⟩, ⟨fun i hi => (hother i hi).2,
      fun i hi => ?_, fun i hi hdead => ?_, ?_, fun i => isMapped_erase, requests_doRmid hlive⟩⟩
    · rw [hsegment] at hi
      split at hi
      · cases hi
      · rename_i hne
        rw [live_doRmid, decide_eq_false hne]
        exact h.live i hi
    · have hne : m.shmIndex ≠ mapping.shmIndex := by
        intro heq
        have hthere : middle.isMapped mapping.shmIndex = true :=
          List.any_eq_true.mpr ⟨m, hm, decide_eq_true heq⟩
        rw [hlast] at hthere
        cases hthere
      rw [live_doRmid, decide_eq_false hne]
      exact h.entries m (List.mem_of_mem_erase hm)
    · rw [hsegment] at hi
      split at hi
      · cases hi
      · rename_i hne
        exact (isMapped_erase_of_ne hne).trans (h.due i hi)
    · exact (hsegment i).trans (if_neg (hother i hi).1)
    · have hi' : i = mapping.shmIndex := by
        by_contra hne
        rw [live_doRmid, decide_eq_false hne, show Slot.live middle.shms i = true from hi] at hdead
        cases hdead
      subst hi'
      exact ⟨hpending, hlast⟩
    · exact List.length_modify _ _ _
  · rename_i hnot
    refine ⟨⟨h.live, fun m hm => h.entries m (List.mem_of_mem_erase hm), fun i hi => ?_⟩,
      .of_same rfl (fun i => isMapped_erase) rfl⟩
    by_cases hi' : i = mapping.shmIndex
    · subst hi'
      by_contra hnone
      rw [Bool.and_eq_true, Bool.not_eq_true', not_and] at hnot
      exact hnot hi (Bool.eq_false_iff.mpr hnone)
    · exact (isMapped_erase_of_ne hi').trans (h.due i hi)

/-- **The entries of a process go.** -/
theorem removeMappings_shrinks (process : Nat) : Shrinks sys (sys.removeMappings process) := by
  unfold removeMappings
  generalize sys.mappings.filter (·.process = process) = mappings
  induction mappings generalizing sys with
  | nil => exact .of_eq rfl rfl rfl
  | cons mapping mappings ih => exact (freeMapping_shrinks mapping).trans ih

theorem shmdt_shrinks (t : IpcThread) (addr : BitVec 64) : Shrinks sys (sys.shmdt t addr).1 := by
  unfold shmdt
  split
  · exact .of_eq rfl rfl rfl
  · exact (modify_shrinks _ _).trans (freeMapping_shrinks _)

/-- A process has what is mapped in its parent. -/
theorem inheritChild_shrinks (parent : IpcThread) (child : Nat) (cloneThread : Bool) :
    Shrinks sys (sys.inheritChild parent child cloneThread) := by
  unfold inheritChild
  split
  · exact .of_eq rfl rfl rfl
  · refine .of_entries rfl rfl (fun m hm => ?_) fun m hm =>
      ⟨m, List.mem_append_right _ hm, rfl⟩
    rcases List.mem_append.mp hm with hm | hm
    · obtain ⟨m', hm', rfl⟩ := List.mem_map.mp hm
      exact ⟨m', (List.mem_filter.mp hm').1, rfl⟩
    · exact ⟨m, hm, rfl⟩

theorem exit_shrinks (t : IpcThread) : Shrinks sys (sys.exit t) := by
  have hgone : Shrinks sys
      { sys with threads := sys.threads.filter (·.config.pid ≠ t.config.pid) } := .of_eq rfl rfl rfl
  unfold exit
  dsimp only
  split
  · exact hgone
  · exact hgone.trans (removeMappings_shrinks _)

/-! ## A step of a shmat -/

theorem wakePendingShmat_shrinks (h : sys.wakePendingShmat = some sys') : Shrinks sys sys' := by
  obtain ⟨threads, -, rfl⟩ := Option.map_eq_some_iff.mp h
  exact .of_eq rfl rfl rfl

theorem failShmat_shrinks {t : IpcThread} (h : failShmat sys t = some sys') :
    Shrinks sys sys' := by
  obtain ⟨mapping, -, hwoken⟩ := Option.bind_eq_some_iff.mp h
  exact (modify_shrinks _ _).trans
    ((freeMapping_shrinks mapping).trans (wakePendingShmat_shrinks hwoken))

/-- An entry is replaced. -/
theorem replace_perm {α : Type*} [BEq α] [LawfulBEq α] {l : List α} {a b : α} (h : a ∈ l) :
    (l.replace a b).Perm (b :: l.erase a) := by
  induction l with
  | nil => cases h
  | cons c l ih =>
      by_cases heq : c = a
      · subst heq
        simp
      · have hmem : a ∈ l := by
          rcases List.mem_cons.mp h with rfl | hmem
          · exact absurd rfl heq
          · exact hmem
        have hbeq : (a == c) = false := by simpa using Ne.symm heq
        have hbeq' : (c == a) = false := by simpa using heq
        simp only [List.replace_cons, hbeq, List.erase_cons, hbeq', Bool.false_eq_true, if_false]
        exact ((ih hmem).cons c).trans (List.Perm.swap _ _ _)

/-- An entry gets its place. -/
theorem placeMapping_shrinks {mapping : ShmMapping} (h : mapping ∈ sys.mappings)
    (addr size : BitVec 64) : Shrinks sys (sys.placeMapping mapping addr size) := by
  have hperm := replace_perm (b := { mapping with addr, size }) h
  refine .of_entries rfl rfl (fun m hm => ?_) fun m hm => ?_
  · rcases List.mem_cons.mp (hperm.mem_iff.mp hm) with rfl | hm
    · exact ⟨mapping, h, rfl⟩
    · exact ⟨m, List.mem_of_mem_erase hm, rfl⟩
  · by_cases heq : m = mapping
    · subst heq
      exact ⟨_, hperm.mem_iff.mpr List.mem_cons_self, rfl⟩
    · exact ⟨m, hperm.mem_iff.mpr (List.mem_cons_of_mem _ ((List.mem_erase_of_ne heq).mpr hm)), rfl⟩

/-- **A step of a `shmat`.** -/
theorem shmatChain_shrinks {t : IpcThread} {result : BitVec 64} {answers : StopAnswers}
    {goesOn : Bool} (h : shmatChain sys t result answers = some (sys', goesOn)) :
    Shrinks sys sys' := by
  cases shmatChain_step h with
  | fails hf hnot hfail => exact (modify_shrinks _ _).trans (failShmat_shrinks hfail)
  | goes hsys =>
      rcases hsys with rfl | ⟨fd, rfl⟩
      · exact modify_shrinks _ _
      · refine .of_eq rfl rfl ?_
        rw [modify_requests, request, freeFds_append]
        exact List.append_nil _
  | maps hmapping hf hover hmmap hwoken =>
      exact (placeMapping_shrinks (List.mem_of_find?_eq_some hmapping) _ _).trans
        ((modify_shrinks _ _).trans (wakePendingShmat_shrinks hwoken))

end

end IpcSystem

end PRoot
