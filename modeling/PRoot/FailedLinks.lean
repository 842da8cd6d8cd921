import PRoot.LinkLosses

/-!
# Links of emulated hard links that fail

* `further_undone_iff`: what is left of a further link once the new name could not be made;
* `failed_link_iff`: exactly when a failed link loses nothing;
* `failed_link_loses`: a leftover link in the way of the intermediate one.
-/

namespace PRoot

variable {α : Type} {refuses : HostStep → Bool} {fs fs' : Files α} {original : CStr}

/-! ## Counts -/

theorem format04_length_iff {n : Int} : (format04 n).length = 4 ↔ -999 ≤ n ∧ n ≤ 9999 := by
  by_cases hneg : n < 0
  · have hdigits := Nat.length_toDigits_le_iff (b := 10) (n := n.natAbs) (k := 3) (by decide)
      (by decide)
    rw [format04_negative hneg, List.length_cons, List.length_leftpad]
    omega
  · obtain ⟨m, rfl⟩ := Int.eq_ofNat_of_zero_le (Int.not_lt.mp hneg)
    have hdigits := Nat.length_toDigits_le_iff (b := 10) (n := m) (k := 4) (by decide) (by decide)
    have hform : format04 (m : Int) = (Nat.toDigits 10 m).leftpad 4 '0' := format04_eq m
    change (format04 (m : Int)).length = 4 ↔ -999 ≤ (m : Int) ∧ (m : Int) ≤ 9999
    rw [hform, List.length_leftpad]
    omega

theorem format04_length_ge_int (n : Int) : 4 ≤ (format04 n).length := by
  by_cases hneg : n < 0
  · rw [format04_negative hneg, List.length_cons, List.length_leftpad]
    omega
  · obtain ⟨m, rfl⟩ := Int.eq_ofNat_of_zero_le (Int.not_lt.mp hneg)
    exact format04_length_ge m

theorem linkCount_append {front count : CStr} (h : count.length = 4) :
    linkCount (front ++ count) = atoi count := by
  rw [linkCount, List.length_append, h, Nat.add_sub_cancel, List.drop_left]

theorem withCount_append {front count : CStr} (h : count.length = 4) (n : Int) :
    withCount (front ++ count) n = front ++ format04 n := by
  rw [withCount, List.length_append, h, Nat.add_sub_cancel, List.take_left]

/-- A name that ends in its count. -/
theorem counted_eq {final : CStr} (h : withCount final (linkCount final) = final) :
    ∃ front, final = front ++ format04 (linkCount final) ∧
      (format04 (linkCount final)).length = 4 := by
  refine ⟨final.take (final.length - 4), h.symm, ?_⟩
  have hlength := congrArg List.length h
  have hge := format04_length_ge_int (linkCount final)
  rw [withCount, List.length_append, List.length_take] at hlength
  omega

/-- The count read from the next name is the next one, until there is no room for it. -/
theorem linkCount_next {final : CStr} (h : withCount final (linkCount final) = final) :
    linkCount (withCount final (linkCount final + 1)) =
      if linkCount final < 9999 then linkCount final + 1 else 0 := by
  obtain ⟨front, hfinal, hlength⟩ := counted_eq h
  have hrange := format04_length_iff.mp hlength
  have hnext : withCount final (linkCount final + 1) = front ++ format04 (linkCount final + 1) := by
    conv_lhs => lhs; rw [hfinal]
    exact withCount_append hlength _
  rw [hnext]
  split
  · have hlength' := format04_length_iff.mpr
      (show -999 ≤ linkCount final + 1 ∧ linkCount final + 1 ≤ 9999 by omega)
    rw [linkCount_append hlength', atoi_format04_of_length hlength']
  · have hlast : linkCount final + 1 = 10000 := by omega
    rw [hlast]
    have hsplit : front ++ format04 10000 = (front ++ ['1']) ++ "0000".toList := by
      rw [List.append_assoc]
      rfl
    rw [hsplit, linkCount_append rfl]
    decide

/-- The name before the next one is the name. -/
theorem withCount_next {final : CStr} (h : withCount final (linkCount final) = final)
    (hlt : linkCount final < 9999) :
    withCount (withCount final (linkCount final + 1)) (linkCount final) = final ∧
      (withCount final (linkCount final + 1)).length = final.length := by
  obtain ⟨front, hfinal, hlength⟩ := counted_eq h
  have hrange := format04_length_iff.mp hlength
  have hlength' := format04_length_iff.mpr
    (show -999 ≤ linkCount final + 1 ∧ linkCount final + 1 ≤ 9999 by omega)
  have hnext : withCount final (linkCount final + 1) = front ++ format04 (linkCount final + 1) := by
    conv_lhs => lhs; rw [hfinal]
    exact withCount_append hlength _
  have hlengths : final.length = front.length + 4 := by
    conv_lhs => rw [hfinal]
    rw [List.length_append, hlength]
  rw [hnext, withCount_append hlength']
  exact ⟨hfinal.symm, by rw [List.length_append, hlength', hlengths]⟩

/-! ## Further links -/

section Further

variable {i final newFinal : CStr} {d : α}

/-- The final file got another name. -/
abbrev FinalMoved (fs fs1 : Files α) (i newFinal final : CStr) (d : α) : Prop :=
  ∀ q, fs1.get q = if q = i then some (.link newFinal)
    else if q = newFinal then some (.file d) else if q = final then none else fs.get q

/-- A name of an emulated hard link, with its file. -/
structure EmulatedName (fs : Files α) (original i final : CStr) (d : α) : Prop where
  name : fs.get original = some (.link i)
  l2s : isL2s i = true
  link : fs.get i = some (.link final)
  file : fs.get final = some (.file d)
  short : i.length < pathMax
  short' : final.length < pathMax

variable {fs1 : Files α}

namespace EmulatedName

theorem ne_final (h : EmulatedName fs original i final d) : i ≠ final := by
  rintro rfl
  have hboth := h.link.symm.trans h.file
  cases hboth

theorem original_ne_final (h : EmulatedName fs original i final d) : original ≠ final := by
  rintro rfl
  have hboth := h.name.symm.trans h.file
  cases hboth

theorem original_ne (h : EmulatedName fs original i final d) : original ≠ i := by
  rintro rfl
  have hboth := h.name.symm.trans h.link
  cases hboth
  exact h.ne_final rfl

theorem content (h : EmulatedName fs original i final d) :
    contentAt fs original = some (.file d) :=
  contentAt_chain h.name h.l2s h.link h.file

theorem own (h : EmulatedName fs original i final d) : ownPaths fs original = [original, i, final] := by
  unfold ownPaths
  rw [myReadlink_ok h.name h.short]
  simp only [h.l2s, if_true, myReadlink_ok h.link h.short']

/-- The next name is none of those behind the name. -/
theorem not_own (h : EmulatedName fs original i final d) (hne : newFinal ≠ original)
    (hne' : newFinal ≠ i) (hfinal : newFinal ≠ final) : newFinal ∉ ownPaths fs original := by
  rw [h.own]
  simp only [List.mem_cons, List.not_mem_nil, or_false, not_or]
  exact ⟨hne, hne', hfinal⟩

/-- The same name, after the final file got another one. -/
theorem moved (h : EmulatedName fs original i final d) (hne : newFinal ≠ original)
    (hne' : newFinal ≠ i) (hshort : newFinal.length < pathMax)
    (hget : FinalMoved fs fs1 i newFinal final d) :
    EmulatedName fs1 original i newFinal d where
  name := by
    rw [hget, if_neg h.original_ne, if_neg hne.symm, if_neg h.original_ne_final, h.name]
  l2s := h.l2s
  link := by rw [hget, if_pos rfl]
  file := by rw [hget, if_neg hne', if_pos rfl]
  short := h.short
  short' := hshort

/-- Where the final file is neither here nor there, it is lost. -/
theorem torn_lost (h : EmulatedName fs original i final d) (hne : newFinal ≠ original)
    (hfinal : newFinal ≠ final) (hintermediate : fs1.get i = fs.get i ∨ fs1.get i = none)
    (hothers : ∀ q, q ≠ i → fs1.get q = if q = newFinal then some (.file d)
      else if q = final then none else fs.get q) :
    contentAt fs1 original = none := by
  have hname : fs1.get original = some (.link i) := by
    rw [hothers _ h.original_ne, if_neg hne.symm, if_neg h.original_ne_final, h.name]
  have hgone : fs1.get final = none := by
    rw [hothers _ h.ne_final.symm, if_neg hfinal.symm, if_pos rfl]
  refine contentAt_broken hname h.l2s ?_
  rcases hintermediate with hsame | hnone
  · exact Or.inr ⟨final, hsame.trans h.link, hgone⟩
  · exact Or.inl hnone

end EmulatedName

/-- A further link that is not taken back: what was at the place of the final file is lost. -/
theorem further_kept_iff (h : EmulatedName fs original i final d) (hne : newFinal ≠ original)
    (hne' : newFinal ≠ i) (hfinal : newFinal ≠ final) (hshort : newFinal.length < pathMax)
    (hget : FinalMoved fs fs1 i newFinal final d) :
    LosesNothing fs fs1 original ↔ Spare fs newFinal (.file d) := by
  have hmoved := h.moved hne hne' hshort hget
  refine losesNothing_iff_spare h.content hmoved.content (h.not_own hne hne' hfinal) hmoved.file ?_
  intro q hq hqf _
  rw [h.own] at hq
  simp only [List.mem_cons, List.not_mem_nil, or_false, not_or] at hq
  rw [hget, if_neg hq.2.1, if_neg hqf, if_neg hq.2.2]

/-- A final file that goes back is where it was, and what was at its next name is lost. -/
theorem further_back_iff {fs2 : Files α} (h : EmulatedName fs original i final d)
    (hne : newFinal ≠ original) (hne' : newFinal ≠ i) (hfinal : newFinal ≠ final)
    (hget : FinalMoved fs fs1 i newFinal final d)
    (hget2 : ∀ q, fs2.get q = if q = i then some (.link final)
      else if q = final then some (.file d) else if q = newFinal then none else fs1.get q) :
    LosesNothing fs fs2 original ↔ fs.get newFinal = none := by
  have hgone : fs2.get newFinal = none := by
    rw [hget2, if_neg hne', if_neg hfinal, if_pos rfl]
  have hback : ∀ q, q ≠ newFinal → fs2.get q = fs.get q := by
    intro q hq
    rw [hget2]
    by_cases hqi : q = i
    · rw [if_pos hqi, hqi, h.link]
    · rw [if_neg hqi]
      by_cases hqf : q = final
      · rw [if_pos hqf, hqf, h.file]
      · rw [if_neg hqf, if_neg hq, hget, if_neg hqi, if_neg hq, if_neg hqf]
  constructor
  · intro hnothing
    exact hnothing.none (h.not_own hne hne' hfinal) hgone
  · intro hnone
    have hname : fs2.get original = some (.link i) := (hback _ hne.symm).trans h.name
    have hlink : fs2.get i = some (.link final) := (hback _ hne'.symm).trans h.link
    have hfile : fs2.get final = some (.file d) := (hback _ hfinal.symm).trans h.file
    refine ⟨fun node hcontent => ?_, fun q node _ hthere => ?_⟩
    · rw [h.content] at hcontent
      rw [← hcontent]
      exact contentAt_chain hname h.l2s hlink hfile
    · have hqn : q ≠ newFinal := by
        rintro rfl
        rw [hnone] at hthere
        cases hthere
      exact (hback q hqn).trans hthere

/-- Where the count is not above zero, a link that is taken back takes its file with it, unless the
intermediate link cannot be removed. -/
theorem further_dropped_iff (h : EmulatedName fs original i final d) (hne : newFinal ≠ original)
    (hne' : newFinal ≠ i) (hfinal : newFinal ≠ final) (hshort : newFinal.length < pathMax)
    (hfits : fits i = true) (hget : FinalMoved fs fs1 i newFinal final d) :
    LosesNothing fs (after (do
        callAt refuses .dropAgain fun fs => fs.unlink i
        callAt refuses .dropFinal fun fs => fs.unlink newFinal : HostM α Unit) fs1) original ↔
      refuses .dropAgain = true ∧ Spare fs newFinal (.file d) := by
  have hmoved := h.moved hne hne' hshort hget
  have hunlink := unlink_ok hfits hmoved.link link_ne_dir
  unfold after
  cases hdrop : refuses .dropAgain with
  | true =>
      rw [bind_error (callAt_refused (not_performed hdrop))]
      rw [further_kept_iff h hne hne' hfinal hshort hget]
      exact (and_iff_right rfl).symm
  | false =>
      rw [bind_ok (callAt_performed hdrop hunlink)]
      refine iff_of_false ?_ (fun hfalse => by cases hfalse.1)
      have hlost : ∀ fs2 : Files α, fs2.get original = some (.link i) → fs2.get i = none →
          ¬ LosesNothing fs fs2 original := by
        intro fs2 hname hgone
        refine not_losesNothing h.content ?_
        rw [contentAt_broken hname h.l2s (Or.inl hgone)]
        exact (Option.some_ne_none _).symm
      have hname : (fs1.erase i).get original = some (.link i) := by
        rw [Files.get_erase, if_neg h.original_ne, hmoved.name]
      have hgone : (fs1.erase i).get i = none := by
        rw [Files.get_erase, if_pos rfl]
      by_cases hlast : Performed refuses .dropFinal ((fs1.erase i).unlink newFinal)
      · obtain ⟨fs2, hunlink'⟩ := isOk_ok hlast.2
        rw [callAt_performed hlast.1 hunlink']
        obtain ⟨-, -, rfl⟩ := unlink_inv hunlink'
        apply hlost
        · rw [Files.get_erase, if_neg hne.symm, hname]
        · rw [Files.get_erase, if_neg hne'.symm, hgone]
      · rw [callAt_refused hlast]
        exact hlost _ hname hgone

/-- **What is left of a further link** once the new name could not be made. -/
theorem further_undone_iff (h : EmulatedName fs original i final d)
    (hchain : Chained fs original i final) (hnew : newFinal = withCount final (linkCount final + 1))
    (hfits : fits final = true) (hfits' : fits newFinal = true)
    (hget : FinalMoved fs fs1 i newFinal final d) :
    LosesNothing fs (after (decrementLinkCountAt refuses original) fs1) original ↔
      FurtherUndone refuses fs final (.file d) := by
  have hne : newFinal ≠ original := hnew ▸ hchain.apart.1
  have hne' : newFinal ≠ i := hnew ▸ hchain.apart.2
  have hfinal : newFinal ≠ final := hnew ▸ withCount_ne final
  have hshort := fits_length hfits'
  have hmoved := h.moved hne hne' hshort hget
  have hcount := linkCount_next hchain.counted
  rw [← hnew] at hcount
  have hrun := @decrementLinkCountAt_link _ refuses _ _ _ _ hmoved.name h.l2s h.short hmoved.link
    hshort
  unfold FurtherUndone
  simp only
  rw [← hnew]
  by_cases hrange : 0 < linkCount final ∧ linkCount final < 9999
  · obtain ⟨hback, hlength⟩ := withCount_next hchain.counted hrange.2
    rw [← hnew] at hback hlength
    rw [if_pos hrange.2] at hcount
    have hminus : linkCount newFinal - 1 = linkCount final := by omega
    rw [hminus, if_pos hrange.1, hback] at hrun
    have hgone : fs1.get final = none := by
      rw [hget, if_neg h.ne_final.symm, if_neg hfinal.symm, if_pos rfl]
    have hperformed : Performed refuses .moveBack (fs1.rename newFinal final .none) ↔
        refuses .moveBack = false := by
      rw [Performed, rename_file_isOk hmoved.file hfinal (apart_of_length hlength hfinal) hfits'
        hfits, hgone]
      exact and_iff_left (Option.some_ne_none _).symm
    have hspec : Moving refuses .moveBack .dropAgain .linkAgain fs1 i newFinal final (.file d)
        (moveFinalAt refuses .moveBack .dropAgain .linkAgain i newFinal final fs1) :=
      moveFinalAt_cases _ _ _ hmoved.file file_ne_dir hmoved.link h.ne_final hne'.symm hchain.fits
    rw [after, hrun, if_pos hrange]
    generalize moveFinalAt refuses .moveBack .dropAgain .linkAgain i newFinal final fs1 = result
      at hspec
    cases hspec with
    | kept hnot =>
        rw [hperformed, Bool.not_eq_false] at hnot
        rw [if_pos hnot]
        exact further_kept_iff h hne hne' hfinal hshort hget
    | torn hmove hrefused fs2 hintermediate hothers =>
        rw [hperformed] at hmove
        rw [hmove, if_neg Bool.false_ne_true]
        refine iff_of_false (not_losesNothing h.content ?_) ?_
        · rw [hmoved.torn_lost h.original_ne_final.symm hfinal.symm hintermediate hothers]
          exact (Option.some_ne_none _).symm
        · rintro ⟨-, hdrop, hlink⟩
          rw [hdrop, hlink] at hrefused
          rcases hrefused with hrefused | hrefused
          · cases hrefused
          · cases hrefused
    | moved hmove hdrop hlink fs2 hget2 =>
        rw [hperformed] at hmove
        rw [hmove, if_neg Bool.false_ne_true, hdrop, hlink]
        show LosesNothing fs fs2 original ↔ _
        rw [further_back_iff h hne hne' hfinal hget hget2]
        exact (and_iff_left ⟨rfl, rfl⟩).symm
  · rw [if_neg hrange]
    have hzero : ¬ linkCount newFinal - 1 > 0 := by
      rw [hcount]
      split <;> omega
    rw [if_neg hzero] at hrun
    have hsame : after (decrementLinkCountAt refuses original) fs1 = after (do
        callAt refuses .dropAgain fun fs => fs.unlink i
        callAt refuses .dropFinal fun fs => fs.unlink newFinal : HostM α Unit) fs1 := by
      rw [after, after, hrun]
    rw [hsame]
    exact further_dropped_iff h hne hne' hfinal hshort hchain.fits hget

/-- Where a further link has been made, the new name is free as it was before, but for the final
file. -/
theorem EmulatedName.nameMade_iff {newName : CStr} (h : EmulatedName fs original i final d)
    (hget : FinalMoved fs fs1 i newFinal final d) :
    NameMade refuses fs1 newName ↔ NewNameMade refuses fs newName [newFinal] [final] := by
  have hfree : fs1.get newName = none ↔
      newName ∉ [newFinal] ∧ (newName ∈ [final] ∨ fs.get newName = none) := by
    rw [hget, List.mem_singleton, List.mem_singleton]
    by_cases hqi : newName = i
    · subst hqi
      rw [if_pos rfl]
      simp [h.ne_final, h.link]
    · rw [if_neg hqi]
      by_cases hqn : newName = newFinal
      · rw [if_pos hqn]
        simp [hqn]
      · rw [if_neg hqn]
        by_cases hqf : newName = final
        · rw [if_pos hqf]
          exact iff_of_true rfl ⟨hqn, Or.inl hqf⟩
        · rw [if_neg hqf]
          simp [hqf, hqn]
  unfold NameMade NewNameMade
  rw [hfree]

/-- A further link of a file that is there. -/
theorem furtherSafe_iff {newName : CStr} (hfile : fs.get final = some (.file d))
    (hnew : withCount final (linkCount final + 1) = newFinal) :
    FurtherSafe refuses fs newName final ↔
      (Performed refuses .moveAway (fs.rename final newFinal .none) →
        (refuses .dropIntermediate = false ∧ refuses .linkIntermediate = false) ∧
          (¬ NewNameMade refuses fs newName [newFinal] [final] →
            FurtherUndone refuses fs final (.file d))) := by
  subst hnew
  constructor
  · intro hsafe
    exact hsafe _ hfile
  · intro hone node hnode
    obtain rfl := Option.some.inj (hfile.symm.trans hnode)
    exact hone

/-- **When an emulated hard link is linked.** -/
theorem emulated_link_iff {newName : CStr} (hname : fs.get original = some (.link i))
    (hl2s : isL2s i = true) (hshort : i.length < pathMax) (horder : InOrder fs original) :
    (∀ status fs', (furtherLinkAt refuses i >>= fun i =>
        symlinkNewNameAt refuses original i newName) fs = .error status fs' →
      LosesNothing fs fs' original) ↔
      ∀ final, myReadlink fs i = .ok final → FurtherSafe refuses fs newName final := by
  cases hread : myReadlink fs i with
  | error status =>
      have hrun : furtherLinkAt refuses i fs = .error status fs := by
        unfold furtherLinkAt
        rw [get_bind, bind_error (orFail_error hread)]
      rw [onError_error (bind_error hrun _)]
      exact iff_of_true LosesNothing.refl nofun
  | ok final =>
      obtain ⟨hlink, hshort'⟩ := myReadlink_inv hread
      have hchain := horder i final hname hl2s hlink
      have hsafe : (∀ final', (.ok final : Except Errno CStr) = .ok final' →
          FurtherSafe refuses fs newName final') ↔ FurtherSafe refuses fs newName final := by
        constructor
        · intro hall
          exact hall final rfl
        · rintro hsafe _ ⟨⟩
          exact hsafe
      rw [hsafe]
      generalize hnew : withCount final (linkCount final + 1) = newFinal
      have hstart : furtherLinkAt refuses i fs =
          (moveFinalAt refuses .moveAway .dropIntermediate .linkIntermediate i final newFinal >>=
            fun _ => pure i) fs := by
        unfold furtherLinkAt
        rw [get_bind, bind_ok (orFail_ok hread), hnew]
      cases hfile : fs.get final with
      | none =>
          have hnot : ¬ Performed refuses .moveAway (fs.rename final newFinal .none) := by
            intro hmove
            have hok := hmove.2
            rw [rename_missing hfile] at hok
            cases hok
          have hrun : furtherLinkAt refuses i fs = .error .EPERM fs := by
            rw [hstart]
            unfold moveFinalAt
            exact bind_error (bind_error (callAt_refused hnot) _) _
          rw [onError_error (bind_error hrun _)]
          refine iff_of_true LosesNothing.refl fun node hnode => ?_
          rw [hfile] at hnode
          cases hnode
      | some node =>
          obtain ⟨d, rfl⟩ := hchain.file node hfile
          have h : EmulatedName fs original i final d := ⟨hname, hl2s, hlink, hfile, hshort, hshort'⟩
          have hne : newFinal ≠ original := hnew ▸ hchain.apart.1
          have hne' : newFinal ≠ i := hnew ▸ hchain.apart.2
          have hfinal : newFinal ≠ final := hnew ▸ withCount_ne final
          have hspec : Moving refuses .moveAway .dropIntermediate .linkIntermediate fs i final
              newFinal (.file d) (moveFinalAt refuses .moveAway .dropIntermediate
                .linkIntermediate i final newFinal fs) :=
            moveFinalAt_cases _ _ _ hfile file_ne_dir hlink hne'.symm h.ne_final hchain.fits
          rw [furtherSafe_iff hfile hnew]
          generalize hrun : moveFinalAt refuses .moveAway .dropIntermediate .linkIntermediate i
            final newFinal fs = result at hspec
          cases hspec with
          | kept hnot =>
              rw [onError_error (bind_error (hstart.trans (bind_error hrun _)) _)]
              exact iff_of_true LosesNothing.refl fun hmove => absurd hmove hnot
          | torn hmove hrefused fs1 hintermediate hothers =>
              rw [onError_error (bind_error (hstart.trans (bind_error hrun _)) _)]
              refine iff_of_false (not_losesNothing h.content ?_) ?_
              · rw [h.torn_lost hne hfinal hintermediate hothers]
                exact (Option.some_ne_none _).symm
              · intro hsafe
                obtain ⟨⟨hdrop, hrelink⟩, -⟩ := hsafe hmove
                rw [hdrop, hrelink] at hrefused
                rcases hrefused with hrefused | hrefused
                · cases hrefused
                · cases hrefused
          | moved hmove hdrop hrelink fs1 hget =>
              obtain ⟨fs2, hrename⟩ := isOk_ok hmove.2
              obtain ⟨hfits, hfits'⟩ := rename_fits hrename
              have hdone : furtherLinkAt refuses i fs = .ok i fs1 :=
                hstart.trans (bind_ok hrun _)
              rw [bind_ok hdone, symlinkNewNameAt_error_iff hshort, h.nameMade_iff hget,
                further_undone_iff h hchain hnew.symm hfits hfits' hget]
              constructor
              · intro hundone
                exact fun _ => ⟨⟨hdrop, hrelink⟩, hundone⟩
              · intro hsafe
                exact (hsafe hmove).2

end Further

/-! ## All links -/

/-- **When a failed link loses nothing.** -/
theorem failed_link_iff {l2sDirectory : Option CStr} {newName : CStr}
    (horder : InOrder fs original) :
    FailsSafely refuses l2sDirectory fs original newName ↔
      LinkSafe refuses l2sDirectory fs original newName := by
  have hsuccess : ∀ fs', moveAndSymlinkPathAt refuses l2sDirectory original newName fs =
      .ok () fs' → moveAndSymlinkPath l2sDirectory original newName true fs = .ok () fs' :=
    fun fs' hrun => moveAndSymlinkPathAt_ok l2sDirectory original newName () fs fs' hrun
  unfold FailsSafely LinkSafe
  rw [and_iff_right hsuccess]
  unfold moveAndSymlinkPathAt
  rw [get_bind]
  cases hnode : fs.get original with
  | none => exact iff_of_true (fun status fs' hrun => by cases hrun; exact .refl) trivial
  | some node =>
      cases node with
      | dir => exact iff_of_true (fun status fs' hrun => by cases hrun; exact .refl) trivial
      | file d =>
          simp only
          cases hpath : intermediatePath l2sDirectory original with
          | error status =>
              rw [onError_error (bind_error (orFail_error rfl) _)]
              exact iff_of_true .refl nofun
          | ok path =>
              rw [bind_ok (orFail_ok rfl), file_link_iff hnode hpath]
              constructor
              · rintro hsafe _ ⟨⟩
                exact hsafe
              · intro hall
                exact hall path rfl
      | link target =>
          simp only [get_bind]
          by_cases hshort : target.length < pathMax
          · rw [bind_ok (orFail_ok (myReadlink_ok hnode hshort)), forall_prop_of_true hshort]
            by_cases hl2s : isL2s target = true
            · rw [if_pos hl2s, if_pos hl2s]
              exact emulated_link_iff hnode hl2s hshort horder
            · rw [if_neg hl2s, if_neg hl2s]
              exact link_link_iff hnode (Bool.eq_false_iff.mpr hl2s)
          · have hlong : myReadlink fs original = .error .ENAMETOOLONG := by
              unfold myReadlink Files.readlink
              rw [hnode]
              exact if_pos (by omega)
            rw [onError_error (bind_error (orFail_error hlong) _)]
            exact iff_of_true .refl fun h => absurd h hshort

/-- Where the new name is taken, a file that is linked to it stays. -/
theorem failed_link_taken :
    FailsSafely (fun _ => false) none
      ([("/d/a".toList, .file 1), ("/d/b".toList, .file 2)] : Files Nat)
      "/d/a".toList "/d/b".toList := by
  refine (failed_link_iff ?_).mpr ?_
  · intro i final hname
    cases hname
  · intro path hpath
    have hpath' : intermediatePath none "/d/a".toList = .ok "/d/.l2s.a".toList := by decide
    obtain rfl := Except.ok.inj (hpath'.symm.trans hpath)
    intro _
    refine ⟨⟨by decide, rfl, rfl⟩, fun _ => ⟨by decide, ?_, fun _ _ => ?_⟩⟩
    · rintro (h | h)
      · cases h
      · exact absurd h (by decide)
    · exact ⟨by decide, Or.inl (by decide), rfl, rfl⟩

/-- A file beside an intermediate link that an earlier run has left behind. -/
def leftoverFiles : Files Nat :=
  [("/d/a".toList, .file 1), ("/d/.l2s.a0001".toList, .link "/d/.l2s.a0001.0002".toList)]

/-- The leftover is not seen, as it leads nowhere, and it is in the way: the file has no name any
more. -/
theorem failed_link_loses :
    (∃ fs', moveAndSymlinkPathAt (fun _ => false) none "/d/a".toList "/d/b".toList leftoverFiles =
        .error .EPERM fs' ∧ fs'.get "/d/a".toList = none) ∧
      ¬ FailsSafely (fun _ => false) none leftoverFiles "/d/a".toList "/d/b".toList := by
  have hrun : ∃ fs', moveAndSymlinkPathAt (fun _ => false) none "/d/a".toList "/d/b".toList
      leftoverFiles = .error .EPERM fs' ∧ fs'.get "/d/a".toList = none := by
    refine ⟨(leftoverFiles.erase "/d/.l2s.a0001.0002".toList).moveTree false "/d/a".toList
      "/d/.l2s.a0001.0002".toList, ?_, by decide⟩
    rfl
  refine ⟨hrun, ?_⟩
  obtain ⟨fs', herror, hgone⟩ := hrun
  intro hsafe
  have hcontent := (hsafe.2 _ _ herror).content (.file 1) rfl
  rw [contentAt_gone hgone] at hcontent
  cases hcontent

end PRoot
