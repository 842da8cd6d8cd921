import PRoot.LinkGroups

/-!
# What each step of the emulation does

One specification for each function of `link2symlink.c`, on files whose hard links are
sound.

* `moveFinal_spec`, `decrementLinkCount_spec`: a count that changes;
* `firstLink_spec`, `furtherLink_spec`: a name more.
-/

namespace PRoot

variable {α : Type}

/-! ## Calls in a row -/

section

variable {β γ : Type} {fs fs' : Files α}

theorem bind_ok {x : HostM α β} {b : β} (h : x fs = .ok b fs') (k : β → HostM α γ) :
    (x >>= k) fs = k b fs' := by
  show EStateM.bind x k fs = _
  rw [EStateM.bind, h]

theorem bind_error {x : HostM α β} {status : Errno} (h : x fs = .error status fs')
    (k : β → HostM α γ) : (x >>= k) fs = .error status fs' := by
  show EStateM.bind x k fs = _
  rw [EStateM.bind, h]

theorem call_ok {op : Files α → Except Errno (Files α)} (h : op fs = .ok fs') :
    call op fs = .ok () fs' := by
  rw [call, h]

theorem call_error {op : Files α → Except Errno (Files α)} {status : Errno}
    (h : op fs = .error status) : call op fs = .error .EPERM fs := by
  rw [call, h]

theorem orFail_ok {value : Except Errno β} {b : β} (h : value = .ok b) :
    orFail value fs = .ok b fs := by
  rw [h]
  rfl

theorem orFail_error {value : Except Errno β} {status : Errno} (h : value = .error status) :
    orFail value fs = .error status fs := by
  rw [h]
  rfl

end

/-! ## Calls on the host -/

section

variable {fs : Files α}

theorem apart_of_length {a b : CStr} (hlength : a.length = b.length) (hne : a ≠ b) :
    Apart a b := by
  have hside : ∀ {a b : CStr}, a.length = b.length → a ≠ b → under true a b = false := by
    intro a b hlength hne
    refine Bool.eq_false_iff.mpr fun hunder => ?_
    obtain ⟨rest, rfl, -⟩ := under_iff.mp hunder
    have hrest : rest = [] := List.length_eq_zero_iff.mp (by
      rw [List.length_append] at hlength
      omega)
    rw [hrest, List.append_nil] at hne
    exact hne rfl
  exact ⟨hside hlength hne, hside hlength.symm hne.symm⟩

theorem symlink_ok {target path : CStr} (htarget : target.length < pathMax)
    (hfits : fits path = true) (hget : fs.get path = none) :
    fs.symlink target path = .ok (fs.set path (.link target)) := by
  unfold Files.symlink
  rw [if_neg, hget]
  · rfl
  · rw [not_or, hfits]
    exact ⟨by omega, by decide⟩

theorem symlink_inv {target path : CStr} {fs' : Files α} (h : fs.symlink target path = .ok fs') :
    target.length < pathMax ∧ fits path = true ∧ fs.get path = none ∧
      fs' = fs.set path (.link target) := by
  unfold Files.symlink at h
  split at h
  · cases h
  · rename_i hfits
    rw [not_or, Bool.not_eq_false] at hfits
    split at h
    · cases h
    · rename_i hget
      exact ⟨by omega, hfits.2, Option.not_isSome_iff_eq_none.mp hget, (Except.ok.inj h).symm⟩

theorem unlink_ok {path : CStr} {node : FileNode α} (hfits : fits path = true)
    (hget : fs.get path = some node) (hdir : node ≠ .dir) :
    fs.unlink path = .ok (fs.erase path) := by
  unfold Files.unlink
  rw [if_neg (by rw [hfits]; decide), hget]
  cases node with
  | dir => exact absurd rfl hdir
  | file data => rfl
  | link target => rfl

/-- A file that is moved out of the way of nothing. -/
theorem rename_file {old new : CStr} {d : α} (hold : fs.get old = some (.file d))
    (hnew : fs.get new = none) (hapart : Apart old new) (hne : old ≠ new)
    (hfold : fits old = true) (hfnew : fits new = true) :
    fs.rename old new .none = .ok (fs.replace old new .none false) := by
  unfold Files.rename
  rw [hold, hnew, hfold, hfnew, hapart.left, hapart.right]
  exact if_neg hne

theorem myReadlink_ok {path target : CStr} (hget : fs.get path = some (.link target))
    (hlength : target.length < pathMax) : myReadlink fs path = .ok target := by
  unfold myReadlink Files.readlink
  rw [hget]
  exact if_neg (by omega)

end

/-! ## The count changes -/

section

variable {fs : Files α} {i : CStr} {n m : Nat} {d : α}

theorem Group.final_length (h : Group fs i n d) : (finalOf i n).length < pathMax := by
  have hfits := h.fits
  unfold PRoot.fits at hfits
  rw [Bool.and_eq_true, decide_eq_true_iff] at hfits
  exact hfits.1

theorem Group.length (h : Group fs i n d) : i.length < pathMax := by
  have hlength := h.final_length
  rw [finalOf_length h.le] at hlength
  omega

/-- The final file gets another name, and the intermediate link leads there. -/
theorem moveFinal_spec (hg : Group fs i n d) (hm : m ≤ 9999) (hne : m ≠ n)
    (hfree : fs.get (finalOf i m) = none) :
    ∃ fs', moveFinal i (finalOf i n) (finalOf i m) fs = .ok () fs' ∧
      ∀ q, fs'.get q =
        if q = i then some (.link (finalOf i m))
        else if q = finalOf i m then some (.file d)
        else if q = finalOf i n then none
        else fs.get q := by
  have hfits := fits_finalOf hg.le hm hg.fits
  have hlength : (finalOf i n).length = (finalOf i m).length := by
    rw [finalOf_length hg.le, finalOf_length hm]
  have hfinal : finalOf i n ≠ finalOf i m := fun h => hne (finalOf_inj hg.le hm h).2.symm
  have hapart := apart_of_length hlength hfinal
  have hget := fs.get_replace hapart
  have hlink : (fs.replace (finalOf i n) (finalOf i m) .none false).get i =
      some (.link (finalOf i n)) := by
    rw [hget, if_neg finalOf_ne.symm, if_neg finalOf_ne.symm]
    exact hg.link
  have hi := fits_of_finalOf hg.le hg.fits
  refine ⟨((fs.replace (finalOf i n) (finalOf i m) .none false).erase i).set i
    (.link (finalOf i m)), ?_, ?_⟩
  · unfold moveFinal
    rw [bind_ok (call_ok (rename_file hg.file hfree hapart hfinal hg.fits hfits)),
      bind_ok (call_ok (unlink_ok hi hlink nofun))]
    refine call_ok (symlink_ok ?_ hi ?_)
    · rw [← hlength]
      exact hg.final_length
    · rw [Files.get_erase, if_pos rfl]
  · intro q
    rw [Files.get_set]
    by_cases hq : q = i
    · rw [if_pos hq, if_pos hq]
    · rw [if_neg hq, if_neg hq, Files.get_erase, if_neg hq, hget, hg.file]

/-- The same pair of files, with another count. -/
theorem Group.recount (hg : Group fs i n d) (hpos : 1 ≤ m) (hm : m ≤ 9999) (hne : m ≠ n)
    (hfree : fs.get (finalOf i m) = none) {fs' : Files α}
    (hget : ∀ q, PRoot.isL2s q = true → fs'.get q =
      if q = i then some (.link (finalOf i m))
      else if q = finalOf i m then some (.file d)
      else if q = finalOf i n then none
      else fs.get q) :
    PairChange fs fs' i (some (n, d)) (some (m, d)) := by
  have hfinal : finalOf i n ≠ finalOf i m := fun h => hne (finalOf_inj hg.le hm h).2.symm
  have hin : ∀ {k q}, InPair i (some (k, d)) q ↔ q = i ∨ q = finalOf i k := by
    intro k q
    constructor
    · rintro (rfl | ⟨_, _, heq, rfl⟩)
      · exact Or.inl rfl
      · obtain ⟨rfl, rfl⟩ := Prod.mk.inj (Option.some.inj heq)
        exact Or.inr rfl
    · rintro (rfl | rfl)
      · exact Or.inl rfl
      · exact Or.inr ⟨k, d, rfl, rfl⟩
  have hlink : fs'.get i = some (.link (finalOf i m)) := by
    rw [hget i hg.isL2s, if_pos rfl]
  refine ⟨hg, ⟨hg.isL2s, hlink, ?_, hpos, hm, fits_finalOf hg.le hm hg.fits⟩, ?_, ?_, ?_⟩
  · rw [hget _ (finalOf_isL2s hg.isL2s m), if_neg finalOf_ne, if_pos rfl]
  · intro q hq hnot
    rw [hin] at hq hnot
    rcases hq with rfl | rfl
    · exact absurd (Or.inl rfl) hnot
    · exact hfree
  · intro q hq hnot
    rw [hin] at hq hnot
    rcases hq with rfl | rfl
    · exact absurd (Or.inl rfl) hnot
    · rw [hget _ (finalOf_isL2s hg.isL2s n), if_neg finalOf_ne, if_neg hfinal, if_pos rfl]
  · intro q hl2s hold hnew
    rw [hin, not_or] at hold hnew
    rw [hget q hl2s, if_neg hold.1, if_neg hnew.2, if_neg hold.2]

/-- The pair of files goes. -/
theorem Group.remove (hg : Group fs i n d) {fs' : Files α}
    (hget : ∀ q, PRoot.isL2s q = true → fs'.get q =
      if q = i ∨ q = finalOf i n then none else fs.get q) :
    PairChange fs fs' i (some (n, d)) none := by
  refine ⟨hg, ?_, ?_, ?_, ?_⟩
  · exact (hget i hg.isL2s).trans (if_pos (Or.inl rfl))
  · rintro q (rfl | ⟨_, _, heq, -⟩) hnot
    · exact absurd (Or.inl rfl) hnot
    · cases heq
  · rintro q (rfl | ⟨_, _, heq, rfl⟩) -
    · exact (hget q hg.isL2s).trans (if_pos (Or.inl rfl))
    · obtain ⟨rfl, rfl⟩ := Prod.mk.inj (Option.some.inj heq)
      exact (hget _ (finalOf_isL2s hg.isL2s n)).trans (if_pos (Or.inr rfl))
  · intro q hl2s hold _
    refine (hget q hl2s).trans (if_neg ?_)
    rintro (rfl | rfl)
    · exact hold (Or.inl rfl)
    · exact hold (Or.inr ⟨n, d, rfl, rfl⟩)

/-- What is left of a pair of files when its count goes down. -/
def lessOne (n : Nat) (d : α) : Option (Nat × α) := if n - 1 = 0 then none else some (n - 1, d)

/-- **`decrement_link_count` takes one from the count** of the file behind a name, and
leaves the tracee's names alone. -/
theorem decrementLinkCount_spec (hg : Group fs i n d) {path : CStr}
    (hname : (hardLinks fs).names path = some i)
    (hclear : n ≠ 1 → fs.get (finalOf i (n - 1)) = none) :
    ∃ fs', decrementLinkCount path fs = .ok () fs' ∧
      (∀ q, isL2s q = false → fs'.get q = fs.get q) ∧
      PairChange fs fs' i (some (n, d)) (lessOne n d) := by
  obtain ⟨hguest, hl2s, hget⟩ := names_eq_some_iff.mp hname
  have hread := myReadlink_ok hget hg.length
  have hread' := myReadlink_ok hg.link hg.final_length
  have hcount := linkCount_finalOf (i := i) hg.le
  have hpos := hg.pos
  have hrun : decrementLinkCount path fs =
      (if linkCount (finalOf i n) - 1 > 0 then
        moveFinal i (finalOf i n) (withCount (finalOf i n) (linkCount (finalOf i n) - 1))
      else (do
        call fun fs => fs.unlink i
        call fun fs => fs.unlink (finalOf i n))) fs := by
    unfold decrementLinkCount
    rw [bind_ok (show (get : HostM α (Files α)) fs = .ok fs fs from rfl), hget]
    simp only
    rw [bind_ok (show (get : HostM α (Files α)) fs = .ok fs fs from rfl),
      bind_ok (orFail_ok hread), hl2s, if_pos rfl,
      bind_ok (show (get : HostM α (Files α)) fs = .ok fs fs from rfl), hread']
  rw [hrun, hcount]
  by_cases hone : n = 1
  · subst hone
    have hi := fits_of_finalOf hg.le hg.fits
    have hnext : (fs.erase i).get (finalOf i 1) = some (.file d) := by
      rw [Files.get_erase, if_neg finalOf_ne]
      exact hg.file
    have hgone : ∀ q, ((fs.erase i).erase (finalOf i 1)).get q =
        if q = i ∨ q = finalOf i 1 then none else fs.get q := by
      intro q
      rw [Files.get_erase, Files.get_erase]
      by_cases hq : q = finalOf i 1
      · rw [if_pos hq, if_pos (Or.inr hq)]
      · rw [if_neg hq]
        by_cases hqi : q = i
        · rw [if_pos hqi, if_pos (Or.inl hqi)]
        · rw [if_neg hqi, if_neg (not_or.mpr ⟨hqi, hq⟩)]
    refine ⟨(fs.erase i).erase (finalOf i 1), ?_, ?_, hg.remove fun q _ => hgone q⟩
    · rw [if_neg (by decide), bind_ok (call_ok (unlink_ok hi hg.link nofun))]
      exact call_ok (unlink_ok hg.fits hnext nofun)
    · intro q hq
      rw [hgone, if_neg]
      rintro (rfl | rfl)
      · rw [hl2s] at hq
        cases hq
      · rw [finalOf_isL2s hl2s] at hq
        cases hq
  · have hcast : (n : Int) - 1 = (n - 1 : Nat) := by omega
    have hle := hg.le
    obtain ⟨fs', hmove, hget'⟩ :=
      moveFinal_spec hg (show n - 1 ≤ 9999 by omega) (by omega) (hclear hone)
    refine ⟨fs', ?_, ?_, ?_⟩
    · rw [if_pos (by omega), hcast, withCount_finalOf hg.le]
      exact hmove
    · intro q hq
      have hno : ∀ {q'}, isL2s q' = true → q ≠ q' := by
        rintro q' hq' rfl
        rw [hq] at hq'
        cases hq'
      rw [hget', if_neg (hno hl2s), if_neg (hno (finalOf_isL2s hl2s _)),
        if_neg (hno (finalOf_isL2s hl2s _))]
    · rw [lessOne, if_neg (by omega)]
      exact hg.recount (by omega) (by omega) (by omega) (hclear hone) fun q _ => hget' q

/-- **`decrement_link_count` does nothing** to a path that is no name of the
emulation's. -/
theorem decrementLinkCount_skip {path : CStr} (hguest : isL2s path = false)
    (hname : (hardLinks fs).names path = none) :
    decrementLinkCount path fs = .ok () fs ∨
      ∃ status, decrementLinkCount path fs = .error status fs := by
  unfold decrementLinkCount
  rw [bind_ok (show (get : HostM α (Files α)) fs = .ok fs fs from rfl)]
  cases hget : fs.get path with
  | none => exact Or.inl rfl
  | some node =>
      cases node with
      | file data => exact Or.inl rfl
      | dir => exact Or.inl rfl
      | link target =>
          simp only
          rw [bind_ok (show (get : HostM α (Files α)) fs = .ok fs fs from rfl)]
          cases hread : myReadlink fs path with
          | error status => exact Or.inr ⟨status, bind_error (orFail_error rfl) _⟩
          | ok value =>
              have hvalue : value = target := by
                unfold myReadlink Files.readlink at hread
                rw [hget] at hread
                simp only at hread
                split at hread
                · cases hread
                · exact (Except.ok.inj hread).symm
              have hplain : isL2s value = false := by
                by_contra hl2s
                rw [Bool.not_eq_false] at hl2s
                rw [names_eq_some_iff.mpr ⟨hguest, hl2s, hvalue ▸ hget⟩] at hname
                cases hname
              left
              rw [bind_ok (orFail_ok rfl), hplain]
              rfl

end

/-! ## A name more -/

section

variable {fs : Files α} {i : CStr} {n : Nat} {d : α}

/-- **A further link adds one to the count.** -/
theorem furtherLink_spec (hg : Group fs i n d) (hn : n < 9999)
    (hfree : fs.get (finalOf i (n + 1)) = none) :
    ∃ fs', furtherLink i fs = .ok i fs' ∧ (∀ q, isL2s q = false → fs'.get q = fs.get q) ∧
      PairChange fs fs' i (some (n, d)) (some (n + 1, d)) := by
  have hread := myReadlink_ok hg.link hg.final_length
  have hcast : (n : Int) + 1 = (n + 1 : Nat) := rfl
  obtain ⟨fs', hmove, hget⟩ := moveFinal_spec hg (show n + 1 ≤ 9999 by omega) (by omega) hfree
  refine ⟨fs', ?_, ?_, ?_⟩
  · unfold furtherLink
    rw [bind_ok (show (get : HostM α (Files α)) fs = .ok fs fs from rfl), bind_ok (orFail_ok hread),
      linkCount_finalOf hg.le, hcast, withCount_finalOf hg.le, bind_ok hmove]
    rfl
  · intro q hq
    have hno : ∀ {q'}, isL2s q' = true → q ≠ q' := by
      rintro q' hq' rfl
      rw [hq] at hq'
      cases hq'
    rw [hget, if_neg (hno hg.isL2s), if_neg (hno (finalOf_isL2s hg.isL2s _)),
      if_neg (hno (finalOf_isL2s hg.isL2s _))]
  · exact hg.recount (by omega) (by omega) (by omega) hfree fun q _ => hget q

/-- A file that is moved to where nothing was, if the host lets it. -/
theorem rename_file_cases {old new : CStr} (hold : fs.get old = some (.file d))
    (hnew : fs.get new = none) (hne : old ≠ new) :
    (∃ status, fs.rename old new .none = .error status) ∨
      (Apart old new ∧ fits old = true ∧ fits new = true ∧
        fs.rename old new .none = .ok (fs.replace old new .none false)) := by
  by_cases hfold : fits old = true
  case neg =>
    rw [Bool.not_eq_true] at hfold
    refine Or.inl ⟨.ENAMETOOLONG, ?_⟩
    unfold Files.rename
    rw [hfold]
    rfl
  by_cases hfnew : fits new = true
  case neg =>
    rw [Bool.not_eq_true] at hfnew
    refine Or.inl ⟨.ENAMETOOLONG, ?_⟩
    unfold Files.rename
    rw [hfold, hfnew]
    rfl
  by_cases hleft : under true old new = true
  · refine Or.inl ⟨.EINVAL, ?_⟩
    unfold Files.rename
    rw [hold, hnew, hfold, hfnew, hleft]
    exact if_neg hne
  rw [Bool.not_eq_true] at hleft
  by_cases hright : under true new old = true
  · refine Or.inl ⟨.ENOTEMPTY, ?_⟩
    unfold Files.rename
    rw [hold, hnew, hfold, hfnew, hleft, hright]
    exact if_neg hne
  rw [Bool.not_eq_true] at hright
  have hapart : Apart old new := ⟨hleft, hright⟩
  exact Or.inr ⟨hapart, hfold, hfnew, rename_file hold hnew hapart hne hfold hfnew⟩

theorem firstLink_eq (original path : CStr) : firstLink original path fs = (do
    call fun fs' => fs'.rename original (finalOf (newIntermediate fs path) 2) .none
    call fun fs' => fs'.symlink (finalOf (newIntermediate fs path) 2) (newIntermediate fs path)
    call fun fs' => fs'.symlink (newIntermediate fs path) original
    return newIntermediate fs path) fs := rfl

theorem ne_of_isL2s {p q : CStr} (hp : isL2s p = true) (hq : isL2s q = false) : p ≠ q := by
  rintro rfl
  cases hp.symm.trans hq

/-- **The first link** makes a pair of files, of which the old name is a name; or the host
refuses to move the file, and nothing changes. -/
theorem firstLink_spec {original path : CStr} (hold : fs.get original = some (.file d))
    (hguest : isL2s original = false) (hpath : isL2s path = true)
    (hfree : fs.get (newIntermediate fs path) = none)
    (hfinal : fs.get (finalOf (newIntermediate fs path) 2) = none) :
    (∃ status, firstLink original path fs = .error status fs) ∨
    ∃ fs', firstLink original path fs = .ok (newIntermediate fs path) fs' ∧
      (∀ q, isL2s q = false → fs'.get q =
        if q = original then some (.link (newIntermediate fs path)) else fs.get q) ∧
      PairChange fs fs' (newIntermediate fs path) none (some (2, d)) := by
  have hi := newIntermediate_isL2s fs hpath
  rw [firstLink_eq]
  generalize newIntermediate fs path = i at *
  have hf := finalOf_isL2s hi 2
  have hne : ∀ {q}, isL2s q = true → original ≠ q := fun hq => (ne_of_isL2s hq hguest).symm
  rcases rename_file_cases hold hfinal (hne hf) with ⟨status, herror⟩ | ⟨hapart, hfold, hfnew, hrename⟩
  · exact Or.inl ⟨.EPERM, bind_error (call_error herror) _⟩
  · right
    have hget := fs.get_replace hapart
    have hfits := fits_of_finalOf (by decide) hfnew
    have hlength : (finalOf i 2).length < pathMax := by
      unfold fits at hfnew
      rw [Bool.and_eq_true, decide_eq_true_iff] at hfnew
      exact hfnew.1
    have hshort : i.length < pathMax := by
      rw [finalOf_length (by decide)] at hlength
      omega
    generalize fs.replace original (finalOf i 2) .none false = fs1 at hrename hget
    have hi1 : fs1.get i = none := by
      rw [hget, if_neg finalOf_ne.symm, if_neg (hne hi).symm]
      exact hfree
    have ho2 : (fs1.set i (.link (finalOf i 2))).get original = none := by
      rw [Files.get_set, if_neg (hne hi), hget, if_neg (hne hf), if_pos rfl]
    have hget3 : ∀ q, ((fs1.set i (.link (finalOf i 2))).set original (.link i)).get q =
        if q = original then some (.link i)
        else if q = i then some (.link (finalOf i 2))
        else if q = finalOf i 2 then some (.file d)
        else fs.get q := by
      intro q
      rw [Files.get_set, Files.get_set, hget, hold]
      by_cases hq : q = original
      · rw [if_pos hq, if_pos hq]
      · rw [if_neg hq, if_neg hq, if_neg hq]
    refine ⟨(fs1.set i (.link (finalOf i 2))).set original (.link i), ?_, ?_, ?_⟩
    · rw [bind_ok (call_ok hrename), bind_ok (call_ok (symlink_ok hlength hfits hi1)),
        bind_ok (call_ok (symlink_ok hshort hfold ho2))]
      rfl
    · intro q hq
      rw [hget3]
      by_cases hqo : q = original
      · rw [if_pos hqo, if_pos hqo]
      · rw [if_neg hqo, if_neg hqo, if_neg (ne_of_isL2s hi hq).symm, if_neg (ne_of_isL2s hf hq).symm]
    · have hget3' : ∀ q, isL2s q = true →
          ((fs1.set i (.link (finalOf i 2))).set original (.link i)).get q =
            if q = i then some (.link (finalOf i 2))
            else if q = finalOf i 2 then some (.file d)
            else fs.get q := fun q hq => by
        rw [hget3, if_neg (hne hq).symm]
      have hgroup : Group ((fs1.set i (.link (finalOf i 2))).set original (.link i)) i 2 d := by
        refine ⟨hi, ?_, ?_, by decide, by decide, hfnew⟩
        · rw [hget3' i hi, if_pos rfl]
        · rw [hget3' _ hf, if_neg finalOf_ne, if_pos rfl]
      refine ⟨hfree, hgroup, ?_, ?_, ?_⟩
      · rintro q (rfl | ⟨_, _, heq, rfl⟩) -
        · exact hfree
        · obtain ⟨rfl, rfl⟩ := Prod.mk.inj (Option.some.inj heq)
          exact hfinal
      · rintro q (rfl | ⟨_, _, heq, -⟩) hnot
        · exact absurd (Or.inl rfl) hnot
        · cases heq
      · intro q hq _ hnot
        rw [hget3' q hq, if_neg fun h => hnot (Or.inl h),
          if_neg fun h => hnot (Or.inr ⟨2, d, rfl, h⟩)]

/-- A first link that succeeds found its intermediate link unused. -/
theorem firstLink_free {original path : CStr} {i : CStr} {fs' : Files α}
    (hold : fs.get original = some (.file d)) (hguest : isL2s original = false)
    (hpath : isL2s path = true) (hfinal : fs.get (finalOf (newIntermediate fs path) 2) = none)
    (h : firstLink original path fs = .ok i fs') : fs.get (newIntermediate fs path) = none := by
  have hi := newIntermediate_isL2s fs hpath
  rw [firstLink_eq] at h
  generalize newIntermediate fs path = j at *
  have hne : ∀ {q}, isL2s q = true → original ≠ q := fun hq => (ne_of_isL2s hq hguest).symm
  rcases rename_file_cases hold hfinal (hne (finalOf_isL2s hi 2)) with
    ⟨status, herror⟩ | ⟨hapart, -, -, hrename⟩
  · rw [bind_error (call_error herror)] at h
    cases h
  · rw [bind_ok (call_ok hrename)] at h
    have hget := fs.get_replace hapart j
    rw [if_neg finalOf_ne.symm, if_neg (hne hi).symm] at hget
    rw [← hget]
    cases hlink : (fs.replace original (finalOf j 2) .none false).symlink (finalOf j 2) j with
    | error status =>
        rw [bind_error (call_error hlink)] at h
        cases h
    | ok fs2 => exact (symlink_inv hlink).2.2.1

end

end PRoot
