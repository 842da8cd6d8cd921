import PRoot.LinkFailures

/-!
# What a failed link loses

Where `move_and_symlink_path` of `link2symlink.c` fails, what was to be linked should be where it
was, and nothing else should have been overwritten.

* `LosesNothing`, `LinkSafe`: what is asked for, and when it is so;
* `first_undone_iff`: what is left of a first link once the new name could not be made;
* `file_link_iff`, `link_link_iff`: the links of files and of ordinary symbolic links.
-/

namespace PRoot

variable {α : Type} {refuses : HostStep → Bool} {fs fs' : Files α} {original : CStr}

/-! ## What is lost -/

/-- What a name stands for: what is read there, or the link that it is. -/
def contentAt (fs : Files α) (path : CStr) : Option (FileNode α) :=
  match fs.get path with
  | some (.link target) =>
      if isL2s target then (readPath fs path).map .file else some (.link target)
  | node => node

/-- A name and the paths of the emulation behind it. -/
def ownPaths (fs : Files α) (original : CStr) : List CStr :=
  match myReadlink fs original with
  | .error _ => [original]
  | .ok i =>
      if isL2s i then
        match myReadlink fs i with
        | .error _ => [original, i]
        | .ok final => [original, i, final]
      else [original]

/-- **Nothing is lost**: what was to be linked is still found under its name, and everything else
is as it was. -/
structure LosesNothing (fs fs' : Files α) (original : CStr) : Prop where
  content : ∀ node, contentAt fs original = some node → contentAt fs' original = some node
  others : ∀ q node, q ∉ ownPaths fs original → fs.get q = some node → fs'.get q = some node

/-- **A link fails safely**: what makes a difference is an error, and an error loses nothing. -/
def FailsSafely (refuses : HostStep → Bool) (l2sDirectory : Option CStr) (fs : Files α)
    (original newName : CStr) : Prop :=
  (∀ fs', moveAndSymlinkPathAt refuses l2sDirectory original newName fs = .ok () fs' →
    moveAndSymlinkPath l2sDirectory original newName true fs = .ok () fs') ∧
  ∀ status fs', moveAndSymlinkPathAt refuses l2sDirectory original newName fs = .error status fs' →
    LosesNothing fs fs' original

/-! ## When nothing is -/

/-- Nothing is found at a path, or just what is put there. -/
def Spare (fs : Files α) (path : CStr) (node : FileNode α) : Prop :=
  fs.get path = none ∨ fs.get path = some node

/-- The new name can be made, once `made` has been made and `gone` has gone. -/
def NewNameMade (refuses : HostStep → Bool) (fs : Files α) (newName : CStr)
    (made gone : List CStr) : Prop :=
  refuses .linkNew = false ∧ fits newName = true ∧ newName ∉ made ∧
    (newName ∈ gone ∨ fs.get newName = none)

/-- A first link is taken back, so that nothing is lost. -/
def FirstUndone (refuses : HostStep → Bool) (fs : Files α) (j : CStr) (node : FileNode α) : Prop :=
  (refuses .moveBack = true ∨ fs.get (finalOf j 1) = some .dir → Spare fs (finalOf j 2) node) ∧
    (refuses .moveBack = false → fs.get (finalOf j 1) ≠ some .dir →
      fs.get (finalOf j 2) = none ∧ Spare fs (finalOf j 1) node ∧
        refuses .dropAgain = false ∧ refuses .linkAgain = false)

/-- A further link is taken back, so that nothing is lost.  The count of the final file is read
from its name, and only if it is above zero the file stays. -/
def FurtherUndone (refuses : HostStep → Bool) (fs : Files α) (final : CStr) (node : FileNode α) :
    Prop :=
  let count := linkCount final
  let newFinal := withCount final (count + 1)
  if 0 < count ∧ count < 9999 then
    if refuses .moveBack then Spare fs newFinal node
    else fs.get newFinal = none ∧ refuses .dropAgain = false ∧ refuses .linkAgain = false
  else refuses .dropAgain = true ∧ Spare fs newFinal node

/-- A first link loses nothing if it fails: no step fails between the move of the file and the link
at its name, and what has been done is taken back. -/
def FirstSafe (refuses : HostStep → Bool) (fs : Files α) (original newName path : CStr)
    (node : FileNode α) : Prop :=
  let j := newIntermediate fs path
  Performed refuses .moveAway (fs.rename original (finalOf j 2) .none) →
    Placeable refuses fs j ∧
      (¬ NewNameMade refuses fs newName [j, finalOf j 2] [] →
        isL2s path = true ∧ FirstUndone refuses fs j node)

/-- A further link loses nothing if it fails: no step fails between the move of the final file and
the link to it, and what has been done is taken back. -/
def FurtherSafe (refuses : HostStep → Bool) (fs : Files α) (newName final : CStr) : Prop :=
  let newFinal := withCount final (linkCount final + 1)
  ∀ node, fs.get final = some node →
    Performed refuses .moveAway (fs.rename final newFinal .none) →
      (refuses .dropIntermediate = false ∧ refuses .linkIntermediate = false) ∧
        (¬ NewNameMade refuses fs newName [newFinal] [final] → FurtherUndone refuses fs final node)

/-- **When a failed link loses nothing.**  An ordinary symbolic link is not put back. -/
def LinkSafe (refuses : HostStep → Bool) (l2sDirectory : Option CStr) (fs : Files α)
    (original newName : CStr) : Prop :=
  match fs.get original with
  | some (.file d) => ∀ path, intermediatePath l2sDirectory original = .ok path →
      FirstSafe refuses fs original newName path (.file d)
  | some (.link target) => target.length < pathMax →
      if isL2s target then
        ∀ final, myReadlink fs target = .ok final → FurtherSafe refuses fs newName final
      else
        original = finalOf (newIntermediate fs target) 2 ∨
          FirstSafe refuses fs original newName target (.link target)
  | _ => True

/-- The paths behind a name are as the emulation makes them: the final file is a file if it is
there, its name ends in its count, and the next count names something else. -/
structure Chained (fs : Files α) (original i final : CStr) : Prop where
  file : ∀ node, fs.get final = some node → ∃ d, node = .file d
  counted : withCount final (linkCount final) = final
  apart : withCount final (linkCount final + 1) ≠ original ∧
    withCount final (linkCount final + 1) ≠ i
  fits : PRoot.fits i = true

/-- A name of an emulated hard link is in order. -/
def InOrder (fs : Files α) (original : CStr) : Prop :=
  ∀ i final, fs.get original = some (.link i) → isL2s i = true → fs.get i = some (.link final) →
    Chained fs original i final

/-! ## What is read -/

theorem LosesNothing.refl : LosesNothing fs fs original := ⟨fun _ h => h, fun _ _ _ h => h⟩

theorem contentAt_file {d : α} (h : fs.get original = some (.file d)) :
    contentAt fs original = some (.file d) := by
  rw [contentAt, h]

variable {target : CStr}

theorem contentAt_ordinary (h : fs.get original = some (.link target)) (hl2s : isL2s target = false)
    : contentAt fs original = some (.link target) := by
  rw [contentAt, h]
  simp only [hl2s, Bool.false_eq_true, if_false]

variable {i : CStr}

theorem contentAt_l2s (h : fs.get original = some (.link i)) (hl2s : isL2s i = true) :
    contentAt fs original = (readPath fs original).map .file := by
  rw [contentAt, h]
  simp only [hl2s, if_true]

theorem contentAt_gone (h : fs.get original = none) : contentAt fs original = none := by
  rw [contentAt, h]

/-- A name is read as itself, or as what its intermediate link leads to. -/
theorem translatedPath_link (h : fs.get original = some (.link i)) :
    translatedPath fs original = original ∨
      ∃ final, fs.get i = some (.link final) ∧ translatedPath fs original = final := by
  unfold translatedPath
  split
  · exact Or.inl rfl
  · rename_i value hvalue
    obtain rfl := FileNode.link.inj (Option.some.inj (h.symm.trans (myReadlink_inv hvalue).1))
    split
    · split
      · exact Or.inl rfl
      · rename_i final hfinal
        exact Or.inr ⟨final, (myReadlink_inv hfinal).1, rfl⟩
    · exact Or.inl rfl

variable {path : CStr}

theorem follow_link {n : Nat} (h : fs.get path = some (.link target)) :
    fs.follow (n + 1) path = fs.follow n target := by
  rw [Files.follow, h]

/-- What is read over the two links. -/
theorem readPath_chain {final : CStr} {d : α} (h : fs.get original = some (.link i))
    (hi : fs.get i = some (.link final)) (hfinal : fs.get final = some (.file d)) :
    readPath fs original = some d := by
  unfold readPath
  rcases translatedPath_link h with hself | ⟨final', hi', hthere⟩
  · rw [hself, follow_link h, follow_link hi, Files.follow, hfinal]
  · obtain rfl := FileNode.link.inj (Option.some.inj (hi.symm.trans hi'))
    rw [hthere, Files.follow, hfinal]

/-- Nothing is read where one of them leads nowhere. -/
theorem readPath_broken (h : fs.get original = some (.link i))
    (hi : fs.get i = none ∨ ∃ final, fs.get i = some (.link final) ∧ fs.get final = none) :
    readPath fs original = none := by
  unfold readPath
  rcases translatedPath_link h with hself | ⟨final', hi', hthere⟩
  · rcases hi with hi | ⟨final, hi, hfinal⟩
    · rw [hself, follow_link h, Files.follow, hi]
    · rw [hself, follow_link h, follow_link hi, Files.follow, hfinal]
  · rcases hi with hi | ⟨final, hi, hfinal⟩
    · rw [hi] at hi'
      cases hi'
    · obtain rfl := FileNode.link.inj (Option.some.inj (hi.symm.trans hi'))
      rw [hthere, Files.follow, hfinal]

theorem contentAt_chain {final : CStr} {d : α} (h : fs.get original = some (.link i))
    (hl2s : isL2s i = true) (hi : fs.get i = some (.link final))
    (hfinal : fs.get final = some (.file d)) : contentAt fs original = some (.file d) := by
  rw [contentAt_l2s h hl2s, readPath_chain h hi hfinal]
  rfl

theorem contentAt_broken (h : fs.get original = some (.link i)) (hl2s : isL2s i = true)
    (hi : fs.get i = none ∨ ∃ final, fs.get i = some (.link final) ∧ fs.get final = none) :
    contentAt fs original = none := by
  rw [contentAt_l2s h hl2s, readPath_broken h hi]
  rfl

variable {node : FileNode α}

theorem Spare.eq {node' : FileNode α} (h : Spare fs path node) (hthere : fs.get path = some node') :
    node = node' := by
  rcases h with hnone | hsame
  · rw [hnone] at hthere
    cases hthere
  · exact Option.some.inj (hsame.symm.trans hthere)

/-- What is found in another place was there, or nothing was. -/
theorem LosesNothing.spare (h : LosesNothing fs fs' original) (hother : path ∉ ownPaths fs original)
    (hthere : fs'.get path = some node) :
    Spare fs path node := by
  cases hbefore : fs.get path with
  | none => exact Or.inl hbefore
  | some node' =>
      have hkept := h.others path node' hother hbefore
      rw [hthere] at hkept
      exact Or.inr (hbefore.trans hkept.symm)

/-- Where nothing is found, nothing was. -/
theorem LosesNothing.none (h : LosesNothing fs fs' original) (hother : path ∉ ownPaths fs original)
    (hgone : fs'.get path = none) : fs.get path = none := by
  cases hbefore : fs.get path with
  | none => rfl
  | some node =>
      have hkept := h.others path node hother hbefore
      rw [hgone] at hkept
      cases hkept

/-- What cannot be found any more is lost. -/
theorem not_losesNothing (h : contentAt fs original = some node)
    (h' : contentAt fs' original ≠ some node) : ¬ LosesNothing fs fs' original :=
  fun hnothing => h' (hnothing.content node h)

/-- What was to be linked is found, and one more name is taken. -/
theorem losesNothing_iff_spare {content : FileNode α}
    (hcontent : contentAt fs original = some content)
    (hcontent' : contentAt fs' original = some content) (hother : path ∉ ownPaths fs original)
    (hthere : fs'.get path = some node)
    (hrest : ∀ q, q ∉ ownPaths fs original → q ≠ path → fs.get q ≠ none →
      fs'.get q = fs.get q) : LosesNothing fs fs' original ↔ Spare fs path node := by
  refine ⟨fun hnothing => hnothing.spare hother hthere, fun hspare => ⟨fun _ h => ?_, ?_⟩⟩
  · rwa [hcontent', ← hcontent]
  · intro q node' hq hnode
    by_cases hqp : q = path
    · subst hqp
      rw [hthere, hspare.eq hnode]
    · rw [hrest q hq hqp (by rw [hnode]; nofun), hnode]

/-- A name with nothing of the emulation behind it. -/
theorem ownPaths_plain (h : ∀ i, fs.get original = some (.link i) → isL2s i = false) :
    ownPaths fs original = [original] := by
  unfold ownPaths
  split
  · rfl
  · rename_i i hi
    rw [h i (myReadlink_inv hi).1, if_neg Bool.false_ne_true]

/-! ## The new name -/

/-- The new name can be made among the files as they are. -/
def NameMade (refuses : HostStep → Bool) (fs : Files α) (newName : CStr) : Prop :=
  refuses .linkNew = false ∧ fits newName = true ∧ fs.get newName = none

variable {newName : CStr}

theorem symlinkNewNameAt_made (hshort : i.length < pathMax) (h : NameMade refuses fs newName) :
    symlinkNewNameAt refuses original i newName fs = .ok () (fs.set newName (.link i)) := by
  unfold symlinkNewNameAt
  rw [h.1, if_neg Bool.false_ne_true, symlink_ok hshort h.2.1 h.2.2]

theorem symlinkNewNameAt_failed (h : ¬ NameMade refuses fs newName) :
    ∃ status, symlinkNewNameAt refuses original i newName fs =
      .error status (after (decrementLinkCountAt refuses original) fs) := by
  unfold symlinkNewNameAt
  cases hrefused : refuses .linkNew with
  | true => exact ⟨.EACCES, rfl⟩
  | false =>
      rw [if_neg Bool.false_ne_true]
      cases hlink : fs.symlink i newName with
      | error status => exact ⟨status, rfl⟩
      | ok fs1 =>
          obtain ⟨-, hfits, hfree, -⟩ := symlink_inv hlink
          exact absurd ⟨hrefused, hfits, hfree⟩ h

/-- The link is taken back. -/
theorem decrementLinkCountAt_link {final : CStr} (hname : fs.get original = some (.link i))
    (hl2s : isL2s i = true) (hshort : i.length < pathMax) (hi : fs.get i = some (.link final))
    (hshort' : final.length < pathMax) :
    decrementLinkCountAt refuses original fs =
      (if linkCount final - 1 > 0 then
        moveFinalAt refuses .moveBack .dropAgain .linkAgain i final
          (withCount final (linkCount final - 1))
      else do
        callAt refuses .dropAgain fun fs => fs.unlink i
        callAt refuses .dropFinal fun fs => fs.unlink final) fs := by
  unfold decrementLinkCountAt
  rw [get_bind, hname]
  simp only [get_bind]
  rw [bind_ok (orFail_ok (myReadlink_ok hname hshort))]
  rw [if_pos hl2s]
  simp only [get_bind, myReadlink_ok hi hshort']

/-- An ordinary link is left alone. -/
theorem decrementLinkCountAt_ordinary (hname : fs.get original = some (.link target))
    (hl2s : isL2s target = false) (hshort : target.length < pathMax) :
    decrementLinkCountAt refuses original fs = .ok () fs := by
  unfold decrementLinkCountAt
  rw [get_bind, hname]
  simp only [get_bind]
  rw [bind_ok (orFail_ok (myReadlink_ok hname hshort)), hl2s, if_neg Bool.false_ne_true]
  rfl

/-- What holds of every error, of this one. -/
theorem onError_error {β : Type} {todo : HostM α β} {status : Errno} {P : Files α → Prop}
    (h : todo fs = .error status fs') :
    (∀ status fs', todo fs = .error status fs' → P fs') ↔ P fs' := by
  constructor
  · intro hall
    exact hall status fs' h
  · intro hp status' fs1 hrun
    rw [h] at hrun
    cases hrun
    exact hp

theorem onError_ok {β : Type} {todo : HostM α β} {b : β} {P : Files α → Prop}
    (h : todo fs = .ok b fs') : ∀ status fs', todo fs = .error status fs' → P fs' := by
  intro status fs1 hrun
  rw [h] at hrun
  cases hrun

/-- The end of a link: what an error leaves. -/
theorem symlinkNewNameAt_error_iff {P : Files α → Prop} (hshort : i.length < pathMax) :
    (∀ status fs', symlinkNewNameAt refuses original i newName fs = .error status fs' → P fs') ↔
      (¬ NameMade refuses fs newName → P (after (decrementLinkCountAt refuses original) fs)) := by
  by_cases hmade : NameMade refuses fs newName
  · refine iff_of_true (onError_ok (symlinkNewNameAt_made hshort hmade)) ?_
    intro hnot
    exact absurd hmade hnot
  · obtain ⟨status, hrun⟩ := @symlinkNewNameAt_failed _ _ _ original i _ hmade
    rw [onError_error hrun]
    exact ⟨fun h _ => h, fun h => h hmade⟩

/-! ## First links -/

section First

variable {j : CStr} {d : α}

/-- A file takes the place of anything but a directory. -/
theorem rename_file_isOk {old new : CStr} (hold : fs.get old = some (.file d)) (hne : old ≠ new)
    (hapart : Apart old new) (hfits : fits old = true) (hfits' : fits new = true) :
    (fs.rename old new .none).isOk = true ↔ fs.get new ≠ some .dir := by
  unfold Files.rename
  rw [hold, hfits, hfits', hapart.left, hapart.right]
  cases hnew : fs.get new with
  | none => simp [RenameFlags.none, hne, FileNode.isDir, Except.isOk, Except.toBool]
  | some node =>
      cases node with
      | dir => simp [RenameFlags.none, hne, FileNode.isDir, Except.isOk, Except.toBool]
      | file data => simp [RenameFlags.none, hne, FileNode.isDir, Except.isOk, Except.toBool]
      | link target => simp [RenameFlags.none, hne, FileNode.isDir, Except.isOk, Except.toBool]

variable {fs1 : Files α}

/-- A first link that is not taken back: what was at the place of the final file is lost. -/
theorem first_kept_iff (hnode : fs.get original = some (.file d)) (hl2s : isL2s j = true)
    (links : FirstLinked fs fs1 original j (.file d)) (hfree : fs.get j = none) :
    LosesNothing fs fs1 original ↔ Spare fs (finalOf j 2) (.file d) := by
  have hget := links.get
  have hown : ownPaths fs original = [original] :=
    ownPaths_plain fun i hi => by rw [hnode] at hi; cases hi
  have hname : fs1.get original = some (.link j) := by rw [hget, if_pos rfl]
  have hj : fs1.get j = some (.link (finalOf j 2)) := by
    rw [hget, if_neg links.ne_link.symm, if_pos rfl]
  have hfinal : fs1.get (finalOf j 2) = some (.file d) := by
    rw [hget, if_neg links.ne_final.symm, if_neg finalOf_ne, if_pos rfl]
  refine losesNothing_iff_spare (contentAt_file hnode) (contentAt_chain hname hl2s hj hfinal)
    (by rw [hown, List.mem_singleton]; exact links.ne_final.symm) hfinal ?_
  intro q hq hqf hthere
  rw [hown, List.mem_singleton] at hq
  have hqj : q ≠ j := by
    rintro rfl
    exact hthere hfree
  rw [hget, if_neg hq, if_neg hqj, if_neg hqf]

/-- A first link whose file is moved back: what was at the place of the final file is lost, and what
was at the place that the file is moved to. -/
theorem first_moved_iff {fs2 : Files α} (hnode : fs.get original = some (.file d))
    (hl2s : isL2s j = true) (links : FirstLinked fs fs1 original j (.file d))
    (hfree : fs.get j = none) (hback : original ≠ finalOf j 1)
    (hget : ∀ q, fs2.get q = if q = j then some (.link (finalOf j 1))
      else if q = finalOf j 1 then some (.file d) else if q = finalOf j 2 then none
      else fs1.get q) :
    LosesNothing fs fs2 original ↔
      fs.get (finalOf j 2) = none ∧ Spare fs (finalOf j 1) (.file d) := by
  have hown : ownPaths fs original = [original] :=
    ownPaths_plain fun i hi => by rw [hnode] at hi; cases hi
  have hne : finalOf j 2 ≠ finalOf j 1 := fun h => by
    have := (finalOf_inj (by decide) (by decide) h).2
    omega
  have hname : fs2.get original = some (.link j) := by
    rw [hget, if_neg links.ne_link, if_neg hback, if_neg links.ne_final, links.get, if_pos rfl]
  have hj : fs2.get j = some (.link (finalOf j 1)) := by rw [hget, if_pos rfl]
  have hfinal : fs2.get (finalOf j 1) = some (.file d) := by
    rw [hget, if_neg finalOf_ne, if_pos rfl]
  have hgone : fs2.get (finalOf j 2) = none := by
    rw [hget, if_neg finalOf_ne, if_neg hne, if_pos rfl]
  have hspare : fs.get (finalOf j 2) = none →
      (LosesNothing fs fs2 original ↔ Spare fs (finalOf j 1) (.file d)) := by
    intro hnone
    refine losesNothing_iff_spare (contentAt_file hnode) (contentAt_chain hname hl2s hj hfinal)
      (by rw [hown, List.mem_singleton]; exact hback.symm) hfinal ?_
    intro q hq hqb hthere
    rw [hown, List.mem_singleton] at hq
    have hqj : q ≠ j := by
      rintro rfl
      exact hthere hfree
    have hqf : q ≠ finalOf j 2 := by
      rintro rfl
      exact hthere hnone
    rw [hget, if_neg hqj, if_neg hqb, if_neg hqf, links.get, if_neg hq, if_neg hqj, if_neg hqf]
  constructor
  · intro hnothing
    have hnone : fs.get (finalOf j 2) = none := by
      refine hnothing.none ?_ hgone
      rw [hown, List.mem_singleton]
      exact links.ne_final.symm
    exact ⟨hnone, (hspare hnone).mp hnothing⟩
  · rintro ⟨hnone, hthere⟩
    exact (hspare hnone).mpr hthere

/-- **What is left of a first link** once the new name could not be made. -/
theorem first_undone_iff (hnode : fs.get original = some (.file d)) (hl2s : isL2s j = true)
    (links : FirstLinked fs fs1 original j (.file d)) (hfree : fs.get j = none)
    (hback : original ≠ finalOf j 1) (hfits : fits (finalOf j 2) = true) :
    LosesNothing fs (after (decrementLinkCountAt refuses original) fs1) original ↔
      FirstUndone refuses fs j (.file d) := by
  have hget := links.get
  have hcontent := contentAt_file hnode
  have hname : fs1.get original = some (.link j) := by rw [hget, if_pos rfl]
  have hj : fs1.get j = some (.link (finalOf j 2)) := by
    rw [hget, if_neg links.ne_link.symm, if_pos rfl]
  have hfinal : fs1.get (finalOf j 2) = some (.file d) := by
    rw [hget, if_neg links.ne_final.symm, if_neg finalOf_ne, if_pos rfl]
  have hne : finalOf j 2 ≠ finalOf j 1 := fun h => by
    have := (finalOf_inj (by decide) (by decide) h).2
    omega
  have hlast : fs1.get (finalOf j 1) = fs.get (finalOf j 1) := by
    rw [hget, if_neg hback.symm, if_neg finalOf_ne, if_neg hne.symm]
  have hapart : Apart (finalOf j 2) (finalOf j 1) := by
    refine apart_of_length ?_ hne
    rw [finalOf_length (by decide), finalOf_length (by decide)]
  have hfits1 : fits (finalOf j 1) = true := fits_finalOf (by decide) (by decide) hfits
  have hj_fits : fits j = true := fits_of_finalOf (by decide) hfits
  have hperformed : Performed refuses .moveBack (fs1.rename (finalOf j 2) (finalOf j 1) .none) ↔
      refuses .moveBack = false ∧ fs.get (finalOf j 1) ≠ some .dir := by
    rw [Performed, rename_file_isOk hfinal hne hapart hfits hfits1, hlast]
  have hrun : decrementLinkCountAt refuses original fs1 =
      moveFinalAt refuses .moveBack .dropAgain .linkAgain j (finalOf j 2) (finalOf j 1) fs1 := by
    rw [decrementLinkCountAt_link hname hl2s (fits_length hj_fits) hj links.short,
      linkCount_finalOf (by decide), if_pos (by decide)]
    have hcount : ((2 : Nat) : Int) - 1 = ((1 : Nat) : Int) := by decide
    rw [hcount, withCount_finalOf (by decide)]
  have hspec : Moving refuses .moveBack .dropAgain .linkAgain fs1 j (finalOf j 2) (finalOf j 1)
      (.file d) (moveFinalAt refuses .moveBack .dropAgain .linkAgain j (finalOf j 2)
        (finalOf j 1) fs1) :=
    moveFinalAt_cases _ _ _ hfinal file_ne_dir hj finalOf_ne.symm finalOf_ne.symm hj_fits
  rw [after, hrun]
  generalize moveFinalAt refuses .moveBack .dropAgain .linkAgain j (finalOf j 2) (finalOf j 1) fs1
    = result at hspec
  cases hspec with
  | kept hnot =>
      rw [hperformed] at hnot
      have hstays : refuses .moveBack = true ∨ fs.get (finalOf j 1) = some .dir := by
        by_contra hneither
        rw [not_or, Bool.not_eq_true] at hneither
        exact hnot hneither
      rw [first_kept_iff hnode hl2s links hfree]
      constructor
      · intro hspare
        exact ⟨fun _ => hspare, fun hgranted hdir => absurd ⟨hgranted, hdir⟩ hnot⟩
      · intro hundone
        exact hundone.1 hstays
  | torn hmove hrefused fs2 hintermediate hothers =>
      rw [hperformed] at hmove
      refine iff_of_false (not_losesNothing hcontent ?_) ?_
      · have hgone : fs2.get (finalOf j 2) = none := by
          rw [hothers _ finalOf_ne, if_neg hne, if_pos rfl]
        have hname2 : fs2.get original = some (.link j) := by
          rw [hothers _ links.ne_link, if_neg hback, if_neg links.ne_final, hname]
        rw [contentAt_broken hname2 hl2s]
        · exact (Option.some_ne_none _).symm
        · rcases hintermediate with hsame | hnone
          · exact Or.inr ⟨_, hsame.trans hj, hgone⟩
          · exact Or.inl hnone
      · intro hundone
        obtain ⟨-, -, hdrop, hlink⟩ := hundone.2 hmove.1 hmove.2
        rw [hdrop, hlink] at hrefused
        rcases hrefused with h | h
        · cases h
        · cases h
  | moved hmove hdrop hlink fs2 hget2 =>
      rw [hperformed] at hmove
      show LosesNothing fs fs2 original ↔ _
      rw [first_moved_iff hnode hl2s links hfree hback hget2]
      constructor
      · rintro ⟨hnone, hspare⟩
        refine ⟨fun hstays => ?_, fun _ _ => ⟨hnone, hspare, hdrop, hlink⟩⟩
        rcases hstays with h | h
        · rw [hmove.1] at h
          cases h
        · exact absurd h hmove.2
      · intro hundone
        obtain ⟨hnone, hspare, -, -⟩ := hundone.2 hmove.1 hmove.2
        exact ⟨hnone, hspare⟩

/-- Where a first link has been made, the new name is free as it was before, but for the paths that
have been made. -/
theorem FirstLinked.nameMade_iff (hnode : fs.get original = some node)
    (links : FirstLinked fs fs1 original j node) :
    NameMade refuses fs1 newName ↔ NewNameMade refuses fs newName [j, finalOf j 2] [] := by
  have hfree : fs1.get newName = none ↔
      newName ∉ [j, finalOf j 2] ∧ (newName ∈ [] ∨ fs.get newName = none) := by
    rw [links.get]
    by_cases hq : newName = original
    · subst hq
      rw [if_pos rfl, hnode]
      simp
    · rw [if_neg hq]
      by_cases hqj : newName = j
      · rw [if_pos hqj]
        simp [hqj]
      · rw [if_neg hqj]
        by_cases hqf : newName = finalOf j 2
        · rw [if_pos hqf]
          simp [hqf]
        · rw [if_neg hqf]
          simp [hqj, hqf]
  unfold NameMade NewNameMade
  rw [hfree]

/-- **When a file is linked for the first time.** -/
theorem file_link_iff {l2sDirectory : Option CStr} (hnode : fs.get original = some (.file d))
    (hpath : intermediatePath l2sDirectory original = .ok path) :
    (∀ status fs', (firstLinkAt refuses original path >>= fun i =>
        symlinkNewNameAt refuses original i newName) fs = .error status fs' →
      LosesNothing fs fs' original) ↔
      FirstSafe refuses fs original newName path (.file d) := by
  have hpath_l2s := intermediatePath_isL2s hpath
  have hfinals : ∀ n : Nat, original ≠ finalOf (newIntermediate fs path) n := by
    intro n
    have hword : '/' ∉ format04 (intermediateSuffix fs path 998 1) ++ '.' :: format04 n := by
      rw [List.mem_append, not_or, List.mem_cons, not_or]
      exact ⟨format04_no_slash _, by decide, format04_no_slash n⟩
    have hne := intermediatePath_ne hpath hword
    rwa [← List.append_assoc] at hne
  have hne_link : original ≠ newIntermediate fs path :=
    intermediatePath_ne hpath (format04_no_slash _)
  have hspec : Linking refuses fs original (newIntermediate fs path) (.file d)
      (firstLinkAt refuses original path fs) := firstLinkAt_cases hnode file_ne_dir (hfinals 2)
  have hl2s := newIntermediate_isL2s fs hpath_l2s
  unfold FirstSafe
  simp only
  generalize newIntermediate fs path = j at *
  generalize hrun : firstLinkAt refuses original path fs = result at hspec
  cases hspec with
  | kept hnot =>
      rw [onError_error (bind_error hrun _)]
      exact iff_of_true LosesNothing.refl fun hmove => absurd hmove hnot
  | lost hmove hnot fs1 hgone =>
      rw [onError_error (bind_error hrun _)]
      refine iff_of_false (not_losesNothing (contentAt_file hnode) ?_) ?_
      · rcases hgone with hgone | ⟨heq, -⟩
        · rw [contentAt_gone hgone]
          exact (Option.some_ne_none _).symm
        · exact absurd heq hne_link
      · intro hsafe
        exact hnot (hsafe hmove).1
  | linked hmove hplaceable fs1 links =>
      obtain ⟨fs2, hrename⟩ := isOk_ok hmove.2
      have hfits := (rename_fits hrename).2
      have hshort := fits_length (fits_of_finalOf (by decide) hfits)
      rw [bind_ok hrun, symlinkNewNameAt_error_iff hshort,
        links.nameMade_iff hnode,
        first_undone_iff hnode hl2s links hplaceable.free (hfinals 1) hfits]
      constructor
      · intro hundone
        exact fun _ => ⟨hplaceable, fun hname => ⟨hpath_l2s, hundone hname⟩⟩
      · intro hsafe hname
        exact ((hsafe hmove).2 hname).2

/-- A name that is an ordinary link loses nothing where everything is kept. -/
theorem losesNothing_of_kept (hnode : fs.get original = some (.link target))
    (hl2s : isL2s target = false) (hkept : ∀ q node, fs.get q = some node → fs'.get q = some node) :
    LosesNothing fs fs' original := by
  refine ⟨fun node hcontent => ?_, fun q node _ hthere => hkept q node hthere⟩
  rw [contentAt_ordinary hnode hl2s] at hcontent
  rw [← hcontent]
  exact contentAt_ordinary (hkept _ _ hnode) hl2s

/-- A name that links elsewhere is no longer the link that it was. -/
theorem contentAt_other {other : CStr} (h : fs.get original = some (.link other))
    (hne : other ≠ target) : contentAt fs original ≠ some (.link target) := by
  intro hcontent
  by_cases hl2s : isL2s other = true
  · rw [contentAt_l2s h hl2s, Option.map_eq_some_iff] at hcontent
    obtain ⟨d, -, heq⟩ := hcontent
    cases heq
  · rw [contentAt_ordinary h (Bool.eq_false_iff.mpr hl2s)] at hcontent
    cases hcontent
    exact hne rfl

/-- A link that is named as the final file it would be moved to stays there. -/
theorem link_in_place (hnode : fs.get original = some (.link target)) (hl2s : isL2s target = false)
    (hplace : original = finalOf (newIntermediate fs target) 2) (newName : CStr) :
    ∀ status fs', (firstLinkAt refuses original target >>= fun i =>
        symlinkNewNameAt refuses original i newName) fs = .error status fs' →
      LosesNothing fs fs' original := by
  have hrun : ∃ fs1, firstLinkAt refuses original target fs = .error .EPERM fs1 ∧
      ∀ q node, fs.get q = some node → fs1.get q = some node := by
    unfold firstLinkAt
    rw [get_bind]
    generalize newIntermediate fs target = j at hplace ⊢
    have hfinal : j ++ ".0002".toList = finalOf j 2 := rfl
    simp only [hfinal, ← hplace]
    by_cases hmove : Performed refuses .moveAway (fs.rename original original .none)
    · obtain ⟨fs1, hrename⟩ := isOk_ok hmove.2
      have hget := rename_get hnode link_ne_dir hrename
      have hsame : ∀ q, fs1.get q = fs.get q := by
        intro q
        rw [hget]
        by_cases hq : q = original
        · rw [if_pos hq, hq, hnode]
        · rw [if_neg hq, if_neg hq]
      rw [bind_ok (callAt_performed hmove.1 hrename)]
      by_cases hlink : Performed refuses .linkIntermediate (fs1.symlink original j)
      · obtain ⟨fs2, hsymlink⟩ := isOk_ok hlink.2
        obtain ⟨-, -, hfree, rfl⟩ := symlink_inv hsymlink
        have hkept : ∀ q node, fs.get q = some node →
            (fs1.set j (.link original)).get q = some node := by
          intro q node hthere
          have hqj : q ≠ j := by
            rintro rfl
            rw [hsame, hthere] at hfree
            cases hfree
          rw [Files.get_set, if_neg hqj, hsame]
          exact hthere
        have hname : ¬ Performed refuses .linkOriginal
            ((fs1.set j (.link original)).symlink j original) := by
          intro hname
          obtain ⟨fs3, hsymlink'⟩ := isOk_ok hname.2
          have hfree' := (symlink_inv hsymlink').2.2.1
          rw [hkept _ _ hnode] at hfree'
          cases hfree'
        rw [bind_ok (callAt_performed hlink.1 hsymlink), bind_error (callAt_refused hname)]
        exact ⟨_, rfl, hkept⟩
      · rw [bind_error (callAt_refused hlink)]
        exact ⟨_, rfl, fun q node hthere => (hsame q).trans hthere⟩
    · rw [bind_error (callAt_refused hmove)]
      exact ⟨_, rfl, fun _ _ hthere => hthere⟩
  obtain ⟨fs1, herror, hkept⟩ := hrun
  rw [onError_error (bind_error herror _)]
  exact losesNothing_of_kept hnode hl2s hkept

/-- **When an ordinary link is linked.** -/
theorem link_link_iff (hnode : fs.get original = some (.link target)) (hl2s : isL2s target = false) :
    (∀ status fs', (firstLinkAt refuses original target >>= fun i =>
        symlinkNewNameAt refuses original i newName) fs = .error status fs' →
      LosesNothing fs fs' original) ↔
      original = finalOf (newIntermediate fs target) 2 ∨
        FirstSafe refuses fs original newName target (.link target) := by
  by_cases hplace : original = finalOf (newIntermediate fs target) 2
  · exact iff_of_true (link_in_place hnode hl2s hplace newName) (Or.inl hplace)
  · have hcontent := contentAt_ordinary hnode hl2s
    have hspec : Linking refuses fs original (newIntermediate fs target) (.link target)
        (firstLinkAt refuses original target fs) := firstLinkAt_cases hnode link_ne_dir hplace
    have hsuffix := intermediateSuffix_le fs target 998 1
    have hj_l2s : isL2s (newIntermediate fs target) = false :=
      isL2s_numbered (by omega) hl2s
    have hj : newIntermediate fs target ≠ target := by
      intro heq
      have hlength := congrArg List.length heq
      have hdigits := format04_length_ge (intermediateSuffix fs target 998 1)
      rw [newIntermediate, List.length_append] at hlength
      omega
    have hf : finalOf (newIntermediate fs target) 2 ≠ target := by
      intro heq
      have hlength := congrArg List.length heq
      rw [finalOf_length (by decide), newIntermediate, List.length_append] at hlength
      omega
    rw [or_iff_right hplace]
    unfold FirstSafe
    simp only
    generalize newIntermediate fs target = j at *
    generalize hrun : firstLinkAt refuses original target fs = result at hspec
    cases hspec with
    | kept hnot =>
        rw [onError_error (bind_error hrun _)]
        exact iff_of_true LosesNothing.refl fun hmove => absurd hmove hnot
    | lost hmove hnot fs1 hgone =>
        rw [onError_error (bind_error hrun _)]
        refine iff_of_false (not_losesNothing hcontent ?_) ?_
        · rcases hgone with hgone | ⟨-, hgone⟩
          · rw [contentAt_gone hgone]
            exact (Option.some_ne_none _).symm
          · exact contentAt_other hgone hf
        · intro hsafe
          exact hnot (hsafe hmove).1
    | linked hmove hplaceable fs1 links =>
        obtain ⟨fs2, hrename⟩ := isOk_ok hmove.2
        have hj_short := fits_length (fits_of_finalOf (by decide) (rename_fits hrename).2)
        have hname : fs1.get original = some (.link j) := by rw [links.get, if_pos rfl]
        have hlost : ¬ LosesNothing fs (after (decrementLinkCountAt refuses original) fs1)
            original := by
          rw [after_ok (decrementLinkCountAt_ordinary hname hj_l2s hj_short)]
          exact not_losesNothing hcontent (contentAt_other hname hj)
        rw [bind_ok hrun, symlinkNewNameAt_error_iff hj_short, links.nameMade_iff hnode, hl2s]
        constructor
        · intro hnothing
          exact fun _ => ⟨hplaceable, fun hfails => absurd (hnothing hfails) hlost⟩
        · intro hsafe hfails
          exact absurd ((hsafe hmove).2 hfails).1 Bool.false_ne_true

end First

end PRoot
