import PRoot.LinkedLinks

/-!
# Links that fail

`move_and_symlink_path` of `link2symlink.c` is a sequence of calls on the host.  Here the host may
refuse any of them, whatever its files are.

* `moveAndSymlinkPathAt`: the function, and which of its calls are refused;
* `moveAndSymlinkPathAt_ok`: it succeeds only where no refusal makes a difference;
* `moveFinalAt_cases`, `firstLinkAt_cases`: where its parts may stop, and what is left there.
-/

namespace PRoot

variable {α : Type}

/-! ## The function, call by call -/

/-- The calls on the host, those for a name more and those that take it back. -/
inductive HostStep
  | moveAway | dropIntermediate | linkIntermediate | linkOriginal | linkNew
  | moveBack | dropAgain | linkAgain | dropFinal
  deriving DecidableEq, Repr

/-- A call that the host may refuse. -/
def callAt (refuses : HostStep → Bool) (step : HostStep)
    (op : Files α → Except Errno (Files α)) : HostM α Unit := fun fs =>
  if refuses step then .error .EPERM fs else call op fs

/-- `rename`, and the intermediate link put anew. -/
def moveFinalAt (refuses : HostStep → Bool) (move drop link : HostStep)
    (intermediate final newFinal : CStr) : HostM α Unit := do
  callAt refuses move fun fs => fs.rename final newFinal .none
  callAt refuses drop fun fs => fs.unlink intermediate
  callAt refuses link fun fs => fs.symlink newFinal intermediate

/-- The first link. -/
def firstLinkAt (refuses : HostStep → Bool) (original path : CStr) : HostM α CStr := do
  let intermediate := newIntermediate (← get) path
  let final := intermediate ++ ".0002".toList
  callAt refuses .moveAway fun fs => fs.rename original final .none
  callAt refuses .linkIntermediate fun fs => fs.symlink final intermediate
  callAt refuses .linkOriginal fun fs => fs.symlink intermediate original
  return intermediate

/-- A further link. -/
def furtherLinkAt (refuses : HostStep → Bool) (intermediate : CStr) : HostM α CStr := do
  let final ← orFail (myReadlink (← get) intermediate)
  moveFinalAt refuses .moveAway .dropIntermediate .linkIntermediate intermediate final
    (withCount final (linkCount final + 1))
  return intermediate

/-- `decrement_link_count`, as it is called to take a link back. -/
def decrementLinkCountAt (refuses : HostStep → Bool) (original : CStr) : HostM α Unit := do
  match (← get).get original with
  | some (.link _) =>
      let intermediate ← orFail (myReadlink (← get) original)
      if isL2s intermediate then
        match myReadlink (← get) intermediate with
        | .error _ => return
        | .ok final =>
            let count := linkCount final - 1
            if count > 0 then
              moveFinalAt refuses .moveBack .dropAgain .linkAgain intermediate final
                (withCount final count)
            else
              callAt refuses .dropAgain fun fs => fs.unlink intermediate
              callAt refuses .dropFinal fun fs => fs.unlink final
  | _ => return

/-- The new name, or the end of the new count. -/
def symlinkNewNameAt (refuses : HostStep → Bool) (original intermediate newName : CStr) :
    HostM α Unit := fun fs =>
  match if refuses .linkNew then .error .EACCES else fs.symlink intermediate newName with
  | .ok fs' => .ok () fs'
  | .error status => .error status (after (decrementLinkCountAt refuses original) fs)

/-- `move_and_symlink_path`. -/
def moveAndSymlinkPathAt (refuses : HostStep → Bool) (l2sDirectory : Option CStr)
    (original newName : CStr) : HostM α Unit := do
  match (← get).get original with
  | none => throw .ENOENT
  | some .dir => throw .EPERM
  | some (.link _) =>
      let value ← orFail (myReadlink (← get) original)
      let intermediate ←
        if isL2s value then furtherLinkAt refuses value else firstLinkAt refuses original value
      symlinkNewNameAt refuses original intermediate newName
  | some (.file _) =>
      let path ← orFail (intermediatePath l2sDirectory original)
      let intermediate ← firstLinkAt refuses original path
      symlinkNewNameAt refuses original intermediate newName

/-! ## Success -/

section Success

variable {β γ : Type} {refuses : HostStep → Bool}

/-- What succeeds here succeeds there, and does the same. -/
def SucceedsAs (x y : HostM α β) : Prop := ∀ b fs fs', x fs = .ok b fs' → y fs = .ok b fs'

theorem SucceedsAs.rfl {x : HostM α β} : SucceedsAs x x := fun _ _ _ h => h

theorem SucceedsAs.bind {x y : HostM α β} {k l : β → HostM α γ} (h : SucceedsAs x y)
    (hk : ∀ b, SucceedsAs (k b) (l b)) : SucceedsAs (x >>= k) (y >>= l) := by
  intro c fs fs' hrun
  obtain ⟨b, fs1, hx, hrest⟩ := bind_inv hrun
  rw [bind_ok (h b fs fs1 hx)]
  exact hk b c fs1 fs' hrest

theorem callAt_succeeds (step : HostStep) (op : Files α → Except Errno (Files α)) :
    SucceedsAs (callAt refuses step op) (call op) := by
  intro b fs fs' hrun
  unfold callAt at hrun
  split at hrun
  · cases hrun
  · exact hrun

theorem moveFinalAt_succeeds (move drop link : HostStep) (i final newFinal : CStr) :
    SucceedsAs (moveFinalAt refuses move drop link i final newFinal : HostM α Unit)
      (moveFinal i final newFinal) :=
  (callAt_succeeds move _).bind fun _ => (callAt_succeeds drop _).bind fun _ =>
    callAt_succeeds link _

theorem firstLinkAt_succeeds (original path : CStr) :
    SucceedsAs (firstLinkAt refuses original path : HostM α CStr) (firstLink original path) :=
  SucceedsAs.rfl.bind fun _ => (callAt_succeeds .moveAway _).bind fun _ =>
    (callAt_succeeds .linkIntermediate _).bind fun _ =>
      (callAt_succeeds .linkOriginal _).bind fun _ => SucceedsAs.rfl

theorem furtherLinkAt_succeeds (i : CStr) :
    SucceedsAs (furtherLinkAt refuses i : HostM α CStr) (furtherLink i) :=
  SucceedsAs.rfl.bind fun _ => SucceedsAs.rfl.bind fun _ =>
    (moveFinalAt_succeeds _ _ _ _ _ _).bind fun _ => SucceedsAs.rfl

theorem symlinkNewNameAt_succeeds (original i newName : CStr) :
    SucceedsAs (symlinkNewNameAt refuses original i newName : HostM α Unit)
      (symlinkNewName original i newName true) := by
  intro b fs fs' hrun
  unfold symlinkNewNameAt at hrun
  unfold symlinkNewName
  rw [if_pos rfl]
  cases hrefused : refuses .linkNew with
  | true =>
      rw [hrefused] at hrun
      cases hrun
  | false =>
      rw [hrefused, if_neg Bool.false_ne_true] at hrun
      cases hlink : fs.symlink i newName with
      | error status =>
          rw [hlink] at hrun
          cases hrun
      | ok fs1 =>
          rw [hlink] at hrun
          exact hrun

/-- **A refusal that makes a difference is an error**: what succeeds has done what is done where
nothing is refused. -/
theorem moveAndSymlinkPathAt_ok (l2sDirectory : Option CStr) (original newName : CStr) :
    SucceedsAs (moveAndSymlinkPathAt refuses l2sDirectory original newName : HostM α Unit)
      (moveAndSymlinkPath l2sDirectory original newName true) := by
  refine SucceedsAs.rfl.bind fun fs => ?_
  cases fs.get original with
  | none => exact SucceedsAs.rfl
  | some node =>
      cases node with
      | dir => exact SucceedsAs.rfl
      | file d =>
          refine SucceedsAs.rfl.bind fun path => ?_
          exact (firstLinkAt_succeeds original path).bind fun i => symlinkNewNameAt_succeeds _ _ _
      | link target =>
          refine SucceedsAs.rfl.bind fun fs => SucceedsAs.rfl.bind fun value => ?_
          by_cases hl2s : isL2s value = true
          · simp only [if_pos hl2s]
            exact (furtherLinkAt_succeeds value).bind fun i => symlinkNewNameAt_succeeds _ _ _
          · simp only [if_neg hl2s]
            exact (firstLinkAt_succeeds original value).bind fun i =>
              symlinkNewNameAt_succeeds _ _ _

end Success

/-! ## Where it may stop -/

section Stops

variable {refuses : HostStep → Bool} {fs fs' : Files α}

/-- A call that is made, and does what it is for. -/
def Performed (refuses : HostStep → Bool) (step : HostStep) (result : Except Errno (Files α)) :
    Prop :=
  refuses step = false ∧ result.isOk = true

theorem callAt_performed {step : HostStep} {op : Files α → Except Errno (Files α)}
    (h : refuses step = false) (hop : op fs = .ok fs') :
    callAt refuses step op fs = .ok () fs' := by
  unfold callAt
  rw [h, if_neg Bool.false_ne_true]
  exact call_ok hop

theorem callAt_refused {step : HostStep} {op : Files α → Except Errno (Files α)}
    (h : ¬ Performed refuses step (op fs)) : callAt refuses step op fs = .error .EPERM fs := by
  unfold callAt
  split
  · rfl
  · rename_i hgranted
    cases hop : op fs with
    | error status => exact call_error hop
    | ok fs' =>
        refine absurd ⟨Bool.eq_false_iff.mpr hgranted, ?_⟩ h
        rw [hop]
        rfl

theorem not_performed {step : HostStep} {result : Except Errno (Files α)}
    (h : refuses step = true) : ¬ Performed refuses step result := by
  intro hperformed
  have hgranted := hperformed.1
  rw [h] at hgranted
  cases hgranted

theorem isOk_ok {result : Except Errno (Files α)} (h : result.isOk = true) :
    ∃ fs', result = .ok fs' := by
  cases result with
  | ok fs' => exact ⟨fs', rfl⟩
  | error status => cases h

theorem rename_fits {old new : CStr} (h : fs.rename old new .none = .ok fs') :
    fits old = true ∧ fits new = true := by
  unfold Files.rename at h
  rw [if_neg (by simp [RenameFlags.none])] at h
  split at h
  · cases h
  · rename_i hfits
    rw [not_or, Bool.not_eq_false, Bool.not_eq_false] at hfits
    exact hfits

theorem file_ne_dir {d : α} : FileNode.file d ≠ .dir := by
  intro h
  cases h

theorem link_ne_dir {target : CStr} : (FileNode.link target : FileNode α) ≠ .dir := by
  intro h
  cases h

/-- What is not there is not moved. -/
theorem rename_missing {old new : CStr} (h : fs.get old = none) :
    (fs.rename old new .none).isOk = false := by
  unfold Files.rename
  rw [h, if_neg (by simp [RenameFlags.none])]
  by_cases hfits : fits old = false ∨ fits new = false
  · rw [if_pos hfits]
    rfl
  · rw [if_neg hfits]
    rfl

theorem fits_length {path : CStr} (h : fits path = true) : path.length < pathMax := by
  unfold fits at h
  rw [Bool.and_eq_true, decide_eq_true_iff] at h
  exact h.1

/-- How a final file gets another name: not at all, with the intermediate link left behind or gone,
or completely. -/
inductive Moving (refuses : HostStep → Bool) (move drop link : HostStep) (fs : Files α)
    (i final newFinal : CStr) (node : FileNode α) : EStateM.Result Errno (Files α) Unit → Prop
  | kept (h : ¬ Performed refuses move (fs.rename final newFinal .none)) :
      Moving refuses move drop link fs i final newFinal node (.error .EPERM fs)
  | torn (h : Performed refuses move (fs.rename final newFinal .none))
      (refused : refuses drop = true ∨ refuses link = true) (fs' : Files α)
      (intermediate : fs'.get i = fs.get i ∨ fs'.get i = none)
      (others : ∀ q, q ≠ i → fs'.get q = if q = newFinal then some node
        else if q = final then none else fs.get q) :
      Moving refuses move drop link fs i final newFinal node (.error .EPERM fs')
  | moved (h : Performed refuses move (fs.rename final newFinal .none))
      (dropped : refuses drop = false) (linked : refuses link = false) (fs' : Files α)
      (get : ∀ q, fs'.get q = if q = i then some (.link newFinal)
        else if q = newFinal then some node else if q = final then none else fs.get q) :
      Moving refuses move drop link fs i final newFinal node (.ok () fs')

theorem moveFinalAt_cases (move drop link : HostStep) {i final newFinal target : CStr}
    {node : FileNode α} (hnode : fs.get final = some node) (hdir : node ≠ .dir)
    (hlink : fs.get i = some (.link target)) (hi : i ≠ newFinal) (hi' : i ≠ final)
    (hfits : fits i = true) :
    Moving refuses move drop link fs i final newFinal node
      (moveFinalAt refuses move drop link i final newFinal fs) := by
  unfold moveFinalAt
  by_cases hmove : Performed refuses move (fs.rename final newFinal .none)
  · obtain ⟨fs1, hrename⟩ := isOk_ok hmove.2
    have hget := rename_get hnode hdir hrename
    have hget_i : fs1.get i = some (.link target) := by
      rw [hget, if_neg hi, if_neg hi', hlink]
    have hshort := fits_length (rename_fits hrename).2
    have hunlink := unlink_ok hfits hget_i link_ne_dir
    have hsymlink : (fs1.erase i).symlink newFinal i =
        .ok ((fs1.erase i).set i (.link newFinal)) :=
      symlink_ok hshort hfits (by rw [Files.get_erase, if_pos rfl])
    rw [bind_ok (callAt_performed hmove.1 hrename)]
    cases hdrop : refuses drop with
    | true =>
        rw [bind_error (callAt_refused (not_performed hdrop))]
        refine .torn hmove (Or.inl hdrop) fs1 (Or.inl (hget_i.trans hlink.symm)) ?_
        intro q hq
        exact hget q
    | false =>
        rw [bind_ok (callAt_performed hdrop hunlink)]
        cases hrelink : refuses link with
        | true =>
            rw [callAt_refused (not_performed hrelink)]
            refine .torn hmove (Or.inr hrelink) _ (Or.inr ?_) ?_
            · rw [Files.get_erase, if_pos rfl]
            · intro q hq
              rw [Files.get_erase, if_neg hq, hget]
        | false =>
            rw [callAt_performed hrelink hsymlink]
            refine .moved hmove hdrop hrelink _ ?_
            intro q
            rw [Files.get_set, Files.get_erase, hget]
            by_cases hq : q = i
            · rw [if_pos hq, if_pos hq]
            · rw [if_neg hq, if_neg hq, if_neg hq]
  · rw [bind_error (callAt_refused hmove)]
    exact .kept hmove

/-- What a first link needs once the file has been moved. -/
structure Placeable (refuses : HostStep → Bool) (fs : Files α) (j : CStr) : Prop where
  free : fs.get j = none
  intermediate : refuses .linkIntermediate = false
  original : refuses .linkOriginal = false

/-- How a file gets its first link: not at all, with its name gone or naming the file that is not
its, or completely. -/
inductive Linking (refuses : HostStep → Bool) (fs : Files α) (original j : CStr)
    (node : FileNode α) : EStateM.Result Errno (Files α) CStr → Prop
  | kept (h : ¬ Performed refuses .moveAway (fs.rename original (finalOf j 2) .none)) :
      Linking refuses fs original j node (.error .EPERM fs)
  | lost (h : Performed refuses .moveAway (fs.rename original (finalOf j 2) .none))
      (not : ¬ Placeable refuses fs j) (fs' : Files α)
      (gone : fs'.get original = none ∨
        original = j ∧ fs'.get original = some (.link (finalOf j 2))) :
      Linking refuses fs original j node (.error .EPERM fs')
  | linked (h : Performed refuses .moveAway (fs.rename original (finalOf j 2) .none))
      (linkable : Placeable refuses fs j) (fs' : Files α)
      (links : FirstLinked fs fs' original j node) :
      Linking refuses fs original j node (.ok j fs')

theorem firstLinkAt_cases {original path : CStr} {node : FileNode α}
    (hnode : fs.get original = some node) (hdir : node ≠ .dir)
    (hne : original ≠ finalOf (newIntermediate fs path) 2) :
    Linking refuses fs original (newIntermediate fs path) node
      (firstLinkAt refuses original path fs) := by
  unfold firstLinkAt
  rw [get_bind]
  generalize newIntermediate fs path = j at hne ⊢
  have hfinal : j ++ ".0002".toList = finalOf j 2 := rfl
  simp only [hfinal]
  by_cases hmove : Performed refuses .moveAway (fs.rename original (finalOf j 2) .none)
  · obtain ⟨fs1, hrename⟩ := isOk_ok hmove.2
    obtain ⟨hfits, hfits'⟩ := rename_fits hrename
    have hget := rename_get hnode hdir hrename
    have hgone : fs1.get original = none := by
      rw [hget, if_neg hne, if_pos rfl]
    have hj : fits j = true := fits_of_finalOf (by decide) hfits'
    have hshort := fits_length hfits'
    rw [bind_ok (callAt_performed hmove.1 hrename)]
    by_cases hlink : Performed refuses .linkIntermediate (fs1.symlink (finalOf j 2) j)
    · obtain ⟨fs2, hsymlink⟩ := isOk_ok hlink.2
      obtain ⟨-, -, hfree, rfl⟩ := symlink_inv hsymlink
      rw [bind_ok (callAt_performed hlink.1 hsymlink)]
      by_cases hname : Performed refuses .linkOriginal
          ((fs1.set j (.link (finalOf j 2))).symlink j original)
      · obtain ⟨fs3, hsymlink'⟩ := isOk_ok hname.2
        obtain ⟨-, -, hfree', rfl⟩ := symlink_inv hsymlink'
        have hne_link : original ≠ j := by
          rintro rfl
          rw [Files.get_set, if_pos rfl] at hfree'
          cases hfree'
        have hfree_j : fs.get j = none := by
          rwa [hget, if_neg finalOf_ne.symm, if_neg hne_link.symm] at hfree
        rw [bind_ok (callAt_performed hname.1 hsymlink')]
        refine .linked hmove ⟨hfree_j, hlink.1, hname.1⟩ _ ⟨fun q => ?_, hne_link, hne, hshort⟩
        rw [Files.get_set, Files.get_set, hget]
        by_cases hq : q = original
        · rw [if_pos hq, if_pos hq]
        · rw [if_neg hq, if_neg hq, if_neg hq]
      · rw [bind_error (callAt_refused hname)]
        refine .lost hmove ?_ _ ?_
        · intro hlinkable
          have hne_link : original ≠ j := by
            rintro rfl
            rw [hlinkable.free] at hnode
            cases hnode
          refine hname ⟨hlinkable.original, ?_⟩
          rw [symlink_ok (fits_length hj) hfits
            (by rw [Files.get_set, if_neg hne_link, hgone])]
          rfl
        · by_cases heq : original = j
          · exact Or.inr ⟨heq, by rw [Files.get_set, if_pos heq]⟩
          · exact Or.inl (by rw [Files.get_set, if_neg heq, hgone])
    · rw [bind_error (callAt_refused hlink)]
      refine .lost hmove ?_ _ (Or.inl hgone)
      intro hlinkable
      refine hlink ⟨hlinkable.intermediate, ?_⟩
      have hne_link : original ≠ j := by
        rintro rfl
        rw [hlinkable.free] at hnode
        cases hnode
      rw [symlink_ok hshort hj
        (by rw [hget, if_neg finalOf_ne.symm, if_neg hne_link.symm, hlinkable.free])]
      rfl
  · rw [bind_error (callAt_refused hmove)]
    exact .kept hmove

end Stops

end PRoot
