import PRoot.LinkRenames

/-!
# What a link that succeeds has done

The functions of `link2symlink.c` on any directory, whatever its names are: each one, if it
succeeds, has made its calls on the host, in order.

* `bind_inv`, `call_inv`, `orFail_inv`: the calls of one function;
* `moveFinal_inv`, `firstLink_inv`, `furtherLink_inv`: what they leave;
* `moveAndSymlinkPath_inv`: how a link is made.
-/

namespace PRoot

variable {α : Type}

section

variable {β γ : Type} {fs fs' : Files α}

theorem bind_inv {x : HostM α β} {k : β → HostM α γ} {c : γ}
    (h : (x >>= k) fs = .ok c fs') : ∃ b fs1, x fs = .ok b fs1 ∧ k b fs1 = .ok c fs' := by
  change EStateM.bind x k fs = _ at h
  unfold EStateM.bind at h
  cases hx : x fs with
  | ok b fs1 =>
      rw [hx] at h
      exact ⟨b, fs1, rfl, h⟩
  | error status fs1 =>
      rw [hx] at h
      cases h

theorem after_ok {x : HostM α β} {b : β} (h : x fs = .ok b fs') : after x fs = fs' := by
  rw [after, h]

theorem succeeds_ok {x : HostM α Unit} (h : x fs = .ok () fs') : succeeds x fs = true := by
  rw [succeeds, h]

theorem call_inv {op : Files α → Except Errno (Files α)} (h : call op fs = .ok () fs') :
    op fs = .ok fs' := by
  unfold call at h
  cases hop : op fs with
  | ok fs1 =>
      rw [hop] at h
      cases h
      rfl
  | error status =>
      rw [hop] at h
      cases h

theorem kernelCall_inv {granted : Bool} {op : Files α → Except Errno (Files α)}
    (h : kernelCall granted op fs = .ok () fs') : granted = true ∧ op fs = .ok fs' := by
  unfold kernelCall at h
  cases granted with
  | false => cases h
  | true =>
      rw [if_pos rfl] at h
      cases hop : op fs with
      | ok fs1 =>
          rw [hop] at h
          cases h
          exact ⟨rfl, rfl⟩
      | error status =>
          rw [hop] at h
          cases h

theorem orFail_inv {value : Except Errno β} {b : β} (h : orFail value fs = .ok b fs') :
    value = .ok b ∧ fs = fs' := by
  unfold orFail at h
  cases value with
  | ok b' =>
      cases h
      exact ⟨rfl, rfl⟩
  | error status => cases h

theorem get_bind (k : Files α → HostM α γ) :
    ((get : HostM α (Files α)) >>= k) fs = k fs fs :=
  bind_ok rfl k

end

section

variable {fs fs' : Files α} {i : CStr}

theorem myReadlink_inv {path value : CStr} (h : myReadlink fs path = .ok value) :
    fs.get path = some (.link value) ∧ value.length < pathMax := by
  unfold myReadlink Files.readlink at h
  cases hget : fs.get path with
  | none =>
      rw [hget] at h
      cases h
  | some node =>
      rw [hget] at h
      cases node with
      | file d => cases h
      | dir => cases h
      | link target =>
          simp only at h
          split at h
          · cases h
          · rename_i hlength
            obtain rfl := Except.ok.inj h
            exact ⟨rfl, Nat.lt_of_not_le hlength⟩

/-- Where things are after something that is no directory was moved. -/
theorem rename_get {old new : CStr} {node : FileNode α} (hnode : fs.get old = some node)
    (hdir : node ≠ .dir) (h : fs.rename old new .none = .ok fs') (q : CStr) :
    fs'.get q = if q = new then some node else if q = old then none else fs.get q := by
  have hspec := rename_spec h
  cases hspec with
  | same heq =>
      subst heq
      by_cases hq : q = old
      · rw [if_pos hq, hq, hnode]
      · rw [if_neg hq, if_neg hq]
  | exchanged _ _ _ hexchange => cases hexchange
  | replaced hapart node' hnode' =>
      obtain rfl := Option.some.inj (hnode.symm.trans hnode')
      have hflat : node.isDir = false := Bool.eq_false_iff.mpr fun h => hdir (isDir_iff.mp h)
      rw [hflat, Files.get_replace fs hapart, hnode]

/-- The intermediate link is made anew. -/
theorem moveFinal_link {final newFinal : CStr} (h : moveFinal i final newFinal fs = .ok () fs') :
    fs'.get i = some (.link newFinal) := by
  unfold moveFinal at h
  obtain ⟨⟨⟩, fs1, -, hlinks⟩ := bind_inv h
  obtain ⟨⟨⟩, fs2, -, h3⟩ := bind_inv hlinks
  obtain ⟨-, -, -, rfl⟩ := symlink_inv (call_inv h3)
  rw [Files.get_set, if_pos rfl]

/-- **The final file has another name**, and the intermediate link leads there. -/
theorem moveFinal_inv {final newFinal : CStr} {node : FileNode α}
    (hnode : fs.get final = some node) (hdir : node ≠ .dir)
    (h : moveFinal i final newFinal fs = .ok () fs') :
    newFinal.length < pathMax ∧ ∀ q, fs'.get q = if q = i then some (.link newFinal)
      else if q = newFinal then some node else if q = final then none else fs.get q := by
  unfold moveFinal at h
  obtain ⟨⟨⟩, fs1, h1, hlinks⟩ := bind_inv h
  obtain ⟨⟨⟩, fs2, h2, h3⟩ := bind_inv hlinks
  obtain ⟨-, -, rfl⟩ := unlink_inv (call_inv h2)
  obtain ⟨hshort, -, -, rfl⟩ := symlink_inv (call_inv h3)
  refine ⟨hshort, fun q => ?_⟩
  rw [Files.get_set, Files.get_erase, rename_get hnode hdir (call_inv h1)]
  by_cases hq : q = i
  · rw [if_pos hq, if_pos hq]
  · rw [if_neg hq, if_neg hq, if_neg hq]

/-- **A first link**: the file is where the intermediate link leads, and that is where its name
leads. -/
structure FirstLinked (fs fs' : Files α) (original i : CStr) (node : FileNode α) : Prop where
  get : ∀ q, fs'.get q = if q = original then some (.link i)
    else if q = i then some (.link (finalOf i 2)) else if q = finalOf i 2 then some node
    else fs.get q
  ne_link : original ≠ i
  ne_final : original ≠ finalOf i 2
  short : (finalOf i 2).length < pathMax

theorem firstLink_inv {original path : CStr} {node : FileNode α}
    (hnode : fs.get original = some node) (hdir : node ≠ .dir)
    (h : firstLink original path fs = .ok i fs') :
    i = newIntermediate fs path ∧ FirstLinked fs fs' original i node := by
  unfold firstLink at h
  rw [get_bind] at h
  obtain ⟨⟨⟩, fs2, h2, hlinks⟩ := bind_inv h
  obtain ⟨⟨⟩, fs3, h3, hlink⟩ := bind_inv hlinks
  obtain ⟨⟨⟩, fs4, h4, hreturn⟩ := bind_inv hlink
  cases hreturn
  have hmoved := rename_get hnode hdir (call_inv h2)
  change ∀ q, fs2.get q = if q = finalOf (newIntermediate fs path) 2 then _ else _ at hmoved
  obtain ⟨hshort, -, hfree, hfs3⟩ := symlink_inv (call_inv h3)
  change fs3 = fs2.set _ (.link (finalOf (newIntermediate fs path) 2)) at hfs3
  obtain ⟨-, -, hgone, rfl⟩ := symlink_inv (call_inv h4)
  generalize newIntermediate fs path = j at *
  subst hfs3
  have hne_link : original ≠ j := by
    rintro rfl
    rw [Files.get_set, if_pos rfl] at hgone
    cases hgone
  have hne_final : original ≠ finalOf j 2 := by
    intro heq
    rw [Files.get_set, if_neg hne_link, hmoved, if_pos heq] at hgone
    cases hgone
  refine ⟨rfl, fun q => ?_, hne_link, hne_final, hshort⟩
  rw [Files.get_set, Files.get_set, hmoved]
  by_cases hq : q = original
  · rw [if_pos hq, if_pos hq]
  · rw [if_neg hq, if_neg hq, if_neg hq]

/-- **A further link**: the final file has the name with the next count. -/
theorem furtherLink_inv {j : CStr} (h : furtherLink i fs = .ok j fs') :
    j = i ∧ ∃ final, fs.get i = some (.link final) ∧
      moveFinal i final (withCount final (linkCount final + 1)) fs = .ok () fs' := by
  unfold furtherLink at h
  rw [get_bind] at h
  obtain ⟨final, fs1, hvalue, hmove⟩ := bind_inv h
  obtain ⟨hread, rfl⟩ := orFail_inv hvalue
  obtain ⟨⟨⟩, fs2, hmoved, hreturn⟩ := bind_inv hmove
  cases hreturn
  exact ⟨rfl, final, (myReadlink_inv hread).1, hmoved⟩

/-- The intermediate link of a new name, before that is made. -/
inductive LinkStart (l2sDirectory : Option CStr) (fs fs1 : Files α) (original i : CStr) : Prop
  | further (name : fs.get original = some (.link i)) (hl2s : isL2s i = true)
      (run : furtherLink i fs = .ok i fs1)
  | ofLink (target : CStr) (name : fs.get original = some (.link target))
      (hl2s : isL2s target = false) (run : firstLink original target fs = .ok i fs1)
  | ofFile (d : α) (path : CStr) (name : fs.get original = some (.file d))
      (hpath : intermediatePath l2sDirectory original = .ok path)
      (run : firstLink original path fs = .ok i fs1)

theorem symlinkNewName_inv {original newName : CStr} {granted : Bool}
    (h : symlinkNewName original i newName granted fs = .ok () fs') :
    fs.get newName = none ∧ fs' = fs.set newName (.link i) := by
  unfold symlinkNewName at h
  cases granted with
  | false => cases h
  | true =>
      rw [if_pos rfl] at h
      cases hlink : fs.symlink i newName with
      | error status =>
          rw [hlink] at h
          cases h
      | ok fs1 =>
          rw [hlink] at h
          cases h
          obtain ⟨-, -, hfree, hset⟩ := symlink_inv hlink
          exact ⟨hfree, hset⟩

/-- **How a link is made**: an intermediate link counts the new name, and then the new name leads
there. -/
theorem moveAndSymlinkPath_inv {l2sDirectory : Option CStr} {original newName : CStr}
    {granted : Bool}
    (h : moveAndSymlinkPath l2sDirectory original newName granted fs = .ok () fs') :
    ∃ i fs1, LinkStart l2sDirectory fs fs1 original i ∧ fs1.get newName = none ∧
      fs' = fs1.set newName (.link i) := by
  unfold moveAndSymlinkPath at h
  rw [get_bind] at h
  cases hnode : fs.get original with
  | none =>
      rw [hnode] at h
      cases h
  | some node =>
      rw [hnode] at h
      cases node with
      | dir => cases h
      | link target =>
          simp only [get_bind] at h
          obtain ⟨value, fs1, hvalue, hrest⟩ := bind_inv h
          obtain ⟨hread, rfl⟩ := orFail_inv hvalue
          obtain rfl := FileNode.link.inj
            (Option.some.inj (hnode.symm.trans (myReadlink_inv hread).1))
          by_cases hl2s : isL2s target = true
          · rw [if_pos hl2s] at hrest
            obtain ⟨i, fs2, hstart, hname⟩ := bind_inv hrest
            obtain ⟨hfree, hset⟩ := symlinkNewName_inv hname
            obtain ⟨rfl, -⟩ := furtherLink_inv hstart
            exact ⟨i, fs2, .further hnode hl2s hstart, hfree, hset⟩
          · rw [if_neg hl2s] at hrest
            obtain ⟨i, fs2, hstart, hname⟩ := bind_inv hrest
            obtain ⟨hfree, hset⟩ := symlinkNewName_inv hname
            exact ⟨i, fs2, .ofLink target hnode (Bool.eq_false_iff.mpr hl2s) hstart,
              hfree, hset⟩
      | file d =>
          obtain ⟨path, fs1, hvalue, hrest⟩ := bind_inv h
          obtain ⟨hpath, rfl⟩ := orFail_inv hvalue
          obtain ⟨i, fs2, hstart, hname⟩ := bind_inv hrest
          obtain ⟨hfree, hset⟩ := symlinkNewName_inv hname
          exact ⟨i, fs2, .ofFile d path hnode hpath hstart, hfree, hset⟩

end

end PRoot
