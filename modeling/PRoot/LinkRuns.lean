import PRoot.LinkSteps

/-!
# Names that come and go

What the calls of a tracee do to its emulated hard links, in terms of hard links.

* `moveAndSymlinkPath_spec`: a new name, or the host refuses it;
* `unlink_spec`: a name less.
-/

namespace PRoot

variable {α : Type} {fs fs' : Files α}

/-! ## A new name -/

/-- The files once a final file counts a name that is not there yet: `hard` are the hard
links without it. -/
structure Counted (fs fs1 : Files α) (original i : CStr) (hard : HardLinks CStr CStr α)
    (k : Nat) (d : α) : Prop where
  tidy : Tidy fs1
  group : Group fs1 i (k + 1) d
  pos : 1 ≤ k
  names : (hardLinks fs1).names = hard.names
  inode : (hardLinks fs1).inode = Function.update hard.inode i (some (k + 1, d))
  base : hard.inode i = some (k, d)
  counts : hard.CountsKept
  name : hard.names original = some i
  guest : ∀ q, isL2s q = false → fs1.get q = if q = original then some (.link i) else fs.get q

/-- What the files were linked as before the new name: the file had names already, or
its path is its first one. -/
inductive Base (fs : Files α) (original i : CStr) (d : α) : HardLinks CStr CStr α → Prop
  | further (n : Nat) (h : (hardLinks fs).names original = some i)
      (hi : (hardLinks fs).inode i = some (n, d)) : Base fs original i d (hardLinks fs)
  | first (h : fs.get original = some (.file d)) (hi : (hardLinks fs).inode i = none) :
      Base fs original i d ((hardLinks fs).create original i d)

theorem names_of_guest (h : ∀ q, isL2s q = false → fs'.get q = fs.get q) :
    (hardLinks fs').names = (hardLinks fs).names := by
  funext q
  cases hq : isL2s q with
  | true => rw [names_of_isL2s hq, names_of_isL2s hq]
  | false => exact names_congr (h q hq) rfl

variable {path i : CStr}

/-- One more name, where the file of the name is known. -/
theorem names_of_guest_update (hpath : isL2s path = false) (hi : isL2s i = true)
    (h : ∀ q, isL2s q = false →
      fs'.get q = if q = path then some (.link i) else fs.get q) :
    (hardLinks fs').names = Function.update (hardLinks fs).names path (some i) := by
  funext q
  by_cases hq : q = path
  · subst hq
    rw [Function.update_self]
    exact names_eq_some_iff.mpr ⟨hpath, hi, (h q hpath).trans (if_pos rfl)⟩
  · rw [Function.update_of_ne hq]
    cases hl2s : isL2s q with
    | true => rw [names_of_isL2s hl2s, names_of_isL2s hl2s]
    | false => exact names_congr ((h q hl2s).trans (if_neg hq)) rfl

variable {d : α}

theorem names_of_file (h : fs.get path = some (.file d)) :
    (hardLinks fs).names path = none := by
  unfold hardLinks
  simp only
  rw [h]

variable {original : CStr}

/-- A further link counts the new name. -/
theorem furtherLink_counted (hs : LinksSound fs) {n : Nat}
    (hname : (hardLinks fs).names original = some i) (hg : Group fs i n d) (hn : n < 9999)
    (hfree : fs.get (finalOf i (n + 1)) = none) :
    ∃ fs1, furtherLink i fs = .ok i fs1 ∧ Counted fs fs1 original i (hardLinks fs) n d ∧
      fs1.get (finalOf i n) = none := by
  obtain ⟨fs1, hrun, hguest, hchange⟩ := furtherLink_spec hg hn hfree
  obtain ⟨htidy, hinode⟩ := hchange.spec hg.isL2s hs.tidy
  have hget := (names_eq_some_iff.mp hname).2.2
  refine ⟨fs1, hrun, ⟨htidy, hchange.holds', hg.pos, names_of_guest hguest, hinode, hg.inode,
    hs.counts, hname, fun q hq => ?_⟩, ?_⟩
  · rw [hguest q hq]
    split
    · rename_i heq
      rw [heq, hget]
    · rfl
  · refine hchange.gone _ (Or.inr ⟨n, d, rfl, rfl⟩) ?_
    rintro (hfinal | ⟨m, e, heq, hfinal⟩)
    · exact finalOf_ne hfinal
    · obtain ⟨rfl, rfl⟩ := Prod.mk.inj (Option.some.inj heq)
      have hnm := (finalOf_inj hg.le (show n + 1 ≤ 9999 by omega) hfinal).2
      omega

/-- A first link counts the old name and the new one. -/
theorem firstLink_counted (hs : LinksSound fs) (hold : fs.get original = some (.file d))
    (hguest : isL2s original = false) (hpath : isL2s path = true)
    (hfree : fs.get (newIntermediate fs path) = none)
    (hfinal : fs.get (finalOf (newIntermediate fs path) 2) = none) :
    (∃ status, firstLink original path fs = .error status fs) ∨
    ∃ fs1, firstLink original path fs = .ok (newIntermediate fs path) fs1 ∧
      (hardLinks fs).inode (newIntermediate fs path) = none ∧
      Counted fs fs1 original (newIntermediate fs path)
        ((hardLinks fs).create original (newIntermediate fs path) d) 1 d ∧
      fs1.get (finalOf (newIntermediate fs path) 1) =
        fs.get (finalOf (newIntermediate fs path) 1) := by
  have hi := newIntermediate_isL2s fs hpath
  have hspec := firstLink_spec hold hguest hpath hfree hfinal
  generalize newIntermediate fs path = i at *
  rcases hspec with herror | ⟨fs1, hrun, hget, hchange⟩
  · exact Or.inl herror
  · right
    have hnone : (hardLinks fs).inode i = none := by
      unfold hardLinks
      simp only
      rw [if_pos hi, hfree]
    obtain ⟨htidy, hinode⟩ := hchange.spec hi hs.tidy
    refine ⟨fs1, hrun, hnone, ⟨htidy, hchange.holds', Nat.le_refl 1,
      names_of_guest_update hguest hi hget, ?_, Function.update_self ..,
      hs.counts.create (names_of_file hold) hnone d, Function.update_self .., hget⟩, ?_⟩
    · rw [hinode]
      exact (Function.update_idem ..).symm
    · refine hchange.same _ (finalOf_isL2s hi 1) ?_ ?_
      · rintro (hf | ⟨_, _, heq, -⟩)
        · exact finalOf_ne hf
        · cases heq
      · rintro (hf | ⟨m, e, heq, hf⟩)
        · exact finalOf_ne hf
        · obtain ⟨rfl, rfl⟩ := Prod.mk.inj (Option.some.inj heq)
          have hcount := (finalOf_inj (by decide) (by decide) hf).2
          cases hcount

/-- **What a link makes**: one more name, in the hard links and in the directory. -/
structure Made (fs fs2 : Files α) (original newName i : CStr) (hard : HardLinks CStr CStr α) :
    Prop where
  sound : LinksSound fs2
  links : hardLinks fs2 = hard.link newName i
  fresh : fs.get newName = none
  apart : newName ≠ original
  guest : ∀ q, isL2s q = false → fs2.get q =
    if q = newName then some (.link i) else if q = original then some (.link i) else fs.get q

/-- **What a refused link leaves**: a count that is right again. -/
structure Refused (fs fs2 : Files α) (original i : CStr) (hard : HardLinks CStr CStr α) :
    Prop where
  sound : LinksSound fs2
  links : hardLinks fs2 = hard
  guest : ∀ q, isL2s q = false → fs2.get q = if q = original then some (.link i) else fs.get q

theorem Group.congr {n : Nat} (hg : Group fs i n d)
    (h : ∀ q, PRoot.isL2s q = true → fs'.get q = fs.get q) : Group fs' i n d :=
  ⟨hg.isL2s, (h _ hg.isL2s).trans hg.link, (h _ (finalOf_isL2s hg.isL2s n)).trans hg.file,
    hg.pos, hg.le, hg.fits⟩

theorem Tidy.congr (hT : Tidy fs) (h : ∀ q, isL2s q = true → fs'.get q = fs.get q) :
    Tidy fs' := by
  intro q node hq hget
  obtain ⟨i, n, d, hg, hqi⟩ := hT q node hq ((h q hq).symm.trans hget)
  exact ⟨i, n, d, hg.congr h, hqi⟩

theorem inode_congr (hT : Tidy fs) (h : ∀ q, isL2s q = true → fs'.get q = fs.get q) :
    (hardLinks fs').inode = (hardLinks fs).inode := by
  funext i
  refine Option.ext fun file => ?_
  constructor
  · intro hi
    exact ((hT.congr h).group hi |>.congr fun q hq => (h q hq).symm).inode
  · intro hi
    exact ((hT.group hi).congr h).inode

variable {fs1 : Files α} {newName : CStr}

/-- The new name is made. -/
theorem Counted.made {fs2 : Files α} {hard : HardLinks CStr CStr α} {k : Nat}
    (hc : Counted fs fs1 original i hard k d) (hguest : isL2s original = false)
    (hnew : isL2s newName = false) (h : fs1.symlink i newName = .ok fs2) :
    Made fs fs2 original newName i hard := by
  obtain ⟨-, -, hfresh, rfl⟩ := symlink_inv h
  have hl2s := hc.group.isL2s
  have hget : ∀ q, (fs1.set newName (.link i)).get q =
      if q = newName then some (.link i) else fs1.get q := fs1.get_set newName (.link i)
  have hsame : ∀ q, isL2s q = true → (fs1.set newName (.link i)).get q = fs1.get q := by
    intro q hq
    rw [hget, if_neg (ne_of_isL2s hq hnew)]
  have hapart : newName ≠ original := by
    rintro rfl
    rw [hc.guest _ hguest, if_pos rfl] at hfresh
    cases hfresh
  have hlinks : hardLinks (fs1.set newName (.link i)) = hard.link newName i := by
    have hnames := names_of_guest_update hnew hl2s fun q _ => hget q
    have hinode := inode_congr hc.tidy hsame
    rw [hc.names] at hnames
    rw [hc.inode] at hinode
    unfold HardLinks.link
    rw [hc.base, ← hnames, Option.map_some, ← hinode]
  have hnone : hard.names newName = none := by
    rw [← hc.names]
    unfold hardLinks
    simp only
    rw [hfresh]
  refine ⟨⟨hc.tidy.congr hsame, ?_⟩, hlinks, ?_, hapart, fun q hq => ?_⟩
  · rw [hlinks]
    exact hc.counts.link hnone hc.base
  · rw [← hfresh, hc.guest _ hnew, if_neg hapart]
  · rw [hget, hc.guest q hq]

/-- The new name is refused, and the count goes down again. -/
theorem Counted.refused {hard : HardLinks CStr CStr α} {k : Nat}
    (hc : Counted fs fs1 original i hard k d) (hfree : fs1.get (finalOf i k) = none) :
    Refused fs (after (decrementLinkCount original) fs1) original i hard := by
  have hpos := hc.pos
  have hname : (hardLinks fs1).names original = some i := by
    rw [hc.names]
    exact hc.name
  obtain ⟨fs2, hrun, hguest, hchange⟩ := decrementLinkCount_spec hc.group hname fun _ => hfree
  have hless : lessOne (k + 1) d = some (k, d) := by
    rw [lessOne, Nat.add_sub_cancel, if_neg (by omega)]
  obtain ⟨htidy, hinode⟩ := hchange.spec hc.group.isL2s hc.tidy
  have hlinks : hardLinks fs2 = hard := by
    have hnames := names_of_guest hguest
    rw [hc.names] at hnames
    rw [hc.inode, Function.update_idem, hless, ← hc.base, Function.update_eq_self] at hinode
    exact HardLinks.ext hnames hinode
  have hafter : after (decrementLinkCount original) fs1 = fs2 := by
    rw [after, hrun]
  rw [hafter]
  refine ⟨⟨htidy, ?_⟩, hlinks, fun q hq => (hguest q hq).trans (hc.guest q hq)⟩
  rw [hlinks]
  exact hc.counts

/-! ## Where nothing is in the way -/

/-- The host makes a new name. -/
def makesName (fs : Files α) (i newName : CStr) (granted : Bool) : Bool :=
  granted && (fs.symlink i newName).isOk

/-- A final file whose count goes down gets a name that nothing has. -/
def DecrementFree (fs : Files α) (path : CStr) : Prop :=
  ∀ i final, fs.get path = some (.link i) → isL2s i = true → fs.get i = some (.link final) →
    linkCount final ≠ 1 → fs.get (withCount final (linkCount final - 1)) = none

/-- **No final file is moved onto another file.** -/
def LinkCall.RenamesFree (l2sDirectory : Option CStr) (fs : Files α) : LinkCall α → Prop
  | .link original newName granted =>
      match fs.get original with
      | some (.link i) => ∀ final, fs.get i = some (.link final) →
          fs.get (withCount final (linkCount final + 1)) = none
      | some (.file _) => ∀ path, intermediatePath l2sDirectory original = .ok path →
          fs.get (newIntermediate fs path ++ ".0002".toList) = none ∧
            (makesName fs (newIntermediate fs path) newName granted = false →
              fs.get (newIntermediate fs path ++ ".0001".toList) = none)
      | _ => True
  | .unlink path _ => DecrementFree fs path
  | .rename _ newpath _ _ => DecrementFree fs newpath

/-- **There is room for a link**: what is linked is a file, or a name that is counted up
to 9998, and one of the 999 intermediate links is unused. -/
def LinkCall.Room (l2sDirectory : Option CStr) (fs : Files α) : LinkCall α → Prop
  | .link original _ _ =>
      match fs.get original with
      | some (.link i) => isL2s i = true ∧
          ∀ final, fs.get i = some (.link final) → linkCount final < 9999
      | some (.file _) => ∀ path, intermediatePath l2sDirectory original = .ok path →
          fs.get (newIntermediate fs path) = none
      | _ => True
  | _ => True

/-- The paths of a call are no files of the emulation. -/
def LinkCall.Guest : LinkCall α → Prop
  | .link oldpath newpath _ => isL2s oldpath = false ∧ isL2s newpath = false
  | .unlink path _ => isL2s path = false
  | .rename oldpath newpath _ _ => isL2s oldpath = false ∧ isL2s newpath = false

/-- The last step of a link, whether the name is made or not. -/
theorem Counted.finish {hard : HardLinks CStr CStr α} {k : Nat} {granted : Bool}
    (hc : Counted fs fs1 original i hard k d) (hguest : isL2s original = false)
    (hnew : isL2s newName = false)
    (hfree : makesName fs i newName granted = false → fs1.get (finalOf i k) = none)
    (hexists : (fs.get original).isSome) :
    (∃ fs2, symlinkNewName original i newName granted fs1 = .ok () fs2 ∧
      Made fs fs2 original newName i hard) ∨
    (∃ status fs2, symlinkNewName original i newName granted fs1 = .error status fs2 ∧
      Refused fs fs2 original i hard) := by
  unfold symlinkNewName
  cases hmake : (if granted = true then fs1.symlink i newName else .error .EACCES) with
  | ok fs2 =>
      cases granted with
      | false => cases hmake
      | true => exact Or.inl ⟨fs2, rfl, hc.made hguest hnew hmake⟩
  | error status =>
      refine Or.inr ⟨status, _, rfl, hc.refused (hfree ?_)⟩
      cases granted with
      | false => rfl
      | true =>
          -- the host would have refused the name before the count changed as well
          cases hsym : fs.symlink i newName with
          | error status' =>
              unfold makesName
              rw [hsym]
              rfl
          | ok fs3 =>
              obtain ⟨hlength, hfits, hnone, -⟩ := symlink_inv hsym
              have hne : newName ≠ original := by
                rintro rfl
                rw [hnone] at hexists
                cases hexists
              have hnone1 : fs1.get newName = none := by
                rw [hc.guest _ hnew, if_neg hne, hnone]
              rw [if_pos rfl, symlink_ok hlength hfits hnone1] at hmake
              cases hmake

/-- How a link ends. -/
inductive LinkSpec (fs : Files α) (original newName : CStr) (status : EStateM.Result Errno (Files α) Unit) :
    Prop
  | nothing (status' : Errno) (h : status = .error status' fs)
  | made (fs2 : Files α) (i : CStr) (d : α) (hard : HardLinks CStr CStr α)
      (h : status = .ok () fs2) (base : Base fs original i d hard)
      (made : Made fs fs2 original newName i hard)
  | refused (status' : Errno) (fs2 : Files α) (i : CStr) (d : α) (hard : HardLinks CStr CStr α)
      (h : status = .error status' fs2) (base : Base fs original i d hard)
      (refused : Refused fs fs2 original i hard)

/-- **`move_and_symlink_path` adds a name**, or leaves the names as they are. -/
theorem moveAndSymlinkPath_spec (hs : LinksSound fs) {l2sDirectory : Option CStr} {granted : Bool}
    (hguest : LinkCall.Guest (.link original newName granted : LinkCall α))
    (hfree : LinkCall.RenamesFree l2sDirectory fs (.link original newName granted))
    (hroom : LinkCall.Room l2sDirectory fs (.link original newName granted)) :
    LinkSpec fs original newName
      (moveAndSymlinkPath l2sDirectory original newName granted fs) := by
  obtain ⟨hold, hnew⟩ := hguest
  unfold LinkCall.RenamesFree at hfree
  unfold LinkCall.Room at hroom
  simp only at hfree hroom
  unfold moveAndSymlinkPath
  rw [bind_ok (show (get : HostM α (Files α)) fs = .ok fs fs from rfl)]
  cases hget : fs.get original with
  | none => exact .nothing .ENOENT rfl
  | some node =>
      have hexists : (fs.get original).isSome := by rw [hget]; rfl
      rw [hget] at hfree hroom
      cases node with
      | dir => exact .nothing .EPERM rfl
      | link i =>
          simp only at hfree hroom ⊢
          obtain ⟨hl2s, hcount⟩ := hroom
          have hname : (hardLinks fs).names original = some i :=
            names_eq_some_iff.mpr ⟨hold, hl2s, hget⟩
          obtain ⟨n, d, hg, -⟩ := hs.group hname
          have hn := hcount _ hg.link
          have hclear := hfree _ hg.link
          have hcast : (n : Int) + 1 = (n + 1 : Nat) := rfl
          rw [linkCount_finalOf hg.le] at hn hclear
          rw [hcast, withCount_finalOf hg.le] at hclear
          obtain ⟨fs1, hrun, hc, hgone⟩ := furtherLink_counted hs hname hg (by omega) hclear
          rw [bind_ok (show (get : HostM α (Files α)) fs = .ok fs fs from rfl),
            bind_ok (orFail_ok (myReadlink_ok hget hg.length)), if_pos hl2s, bind_ok hrun]
          rcases hc.finish hold hnew (fun _ => hgone) hexists with
            ⟨fs2, hfinish, hmade⟩ | ⟨status, fs2, hfinish, hrefused⟩
          · exact .made fs2 i d _ hfinish (.further n hname hg.inode) hmade
          · exact .refused status fs2 i d _ hfinish (.further n hname hg.inode) hrefused
      | file d =>
          simp only at hfree hroom ⊢
          cases hpath : intermediatePath l2sDirectory original with
          | error status => exact .nothing status (bind_error (orFail_error rfl) _)
          | ok path =>
              obtain ⟨htwo, hone⟩ := hfree path hpath
              rw [bind_ok (orFail_ok rfl)]
              rcases firstLink_counted hs hget hold (intermediatePath_isL2s hpath)
                (hroom path hpath) htwo with ⟨status, herror⟩ | ⟨fs1, hrun, hnone, hc, hsame⟩
              · exact .nothing status (bind_error herror _)
              · rw [bind_ok hrun]
                rcases hc.finish hold hnew (fun hno => hsame.trans (hone hno)) hexists with
                  ⟨fs2, hfinish, hmade⟩ | ⟨status, fs2, hfinish, hrefused⟩
                · exact .made fs2 _ d _ hfinish (.first hget hnone) hmade
                · exact .refused status fs2 _ d _ hfinish (.first hget hnone) hrefused

/-- A link that succeeds had room. -/
theorem room_of_ok {l2sDirectory : Option CStr} {granted : Bool} {fs2 : Files α}
    (hold : isL2s original = false) (hget : fs.get original = some (.file d))
    (hfree : LinkCall.RenamesFree l2sDirectory fs (.link original newName granted))
    (h : moveAndSymlinkPath l2sDirectory original newName granted fs = .ok () fs2) :
    LinkCall.Room l2sDirectory fs (.link original newName granted) := by
  unfold LinkCall.RenamesFree at hfree
  unfold LinkCall.Room
  unfold moveAndSymlinkPath at h
  rw [bind_ok (show (get : HostM α (Files α)) fs = .ok fs fs from rfl), hget] at h
  simp only at h hfree ⊢
  rw [hget] at hfree ⊢
  simp only at hfree ⊢
  intro path hpath
  rw [bind_ok (orFail_ok hpath)] at h
  cases hfirst : firstLink original path fs with
  | error status fs1 =>
      rw [bind_error hfirst] at h
      cases h
  | ok i fs1 =>
      exact firstLink_free hget hold (intermediatePath_isL2s hpath) (hfree path hpath).1 hfirst

/-! ## A name less -/

/-- How the count behind a path goes down. -/
inductive DecrementSpec (fs : Files α) (path : CStr) :
    EStateM.Result Errno (Files α) Unit → Prop
  | counted (i : CStr) (n : Nat) (d : α) (fs1 : Files α)
      (name : (hardLinks fs).names path = some i) (group : Group fs i n d)
      (guest : ∀ q, isL2s q = false → fs1.get q = fs.get q)
      (change : PairChange fs fs1 i (some (n, d)) (lessOne n d)) :
      DecrementSpec fs path (.ok () fs1)
  | skipped (name : (hardLinks fs).names path = none) : DecrementSpec fs path (.ok () fs)
  | failed (name : (hardLinks fs).names path = none) (status : Errno) :
      DecrementSpec fs path (.error status fs)

theorem decrement_spec (hs : LinksSound fs) (hguest : isL2s path = false)
    (hfree : DecrementFree fs path) : DecrementSpec fs path (decrementLinkCount path fs) := by
  cases hname : (hardLinks fs).names path with
  | none =>
      rcases decrementLinkCount_skip hguest hname with h | ⟨status, h⟩
      · rw [h]
        exact .skipped hname
      · rw [h]
        exact .failed hname status
  | some i =>
      obtain ⟨-, hl2s, hget⟩ := names_eq_some_iff.mp hname
      obtain ⟨n, d, hg, -⟩ := hs.group hname
      have hpos := hg.pos
      have hclear : n ≠ 1 → fs.get (finalOf i (n - 1)) = none := by
        intro hne
        have hcast : (n : Int) - 1 = (n - 1 : Nat) := by omega
        have hnone := hfree i _ hget hl2s hg.link
        rw [linkCount_finalOf hg.le, hcast, withCount_finalOf hg.le] at hnone
        exact hnone (by omega)
      obtain ⟨fs1, hrun, hguest', hchange⟩ := decrementLinkCount_spec hg hname hclear
      rw [hrun]
      exact .counted i n d fs1 hname hg hguest' hchange

theorem unlink_inv (h : fs.unlink path = .ok fs') :
    fits path = true ∧ (∃ node, fs.get path = some node ∧ node ≠ .dir) ∧ fs' = fs.erase path := by
  unfold Files.unlink at h
  split at h
  · cases h
  · rename_i hfits
    rw [Bool.not_eq_false] at hfits
    split at h
    · cases h
    · cases h
    · rename_i node hnode hget
      refine ⟨hfits, ⟨node, hget, ?_⟩, (Except.ok.inj h).symm⟩
      rintro rfl
      exact hnode rfl

/-- **What an unlink makes**: one name less, in the hard links and in the directory. -/
structure Unmade (fs fs2 : Files α) (path : CStr) : Prop where
  sound : LinksSound fs2
  links : hardLinks fs2 = ((hardLinks fs).names path).elim (hardLinks fs) fun i =>
    (hardLinks fs).unlink path i
  guest : ∀ q, isL2s q = false → fs2.get q = if q = path then none else fs.get q

/-- A name goes from the directory, whose file has been counted down before. -/
theorem erase_unmade (hs : LinksSound fs) (hguest : isL2s path = false)
    (h : DecrementSpec fs path (.ok () fs1)) : Unmade fs (fs1.erase path) path := by
  have hsame : ∀ q, isL2s q = true → (fs1.erase path).get q = fs1.get q := by
    intro q hq
    rw [Files.get_erase, if_neg (ne_of_isL2s hq hguest)]
  have hget : ∀ q, isL2s q = false → fs1.get q = fs.get q →
      (fs1.erase path).get q = if q = path then none else fs.get q := by
    intro q _ hq
    rw [Files.get_erase, hq]
  have hnames : ∀ (hguest1 : ∀ q, isL2s q = false → fs1.get q = fs.get q),
      (hardLinks (fs1.erase path)).names = Function.update (hardLinks fs).names path none := by
    intro hguest1
    funext q
    by_cases hq : q = path
    · rw [hq, Function.update_self]
      unfold hardLinks
      simp only
      rw [Files.get_erase, if_pos rfl]
    · rw [Function.update_of_ne hq]
      cases hl2s : isL2s q with
      | true => rw [names_of_isL2s hl2s, names_of_isL2s hl2s]
      | false =>
          exact names_congr ((hget q hl2s (hguest1 q hl2s)).trans (if_neg hq)) rfl
  cases h with
  | counted i n d _ name group guest change =>
      obtain ⟨htidy, hinode⟩ := change.spec group.isL2s hs.tidy
      have hlinks : hardLinks (fs1.erase path) = (hardLinks fs).unlink path i := by
        refine HardLinks.ext (hnames guest) ?_
        rw [inode_congr htidy hsame, hinode]
        unfold HardLinks.unlink
        rw [group.inode]
        rfl
      refine ⟨⟨htidy.congr hsame, ?_⟩, ?_, fun q hq => hget q hq (guest q hq)⟩
      · rw [hlinks]
        exact hs.counts.unlink name
      · rw [name]
        exact hlinks
  | skipped name =>
      have hlinks : hardLinks (fs.erase path) = hardLinks fs := by
        refine HardLinks.ext ?_ (inode_congr hs.tidy hsame)
        rw [hnames fun _ _ => rfl, ← name, Function.update_eq_self]
      refine ⟨⟨hs.tidy.congr hsame, ?_⟩, ?_, fun q hq => hget q hq rfl⟩
      · rw [hlinks]
        exact hs.counts
      · rw [name]
        exact hlinks

/-- How an unlink ends. -/
inductive UnlinkSpec (fs : Files α) (path : CStr) (granted : Bool) :
    EStateM.Result Errno (Files α) Unit → Prop
  | nothing (status : Errno) : UnlinkSpec fs path granted (.error status fs)
  | unmade (fs2 : Files α) (unmade : Unmade fs fs2 path) : UnlinkSpec fs path granted (.ok () fs2)
  | miscounted (name : (hardLinks fs).names path ≠ none)
      (refused : granted = false ∨ (fs.unlink path).isOk = false) (status : Errno)
      (fs2 : Files α) : UnlinkSpec fs path granted (.error status fs2)

/-- Only what is found at a path decides whether it can be unlinked. -/
theorem unlink_isOk_congr (h : fs'.get path = fs.get path) :
    (fs'.unlink path).isOk = (fs.unlink path).isOk := by
  unfold Files.unlink
  rw [h]
  split
  · rfl
  · split <;> rfl

/-- **An unlink takes a name away**, or fails; it goes wrong where it fails after the
count has gone down. -/
theorem unlink_spec (granted : Bool) (hs : LinksSound fs) (hguest : isL2s path = false)
    (hfree : DecrementFree fs path) :
    UnlinkSpec fs path granted ((do
      decrementLinkCount path
      kernelCall granted fun fs => fs.unlink path : HostM α Unit) fs) := by
  have hspec := decrement_spec hs hguest hfree
  cases hrun : decrementLinkCount path fs with
  | error status fs1 =>
      rw [bind_error hrun]
      rw [hrun] at hspec
      cases hspec with
      | failed name _ => exact .nothing status
  | ok u fs1 =>
      rw [bind_ok hrun]
      rw [hrun] at hspec
      unfold kernelCall
      cases hkernel : (if granted = true then fs1.unlink path else .error .EACCES) with
      | ok fs2 =>
          have hunlink : fs1.unlink path = .ok fs2 := by
            cases granted with
            | false => cases hkernel
            | true => exact hkernel
          obtain ⟨-, -, rfl⟩ := unlink_inv hunlink
          exact .unmade _ (erase_unmade hs hguest hspec)
      | error status =>
          cases hspec with
          | counted i n d _ name group guest change =>
              refine .miscounted (by rw [name]; nofun) ?_ status fs1
              cases granted with
              | false => exact Or.inl rfl
              | true =>
                  right
                  rw [← unlink_isOk_congr (guest path hguest), show fs1.unlink path = _ from hkernel]
                  rfl
          | skipped name => exact .nothing status

end PRoot
