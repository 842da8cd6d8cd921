import PRoot.LinkConserved

/-!
# Renames of hard-linked files

Runs of links, unlinks and renames, where the kernel may refuse a call.

* `moveTree_sound`, `rename_sound`: names that move;
* `renames_conserved`: hard links survive the renames that the kernel performs;
* `renames_not_conserved`: a file that is renamed to itself.
-/

namespace PRoot

variable {α : Type} {fs fs' : Files α}

/-! ## Names that move -/

theorem baseName_of_slash (directory rest : CStr) :
    baseName (directory ++ '/' :: rest) = baseName ('/' :: rest) := by
  have hstop : ∀ l : List Char, (('/' :: l).takeWhile fun c => decide (c ≠ '/')) = [] :=
    fun _ => rfl
  unfold baseName
  rw [List.reverse_append, List.reverse_cons, List.append_assoc, List.singleton_append,
    List.takeWhile_append, List.takeWhile_append, hstop, hstop]

variable {old new : CStr}

/-- What moves keeps its name, below the paths that change places. -/
theorem swapTree_isL2s {deep : Bool} (h : Apart old new) (hold : isL2s old = false)
    (hnew : isL2s new = false) (q : CStr) :
    isL2s (swapTree deep old new q) = isL2s q := by
  have hrest : ∀ {rest}, rest = [] ∨ deep = true ∧ rest.head? = some '/' →
      isL2s (new ++ rest) = isL2s (old ++ rest) := by
    intro rest hrest
    rcases hrest with rfl | ⟨-, hhead⟩
    · rw [List.append_nil, List.append_nil, hold, hnew]
    · cases rest with
      | nil => cases hhead
      | cons c rest =>
          obtain rfl := Option.some.inj hhead
          unfold isL2s
          rw [baseName_of_slash, baseName_of_slash]
  by_cases hunder : under deep old q = true
  · obtain ⟨rest, rfl, hr⟩ := under_iff.mp hunder
    rw [swapTree_left deep old new hr, hrest hr]
  · by_cases hunder' : under deep new q = true
    · obtain ⟨rest, rfl, hr⟩ := under_iff.mp hunder'
      rw [swapTree_right h hr, hrest hr]
    · rw [swapTree, if_neg hunder, if_neg hunder']

/-- Nothing of the emulation lies below two paths. -/
def NothingBelow (fs : Files α) (old new : CStr) : Prop :=
  ∀ q, isL2s q = true → under true old q = true ∨ under true new q = true → fs.get q = none

theorem under_shallow {dir q : CStr} (h : under false dir q = true) : q = dir := by
  obtain ⟨rest, rfl, hrest⟩ := under_iff.mp h
  rcases hrest with rfl | ⟨hdeep, -⟩
  · exact List.append_nil _
  · cases hdeep

/-- **Names that change places** stay names of the same files. -/
theorem moveTree_sound (hs : LinksSound fs) {deep : Bool} (h : Apart old new)
    (hold : isL2s old = false) (hnew : isL2s new = false)
    (hbelow : deep = true → NothingBelow fs old new) :
    LinksSound (fs.moveTree deep old new) ∧
      hardLinks (fs.moveTree deep old new) = (hardLinks fs).permute (swapPerm deep h) := by
  have hsame : ∀ q, isL2s q = true → (fs.moveTree deep old new).get q = fs.get q := by
    intro q hq
    rw [fs.get_moveTree h]
    by_cases hin : under deep old q = true ∨ under deep new q = true
    · cases deep with
      | false =>
          have hq' : isL2s q = false := by
            rcases hin with hin | hin
            · rw [under_shallow hin, hold]
            · rw [under_shallow hin, hnew]
          rw [hq] at hq'
          cases hq'
      | true =>
          have hswap : under true old (swapTree true old new q) = true ∨
              under true new (swapTree true old new q) = true := by
            rcases hin with hin | hin
            · obtain ⟨rest, rfl, hrest⟩ := under_iff.mp hin
              rw [swapTree_left true old new hrest]
              exact Or.inr (under_append hrest)
            · obtain ⟨rest, rfl, hrest⟩ := under_iff.mp hin
              rw [swapTree_right h hrest]
              exact Or.inl (under_append hrest)
          have hl2s : isL2s (swapTree true old new q) = isL2s q := swapTree_isL2s h hold hnew q
          rw [hbelow rfl _ (hl2s.trans hq) hswap, hbelow rfl q hq hin]
    · rw [not_or] at hin
      rw [swapTree, if_neg hin.1, if_neg hin.2]
  have hlinks : hardLinks (fs.moveTree deep old new) = (hardLinks fs).permute (swapPerm deep h) := by
    refine HardLinks.ext (funext fun q => ?_) (inode_congr hs.tidy hsame)
    exact names_congr (fs.get_moveTree h q) (swapTree_isL2s h hold hnew q).symm
  refine ⟨⟨hs.tidy.congr hsame, ?_⟩, hlinks⟩
  rw [hlinks]
  exact hs.counts.permute _

/-- A device that is left behind is no name. -/
theorem set_device_sound (hs : LinksSound fs) {path : CStr} (device : α)
    (hguest : isL2s path = false) (hname : (hardLinks fs).names path = none) :
    LinksSound (fs.set path (.file device)) ∧
      hardLinks (fs.set path (.file device)) = hardLinks fs := by
  have hsame : ∀ q, isL2s q = true → (fs.set path (.file device)).get q = fs.get q := by
    intro q hq
    rw [Files.get_set, if_neg (ne_of_isL2s hq hguest)]
  have hlinks : hardLinks (fs.set path (.file device)) = hardLinks fs := by
    refine HardLinks.ext (funext fun q => ?_) (inode_congr hs.tidy hsame)
    by_cases hq : q = path
    · subst hq
      rw [hname]
      exact names_of_file ((fs.get_set ..).trans (if_pos rfl))
    · exact names_congr ((fs.get_set ..).trans (if_neg hq)) rfl
  refine ⟨⟨hs.tidy.congr hsame, ?_⟩, hlinks⟩
  rw [hlinks]
  exact hs.counts

/-! ## `renameat2` -/

/-- What `renameat2` does when it succeeds. -/
inductive RenameSpec (fs : Files α) (old new : CStr) (flags : RenameFlags α) : Files α → Prop
  | same (h : old = new) : RenameSpec fs old new flags fs
  | exchanged (apart : Apart old new) (deep : Bool)
      (dir : deep = true → fs.get old = some .dir ∨ fs.get new = some .dir)
      (exchange : flags.exchange = true) :
      RenameSpec fs old new flags (fs.moveTree deep old new)
  | replaced (apart : Apart old new) (node : FileNode α) (hnode : fs.get old = some node)
      (link : node.isDir = true → ∀ target, fs.get new ≠ some (.link target))
      (exchange : flags.exchange = false) (noreplace : flags.noreplace = true → fs.get new = none)
      (hfits : fits old = true ∧ fits new = true) :
      RenameSpec fs old new flags (fs.replace old new flags node.isDir)

theorem isDir_iff {node : FileNode α} : node.isDir = true ↔ node = .dir := by
  cases node <;> simp [FileNode.isDir]

variable {flags : RenameFlags α}

theorem rename_spec (h : fs.rename old new flags = .ok fs') : RenameSpec fs old new flags fs' := by
  unfold Files.rename at h
  split at h
  · cases h
  split at h
  · cases h
  rename_i hfits
  rw [not_or, Bool.not_eq_false, Bool.not_eq_false] at hfits
  cases hnode : fs.get old with
  | none =>
      rw [hnode] at h
      cases h
  | some node =>
      rw [hnode] at h
      simp only at h
      split at h
      · cases h
      rename_i hnoreplace
      split at h
      · cases h
      split at h
      · rename_i hsame
        obtain rfl := Except.ok.inj h
        exact .same hsame
      split at h
      · cases h
      split at h
      · cases h
      rename_i hleft hright
      have hapart : Apart old new := ⟨Bool.eq_false_iff.mpr hleft, Bool.eq_false_iff.mpr hright⟩
      split at h
      · rename_i hexchange
        obtain rfl := Except.ok.inj h
        refine .exchanged hapart _ (fun hdeep => ?_) hexchange
        rcases Bool.or_eq_true_iff.mp hdeep with hdeep | hdeep
        · exact Or.inl (hnode.trans (congrArg some (isDir_iff.mp hdeep)))
        · cases htarget : fs.get new with
          | none =>
              rw [htarget] at hdeep
              cases hdeep
          | some target =>
              rw [htarget] at hdeep
              exact Or.inr (congrArg some (isDir_iff.mp hdeep))
      · rename_i hexchange
        have hreplaced : (node.isDir = true → ∀ target, fs.get new ≠ some (.link target)) →
            RenameSpec fs old new flags (fs.replace old new flags node.isDir) := fun hlink =>
          .replaced hapart node hnode hlink (Bool.eq_false_iff.mpr hexchange)
            (fun hflag => Option.not_isSome_iff_eq_none.mp fun hsome => hnoreplace ⟨hflag, hsome⟩)
            hfits
        cases hisdir : node.isDir with
        | false =>
            rw [hisdir] at h hreplaced
            cases htarget : fs.get new with
            | none =>
                rw [htarget] at h
                obtain rfl := Except.ok.inj h
                exact hreplaced nofun
            | some target =>
                rw [htarget] at h
                cases target with
                | dir => cases h
                | file d =>
                    obtain rfl := Except.ok.inj h
                    exact hreplaced nofun
                | link t =>
                    obtain rfl := Except.ok.inj h
                    exact hreplaced nofun
        | true =>
            rw [hisdir] at h hreplaced
            cases htarget : fs.get new with
            | none =>
                rw [htarget] at h hreplaced
                obtain rfl := Except.ok.inj h
                exact hreplaced nofun
            | some target =>
                rw [htarget] at h hreplaced
                cases target with
                | dir =>
                    simp only at h
                    split at h
                    · cases h
                    · obtain rfl := Except.ok.inj h
                      exact hreplaced nofun
                | file d => cases h
                | link t => cases h

/-- A link gives way to what is not a directory. -/
structure Replaces (fs : Files α) (old new : CStr) (flags : RenameFlags α) : Prop where
  noreplace : flags.noreplace = false
  exchange : flags.exchange = false
  hfits : fits old = true ∧ fits new = true
  apart : Apart old new
  ne : old ≠ new
  node : ∃ node, fs.get old = some node ∧ node.isDir = false

theorem replaces_of_isOk {target : CStr} (hnew : fs.get new = some (.link target)) (hne : old ≠ new)
    (hexchange : flags.exchange = false) (h : (fs.rename old new flags).isOk = true) :
    Replaces fs old new flags := by
  cases hrename : fs.rename old new flags with
  | error status =>
      rw [hrename] at h
      cases h
  | ok fs2 =>
      cases rename_spec hrename with
      | same heq => exact absurd heq hne
      | exchanged _ _ _ hflag =>
          rw [hexchange] at hflag
          cases hflag
      | replaced apart node hnode link exchange noreplace hfits =>
          refine ⟨?_, exchange, hfits, apart, hne, node, hnode, ?_⟩
          · refine Bool.eq_false_iff.mpr fun hflag => ?_
            rw [noreplace hflag] at hnew
            cases hnew
          · exact Bool.eq_false_iff.mpr fun hdir => link hdir target hnew

theorem Replaces.rename {target : CStr} (h : Replaces fs old new flags)
    (hnew : fs.get new = some (.link target)) :
    fs.rename old new flags = .ok (fs.replace old new flags false) := by
  obtain ⟨node, hnode, hdir⟩ := h.node
  unfold Files.rename
  rw [h.exchange, h.hfits.1, h.hfits.2, hnode, hnew]
  simp only
  rw [h.noreplace, h.apart.left, h.apart.right, hdir]
  exact if_neg h.ne

theorem Replaces.congr (h : Replaces fs old new flags) (hget : fs'.get old = fs.get old) :
    Replaces fs' old new flags :=
  ⟨h.noreplace, h.exchange, h.hfits, h.apart, h.ne, by rw [hget]; exact h.node⟩

/-! ## Calls -/

/-- **A call takes a name away only if its count has gone down**: an unlink of a name, or
a rename to one, is performed by the kernel. -/
def LinkCall.Performed (fs : Files α) : LinkCall α → Prop
  | .link .. => True
  | .unlink path granted => (hardLinks fs).names path ≠ none →
      granted = true ∧ (fs.unlink path).isOk = true
  | .rename oldpath newpath flags granted => (hardLinks fs).names newpath ≠ none →
      granted = true ∧ (fs.rename oldpath newpath flags).isOk = true ∧ oldpath ≠ newpath ∧
        flags.exchange = false

/-- **A directory that moves** has nothing of the emulation below it. -/
def LinkCall.MovesNothing (fs : Files α) : LinkCall α → Prop
  | .rename oldpath newpath _ _ => fs.get oldpath = some .dir ∨ fs.get newpath = some .dir →
      NothingBelow fs oldpath newpath
  | _ => True

/-- What is moved over another path, once the name there is gone. -/
theorem replace_sound (hs : LinksSound fs) {fs1 : Files α} {deep : Bool} (hold : isL2s old = false)
    (hnew : isL2s new = false) (hspec : DecrementSpec fs new (.ok () fs1)) (hapart : Apart old new)
    (hbelow : deep = true → NothingBelow fs1 old new) :
    LinksSound (fs1.replace old new flags deep) ∧
      (hardLinks fs).SameData (hardLinks (fs1.replace old new flags deep)) := by
  have hunmade := erase_unmade hs hnew hspec
  have hbelow' : deep = true → NothingBelow (fs1.erase new) old new := by
    intro hdeep q hq hunder
    rw [Files.get_erase]
    split
    · rfl
    · exact hbelow hdeep q hq hunder
  obtain ⟨hsound, hlinks⟩ := moveTree_sound hunmade.sound hapart hold hnew hbelow'
  have hdata : (hardLinks fs).SameData (hardLinks ((fs1.erase new).moveTree deep old new)) := by
    rw [hlinks, hunmade.links]
    cases (hardLinks fs).names new with
    | none => exact HardLinks.SameData.refl _
    | some i => exact HardLinks.sameData_unlink (p := new)
  unfold Files.replace
  cases flags.whiteout with
  | none => exact ⟨hsound, hdata⟩
  | some device =>
      have hname : (hardLinks ((fs1.erase new).moveTree deep old new)).names old = none := by
        unfold hardLinks
        simp only
        have hgone : ((fs1.erase new).moveTree deep old new).get old = none := by
          have hswap := @swapTree_left deep old new [] (Or.inl rfl)
          rw [List.append_nil, List.append_nil] at hswap
          rw [Files.get_moveTree _ hapart, hswap, Files.get_erase, if_pos rfl]
        rw [hgone]
      obtain ⟨hsound', hlinks'⟩ := set_device_sound hsound device hold hname
      exact ⟨hsound', hlinks'.symm ▸ hdata⟩

/-- **A rename keeps the hard links sound**, and the data of the files that stay. -/
theorem renameCall_sound (hs : LinksSound fs) {granted : Bool}
    (hguest : LinkCall.Guest (.rename old new flags granted)) (hfree : DecrementFree fs new)
    (hperformed : LinkCall.Performed fs (.rename old new flags granted))
    (hmoves : LinkCall.MovesNothing fs (.rename old new flags granted)) :
    let fs2 := after (do
      decrementLinkCount new
      kernelCall granted fun fs => fs.rename old new flags : HostM α Unit) fs
    LinksSound fs2 ∧ (hardLinks fs).SameData (hardLinks fs2) := by
  obtain ⟨hold, hnew⟩ := hguest
  have hspec := decrement_spec hs hnew hfree
  intro fs2
  have hfs2 : fs2 = after (do
      decrementLinkCount new
      kernelCall granted fun fs => fs.rename old new flags : HostM α Unit) fs := rfl
  unfold after at hfs2
  cases hrun : decrementLinkCount new fs with
  | error status fs1 =>
      rw [bind_error hrun] at hfs2
      rw [hrun] at hspec
      cases hspec with
      | failed _ _ =>
          rw [hfs2]
          exact ⟨hs, HardLinks.SameData.refl _⟩
  | ok u fs1 =>
      rw [bind_ok hrun] at hfs2
      rw [hrun] at hspec
      have hspec' := hspec
      cases hspec with
      | counted i n d _ name group guest change =>
          -- the target is a name: the kernel performs the rename, and it goes
          obtain ⟨hgranted, hok, hne, hexchange⟩ := hperformed (by
            rw [name]
            nofun)
          have hget := (names_eq_some_iff.mp name).2.2
          have hreplaces := (replaces_of_isOk hget hne hexchange hok).congr (guest old hold)
          have hrename := hreplaces.rename ((guest new hnew).trans hget)
          unfold kernelCall at hfs2
          simp only at hfs2
          rw [if_pos hgranted, hrename] at hfs2
          rw [hfs2]
          exact replace_sound hs hold hnew hspec' hreplaces.apart nofun
      | skipped name =>
          unfold kernelCall at hfs2
          cases hkernel : (if granted = true then fs.rename old new flags else .error .EACCES) with
          | error status =>
              rw [hkernel] at hfs2
              rw [hfs2]
              exact ⟨hs, HardLinks.SameData.refl _⟩
          | ok fs3 =>
              rw [hkernel] at hfs2
              rw [hfs2]
              have hrename : fs.rename old new flags = .ok fs3 := by
                cases granted with
                | false => cases hkernel
                | true => exact hkernel
              cases rename_spec hrename with
              | same _ => exact ⟨hs, HardLinks.SameData.refl _⟩
              | exchanged apart deep dir _ =>
                  obtain ⟨hsound, hlinks⟩ := moveTree_sound hs apart hold hnew
                    fun hdeep => hmoves (dir hdeep)
                  refine ⟨hsound, ?_⟩
                  rw [hlinks]
                  exact HardLinks.SameData.refl _
              | replaced apart node hnode _ _ _ _ =>
                  exact replace_sound hs hold hnew hspec' apart fun hdir =>
                    hmoves (Or.inl (hnode.trans (congrArg some (isDir_iff.mp hdir))))

/-- **The calls that hard links survive.** -/
structure LinkCall.Clear (l2sDirectory : Option CStr) (fs : Files α) (linkCall : LinkCall α) :
    Prop where
  guest : linkCall.Guest
  renamesFree : linkCall.RenamesFree l2sDirectory fs
  room : linkCall.Room l2sDirectory fs
  performed : linkCall.Performed fs
  movesNothing : linkCall.MovesNothing fs

theorem refused_sameData {original i : CStr} {d : α} {hard : HardLinks CStr CStr α}
    (h : Base fs original i d hard) : (hardLinks fs).SameData hard := by
  cases h with
  | further n _ _ => exact HardLinks.SameData.refl _
  | first _ hi => exact HardLinks.sameData_create (p := original) hi d

/-- One call. -/
theorem LinkCall.Clear.step {l2sDirectory : Option CStr} {linkCall : LinkCall α}
    (hs : LinksSound fs) (h : linkCall.Clear l2sDirectory fs) :
    LinksSound (after (linkCall.run l2sDirectory) fs) ∧
      (hardLinks fs).SameData (hardLinks (after (linkCall.run l2sDirectory) fs)) := by
  cases linkCall with
  | rename old new flags granted =>
      exact renameCall_sound hs h.guest h.renamesFree h.performed h.movesNothing
  | unlink path granted =>
      have hspec := unlink_spec granted hs h.guest h.renamesFree
      have hafter : after (LinkCall.run l2sDirectory (.unlink path granted)) fs = after (do
          decrementLinkCount path
          kernelCall granted fun fs => fs.unlink path : HostM α Unit) fs := rfl
      rw [hafter, after]
      cases hrun : (do
          decrementLinkCount path
          kernelCall granted fun fs => fs.unlink path : HostM α Unit) fs with
      | ok u fs2 =>
          rw [hrun] at hspec
          cases hspec with
          | unmade _ hunmade =>
              refine ⟨hunmade.sound, ?_⟩
              simp only
              rw [hunmade.links]
              cases (hardLinks fs).names path with
              | none => exact HardLinks.SameData.refl _
              | some i => exact HardLinks.sameData_unlink
      | error status fs2 =>
          rw [hrun] at hspec
          cases hspec with
          | nothing _ => exact ⟨hs, HardLinks.SameData.refl _⟩
          | miscounted name hrefused _ _ =>
              obtain ⟨hgranted, hok⟩ := h.performed name
              rcases hrefused with hrefused | hrefused
              · rw [hgranted] at hrefused
                cases hrefused
              · rw [hok] at hrefused
                cases hrefused
  | link oldpath newpath granted =>
      have hspec := moveAndSymlinkPath_spec hs h.guest h.renamesFree h.room
      have hafter : after (LinkCall.run l2sDirectory (.link oldpath newpath granted)) fs =
        after (moveAndSymlinkPath l2sDirectory oldpath newpath granted) fs := rfl
      rw [hafter, after]
      cases hspec with
      | nothing status h =>
          rw [h]
          exact ⟨hs, HardLinks.SameData.refl _⟩
      | made fs2 i d hard h base made =>
          rw [h]
          simp only
          rw [made.links]
          exact ⟨made.sound, base.sameData⟩
      | refused status fs2 i d hard h base refused =>
          rw [h]
          simp only
          rw [refused.links]
          exact ⟨refused.sound, refused_sameData base⟩

/-- The data of a file with a name stays. -/
def KeepsData (fs fs' : Files α) : Prop := ∀ i final d, Intermediate fs i final →
  fs.get final = some (.file d) → (guestNames fs' i).Nonempty →
    ∃ final', Intermediate fs' i final' ∧ fs'.get final' = some (.file d)

theorem keepsData_of_sound (hs : LinksSound fs) (hs' : LinksSound fs')
    (hdata : (hardLinks fs).SameData (hardLinks fs')) : KeepsData fs fs' := by
  rintro i final d h hfile ⟨path, hguest, hget⟩
  obtain ⟨n, e, hg, rfl⟩ := h.group hs
  obtain ⟨m, e', hg', -⟩ := hs'.group (names_eq_some_iff.mpr ⟨hguest, h.1, hget⟩)
  rw [hg.file] at hfile
  obtain rfl := FileNode.file.inj (Option.some.inj hfile)
  obtain rfl := hdata _ _ _ _ _ hg.inode hg'.inode
  exact ⟨_, hg'.intermediate, hg'.file⟩

/-- **Renames never lose hard-linked data**, if each takes a name away exactly where it
takes one from the count: in every state of a run the counts are right and every name has
its final file, and no step changes the data of a file that has a name left. -/
theorem renames_conserved {l2sDirectory : Option CStr} {fs : Files α} {calls : List (LinkCall α)}
    (hstart : NoL2s fs)
    (hclear : AlongCalls (fun fs linkCall => linkCall.Clear l2sDirectory fs) l2sDirectory fs
      calls) :
    Conserved (runCalls l2sDirectory fs calls) ∧
      AlongCalls (fun fs linkCall => KeepsData fs (after (linkCall.run l2sDirectory) fs))
        l2sDirectory fs calls := by
  have hs := hstart.sound
  clear hstart
  induction calls generalizing fs with
  | nil => exact ⟨hs.conserved, True.intro⟩
  | cons linkCall calls ih =>
      obtain ⟨hs', hdata⟩ := hclear.1.step hs
      obtain ⟨hconserved, halong⟩ := ih hclear.2 hs'
      exact ⟨hconserved, keepsData_of_sound hs hs' hdata, halong⟩

/-- One of two names is moved to a third path. -/
def moveCalls : List (LinkCall Nat) :=
  [.link "/d/a".toList "/d/b".toList true, .rename "/d/a".toList "/d/c".toList .none true]

/-- A name that has been moved. -/
theorem renames_conserved_moved : Conserved (runCalls none oneFile moveCalls) := by
  refine (@renames_conserved Nat none oneFile moveCalls (noL2s_of_files (by decide))
    ⟨⟨⟨by decide, by decide⟩, oneFile_renamesFree, ?_, True.intro, True.intro⟩,
      ⟨⟨by decide, by decide⟩, ?_, True.intro, ?_, ?_⟩, True.intro⟩).1
  · intro path hpath
    have hbase : intermediatePath none "/d/a".toList = .ok "/d/.l2s.a".toList := by decide
    obtain rfl := Except.ok.inj (hbase.symm.trans hpath)
    decide
  · intro i final hget
    have hnone : (after ((LinkCall.link "/d/a".toList "/d/b".toList true).run none) oneFile).get
        "/d/c".toList = none := by decide
    rw [hnone] at hget
    cases hget
  · intro hname
    exact absurd (by decide) hname
  · intro hdir
    exact absurd hdir (by decide)

/-- One of two names is renamed to itself, and the other one goes. -/
def selfCalls : List (LinkCall Nat) :=
  [.link "/d/a".toList "/d/b".toList true, .rename "/d/a".toList "/d/a".toList .none true,
    .unlink "/d/b".toList true]

/-- A call is a rename. -/
def LinkCall.IsRename : LinkCall α → Prop
  | .rename .. => True
  | _ => False

/-- **A file that is renamed to itself** loses its data with its other name. -/
theorem renames_not_conserved : ¬ ∀ (l2sDirectory : Option CStr) (fs : Files Nat)
    (calls : List (LinkCall Nat)), NoL2s fs →
    AlongCalls (fun fs linkCall => linkCall.IsRename ∨ linkCall.Plain l2sDirectory fs)
      l2sDirectory fs calls →
    Conserved (runCalls l2sDirectory fs calls) := by
  intro h
  have hconserved := h none oneFile selfCalls (noL2s_of_files (by decide))
    ⟨Or.inr (plain_of_short (by decide) (Or.inl ⟨1, by decide⟩) (by decide)),
      Or.inl True.intro,
      Or.inr (plain_of_short (by decide)
        (Or.inr ⟨"/d/.l2s.a0001".toList, by decide, by decide⟩)
        (by decide)), True.intro⟩
  obtain ⟨final, -, hlink, -⟩ := hconserved.kept "/d/.l2s.a0001".toList "/d/a".toList
    (by decide) ⟨by decide, by decide⟩
  have hnone : (runCalls none oneFile selfCalls).get "/d/.l2s.a0001".toList = none := by
    decide
  rw [hnone] at hlink
  cases hlink

end PRoot
