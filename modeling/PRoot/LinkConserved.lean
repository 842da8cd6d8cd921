import PRoot.LinkRuns

/-!
# Hard links are conserved

Runs of links and unlinks on a directory that has no `.l2s.` files to begin with.

* `links_conserved`: the counts are the numbers of the names, the names are names of the
  same data, and nothing is removed too early or too late;
* `links_not_conserved`: a final file that is moved onto an intermediate link.
-/

namespace PRoot

variable {α : Type}

/-- An intermediate link, which leads to a final file. -/
def Intermediate (fs : Files α) (i final : CStr) : Prop :=
  isL2s i = true ∧ fs.get i = some (.link final) ∧ ∃ d, fs.get final = some (.file d)

/-- The guest's names that point to an intermediate link. -/
def guestNames (fs : Files α) (i : CStr) : Set CStr :=
  {path | isL2s path = false ∧ fs.get path = some (.link i)}

/-- **Counts and data are conserved.** -/
structure Conserved (fs : Files α) : Prop where
  /-- The count in the name of a final file is the number of its names. -/
  count : ∀ i final, Intermediate fs i final →
    ∃ n : Nat, linkCount final = n ∧ (guestNames fs i).encard = n
  /-- Every name reads the content of the final file. -/
  content : ∀ i final d path, Intermediate fs i final → fs.get final = some (.file d) →
    path ∈ guestNames fs i → readPath fs path = some d
  /-- As long as there is a name, the intermediate link and the final file are there. -/
  kept : ∀ i path, isL2s i = true → path ∈ guestNames fs i → ∃ final, Intermediate fs i final
  /-- Every file of the emulation belongs to a file that has a name. -/
  removed : ∀ q node, isL2s q = true → fs.get q = some node →
    ∃ i final, Intermediate fs i final ∧ (q = i ∨ q = final) ∧ (guestNames fs i).Nonempty

/-- The directory has no `.l2s.` files, and no links to any. -/
def NoL2s (fs : Files α) : Prop := ∀ q node, fs.get q = some node →
  isL2s q = false ∧ ∀ target, node = .link target → isL2s target = false

/-- Something holds at every step of a run. -/
def AlongCalls (holds : Files α → LinkCall α → Prop) (l2sDirectory : Option CStr) :
    Files α → List (LinkCall α) → Prop
  | _, [] => True
  | fs, linkCall :: calls => holds fs linkCall ∧
      AlongCalls holds l2sDirectory (after (linkCall.run l2sDirectory) fs) calls

/-- A regular file or an emulated hard link. -/
def Linkable (fs : Files α) (path : CStr) : Prop :=
  (∃ d, fs.get path = some (.file d)) ∨
    ∃ i, isL2s i = true ∧ fs.get path = some (.link i)

/-- Something is done without an error. -/
def succeeds (todo : HostM α Unit) (fs : Files α) : Bool :=
  match todo fs with
  | .ok .. => true
  | .error .. => false

/-- **A link or an unlink** of a regular file or an emulated hard link that succeeds, where
fewer than 1000 intermediate links share a name and fewer than 9999 links exist per file. -/
structure LinkCall.Plain (l2sDirectory : Option CStr) (fs : Files α) (linkCall : LinkCall α) :
    Prop where
  path : match linkCall with
    | .link oldpath _ _ => Linkable fs oldpath
    | .unlink path _ => Linkable fs path
    | .rename .. => False
  succeeds : succeeds (linkCall.run l2sDirectory) fs = true
  share : ∀ path, {k : Nat | fs.get (path ++ format04 k) ≠ none}.encard < 1000
  links : ∀ i, (guestNames fs i).encard < 9999

/-- What is read at a path of the guest that is a file or an emulated hard link. -/
def dataAt (fs : Files α) (path : CStr) : Option α :=
  match fs.get path with
  | some (.file d) => some d
  | some (.link i) => if isL2s i then readPath fs path else none
  | _ => none

/-- **What a hard link does to the data** at the names of the guest. -/
def LinkCall.ActsOn (data data' : CStr → Option α) : LinkCall α → Prop
  | .link oldpath newpath _ => ∀ path, isL2s path = false →
      data' path = if path = newpath then data oldpath else data path
  | .unlink old _ => ∀ path, isL2s path = false →
      data' path = if path = old then none else data path
  | .rename .. => True

/-! ## Sound hard links -/

variable {n : Nat}

section

variable {fs : Files α} {i final : CStr}

theorem Intermediate.inode {d : α} (h : Intermediate fs i final)
    (hfile : fs.get final = some (.file d)) :
    (hardLinks fs).inode i = some ((linkCount final).toNat, d) := by
  unfold hardLinks
  simp only
  rw [if_pos h.1, h.2.1]
  simp only
  rw [hfile]

theorem Group.intermediate {d : α} (hg : Group fs i n d) :
    Intermediate fs i (finalOf i n) := ⟨hg.isL2s, hg.link, d, hg.file⟩

theorem guestNames_eq (hi : isL2s i = true) : guestNames fs i = (hardLinks fs).namesOf i := by
  ext path
  show _ ↔ (hardLinks fs).names path = some i
  rw [names_eq_some_iff]
  exact ⟨fun h => ⟨h.1, hi, h.2⟩, fun h => ⟨h.1, h.2.2⟩⟩

theorem Intermediate.group (hs : LinksSound fs) (h : Intermediate fs i final) :
    ∃ n d, Group fs i n d ∧ final = finalOf i n := by
  obtain ⟨d, hfile⟩ := h.2.2
  have hg := hs.tidy.group (h.inode hfile)
  exact ⟨_, d, hg, FileNode.link.inj (Option.some.inj (h.2.1.symm.trans hg.link))⟩

/-- A name reads the final file. -/
theorem readPath_name {d : α} (hg : Group fs i n d) {path : CStr}
    (hget : fs.get path = some (.link i)) : readPath fs path = some d := by
  have hfinal : ∀ m, fs.follow (m + 1) (finalOf i n) = some (.file d) := by
    intro m
    rw [Files.follow, hg.file]
  have hread := myReadlink_ok hget hg.length
  have hread' := myReadlink_ok hg.link hg.final_length
  unfold readPath translatedPath
  rw [hread]
  simp only
  split
  · rename_i d' hfollow
    split at hfollow
    · rw [hread'] at hfollow
      rw [hfinal] at hfollow
      exact congrArg some (FileNode.file.inj (Option.some.inj hfollow)).symm
    · rw [Files.follow, hget] at hfollow
      simp only at hfollow
      rw [Files.follow, hg.link] at hfollow
      simp only at hfollow
      rw [hfinal] at hfollow
      exact congrArg some (FileNode.file.inj (Option.some.inj hfollow)).symm
  · rename_i hno
    refine absurd ?_ (hno d)
    split
    · rw [hread']
      exact hfinal 40
    · rw [Files.follow, hget]
      simp only
      rw [Files.follow, hg.link]
      exact hfinal 38

theorem LinksSound.conserved (hs : LinksSound fs) : Conserved fs := by
  refine ⟨?_, ?_, ?_, ?_⟩
  · intro i final h
    obtain ⟨n, d, hg, rfl⟩ := h.group hs
    refine ⟨n, linkCount_finalOf hg.le, ?_⟩
    rw [guestNames_eq hg.isL2s]
    exact hs.counts.count hg.inode
  · intro i final d path h hfile hpath
    obtain ⟨n, e, hg, rfl⟩ := h.group hs
    rw [hg.file] at hfile
    obtain rfl := FileNode.file.inj (Option.some.inj hfile)
    exact readPath_name hg hpath.2
  · intro i path hi hpath
    obtain ⟨n, d, hg, -⟩ := hs.group (names_eq_some_iff.mpr ⟨hpath.1, hi, hpath.2⟩)
    exact ⟨_, hg.intermediate⟩
  · intro q node hq hget
    obtain ⟨i, n, d, hg, hqi⟩ := hs.tidy q node hq hget
    refine ⟨i, _, hg.intermediate, hqi, ?_⟩
    refine Set.nonempty_iff_ne_empty.mpr fun hempty => ?_
    have hcount := hs.counts.count hg.inode
    rw [← guestNames_eq hg.isL2s, hempty, Set.encard_empty] at hcount
    have hzero : n = 0 := by simpa using hcount.symm
    have hpos := hg.pos
    omega

theorem NoL2s.sound (h : NoL2s fs) : LinksSound fs := by
  have hnames : ∀ path i, (hardLinks fs).names path ≠ some i := by
    intro path i hi
    obtain ⟨-, hl2s, hget⟩ := names_eq_some_iff.mp hi
    rw [(h path _ hget).2 i rfl] at hl2s
    cases hl2s
  have hinode : ∀ i, (hardLinks fs).inode i = none := by
    intro i
    unfold hardLinks
    simp only
    split
    · rename_i hl2s
      cases hget : fs.get i with
      | none => rfl
      | some node =>
          rw [(h i node hget).1] at hl2s
          cases hl2s
    · rfl
  refine ⟨?_, ?_, ?_, ?_⟩
  · intro q node hq hget
    rw [(h q node hget).1] at hq
    cases hq
  · intro i n d hi
    rw [hinode] at hi
    cases hi
  · intro i n d hi
    rw [hinode] at hi
    cases hi
  · intro p i hp
    exact absurd hp (hnames p i)

/-! ## The data at names -/

variable {fs2 : Files α} {path : CStr} {d : α}

theorem dataAt_file (h : fs.get path = some (.file d)) : dataAt fs path = some d := by
  unfold dataAt
  rw [h]

theorem dataAt_name (hs : LinksSound fs) (hname : (hardLinks fs).names path = some i)
    (hi : (hardLinks fs).inode i = some (n, d)) : dataAt fs path = some d := by
  obtain ⟨-, hl2s, hget⟩ := names_eq_some_iff.mp hname
  unfold dataAt
  rw [hget]
  simp only
  rw [if_pos hl2s]
  exact readPath_name (hs.tidy.group hi) hget

/-- What is found at a path decides its data, if the files behind the names stay. -/
theorem dataAt_congr (hs : LinksSound fs) (hs2 : LinksSound fs2) (hguest : isL2s path = false)
    (hget : fs2.get path = fs.get path) (hdata : (hardLinks fs).SameData (hardLinks fs2)) :
    dataAt fs2 path = dataAt fs path := by
  cases hnode : fs.get path with
  | none =>
      rw [hnode] at hget
      unfold dataAt
      rw [hget, hnode]
  | some node =>
      rw [hnode] at hget
      cases node with
      | dir =>
          unfold dataAt
          rw [hget, hnode]
      | file d => rw [dataAt_file hget, dataAt_file hnode]
      | link target =>
          cases hl2s : isL2s target with
          | false =>
              unfold dataAt
              rw [hget, hnode]
              simp only
              rw [hl2s]
              rfl
          | true =>
              have hname := names_eq_some_iff.mpr ⟨hguest, hl2s, hnode⟩
              have hname2 := names_eq_some_iff.mpr ⟨hguest, hl2s, hget⟩
              obtain ⟨n, d, hi⟩ := hs.counts.named hname
              obtain ⟨m, e, hi2⟩ := hs2.counts.named hname2
              rw [dataAt_name hs hname hi, dataAt_name hs2 hname2 hi2, hdata _ _ _ _ _ hi hi2]

variable {original : CStr} {hard : HardLinks CStr CStr α}

theorem Base.dataAt (hs : LinksSound fs) (h : Base fs original i d hard) :
    dataAt fs original = some d := by
  cases h with
  | further n hname hi => exact dataAt_name hs hname hi
  | first hget _ => exact dataAt_file hget

/-- The file that is linked is the one that was there. -/
theorem Base.inode (h : Base fs original i d hard) :
    ∃ k, hard.inode i = some (k, d) := by
  cases h with
  | further n _ hi => exact ⟨n, hi⟩
  | first _ _ => exact ⟨1, Function.update_self ..⟩

theorem Base.sameData {newName : CStr} (h : Base fs original i d hard) :
    (hardLinks fs).SameData (hard.link newName i) := by
  intro j n d m e hj hj'
  cases h with
  | further _ _ _ => exact HardLinks.sameData_link j n d m e hj hj'
  | first _ hi =>
      have hji : j ≠ i := by
        rintro rfl
        rw [hi] at hj
        cases hj
      exact HardLinks.sameData_link j n d m e ((Function.update_of_ne hji _ _).trans hj) hj'

/-- A link gives the data a name more. -/
theorem Made.dataAt {newName : CStr} (hs : LinksSound fs) (hbase : Base fs original i d hard)
    (h : Made fs fs2 original newName i hard) (hguest : isL2s path = false) :
    dataAt fs2 path = if path = newName then dataAt fs original else dataAt fs path := by
  have hsame : (hardLinks fs).SameData (hard.link newName i) := hbase.sameData
  rw [← h.links] at hsame
  obtain ⟨k, hk⟩ := hbase.inode
  have hi2 : (hardLinks fs2).inode i = some (k + 1, d) := by
    rw [h.links, HardLinks.link, hk]
    exact Function.update_self ..
  have hname : ∀ q, isL2s q = false → fs2.get q = some (.link i) → PRoot.dataAt fs2 q = some d := by
    intro q hq hget
    have hl2s : isL2s i = true := (h.sound.tidy.group hi2).isL2s
    exact dataAt_name h.sound (names_eq_some_iff.mpr ⟨hq, hl2s, hget⟩) hi2
  have hget := h.guest path hguest
  by_cases hp : path = newName
  · rw [if_pos hp] at hget ⊢
    rw [hname path hguest hget, hbase.dataAt hs]
  · rw [if_neg hp] at hget ⊢
    by_cases ho : path = original
    · rw [if_pos ho] at hget
      rw [hname path hguest hget, ho, hbase.dataAt hs]
    · rw [if_neg ho] at hget
      exact dataAt_congr hs h.sound hguest hget hsame

/-- An unlink leaves the data at the other names. -/
theorem Unmade.dataAt {old : CStr} (hs : LinksSound fs) (h : Unmade fs fs2 old)
    (hguest : isL2s path = false) :
    PRoot.dataAt fs2 path = if path = old then none else PRoot.dataAt fs path := by
  have hget := h.guest path hguest
  by_cases hp : path = old
  · rw [if_pos hp] at hget ⊢
    unfold PRoot.dataAt
    rw [hget]
  · rw [if_neg hp] at hget ⊢
    refine dataAt_congr hs h.sound hguest hget ?_
    rw [h.links]
    cases (hardLinks fs).names old with
    | none => exact HardLinks.SameData.refl _
    | some i => exact HardLinks.sameData_unlink

end

/-! ## Runs -/

theorem exists_ok {todo : HostM α Unit} {fs : Files α} (h : succeeds todo fs = true) :
    ∃ fs', todo fs = .ok () fs' := by
  unfold succeeds at h
  cases hrun : todo fs with
  | ok u fs' => exact ⟨fs', rfl⟩
  | error status fs' =>
      rw [hrun] at h
      cases h

/-- One link or unlink. -/
theorem LinkCall.Plain.step {fs : Files α} {l2sDirectory : Option CStr} {linkCall : LinkCall α}
    (hs : LinksSound fs) (hplain : linkCall.Plain l2sDirectory fs) (hguest : linkCall.Guest)
    (hfree : linkCall.RenamesFree l2sDirectory fs) :
    LinksSound (after (linkCall.run l2sDirectory) fs) ∧
      linkCall.ActsOn (dataAt fs) (dataAt (after (linkCall.run l2sDirectory) fs)) := by
  obtain ⟨fs2, hrun⟩ := exists_ok hplain.succeeds
  have hafter : after (linkCall.run l2sDirectory) fs = fs2 := by
    rw [after, hrun]
  rw [hafter]
  cases linkCall with
  | rename _ _ _ _ => exact hplain.path.elim
  | unlink path granted =>
      have hspec := unlink_spec granted hs hguest hfree
      have hrun' : (do
          decrementLinkCount path
          kernelCall granted fun fs => fs.unlink path : HostM α Unit) fs = .ok () fs2 := hrun
      rw [hrun'] at hspec
      cases hspec with
      | unmade _ h => exact ⟨h.sound, fun q hq => h.dataAt hs hq⟩
  | link oldpath newpath granted =>
      have hroom : LinkCall.Room l2sDirectory fs (.link oldpath newpath granted) := by
        rcases hplain.path with ⟨d, hfile⟩ | ⟨i, hl2s, hlink⟩
        · exact room_of_ok hguest.1 hfile hfree hrun
        · unfold LinkCall.Room
          simp only
          rw [hlink]
          refine ⟨hl2s, fun final hfinal => ?_⟩
          have hname := names_eq_some_iff.mpr ⟨hguest.1, hl2s, hlink⟩
          obtain ⟨n, d, hg, hi⟩ := hs.group hname
          have hcount := hs.counts.count hi
          have hlt := hplain.links i
          rw [guestNames_eq hl2s, hcount] at hlt
          obtain rfl := FileNode.link.inj (Option.some.inj (hg.link.symm.trans hfinal))
          rw [linkCount_finalOf hg.le]
          have hlt' : n < 9999 := by exact_mod_cast hlt
          omega
      have hspec := moveAndSymlinkPath_spec hs hguest hfree hroom
      have hrun' : moveAndSymlinkPath l2sDirectory oldpath newpath granted fs = .ok () fs2 := hrun
      rw [hrun'] at hspec
      cases hspec with
      | nothing _ h => cases h
      | refused _ _ _ _ _ h _ _ => cases h
      | made fs3 i d hard h base made =>
          obtain rfl := (EStateM.Result.ok.inj h).2
          exact ⟨made.sound, fun q hq => made.dataAt hs base hq⟩

/-- **Hard-link emulation conserves data and counts**, if no final file is moved onto
another file: after any run of links and unlinks the counts are the numbers of the names,
the names read the data of their file, and each step does to the data what a hard link
does. -/
theorem links_conserved {l2sDirectory : Option CStr} {fs : Files α} {calls : List (LinkCall α)}
    (hstart : NoL2s fs)
    (hplain : AlongCalls (fun fs linkCall => linkCall.Plain l2sDirectory fs) l2sDirectory fs calls)
    (hclear : AlongCalls (fun fs linkCall => linkCall.Guest ∧ linkCall.RenamesFree l2sDirectory fs)
      l2sDirectory fs calls) :
    Conserved (runCalls l2sDirectory fs calls) ∧
      AlongCalls (fun fs linkCall => linkCall.ActsOn (dataAt fs)
        (dataAt (after (linkCall.run l2sDirectory) fs))) l2sDirectory fs calls := by
  have hs := hstart.sound
  clear hstart
  induction calls generalizing fs with
  | nil => exact ⟨hs.conserved, True.intro⟩
  | cons linkCall calls ih =>
      obtain ⟨hs', hacts⟩ := hplain.1.step hs hclear.1.1 hclear.1.2
      obtain ⟨hconserved, halong⟩ := ih hplain.2 hclear.2 hs'
      exact ⟨hconserved, hacts, halong⟩

/-! ## Small directories -/

/-- There are no more names than entries. -/
theorem encard_le_length (fs : Files α) {s : Set CStr} (h : ∀ path ∈ s, fs.get path ≠ none) :
    s.encard ≤ fs.length := by
  have hkeys : s ⊆ ((fs.map Prod.fst).toFinset : Set CStr) := by
    intro path hpath
    rw [Finset.mem_coe, List.mem_toFinset]
    by_contra hno
    refine h path hpath (List.lookup_eq_none_iff.mpr fun entry hentry => ?_)
    have hne : path ≠ entry.1 := by
      rintro rfl
      exact hno (List.mem_map_of_mem hentry)
    simpa using hne
  refine (Set.encard_le_encard hkeys).trans ?_
  rw [Set.encard_coe_eq_coe_finsetCard]
  refine Nat.cast_le.mpr ((List.toFinset_card_le _).trans ?_)
  rw [List.length_map]

theorem format04_injective {m : Nat} (h : format04 n = format04 m) : n = m := by
  rw [← digitsValue_format04 n, h, digitsValue_format04]

/-- A call is plain on a small directory, if it is about what can be linked and
succeeds. -/
theorem plain_of_short {fs : Files α} {l2sDirectory : Option CStr} {linkCall : LinkCall α}
    (hlength : fs.length < 999)
    (hpath : match linkCall with
      | .link oldpath _ _ => Linkable fs oldpath
      | .unlink path _ => Linkable fs path
      | .rename .. => False)
    (hrun : succeeds (linkCall.run l2sDirectory) fs = true) :
    linkCall.Plain l2sDirectory fs := by
  have hlt : (fs.length : ENat) < 999 := by exact_mod_cast hlength
  refine ⟨hpath, hrun, fun path => ?_, fun i => ?_⟩
  · have hinj : Function.Injective fun k : Nat => path ++ format04 k := by
      intro n m h
      exact format04_injective (List.append_cancel_left h)
    rw [← hinj.encard_image]
    refine (encard_le_length fs ?_).trans_lt (hlt.trans (by decide))
    rintro q ⟨k, hk, rfl⟩
    exact hk
  · refine (encard_le_length fs ?_).trans_lt (hlt.trans (by decide))
    rintro q ⟨-, hq⟩ hnone
    rw [hq] at hnone
    cases hnone

/-- What is found is an entry. -/
theorem entry_mem {fs : Files α} {q : CStr} {node : FileNode α} (hget : fs.get q = some node) :
    (q, node) ∈ fs := by
  induction fs with
  | nil => cases hget
  | cons entry fs ih =>
      unfold Files.get at hget ih
      rw [List.lookup_cons] at hget
      split at hget
      · rename_i hq
        obtain rfl := Option.some.inj hget
        rw [eq_of_beq hq]
        exact List.mem_cons_self
      · exact List.mem_cons_of_mem _ (ih hget)

/-- A directory of files without `.l2s.` names. -/
theorem noL2s_of_files {fs : Files α} (h : fs.all (fun entry => !isL2s entry.1 &&
    match entry.2 with
    | .file _ => true
    | _ => false) = true) : NoL2s fs := by
  intro q node hget
  have hmem := entry_mem hget
  have hentry := List.all_eq_true.mp h _ hmem
  rw [Bool.and_eq_true, Bool.not_eq_true'] at hentry
  refine ⟨hentry.1, ?_⟩
  rintro target rfl
  cases hentry.2

/-- A directory of one file. -/
def oneFile : Files Nat := [("/d/a".toList, .file 1)]

/-- The file gets a second name, and loses the first one. -/
def shareCalls : List (LinkCall Nat) :=
  [.link "/d/a".toList "/d/b".toList true, .unlink "/d/a".toList true]

/-- Nothing is in the way of the second name. -/
theorem oneFile_renamesFree : LinkCall.RenamesFree none oneFile
    (.link "/d/a".toList "/d/b".toList true) := by
  intro path hpath
  have hbase : intermediatePath none "/d/a".toList = .ok "/d/.l2s.a".toList := by decide
  obtain rfl := Except.ok.inj (hbase.symm.trans hpath)
  exact ⟨by decide, fun _ => by decide⟩

/-- A file that has got a second name and has lost the first one. -/
theorem links_conserved_shared : Conserved (runCalls none oneFile shareCalls) := by
  refine (@links_conserved Nat none oneFile shareCalls
    (noL2s_of_files (by decide)) ?_ ?_).1
  · exact ⟨plain_of_short (by decide) (Or.inl ⟨1, by decide⟩) (by decide),
      plain_of_short (by decide)
        (Or.inr ⟨"/d/.l2s.a0001".toList, by decide, by decide⟩)
        (by decide), True.intro⟩
  · refine ⟨⟨⟨by decide, by decide⟩, oneFile_renamesFree⟩,
      ⟨show isL2s _ = false by decide, fun i final hget _ hlink _ => ?_⟩, True.intro⟩
    have hname : (after ((LinkCall.link "/d/a".toList "/d/b".toList true).run none) oneFile).get
        "/d/a".toList = some (.link "/d/.l2s.a0001".toList) := by decide
    obtain rfl := FileNode.link.inj (Option.some.inj (hname.symm.trans hget))
    have hfinal : (after ((LinkCall.link "/d/a".toList "/d/b".toList true).run none) oneFile).get
        "/d/.l2s.a0001".toList = some (.link "/d/.l2s.a0001.0002".toList) := by decide
    obtain rfl := FileNode.link.inj (Option.some.inj (hfinal.symm.trans hlink))
    decide

/-- A directory of two files, the second with a name like an intermediate link of the
first. -/
def clashFiles : Files Nat := [("/d/a".toList, .file 1), ("/d/a0001.".toList, .file 2)]

/-- Both files get a second name, and the first loses it again. -/
def clashCalls : List (LinkCall Nat) :=
  [.link "/d/a".toList "/d/b".toList true, .link "/d/a0001.".toList "/d/c".toList true,
    .unlink "/d/b".toList true]

/-- **A final file is moved onto an intermediate link**: the name "/d/c" has no file any
more, and reads the data of another one. -/
theorem links_not_conserved : ¬ ∀ (l2sDirectory : Option CStr) (fs : Files Nat)
    (calls : List (LinkCall Nat)), NoL2s fs →
    AlongCalls (fun fs linkCall => linkCall.Plain l2sDirectory fs) l2sDirectory fs calls →
    Conserved (runCalls l2sDirectory fs calls) := by
  intro h
  have hconserved := h none clashFiles clashCalls
    (noL2s_of_files (by decide))
    ⟨plain_of_short (by decide) (Or.inl ⟨1, by decide⟩) (by decide),
      plain_of_short (by decide) (Or.inl ⟨2, by decide⟩)
        (by decide),
      plain_of_short (by decide)
        (Or.inr ⟨"/d/.l2s.a0001".toList, by decide, by decide⟩)
        (by decide), True.intro⟩
  obtain ⟨final, -, hlink, -⟩ := hconserved.kept "/d/.l2s.a0001.0001".toList "/d/c".toList
    (by decide) ⟨by decide, by decide⟩
  have hfile : (runCalls none clashFiles clashCalls).get "/d/.l2s.a0001.0001".toList =
      some (.file 1) := by decide
  rw [hfile] at hlink
  cases hlink

end PRoot
