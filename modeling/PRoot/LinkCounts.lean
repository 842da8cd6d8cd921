import PRoot.LinkOutcomes

/-!
# Counts with more than four digits

The count in the name of a final file is written with at least four digits, and read from the last
four characters.

* `linkCount_withCount`: what is read of a count that was written;
* `counts_right_iff`: the count is the number of names as long as there are at most 9999;
* `counts_wrap`: the 9999th link.
-/

namespace PRoot

variable {α : Type}

/-! ## Numbers -/

theorem digitsValue_append (x y : CStr) :
    digitsValue (x ++ y) = 10 ^ y.length * digitsValue x + digitsValue y := by
  change Nat.ofDigitChars 10 (x ++ y) 0 = _
  rw [Nat.ofDigitChars_append, Nat.ofDigitChars_eq_ofDigitChars_zero]
  rfl

theorem digitsValue_lt {digits : CStr} (h : ∀ c ∈ digits, c.isDigit = true) :
    digitsValue digits < 10 ^ digits.length := by
  induction digits using List.reverseRecOn with
  | nil => exact Nat.one_pos
  | append_singleton digits c ih =>
      have hprevious := ih fun c hc => h c (List.mem_append_left _ hc)
      have hc := h c (List.mem_append_right _ List.mem_cons_self)
      have hlast : digitsValue [c] ≤ 9 := by
        have hnine : c.toNat ≤ '9'.toNat := by
          simp only [Char.isDigit, Bool.and_eq_true, decide_eq_true_eq] at hc
          exact hc.2
        change 10 * 0 + (c.toNat - '0'.toNat) ≤ 9
        have hzero : '0'.toNat = 48 := rfl
        have hnine' : '9'.toNat = 57 := rfl
        omega
      rw [digitsValue_append, List.length_append, List.length_singleton, Nat.pow_succ]
      omega

/-- **Of a count that was written, the last four digits are read.** -/
theorem linkCount_withCount (final : CStr) (n : Nat) :
    linkCount (withCount final n) = (n % 10000 : Nat) := by
  have hlength := format04_length_ge n
  obtain ⟨x, y, hform, hy⟩ : ∃ x y, format04 n = x ++ y ∧ y.length = 4 :=
    ⟨_, _, (List.take_append_drop ((format04 n).length - 4) _).symm, by
      rw [List.length_drop]
      omega⟩
  have hdigit : ∀ c ∈ y, c.isDigit = true := fun c hc =>
    format04_isDigit (n := n) c (hform ▸ List.mem_append_right x hc)
  have hlt := digitsValue_lt hdigit
  rw [hy] at hlt
  have hvalue := digitsValue_format04 n
  rw [hform, digitsValue_append, hy] at hvalue
  have hmod : digitsValue y = n % 10000 := by omega
  have hdrop : (withCount final n).drop ((withCount final n).length - 4) = y := by
    unfold withCount
    rw [hform, ← List.append_assoc, List.length_append, hy, Nat.add_sub_cancel, List.drop_left]
  unfold linkCount
  rw [hdrop, atoi_digits (fun hnil => by rw [hnil] at hy; cases hy) hdigit (by omega), hmod]

/-! ## One file -/

/-- **A file with a count**: its intermediate link leads to the final file, whose name ends in the
count. -/
structure Encodes (fs : Files α) (i : CStr) (count : Nat) (final : CStr) : Prop where
  link : fs.get i = some (.link final)
  file : ∃ d, fs.get final = some (.file d)
  count : linkCount final = count
  short : final.length < pathMax
  start : ∃ digits, final = i ++ '.' :: digits ∧ 4 ≤ digits.length

/-- **The count is the number of the names**, if there are any. -/
def CountRight (fs : Files α) (i : CStr) (names : Nat) : Prop :=
  names ≠ 0 → ∃ final d, fs.get i = some (.link final) ∧ fs.get final = some (.file d) ∧
    linkCount final = names

variable {n : Nat} {l2sDirectory : Option CStr}

section

variable {fs fs' : Files α} {i final : CStr} {count : Nat}

theorem Encodes.ne (h : Encodes fs i count final) : final ≠ i := by
  obtain ⟨digits, rfl, -⟩ := h.start
  intro heq
  have hlength := congrArg List.length heq
  rw [List.length_append, List.length_cons] at hlength
  omega

theorem Encodes.recounted (h : Encodes fs i count final) (n : Nat) :
    ∃ digits, withCount final n = i ++ '.' :: digits ∧ 4 ≤ digits.length := by
  obtain ⟨digits, rfl, hlength⟩ := h.start
  refine ⟨digits.take (digits.length - 4) ++ format04 n, ?_, ?_⟩
  · have hcut : (i ++ '.' :: digits).length - 4 = (i ++ ['.']).length + (digits.length - 4) := by
      simp only [List.length_append, List.length_cons, List.length_nil]
      omega
    unfold withCount
    rw [hcut, List.append_cons i '.' digits, List.take_length_add_append, List.append_assoc,
      List.append_assoc]
    rfl
  · have hform := format04_length_ge n
    rw [List.length_append]
    omega

theorem Encodes.countRight_iff (h : Encodes fs i count final) {names : Nat} (hnames : names ≠ 0) :
    CountRight fs i names ↔ count = names := by
  constructor
  · intro hright
    obtain ⟨final', d, hlink, -, hcount⟩ := hright hnames
    obtain rfl := FileNode.link.inj (Option.some.inj (h.link.symm.trans hlink))
    exact_mod_cast h.count.symm.trans hcount
  · rintro rfl _
    obtain ⟨d, hfile⟩ := h.file
    exact ⟨final, d, h.link, hfile, h.count⟩

/-- The final file got the name with another count. -/
theorem Encodes.moved (h : Encodes fs i count final)
    (hmove : moveFinal i final (withCount final n) fs = .ok () fs') :
    Encodes fs' i (n % 10000) (withCount final n) := by
  obtain ⟨d, hfile⟩ := h.file
  obtain ⟨digits, hstart, hlength⟩ := h.recounted n
  obtain ⟨hshort, hget⟩ := moveFinal_inv hfile nofun hmove
  have hne : withCount final n ≠ i := by
    intro heq
    have hlength := congrArg List.length (hstart.symm.trans heq)
    rw [List.length_append, List.length_cons] at hlength
    omega
  refine ⟨?_, ⟨d, ?_⟩, linkCount_withCount final n, hshort, digits, hstart, hlength⟩
  · rw [hget, if_pos rfl]
  · rw [hget, if_neg hne, if_pos rfl]

/-- Another path changes. -/
theorem Encodes.congr (h : Encodes fs i count final) (hlink : fs'.get i = fs.get i)
    (hfile : fs'.get final = fs.get final) : Encodes fs' i count final :=
  ⟨hlink.trans h.link, h.file.imp fun _ hd => hfile.trans hd, h.count, h.short, h.start⟩

/-- **A link adds one to the count**, of which the last four digits count. -/
theorem Encodes.linked (h : Encodes fs i count final) (hl2s : isL2s i = true)
    {oldpath newpath : CStr} {granted : Bool} (hname : fs.get oldpath = some (.link i))
    (hrun : moveAndSymlinkPath l2sDirectory oldpath newpath granted fs = .ok () fs') :
    ∃ final', Encodes fs' i ((count + 1) % 10000) final' := by
  obtain ⟨j, fs1, hstart, hfree, rfl⟩ := moveAndSymlinkPath_inv hrun
  cases hstart with
  | further hname' _ hfurther =>
      obtain rfl := FileNode.link.inj (Option.some.inj (hname.symm.trans hname'))
      obtain ⟨-, final', hlink, hmove⟩ := furtherLink_inv hfurther
      obtain rfl := FileNode.link.inj (Option.some.inj (h.link.symm.trans hlink))
      rw [h.count] at hmove
      have hmoved := h.moved hmove
      have hother : ∀ {q node}, fs1.get q = some node →
          (fs1.set newpath (.link i)).get q = fs1.get q := by
        intro q node hq
        rw [Files.get_set, if_neg]
        rintro rfl
        cases hfree.symm.trans hq
      exact ⟨_, hmoved.congr (hother hmoved.link) (hother hmoved.file.choose_spec)⟩
  | ofLink target hname' hno _ =>
      obtain rfl := FileNode.link.inj (Option.some.inj (hname.symm.trans hname'))
      cases hl2s.symm.trans hno
  | ofFile d path hfile _ _ => cases hname.symm.trans hfile

/-- A name of the file is not the name of the intermediate link, nor of the final file. -/
theorem Encodes.name_ne (h : Encodes fs i count final) {path : CStr}
    (hname : fs.get path = some (.link i)) : path ≠ i ∧ path ≠ final := by
  constructor
  · rintro rfl
    obtain rfl := FileNode.link.inj (Option.some.inj (h.link.symm.trans hname))
    exact h.ne rfl
  · rintro rfl
    obtain ⟨d, hfile⟩ := h.file
    cases hfile.symm.trans hname

/-- **An unlink takes one from the count**, of which the last four digits count; the data is gone
if the final file is moved to the path that is unlinked. -/
theorem Encodes.unlinked (h : Encodes fs i count final) (hl2s : isL2s i = true) (htwo : 2 ≤ count)
    {path : CStr} {granted : Bool} (hname : fs.get path = some (.link i))
    (hrun : (LinkCall.unlink path granted).run l2sDirectory fs = .ok () fs') :
    if path = withCount final ((count - 1 : Nat) : Int) then
      fs'.get i = some (.link path) ∧ fs'.get path = none
    else ∃ final', Encodes fs' i ((count - 1) % 10000) final' := by
  change (decrementLinkCount path >>= fun _ => kernelCall granted fun fs => fs.unlink path) fs =
    .ok () fs' at hrun
  obtain ⟨⟨⟩, fs1, hdecrement, hkernel⟩ := bind_inv hrun
  have hread := myReadlink_ok h.link h.short
  have hi : i.length < pathMax := by
    obtain ⟨digits, hstart, -⟩ := h.start
    have hshort := h.short
    rw [hstart, List.length_append] at hshort
    omega
  unfold decrementLinkCount at hdecrement
  rw [get_bind, hname] at hdecrement
  simp only [get_bind, bind_ok (orFail_ok (myReadlink_ok hname hi)), hl2s, if_true, hread,
    h.count] at hdecrement
  rw [if_pos (by omega), show (count : Int) - 1 = ((count - 1 : Nat) : Int) by omega]
    at hdecrement
  have hmoved := h.moved hdecrement
  obtain ⟨-, hunlink⟩ := kernelCall_inv hkernel
  obtain ⟨-, -, rfl⟩ := unlink_inv hunlink
  by_cases hpath : path = withCount final ((count - 1 : Nat) : Int)
  · rw [if_pos hpath, Files.get_erase, Files.get_erase, if_pos rfl,
      if_neg (h.name_ne hname).1.symm, hmoved.link, hpath]
    exact ⟨rfl, rfl⟩
  · rw [if_neg hpath]
    refine ⟨_, hmoved.congr ?_ ?_⟩
    · rw [Files.get_erase, if_neg (h.name_ne hname).1.symm]
    · rw [Files.get_erase, if_neg (Ne.symm hpath)]

end

/-! ## Runs -/

/-- The number of names after a link or an unlink. -/
def namesAfter (names : Nat) : LinkCall α → Nat
  | .link .. => names + 1
  | .unlink .. => names - 1
  | .rename .. => names

/-- A link or an unlink of a name of the file. -/
def LinkCall.OfName (fs : Files α) (i : CStr) : LinkCall α → Prop
  | .link oldpath _ _ => fs.get oldpath = some (.link i)
  | .unlink path _ => fs.get path = some (.link i)
  | .rename .. => False

/-- Links and unlinks of the names of one file, which all succeed. -/
def NameCalls (l2sDirectory : Option CStr) (i : CStr) :
    Files α → Nat → List (LinkCall α) → Prop
  | _, _, [] => True
  | fs, names, linkCall :: calls => 0 < names ∧ linkCall.OfName fs i ∧
      succeeds (linkCall.run l2sDirectory) fs = true ∧
      NameCalls l2sDirectory i (after (linkCall.run l2sDirectory) fs) (namesAfter names linkCall)
        calls

/-- **The count is right in every state of a run.** -/
def CountsRight (l2sDirectory : Option CStr) (i : CStr) :
    Files α → Nat → List (LinkCall α) → Prop
  | fs, names, [] => CountRight fs i names
  | fs, names, linkCall :: calls => CountRight fs i names ∧
      CountsRight l2sDirectory i (after (linkCall.run l2sDirectory) fs) (namesAfter names linkCall)
        calls

/-- **The count fits**: a link is made where there are fewer than 9999 names, and an unlink is not
of the path that the final file is moved to. -/
def LinkCall.CountFits (fs : Files α) (i : CStr) (names : Nat) : LinkCall α → Prop
  | .link .. => names < 9999
  | .unlink path _ => names = 1 ∨ ∀ final, fs.get i = some (.link final) →
      path ≠ withCount final (linkCount final - 1)
  | .rename .. => True

/-- The count fits at each call of a run. -/
def CountsFit (l2sDirectory : Option CStr) (i : CStr) :
    Files α → Nat → List (LinkCall α) → Prop
  | _, _, [] => True
  | fs, names, linkCall :: calls => linkCall.CountFits fs i names ∧
      CountsFit l2sDirectory i (after (linkCall.run l2sDirectory) fs) (namesAfter names linkCall)
        calls

theorem CountsRight.head {i : CStr} {fs : Files α} {names : Nat} {calls : List (LinkCall α)}
    (h : CountsRight l2sDirectory i fs names calls) :
    CountRight fs i names := by
  cases calls with
  | nil => exact h
  | cons => exact h.1

/-- A run from a file whose count is right. -/
theorem Encodes.countsRight_iff {i : CStr} (hl2s : isL2s i = true) {calls : List (LinkCall α)} :
    ∀ {fs : Files α} {names : Nat} {final : CStr},
      Encodes fs i names final → names ≤ 9999 → NameCalls l2sDirectory i fs names calls →
      (CountsRight l2sDirectory i fs names calls ↔ CountsFit l2sDirectory i fs names calls) := by
  induction calls with
  | nil =>
      intro fs names final h _ _
      refine iff_of_true (fun hnames => ?_) True.intro
      exact (h.countRight_iff hnames).mpr rfl hnames
  | cons linkCall calls ih =>
      intro fs names final h hle ⟨hpos, hname, hok, hcalls⟩
      have hright : CountRight fs i names := (h.countRight_iff (by omega)).mpr rfl
      obtain ⟨fs', hrun⟩ := exists_ok hok
      have hafter := after_ok hrun
      simp only [CountsRight, CountsFit, hafter] at hcalls ⊢
      rw [and_iff_right hright]
      cases linkCall with
      | rename _ _ _ _ => exact hname.elim
      | link oldpath newpath granted =>
          obtain ⟨final', h'⟩ := h.linked hl2s hname hrun
          by_cases hlt : names < 9999
          · rw [Nat.mod_eq_of_lt (by omega)] at h'
            have hfits : LinkCall.CountFits fs i names (.link oldpath newpath granted) := hlt
            rw [and_iff_right hfits]
            exact ih h' hlt hcalls
          · refine iff_of_false (fun hcounts => ?_) fun hfits => hlt hfits.1
            have hcount := (h'.countRight_iff (Nat.succ_ne_zero names)).mp hcounts.head
            omega
      | unlink path granted =>
          by_cases hone : names = 1
          · subst hone
            cases calls with
            | nil => exact iff_of_true (fun hzero => absurd rfl hzero) ⟨Or.inl rfl, True.intro⟩
            | cons _ _ => exact absurd hcalls.1 (Nat.lt_irrefl 0)
          · have h' := h.unlinked hl2s (by omega) hname hrun
            have hcast : linkCount final - 1 = ((names - 1 : Nat) : Int) := by
              rw [h.count]
              omega
            by_cases hpath : path = withCount final ((names - 1 : Nat) : Int)
            · rw [if_pos hpath] at h'
              refine iff_of_false (fun hcounts => ?_) fun hfits => ?_
              · obtain ⟨final', d, hlink, hfile, -⟩ :=
                  hcounts.head (show names - 1 ≠ 0 by omega)
                obtain rfl := FileNode.link.inj (Option.some.inj (h'.1.symm.trans hlink))
                cases h'.2.symm.trans hfile
              · rcases hfits.1 with hfits | hfits
                · exact hone hfits
                · exact hfits final h.link (hcast ▸ hpath)
            · rw [if_neg hpath] at h'
              obtain ⟨final', h'⟩ := h'
              rw [Nat.mod_eq_of_lt (by omega)] at h'
              have hfits : LinkCall.CountFits fs i names (.unlink path granted) := by
                refine Or.inr fun final' hlink => ?_
                obtain rfl := FileNode.link.inj (Option.some.inj (h.link.symm.trans hlink))
                rwa [hcast]
              rw [and_iff_right hfits]
              exact ih h' (show names - 1 ≤ 9999 by omega) hcalls

/-- The first link of a file makes the intermediate link of a file with the count 2. -/
theorem firstLink_encodes {fs fs' : Files α} {d : α} {original newName : CStr} {granted : Bool}
    (hfile : fs.get original = some (.file d))
    (hrun : moveAndSymlinkPath l2sDirectory original newName granted fs = .ok () fs') :
    ∃ i, isL2s i = true ∧ fs'.get original = some (.link i) ∧
      Encodes fs' i 2 (finalOf i 2) := by
  obtain ⟨i, fs1, hstart, hfree, rfl⟩ := moveAndSymlinkPath_inv hrun
  cases hstart with
  | further hname _ _ => cases hfile.symm.trans hname
  | ofLink _ hname _ _ => cases hfile.symm.trans hname
  | ofFile _ path _ hpath hfirst =>
      obtain ⟨hi, hlinked⟩ := firstLink_inv hfile nofun hfirst
      have hl2s : isL2s i = true := hi ▸ newIntermediate_isL2s fs (intermediatePath_isL2s hpath)
      have hother : ∀ {q node}, fs1.get q = some node →
          (fs1.set newName (.link i)).get q = some node := by
        intro q node hq
        rw [Files.get_set, if_neg, hq]
        rintro rfl
        cases hfree.symm.trans hq
      refine ⟨i, hl2s, hother ?_, hother ?_, ⟨d, hother ?_⟩, linkCount_finalOf (by decide),
        hlinked.short, format04 (2 : Nat), rfl, by decide⟩
      · rw [hlinked.get, if_pos rfl]
      · rw [hlinked.get, if_neg hlinked.ne_link.symm, if_pos rfl]
      · rw [hlinked.get, if_neg hlinked.ne_final.symm, if_neg finalOf_ne, if_pos rfl]

/-- **The count in the name of the final file is the number of names**, in every state after the
first link of a file, exactly if every further link is made where there are fewer than 9999 names
(and no name is unlinked that has the path to which the final file is moved). -/
theorem counts_right_iff {l2sDirectory : Option CStr} {fs : Files α} {d : α}
    {original newName : CStr} {granted : Bool} (hfile : fs.get original = some (.file d))
    (hrun : succeeds (moveAndSymlinkPath l2sDirectory original newName granted) fs = true) :
    ∃ i, (after (moveAndSymlinkPath l2sDirectory original newName granted) fs).get original =
        some (.link i) ∧
      ∀ calls, NameCalls l2sDirectory i
          (after (moveAndSymlinkPath l2sDirectory original newName granted) fs) 2 calls →
        (CountsRight l2sDirectory i
            (after (moveAndSymlinkPath l2sDirectory original newName granted) fs) 2 calls ↔
          CountsFit l2sDirectory i
            (after (moveAndSymlinkPath l2sDirectory original newName granted) fs) 2 calls) := by
  obtain ⟨fs', hrun⟩ := exists_ok hrun
  rw [after_ok hrun]
  obtain ⟨i, hl2s, hname, hencodes⟩ := firstLink_encodes hfile hrun
  exact ⟨i, hname, fun calls => hencodes.countsRight_iff hl2s (by decide)⟩

/-! ## Ten thousand names -/

/-- The intermediate link of the file "/d/a". -/
def manyLink : CStr := "/d/.l2s.a0001".toList

/-- The names that are given to it. -/
def manyName (k : Nat) : CStr := "/d/n".toList ++ format04 k

/-- The file "/d/a" has `k` names more. -/
structure Many (fs : Files Nat) (k : Nat) : Prop where
  name : fs.get "/d/a".toList = some (.link manyLink)
  link : fs.get manyLink = some (.link (finalOf manyLink (k + 1)))
  file : fs.get (finalOf manyLink (k + 1)) = some (.file 1)
  only : ∀ q, fs.get q ≠ none → q = "/d/a".toList ∨ q = manyLink ∨
    q = finalOf manyLink (k + 1) ∨ ∃ j, j < k ∧ q = manyName j

/-- Names that are given one after the other. -/
def manyCalls (k m : Nat) : List (LinkCall Nat) :=
  (List.range' k m).map fun j => .link "/d/a".toList (manyName j) true

theorem fits_of_short {path : CStr} (h : path.length ≤ 255) : fits path = true := by
  have hname : (baseName path).length ≤ path.length := by
    unfold baseName
    rw [List.length_reverse]
    exact (List.takeWhile_prefix _).length_le.trans_eq List.length_reverse
  have hmax : nameMax = 255 := rfl
  have hpath : pathMax = 4096 := rfl
  unfold fits
  rw [Bool.and_eq_true, decide_eq_true_iff, decide_eq_true_iff]
  omega

theorem format04_length_le (h : n ≤ 10000) : (format04 n).length ≤ 5 := by
  have hdigits : (Nat.toDigits 10 n).length ≤ 5 :=
    (Nat.length_toDigits_le_iff (by decide) (by decide)).mpr (by omega)
  rw [format04_eq, List.length_leftpad]
  omega

theorem finalOf_short (h : n ≤ 10000) : (finalOf manyLink n).length ≤ 19 := by
  have hform := format04_length_le h
  have hlink : manyLink.length = 13 := rfl
  rw [finalOf, List.length_append, List.length_cons]
  omega

variable {k : Nat}

theorem manyName_short (h : k ≤ 10000) : (manyName k).length ≤ 9 := by
  have hform := format04_length_le h
  have hlength : "/d/n".toList.length = 4 := rfl
  rw [manyName, List.length_append]
  omega

theorem manyName_guest (k : Nat) : isL2s (manyName k) = false := by
  have hbase : baseName (manyName k) = 'n' :: format04 k :=
    baseName_append (format04_no_slash k)
  rw [isL2s, hbase]
  rfl

theorem manyLink_isL2s : isL2s manyLink = true := by decide

theorem final_apart (h : n ≤ 9999) :
    Apart (finalOf manyLink n) (finalOf manyLink (n + 1)) := by
  by_cases hn : n = 9999
  · subst hn
    exact ⟨by decide, by decide⟩
  · refine apart_of_length ?_ fun heq => ?_
    · rw [finalOf_length h, finalOf_length (by omega)]
    · have hcount := (finalOf_inj h (by omega) heq).2
      omega

variable {m : Nat}

theorem finalOf_injective {i : CStr} (h : finalOf i n = finalOf i m) : n = m :=
  format04_injective (List.cons_injective (List.append_cancel_left h))

theorem Many.free_final {fs : Files Nat} (h : Many fs k) :
    fs.get (finalOf manyLink (k + 1 + 1)) = none := by
  have hl2s := finalOf_isL2s manyLink_isL2s (k + 1 + 1)
  by_contra hne
  rcases h.only _ hne with heq | heq | heq | ⟨j, -, heq⟩
  · exact ne_of_isL2s hl2s (by decide) heq
  · exact finalOf_ne heq
  · exact absurd (finalOf_injective heq) (by omega)
  · exact ne_of_isL2s hl2s (manyName_guest j) heq

theorem Many.free_name {fs : Files Nat} (h : Many fs k) :
    fs.get (manyName k) = none := by
  by_contra hne
  rcases h.only _ hne with heq | heq | heq | ⟨j, hj, heq⟩
  · have hlength := congrArg List.length heq
    have hform := format04_length_ge k
    rw [manyName, List.length_append] at hlength
    change 4 + _ = 4 at hlength
    omega
  · exact ne_of_isL2s manyLink_isL2s (manyName_guest k) heq.symm
  · exact ne_of_isL2s (finalOf_isL2s manyLink_isL2s _) (manyName_guest k) heq.symm
  · have hkj := format04_injective (List.append_cancel_left heq)
    omega

/-- The final file gets its next name. -/
theorem Many.moves {fs : Files Nat} (h : Many fs k) (hk : k + 1 ≤ 9999) :
    ∃ fs', moveFinal manyLink (finalOf manyLink (k + 1)) (finalOf manyLink (k + 1 + 1)) fs =
      .ok () fs' := by
  have hshort := finalOf_short (show k + 1 ≤ 10000 by omega)
  have hshort' := finalOf_short (show k + 1 + 1 ≤ 10000 by omega)
  have hmax : pathMax = 4096 := rfl
  have hapart := final_apart hk
  have hne : finalOf manyLink (k + 1) ≠ finalOf manyLink (k + 1 + 1) := fun heq =>
    absurd (finalOf_injective heq) (by omega)
  have hrename := rename_file h.file h.free_final hapart hne (fits_of_short (by omega))
    (fits_of_short (by omega))
  have hlink : (fs.replace (finalOf manyLink (k + 1)) (finalOf manyLink (k + 1 + 1)) .none
      false).get manyLink = some (.link (finalOf manyLink (k + 1))) := by
    rw [Files.get_replace fs hapart, if_neg finalOf_ne.symm, if_neg finalOf_ne.symm, h.link]
  have hi : fits manyLink = true := by decide
  unfold moveFinal
  rw [bind_ok (call_ok hrename), bind_ok (call_ok (unlink_ok hi hlink nofun))]
  refine ⟨_, call_ok (symlink_ok (by omega) hi ?_)⟩
  rw [Files.get_erase, if_pos rfl]

/-- A link adds a name. -/
theorem Many.step {fs : Files Nat} (h : Many fs k) (hk : k + 1 ≤ 9999) :
    ∃ fs', moveAndSymlinkPath none "/d/a".toList (manyName k) true fs = .ok () fs' ∧
      Many fs' (k + 1) := by
  have hmax : pathMax = 4096 := rfl
  obtain ⟨fs1, hmove⟩ := h.moves hk
  obtain ⟨-, hget⟩ := moveFinal_inv h.file nofun hmove
  have hname := manyName_short (show k ≤ 10000 by omega)
  have hguest := manyName_guest k
  have hfinal := finalOf_isL2s manyLink_isL2s (k + 1)
  have hfinal' := finalOf_isL2s manyLink_isL2s (k + 1 + 1)
  have hfree : fs1.get (manyName k) = none := by
    rw [hget, if_neg (ne_of_isL2s manyLink_isL2s hguest).symm,
      if_neg (ne_of_isL2s hfinal' hguest).symm, if_neg (ne_of_isL2s hfinal hguest).symm,
      h.free_name]
  have ha : isL2s "/d/a".toList = false := by decide
  have hname' : fs1.get "/d/a".toList = some (.link manyLink) := by
    rw [hget, if_neg (ne_of_isL2s manyLink_isL2s ha).symm, if_neg (ne_of_isL2s hfinal' ha).symm,
      if_neg (ne_of_isL2s hfinal ha).symm, h.name]
  have hlength : manyLink.length < pathMax := by decide
  have hread := myReadlink_ok h.name hlength
  have hread' : myReadlink fs manyLink = .ok (finalOf manyLink (k + 1)) :=
    myReadlink_ok h.link (by
      have hshort := finalOf_short (show k + 1 ≤ 10000 by omega)
      omega)
  have hfits : fits (manyName k) = true := fits_of_short (by omega)
  have hsymlink := symlink_ok hlength hfits hfree
  have hcast : ((k + 1 : Nat) : Int) + 1 = ((k + 1 + 1 : Nat) : Int) := rfl
  have hfurther : furtherLink manyLink fs = .ok manyLink fs1 := by
    unfold furtherLink
    rw [get_bind, bind_ok (orFail_ok hread'), linkCount_finalOf hk, hcast, withCount_finalOf hk,
      bind_ok hmove]
    rfl
  refine ⟨fs1.set (manyName k) (.link manyLink), ?_, ?_⟩
  · unfold moveAndSymlinkPath
    rw [get_bind, h.name]
    simp only
    rw [get_bind, bind_ok (orFail_ok hread)]
    simp only [manyLink_isL2s, if_true]
    rw [bind_ok hfurther]
    unfold symlinkNewName
    rw [if_pos rfl, hsymlink]
  · have hother : ∀ {q}, q ≠ manyName k →
        (fs1.set (manyName k) (.link manyLink)).get q = fs1.get q :=
      fun hq => (fs1.get_set ..).trans (if_neg hq)
    refine ⟨?_, ?_, ?_, fun q hq => ?_⟩
    · have hne : "/d/a".toList ≠ manyName k := fun heq => by
        cases (hfree.symm.trans (heq ▸ hname'))
      rw [hother hne, hname']
    · rw [hother (ne_of_isL2s manyLink_isL2s hguest), hget, if_pos rfl]
    · rw [hother (ne_of_isL2s hfinal' hguest), hget, if_neg finalOf_ne, if_pos rfl]
    · by_cases hnew : q = manyName k
      · exact Or.inr (Or.inr (Or.inr ⟨k, Nat.lt_succ_self k, hnew⟩))
      · rw [hother hnew, hget] at hq
        split_ifs at hq with hi hf hold
        · exact Or.inr (Or.inl hi)
        · exact Or.inr (Or.inr (Or.inl hf))
        · exact absurd rfl hq
        · rcases h.only q hq with heq | heq | heq | ⟨j, hj, heq⟩
          · exact Or.inl heq
          · exact absurd heq hi
          · exact absurd heq hold
          · exact Or.inr (Or.inr (Or.inr ⟨j, Nat.lt_succ_of_lt hj, heq⟩))

theorem Many.calls : ∀ {fs : Files Nat} {k : Nat}, Many fs k → k + m ≤ 9999 →
    NameCalls none manyLink fs (k + 1) (manyCalls k m) := by
  induction m with
  | zero => exact fun _ _ => True.intro
  | succ m ih =>
      intro fs k h hk
      obtain ⟨fs', hrun, h'⟩ := h.step (by omega)
      change (LinkCall.run none (.link "/d/a".toList (manyName k) true)) fs = .ok () fs' at hrun
      refine ⟨Nat.succ_pos k, h.name, succeeds_ok hrun, ?_⟩
      rw [after_ok hrun]
      exact ih h' (by omega)

theorem manyCalls_fit : ∀ {fs : Files Nat} {k : Nat}, k + m ≤ 9998 →
    CountsFit none manyLink fs (k + 1) (manyCalls k m) := by
  induction m with
  | zero => exact fun _ => True.intro
  | succ m ih =>
      exact fun hk => ⟨show _ + 1 < 9999 by omega, ih (show _ + 1 + m ≤ 9998 by omega)⟩

/-- The 9999th link does not fit. -/
theorem manyCalls_unfit : ∀ {fs : Files Nat} {k : Nat}, k + m = 9998 →
    ¬ CountsFit none manyLink fs (k + 1) (manyCalls k (m + 1)) := by
  induction m with
  | zero =>
      intro fs k hk h
      have hlt : k + 1 < 9999 := h.1
      omega
  | succ m ih => exact fun hk h => ih (show _ + 1 + m = 9998 by omega) h.2

/-- The file "/d/a" with one more name. -/
def manyStart : Files Nat :=
  [(manyName 0, .link manyLink), ("/d/a".toList, .link manyLink),
    (manyLink, .link (finalOf manyLink 2)), (finalOf manyLink 2, .file 1)]

theorem manyStart_ok :
    succeeds (moveAndSymlinkPath none "/d/a".toList (manyName 0) true) oneFile = true ∧
      after (moveAndSymlinkPath none "/d/a".toList (manyName 0) true) oneFile = manyStart := by
  decide

theorem manyStart_many : Many manyStart 1 := by
  refine ⟨by decide, by decide, by decide, fun q hq => ?_⟩
  obtain ⟨node, hnode⟩ := Option.ne_none_iff_exists'.mp hq
  have hmem := List.mem_map_of_mem (f := Prod.fst) (entry_mem hnode)
  change q ∈ [manyName 0, "/d/a".toList, manyLink, finalOf manyLink 2] at hmem
  simp only [List.mem_cons, List.not_mem_nil, or_false] at hmem
  rcases hmem with heq | heq | heq | heq
  · exact Or.inr (Or.inr (Or.inr ⟨0, Nat.one_pos, heq⟩))
  · exact Or.inl heq
  · exact Or.inr (Or.inl heq)
  · exact Or.inr (Or.inr (Or.inl heq))

/-- 9998 links of one file are counted. -/
theorem counts_right_many : ∃ i, manyStart.get "/d/a".toList = some (.link i) ∧
    CountsRight none i manyStart 2 (manyCalls 1 9997) := by
  obtain ⟨hok, hafter⟩ := manyStart_ok
  obtain ⟨i, hname, hcalls⟩ := @counts_right_iff Nat none oneFile 1 "/d/a".toList (manyName 0)
    true (by decide) hok
  rw [hafter] at hname hcalls
  have hmany := manyStart_many
  obtain rfl := FileNode.link.inj (Option.some.inj (hmany.name.symm.trans hname))
  exact ⟨manyLink, hname,
    (hcalls _ (hmany.calls (by decide))).mpr (manyCalls_fit (by decide))⟩

/-- **The count starts again**: the 9999th link of a file succeeds, and its 10000 names are
counted as none. -/
theorem counts_wrap : ¬ ∀ (l2sDirectory : Option CStr) (fs : Files Nat) (d : Nat)
    (original newName : CStr) (granted : Bool), fs.get original = some (.file d) →
    succeeds (moveAndSymlinkPath l2sDirectory original newName granted) fs = true →
    ∃ i, (after (moveAndSymlinkPath l2sDirectory original newName granted) fs).get original =
        some (.link i) ∧
      ∀ calls, NameCalls l2sDirectory i
          (after (moveAndSymlinkPath l2sDirectory original newName granted) fs) 2 calls →
        CountsRight l2sDirectory i
          (after (moveAndSymlinkPath l2sDirectory original newName granted) fs) 2 calls := by
  intro h
  obtain ⟨hok, hafter⟩ := manyStart_ok
  obtain ⟨i, hname, hcalls⟩ :=
    h none oneFile 1 "/d/a".toList (manyName 0) true (by decide) hok
  rw [hafter] at hname hcalls
  have hmany := manyStart_many
  obtain rfl := FileNode.link.inj (Option.some.inj (hmany.name.symm.trans hname))
  have hencodes : Encodes manyStart manyLink 2 (finalOf manyLink 2) :=
    ⟨hmany.link, ⟨1, hmany.file⟩, linkCount_finalOf (by decide), by decide,
      format04 (2 : Nat), rfl, by decide⟩
  have hrun : NameCalls none manyLink manyStart 2 (manyCalls 1 9998) :=
    hmany.calls (by decide)
  have hright := hcalls _ hrun
  exact manyCalls_unfit (by decide)
    ((hencodes.countsRight_iff manyLink_isL2s (by decide) hrun).mp hright)

end PRoot
