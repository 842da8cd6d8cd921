import PRoot.LinkOutcomes

/-!
# The number of links of a file

`link2symlink.c` puts the count of an emulated hard link in the place of the number of links that
the host gives: in the results of the `stat` family, and in that of `statx`.

* `handleSysexitEnd`, `handleStatx`: the two handlers;
* `stats_agree_iff`: when they say the same of a file;
* `stats_disagree`: a file of the guest with a name like the emulation's.
-/

namespace PRoot

variable {α : Type}

/-- `DELETED_SUFFIX`. -/
def deletedSuffix : CStr := " (deleted)".toList

/-- What a handler does to the result of a call: nothing, or it puts the status of another file in
its place (for `statx`, of the same one) and sets the number of links, or the call fails. -/
inductive StatAnswer
  | untouched
  | links (count : Int)
  | fails (status : Errno)
  deriving DecidableEq, Repr

/-- The tail of `handle_sysexit_end`: from `final_proc` on. -/
def finalAnswer (fs : Files α) (final : CStr) : StatAnswer :=
  match fs.get final with
  | none => .fails .EPERM
  | some _ => .links (linkCount final)

/-- The tail of `handle_sysexit_end`: from `intermediate_proc` on. -/
def intermediateAnswer (fs : Files α) (intermediate : CStr) : StatAnswer :=
  match myReadlink fs intermediate with
  | .error status => .fails status
  | .ok final => finalAnswer fs final

/-- `handle_sysexit_end`, for a call of the `stat` family that succeeded and was about the host path
`original`. -/
def handleSysexitEnd (fs : Files α) (original : CStr) : StatAnswer :=
  match fs.get original with
  | some (.link _) =>
      if isL2s original then intermediateAnswer fs original
      else
        match myReadlink fs original with
        | .error status => .fails status
        | .ok intermediate =>
            if isL2s intermediate then intermediateAnswer fs intermediate else .untouched
  | _ => if isL2s original then finalAnswer fs original else .untouched

/-- `STATX_NLINK`. -/
def statxNlink : BitVec 32 := 0x4

/-- `link2symlink_handle_statx`: the number of links it sets, if any. -/
def handleStatx (mask : BitVec 32) (hostPath : CStr) : Option Int :=
  if mask &&& statxNlink = 0 then none
  else if '/' ∉ hostPath then none
  else
    let ending := '/' :: baseName hostPath
    if ending.length < l2sStart.length + 6 then none
    else if !isL2s hostPath then none
    else if ending[ending.length - 5]? ≠ some '.' then none
    else if !(ending.drop (ending.length - 4)).all Char.isDigit then none
    else some (atoi (ending.drop (ending.length - 4)))

/-- `handle_statx_syscall`, as far as the number of links goes.  `updated` is `updated_stats`, as
everything but `link2symlink` leaves it: PRoot made the result itself, or another extension has
changed it. -/
def statxAnswer (mask : BitVec 32) (updated : Bool) (hostPath : CStr) : StatAnswer :=
  match handleStatx mask hostPath with
  | some count => if updated then .links count else .untouched
  | none => .untouched

/-- What a call is about: a path, as it was translated, or a file descriptor with the path that
"/proc" gives for it. -/
inductive StatTarget
  | path (hostPath : CStr)
  | fd (link : CStr)
  deriving DecidableEq, Repr

/-- The path that `handle_sysexit_end` goes by. -/
def StatTarget.original : StatTarget → CStr
  | .path hostPath => hostPath
  | .fd link =>
      if deletedSuffix.length < link.length ∧ deletedSuffix.isSuffixOf link then
        link.take (link.length - deletedSuffix.length)
      else link

/-- The path that `link2symlink_handle_statx` goes by. -/
def StatTarget.hostPath : StatTarget → CStr
  | .path hostPath => hostPath
  | .fd link => link

/-- A path of an emulated hard link: its final file, its intermediate link, or a name of it. -/
def Emulated (fs : Files α) (path : CStr) : Prop :=
  ∃ i final, Intermediate fs i final ∧
    (path = final ∨ path = i ∨ fs.get path = some (.link i))

/-- **The two handlers agree** on a file, and touch only emulated hard links. -/
structure StatsAgree (fs : Files α) (mask : BitVec 32) (updated : Bool) (target : StatTarget) :
    Prop where
  same : statxAnswer mask updated target.hostPath = handleSysexitEnd fs target.original
  untouched : ¬ Emulated fs target.original →
    handleSysexitEnd fs target.original = .untouched ∧
      statxAnswer mask updated target.hostPath = .untouched

/-! ## What the handlers recognize -/

/-- **What `link2symlink_handle_statx` recognizes**: a name of the emulation, a dot and four
digits. -/
def EndsAsFinal (path : CStr) : Prop :=
  ∃ i digits, path = i ++ '.' :: digits ∧ digits.length = 4 ∧
    (∀ c ∈ digits, c.isDigit = true) ∧ isL2s i = true ∧ '/' ∈ i

/-- **What `handle_sysexit_end` recognizes**: a name of the emulation, or a link to one; a link
that is too long to be read makes the call fail, too. -/
def Recognized (fs : Files α) (path : CStr) : Prop :=
  isL2s path = true ∨
    ∃ target, fs.get path = some (.link target) ∧
      (isL2s target = true ∨ pathMax ≤ target.length)

/-- The file whose name is read for the count. -/
inductive LeadsTo (fs : Files α) : CStr → CStr → Prop
  | final (path : CStr) (hl2s : isL2s path = true)
      (hno : ∀ target, fs.get path ≠ some (.link target)) : LeadsTo fs path path
  | intermediate (path final : CStr) (hl2s : isL2s path = true)
      (hread : myReadlink fs path = .ok final) : LeadsTo fs path final
  | name (path i final : CStr) (hguest : isL2s path = false)
      (hname : myReadlink fs path = .ok i) (hl2s : isL2s i = true)
      (hread : myReadlink fs i = .ok final) : LeadsTo fs path final

section

variable {fs : Files α} {path : CStr}

theorem suffix_no_slash {digits : CStr} (h : ∀ c ∈ digits, c.isDigit = true) :
    '/' ∉ '.' :: digits := by
  intro hmem
  rcases List.mem_cons.mp hmem with hdot | hdigit
  · cases hdot
  · cases h _ hdigit

theorem EndsAsFinal.isL2s (h : EndsAsFinal path) : isL2s path = true := by
  obtain ⟨i, digits, rfl, -, hdigit, hl2s, -⟩ := h
  exact isL2s_append (suffix_no_slash hdigit) hl2s

theorem handleStatx_of_ends (h : EndsAsFinal path) {mask : BitVec 32}
    (hmask : mask &&& statxNlink ≠ 0) : handleStatx mask path = some (linkCount path) := by
  have hpath := h.isL2s
  obtain ⟨i, digits, rfl, hlength, hdigit, hl2s, hslash⟩ := h
  have hbase := @baseName_append i _ (suffix_no_slash hdigit)
  have hstart : l2sStart.length ≤ (baseName i).length :=
    (List.isPrefixOf_iff_prefix.mp hl2s).length_le
  have hending : '/' :: baseName (i ++ '.' :: digits) =
      ('/' :: baseName i) ++ '.' :: digits := by rw [hbase]; rfl
  have hsize : (('/' :: baseName i) ++ '.' :: digits).length = (baseName i).length + 6 := by
    rw [List.length_append, List.length_cons, List.length_cons, hlength]
  have hdrop : (('/' :: baseName i) ++ '.' :: digits).drop ((baseName i).length + 6 - 4) =
      digits := by
    rw [List.append_cons, List.drop_left' (by simp)]
  have hdrop' : (i ++ '.' :: digits).drop ((i ++ '.' :: digits).length - 4) = digits := by
    rw [List.append_cons, List.drop_left' (by simp [hlength])]
  unfold handleStatx linkCount
  rw [if_neg hmask, if_neg (not_not.mpr (List.mem_append_left _ hslash)), hending]
  simp only
  rw [hsize, hdrop, hdrop', hpath, if_neg (by omega), if_neg (by decide), if_neg, if_neg]
  · rw [Bool.not_eq_true', Bool.not_eq_false, List.all_eq_true]
    exact hdigit
  · rw [not_not, show (baseName i).length + 6 - 5 = ('/' :: baseName i).length from rfl,
      List.getElem?_append_right (Nat.le_refl _), Nat.sub_self]
    rfl

/-- A name of ten characters or more, cut before the last five. -/
theorem split_name {name : CStr} (hlength : 10 ≤ name.length)
    (hdot : ('/' :: name)[name.length + 1 - 5]? = some '.') :
    ∃ start, name = start ++ '.' :: ('/' :: name).drop (name.length + 1 - 4) ∧
      5 ≤ start.length := by
  obtain ⟨n, hn⟩ : ∃ n, name.length = n + 5 := ⟨name.length - 5, by omega⟩
  have hget : name[n]? = some '.' := by
    rw [← hdot, hn, show n + 5 + 1 - 5 = n + 1 by omega, List.getElem?_cons_succ]
  have hdrop : ('/' :: name).drop (name.length + 1 - 4) = name.drop (n + 1) := by
    rw [hn, show n + 5 + 1 - 4 = (n + 1) + 1 by omega, List.drop_succ_cons]
  obtain ⟨hlt, hget⟩ := List.getElem?_eq_some_iff.mp hget
  refine ⟨name.take n, ?_, ?_⟩
  · rw [hdrop]
    conv_lhs => rw [← List.take_append_drop n name, List.drop_eq_getElem_cons hlt, hget]
  · rw [List.length_take]
    omega

theorem ends_of_handleStatx {mask : BitVec 32} {count : Int}
    (h : handleStatx mask path = some count) : EndsAsFinal path ∧ count = linkCount path := by
  unfold handleStatx at h
  split at h
  · cases h
  split at h
  · cases h
  rename_i hslash
  simp only at h
  split at h
  · cases h
  rename_i hsize
  split at h
  · cases h
  rename_i hl2s
  split at h
  · cases h
  rename_i hdot
  split at h
  · cases h
  rename_i hdigit
  rw [List.length_cons] at h hsize hdot hdigit
  have hten : 10 ≤ (baseName path).length := by
    have hstart : l2sStart.length = 5 := rfl
    omega
  obtain ⟨start, hname, hstart⟩ := split_name hten (not_not.mp hdot)
  generalize hdigits : ('/' :: baseName path).drop ((baseName path).length + 1 - 4) = digits at *
  have hlength : digits.length = 4 := by
    rw [← hdigits, List.length_drop, List.length_cons]
    omega
  have hall : ∀ c ∈ digits, c.isDigit = true := by
    simpa using hdigit
  obtain ⟨directory, hpath, hdirectory⟩ := directory_eq path
  have hno := baseName_no_slash path
  have hcut : path = (directory ++ start) ++ '.' :: digits := by
    rw [List.append_assoc, ← hname]
    exact hpath
  have hslash : '/' ∈ directory ++ start := by
    have hmem : '/' ∈ directory ++ baseName path := hpath ▸ not_not.mp hslash
    rcases List.mem_append.mp hmem with hmem | hmem
    · exact List.mem_append_left _ hmem
    · exact absurd hmem hno
  have hbase : baseName (directory ++ start) ++ '.' :: digits = start ++ '.' :: digits := by
    rw [← baseName_append (suffix_no_slash hall), ← hcut, hname]
  have hprefix : isL2s (directory ++ start) = true := by
    have hpathL2s : isL2s path = true := by simpa using hl2s
    unfold isL2s at hpathL2s ⊢
    rw [List.append_cancel_right hbase]
    rw [hname, List.isPrefixOf_iff_prefix] at hpathL2s
    exact List.isPrefixOf_iff_prefix.mpr
      (List.prefix_of_prefix_length_le hpathL2s (List.prefix_append _ _) hstart)
  refine ⟨⟨directory ++ start, digits, hcut, hlength, hall, hprefix, hslash⟩, ?_⟩
  have hdrop : path.drop (path.length - 4) = digits := by
    rw [hcut, List.append_cons]
    refine List.drop_left' ?_
    simp only [List.length_append, List.length_cons, List.length_nil, hlength]
    omega
  rw [linkCount, hdrop]
  exact (Option.some.inj h).symm

theorem finalAnswer_links_iff {final : CStr} {count : Int} :
    finalAnswer fs final = .links count ↔ fs.get final ≠ none ∧ count = linkCount final := by
  unfold finalAnswer
  cases fs.get final with
  | none => simp
  | some node => simp [eq_comm]

theorem finalAnswer_ne {final : CStr} : finalAnswer fs final ≠ .untouched := by
  unfold finalAnswer
  split <;> exact nofun

theorem intermediateAnswer_ne {i : CStr} : intermediateAnswer fs i ≠ .untouched := by
  unfold intermediateAnswer
  split
  · exact nofun
  · exact finalAnswer_ne

theorem intermediateAnswer_links {i : CStr} {count : Int}
    (h : intermediateAnswer fs i = .links count) :
    ∃ final, myReadlink fs i = .ok final ∧ fs.get final ≠ none ∧ count = linkCount final := by
  unfold intermediateAnswer at h
  split at h
  · cases h
  · rename_i final hread
    exact ⟨final, hread, finalAnswer_links_iff.mp h⟩

/-- **What `handle_sysexit_end` leaves alone.** -/
theorem handleSysexitEnd_untouched_iff :
    handleSysexitEnd fs path = .untouched ↔ ¬ Recognized fs path := by
  unfold handleSysexitEnd Recognized
  cases hget : fs.get path with
  | none => cases isL2s path <;> simp [finalAnswer_ne]
  | some node =>
      cases node with
      | file d => cases isL2s path <;> simp [finalAnswer_ne]
      | dir => cases isL2s path <;> simp [finalAnswer_ne]
      | link target =>
          simp only [Option.some.injEq, FileNode.link.injEq, exists_eq_left']
          cases hl2s : isL2s path with
          | true => simp [intermediateAnswer_ne]
          | false =>
              rw [if_neg Bool.false_ne_true]
              have hread : myReadlink fs path =
                  if target.length ≥ pathMax then .error .ENAMETOOLONG else .ok target := by
                unfold myReadlink Files.readlink
                rw [hget]
              rw [hread]
              by_cases hlong : target.length ≥ pathMax
              · rw [if_pos hlong]
                simp [hlong]
              · rw [if_neg hlong]
                cases htarget : isL2s target <;> simp [intermediateAnswer_ne, htarget, hlong]

/-- **The count that `handle_sysexit_end` gives.** -/
theorem handleSysexitEnd_links_iff {count : Int} : handleSysexitEnd fs path = .links count ↔
    ∃ final, LeadsTo fs path final ∧ fs.get final ≠ none ∧ count = linkCount final := by
  constructor
  · intro h
    have hplain : (∀ target, fs.get path ≠ some (.link target)) →
        (if isL2s path then finalAnswer fs path else .untouched) = .links count →
        ∃ final, LeadsTo fs path final ∧ fs.get final ≠ none ∧ count = linkCount final := by
      intro hno h
      split at h
      · rename_i hl2s
        exact ⟨path, .final path hl2s hno, finalAnswer_links_iff.mp h⟩
      · cases h
    unfold handleSysexitEnd at h
    split at h
    · split at h
      · rename_i hl2s
        obtain ⟨final, hread, hfinal⟩ := intermediateAnswer_links h
        exact ⟨final, .intermediate path final hl2s hread, hfinal⟩
      · rename_i hguest
        split at h
        · cases h
        · rename_i i hname
          split at h
          · rename_i hl2s
            obtain ⟨final, hread, hfinal⟩ := intermediateAnswer_links h
            exact ⟨final, .name path i final (Bool.eq_false_iff.mpr hguest) hname hl2s hread,
              hfinal⟩
          · cases h
    · rename_i hno
      exact hplain hno h
  · rintro ⟨final, hleads, hfinal⟩
    have hanswer := finalAnswer_links_iff.mpr hfinal
    unfold handleSysexitEnd
    cases hleads with
    | final hl2s hno =>
        split
        · rename_i target hget
          exact absurd hget (hno target)
        · rw [if_pos hl2s, hanswer]
    | intermediate _ hl2s hread =>
        rw [(myReadlink_inv hread).1]
        simp only
        rw [if_pos hl2s, intermediateAnswer, hread]
        exact hanswer
    | name i _ hguest hname hl2s hread =>
        rw [(myReadlink_inv hname).1]
        simp only
        rw [hguest, if_neg Bool.false_ne_true, hname]
        simp only
        rw [if_pos hl2s, intermediateAnswer, hread]
        exact hanswer

theorem statxAnswer_links_iff {mask : BitVec 32} (hmask : mask &&& statxNlink ≠ 0)
    {updated : Bool} {count : Int} : statxAnswer mask updated path = .links count ↔
      EndsAsFinal path ∧ updated = true ∧ count = linkCount path := by
  unfold statxAnswer
  constructor
  · intro h
    cases hstatx : handleStatx mask path with
    | none =>
        rw [hstatx] at h
        cases h
    | some n =>
        rw [hstatx] at h
        obtain ⟨hends, rfl⟩ := ends_of_handleStatx hstatx
        cases updated with
        | false => cases h
        | true =>
            cases h
            exact ⟨hends, rfl, rfl⟩
  · rintro ⟨hends, rfl, rfl⟩
    rw [handleStatx_of_ends hends hmask]
    rfl

theorem statxAnswer_cases (mask : BitVec 32) (updated : Bool) :
    statxAnswer mask updated path = .untouched ∨
      ∃ count, statxAnswer mask updated path = .links count := by
  unfold statxAnswer
  split
  · split
    · exact Or.inr ⟨_, rfl⟩
    · exact Or.inl rfl
  · exact Or.inl rfl

/-- What ends like a final file does not end in " (deleted)". -/
theorem EndsAsFinal.original_eq {target : StatTarget} (h : EndsAsFinal target.hostPath) :
    target.original = target.hostPath := by
  cases target with
  | path hostPath => rfl
  | fd link =>
      unfold StatTarget.original
      refine if_neg ?_
      rintro ⟨-, hsuffix⟩
      obtain ⟨i, digits, hlink, hlength, hdigit, -⟩ := h
      change link = _ at hlink
      obtain ⟨start, hstart⟩ := List.isSuffixOf_iff_suffix.mp hsuffix
      have hlast := congrArg List.getLast? (hstart.trans hlink)
      have hne : digits ≠ [] := fun hnil => by
        rw [hnil] at hlength
        cases hlength
      rw [List.getLast?_append_of_ne_nil _ (by decide), List.getLast?_append_of_ne_nil _ (by simp),
        List.getLast?_cons_of_ne_nil hne, List.getLast?_eq_some_getLast hne] at hlast
      have hparen : ')' = digits.getLast hne := Option.some.inj hlast
      cases hparen ▸ hdigit _ (List.getLast_mem hne)

end

/-- **`stat` and `statx` agree** on a file exactly if `handle_sysexit_end` leaves it alone, or it is
one of an emulated hard link, is looked at under the path of a final file, which counts the same as
the file it leads to, and the result of `statx` is written back. -/
theorem stats_agree_iff {fs : Files α} {mask : BitVec 32} {updated : Bool} {target : StatTarget}
    (hmask : mask &&& statxNlink ≠ 0) : StatsAgree fs mask updated target ↔
      (Recognized fs target.original → Emulated fs target.original ∧ updated = true ∧
        EndsAsFinal target.hostPath ∧ ∃ final, LeadsTo fs target.original final ∧
          fs.get final ≠ none ∧ linkCount target.hostPath = linkCount final) := by
  constructor
  · intro h hrecognized
    have htouched : handleSysexitEnd fs target.original ≠ .untouched := fun huntouched =>
      handleSysexitEnd_untouched_iff.mp huntouched hrecognized
    have hemulated : Emulated fs target.original :=
      by_contra fun hno => htouched (h.untouched hno).1
    rcases statxAnswer_cases mask updated with huntouched | ⟨count, hlinks⟩
    · exact absurd (h.same.symm.trans huntouched) htouched
    · obtain ⟨hends, hupdated, hcount⟩ := (statxAnswer_links_iff hmask).mp hlinks
      obtain ⟨final, hleads, hfinal, hcount'⟩ :=
        handleSysexitEnd_links_iff.mp (h.same.symm.trans hlinks)
      exact ⟨hemulated, hupdated, hends, final, hleads, hfinal, hcount.symm.trans hcount'⟩
  · intro h
    by_cases hrecognized : Recognized fs target.original
    · obtain ⟨hemulated, hupdated, hends, final, hleads, hfinal, hcount⟩ := h hrecognized
      have hstatx := (statxAnswer_links_iff hmask).mpr ⟨hends, hupdated, rfl⟩
      have hstat := handleSysexitEnd_links_iff.mpr ⟨final, hleads, hfinal, hcount⟩
      exact ⟨hstatx.trans hstat.symm, fun hno => absurd hemulated hno⟩
    · have hstat := handleSysexitEnd_untouched_iff.mpr hrecognized
      have hstatx : statxAnswer mask updated target.hostPath = .untouched := by
        rcases @statxAnswer_cases target.hostPath mask updated with
          huntouched | ⟨count, hlinks⟩
        · exact huntouched
        · have hends := ((statxAnswer_links_iff hmask).mp hlinks).1
          have hl2s : isL2s target.original = true := hends.original_eq ▸ hends.isL2s
          exact absurd (Or.inl hl2s) hrecognized
      exact ⟨hstatx.trans hstat.symm, fun _ => ⟨hstat, hstatx⟩⟩

/-- A file with two names, and a file of the guest with a name like the emulation's. -/
def statFiles : Files Nat :=
  [("/d/a".toList, .link "/d/.l2s.a0001".toList), ("/d/b".toList, .link "/d/.l2s.a0001".toList),
    ("/d/.l2s.a0001".toList, .link "/d/.l2s.a0001.0002".toList),
    ("/d/.l2s.a0001.0002".toList, .file 1), ("/d/.l2s.notes".toList, .file 2)]

/-- The file with two names has two links, if the result of `statx` is written back. -/
theorem stats_agree_final :
    StatsAgree statFiles 0xfff true (.path "/d/.l2s.a0001.0002".toList) := by
  refine (stats_agree_iff (by decide)).mpr fun _ => ⟨?_, rfl, ?_, "/d/.l2s.a0001.0002".toList, ?_,
    by decide, rfl⟩
  · exact ⟨"/d/.l2s.a0001".toList, "/d/.l2s.a0001.0002".toList,
      ⟨by decide, by decide, 1, by decide⟩, Or.inl rfl⟩
  · exact ⟨"/d/.l2s.a0001".toList, "0002".toList, rfl, rfl, @format04_isDigit 2, by decide, by decide⟩
  · refine .final _ (by decide) fun target htarget => ?_
    have hfile : statFiles.get "/d/.l2s.a0001.0002".toList = some (.file 1) := by decide
    cases hfile.symm.trans htarget

/-- **A file of the guest that is no emulated hard link**: for `stat` the name "/d/.l2s.notes" ends
in a count, for `statx` it does not. -/
theorem stats_disagree : ¬ ∀ (fs : Files Nat) (mask : BitVec 32) (updated : Bool)
    (target : StatTarget), mask &&& statxNlink ≠ 0 → StatsAgree fs mask updated target := by
  intro h
  have hagree := h statFiles 0xfff true (.path "/d/.l2s.notes".toList) (by decide)
  have hstat : handleSysexitEnd statFiles "/d/.l2s.notes".toList = .links 0 := by decide
  have hstatx : statxAnswer 0xfff true "/d/.l2s.notes".toList = .untouched := by decide
  cases hstatx.symm.trans (hagree.same.trans hstat)

end PRoot
