import PRoot.Readlink

/-!
# The working directory and renames

What `translate_syscall_exit` of `syscall/exit.c` does to `tracee->fs->cwd` when the tracee has
renamed a directory.

* `substituted_iff`: what the substitution of a prefix makes of the working directory, for paths
  that may end with '/';
* `rename_follows_iff`: exactly when the working directory follows a rename;
* `rename_underflows`: a final '/' makes a length underflow.
-/

namespace PRoot

open SepPath

variable {W : Type}

/-! ## The exit stage -/

/-- The system calls that rename. -/
inductive RenameCall
  | rename | renameat | renameat2
  deriving DecidableEq, Repr

/-- The branch of `translate_syscall_exit` for `rename` and `renameat`; `renameat2` has none.
`oldPath` and `newPath` are what `read_path` gives for the translated arguments.  No result
stands for a length that underflows: `memmove` is called with it. -/
def renameExit (sys : Sys W) (call : RenameCall) (oldPath newPath : Except Errno CStr)
    (syscallResult : Except Errno Nat) : Option (Sys W × Except Errno Nat) :=
  match call with
  | .renameat2 => some (sys, syscallResult)
  | .rename | .renameat =>
      match syscallResult with
      | .error e => some (sys, .error e)
      | .ok _ =>
          match oldPath.bind (detranslatePath sys · none) with
          | .error e => some (sys, .error e)
          | .ok (oldPath, status) =>
              let oldLength := if status > 0 then status - 1 else oldPath.length
              -- nothing to do if the moved path is not the working directory or above it
              if (comparePaths oldPath sys.cwd).contains = false then some (sys, .ok 0)
              else
                match newPath.bind (detranslatePath sys · none) with
                | .error e => some (sys, .error e)
                | .ok (newPath, status) =>
                    let newLength := if status > 0 then status - 1 else newPath.length
                    if sys.cwd.length ≥ pathMax then some (sys, .ok 0)
                    else if sys.cwd.length < oldLength then none
                    else
                      -- the result of the substitution is not looked at
                      let cwd := (substitutePathPrefix sys.cwd oldLength newPath newLength).1
                      some (sys.setCwd cwd, .ok 0)

/-- Where the working directory is after `o` became `n`. -/
def followed (o n cwd : CStr) : CStr :=
  if comps o <+: comps cwd then render (comps n ++ (comps cwd).drop (comps o).length) else cwd

/-- **The working directory follows the rename** of `o` to `n`, and no length underflows. -/
def Follows (sys : Sys W) (o n : CStr) (after : Option (Sys W × Except Errno Nat)) : Prop :=
  ∃ sys' result, after = some (sys', result) ∧ sys'.cwd = followed o n sys.cwd

/-- The spellings of a path that canonicalization leaves: it may still end with '/'. -/
def Spells (spelling p : CStr) : Prop := spelling = p ∨ spelling = withSlash p

/-- A guest path that comes back from the host as it went. -/
def ComesBack (sys : Sys W) (p : CStr) : Prop :=
  ∃ status,
    detranslatePath sys (substituteBinding sys.bindings .guest p).1 none = .ok (p, status)

/-- When the working directory `cwd` follows the rename of `o` to `n`, spelled `old` and
`new`. -/
def RenameSuits (call : RenameCall) (cwd o n old new : CStr) : Prop :=
  comps o <+: comps cwd →
    if call = .renameat2 ∨ pathMax ≤ cwd.length then o = n
    else
      old.length ≤ cwd.length ∧
        if n = slash then o = cwd ∨ (old = o ∧ o ≠ slash)
        else if o = slash then new = n ∧ n.length + cwd.length < pathMax
        else if cwd.length - old.length + new.length < pathMax then (old = o ↔ new = n)
        else o = n

/-! ## Spellings -/

theorem Spells.split {s p : CStr} (hp : Canonical p) (h : Spells s p) :
    s = p ∨ (p ≠ slash ∧ s = p ++ ['/']) := by
  rcases h with rfl | rfl
  · exact Or.inl rfl
  · by_cases hroot : p = slash
    · subst hroot
      exact Or.inl rfl
    · have hlast := hp.last_ne.resolve_left hroot
      exact Or.inr ⟨hroot, by rw [withSlash, if_neg hlast]⟩

theorem Spells.ne_nil {s p : CStr} (hp : Canonical p) (h : Spells s p) : s ≠ [] := by
  rcases h.split hp with rfl | ⟨-, rfl⟩
  · exact hp.ne_nil
  · simp

/-- Only the spelling of "/" has one character. -/
theorem Spells.length_eq_one {s p : CStr} (hp : Canonical p) (h : Spells s p) :
    s.length = 1 ↔ p = slash := by
  rcases h.split hp with rfl | ⟨hroot, rfl⟩
  · exact hp.length_eq_one
  · refine iff_of_false ?_ hroot
    have hpos := List.length_pos_iff.mpr hp.ne_nil
    rw [List.length_append, List.length_singleton]
    omega

/-- The comparison does not see a final '/'. -/
theorem Spells.strip_eq {s p : CStr} (hp : Canonical p) (h : Spells s p) : strip s = strip p := by
  rcases h.split hp with rfl | ⟨hroot, rfl⟩
  · rfl
  · have hlast := hp.last_ne.resolve_left hroot
    rw [strip, strip, if_neg hlast, if_pos (by simp), List.dropLast_concat]

/-- **Which renames concern the working directory.** -/
theorem Spells.contains_iff {old o cwd : CStr} (ho : Canonical o) (hcwd : Canonical cwd)
    (h : Spells old o) :
    (comparePaths old cwd).contains = true ↔ comps o <+: comps cwd := by
  have hsame : (comparePaths old cwd).contains = true ↔ (comparePaths o cwd).contains = true := by
    rw [comparePaths_contains_strip, comparePaths_contains_strip, h.strip_eq ho]
    simp only [h.ne_nil ho, ho.ne_nil, ne_eq, not_false_eq_true, true_and]
  rw [hsame, comparePaths_contains_iff ho hcwd.ne_nil]
  conv_lhs => rw [hcwd.2]
  exact covers_render_iff '/' (comps_words _) (comps_words _)

/-! ## The substitution -/

section Substitution

variable {cwd o n old new : CStr} {t : List CStr}

/-- A path under another one, that is not "/", is written behind it. -/
theorem Canonical.under {p q : CStr} (hp : Canonical p) (hq : Canonical q) (hne : p ≠ slash)
    (ht : comps q = comps p ++ t) : q = p ++ flat '/' t := by
  have hcomps : comps p ≠ [] := by
    intro hnil
    apply hne
    rw [hp.2, hnil]
    rfl
  have hflat : p = flat '/' (comps p) := by
    conv_lhs => rw [hp.2]
    exact SepPath.render_of_ne_nil '/' hcomps
  have hboth : comps p ++ t ≠ [] := by
    simp [hcomps]
  conv_lhs => rw [hq.2, ht]
  rw [render, SepPath.render_of_ne_nil '/' hboth, flat_append, ← hflat]

/-- To "/": the rest of the path is left, unless a final '/' was taken from it. -/
theorem substituted_to_root (ho : Canonical o) (hcwd : Canonical cwd) (hold : Spells old o)
    (ht : comps cwd = comps o ++ t) (hle : old.length ≤ cwd.length) :
    (substitutePathPrefix cwd old.length slash slash.length).1 = render t ↔
      o = cwd ∨ (old = o ∧ o ≠ slash) := by
  have hone : slash.length = 1 := rfl
  unfold substitutePathPrefix
  rw [if_pos hone]
  by_cases hroot : o = slash
  · subst hroot
    obtain rfl : old = slash := by
      rcases hold.split ho with h | ⟨h, -⟩
      · exact h
      · exact absurd rfl h
    have hcwd' : render t = cwd := by
      rw [hcwd.2, ht]
      rfl
    simp only [hcwd', ne_eq, not_true_eq_false, and_false, or_false, hone]
    by_cases hcwdroot : cwd = slash
    · subst hcwdroot
      decide
    · have hlen : cwd.length ≠ 1 := fun h => hcwdroot (hcwd.length_eq_one.mp h)
      rw [if_pos (by omega)]
      refine iff_of_false ?_ (fun h => hcwdroot h.symm)
      intro hbad
      have := congrArg List.length hbad
      rw [List.length_drop] at this
      omega
  · have hunder := ho.under hcwd hroot ht
    have hcwdlen : cwd.length = o.length + (flat '/' t).length := by
      rw [hunder, List.length_append]
    rcases hold.split ho with rfl | ⟨-, rfl⟩
    · refine iff_of_true ?_ (Or.inr ⟨rfl, hroot⟩)
      cases t with
      | nil =>
          rw [if_neg (by rw [hcwdlen]; simp)]
          rfl
      | cons c cs =>
          have hflat : flat '/' (c :: cs) ≠ [] := by simp
          rw [if_pos (by have := List.length_pos_iff.mpr hflat; omega)]
          show cwd.drop old.length = _
          rw [hunder, List.drop_left, render, SepPath.render_of_ne_nil '/' (by simp)]
    · rw [List.length_append, List.length_singleton] at hle ⊢
      have hrest : t ≠ [] := by
        rintro rfl
        simp only [flat_nil, List.length_nil] at hcwdlen
        omega
      obtain ⟨c, cs, rfl⟩ := List.exists_cons_of_ne_nil hrest
      have hc : 0 < c.length := by
        have hword := comps_words cwd c (by rw [ht]; simp)
        exact List.length_pos_iff.mpr hword.1
      have hflat : (flat '/' (c :: cs)).length = c.length + (flat '/' cs).length + 1 := by
        simp
      rw [if_pos (by omega)]
      refine iff_of_false ?_ ?_
      · intro hbad
        have := congrArg List.length hbad
        rw [render, SepPath.render_of_ne_nil '/' (by simp), List.length_drop, hflat] at this
        omega
      · rintro (rfl | ⟨h, -⟩)
        · omega
        · simp at h

/-- From "/": the working directory is put behind the new path. -/
theorem substituted_from_root (hn : Canonical n) (hcwd : Canonical cwd) (hnew : Spells new n)
    (hne : n ≠ slash) :
    (substitutePathPrefix cwd 1 new new.length).1 = n ++ trim cwd ↔
      new = n ∧ n.length + cwd.length < pathMax := by
  have hnewlen : new.length ≠ 1 := fun h => hne ((hnew.length_eq_one hn).mp h)
  have hnlen : n.length ≠ 1 := fun h => hne (hn.length_eq_one.mp h)
  have hnpos := List.length_pos_iff.mpr hn.ne_nil
  have htrim : (if cwd.length > 1 then new ++ cwd else new) = new ++ trim cwd := by
    by_cases hcwdroot : cwd = slash
    · subst hcwdroot
      exact (List.append_nil new).symm
    · have hlen : cwd.length ≠ 1 := fun h => hcwdroot (hcwd.length_eq_one.mp h)
      have hpos := List.length_pos_iff.mpr hcwd.ne_nil
      rw [if_pos (by omega), trim, if_neg hcwdroot]
  have hlong : cwd ≠ n ++ trim cwd := by
    intro hbad
    have hlen := congrArg List.length hbad
    rw [List.length_append] at hlen
    by_cases hcwdroot : cwd = slash
    · subst hcwdroot
      simp only [trim, slash, if_true, List.length_nil, List.length_singleton] at hlen
      omega
    · rw [trim, if_neg hcwdroot] at hlen
      omega
  unfold substitutePathPrefix
  rw [if_neg hnewlen, if_pos rfl]
  simp only
  by_cases hfits : new.length + cwd.length ≥ pathMax
  · rw [if_pos hfits]
    refine iff_of_false hlong ?_
    rintro ⟨rfl, h⟩
    omega
  · rw [if_neg hfits]
    have hresult : (if cwd.length > 1 then
        ((new ++ cwd, .ok (new.length + cwd.length)) : CStr × Except Errno Nat)
          else (new, .ok new.length)).1 = new ++ trim cwd := by
      rw [← htrim]
      split <;> rfl
    rw [hresult, List.append_left_inj]
    constructor
    · rintro rfl
      exact ⟨rfl, by omega⟩
    · exact And.left

/-- Elsewhere: both paths end with '/' or neither does. -/
theorem substituted_generic (ho : Canonical o) (hn : Canonical n) (hcwd : Canonical cwd)
    (hold : Spells old o) (hnew : Spells new n) (hoslash : o ≠ slash) (hnslash : n ≠ slash)
    (ht : comps cwd = comps o ++ t) (hle : old.length ≤ cwd.length) :
    (substitutePathPrefix cwd old.length new new.length).1 = n ++ flat '/' t ↔
      if cwd.length - old.length + new.length < pathMax then (old = o ↔ new = n) else o = n := by
  have holdlen : old.length ≠ 1 := fun h => hoslash ((hold.length_eq_one ho).mp h)
  have hnewlen : new.length ≠ 1 := fun h => hnslash ((hnew.length_eq_one hn).mp h)
  have hunder := ho.under hcwd hoslash ht
  have hcwdlen : cwd.length = o.length + (flat '/' t).length := by
    rw [hunder, List.length_append]
  unfold substitutePathPrefix
  rw [if_neg hnewlen, if_neg holdlen]
  simp only
  by_cases hfits : cwd.length - old.length + new.length ≥ pathMax
  · rw [if_pos hfits, if_neg (by omega)]
    show cwd = _ ↔ _
    rw [hunder, List.append_left_inj]
  · rw [if_neg hfits, if_pos (by omega)]
    show new ++ cwd.drop old.length = _ ↔ _
    rcases hold.split ho with rfl | ⟨-, rfl⟩
    · rw [hunder, List.drop_left, List.append_left_inj]
      simp only [true_iff]
    · have hdrop : '/' :: cwd.drop (o ++ ['/']).length = flat '/' t := by
        rw [List.length_append, List.length_singleton] at hle ⊢
        have hdrop : cwd.drop o.length = flat '/' t := by rw [hunder, List.drop_left]
        rw [← List.drop_drop, hdrop]
        cases t with
        | nil =>
            simp only [flat_nil, List.length_nil] at hcwdlen
            omega
        | cons c cs => rw [flat_cons, List.drop_one, List.tail_cons]
      have hother : ¬ o ++ ['/'] = o := by simp
      rw [← hdrop]
      simp only [hother, false_iff]
      rcases hnew.split hn with rfl | ⟨-, rfl⟩
      · refine iff_of_false ?_ (by simp)
        intro hbad
        have := congrArg List.length (List.append_cancel_left hbad)
        rw [List.length_cons] at this
        omega
      · refine iff_of_true ?_ (by simp)
        rw [List.append_assoc, List.singleton_append]

end Substitution

/-! ## The whole stage -/

/-- The length taken from `detranslate_path` is that of the path. -/
theorem measured {sys : Sys W} (hinv : ListInv sys.bindings) (hbuf : Buffered sys.bindings)
    {path p : CStr} {referer : Option CStr} {status : Nat}
    (h : detranslatePath sys path referer = .ok (p, status)) :
    (if status > 0 then status - 1 else p.length) = p.length := by
  have hpath : path.length < pathMax := by
    by_contra hlong
    unfold detranslatePath at h
    rw [if_pos (by omega)] at h
    cases h
  rcases detranslatePath_spec hinv hbuf hpath p status h with ⟨rfl, -⟩ | ⟨rfl, -⟩
  · rfl
  · rw [if_pos (Nat.succ_pos _), Nat.add_sub_cancel]

theorem Sys.setCwd_cwd (sys : Sys W) (cwd : CStr) : (sys.setCwd cwd).cwd = cwd := by
  simp [Sys.setCwd, Sys.cwd, Sys.fsOf]

/-- Where a working directory under `o` is after the rename. -/
theorem followed_under {o n cwd : CStr} {t : List CStr} (ht : comps cwd = comps o ++ t) :
    followed o n cwd = render (comps n ++ t) := by
  rw [followed, if_pos ⟨t, ht.symm⟩, ht, List.drop_left]

/-- A working directory under `o` stays where it is only if `o` does. -/
theorem followed_eq_iff {o n cwd : CStr} {t : List CStr} (ho : Canonical o) (hn : Canonical n)
    (hcwd : Canonical cwd) (ht : comps cwd = comps o ++ t) :
    cwd = followed o n cwd ↔ o = n := by
  have hwords : ∀ c ∈ comps n ++ t, IsWord '/' c := by
    intro c hc
    rcases List.mem_append.mp hc with hc | hc
    · exact comps_words n c hc
    · exact comps_words cwd c (by rw [ht]; simp [hc])
  have hrender : cwd = followed o n cwd ↔ render (comps cwd) = render (comps n ++ t) := by
    rw [followed_under ht]
    conv_lhs => lhs; rw [hcwd.2]
  rw [hrender, render, render, render_inj '/' (comps_words cwd) hwords, ht,
    List.append_left_inj, ← ho.eq_iff hn]

/-- **What the substitution makes of the working directory.** -/
theorem substituted_iff {o n cwd old new : CStr} {t : List CStr} (ho : Canonical o)
    (hn : Canonical n) (hcwd : Canonical cwd) (hold : Spells old o) (hnew : Spells new n)
    (ht : comps cwd = comps o ++ t) (hle : old.length ≤ cwd.length) :
    (substitutePathPrefix cwd old.length new new.length).1 = followed o n cwd ↔
      if n = slash then o = cwd ∨ (old = o ∧ o ≠ slash)
      else if o = slash then new = n ∧ n.length + cwd.length < pathMax
      else if cwd.length - old.length + new.length < pathMax then (old = o ↔ new = n)
      else o = n := by
  rw [followed_under ht]
  by_cases hnslash : n = slash
  · subst hnslash
    obtain rfl : new = slash := by
      rcases hnew.split hn with h | ⟨h, -⟩
      · exact h
      · exact absurd rfl h
    rw [if_pos rfl]
    exact substituted_to_root ho hcwd hold ht hle
  · have hnames : ∀ c ∈ comps n ++ t, IsName c := by
      intro c hc
      rcases List.mem_append.mp hc with hc | hc
      · exact hn.1 c hc
      · exact hcwd.1 c (by rw [ht]; simp [hc])
    have hmoved : render (comps n ++ t) = n ++ flat '/' t :=
      hn.under (canonical_render hnames) hnslash (comps_render_names hnames)
    rw [if_neg hnslash, hmoved]
    by_cases hoslash : o = slash
    · have hall : flat '/' t = trim cwd := by
        rw [hcwd.trim_eq, ht, hoslash]
        rfl
      rw [if_pos hoslash, (hold.length_eq_one ho).mpr hoslash, hall]
      exact substituted_from_root hn hcwd hnew hnslash
    · rw [if_neg hoslash]
      exact substituted_generic ho hn hcwd hold hnew hoslash hnslash ht hle

/-- The exit stage, for paths that come back from the host. -/
theorem renameExit_comesBack {sys : Sys W} (hinv : ListInv sys.bindings)
    (hbuf : Buffered sys.bindings) {old new : CStr} (hold : ComesBack sys old)
    (hnew : ComesBack sys new) {call : RenameCall} (hcall : call ≠ .renameat2) (r : Nat) :
    renameExit sys call (.ok (substituteBinding sys.bindings .guest old).1)
        (.ok (substituteBinding sys.bindings .guest new).1) (.ok r) =
      if (comparePaths old sys.cwd).contains = false then some (sys, .ok 0)
      else if sys.cwd.length ≥ pathMax then some (sys, .ok 0)
      else if sys.cwd.length < old.length then none
      else
        some (sys.setCwd (substitutePathPrefix sys.cwd old.length new new.length).1, .ok 0) := by
  obtain ⟨s, hs⟩ := hold
  obtain ⟨s', hs'⟩ := hnew
  have hlen := measured hinv hbuf hs
  have hlen' := measured hinv hbuf hs'
  cases call with
  | renameat2 => exact absurd rfl hcall
  | rename => simp only [renameExit, Except.bind, hs, hs', hlen, hlen']
  | renameat => simp only [renameExit, Except.bind, hs, hs', hlen, hlen']

/-- **When the working directory follows a rename**: where the rename does not concern it, or is
one of the two calls that are looked at and no final '/' and no length is in the way. -/
theorem rename_follows_iff {sys : Sys W} (hinv : ListInv sys.bindings)
    (hbuf : Buffered sys.bindings) (hcwd : Canonical sys.cwd) {o n old new : CStr}
    (ho : Canonical o) (hn : Canonical n) (hold : Spells old o) (hnew : Spells new n)
    (hoback : ComesBack sys old) (hnback : ComesBack sys new) (call : RenameCall) (r : Nat) :
    Follows sys o n (renameExit sys call (.ok (substituteBinding sys.bindings .guest old).1)
        (.ok (substituteBinding sys.bindings .guest new).1) (.ok r)) ↔
      RenameSuits call sys.cwd o n old new := by
  have hkept : ∀ result : Except Errno Nat,
      Follows sys o n (some (sys, result)) ↔ sys.cwd = followed o n sys.cwd := by
    intro result
    constructor
    · rintro ⟨_, _, heq, h⟩
      cases heq
      exact h
    · intro h
      exact ⟨sys, result, rfl, h⟩
  by_cases hpre : comps o <+: comps sys.cwd
  · obtain ⟨t, ht⟩ := hpre
    have hstay := followed_eq_iff ho hn hcwd ht.symm
    have hsuits : RenameSuits call sys.cwd o n old new ↔ _ := forall_prop_of_true ⟨t, ht⟩
    rw [hsuits]
    by_cases hcall : call = .renameat2
    · subst hcall
      rw [if_pos (Or.inl rfl), ← hstay]
      exact hkept _
    · have hcontains := (hold.contains_iff ho hcwd).mpr ⟨t, ht⟩
      rw [renameExit_comesBack hinv hbuf hoback hnback hcall, if_neg (by rw [hcontains]; simp)]
      by_cases hlong : sys.cwd.length ≥ pathMax
      · rw [if_pos hlong, if_pos (Or.inr hlong), ← hstay]
        exact hkept _
      · have helse : ¬ (call = .renameat2 ∨ pathMax ≤ sys.cwd.length) :=
          fun h => h.elim hcall hlong
        rw [if_neg hlong, if_neg helse]
        by_cases hunder : sys.cwd.length < old.length
        · rw [if_pos hunder]
          refine iff_of_false ?_ (fun h => absurd h.1 (by omega))
          rintro ⟨_, _, heq, -⟩
          cases heq
        · rw [if_neg hunder, ← substituted_iff ho hn hcwd hold hnew ht.symm (by omega)]
          constructor
          · rintro ⟨_, _, heq, h⟩
            cases heq
            rw [Sys.setCwd_cwd] at h
            exact ⟨by omega, h⟩
          · rintro ⟨-, h⟩
            exact ⟨_, _, rfl, (Sys.setCwd_cwd _ _).trans h⟩
  · have hstay : sys.cwd = followed o n sys.cwd := by rw [followed, if_neg hpre]
    refine iff_of_true ?_ (fun h => absurd h hpre)
    by_cases hcall : call = .renameat2
    · subst hcall
      exact (hkept _).mpr hstay
    · have hcontains : (comparePaths old sys.cwd).contains = false := by
        rw [← Bool.not_eq_true, hold.contains_iff ho hcwd]
        exact hpre
      rw [renameExit_comesBack hinv hbuf hoback hnback hcall, if_pos hcontains]
      exact (hkept _).mpr hstay

/-- A tracee in the root "/r", with its working directory. -/
def workingSys (cwd : CStr) : Sys Unit :=
  { rootedSys "/r".toList with spaces := fun _ => ⟨0, cwd⟩ }

theorem workingSys_inv (cwd : CStr) :
    ListInv (workingSys cwd).bindings ∧ Buffered (workingSys cwd).bindings := by
  refine ⟨rootedSys_inv (by decide), ?_⟩
  intro b hb
  obtain rfl := List.mem_singleton.mp hb
  decide

/-- In "/a/b/c", after "/a/b" became "/x", the tracee is in "/x/c". -/
theorem rename_follows_below :
    Follows (workingSys "/a/b/c".toList) "/a/b".toList "/x".toList
      (renameExit (workingSys "/a/b/c".toList) .rename
        (.ok (substituteBinding (workingSys "/a/b/c".toList).bindings .guest "/a/b".toList).1)
        (.ok (substituteBinding (workingSys "/a/b/c".toList).bindings .guest "/x".toList).1)
        (.ok 0)) := by
  obtain ⟨hinv, hbuf⟩ := workingSys_inv "/a/b/c".toList
  have hold : ComesBack (workingSys "/a/b/c".toList) "/a/b".toList := ⟨5, by decide⟩
  have hnew : ComesBack (workingSys "/a/b/c".toList) "/x".toList := ⟨3, by decide⟩
  have hsuits : RenameSuits .rename "/a/b/c".toList "/a/b".toList "/x".toList "/a/b".toList
      "/x".toList := by
    unfold RenameSuits
    decide
  exact (rename_follows_iff hinv hbuf (by decide) (by decide) (by decide) (Or.inl rfl)
    (Or.inl rfl) hold hnew .rename 0).mpr hsuits

/-- In "/a/b", `rename("/a/b/", "/x")` subtracts 5 from 4. -/
theorem rename_underflows :
    renameExit (workingSys "/a/b".toList) .rename
        (.ok (substituteBinding (workingSys "/a/b".toList).bindings .guest "/a/b/".toList).1)
        (.ok (substituteBinding (workingSys "/a/b".toList).bindings .guest "/x".toList).1)
        (.ok 0) = none ∧
      ¬ Follows (workingSys "/a/b".toList) "/a/b".toList "/x".toList none := by
  obtain ⟨hinv, hbuf⟩ := workingSys_inv "/a/b".toList
  have hold : ComesBack (workingSys "/a/b".toList) "/a/b/".toList := ⟨6, by decide⟩
  have hnew : ComesBack (workingSys "/a/b".toList) "/x".toList := ⟨3, by decide⟩
  constructor
  · rw [renameExit_comesBack hinv hbuf hold hnew (by decide) 0]
    decide
  · rintro ⟨_, _, h, -⟩
    cases h

end PRoot
