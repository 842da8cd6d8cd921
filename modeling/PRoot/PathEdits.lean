import Mathlib.Data.List.TakeWhile
import Mathlib.Tactic.Set
import PRoot.PathOrder

/-!
# What the path editors do

One specification for each string function of `path.c` and `canon.c`, on
canonical paths and on the trailing markers "/" and "/.".

* `joinPaths_relative`, `joinPaths_name`, `joinPaths_empty`, `joinPaths_dot`;
* `popComponent_render` : one word less, and nothing above "/";
* `nextComponent_spec` : the cursor walks over the words of the string;
* `substitutePathPrefix_spec` : the old prefix is replaced when the new length
  fits, and otherwise *nothing* happens to the path (`Fits`, `reroot`);
* `chopFinality_plain`, `chopFinality_withSlash`, `chopFinality_withDot`;
* `covers_marker_iff`, `reroot_marker` : a final "/" or "/." stays what it is.
-/

namespace PRoot

open SepPath

/-! ## Joining -/

/-- A path with a trailing '/'. -/
def withSlash (p : CStr) : CStr := if p.getLast? = some '/' then p else p ++ ['/']

/-- Accept a path that leaves room for its terminator, as `join_paths` counts. -/
def fitJoin (r : CStr) : Except Errno CStr :=
  if r.length + 1 ≥ pathMax then .error .ENAMETOOLONG else .ok r

theorem fitJoin_ok {r r' : CStr} (h : fitJoin r = .ok r') : r' = r ∧ r.length + 1 < pathMax := by
  unfold fitJoin at h
  split at h
  · cases h
  · exact ⟨(Except.ok.inj h).symm, by omega⟩

theorem joinPath_nil (p : CStr) : joinPath [] p = fitJoin p := by
  simp [joinPath, fitJoin]

variable {g c : CStr}

/-- Joining something relative. -/
theorem joinPath_relative (hg : g ≠ []) (hc : c.head? ≠ some '/') :
    joinPath g c = fitJoin (withSlash g ++ c) := by
  unfold joinPath withSlash fitJoin
  by_cases hlast : g.getLast? = some '/'
  · simp [hg, hc, hlast]
  · simp [hg, hc, hlast]
    have : g.length + c.length + 1 = g.length + (c.length + 1) := by omega
    rw [this]

/-- Two paths are joined when the result fits. -/
theorem joinPaths_relative (hg : g ≠ []) (hc : c.head? ≠ some '/') :
    joinPaths [g, c] = fitJoin (withSlash g ++ c) := by
  have hlen : g.length ≤ (withSlash g ++ c).length := by
    unfold withSlash
    split <;> simp
  show (joinPath [] g >>= fun r => joinPath r c >>= pure) = _
  rw [joinPath_nil]
  by_cases hfit : g.length + 1 ≥ pathMax
  · have hfit' : (withSlash g ++ c).length + 1 ≥ pathMax := by omega
    rw [fitJoin, fitJoin, if_pos hfit, if_pos hfit']
    rfl
  · rw [fitJoin, if_neg hfit]
    show (joinPath g c >>= pure) = _
    rw [joinPath_relative hg hc]
    cases fitJoin (withSlash g ++ c) <;> rfl

variable {p : CStr}

/-- An absolute path joined to "/" is itself. -/
theorem joinPaths_slash_absolute (hp : p.head? = some '/') :
    joinPaths [slash, p] = fitJoin p := by
  cases p with
  | nil => cases hp
  | cons x xs =>
      obtain rfl : x = '/' := by simpa using hp
      have h1 : joinPath [] slash = .ok slash := by decide
      show (joinPath [] slash >>= fun r => joinPath r ('/' :: xs) >>= pure) = _
      rw [h1]
      show (joinPath slash ('/' :: xs) >>= pure) = _
      simp only [joinPath, slash, fitJoin]
      by_cases hfit : xs.length + 1 + 1 ≥ pathMax
      · simp [hfit, bind, Except.bind]
      · simp [hfit, bind, Except.bind, pure, Except.pure]

theorem withSlash_render {cs : List CStr} (h : ∀ c ∈ cs, IsWord '/' c) :
    withSlash (render cs) = flat '/' cs ++ ['/'] := by
  cases cs with
  | nil => rfl
  | cons c cs =>
      have hlast := flat_getLast_ne h
      rw [render, SepPath.render_of_ne_nil '/' (by simp), withSlash, if_neg hlast]

theorem Canonical.withSlash_eq (hg : Canonical g) :
    withSlash g = flat '/' (comps g) ++ ['/'] := by
  conv_lhs => rw [hg.2]
  exact withSlash_render (comps_words g)

theorem withSlash_append_name (hg : Canonical g) (c : CStr) :
    withSlash g ++ c = render (comps g ++ [c]) := by
  rw [hg.withSlash_eq, render, SepPath.render_of_ne_nil '/' (by simp)]
  simp

theorem IsWord.head_ne (hc : IsWord '/' c) : c.head? ≠ some '/' := by
  intro h
  exact hc.2 (List.mem_of_mem_head? h)

/-- Joining a name goes one level down. -/
theorem joinPaths_name (hg : Canonical g) (hc : IsWord '/' c) :
    joinPaths [g, c] = fitJoin (render (comps g ++ [c])) := by
  rw [joinPaths_relative hg.ne_nil (IsWord.head_ne hc), withSlash_append_name hg]

theorem joinPaths_empty (hg : g ≠ []) : joinPaths [g, []] = fitJoin (withSlash g) := by
  rw [joinPaths_relative hg (by simp), List.append_nil]

/-- A canonical path one name longer. -/
theorem canonical_child (hg : Canonical g) (hc : IsName c) :
    Canonical (render (comps g ++ [c])) ∧ comps (render (comps g ++ [c])) = comps g ++ [c] := by
  have hnames : ∀ d ∈ comps g ++ [c], IsName d := by
    intro d hd
    rcases List.mem_append.mp hd with hd | hd
    · exact hg.1 d hd
    · exact List.mem_singleton.mp hd ▸ hc
  exact ⟨canonical_render hnames, comps_render_names hnames⟩

/-! ## Popping -/

/-- Scanning back over a last word stops right after its separator, but never
before the second character. -/
theorem skipBackward_word {u v : CStr} (hv : '/' ∉ v) :
    ∀ k, k ≤ v.length → 1 ≤ u.length + k →
      skipBackward (· ≠ '/') (u ++ '/' :: v) (u.length + k) = max u.length 1 := by
  intro k
  induction k with
  | zero =>
      intro _ hpos
      obtain ⟨n, hn⟩ : ∃ n, u.length = n + 1 := ⟨u.length - 1, by omega⟩
      have hsep : (u ++ '/' :: v)[n + 1]? = some '/' := by
        rw [← hn, List.getElem?_append_right (Nat.le_refl _), Nat.sub_self]
        rfl
      rw [Nat.add_zero, hn, skipBackward, hsep]
      simp
  | succ k ih =>
      intro hk hpos
      have hget : (u ++ '/' :: v)[u.length + (k + 1)]? = v[k]? := by
        rw [List.getElem?_append_right (by omega)]
        simp
      have hmem : v[k] ∈ v := List.getElem_mem (by omega)
      have hne : v[k] ≠ '/' := fun h => hv (h ▸ hmem)
      have hsome : v[k]? = some v[k] := List.getElem?_eq_getElem (by omega)
      rw [← Nat.add_assoc] at hget ⊢
      rw [skipBackward, hget, hsome]
      by_cases hone : 1 < u.length + k + 1
      · rw [if_pos ⟨hone, by simpa using hne⟩]
        exact ih (by omega) (by omega)
      · rw [if_neg (fun h => hone h.1)]
        omega

/-- **Popping removes the last word and stays at "/".** -/
theorem popComponent_render {cs : List CStr} (h : ∀ c ∈ cs, IsWord '/' c) :
    popComponent (render cs) = render cs.dropLast := by
  rcases List.eq_nil_or_concat' cs with rfl | ⟨init, c, rfl⟩
  · rfl
  · have hc : IsWord '/' c := h c (by simp)
    have hclen : 0 < c.length := List.length_pos_iff.mpr hc.1
    have hpath : render (init ++ [c]) = flat '/' init ++ '/' :: c := by
      rw [render, SepPath.render_of_ne_nil '/' (by simp)]
      simp
    have hlast : (flat '/' init ++ '/' :: c)[(flat '/' init).length + c.length]? ≠ some '/' := by
      rw [List.getElem?_append_right (by omega), Nat.add_sub_cancel_left]
      obtain ⟨k, hk⟩ : ∃ k, c.length = k + 1 := ⟨c.length - 1, by omega⟩
      rw [hk, List.getElem?_cons_succ]
      intro hbad
      exact hc.2 (List.mem_of_getElem? hbad)
    have hstay : skipBackward (· = '/') (flat '/' init ++ '/' :: c)
        ((flat '/' init).length + c.length) = (flat '/' init).length + c.length := by
      obtain ⟨k, hk⟩ : ∃ k, (flat '/' init).length + c.length = k + 1 :=
        ⟨(flat '/' init).length + c.length - 1, by omega⟩
      rw [hk] at hlast ⊢
      rw [skipBackward, if_neg]
      rintro ⟨_, hany⟩
      cases hget : (flat '/' init ++ '/' :: c)[k + 1]? with
      | none => simp [hget] at hany
      | some x =>
          rw [hget] at hany hlast
          exact hlast (by simpa using hany)
    rw [hpath, List.dropLast_concat, popComponent]
    have hoff : (flat '/' init ++ '/' :: c).length - 1 = (flat '/' init).length + c.length := by
      simp
    simp only [hoff]
    rw [if_neg (by omega), hstay,
      skipBackward_word hc.2 c.length (Nat.le_refl _) (by omega)]
    cases hi : init with
    | nil => rfl
    | cons d ds =>
        have hd : 0 < (flat '/' (d :: ds)).length := by simp
        rw [Nat.max_eq_left (by omega), List.take_left, render,
          SepPath.render_of_ne_nil '/' (by simp)]

theorem popComponent_canonical (hg : Canonical g) :
    Canonical (popComponent g) ∧ comps (popComponent g) = (comps g).dropLast := by
  have hpop : popComponent g = render (comps g).dropLast := by
    conv_lhs => rw [hg.2]
    exact popComponent_render (comps_words g)
  have hnames : ∀ c ∈ (comps g).dropLast, IsName c :=
    fun c hc => hg.1 c (List.dropLast_subset _ hc)
  rw [hpop]
  exact ⟨canonical_render hnames, comps_render_names hnames⟩

/-! ## Cutting off the next component -/

theorem comps_dropWhile (p : CStr) : comps (p.dropWhile (· = '/')) = comps p := by
  induction p with
  | nil => rfl
  | cons x xs ih =>
      by_cases hx : x = '/'
      · subst hx
        rw [List.dropWhile_cons_of_pos (by simp), ih]
        exact (comps_sep_cons '/' xs).symm
      · rw [List.dropWhile_cons_of_neg (by simpa using hx)]

theorem atBoundary_dropWhile (p : CStr) : AtBoundary '/' (p.dropWhile (· ≠ '/')) := by
  induction p with
  | nil => exact atBoundary_nil '/'
  | cons x xs ih =>
      by_cases hx : x = '/'
      · subst hx
        rw [List.dropWhile_cons_of_neg (by simp)]
        exact atBoundary_cons '/' xs
      · rwa [List.dropWhile_cons_of_pos (by simpa using hx)]

theorem not_mem_takeWhile (p : CStr) : '/' ∉ p.takeWhile (· ≠ '/') := by
  intro h
  simpa using List.mem_takeWhile_imp h

/-- No words are left only when nothing but separators is. -/
theorem dropWhile_eq_nil_iff (p : CStr) : p.dropWhile (· = '/') = [] ↔ comps p = [] := by
  constructor
  · intro h
    rw [← comps_dropWhile, h]
    rfl
  · intro h
    by_contra hne
    rw [← comps_dropWhile] at h
    cases hd : p.dropWhile (· = '/') with
    | nil => exact hne hd
    | cons x xs =>
        have hx : x ≠ '/' := by
          have := List.head_dropWhile_not (· = '/') hne
          simp only [hd, List.head_cons] at this
          simpa using this
        rw [hd] at h
        have hword : IsWord '/' ((x :: xs).takeWhile (· ≠ '/')) :=
          ⟨by simp [hx], not_mem_takeWhile _⟩
        rw [← List.takeWhile_append_dropWhile (p := (· ≠ '/')) (l := x :: xs), comps,
          comps_word_append '/' hword (atBoundary_dropWhile _)] at h
        cases h

/-- What one call of `next_component` finds at a cursor. -/
inductive NextSpec (cursor : CStr) : Except Errno (CStr × Finality × CStr) → Prop
  /-- Only separators: one empty component. -/
  | empty (h : comps cursor = []) : NextSpec cursor (.ok ([], .finalNormal, []))
  /-- The last word; a '/' follows it or not. -/
  | last {c : CStr} (h : comps cursor = [c]) (hlen : c.length < nameMax) :
      NextSpec cursor
        (.ok (c, if cursor.getLast? = some '/' then .finalSlash else .finalNormal, []))
  /-- A word, and more words behind it. -/
  | more {c cursor' : CStr} (h : comps cursor = c :: comps cursor') (hlen : c.length < nameMax)
      (hmore : comps cursor' ≠ []) (hshort : cursor'.length < cursor.length)
      (hlast : cursor'.getLast? = cursor.getLast?) :
      NextSpec cursor (.ok (c, .notFinal, cursor'))
  /-- A word that does not fit `NAME_MAX`. -/
  | tooLong {c : CStr} {cs : List CStr} (h : comps cursor = c :: cs) (hlen : nameMax ≤ c.length) :
      NextSpec cursor (.error .ENAMETOOLONG)

theorem getLast?_of_suffix {q : CStr} (h : q <:+ p) (hq : q ≠ []) :
    q.getLast? = p.getLast? := by
  obtain ⟨t, rfl⟩ := h
  rw [List.getLast?_append_of_ne_nil _ hq]

/-- **The cursor walks over the words of the string.** -/
theorem nextComponent_spec (cursor : CStr) : NextSpec cursor (nextComponent cursor) := by
  set start := cursor.dropWhile (· = '/') with hstart
  set c := start.takeWhile (· ≠ '/') with hc
  set after := start.dropWhile (· ≠ '/') with hafter
  have hsplit : start = c ++ after := (List.takeWhile_append_dropWhile).symm
  have hcomps : comps start = comps cursor := comps_dropWhile cursor
  have hsuffix : start <:+ cursor := List.dropWhile_suffix _
  have hunfold : nextComponent cursor =
      if c.length ≥ nameMax then .error .ENAMETOOLONG
      else if after.dropWhile (· = '/') = [] then
        .ok (c, if after.head? = some '/' then .finalSlash else .finalNormal,
          after.dropWhile (· = '/'))
      else .ok (c, .notFinal, after.dropWhile (· = '/')) := rfl
  rw [hunfold]
  by_cases hnil : start = []
  · have hc0 : c = [] := by simp [hc, hnil]
    have ha0 : after = [] := by simp [hafter, hnil]
    rw [hc0, ha0]
    exact NextSpec.empty ((dropWhile_eq_nil_iff cursor).mp hnil)
  · have hword : IsWord '/' c := by
      refine ⟨?_, not_mem_takeWhile _⟩
      cases hs : start with
      | nil => exact absurd hs hnil
      | cons x xs =>
          have hx : x ≠ '/' := by
            have := List.head_dropWhile_not (· = '/') (hstart ▸ hnil)
            simp only [← hstart, hs, List.head_cons] at this
            simpa using this
          simp [hc, hs, hx]
    have hread : comps cursor = c :: comps after := by
      rw [← hcomps, hsplit]
      exact comps_word_append '/' hword (atBoundary_dropWhile _)
    by_cases hlen : c.length ≥ nameMax
    · rw [if_pos hlen]
      exact NextSpec.tooLong hread hlen
    · rw [if_neg hlen]
      by_cases hend : after.dropWhile (· = '/') = []
      · rw [if_pos hend, hend]
        have hafternil : comps after = [] := (dropWhile_eq_nil_iff after).mp hend
        have hiff : after.head? = some '/' ↔ cursor.getLast? = some '/' := by
          rw [← getLast?_of_suffix hsuffix hnil, hsplit]
          cases ha : after with
          | nil =>
              have hlast : c.getLast? ≠ some '/' := fun h => hword.2 (List.mem_of_getLast? h)
              simpa using hlast
          | cons x xs =>
              have hall : ∀ y ∈ x :: xs, y = '/' := by
                have := List.dropWhile_eq_nil_iff.mp (ha ▸ hend)
                simpa using this
              rw [List.getLast?_append_of_ne_nil _ (by simp)]
              have h1 : x = '/' := hall x List.mem_cons_self
              have h2 : (x :: xs).getLast (by simp) = '/' :=
                hall _ (List.getLast_mem (by simp))
              rw [List.getLast?_eq_some_getLast (by simp), h2]
              simp [h1]
        simp only [hiff]
        exact NextSpec.last (by rw [hread, hafternil]) (by omega)
      · rw [if_neg hend]
        have hsuf : after.dropWhile (· = '/') <:+ start :=
          (List.dropWhile_suffix _).trans (hsplit ▸ List.suffix_append c after)
        refine NextSpec.more (by rw [hread, comps_dropWhile]) (by omega) ?_ ?_ ?_
        · rw [comps_dropWhile]
          exact fun h => hend ((dropWhile_eq_nil_iff after).mpr h)
        · have h1 : (after.dropWhile (· = '/')).length ≤ after.length :=
            (List.dropWhile_suffix _).length_le
          have h2 : start.length = c.length + after.length := by
            conv_lhs => rw [hsplit]
            simp
          have h3 : start.length ≤ cursor.length := hsuffix.length_le
          have h4 : 0 < c.length := List.length_pos_iff.mpr hword.1
          omega
        · exact getLast?_of_suffix (hsuf.trans hsuffix) hend

/-! ## Replacing a prefix -/

/-- The path `p`, moved from under `old` to under `new`: the new side followed
by what is left of `p` behind the old one. -/
def reroot (new old p : CStr) : CStr :=
  let r := trim new ++ (trim p).drop (trim old).length
  if r = [] then slash else r

/-- The length `substitute_path_prefix` computes leaves room for a terminator.
For the root as old prefix it counts the '/' of the path "/" too. -/
def Fits (new old p : CStr) : Prop :=
  new = slash ∨
    if old = slash then new.length + p.length < pathMax
    else p.length - old.length + new.length < pathMax

instance (new old p : CStr) : Decidable (Fits new old p) :=
  inferInstanceAs (Decidable (_ ∨ _))

theorem Canonical.length_eq_one (h : Canonical p) : p.length = 1 ↔ p = slash := by
  constructor
  · intro hlen
    have hhead := h.head
    match p, hlen, hhead with
    | [x], _, hx => simpa [slash] using hx
  · rintro rfl
    rfl

variable {old : CStr}

/-- A string that covered words begin, past those words. -/
theorem drop_trim_of_covers (hold : Canonical old) (hcov : Covers '/' (comps old) p)
    (hne : old ≠ slash) :
    p ≠ slash ∧ (trim p).drop (trim old).length = p.drop old.length ∧ old.length ≤ p.length := by
  have htrim : trim old = old := if_neg hne
  have hflat := hold.trim_eq
  obtain ⟨rest, hrest, -⟩ := hcov
  rw [← hflat, htrim] at hrest
  have hlen : 1 < old.length := by
    have h1 : old.length ≠ 1 := fun h => hne (hold.length_eq_one.mp h)
    have h0 : 0 < old.length := List.length_pos_iff.mpr hold.ne_nil
    omega
  have hp : p ≠ slash := by
    intro h
    have := congrArg List.length (h ▸ hrest)
    simp [slash] at this
    omega
  refine ⟨hp, by rw [htrim, trim, if_neg hp], ?_⟩
  rw [hrest]
  simp

variable {new : CStr}

/-- **Replacing a prefix.**  When the new length fits the path is rerooted,
otherwise it is returned *unchanged*, with an error the caller has to look at. -/
theorem substitutePathPrefix_spec (hnew : Canonical new) (hold : Canonical old) (hdiff : new ≠ old)
    (hp : p ≠ []) (hcov : Covers '/' (comps old) p) :
    substitutePathPrefix p old.length new new.length =
      if Fits new old p then (reroot new old p, .ok (reroot new old p).length)
      else (p, .error .ENAMETOOLONG) := by
  unfold substitutePathPrefix
  by_cases hn : new = slash
  · have hold' : old ≠ slash := fun h => hdiff (hn.trans h.symm)
    obtain ⟨-, hdrop, -⟩ := drop_trim_of_covers hold hcov hold'
    have hone : new.length = 1 := hnew.length_eq_one.mpr hn
    have hreroot : reroot new old p =
        if p.drop old.length = [] then slash else p.drop old.length := by
      rw [reroot, hdrop, hn]
      rfl
    have hfit : Fits new old p := Or.inl hn
    rw [if_pos hone, if_pos hfit, hreroot]
    by_cases hlen : p.length - old.length = 0
    · have hnil : p.drop old.length = [] := by simpa using Nat.sub_eq_zero_iff_le.mp hlen
      simp [hlen, hnil, slash]
    · have hnil : p.drop old.length ≠ [] := fun h => hlen (by
        have := congrArg List.length h
        simpa using this)
      simp [hlen, hnil]
  · have hone : new.length ≠ 1 := fun h => hn (hnew.length_eq_one.mp h)
    have htrim : trim new = new := if_neg hn
    have hne : ∀ r : CStr, new ++ r ≠ [] := fun r h => hnew.ne_nil (List.append_eq_nil_iff.mp h).1
    rw [if_neg hone]
    by_cases ho : old = slash
    · have hodrop : (trim p).drop (trim old).length = trim p := by rw [ho]; rfl
      have hiff : Fits new old p ↔ ¬ new.length + p.length ≥ pathMax := by
        simp only [Fits, hn, ho, false_or, if_true]
        omega
      rw [if_pos (hold.length_eq_one.mpr ho)]
      by_cases hfit : new.length + p.length ≥ pathMax
      · rw [if_pos hfit, if_neg (fun h => hiff.mp h hfit)]
      · rw [if_neg hfit, if_pos (hiff.mpr hfit), reroot, htrim, hodrop, if_neg (hne _)]
        by_cases hlong : p.length > 1
        · have hps : p ≠ slash := fun h => by rw [h] at hlong; simp [slash] at hlong
          rw [if_pos hlong, trim, if_neg hps]
          simp
        · have hps : p = slash := by
            obtain ⟨rest, hrest, hb⟩ := hcov
            have hroot : comps old = [] := by rw [ho]; rfl
            rw [hroot] at hrest
            have hp1 : p.length = 1 := by
              have := List.length_pos_iff.mpr hp
              omega
            match p, hp1, hrest, hb with
            | [x], _, hr, hb =>
                have hr' : rest = [x] := by simpa using hr.symm
                subst hr'
                simpa [AtBoundary, slash] using hb
          rw [if_neg hlong, hps]
          simp [trim]
    · obtain ⟨-, hdrop, -⟩ := drop_trim_of_covers hold hcov ho
      have hone' : old.length ≠ 1 := fun h => ho (hold.length_eq_one.mp h)
      have hiff : Fits new old p ↔ ¬ p.length - old.length + new.length ≥ pathMax := by
        simp only [Fits, hn, ho, false_or, if_false]
        omega
      rw [if_neg hone']
      by_cases hfit : p.length - old.length + new.length ≥ pathMax
      · rw [if_pos hfit, if_neg (fun h => hiff.mp h hfit)]
      · rw [if_neg hfit, if_pos (hiff.mpr hfit), reroot, htrim, hdrop, if_neg (hne _)]
        simp only [List.length_append, List.length_drop]
        rw [Nat.add_comm]

/-- Rerooting a canonical path: the new words, then the rest of the old ones. -/
theorem reroot_render (hnew : Canonical new) (hold : Canonical old) (hp : Canonical p)
    {t : List CStr} (ht : comps p = comps old ++ t) :
    reroot new old p = render (comps new ++ t) := by
  have hdrop : (trim p).drop (trim old).length = flat '/' t := by
    rw [hp.trim_eq, hold.trim_eq, ht, flat_append, List.drop_left]
  rw [reroot, hdrop, hnew.trim_eq, ← flat_append, render, SepPath.render]
  simp only [flat_eq_nil_iff]
  rfl

/-- The words of a rerooted path are names. -/
theorem reroot_names {a t : List CStr} (hnew : Canonical new) (hp : Canonical p)
    (ht : comps p = a ++ t) : ∀ c ∈ comps new ++ t, IsName c := by
  intro c hc
  rcases List.mem_append.mp hc with hc | hc
  · exact hnew.1 c hc
  · exact hp.1 c (by rw [ht]; simp [hc])

/-! ## Chopping the final marker -/

/-- A path with a trailing "/.". -/
def withDot (p : CStr) : CStr := withSlash p ++ ['.']

/-- A path whose last character is not a '.' and not a '/' is left alone. -/
theorem chopFinality_plain (hdot : p.getLast? ≠ some '.')
    (hslash : p = slash ∨ p.getLast? ≠ some '/') : chopFinality p = p := by
  unfold chopFinality
  rw [if_neg hdot]
  rcases hslash with rfl | hslash
  · rfl
  · rw [if_neg hslash]

theorem Canonical.last_ne (h : Canonical p) : p = slash ∨ p.getLast? ≠ some '/' := by
  by_cases hp : p = slash
  · exact Or.inl hp
  · right
    have := h.trim_eq
    rw [trim, if_neg hp] at this
    rw [this]
    exact flat_getLast_ne (comps_words p)

theorem chopFinality_withSlash (h : Canonical p) : chopFinality (withSlash p) = p := by
  rcases h.last_ne with rfl | hlast
  · rfl
  · have hpos : 0 < p.length := List.length_pos_iff.mpr h.ne_nil
    have hlen : 1 < (p ++ ['/']).length := by simp; omega
    rw [withSlash, if_neg hlast, chopFinality, if_neg (by simp), if_pos (by simp), if_pos hlen]
    simp

theorem chopFinality_withDot (h : Canonical p) : chopFinality (withDot p) = p := by
  rcases h.last_ne with rfl | hlast
  · rfl
  · have hpos : 0 < p.length := List.length_pos_iff.mpr h.ne_nil
    rw [withDot, withSlash, if_neg hlast, chopFinality]
    have hlen : (p ++ ['/'] ++ ['.']).length = p.length + 2 := by simp
    rw [if_pos (by simp), hlen, if_neg (by omega)]
    simp

theorem Canonical.withDot_eq (hg : Canonical g) :
    withDot g = flat '/' (comps g) ++ ['/', '.'] := by
  rw [withDot, hg.withSlash_eq]
  simp

/-- A final marker neither adds to nor takes from what covers a path. -/
theorem covers_marker_iff {a b : List CStr} {marker : CStr} (ha : ∀ c ∈ a, IsName c)
    (hb : ∀ c ∈ b, IsName c) (hmarker : marker = ['/'] ∨ marker = ['/', '.']) :
    Covers '/' a (flat '/' b ++ marker) ↔ a <+: b := by
  have hbound : AtBoundary '/' marker := by
    rcases hmarker with rfl | rfl <;> exact atBoundary_cons '/' _
  constructor
  · intro h
    rcases Covers.chain '/' (fun c hc => (ha c hc).isWord) (fun c hc => (hb c hc).isWord) h
      ⟨marker, rfl, hbound⟩ with hpre | ⟨t, rfl⟩
    · exact hpre
    · -- what `a` has more than `b` would lie in the marker
      obtain ⟨rest, hrest, -⟩ := h
      cases t with
      | nil => simp
      | cons c cs =>
          have hc : IsName c := ha c (by simp)
          rw [flat_append, List.append_assoc] at hrest
          have hrest := List.append_cancel_left hrest
          rcases hmarker with rfl | rfl
          · have : c = [] := by
              cases c with
              | nil => rfl
              | cons x xs => simp at hrest
            exact absurd this hc.1.1
          · have hdot : c = [] ∨ c = ['.'] := by
              cases c with
              | nil => exact Or.inl rfl
              | cons x xs =>
                  cases xs with
                  | nil => right; simp at hrest; rw [hrest.1]
                  | cons y ys => simp at hrest
            rcases hdot with hdot | hdot
            · exact absurd hdot hc.1.1
            · exact absurd hdot hc.2.1
  · rintro ⟨t, rfl⟩
    exact ⟨flat '/' t ++ marker, by simp, atBoundary_flat_append '/' t hbound⟩

/-- Rerooting keeps a final marker in place. -/
theorem reroot_marker (hnew : Canonical new) (hold : Canonical old) {cs t : List CStr}
    {marker : CStr} (ht : cs = comps old ++ t) (hmarker : marker = ['/'] ∨ marker = ['/', '.'])
    (hne : flat '/' cs ++ marker ≠ slash) :
    reroot new old (flat '/' cs ++ marker) = flat '/' (comps new ++ t) ++ marker := by
  have htrim : trim (flat '/' cs ++ marker) = flat '/' cs ++ marker := if_neg hne
  have hdrop : (trim (flat '/' cs ++ marker)).drop (trim old).length = flat '/' t ++ marker := by
    rw [htrim, hold.trim_eq, ht, flat_append, List.append_assoc, List.drop_left]
  have hnil : flat '/' (comps new) ++ (flat '/' t ++ marker) ≠ [] := by
    rcases hmarker with rfl | rfl <;> simp
  rw [reroot, hdrop, hnew.trim_eq, if_neg hnil]
  simp

end PRoot
