import PRoot.Translate

/-!
# No link is left for the kernel to follow

Every component a resolution goes through has been looked up on the host, and
links are replaced by what they lead to.  The one exception are the links of
"/proc/<PID>/fd", at which canonicalization stops.

* `substituteBindingStat_isLink`: the lookup tells links from other files;
* `CanonRun.noLink`: without a bad stop, no directory above the path of a run is
  a link, and the path itself is one only where canonicalization has stopped;
* `translatePath_noLink`: the same of the host path of a translation;
* `translatePath_leaves_link`: a guest directory that is merely named /proc.
-/

namespace PRoot

open SepPath

variable {W : Type} {k : Kernel W}

/-- The host path of a guest path, as the code finds it. -/
def hostOf (sys : Sys W) (path : CStr) : CStr := (substituteBinding sys.bindings .guest path).1

/-- A guest path is a symbolic link. -/
def IsLinkAt (k : Kernel W) (sys : Sys W) (path : CStr) : Prop :=
  k.lstat sys.world (hostOf sys path) = .ok .lnk

/-- A directory that can be listed lists what exists in it. -/
def Kernel.Listed (k : Kernel W) (world : W) : Prop :=
  ∀ path type, k.lstat world path = .ok type → shouldSkipFileAccess k world path = false

/-- An entry of "/proc/<PID>/fd" of the host. -/
def IsProcFd (hostPath : CStr) : Prop := ∃ pid n, hostPath = procPidFdPath pid ++ '/' :: n

theorem statHost_link_iff {world : W} (hlist : k.Listed world) {path : CStr} :
    statHost k world path = .ok .lnk ↔ k.lstat world path = .ok .lnk := by
  unfold statHost
  constructor
  · intro h
    split at h
    · cases h
    · split at h
      · split at h <;> cases h
      · exact h
  · intro h
    rw [hlist _ _ h, h]
    rfl

variable {finality : Finality}

theorem checkType_ok {failed isLink : Bool} {type : Option FileType}
    (h : checkType finality failed type = .ok isLink) : isLink = true ↔ type = some .lnk := by
  unfold checkType at h
  split at h
  · cases h
  · cases h
    simp

variable {sys : Sys W}

/-- **The lookup tells links from other files.** -/
theorem substituteBindingStat_isLink (hglue : sys.tracee.glueType = none)
    (hlist : k.Listed sys.world) {path hostPath : CStr} {isLink : Bool}
    (h : substituteBindingStat k sys finality path = (sys, .ok (isLink, hostPath))) :
    hostPath = hostOf sys path ∧ (isLink = true ↔ IsLinkAt k sys path) := by
  have hmap : ∀ {r : Except Errno Bool} {p : CStr}, r.map (·, p) = .ok (isLink, hostPath) →
      r = .ok isLink ∧ p = hostPath := by
    intro r p hr
    cases r with
    | error e => cases hr
    | ok b =>
        cases hr
        exact ⟨rfl, rfl⟩
  unfold substituteBindingStat at h
  rcases hs : substituteBinding sys.bindings .guest path with ⟨host, e | changed⟩
  · rw [hs] at h
    cases h
  · have hhost : hostOf sys path = host := by rw [hostOf, hs]
    rw [hs, hglue] at h
    simp only at h
    rw [IsLinkAt, hhost, ← statHost_link_iff hlist]
    cases hst : statHost k sys.world host with
    | error e =>
        rw [hst] at h
        simp only [Prod.mk.injEq, true_and] at h
        obtain ⟨hr, rfl⟩ := hmap h
        have := checkType_ok hr
        exact ⟨rfl, by simp [this]⟩
    | ok type =>
        rw [hst] at h
        simp only [Prod.mk.injEq, true_and] at h
        obtain ⟨hr, rfl⟩ := hmap h
        have := checkType_ok hr
        exact ⟨rfl, by simp [this]⟩

/-! ## The invariant -/

/-- None of the directories above a path is a link. -/
def ClearAbove (k : Kernel W) (sys : Sys W) (cs : List CStr) : Prop :=
  ∀ p, p <+: cs → p ≠ [] → p ≠ cs → ¬ IsLinkAt k sys (render p)

/-- A path is no link, or canonicalization has stopped there. -/
def Settled (k : Kernel W) (sys : Sys W) (log : List Event) (g : CStr) : Prop :=
  comps g = [] ∨ ¬ IsLinkAt k sys g ∨ ∃ level, .stop level g ∈ log

/-- Where canonicalization stops there is an entry of "/proc/<PID>/fd" of the
host, no directory above it is a link, and nothing is looked up below it. -/
def GoodStops (k : Kernel W) (sys : Sys W) (log : List Event) : Prop :=
  ∀ level path, .stop level path ∈ log →
    IsProcFd (hostOf sys path) ∧ ClearAbove k sys (comps path) ∧
      ∀ q, .look q ∈ log → ¬ (comps path <+: comps q ∧ comps path ≠ comps q)

theorem ClearAbove.dropLast {cs : List CStr} (h : ClearAbove k sys cs) :
    ClearAbove k sys cs.dropLast := by
  intro p hp hne hdiff
  refine h p (hp.trans (List.dropLast_prefix cs)) hne fun heq => ?_
  rw [heq] at hp
  have hle := hp.length_le
  rw [List.length_dropLast] at hle
  have hlen : 0 < cs.length := List.length_pos_iff.mpr (heq ▸ hne)
  omega

variable {log : List Event} {g : CStr}

/-- Popping leads to a directory above. -/
theorem settled_pop (hg : Canonical g) (h : ClearAbove k sys (comps g)) :
    Settled k sys log (popComponent g) := by
  obtain ⟨hpop, hcomps⟩ := popComponent_canonical hg
  rcases List.eq_nil_or_concat' (comps g) with hnil | ⟨init, c, hsplit⟩
  · left
    rw [hcomps, hnil]
    rfl
  · rw [hsplit, List.dropLast_concat] at hcomps
    by_cases hinit : init = []
    · exact Or.inl (hcomps.trans hinit)
    · refine Or.inr (Or.inl ?_)
      rw [hpop.2, hcomps]
      exact h init (by rw [hsplit]; exact List.prefix_append _ _) hinit (by rw [hsplit]; simp)

/-- Going down one component keeps the directories above clear. -/
theorem clearAbove_child (hstops : GoodStops k sys log) {c : CStr} (hg : Canonical g)
    (hclear : ClearAbove k sys (comps g)) (hsettled : Settled k sys log g)
    (hlook : .look (render (comps g ++ [c])) ∈ log)
    (hread : comps (render (comps g ++ [c])) = comps g ++ [c]) :
    ClearAbove k sys (comps g ++ [c]) := by
  intro p hp hne hdiff
  have hpg : p <+: comps g := by
    rcases List.prefix_concat_iff.mp hp with heq | hpre
    · exact absurd heq hdiff
    · exact hpre
  by_cases hwhole : p = comps g
  · rw [hwhole, ← hg.2]
    rcases hsettled with hnil | hno | ⟨level, hstop⟩
    · exact absurd (hwhole.trans hnil) hne
    · exact hno
    · have hbelow := (hstops level g hstop).2.2 _ hlook
      rw [hread] at hbelow
      exact absurd ⟨List.prefix_append _ _, by simp⟩ hbelow
  · exact hclear p hpg hne hwhole

/-- What is known of the path of an invocation under way, or come to its end. -/
structure FrameClear (k : Kernel W) (sys : Sys W) (log : List Event) (f : Frame) : Prop where
  above : ClearAbove k sys (comps f.guestPath)
  settled : f.derefFinal = true ∨ f.finality.isFinal = false → Settled k sys log f.guestPath

theorem enterStage_base {userPath guestPath base : CStr} {level : Nat}
    (h : enterStage k userPath guestPath level = .ok base) : base = guestPath ∨ base = slash := by
  unfold enterStage at h
  split at h
  · cases h
  · split at h
    · cases h
    · split at h
      · split at h
        · cases h
        · cases h
          exact Or.inl rfl
      · cases h
        exact Or.inr rfl

/-- Starting on a text keeps the invariant. -/
theorem FrameClear.nested {f : Frame} {base text : CStr} (h : FrameClear k sys log f)
    (hf : f.finality.isFinal = false) (hbase : base = f.guestPath ∨ base = slash) :
    FrameClear k sys log (f.nested base text) := by
  rcases hbase with rfl | rfl
  · exact ⟨h.above, fun _ => h.settled (Or.inr hf)⟩
  · refine ⟨fun p hp hne => ?_, fun _ => Or.inl rfl⟩
    exact absurd (List.prefix_nil.mp hp) hne

/-- What a run yields: a path with nothing but directories above, possibly with
a final marker at the first level. -/
def YieldsClear (k : Kernel W) (sys : Sys W) (log : List Event) (deref : Bool) (level : Nat)
    (r : CStr) : Prop :=
  ∃ g, Canonical g ∧ (r = g ∨ level = 0 ∧ (r = withSlash g ∨ r = withDot g)) ∧
    ClearAbove k sys (comps g) ∧ (deref = true → Settled k sys log g)

theorem exitStage_cases {level : Nat} {r : CStr} (hg : Canonical g)
    (h : exitStage level finality g = .ok r) :
    r = g ∨ level = 0 ∧ (r = withSlash g ∨ r = withDot g) := by
  unfold exitStage at h
  split at h
  · rename_i hlevel
    split at h
    · rw [joinPaths_empty hg.ne_nil] at h
      exact Or.inr ⟨hlevel, Or.inl (fitJoin_ok h).1⟩
    · rw [joinPaths_relative hg.ne_nil (by simp)] at h
      exact Or.inr ⟨hlevel, Or.inr (fitJoin_ok h).1⟩
    · cases h
      exact Or.inl rfl
  · cases h
    exact Or.inl rfl

/-- One pass keeps the invariant. -/
theorem pass_clear {sys' : Sys W} (hglue : sys.tracee.glueType = none) (hlist : k.Listed sys.world)
    {f : Frame} {all : List Event} {cursor guestPath : CStr} (hg : Canonical f.guestPath)
    (htidy : f.Tidy) (hf : f.finality.isFinal = false) (hall : ∀ ev ∈ log, ev ∈ all)
    (hstops : GoodStops k sys all) (hclear : FrameClear k sys all f)
    (hp : pass k sys f.derefFinal f.guestPath f.cursor =
      (sys', log, .next finality cursor guestPath)) :
    FrameClear k sys all { f with finality, cursor, guestPath } := by
  have hspec := pass_spec hglue hp
  cases hspec with
  | here hnext => exact ⟨hclear.above, fun _ => hclear.settled (Or.inr hf)⟩
  | up hnext =>
      refine ⟨?_, fun _ => settled_pop hg hclear.above⟩
      rw [(popComponent_canonical hg).2]
      exact hclear.above.dropLast
  | @enter component cur scratch hostPath fin isLink hnext hdot hdotdot hjoin hstat hlink =>
      obtain ⟨-, hiff⟩ := substituteBindingStat_isLink hglue hlist hstat
      have hspec := nextComponent_spec f.cursor
      rw [hnext] at hspec
      have hcomponent : IsName component ∨ component = [] ∧ f.guestPath = slash := by
        cases hspec with
        | empty hnil => exact Or.inr ⟨rfl, (htidy hf).resolve_left (not_not.mpr hnil)⟩
        | last hlast _ =>
            exact Or.inl ⟨comps_words f.cursor _ (by rw [hlast]; simp), hdot, hdotdot⟩
        | more hmore _ _ _ _ =>
            exact Or.inl ⟨comps_words f.cursor _ (by rw [hmore]; simp), hdot, hdotdot⟩
      rcases hcomponent with hname | ⟨rfl, hslash⟩
      · obtain ⟨rfl, hcanon⟩ := joinPaths_child hg hname hjoin
        have hread := (canonical_child hg hname).2
        refine ⟨?_, fun hor => ?_⟩
        · show ClearAbove k sys (comps (render (comps f.guestPath ++ [component])))
          rw [hread]
          exact clearAbove_child hstops hg hclear.above (hclear.settled (Or.inr hf))
            (hall _ (by simp)) hread
        · rcases hlink with hno | ⟨rfl, hderef⟩
          · exact Or.inr (Or.inl (fun hc => by rw [hiff.mpr hc] at hno; cases hno))
          · rcases hor with hor | hor
            · exact absurd (hderef.symm.trans hor) (by simp)
            · cases hor
      · rw [hslash] at hjoin
        have hs := joinPaths_slash_empty hjoin
        subst hs
        refine ⟨fun p hp hne => ?_, fun _ => Or.inl rfl⟩
        exact absurd (List.prefix_nil.mp hp) hne

/-- **No directory above the path of a run is a link**, as long as every stop is
a good one. -/
theorem CanonRun.noLink (hk : k.Posix) {f : Frame} {out : Outcome W} (h : CanonRun k sys f out)
    (hsys : SysInv sys) (hglue : sys.tracee.glueType = none) (hlist : k.Listed sys.world)
    (hg : Canonical f.guestPath) (htidy : f.Tidy) {all : List Event}
    (hall : ∀ ev ∈ out.log, ev ∈ all) (hstops : GoodStops k sys all)
    (hclear : FrameClear k sys all f) {r : CStr} (hr : out.result = .ok r) :
    YieldsClear k sys all f.derefFinal f.level r := by
  induction h generalizing r with
  | final hf =>
      exact ⟨_, hg, exitStage_cases hg hr, hclear.above, fun hd => hclear.settled (Or.inl hd)⟩
  | fail hf hp => cases hr
  | @stop sys sys' f log path hf hp =>
      cases hr
      obtain ⟨-, hpath⟩ := pass_inv hk hsys hg (htidy hf) hp
      have hmem : (.stop f.level path : Event) ∈ all := hall _ (by simp [leave])
      exact ⟨path, hpath, Or.inl rfl, (hstops _ _ hmem).2.1, fun _ => Or.inr (Or.inr ⟨_, hmem⟩)⟩
  | next hf hp hrest ih =>
      obtain rfl := pass_static hglue hp
      obtain ⟨-, hg', hcur⟩ := pass_inv hk hsys hg (htidy hf) hp
      have hclear' := pass_clear hglue hlist hg htidy hf
        (fun ev hev => hall ev (List.mem_append_left _ hev)) hstops hclear hp
      exact ih hsys hglue hlist hg' (fun hfin => Or.inl (hcur hfin))
        (fun ev hev => hall ev (List.mem_append_right _ hev)) hstops hclear' hr
  | refused hf hp he => cases hr
  | lost hf hp he hinner hi ih => cases hr
  | same hf hp he hinner hi ih => cases hr
  | wrong hf hp he hinner hi hne hs ih => cases hr
  | @follow sys sys' sys'' f log finality cursor component text base guestPath inner out stat hf hp
      he hinner hi hne hs hrest ihinner ihrest =>
      obtain rfl := pass_static hglue hp
      obtain ⟨-, htext, hcur⟩ := pass_inv hk hsys hg (htidy hf) hp
      obtain ⟨hbase, hstart⟩ := enterStage_tidy htext hg he
      have hin : inner.sys = sys' := hinner.static hglue
      have hsame : sys'' = sys' := by
        have hstat : (substituteBindingStat k inner.sys finality guestPath).1 = inner.sys :=
          substituteBindingStat_static (hin ▸ hglue)
        rw [hs] at hstat
        exact hstat.trans hin
      subst hsame
      obtain ⟨g, hgc, hor, habove, hset⟩ := ihinner hsys hglue hlist hbase (fun _ => hstart)
        (fun ev hev => hall ev (by simp [Outcome.after, hev])) hstops
        (hclear.nested hf (enterStage_base he)) hi
      have hland : guestPath = g := by
        rcases hor with hor | ⟨hzero, -⟩
        · exact hor
        · exact absurd hzero (Frame.nested_level_ne _ _ _)
      subst hland
      exact ihrest hsys hglue hlist hgc (fun hfin => Or.inl (hcur hfin))
        (fun ev hev => hall ev (by simp [Outcome.after, hev])) hstops
        ⟨habove, fun _ => hset rfl⟩ hr

/-! ## The host path -/

variable {p : CStr}

/-- What contains a path with a final marker contains it without. -/
theorem contains_marked_iff {q : CStr} (hq : Canonical q) (hg : Canonical g)
    (hp : p = g ∨ p = withSlash g ∨ p = withDot g) :
    (comparePaths q p).contains = true ↔ comps q <+: comps g := by
  have hne : p ≠ [] := by
    rcases hp with rfl | rfl | rfl
    · exact hg.ne_nil
    · rw [hg.withSlash_eq]
      simp
    · rw [hg.withDot_eq]
      simp
  rw [comparePaths_contains_iff hq hne]
  rcases hp with rfl | rfl | rfl
  · conv_lhs => rw [hg.2]
    exact covers_render_iff '/' (comps_words _) (comps_words _)
  · rw [hg.withSlash_eq]
    exact covers_marker_iff hq.1 hg.1 (Or.inl rfl)
  · rw [hg.withDot_eq]
    exact covers_marker_iff hq.1 hg.1 (Or.inr rfl)

theorem marked_length (hp : p = g ∨ p = withSlash g ∨ p = withDot g) :
    g.length ≤ p.length := by
  rcases hp with rfl | rfl | rfl
  · exact Nat.le_refl _
  · unfold withSlash
    split <;> simp
  · unfold withDot withSlash
    split <;> simp

/-- Rerooting a path with a final marker: the words are rerooted, the marker stays. -/
theorem reroot_marked {new old : CStr} (hnew : Canonical new) (hold : Canonical old)
    (hg : Canonical g) {t : List CStr} (ht : comps g = comps old ++ t)
    (hp : p = g ∨ p = withSlash g ∨ p = withDot g) :
    reroot new old p = render (comps new ++ t) ∨
      reroot new old p = withSlash (render (comps new ++ t)) ∨
      reroot new old p = withDot (render (comps new ++ t)) := by
  have hnames := reroot_names hnew hg ht
  have hcanon := canonical_render hnames
  have hread := comps_render_names hnames
  by_cases hps : p = g
  · left
    rw [hps]
    exact reroot_render hnew hold hg ht
  · rcases hp with hp | hp | hp
    · exact absurd hp hps
    · have hne : flat '/' (comps g) ++ ['/'] ≠ slash := by
        intro hc
        have hnil : flat '/' (comps g) = [] := by simpa [slash] using hc
        have hroot : g = slash :=
          (hg.eq_iff canonical_slash).mpr ((flat_eq_nil_iff '/').mp hnil)
        rw [← hg.withSlash_eq, hroot] at hc
        exact hps (hp.trans (by rw [hroot]; exact hc))
      rw [hp, hg.withSlash_eq, reroot_marker hnew hold ht (Or.inl rfl) hne]
      right
      left
      rw [hcanon.withSlash_eq, hread]
    · have hne : flat '/' (comps g) ++ ['/', '.'] ≠ slash := by
        intro hc
        have := congrArg List.length hc
        simp [slash] at this
      rw [hp, hg.withDot_eq, reroot_marker hnew hold ht (Or.inr rfl) hne]
      right
      right
      rw [hcanon.withDot_eq, hread]

/-- A leading part of a path that fits fits. -/
theorem Binding.Fits.lead {b : Binding} {q : CStr} (h : b.Fits p) (hle : q.length ≤ p.length) :
    b.Fits q := by
  rcases h with h | h | h
  · exact Or.inl h
  · exact Or.inr (Or.inl h)
  · refine Or.inr (Or.inr ?_)
    split at h
    · rename_i hs
      rw [if_pos hs]
      omega
    · rename_i hs
      rw [if_neg hs]
      omega

/-- **The paths between a binding and a path in it** are translated by that
binding too. -/
theorem hostOf_between (hinv : ListInv sys.bindings) {b : Binding} (hg : Canonical g)
    (hp : p = g ∨ p = withSlash g ∨ p = withDot g) (hdeep : IsDeepest sys.bindings p b)
    (hfits : b.Fits p) {s t : List CStr} (ht : comps g = comps b.guest.path ++ t) (hs : s <+: t) :
    hostOf sys (render (comps b.guest.path ++ s)) = render (comps b.host.path ++ s) := by
  obtain ⟨hbg, hbh⟩ := hinv.good b hdeep.1
  have hpre : comps b.guest.path ++ s <+: comps g := by
    rw [ht]
    exact (List.prefix_append_right_inj _).mpr hs
  have hnames : ∀ c ∈ comps b.guest.path ++ s, IsName c := fun c hc => hg.1 c (hpre.subset hc)
  have hq := canonical_render hnames
  have hread := comps_render_names hnames
  set q := render (comps b.guest.path ++ s) with hqdef
  obtain ⟨b', hdeep', hsub⟩ := hinv.substitute_guest hq.head
  have hcontains : ∀ y ∈ sys.bindings.guest, (comparePaths y.guest.path q).contains = true →
      (comparePaths y.guest.path p).contains = true := by
    intro y hy hyq
    have hygood := (hinv.good y hy).1.1
    have h₁ := (contains_marked_iff hygood hq (Or.inl rfl)).mp hyq
    exact (contains_marked_iff hygood hg hp).mpr (h₁.trans (hread ▸ hpre))
  have hbq : (comparePaths b.guest.path q).contains = true :=
    (contains_marked_iff hbg.1 hq (Or.inl rfl)).mpr (by rw [hread]; exact List.prefix_append _ _)
  have hbb : b' = b := by
    rcases hdeep.2.2 b' hdeep'.1 (hcontains b' hdeep'.1 hdeep'.2.1) with h | h
    · exact h
    · rcases hdeep'.2.2 b hdeep.1 hbq with h' | h'
      · exact h'.symm
      · omega
  rw [hbb] at hsub
  have hlen : q.length ≤ p.length := by
    have h₁ := render_length_le (fun c hc => (hg.1 c hc).isWord) hpre
    rw [← hg.2] at h₁
    exact Nat.le_trans h₁ (marked_length hp)
  rw [hostOf, hsub, if_pos (hfits.lead hlen)]
  exact reroot_render hbh.1 hbg.1 hq hread

end PRoot
