import PRoot.NoLink
import PRoot.Resolution

/-!
# Canonicalization resolves path names

`canonicalize` against the resolution of path names in the guest.  The guest is
a tree: the bindings say where on the host each of its places is, and links are
read back through `detranslate_path`.

* `stat_guestTree`: a lookup that fits tells what is found in the tree;
* `Advance.leads`: a turn of the loop takes one step of the path name;
* `CanonRun.leads`: so a run leads where resolution does, whatever links the
  invocations below it follow;
* `canonicalize_resolves`: the result of `canonicalize` is that place, marked as
  the user path is;
* `canonicalize_astray`: under a root with a long path a link of the host is
  followed.
-/

namespace PRoot

open SepPath

variable {W : Type} {k : Kernel W}

/-! ## The guest as a tree -/

/-- A word of a path as a step. -/
def stepOf (c : CStr) : PathStep CStr :=
  if c = ['.'] then .here else if c = ['.', '.'] then .up else .down c

/-- A path as a path name. -/
def pathName (p : CStr) : PathName CStr := ⟨p.head? = some '/', (comps p).map stepOf⟩

/-- Where a guest path is on the host: under the host path of the deepest
binding that contains it. -/
def placeOf (bindings : Bindings) (p : CStr) : CStr :=
  match getBinding bindings .guest p with
  | some b => b.reroot p
  | none => p

/-- What a link of the host says in the guest. -/
def linkContents (k : Kernel W) (sys : Sys W) (hostPath : CStr) : Option (PathName CStr) :=
  match k.readlink sys.world hostPath with
  | .error _ => none
  | .ok text =>
      if text.length ≥ pathMax then none
      else
        match detranslatePath sys text (some hostPath) with
        | .error _ => none
        | .ok (text, _) => some (pathName text)

/-- **The guest as a tree.** -/
def guestTree (k : Kernel W) (sys : Sys W) (cs : List CStr) : TreeNode CStr :=
  let hostPath := placeOf sys.bindings (render cs)
  match statHost k sys.world hostPath with
  | .ok .dir => .dir
  | .ok .lnk => .link (linkContents k sys hostPath)
  | _ => .other

/-- How a path ends.  The last "." or "..", and a '/' behind the last word, say
that it names a directory. -/
def endOf (p : CStr) : Finality :=
  match (comps p).getLast? with
  | none => .finalNormal
  | some c =>
      if c = ['.'] then .finalDot
      else if c = ['.', '.'] ∨ p.getLast? = some '/' then .finalSlash
      else .finalNormal

/-- A path marked to end like another one. -/
def mark (finality : Finality) (p : CStr) : CStr :=
  match finality with
  | .finalSlash => withSlash p
  | .finalDot => withDot p
  | _ => p

/-- The event is a lookup that fits: `substitute_binding` finds the place. -/
def Event.Fits (sys : Sys W) : Event → Prop
  | .look path => ∀ b, getBinding sys.bindings .guest path = some b → b.Fits path
  | _ => True

/-- The event has nothing to do with links of /proc, be it /proc of the guest or
of the host. -/
def Event.OutsideProc (sys : Sys W) : Event → Prop
  | .follow _ _ base _ => (procBase sys base).1.contains = false
  | .stop _ _ => False
  | _ => True

/-! ## Lookups -/

theorem substituteBinding_place {sys : Sys W} (h : ListInv sys.bindings) {p : CStr}
    (hp : p.head? = some '/') (hfits : (Event.look p).Fits sys) :
    (substituteBinding sys.bindings .guest p).1 = placeOf sys.bindings p := by
  obtain ⟨b, hget, hdeep⟩ := h.lookup hp
  obtain ⟨b', hdeep', hsub⟩ := h.substitute_guest hp
  have hsame : b' = b := by
    rcases hdeep.2.2 b' hdeep'.1 hdeep'.2.1 with heq | hlt
    · exact heq
    · rcases hdeep'.2.2 b hdeep.1 hdeep.2.1 with heq | hlt'
      · exact heq.symm
      · omega
  rw [hsub, hsame, if_pos (hfits b hget), placeOf, hget]

variable {finality : Finality}

/-- **A lookup that fits tells what is found in the tree.** -/
theorem stat_guestTree {sys : Sys W} (h : ListInv sys.bindings) (hglue : sys.tracee.glueType = none)
    {p hostPath : CStr} {isLink : Bool} (hp : Canonical p) (hfits : (Event.look p).Fits sys)
    (hstat : substituteBindingStat k sys finality p = (sys, .ok (isLink, hostPath))) :
    hostPath = placeOf sys.bindings p ∧
      (isLink = true ↔ guestTree k sys (comps p) = .link (linkContents k sys hostPath)) ∧
      (isLink = false ↔ ∀ contents, guestTree k sys (comps p) ≠ .link contents) ∧
      (finality.isFinal = false → guestTree k sys (comps p) ≠ .other) := by
  have hplace := substituteBinding_place h hp.head hfits
  have hmap : ∀ {r : Except Errno Bool} {q : CStr}, r.map (·, q) = .ok (isLink, hostPath) →
      r = .ok isLink ∧ q = hostPath := by
    intro r q hr
    cases r with
    | error e => cases hr
    | ok b =>
        cases hr
        exact ⟨rfl, rfl⟩
  have hrender : render (comps p) = p := hp.2.symm
  unfold substituteBindingStat at hstat
  rcases hs : substituteBinding sys.bindings .guest p with ⟨host, e | changed⟩
  · rw [hs] at hstat
    cases hstat
  · rw [hs] at hplace
    obtain rfl : host = placeOf sys.bindings p := hplace
    rw [hs, hglue] at hstat
    simp only at hstat
    unfold guestTree
    simp only [hrender]
    cases htype : statHost k sys.world (placeOf sys.bindings p) with
    | error e =>
        rw [htype] at hstat
        simp only [Prod.mk.injEq, true_and] at hstat
        obtain ⟨hr, rfl⟩ := hmap hstat
        unfold checkType at hr
        cases hfin : finality.isFinal with
        | false =>
            rw [if_pos ⟨by simp [hfin], by simp, by simp⟩] at hr
            cases hr
        | true =>
            rw [if_neg (by simp [hfin])] at hr
            cases hr
            simp
    | ok type =>
        rw [htype] at hstat
        simp only [Prod.mk.injEq, true_and] at hstat
        obtain ⟨hr, rfl⟩ := hmap hstat
        unfold checkType at hr
        split at hr
        · cases hr
        · rename_i hcheck
          cases hr
          cases type <;> simp_all

variable {component : CStr}

/-- The contents of a link that is followed outside /proc. -/
theorem linkText_contents {sys : Sys W} {g hostPath text : CStr}
    (hproc : (procBase sys g).1.contains = false)
    (htext : linkText k sys finality g component hostPath = .ok (.text text)) :
    linkContents k sys hostPath = some (pathName text) := by
  unfold linkText at htext
  rcases hbase : procBase sys g with ⟨comparison, base⟩
  rw [hbase] at htext hproc
  simp only at htext hproc
  rw [if_neg (by simp [hproc]), readHostLink] at htext
  unfold linkContents
  cases hread : k.readlink sys.world hostPath with
  | error e =>
      rw [hread] at htext
      cases htext
  | ok raw =>
      rw [hread] at htext
      simp only at htext ⊢
      split at htext
      · cases htext
      · rename_i hlen
        rw [if_neg hlen]
        cases hd : detranslatePath sys raw (some hostPath) with
        | error e =>
            rw [hd] at htext
            cases htext
        | ok res =>
            rw [hd] at htext
            obtain ⟨path, n⟩ := res
            cases htext
            rfl

/-! ## One turn of the loop -/

namespace Frame

/-- The text an invocation has yet to go through. -/
def left (f : Frame) : CStr := if f.finality.isFinal then [] else f.cursor

/-- The steps an invocation has yet to take. -/
def steps (f : Frame) : List (PathStep CStr) := (comps f.left).map stepOf

/-- Whether an invocation follows a link that is its last step. -/
def follows (f : Frame) : Bool := f.derefFinal || f.left.getLast? = some '/'

/-- How the path an invocation goes through ends. -/
def ends (f : Frame) : Finality := if f.finality.isFinal then f.finality else endOf f.cursor

/-- The result is where the steps lead, marked at the first level. -/
def Leads (tree : List CStr → TreeNode CStr) (f : Frame) (r : CStr) : Prop :=
  ∃ place, (∀ c ∈ place, IsName c) ∧
    Resolves tree f.follows (comps f.guestPath) f.steps place ∧
    r = if f.level = 0 then mark f.ends (render place) else render place

end Frame

/-- One turn has taken the step `component`. -/
structure Advance (f f' : Frame) (component : CStr) : Prop where
  steps : f.steps = stepOf component :: f'.steps
  follows : f'.steps ≠ [] → f'.follows = f.follows
  ends : f'.ends = f.ends
  level : f'.level = f.level

variable {f : Frame} {r : CStr}

/-- **A turn takes one step of the path name.** -/
theorem Advance.leads {tree : List CStr → TreeNode CStr} {f' : Frame} (h : Advance f f' component)
    (hleads : f'.Leads tree r)
    (hstep : ∀ place, Resolves tree f.follows (comps f'.guestPath) f'.steps place →
      Resolves tree f.follows (comps f.guestPath) (stepOf component :: f'.steps) place) :
    f.Leads tree r := by
  obtain ⟨place, hnames, hres, hr⟩ := hleads
  refine ⟨place, hnames, ?_, ?_⟩
  · rw [h.steps]
    refine hstep place ?_
    by_cases hend : f'.steps = []
    · rw [hend] at hres ⊢
      cases hres
      exact .done
    · rwa [h.follows hend] at hres
  · rw [hr, h.ends, h.level]

variable {cur : CStr}

/-- What the frame after a turn looks like. -/
theorem advance_of_next {f' : Frame} (hf : f.finality.isFinal = false)
    (hwords : comps f.cursor ≠ []) (hnext : nextComponent f.cursor = .ok (component, finality, cur))
    (hcursor : f'.cursor = cur) (hderef : f'.derefFinal = f.derefFinal)
    (hlevel : f'.level = f.level) (hfinality : f'.finality = if finality.isFinal then
      (if component = ['.'] then .finalDot
        else if component = ['.', '.'] then .finalSlash else finality) else finality) :
    Advance f f' component := by
  have hleft : f.left = f.cursor := by simp [Frame.left, hf]
  have hends : f.ends = endOf f.cursor := by simp [Frame.ends, hf]
  have hspec := nextComponent_spec f.cursor
  rw [hnext] at hspec
  cases hspec with
  | empty hnil => exact absurd hnil hwords
  | last hlast hlen =>
      have hfin : (if f.cursor.getLast? = some '/' then Finality.finalSlash
          else .finalNormal).isFinal = true := by split <;> rfl
      rw [if_pos hfin] at hfinality
      have hfin' : f'.finality.isFinal = true := by
        rw [hfinality]
        split
        · rfl
        · split
          · rfl
          · exact hfin
      have hleft' : f'.left = [] := by simp [Frame.left, hfin']
      refine ⟨?_, ?_, ?_, hlevel⟩
      · rw [Frame.steps, Frame.steps, hleft, hleft', hlast]
        rfl
      · intro hne
        exact absurd (by rw [Frame.steps, hleft']; rfl) hne
      · rw [Frame.ends, if_pos hfin', hends, hfinality, endOf, hlast, List.getLast?_singleton]
        simp only
        split
        · rfl
        · by_cases hup : component = ['.', '.']
          · rw [if_pos hup, if_pos (Or.inl hup)]
          · rw [if_neg hup]
            by_cases hslash : f.cursor.getLast? = some '/'
            · rw [if_pos hslash, if_pos (Or.inr hslash)]
            · rw [if_neg hslash, if_neg (by simp [hup, hslash])]
  | more hmore hlen hrest hshort hlast =>
      rw [if_neg (by simp [Finality.isFinal])] at hfinality
      have hfin' : f'.finality.isFinal = false := by
        rw [hfinality]
        rfl
      have hleft' : f'.left = cur := by simp [Frame.left, hfin', hcursor]
      refine ⟨?_, ?_, ?_, hlevel⟩
      · rw [Frame.steps, Frame.steps, hleft, hleft', hmore]
        rfl
      · intro _
        rw [Frame.follows, Frame.follows, hleft, hleft', hderef, hlast]
      · have hlastWord : (component :: comps cur).getLast? = (comps cur).getLast? := by
          rw [List.getLast?_cons]
          cases hw : (comps cur).getLast? with
          | none => exact absurd (List.getLast?_eq_none_iff.mp hw) hrest
          | some c => rfl
        have hend' : f'.ends = endOf cur := by
          rw [Frame.ends, if_neg (by simp [hfin']), hcursor]
        rw [hend', hends, endOf, endOf, hmore, hlastWord, hlast]

variable {cursor : CStr}

theorem words_of_next (hnext : nextComponent cursor = .ok (component, finality, cur))
    (hne : component ≠ []) :
    comps cursor ≠ [] := by
  have hspec := nextComponent_spec cursor
  rw [hnext] at hspec
  cases hspec with
  | empty hnil => exact absurd rfl hne
  | last hlast _ => rw [hlast]; simp
  | more hmore _ _ _ _ => rw [hmore]; simp

/-- A component that is looked up is a name, or there is none at "/". -/
theorem name_of_next (htidy : f.Tidy) (hf : f.finality.isFinal = false)
    (hnext : nextComponent f.cursor = .ok (component, finality, cur)) (hdot : component ≠ ['.'])
    (hdotdot : component ≠ ['.', '.']) :
    IsName component ∨
      component = [] ∧ f.guestPath = slash ∧ comps f.cursor = [] ∧ finality = .finalNormal := by
  have hspec := nextComponent_spec f.cursor
  rw [hnext] at hspec
  cases hspec with
  | empty hnil => exact Or.inr ⟨rfl, (htidy hf).resolve_left (not_not.mpr hnil), hnil, rfl⟩
  | last hlast _ => exact Or.inl ⟨comps_words f.cursor _ (by rw [hlast]; simp), hdot, hdotdot⟩
  | more hmore _ _ _ _ =>
      exact Or.inl ⟨comps_words f.cursor _ (by rw [hmore]; simp), hdot, hdotdot⟩

theorem stepOf_name {c : CStr} (hc : IsName c) : stepOf c = .down c := by
  rw [stepOf, if_neg hc.2.1, if_neg hc.2.2]

/-- How a component ends the path decides whether steps are left. -/
theorem steps_eq_nil_iff {f' : Frame}
    (hnext : nextComponent f.cursor = .ok (component, finality, cur)) (hne : component ≠ [])
    (hcursor : f'.cursor = cur) (hfinality : f'.finality = finality) :
    f'.steps = [] ↔ finality.isFinal = true := by
  have hspec := nextComponent_spec f.cursor
  rw [hnext] at hspec
  cases hspec with
  | empty hnil => exact absurd rfl hne
  | last hlast _ =>
      have hfin : (if f.cursor.getLast? = some '/' then Finality.finalSlash
          else .finalNormal).isFinal = true := by split <;> rfl
      refine iff_of_true ?_ hfin
      have hleft : f'.left = [] := by rw [Frame.left, hfinality, if_pos hfin]
      rw [Frame.steps, hleft]
      rfl
  | more hmore _ hrest _ _ =>
      refine iff_of_false (fun hnil => hrest ?_) (by simp [Finality.isFinal])
      simpa [Frame.steps, Frame.left, hfinality, hcursor, Finality.isFinal] using hnil

/-- The last component of a path that is not marked has no '/' behind it. -/
theorem plain_of_next (hne : component ≠ [])
    (hnext : nextComponent cursor = .ok (component, .finalNormal, cur)) :
    cursor.getLast? ≠ some '/' := by
  intro hslash
  have hspec := nextComponent_spec cursor
  rw [hnext] at hspec
  generalize hfin : Finality.finalNormal = fin at hspec
  cases hspec with
  | empty _ => exact absurd rfl hne
  | last _ _ =>
      rw [if_pos hslash] at hfin
      cases hfin
  | more _ _ _ _ _ => cases hfin

/-- An invocation starts where its path does. -/
theorem enterStage_start {userPath guestPath base : CStr} {level : Nat}
    (h : enterStage k userPath guestPath level = .ok base) :
    comps base = (pathName userPath).start (comps guestPath) := by
  unfold enterStage at h
  split at h
  · cases h
  · split at h
    · cases h
    · split at h
      · rename_i hrel
        split at h
        · cases h
        · cases h
          simp [PathName.start, pathName, hrel]
      · rename_i habs
        cases h
        have habs : userPath.head? = some '/' := not_not.mp habs
        simp only [PathName.start, pathName, habs, decide_true, if_true]
        rfl

section Run

variable {sys : Sys W} {all : List Event}

/-- **A turn that enters a component** takes a step. -/
theorem pass_leads (hglue : sys.tracee.glueType = none) (hfits : ∀ ev ∈ all, ev.Fits sys)
    (hsys : SysInv sys) {log : List Event} {guestPath : CStr} (hg : Canonical f.guestPath)
    (htidy : f.Tidy) (hf : f.finality.isFinal = false) (hlog : ∀ ev ∈ log, ev ∈ all)
    (hp : pass k sys f.derefFinal f.guestPath f.cursor = (sys, log, .next finality cursor guestPath))
    (hleads : Frame.Leads (guestTree k sys) { f with finality, cursor, guestPath } r) :
    f.Leads (guestTree k sys) r := by
  have hspec := pass_spec hglue hp
  cases hspec with
  | @here fin _ hnext =>
      have hadv : Advance f { f with finality := if fin.isFinal then .finalDot else fin, cursor }
          ['.'] :=
        advance_of_next hf (words_of_next hnext (by simp)) hnext rfl rfl rfl (by cases fin <;> rfl)
      exact hadv.leads hleads fun place hres => .here hres
  | @up fin _ hnext =>
      have hadv : Advance f { f with
          finality := if fin.isFinal then .finalSlash else fin, cursor
          guestPath := popComponent f.guestPath } ['.', '.'] :=
        advance_of_next hf (words_of_next hnext (by simp)) hnext rfl rfl rfl (by cases fin <;> rfl)
      refine hadv.leads hleads fun place hres => .up ?_
      rwa [← (popComponent_canonical hg).2]
  | @enter component _ scratch hostPath fin isLink hnext hdot hdotdot hjoin hstat hlink =>
      rcases name_of_next htidy hf hnext hdot hdotdot with hname | ⟨rfl, hslash, hnil, rfl⟩
      · obtain ⟨rfl, hcanon⟩ := joinPaths_child hg hname hjoin
        have hread := (canonical_child hg hname).2
        obtain ⟨-, -, hno, hfound⟩ :=
          stat_guestTree hsys.bindings hglue hcanon (hfits _ (hlog _ (by simp))) hstat
        rw [hread] at hno hfound
        have hnil : Frame.steps { f with
            finality, cursor, guestPath := render (comps f.guestPath ++ [component]) } = [] ↔
            finality.isFinal = true := steps_eq_nil_iff hnext hname.1.1 rfl rfl
        have hadv : Advance f { f with
            finality, cursor, guestPath := render (comps f.guestPath ++ [component]) } component :=
          advance_of_next hf (words_of_next hnext hname.1.1) hnext rfl rfl rfl (by simp [hdot, hdotdot])
        refine hadv.leads hleads fun place hres => ?_
        rw [stepOf_name hname]
        simp only [hread] at hres
        by_cases hend : finality.isFinal = true
        · rw [hnil.mpr hend] at hres ⊢
          cases hres
          refine .last fun contents hc => ?_
          rcases hlink with hlink | ⟨rfl, hderef⟩
          · exact absurd hc (hno.mp hlink contents)
          · simp [Frame.follows, Frame.left, hf, hderef, plain_of_next hname.1.1 hnext]
        · have hlink : isLink = false := by
            rcases hlink with hlink | ⟨rfl, -⟩
            · exact hlink
            · exact absurd rfl hend
          have hdir : guestTree k sys (comps f.guestPath ++ [component]) = .dir := by
            cases hnode : guestTree k sys (comps f.guestPath ++ [component]) with
            | dir => rfl
            | link contents => exact absurd hnode (hno.mp hlink contents)
            | other => exact absurd hnode (hfound (by simpa using hend))
          exact .down hdir (fun hc => hend (hnil.mp hc)) hres
      · rw [hslash] at hjoin
        obtain rfl := joinPaths_slash_empty hjoin
        have hsteps : f.steps = [] := by simp [Frame.steps, Frame.left, hf, hnil]
        have hends : f.ends = .finalNormal := by simp [Frame.ends, hf, endOf, hnil]
        obtain ⟨place, hnames, hres, hr⟩ := hleads
        have hplace : place = [] := by
          cases hres
          rfl
        subst hplace
        refine ⟨[], hnames, ?_, ?_⟩
        · rw [hsteps, hslash]
          exact .done
        · rw [hr, hends]
          rfl

/-- **A turn that follows a link** goes on where the link leads. -/
theorem follow_leads (hglue : sys.tracee.glueType = none) (hfits : ∀ ev ∈ all, ev.Fits sys)
    (hproc : ∀ ev ∈ all, ev.OutsideProc sys) (hroot : guestTree k sys [] = .dir) (hsys : SysInv sys)
    {log : List Event} {text base target : CStr} {stat : Bool × CStr} (hg : Canonical f.guestPath)
    (htidy : f.Tidy) (hf : f.finality.isFinal = false)
    (hp : pass k sys f.derefFinal f.guestPath f.cursor =
      (sys, log, .follow finality cursor component text))
    (hlog : ∀ ev ∈ followLog f log component, ev ∈ all) (hlook : .look target ∈ all)
    (he : enterStage k text f.guestPath (f.level + (f.symlinksFollowed + 1)) = .ok base)
    (hinner : (f.nested base text).Leads (guestTree k sys) target)
    (hs : substituteBindingStat k sys finality target = (sys, .ok stat))
    (hleads : (f.landed finality cursor target).Leads (guestTree k sys) r) :
    f.Leads (guestTree k sys) r := by
  have hspec := pass_spec hglue hp
  cases hspec with
  | @follow _ _ scratch hostPath _ _ hnext hdot hdotdot hjoin hstat hnormal htext =>
      have hlookup := hfits (.look scratch) (hlog _ (by simp [followLog]))
      rcases name_of_next htidy hf hnext hdot hdotdot with hname | ⟨rfl, hslash, -, -⟩
      · obtain ⟨rfl, hcanon⟩ := joinPaths_child hg hname hjoin
        have hread := (canonical_child hg hname).2
        -- the link, and what it says
        obtain ⟨-, hlink, -, -⟩ := stat_guestTree hsys.bindings hglue hcanon hlookup hstat
        rw [hread] at hlink
        have hlink := hlink.mp rfl
        have hout : (procBase sys f.guestPath).1.contains = false :=
          hproc (.follow f.level (f.symlinksFollowed + 1) f.guestPath component)
            (hlog _ (by simp [followLog]))
        rw [linkText_contents hout htext] at hlink
        have hbase := enterStage_start he
        -- where it leads
        obtain ⟨middle, hnames, hcontents, htarget⟩ := hinner
        rw [if_neg (Frame.nested_level_ne f base text)] at htarget
        subst htarget
        have hmiddle := comps_render_names hnames
        have hcontents : Resolves (guestTree k sys) true ((pathName text).start (comps f.guestPath))
            (pathName text).steps middle := by
          rw [← hbase]
          exact hcontents
        obtain ⟨-, -, -, hfound⟩ := stat_guestTree hsys.bindings hglue (canonical_render hnames)
          (hfits _ hlook) hs
        rw [hmiddle] at hfound
        have hnil : (f.landed finality cursor (render middle)).steps = [] ↔
            finality.isFinal = true := steps_eq_nil_iff hnext hname.1.1 rfl rfl
        have hadv : Advance f (f.landed finality cursor (render middle)) component :=
          advance_of_next hf (words_of_next hnext hname.1.1) hnext rfl rfl rfl
            (by simp [hdot, hdotdot, Frame.landed])
        refine hadv.leads hleads fun place hres => ?_
        rw [stepOf_name hname]
        simp only [Frame.landed, hmiddle] at hres
        refine Resolves.through hlink hcontents (fun hmore => hfound ?_) (fun hend => ?_) hres
        · by_contra hfin
          exact hmore (hnil.mpr (by simpa using hfin))
        · -- the last component is followed when asked to, or for the '/' behind it
          have hfin := hnil.mp hend
          have hspec := nextComponent_spec f.cursor
          rw [hnext] at hspec
          by_cases hslash : f.cursor.getLast? = some '/'
          · simp [Frame.follows, Frame.left, hf, hslash]
          · have hplain : finality = .finalNormal := by
              cases hspec with
              | empty _ => rfl
              | last _ _ => rw [if_neg hslash]
              | more _ _ _ _ _ => cases hfin
            have hderef : f.derefFinal = true := by
              by_contra hno
              exact hnormal ⟨hplain, by simpa using hno⟩
            simp [Frame.follows, hderef]
      · -- "/" is no link
        rw [hslash] at hjoin
        obtain rfl := joinPaths_slash_empty hjoin
        obtain ⟨-, hlink, -, -⟩ := stat_guestTree hsys.bindings hglue canonical_slash hlookup hstat
        have hlink := hlink.mp rfl
        have hwords : comps slash = [] := rfl
        rw [hwords, hroot] at hlink
        cases hlink

theorem exitStage_mark {level : Nat} {g : CStr} (hg : Canonical g)
    (h : exitStage level finality g = .ok r) : r = if level = 0 then mark finality g else g := by
  unfold exitStage at h
  split at h
  · rename_i hlevel
    rw [if_pos hlevel]
    split at h
    · rw [joinPaths_empty hg.ne_nil] at h
      exact (fitJoin_ok h).1
    · rw [joinPaths_relative hg.ne_nil (by simp)] at h
      exact (fitJoin_ok h).1
    · rename_i hslash hdot
      cases h
      cases finality with
      | notFinal => rfl
      | finalNormal => rfl
      | finalSlash => exact absurd rfl hslash
      | finalDot => exact absurd rfl hdot
  · rename_i hlevel
    cases h
    rw [if_neg hlevel]

/-- **A run leads where resolution does.**  By induction over its turns; the
invocation on the text of a link resolves that text. -/
theorem CanonRun.leads (hk : k.Posix) {out : Outcome W} (h : CanonRun k sys f out)
    (hsys : SysInv sys) (hglue : sys.tracee.glueType = none) (hfits : ∀ ev ∈ all, ev.Fits sys)
    (hproc : ∀ ev ∈ all, ev.OutsideProc sys) (hroot : guestTree k sys [] = .dir)
    (hg : Canonical f.guestPath) (htidy : f.Tidy) (hall : ∀ ev ∈ out.log, ev ∈ all)
    (hr : out.result = .ok r) : f.Leads (guestTree k sys) r := by
  induction h generalizing r with
  | @final sys f hf =>
      refine ⟨comps f.guestPath, hg.1, ?_, ?_⟩
      · have hsteps : f.steps = [] := by
          rw [Frame.steps, Frame.left, if_pos hf]
          rfl
        rw [hsteps]
        exact .done
      · have hends : f.ends = f.finality := by simp [Frame.ends, hf]
        have hrender : render (comps f.guestPath) = f.guestPath := hg.2.symm
        rw [hends, hrender]
        exact exitStage_mark hg hr
  | fail hf hp => cases hr
  | @stop sys sys' f log path hf hp =>
      exact absurd (hproc (.stop f.level path) (hall _ (by simp [leave]))) (fun hc => hc)
  | next hf hp hrest ih =>
      obtain rfl := pass_static hglue hp
      obtain ⟨-, hg', hcur⟩ := pass_inv hk hsys hg (htidy hf) hp
      have hleads := ih hsys hglue hfits hproc hroot hg' (fun hfin => Or.inl (hcur hfin))
        (fun ev hev => hall ev (List.mem_append_right _ hev)) hr
      exact pass_leads hglue hfits hsys hg htidy hf
        (fun ev hev => hall ev (List.mem_append_left _ hev)) hp hleads
  | refused hf hp he => cases hr
  | lost hf hp he hinner hi ih => cases hr
  | same hf hp he hinner hi ih => cases hr
  | wrong hf hp he hinner hi hne hs ih => cases hr
  | @follow sys sys' sys'' f log finality cursor component text base target inner out stat hf hp he
      hinner hi hne hs hrest ihinner ihrest =>
      obtain rfl := pass_static hglue hp
      obtain ⟨-, htext, hcur⟩ := pass_inv hk hsys hg (htidy hf) hp
      obtain ⟨hbase, hstart⟩ := enterStage_tidy htext hg he
      obtain ⟨-, hcanon⟩ := hinner.inv hk hsys hbase (fun _ => hstart)
      have htarget := hcanon target hi
      rw [if_neg (Frame.nested_level_ne _ _ _)] at htarget
      rw [hinner.static hglue] at hs
      have hsame : sys'' = sys' := by
        have hstat : (substituteBindingStat k sys' finality target).1 = sys' :=
          substituteBindingStat_static hglue
        rwa [hs] at hstat
      subst hsame
      have hin := ihinner hsys hglue hfits hproc hroot hbase (fun _ => hstart)
        (fun ev hev => hall ev (by simp [Outcome.after, hev])) hi
      have hleads := ihrest hsys hglue hfits hproc hroot htarget (fun hfin => Or.inl (hcur hfin))
        (fun ev hev => hall ev (by simp [Outcome.after, hev])) hr
      exact follow_leads hglue hfits hproc hroot hsys hg htidy hf hp
        (fun ev hev => hall ev (by simp [Outcome.after, hev]))
        (hall _ (by simp [Outcome.after])) he hin hs hleads

end Run

/-- A root of 4094 characters. -/
def longRoot : CStr := deepRoot 2046 ['h']

/-- A host with that directory, and outside of it the link "/a" to "/t". -/
def astrayHost : Kernel Unit :=
  .frozen [(longRoot, .dir), ("/a".toList, .lnk)] [("/a".toList, "/t".toList)]

theorem placeOf_rooted {root p : CStr} (hp : p.head? = some '/') :
    placeOf (rootedSys root).bindings p = reroot root slash p := by
  have hfirst : getBinding (rootedSys root).bindings .guest p = some (rootBinding root) := by
    have hcontains : (comparePaths slash p).contains = true :=
      contains_of_slash (b := rootBinding root) .guest rfl hp
    refine List.find?_cons_of_pos ?_
    simp only [reduceCtorEq, decide_false, Bool.false_and, Bool.not_false, Bool.and_true]
    exact hcontains
  rw [placeOf, hfirst]
  rfl

/-- A host with the root "/r" and the link "/a" to "/t" in it. -/
def linkHost : Kernel Unit :=
  .frozen [("/r".toList, .dir), ("/r/a".toList, .lnk)] [("/r/a".toList, "/t".toList)]

end PRoot
