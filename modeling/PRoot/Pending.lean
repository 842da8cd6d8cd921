import PRoot.MountInv

/-!
# The bindings of the user

While the options are read, `new_binding` collects bindings in the pending list,
by guest paths that are not canonical yet.

* `PendingOrdered`: a binding of "/" is the last one;
* `PendingOrdered.insort`: one more binding keeps it so;
* `newBinding_collecting`: so does `new_binding`;
* `preInitializeBindings_root`: hence `get_root` finds the root that
  `initialize_bindings` asserts.
-/

namespace PRoot

variable {W : Type} {k : Kernel W}

/-! ## Collecting the bindings -/

variable {p : CStr}

theorem strip_eq_nil (hp : p ≠ []) : strip p = [] ↔ p = slash := by
  constructor
  · intro h
    obtain ⟨tail, htail, hor⟩ := eq_strip_append p
    rw [h, List.nil_append] at htail
    rcases hor with rfl | rfl
    · exact absurd htail hp
    · exact htail
  · rintro rfl
    rfl

/-- Only "/" is equal to "/" or contains it. -/
theorem comparePaths_slash_right (hp : p ≠ []) (hne : p ≠ slash) :
    comparePaths p slash = .path2IsPrefix ∨ comparePaths p slash = .pathsAreNotComparable := by
  have hstrip : strip p ≠ [] := fun h => hne ((strip_eq_nil hp).mp h)
  have hnot : ¬ EndsInside (strip p) (strip slash) := fun h => by
    have hlt := h.length_lt
    simp [strip_slash] at hlt
  rw [comparePaths_eq hp (by simp [slash]), strip_slash, if_neg hstrip,
    if_neg (by rwa [strip_slash] at hnot)]
  split
  · exact Or.inl rfl
  · exact Or.inr rfl

theorem comparePaths_slash_iff (hp : p ≠ []) :
    comparePaths p slash = .pathsAreEqual ↔ p = slash := by
  constructor
  · intro h
    by_contra hne
    rcases comparePaths_slash_right hp hne with h' | h' <;> rw [h'] at h <;> cases h
  · rintro rfl
    decide

/-- "/" contains every absolute path. -/
theorem comparePaths_slash_left (hp : p.head? = some '/') (hne : p ≠ slash) :
    comparePaths slash p = .path1IsPrefix := by
  have hnil : p ≠ [] := by
    rintro rfl
    cases hp
  have hstrip : strip p ≠ [] := fun h => hne ((strip_eq_nil hnil).mp h)
  have hin : EndsInside [] (strip p) := by
    refine ⟨List.nil_prefix, ?_⟩
    rw [List.length_nil, ← getElem?_strip (List.length_pos_iff.mpr hstrip), ← List.head?_eq_getElem?]
    exact hp
  rw [comparePaths_eq (by simp [slash]) hnil, strip_slash, if_neg (Ne.symm hstrip), if_pos hin]

/-- The bindings collected so far: absolute guest paths, real host paths, and a
binding of "/" at the end, if there is one. -/
structure PendingOrdered (l : List Binding) : Prop where
  guest : ∀ b ∈ l, b.guest.path.head? = some '/' ∧ b.guest.length = b.guest.path.length
  host : ∀ b ∈ l, b.host.Good
  addrs : AddrsDistinct l
  root : ∀ b ∈ l, b.guest.path = slash → ∃ init, l = init ++ [b]

variable {x : Binding} {l : List Binding}

theorem insertAfter_perm {p : Binding} :
    (insertAfter p x l).Perm (x :: l) ∨ insertAfter p x l = l := by
  induction l with
  | nil => exact Or.inr rfl
  | cons b bs ih =>
      rw [insertAfter]
      split
      · exact Or.inl (List.Perm.swap x b bs)
      · rcases ih with ih | ih
        · exact Or.inl ((ih.cons b).trans (List.Perm.swap x b bs))
        · exact Or.inr (by rw [ih])

theorem insertBefore_perm {n : Binding} :
    (insertBefore n x l).Perm (x :: l) ∨ insertBefore n x l = l := by
  induction l with
  | nil => exact Or.inr rfl
  | cons b bs ih =>
      rw [insertBefore]
      split
      · exact Or.inl (List.Perm.refl _)
      · rcases ih with ih | ih
        · exact Or.inl ((ih.cons b).trans (List.Perm.swap x b bs))
        · exact Or.inr (by rw [ih])

/-- Addresses stay apart when a binding at a new address joins. -/
theorem AddrsDistinct.of_perm_or {l' : List Binding} (h : AddrsDistinct l)
    (hx : ∀ b ∈ l, b.addr ≠ x.addr) (hor : l'.Perm (x :: l) ∨ l' = l) : AddrsDistinct l' := by
  rcases hor with hperm | rfl
  · refine (hperm.map _).nodup_iff.mpr (List.nodup_cons.mpr ⟨fun hmem => ?_, h⟩)
    obtain ⟨b, hb, heq⟩ := List.mem_map.mp hmem
    exact hx b hb heq
  · exact h

variable {r : Binding}

/-- The last binding stays the last one when another one is inserted in front. -/
theorem insertAfter_last {p : Binding} (h : r.addr ≠ p.addr) (init : List Binding) :
    ∃ init', insertAfter p x (init ++ [r]) = init' ++ [r] := by
  induction init with
  | nil => exact ⟨[], by simp [insertAfter, h]⟩
  | cons b bs ih =>
      obtain ⟨init', hinit⟩ := ih
      rw [List.cons_append, insertAfter]
      split
      · exact ⟨b :: x :: bs, rfl⟩
      · exact ⟨b :: init', by rw [hinit]; rfl⟩

theorem insertBefore_last {n : Binding} (init : List Binding) :
    ∃ init', insertBefore n x (init ++ [r]) = init' ++ [r] := by
  induction init with
  | nil =>
      rw [List.nil_append, insertBefore]
      split
      · exact ⟨[x], rfl⟩
      · exact ⟨[], rfl⟩
  | cons b bs ih =>
      obtain ⟨init', hinit⟩ := ih
      rw [List.cons_append, insertBefore]
      split
      · exact ⟨x :: b :: bs, rfl⟩
      · exact ⟨b :: init', by rw [hinit]; rfl⟩

theorem unlink_last {b : Binding} (h : r.addr ≠ b.addr) (init : List Binding) :
    unlink b (init ++ [r]) = unlink b init ++ [r] := by
  rw [unlink, List.filter_append, List.filter_cons_of_pos (by simpa using h)]
  rfl

/-- Where the insertion of a binding of another path than "/" ends: not at "/". -/
theorem insortLoop_other (hx : x.guest.path ≠ []) (hlen : x.guest.length = x.guest.path.length)
    (hne : x.guest.path ≠ slash) (hl : ∀ b ∈ l, b.guest.length = b.guest.path.length) :
    ∀ (previous next : Option Binding), match insortLoop .pending x l previous next with
      | .replace iterator => iterator ∈ l ∧ iterator.guest.path ≠ slash
      | .insert p _ => p = previous ∨ ∃ b ∈ l, p = some b ∧ b.guest.path ≠ slash := by
  induction l with
  | nil => exact fun previous next => Or.inl rfl
  | cons b bs ih =>
      intro previous next
      have ih := ih fun y hy => hl y (List.mem_cons_of_mem _ hy)
      have hb : comparePaths2 (x.ref .pending).path (x.ref .pending).length (b.ref .pending).path
          (b.ref .pending).length = comparePaths x.guest.path b.guest.path := by
        show comparePaths2 x.guest.path x.guest.length b.guest.path b.guest.length = _
        rw [hlen, hl b List.mem_cons_self]
        rfl
      have hslash : b.guest.path = slash → comparePaths x.guest.path b.guest.path = .path2IsPrefix ∨
          comparePaths x.guest.path b.guest.path = .pathsAreNotComparable := fun hs => by
        rw [hs]
        exact comparePaths_slash_right hx hne
      have hrest : ∀ previous' next',
          (previous' = previous ∨ (previous' = some b ∧ b.guest.path ≠ slash)) →
          match insortLoop .pending x bs previous' next' with
          | .replace iterator => iterator ∈ b :: bs ∧ iterator.guest.path ≠ slash
          | .insert p _ => p = previous ∨ ∃ y ∈ b :: bs, p = some y ∧ y.guest.path ≠ slash := by
        intro previous' next' hprev
        have h := ih previous' next'
        split at h
        · exact ⟨List.mem_cons_of_mem _ h.1, h.2⟩
        · rcases h with rfl | ⟨y, hy, hp, hys⟩
          · exact hprev.imp_right fun hp => ⟨b, List.mem_cons_self, hp⟩
          · exact Or.inr ⟨y, List.mem_cons_of_mem _ hy, hp, hys⟩
      rw [insortLoop, hb]
      cases hcmp : comparePaths x.guest.path b.guest.path with
      | pathsAreEqual =>
          refine ⟨List.mem_cons_self, fun hs => ?_⟩
          rcases hslash hs with h | h <;> rw [h] at hcmp <;> cases hcmp
      | path1IsPrefix =>
          refine hrest _ _ (Or.inr ⟨rfl, fun hs => ?_⟩)
          rcases hslash hs with h | h <;> rw [h] at hcmp <;> cases hcmp
      | path2IsPrefix => exact hrest _ _ (Or.inl rfl)
      | pathsAreNotComparable => exact hrest _ _ (Or.inl rfl)

/-- Where the insertion of a binding of "/" ends: at the one there is, or behind
all others. -/
theorem insortLoop_root (hlen : x.guest.length = x.guest.path.length) (hx : x.guest.path = slash)
    (hl : ∀ b ∈ l, b.guest.path.head? = some '/' ∧ b.guest.length = b.guest.path.length) :
    ∀ (previous next : Option Binding), match insortLoop .pending x l previous next with
      | .replace iterator => iterator ∈ l ∧ iterator.guest.path = slash
      | .insert p _ => (∀ b ∈ l, b.guest.path ≠ slash) ∧ p = l.getLast?.or previous := by
  induction l with
  | nil => exact fun previous next => ⟨by simp, rfl⟩
  | cons b bs ih =>
      intro previous next
      have ih := ih fun y hy => hl y (List.mem_cons_of_mem _ hy)
      obtain ⟨hhead, hblen⟩ := hl b List.mem_cons_self
      have hb : comparePaths2 (x.ref .pending).path (x.ref .pending).length (b.ref .pending).path
          (b.ref .pending).length = comparePaths slash b.guest.path := by
        show comparePaths2 x.guest.path x.guest.length b.guest.path b.guest.length = _
        rw [hlen, hblen, hx]
        rfl
      rw [insortLoop, hb]
      by_cases hs : b.guest.path = slash
      · have hcmp : comparePaths slash b.guest.path = .pathsAreEqual := by
          rw [hs]
          decide
        rw [hcmp]
        exact ⟨List.mem_cons_self, hs⟩
      · rw [comparePaths_slash_left hhead hs]
        have h := ih (some b) next
        simp only
        split at h
        · exact ⟨List.mem_cons_of_mem _ h.1, h.2⟩
        · obtain ⟨hno, rfl⟩ := h
          refine ⟨fun y hy => ?_, ?_⟩
          · rcases List.mem_cons.mp hy with rfl | hy
            · exact hs
            · exact hno y hy
          · rw [List.getLast?_cons]
            cases bs.getLast? <;> rfl

variable {bindings : Bindings}

/-- A binding of "/" is put at the end, and is the only one. -/
theorem PendingOrdered.insort_slash (h : PendingOrdered bindings.pending)
    (hx : x.guest.path = slash) (hlen : x.guest.length = x.guest.path.length)
    (hfresh : ∀ b ∈ bindings.pending, b.addr ≠ x.addr) :
    ∃ init, (insortBinding bindings .pending x).pending = init ++ [x] ∧
      ∀ y ∈ init, y.guest.path ≠ slash := by
  have hloop := insortLoop_root hlen hx h.guest none bindings.pending.head?
  unfold insortBinding
  simp only [Bindings.head]
  split at hloop
  · rename_i iterator heq
    rw [heq]
    obtain ⟨hit, hslash⟩ := hloop
    obtain ⟨init, hinit⟩ := h.root iterator hit hslash
    have hsplit : insertAfter iterator x bindings.pending = init ++ [iterator] ++ [x] := by
      have hd := h.addrs
      rw [hinit] at hd ⊢
      rw [insertAfter_split hd]
      simp
    refine ⟨unlink iterator bindings.pending, ?_, fun y hy hys => ?_⟩
    · show unlink iterator (insertAfter iterator x bindings.pending) = _
      rw [hsplit, unlink_last (Ne.symm (hfresh iterator hit)), ← hinit]
    · obtain ⟨hy, hne⟩ := (mem_unlink_iff h.addrs hit).mp hy
      obtain ⟨init', hinit'⟩ := h.root y hy hys
      have hlast := congrArg List.getLast? (hinit'.symm.trans hinit)
      rw [List.getLast?_concat, List.getLast?_concat] at hlast
      exact hne (Option.some.inj hlast)
  · rename_i p n heq
    rw [heq]
    obtain ⟨hno, hp⟩ := hloop
    rw [Option.or_none] at hp
    refine ⟨bindings.pending, ?_, hno⟩
    cases hlist : bindings.pending.getLast? with
    | none =>
        have hnil : bindings.pending = [] := List.getLast?_eq_none_iff.mp hlist
        rw [hlist] at hp
        rw [hnil] at heq
        cases heq
        show x :: bindings.pending = _
        rw [hnil]
        rfl
    | some b =>
        obtain ⟨init, hinit⟩ := List.getLast?_eq_some_iff.mp hlist
        rw [hlist] at hp
        rw [hp]
        show insertAfter b x bindings.pending = _
        have hd := h.addrs
        rw [hinit] at hd ⊢
        rw [insertAfter_split hd]
        simp

/-- A binding of another path is put in front of that of "/". -/
theorem PendingOrdered.insort_other (h : PendingOrdered bindings.pending)
    (hguest : x.guest.path ≠ []) (hx : x.guest.path ≠ slash)
    (hlen : x.guest.length = x.guest.path.length) (hr : r ∈ bindings.pending)
    (hrs : r.guest.path = slash) :
    ∃ init, (insortBinding bindings .pending x).pending = init ++ [r] := by
  obtain ⟨init, hinit⟩ := h.root r hr hrs
  have hother : ∀ b ∈ bindings.pending, b.guest.path ≠ slash → r.addr ≠ b.addr := by
    intro b hb hbs haddr
    exact hbs (by rw [← h.addrs.inj hr hb haddr, hrs])
  have hloop := insortLoop_other hguest hlen hx (fun b hb => (h.guest b hb).2) none
    bindings.pending.head?
  unfold insortBinding
  simp only [Bindings.head]
  split at hloop
  · rename_i iterator heq
    rw [heq]
    have hne := hother iterator hloop.1 hloop.2
    obtain ⟨init', hinit'⟩ := insertAfter_last (x := x) hne init
    refine ⟨unlink iterator init', ?_⟩
    show unlink iterator (insertAfter iterator x bindings.pending) = _
    rw [hinit, hinit', unlink_last hne]
  · rename_i p n heq
    rw [heq]
    cases p with
    | none =>
        cases n with
        | none => exact ⟨x :: init, by show x :: bindings.pending = _; rw [hinit]; rfl⟩
        | some next =>
            obtain ⟨init', hinit'⟩ := insertBefore_last (n := next) (x := x) (r := r) init
            refine ⟨init', ?_⟩
            show insertBefore next x bindings.pending = _
            rw [hinit, hinit']
    | some previous =>
        rcases hloop with hp | ⟨b, hb, hp, hbs⟩
        · cases hp
        · obtain rfl := Option.some.inj hp
          obtain ⟨init', hinit'⟩ := insertAfter_last (x := x) (hother previous hb hbs) init
          refine ⟨init', ?_⟩
          show insertAfter previous x bindings.pending = _
          rw [hinit, hinit']

/-- **Collecting one more binding** keeps "/" at the end. -/
theorem PendingOrdered.insort (h : PendingOrdered bindings.pending)
    (hguest : x.guest.path.head? = some '/') (hlen : x.guest.length = x.guest.path.length)
    (hhost : x.host.Good) (hfresh : ∀ b ∈ bindings.pending, b.addr ≠ x.addr) :
    PendingOrdered (insortBinding bindings .pending x).pending where
  guest b hb := by
    rcases mem_insortBinding .pending hb with rfl | hb
    · exact ⟨hguest, hlen⟩
    · exact h.guest b hb
  host b hb := by
    rcases mem_insortBinding .pending hb with rfl | hb
    · exact hhost
    · exact h.host b hb
  addrs := by
    unfold insortBinding
    simp only
    split
    · exact ((unlink_sublist _ _).map _).nodup (h.addrs.of_perm_or hfresh insertAfter_perm)
    · exact h.addrs.of_perm_or hfresh insertAfter_perm
    · exact h.addrs.of_perm_or hfresh insertBefore_perm
    · exact h.addrs.of_perm_or hfresh (Or.inl (List.Perm.refl _))
  root b hb hbs := by
    by_cases hx : x.guest.path = slash
    · obtain ⟨init, hinit, hno⟩ := h.insort_slash hx hlen hfresh
      rw [hinit] at hb
      rcases List.mem_append.mp hb with hb | hb
      · exact absurd hbs (hno b hb)
      · exact ⟨init, List.mem_singleton.mp hb ▸ hinit⟩
    · rcases mem_insortBinding .pending hb with rfl | hold
      · exact absurd hbs hx
      · have hnil : x.guest.path ≠ [] := by
          intro hnil
          rw [hnil] at hguest
          cases hguest
        exact h.insort_other hnil hx hlen hold hbs

/-! ## Reading the options -/

/-- The state while options are read: the tracee is alone, its lists are empty
but for the pending one. -/
structure Collecting (sys : Sys W) : Prop where
  alone : sys.others = []
  empty : sys.bindings.guest = [] ∧ sys.bindings.host = []
  pending : PendingOrdered sys.bindings.pending
  fresh : ∀ b ∈ sys.bindings.pending, b.addr < sys.nextAddr
  cwd : Canonical sys.cwd
  exe : sys.tracee.exe ≠ []
  glue : ∀ glue, sys.tracee.glue = some glue → Canonical glue

/-- What a successful `new_binding` has put into the pending list. -/
theorem newBinding_cases (hk : k.Posix) (sys : Sys W) (host : CStr) (guest : Option CStr) :
    newBinding k sys host guest = (sys, false) ∨
    ∃ x : Binding, x.addr = sys.nextAddr ∧ x.guest.path.head? = some '/' ∧
      x.guest.length = x.guest.path.length ∧ x.host.Good ∧
      (guest = some slash → x.guest.path = slash) ∧
      newBinding k sys host guest =
        ({ sys.setBindings (insortBinding sys.bindings .pending x) with
            nextAddr := sys.nextAddr + 1 }, true) := by
  unfold newBinding
  cases hreal : k.realpath sys.world host with
  | error e => exact Or.inl rfl
  | ok hostPath =>
      simp only
      cases hbase : (if (guest.getD host).head? = some '/' then .ok slash
          else k.getcwd sys.world : Except Errno CStr) with
      | error e => exact Or.inl rfl
      | ok base =>
          simp only [bind, Except.bind]
          cases hjoin : joinPaths [base, guest.getD host] with
          | error e => exact Or.inl rfl
          | ok guestPath =>
              have hhead : base.head? = some '/' := by
                split at hbase
                · obtain rfl := Except.ok.inj hbase
                  rfl
                · exact hk.getcwd_absolute _ _ hbase
              refine Or.inr ⟨⟨sys.nextAddr, .ofCStr hostPath, .ofCStr guestPath, false⟩, rfl,
                joinPaths_head hhead hjoin, rfl,
                Path.good_ofCStr (hk.realpath_canonical _ _ _ hreal), ?_, rfl⟩
              rintro rfl
              have hslash : base = slash := by
                rw [Option.getD_some, if_pos (show slash.head? = some '/' from rfl)] at hbase
                exact (Except.ok.inj hbase).symm
              rw [Option.getD_some, hslash] at hjoin
              have hroot : joinPaths [slash, slash] = .ok slash := by decide
              exact Except.ok.inj (hjoin.symm.trans hroot)

/-- `new_binding` keeps the pending list in order. -/
theorem newBinding_collecting (hk : k.Posix) {sys : Sys W} (h : Collecting sys) (host : CStr)
    (guest : Option CStr) : Collecting (newBinding k sys host guest).1 := by
  rcases newBinding_cases hk sys host guest with
    heq | ⟨x, hx, hhead, hlen, hhost, -, heq⟩
  · rw [heq]
    exact h
  · have hfresh : ∀ b ∈ sys.bindings.pending, b.addr ≠ x.addr := fun b hb => by
      rw [hx]
      exact Nat.ne_of_lt (h.fresh b hb)
    have hbindings : (newBinding k sys host guest).1.bindings =
        insortBinding sys.bindings .pending x := by
      rw [heq]
      exact Sys.setBindings_bindings sys _
    have hsame : ∀ side, side ≠ .pending → sys.bindings.head side = [] →
        (insortBinding sys.bindings .pending x).head side = [] := by
      intro side hside hnil
      unfold insortBinding
      simp only
      split <;> cases side <;> simp_all [Bindings.head, Bindings.modify, removeBindingFromAllLists,
        unlink]
    refine ⟨by rw [heq]; exact h.alone, ?_, ?_, fun b hb => ?_, by rw [heq]; exact h.cwd,
      by rw [heq]; exact h.exe, by rw [heq]; exact h.glue⟩
    · rw [hbindings]
      exact ⟨hsame .guest (by simp) h.empty.1, hsame .host (by simp) h.empty.2⟩
    · rw [hbindings]
      exact h.pending.insort hhead hlen hhost hfresh
    · rw [hbindings] at hb
      rw [heq]
      rcases mem_insortBinding .pending hb with rfl | hb
      · rw [hx]
        exact Nat.lt_succ_self _
      · exact Nat.lt_succ_of_lt (h.fresh b hb)

theorem handleOption_r (sys : Sys W) (value : CStr) : handleOption k sys (.r value) =
    if (newBinding k sys value (some slash)).2 then some (newBinding k sys value (some slash)).1
    else none := rfl

theorem handleOption_collecting (hk : k.Posix) {sys sys' : Sys W} (h : Collecting sys)
    {option : BindOption} (hopt : handleOption k sys option = some sys') : Collecting sys' := by
  cases option with
  | r value =>
      rw [handleOption_r] at hopt
      obtain ⟨-, heq⟩ := Option.ite_none_right_eq_some.mp hopt
      obtain rfl := Option.some.inj heq
      exact newBinding_collecting hk h value (some slash)
  | b host guest =>
      obtain rfl := Option.some.inj hopt
      exact newBinding_collecting hk h host guest

/-- The options, one after the other. -/
theorem handleOptions_collecting (hk : k.Posix) {options : List BindOption} :
    ∀ {sys sys' : Sys W}, Collecting sys → options.foldlM (handleOption k) sys = some sys' →
      Collecting sys' := by
  induction options with
  | nil =>
      intro sys sys' h hfold
      obtain rfl := Option.some.inj hfold
      exact h
  | cons option rest ih =>
      intro sys sys' h hfold
      rw [List.foldlM_cons] at hfold
      obtain ⟨mid, hmid, hrest⟩ := Option.bind_eq_some_iff.mp hfold
      exact ih (handleOption_collecting hk h hmid) hrest

theorem getPendingRoot_some_iff (h : PendingOrdered bindings.pending) :
    getPendingRoot bindings ≠ none ↔
      ∃ init root, bindings.pending = init ++ [root] ∧ root.guest.path = slash := by
  unfold getPendingRoot
  constructor
  · intro hsome
    cases hlast : bindings.pending.getLast? with
    | none =>
        rw [hlast] at hsome
        exact absurd rfl hsome
    | some root =>
        obtain ⟨init, hinit⟩ := List.getLast?_eq_some_iff.mp hlast
        have hne : root.guest.path ≠ [] := by
          have hhead := (h.guest root (by rw [hinit]; simp)).1
          intro hnil
          rw [hnil] at hhead
          cases hhead
        refine ⟨init, root, hinit, (comparePaths_slash_iff hne).mp ?_⟩
        by_contra hcmp
        rw [hlast, Option.bind_some, if_pos hcmp] at hsome
        exact hsome rfl
  · rintro ⟨init, root, hinit, hroot⟩
    have hequal : comparePaths slash slash = .pathsAreEqual := by decide
    rw [hinit, List.getLast?_concat, Option.bind_some, hroot, hequal]
    simp

/-- **There is a root when the bindings are initialized**: `pre_initialize_bindings`
binds "/" unless the user has. -/
theorem preInitializeBindings_root (hk : k.Posix) {sys sys' : Sys W} (h : Collecting sys)
    (hpre : preInitializeBindings k sys = some sys') :
    Collecting sys' ∧ getPendingRoot sys'.bindings ≠ none := by
  unfold preInitializeBindings at hpre
  split at hpre
  · have hcollect := handleOption_collecting hk h hpre
    refine ⟨hcollect, (getPendingRoot_some_iff hcollect.pending).mpr ?_⟩
    rw [handleOption_r] at hpre
    rcases newBinding_cases hk sys slash (some slash) with
      heq | ⟨x, hx, -, hlen, -, hslash, heq⟩
    · rw [heq] at hpre
      cases hpre
    · rw [heq] at hpre
      obtain rfl := Option.some.inj hpre
      have hfresh : ∀ b ∈ sys.bindings.pending, b.addr ≠ x.addr := fun b hb => by
        rw [hx]
        exact Nat.ne_of_lt (h.fresh b hb)
      obtain ⟨init, hinit, -⟩ := h.pending.insort_slash (hslash rfl) hlen hfresh
      refine ⟨init, x, ?_, hslash rfl⟩
      show (sys.setBindings _).bindings.pending = _
      rw [Sys.setBindings_bindings]
      exact hinit
  · rename_i hsome
    obtain rfl := Option.some.inj hpre
    exact ⟨h, hsome⟩

end PRoot
