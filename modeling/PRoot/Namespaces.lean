import PRoot.Frame

/-!
# Name spaces of tracees

The part of `new_child` of `tracee/tracee.c` that gives a child its file-system
name space, and tracees that take turns.

* `copyLists`: the lists of a child created with `CLONE_NEWNS`;
* `Op.run_confined`: an operation changes the lists of its own tracee at most;
* `Turns.isolated`: hence, whatever other tracees do, the bindings of a tracee
  whose lists they do not share stay the same.
-/

namespace PRoot

variable {W : Type} {k : Kernel W}

/-- The loop of `new_child` that copies bindings, from the address `addr` on:
it walks the guest list of the parent. -/
def copyLists (addr : Nat) (bindings : List Binding) : Bindings :=
  (bindings.foldl (fun (lists, addr) iter =>
    (insortBinding3 lists addr iter.host.path iter.guest.path, addr + 1)) (⟨[], [], []⟩, addr)).1

/-- `new_child`, as far as the name space is concerned: the tracee at hand has
created the tracee `pid`.  `cloneFs` is the flag `CLONE_FS`, `strippedNewns` is
`clone_stripped_newns`.  The name space of the child is put at the next address,
its own lists behind it. -/
def newChild (sys : Sys W) (pid : Int) (cloneFs strippedNewns : Bool) : Sys W :=
  let parent := sys.tracee
  if cloneFs then
    { sys with others := { parent with pid, glueType := none } :: sys.others }
  else
    let fs := sys.nextAddr
    let lists := if strippedNewns then fs + 1 else (sys.fsOf parent).bindings
    { sys with
      others := { parent with pid, fs, glueType := none } :: sys.others
      spaces := fun addr => if addr = fs then ⟨lists, sys.cwd⟩ else sys.spaces addr
      lists := fun addr =>
        if strippedNewns ∧ addr = fs + 1 then copyLists (fs + 2) sys.bindings.guest
        else sys.lists addr
      nextAddr := fs + 2 + sys.bindings.guest.length }

/-- The tracee `pid` has its turn. -/
def Sys.resume (sys : Sys W) (pid : Int) : Option (Sys W) :=
  if sys.tracee.pid = pid then some sys
  else
    (sys.others.find? (·.pid = pid)).map fun tracee =>
      { sys with tracee, others := sys.tracee :: sys.others.filter (·.pid ≠ pid) }

/-- The address of the lists of a tracee. -/
def Sys.listsOf (sys : Sys W) (pid : Int) : Option Nat :=
  (sys.getTracee pid).map fun tracee => (sys.fsOf tracee).bindings

/-- The lists of a tracee. -/
def Sys.bindingsFor (sys : Sys W) (pid : Int) : Option Bindings := (sys.listsOf pid).map sys.lists

/-- Tracees take turns: in each one of the tracees `who` makes a mount, an
unmount or any other operation. -/
inductive Turns (k : Kernel W) (who : Int → Prop) (start : Sys W) : Sys W → Prop
  | start : Turns k who start start
  | turn {fuel : Nat} {sys ready sys' : Sys W} {pid : Int} {op : Op W}
      (hturns : Turns k who start sys) (hwho : who pid) (hresume : sys.resume pid = some ready)
      (hstep : op.run k fuel ready = some sys') : Turns k who start sys'

/-- Process numbers tell tracees apart. -/
def PidsDistinct (sys : Sys W) : Prop := ((sys.tracee :: sys.others).map Tracee.pid).Nodup

/-! ## What operations leave alone -/

/-- Further changes of a tracee's own lists change no others. -/
theorem Confined.kept (sys : Sys W) : Kept (Confined sys) where
  world _ h := ⟨h.others, h.pid, h.fs, h.ids, h.lists⟩
  glue _ h := ⟨h.others, h.pid, h.fs, h.ids, h.lists⟩
  insort _ _ h := h.trans (Confined.setBindings _ _ _)
  remove _ h := h.trans (Confined.setBindings _ _ _)
  chdir cwd h := by
    refine h.trans ⟨rfl, rfl, rfl, fun addr => ?_, fun _ _ => rfl⟩
    show (if addr = _ then { Sys.spaces _ addr with cwd } else Sys.spaces _ addr).bindings = _
    split <;> rfl

/-- **An operation changes the lists of its own tracee at most.** -/
theorem Op.run_confined {fuel : Nat} {sys sys' : Sys W} {op : Op W}
    (h : op.run k fuel sys = some sys') : Confined sys sys' :=
  (Confined.kept sys).opRun (Confined.refl sys) h

/-! ## Turns -/

theorem Sys.getTracee_self (sys : Sys W) : sys.getTracee sys.tracee.pid = some sys.tracee :=
  if_pos rfl

/-- A confined change keeps every tracee where it was. -/
theorem Confined.listsOf {sys sys' : Sys W} (h : Confined sys sys') (pid : Int) :
    sys'.listsOf pid = sys.listsOf pid := by
  unfold Sys.listsOf Sys.getTracee
  rw [h.pid, h.others]
  split
  · exact congrArg some h.own
  · cases sys.others.find? (·.pid = pid) with
    | none => rfl
    | some tracee => exact congrArg some (h.ids tracee.fs)

theorem Confined.pidsDistinct {sys sys' : Sys W} (h : Confined sys sys') (hpids : PidsDistinct sys) :
    PidsDistinct sys' := by
  unfold PidsDistinct at hpids ⊢
  rw [List.map_cons] at hpids ⊢
  rwa [h.pid, h.others]

/-- Having a turn moves no tracee either. -/
theorem resume_listsOf {sys ready : Sys W} {turn : Int} (hpids : PidsDistinct sys)
    (h : sys.resume turn = some ready) :
    ready.tracee.pid = turn ∧ PidsDistinct ready ∧ ready.lists = sys.lists ∧
      ∀ pid, ready.listsOf pid = sys.listsOf pid := by
  unfold Sys.resume at h
  split at h
  · rename_i heq
    obtain rfl := Option.some.inj h
    exact ⟨heq, hpids, rfl, fun _ => rfl⟩
  · rename_i hne
    obtain ⟨tracee, hfind, rfl⟩ := Option.map_eq_some_iff.mp h
    have hturn : tracee.pid = turn := by simpa using List.find?_some hfind
    obtain ⟨hnot, hothers⟩ := List.nodup_cons.mp hpids
    refine ⟨hturn, ?_, rfl, fun pid => ?_⟩
    · have hsub : (sys.others.filter (·.pid ≠ turn)).Sublist sys.others := List.filter_sublist
      refine List.nodup_cons.mpr ⟨fun hmem => ?_, List.nodup_cons.mpr
        ⟨fun hmem => hnot ((hsub.map _).subset hmem), (hsub.map _).nodup hothers⟩⟩
      rcases List.mem_cons.mp hmem with heq | hmem
      · exact hne (heq.symm.trans hturn)
      · obtain ⟨other, hother, heq⟩ := List.mem_map.mp hmem
        have hdiff : other.pid ≠ turn := by simpa using (List.mem_filter.mp hother).2
        exact hdiff (heq.trans hturn)
    · unfold Sys.listsOf Sys.getTracee
      simp only
      by_cases hp : pid = turn
      · subst hp
        rw [if_pos hturn, if_neg hne, hfind]
        rfl
      · rw [if_neg (fun heq => hp (heq.symm.trans hturn))]
        by_cases hself : sys.tracee.pid = pid
        · rw [if_pos hself, List.find?_cons_of_pos (by simpa using hself)]
          rfl
        · rw [if_neg hself, List.find?_cons_of_neg (by simpa using hself), List.find?_filter]
          have hcongr : ∀ t ∈ sys.others,
              decide (decide (t.pid ≠ turn) = true ∧ decide (t.pid = pid) = true) =
                decide (t.pid = pid) := by
            intro t _
            by_cases ht : t.pid = pid
            · simp [ht, hp]
            · simp [ht]
          rw [List.find?_congr hcongr]
          rfl

/-- One turn of another tracee. -/
theorem turn_isolated {fuel : Nat} {sys ready sys' : Sys W} {turn : Int} {op : Op W}
    (hpids : PidsDistinct sys) (hresume : sys.resume turn = some ready)
    (hstep : op.run k fuel ready = some sys') :
    PidsDistinct sys' ∧ ∀ pid, sys'.listsOf pid = sys.listsOf pid ∧
      (sys.listsOf pid ≠ sys.listsOf turn → sys'.bindingsFor pid = sys.bindingsFor pid) := by
  obtain ⟨hturn, hready, hlists, hsame⟩ := resume_listsOf hpids hresume
  have hconf := Op.run_confined hstep
  have hids : ∀ pid, sys'.listsOf pid = sys.listsOf pid := fun pid =>
    (hconf.listsOf pid).trans (hsame pid)
  refine ⟨hconf.pidsDistinct hready, fun pid => ⟨hids pid, fun hne => ?_⟩⟩
  unfold Sys.bindingsFor
  rw [hids]
  cases haddr : sys.listsOf pid with
  | none => rfl
  | some addr =>
      -- the lists at hand are those of the tracee whose turn it is
      have hown : sys.listsOf turn = some (ready.fsOf ready.tracee).bindings := by
        rw [← hsame, ← hturn, Sys.listsOf, Sys.getTracee_self]
        rfl
      refine congrArg some ((hconf.lists addr fun heq => hne ?_).trans (congrFun hlists addr))
      rw [haddr, hown, heq]

/-- Turns move no tracee. -/
theorem Turns.keeps {who : Int → Prop} {start sys : Sys W} (h : Turns k who start sys)
    (hpids : PidsDistinct start) :
    PidsDistinct sys ∧ ∀ pid, sys.listsOf pid = start.listsOf pid := by
  induction h with
  | start => exact ⟨hpids, fun _ => rfl⟩
  | turn hturns hwho hresume hstep ih =>
      obtain ⟨hmid, hids⟩ := ih
      obtain ⟨hpids', hids'⟩ := turn_isolated hmid hresume hstep
      exact ⟨hpids', fun pid => (hids' pid).1.trans (hids pid)⟩

/-- **Tracees that do not share lists do not see each other's operations.** -/
theorem Turns.isolated {who : Int → Prop} {start sys : Sys W} {pid : Int}
    (h : Turns k who start sys) (hpids : PidsDistinct start)
    (hapart : ∀ turn, who turn → start.listsOf pid ≠ start.listsOf turn) :
    sys.bindingsFor pid = start.bindingsFor pid := by
  induction h with
  | start => rfl
  | turn hturns hwho hresume hstep ih =>
      obtain ⟨hmid, hids⟩ := hturns.keeps hpids
      refine (((turn_isolated hmid hresume hstep).2 pid).2 ?_).trans ih
      rw [hids, hids]
      exact hapart _ hwho

end PRoot
