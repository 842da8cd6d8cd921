import PRoot.CloneNamespaces
import PRoot.TraceeKin

/-!
# New children of ptracees

When the child of a ptracee becomes one as well: by the options of the ptracer and the flags of the
call, as Linux has it, and as `new_child` (`tracee/tracee.c`) finds out from the flags word.

* `linuxAttaches`: what Linux does;
* `ChildCall.event`, `ChildCall.report`: the event that PRoot gets, and what it does then;
* `newChild_attached`: the child is a ptracee if `new_child` takes it for one;
* `ptraceOption_iff`: what the word says about the kind of event;
* `auto_attach_iff`: when PRoot does as Linux.
-/

namespace PRoot

variable {host : Host}

/-- `CLONE_UNTRACED`. -/
def cloneUntraced : BitVec 64 := 0x800000

/-- `SIGCHLD`. -/
def sigchld : BitVec 64 := 17

/-- The kinds of events for a new child. -/
inductive ForkKind
  | fork | vfork | clone
  deriving DecidableEq, Repr

/-- `PTRACE_O_TRACEFORK`, `PTRACE_O_TRACEVFORK` and `PTRACE_O_TRACECLONE`. -/
def ForkKind.option : ForkKind → BitVec 64
  | .fork => 0x2
  | .vfork => 0x4
  | .clone => 0x8

/-- The option for a kind of events is set: `handle_ptracee_event` tells the ptracer about it. -/
def Reports (options : BitVec 64) (kind : ForkKind) : Prop := kind.option &&& options ≠ 0

instance (options : BitVec 64) (kind : ForkKind) : Decidable (Reports options kind) :=
  inferInstanceAs (Decidable (_ ≠ _))

/-- The kind of event, for the kernel. -/
def linuxKind (flags exitSignal : BitVec 64) : ForkKind :=
  if flags &&& cloneVfork ≠ 0 then .vfork
  else if exitSignal = sigchld then .fork
  else .clone

/-- Linux has a new child traced by the tracer of its parent. -/
def linuxAttaches (options flags exitSignal : BitVec 64) : Prop :=
  flags &&& clonePtrace ≠ 0 ∨
    flags &&& cloneUntraced = 0 ∧ Reports options (linuxKind flags exitSignal)

/-- The exit signal that the kernel takes for a call: the low byte of the flags of `clone`, the
fifth field of `clone_args` for `clone3`. -/
def kernelExitSignal (abi : Abi) (regs : SyscallRegs) (memory : Space host) : Option (BitVec 64) :=
  match getSysnum host abi regs with
  | .PR_clone => some (peek host abi regs.arg1 &&& 0xFF)
  | .PR_clone3 =>
      (memory.load ((argsAddr abi regs : Address host).plus 32) 8).map fun bytes =>
        BitVec.ofNat 64 (littleEndian bytes)
  | _ => some sigchld

namespace ChildCall

variable (c : ChildCall host)

/-- The exit signal that is asked for. -/
def exitSignal : Option (BitVec 64) := kernelExitSignal c.abi c.regs c.memory

/-- The event that the kernel has for PRoot, which traces all kinds: none with `CLONE_UNTRACED`. -/
def event : Option ForkKind := do
  let flags ← c.seen
  let exitSignal ← kernelExitSignal c.abi c.enter.regs c.enter.memory
  if flags &&& cloneUntraced ≠ 0 then none else some (linuxKind flags exitSignal)

/-- The flags word that `new_child` has, from the registers or the memory of the parent at an
event. -/
def word (kind : ForkKind) : BitVec 64 :=
  newChildFlags c.abi c.enter.regs c.enter.memory (kind = .vfork)

/-- The events of a new child in `handle_tracee_event`. -/
def report (k : LifeAnswers) (s : Tracees) (parent pid : Nat) : Except LifeFault Tracees :=
  match c.event with
  | none => .ok s
  | some kind => Tracees.newChild k s parent pid (c.word kind)

end ChildCall

/-- The number and the ptracer of a tracee. -/
def ptracerAt (s : Tracees) (i : Nat) : Option (Nat × Option Nat) :=
  (s.get i).map fun t => (t.pid, t.ptracer)

/-- The process is a ptracee. -/
def Attached (s : Tracees) (pid ptracer : Nat) : Prop :=
  ∃ i, ptracerAt s i = some (pid, some ptracer)

/-- PRoot has not been told about the process, though it may have seen it stop. -/
def NewProcess (s : Tracees) (pid : Nat) : Prop :=
  ∀ i t, s.get i = some t → t.pid = pid → t.exe = false ∧ t.parent = none ∧ t.ptracer = none

/-- `new_child` takes a child for a ptracee. -/
def Inherits (options flags : BitVec 64) : Prop :=
  ptraceOption flags &&& options ≠ 0 ∨ flags &&& clonePtrace ≠ 0

instance (options flags : BitVec 64) : Decidable (Inherits options flags) :=
  inferInstanceAs (Decidable (_ ∨ _))

/-! ## The child in the list of tracees -/

section

variable {k : LifeAnswers} {s s' s'' : Tracees} {i child ptracer : Nat} {t : LifeTracee}
  {fault : LifeFault → Prop}

/-- The tracees keep their numbers and their ptracers. -/
def SamePtracers (s s' : Tracees) : Prop := ∀ i, ptracerAt s' i = ptracerAt s i

theorem SamePtracers.trans (h : SamePtracers s s') (h' : SamePtracers s' s'') :
    SamePtracers s s'' := fun i => (h' i).trans (h i)

theorem SamePtracers.attached (h : SamePtracers s s') {pid : Nat} :
    Attached s' pid ptracer ↔ Attached s pid ptracer := by
  unfold Attached
  simp only [h _]

theorem ptracerAt_some (ht : s.get i = some t) : ptracerAt s i = some (t.pid, t.ptracer) := by
  rw [ptracerAt, ht]
  rfl

/-- No tracee is freed. -/
theorem SamePtracers.get (h : SamePtracers s s') (ht : s.get i = some t) :
    ∃ t', s'.get i = some t' ∧ t'.ptracer = t.ptracer := by
  have hsame := (h i).trans (ptracerAt_some ht)
  obtain ⟨t', ht', hpair⟩ := Option.map_eq_some_iff.mp hsame
  exact ⟨t', ht', (Prod.mk.inj hpair).2⟩

theorem samePtracers_update (i : Nat) {f : LifeTracee → LifeTracee}
    (hf : ∀ t, (f t).pid = t.pid ∧ (f t).ptracer = t.ptracer) : SamePtracers s (s.update i f) := by
  intro j
  unfold ptracerAt
  rw [LinkedHeap.get_update]
  split
  · cases s.get j with
    | none => rfl
    | some t =>
        rw [Option.map_some, Option.map_some, Option.map_some, (hf t).1, (hf t).2]
  · rfl

theorem restart_ptracer (t : LifeTracee) :
    (t.restart k).pid = t.pid ∧ (t.restart k).ptracer = t.ptracer := by
  unfold LifeTracee.restart
  split <;> exact ⟨rfl, rfl⟩

/-- The stop of a new child is no end, so that the child stays a ptracee. -/
theorem updateWaitStatus_same (ht : s.get i = some t) (hevent : t.asPtracee.event = some .sigstop) :
    OkOr fault (SamePtracers s) (updateWaitStatus k s ptracer (.tracee i)) := by
  unfold updateWaitStatus
  dsimp only
  refine (access_fine ht).bind ?_
  rintro t rfl
  split_ifs with hover
  · rw [hevent] at hover
    exact absurd hover.2 (by decide)
  · exact samePtracers_update i fun _ => ⟨rfl, rfl⟩
  · exact fun _ => rfl

theorem tellPtracer_same (ht : s.get i = some t) {r : LifeTracee} (hr : s.get ptracer = some r) :
    OkOr fault (fun told => SamePtracers s told.1) (tellPtracer k s i ptracer .sigstop) := by
  have hset : SamePtracers s (s.update i fun t => { t with asPtracee.event := some .sigstop }) :=
    samePtracers_update i fun _ => ⟨rfl, rfl⟩
  have ht' := get_update_self (f := fun t => { t with asPtracee.event := some .sigstop }) ht
  obtain ⟨r', hr', -⟩ := hset.get hr
  unfold tellPtracer
  dsimp only
  refine (access_fine hr').bind ?_
  rintro _ rfl
  refine (access_fine ht').bind ?_
  rintro _ rfl
  split_ifs
  · refine (updateWaitStatus_same ht' rfl).bind fun s₁ h₁ => ?_
    exact hset.trans (h₁.trans (samePtracers_update ptracer fun r => restart_ptracer _))
  · exact hset

/-- A child has the same ptracer once it is started. -/
theorem startChild_same (ht : s.get child = some t)
    (hptracer : ∀ r, t.ptracer = some r → (s.get r).isSome) :
    OkOr fault (SamePtracers s) (startChild k s child) := by
  unfold startChild
  refine (access_fine ht).bind ?_
  rintro _ rfl
  split_ifs
  · have hset : SamePtracers s (s.update child fun c => { c with sigstop := .SIGSTOP_ALLOWED }) :=
      samePtracers_update child fun _ => ⟨rfl, rfl⟩
    have ht' := get_update_self (f := fun c => { c with sigstop := .SIGSTOP_ALLOWED }) ht
    have hrestart : ∀ s₁ : Tracees, SamePtracers s₁ (s₁.update child (·.restart k)) :=
      fun s₁ => samePtracers_update child fun c => restart_ptracer c
    dsimp only
    split
    · exact hset.trans (hrestart _)
    · next p hp =>
        obtain ⟨r, hr⟩ := Option.isSome_iff_exists.mp (hptracer p hp)
        obtain ⟨r', hr', -⟩ := hset.get hr
        refine (tellPtracer_same ht' hr').bind fun told h₁ => ?_
        have hcleared : SamePtracers told.1
            (told.1.update child fun c => { c with asPtracee.proot := none }) :=
          samePtracers_update child fun _ => ⟨rfl, rfl⟩
        split_ifs
        · exact hset.trans (h₁.trans hcleared)
        · exact hset.trans (h₁.trans (hcleared.trans (hrestart _)))
  · exact fun _ => rfl

/-- The child, and it only, is given the ptracer of its parent. -/
def PtracerSet (s s' : Tracees) (child ptracer : Nat) : Prop :=
  ∀ i, ptracerAt s' i =
    if i = child then (ptracerAt s i).map fun e => (e.1, some ptracer) else ptracerAt s i

theorem PtracerSet.trans (h : PtracerSet s s' child ptracer) (h' : SamePtracers s' s'') :
    PtracerSet s s'' child ptracer := fun i => (h' i).trans (h i)

theorem inheritPtracer_sets {p : LifeTracee} {flags : BitVec 64} (hp : p.ptracer = some ptracer)
    (hptracer : (s.get ptracer).isSome) :
    OkOr fault (fun s' =>
        (Inherits p.asPtracee.options flags → PtracerSet s s' child ptracer) ∧
          (¬ Inherits p.asPtracee.options flags → SamePtracers s s'))
      (inheritPtracer s p child flags) := by
  unfold inheritPtracer
  by_cases hinherits : Inherits p.asPtracee.options flags
  · rw [if_pos ⟨by rw [hp]; rfl, hinherits⟩, hp]
    have hset : PtracerSet s
        (s.update child fun t => { t with asPtracee := { ptracer := some ptracer } })
        child ptracer := by
      intro i
      unfold ptracerAt
      rw [LinkedHeap.get_update]
      split
      · cases s.get i <;> rfl
      · rfl
    have hthere : ∃ r, (s.update child fun t =>
        { t with asPtracee := { ptracer := some ptracer } }).get ptracer = some r := by
      rw [LinkedHeap.get_update, ← Option.isSome_iff_exists]
      split
      · rw [Option.isSome_map, hptracer]
      · exact hptracer
    obtain ⟨r, hr⟩ := hthere
    have hattach : OkOr fault (fun s' => PtracerSet s s' child ptracer)
        (attachToPtracer s child (some ptracer)) := by
      unfold attachToPtracer countPtracee
      refine (access_fine hr).bind fun _ _ => ?_
      exact hset.trans (samePtracers_update ptracer fun _ => ⟨rfl, rfl⟩)
    refine hattach.bind fun s₁ h₁ => ⟨fun _ => ?_, fun h => absurd hinherits h⟩
    exact h₁.trans (samePtracers_update child fun _ => ⟨rfl, rfl⟩)
  · rw [if_neg fun h => hinherits h.2]
    exact ⟨fun h => absurd h hinherits, fun _ _ => rfl⟩

/-- The tracee that `new_child` finds or creates is a new one. -/
theorem getTracee_new {pid : Nat} (hnew : NewProcess s pid) (current : Option Nat) :
    ∃ c, (getTracee s current pid).1.get (getTracee s current pid).2 = some c ∧ c.pid = pid ∧
      NewProcess (getTracee s current pid).1 pid ∧
      ∀ i t, s.get i = some t → (getTracee s current pid).1.get i = some t := by
  unfold getTracee
  cases hfind : findTracee s current pid with
  | some i =>
      obtain ⟨c, hc⟩ := findTracee_lives hfind
      refine ⟨c, hc, ?_, hnew, fun _ _ ht => ht⟩
      unfold findTracee at hfind
      split_ifs at hfind with hcurrent
      · subst hfind
        rw [Option.any_some, hc, Option.any_some] at hcurrent
        exact of_decide_eq_true hcurrent
      · obtain ⟨⟨j, t⟩, hcell, rfl⟩ := Option.map_eq_some_iff.mp hfind
        have ht := LinkedHeap.get_of_mem (List.mem_of_find?_eq_some hcell)
        obtain rfl := Option.some.inj (hc.symm.trans ht)
        have hfound := List.find?_some hcell
        exact of_decide_eq_true hfound
  | none =>
      refine ⟨{ pid }, ?_, rfl, fun i t ht hpid => ?_, fun i t ht => ?_⟩
      · rw [LinkedHeap.get_alloc, if_pos rfl]
      · rw [LinkedHeap.get_alloc] at ht
        split at ht
        · obtain rfl := Option.some.inj ht
          exact ⟨rfl, rfl, rfl⟩
        · exact hnew i t ht hpid
      · rw [LinkedHeap.get_alloc, if_neg]
        · exact ht
        · rintro rfl
          rw [LinkedHeap.get_next] at ht
          cases ht

theorem NewProcess.not_attached {pid : Nat} (hnew : NewProcess s pid) :
    ¬ Attached s pid ptracer := by
  rintro ⟨i, hi⟩
  obtain ⟨t, ht, hpair⟩ := Option.map_eq_some_iff.mp hi
  obtain ⟨hpid, hptracer⟩ := Prod.mk.inj hpair
  rw [(hnew i t ht hpid).2.2] at hptracer
  cases hptracer

/-- **A new child is a ptracee if `new_child` takes it for one.** -/
theorem newChild_attached {p : LifeTracee} {parent pid : Nat} {flags : BitVec 64}
    (hparent : s.get parent = some p) (hp : p.ptracer = some ptracer)
    (hptracer : (s.get ptracer).isSome) (hnew : NewProcess s pid) :
    OkOr fault (fun s' => Attached s' pid ptracer ↔ Inherits p.asPtracee.options flags)
      (Tracees.newChild k s parent pid flags) := by
  obtain ⟨c, hc, hpid, hfresh, hkeeps⟩ := getTracee_new hnew (some parent)
  unfold Tracees.newChild
  dsimp only
  generalize (getTracee s (some parent) pid).2 = child at hc ⊢
  generalize (getTracee s (some parent) pid).1 = s₁ at hc hfresh hkeeps ⊢
  obtain ⟨hexe, hfather, hfree⟩ := hfresh child c hc hpid
  obtain ⟨r, hr⟩ := Option.isSome_iff_exists.mp hptracer
  refine (access_fine hc).bind ?_
  rintro c rfl
  rw [hexe, hfather, hfree]
  refine (access_fine (hkeeps parent p hparent)).bind ?_
  rintro p rfl
  have hadopt : SamePtracers s₁ (s₁.update child (p.adopt parent flags)) :=
    samePtracers_update child fun _ => ⟨rfl, rfl⟩
  obtain ⟨r₁, hr₁, -⟩ := hadopt.get (hkeeps ptracer r hr)
  obtain ⟨c₁, hc₁, hfree₁⟩ := hadopt.get hc
  have hthere : (s₁.update child (p.adopt parent flags)).get ptracer = some r₁ := hr₁
  refine (inheritPtracer_sets hp (by rw [hthere]; rfl)).bind fun s₂ h₂ => ?_
  by_cases hinherits : Inherits p.asPtracee.options flags
  · have hset := h₂.1 hinherits
    have hchild : ptracerAt s₂ child = some (pid, some ptracer) := by
      rw [hset child, if_pos rfl, hadopt child, ptracerAt_some hc, hpid]
      rfl
    obtain ⟨c₂, hc₂, hpair⟩ := Option.map_eq_some_iff.mp hchild
    refine (startChild_same hc₂ fun q hq => ?_).mono fun s₃ h₃ => ?_
    · obtain rfl : ptracer = q := by
        rw [(Prod.mk.inj hpair).2] at hq
        exact Option.some.inj hq
      have hlives := hset ptracer
      rw [ptracerAt_some hthere] at hlives
      split at hlives
      · rw [← Option.isSome_map, show (s₂.get ptracer).map _ = _ from hlives]
        rfl
      · rw [← Option.isSome_map, show (s₂.get ptracer).map _ = _ from hlives]
        rfl
    · rw [h₃.attached]
      exact ⟨fun _ => hinherits, fun _ => ⟨child, hchild⟩⟩
  · have hsame := hadopt.trans (h₂.2 hinherits)
    obtain ⟨c₂, hc₂, hfree₂⟩ := hsame.get hc
    refine (startChild_same hc₂ fun q hq => ?_).mono fun s₃ h₃ => ?_
    · rw [hfree₂, hfree] at hq
      cases hq
    · rw [h₃.attached, hsame.attached]
      exact ⟨fun h => absurd h hfresh.not_attached, fun h => absurd h hinherits⟩

end

/-! ## What `new_child` makes of the flags -/

/-- The options agree where the flags word does not tell kinds of events apart.  The exit signal
is taken for the low byte of the word, an empty word for a `fork`, and the signal counts before
`CLONE_VFORK`. -/
def Agree (options word : BitVec 64) : ForkKind → Prop
  | .fork => word ≠ 0 → word &&& 0xFF ≠ sigchld → (Reports options .fork ↔ Reports options .clone)
  | .vfork => word &&& 0xFF = sigchld → (Reports options .vfork ↔ Reports options .fork)
  | .clone => word = 0 ∨ word &&& 0xFF = sigchld →
      (Reports options .clone ↔ Reports options .fork)

/-- The word tells which kind of event there is, but for its exit signal. -/
theorem ptraceOption_iff {options word : BitVec 64} {kind : ForkKind}
    (hvfork : word &&& cloneVfork ≠ 0 ↔ kind = .vfork) :
    (ptraceOption word &&& options ≠ 0 ↔ Reports options kind) ↔ Agree options word kind := by
  have hempty : word = 0 → kind ≠ .vfork := by
    rintro rfl hkind
    exact hvfork.mpr hkind (by decide)
  unfold ptraceOption
  by_cases hzero : word = 0
  · rw [if_pos hzero]
    show (Reports options .fork ↔ Reports options kind) ↔ _
    cases kind with
    | fork => exact ⟨fun _ h => absurd hzero h, fun _ => Iff.rfl⟩
    | vfork => exact absurd rfl (hempty hzero)
    | clone => exact ⟨fun h _ => h.symm, fun h => (h (Or.inl hzero)).symm⟩
  · rw [if_neg hzero]
    by_cases hsignal : word &&& 0xFF = 17
    · rw [if_pos hsignal]
      show (Reports options .fork ↔ Reports options kind) ↔ _
      cases kind with
      | fork => exact ⟨fun _ _ h => absurd hsignal h, fun _ => Iff.rfl⟩
      | vfork => exact ⟨fun h _ => h.symm, fun h => (h hsignal).symm⟩
      | clone => exact ⟨fun h _ => h.symm, fun h => (h (Or.inr hsignal)).symm⟩
    · rw [if_neg hsignal]
      cases kind with
      | fork =>
          rw [if_neg fun h => ForkKind.noConfusion (hvfork.mp h)]
          exact ⟨fun h _ _ => h.symm, fun h => (h hzero hsignal).symm⟩
      | vfork =>
          rw [if_pos (hvfork.mpr rfl)]
          exact ⟨fun _ h => absurd h hsignal, fun _ => Iff.rfl⟩
      | clone =>
          rw [if_neg fun h => ForkKind.noConfusion (hvfork.mp h)]
          exact ⟨fun _ h => absurd h (not_or.mpr ⟨hzero, hsignal⟩), fun _ => Iff.rfl⟩

theorem linuxKind_vfork {flags exitSignal : BitVec 64} :
    linuxKind flags exitSignal = .vfork ↔ flags &&& cloneVfork ≠ 0 := by
  unfold linuxKind
  split_ifs with hvfork hsignal
  · exact ⟨fun _ => hvfork, fun _ => rfl⟩
  · exact ⟨nofun, fun h => absurd h hvfork⟩
  · exact ⟨nofun, fun h => absurd h hvfork⟩

namespace ChildCall

variable {c : ChildCall host} {flags exitSignal : BitVec 64}

/-- The fifth field of `clone_args` stays the same. -/
theorem enter_fifth (h : getSysnum host c.abi c.regs = .PR_clone3) {bytes : Bytes}
    (hload : c.memory.load ((argsAddr c.abi c.regs : Address host).plus 32) 8 = some bytes) :
    c.enter.memory.load ((argsAddr c.abi c.regs : Address host).plus 32) 8 = some bytes := by
  by_cases hnull : c.AtNull
  · rw [enter_null hnull]
    exact hload
  · cases hword : peekWordAt (sizeofWord host c.abi) c.memory (argsAddr c.abi c.regs) with
    | none =>
        rw [enter_unread h hnull hword]
        exact hload
    | some word =>
        obtain ⟨-, ⟨-, -, hmemory⟩ | ⟨-, hmemory⟩⟩ := enter_clone3 h hnull hword
        · obtain ⟨m', hpoke⟩ := poke_isSome hword
            (BitVec.ofNat 64 word &&& ~~~cloneNsMask).toNat
          have hsize := sizeofWord_cases host c.abi
          have hspace : 2 ^ 32 ≤ 2 ^ (8 * host.word) := by
            cases host <;> decide
          rw [hmemory, hpoke, Option.getD_some, AddressSpace.load_store_apart hpoke, hload]
          intro i hi
          rw [wordBytes_length, AddressSpace.add_offset, AddressSpace.offset_toNat _ (by omega)]
          omega
        · rw [hmemory]
          exact hload

/-- The exit signal changes with the namespace flags of a `clone` only, and then the word has the
new one. -/
theorem enter_exitSignal (hsignal : c.exitSignal = some exitSignal) :
    ∃ entered, kernelExitSignal c.abi c.enter.regs c.enter.memory = some entered ∧
      (entered = exitSignal ∨
        (exitSignal = sigchld → entered = sigchld) ∧ ∀ kind, c.word kind &&& 0xFF = entered) := by
  unfold ChildCall.exitSignal kernelExitSignal at hsignal
  unfold kernelExitSignal
  rw [enter_sysnum]
  split at hsignal
  · rename_i hclone
    refine ⟨_, rfl, Or.inr ⟨fun hchld => ?_, fun kind => ?_⟩⟩
    · obtain rfl := Option.some.inj hsignal
      rw [(enter_clone hclone).1, BitVec.and_assoc, BitVec.and_comm (~~~cloneNsMask),
        ← BitVec.and_assoc, hchld]
      decide
    · unfold word newChildFlags
      rw [enter_sysnum]
      simp only [hclone]
  · rename_i hclone3
    obtain ⟨bytes, hload, rfl⟩ := Option.map_eq_some_iff.mp hsignal
    simp only [enter_clone3_regs hclone3, enter_fifth hclone3 hload]
    exact ⟨_, rfl, Or.inl rfl⟩
  · exact ⟨_, rfl, Or.inl (Option.some.inj hsignal)⟩

/-- Other flags are seen if they are asked for. -/
theorem seen_and (hflags : c.requested = some flags) :
    ∃ seen, c.seen = some seen ∧
      ∀ flag, ~~~cloneNsMask &&& flag = flag → seen &&& flag = flags &&& flag := by
  have hsame := seen_eq (c := c)
  rw [hflags, Option.map_some] at hsame
  obtain ⟨seen, hseen, heq⟩ := Option.map_eq_some_iff.mp hsame
  refine ⟨seen, hseen, fun flag hflag => ?_⟩
  rw [← and_mask_apart hflag, heq, and_mask_apart hflag]

theorem event_untraced (hflags : c.requested = some flags)
    (hsignal : c.exitSignal = some exitSignal) (huntraced : flags &&& cloneUntraced ≠ 0) :
    c.event = none := by
  obtain ⟨seen, hseen, hsame⟩ := seen_and hflags
  obtain ⟨entered, hentered, -⟩ := enter_exitSignal hsignal
  unfold event
  rw [hseen, hentered]
  rw [← hsame cloneUntraced (by decide)] at huntraced
  exact if_pos huntraced

/-- The event of a child, and what the word says about it. -/
theorem event_kind (hflags : c.requested = some flags) (hsignal : c.exitSignal = some exitSignal)
    (htraced : flags &&& cloneUntraced = 0) :
    ∃ kind, c.event = some kind ∧ (kind = .vfork ↔ flags &&& cloneVfork ≠ 0) ∧
      c.word kind &&& cloneVfork = flags &&& cloneVfork ∧
      c.word kind &&& clonePtrace = flags &&& clonePtrace ∧
      (kind = linuxKind flags exitSignal ∨
        linuxKind flags exitSignal = .clone ∧ kind = .fork ∧ c.word kind &&& 0xFF = sigchld) := by
  obtain ⟨seen, hseen, hsame⟩ := seen_and hflags
  obtain ⟨entered, hentered, hsignals⟩ := enter_exitSignal hsignal
  have hvfork := hsame cloneVfork (by decide)
  have hother : getSysnum host c.abi c.regs ≠ .PR_clone → getSysnum host c.abi c.regs ≠ .PR_clone3 →
      seen = 0x11 ∨ seen = 0x4111 := by
    intro hclone hclone3
    unfold ChildCall.seen kernelFlags at hseen
    rw [enter_sysnum] at hseen
    split at hseen
    · exact absurd ‹_› hclone
    · exact absurd ‹_› hclone3
    · exact Or.inr (Option.some.inj hseen).symm
    · exact Or.inl (Option.some.inj hseen).symm
  have hguess : decide (linuxKind seen entered = .vfork) = decide (seen &&& cloneVfork ≠ 0) :=
    decide_eq_decide.mpr linuxKind_vfork
  refine ⟨linuxKind seen entered, ?_, ?_, ?_, ?_, ?_⟩
  · unfold event
    rw [hseen, hentered]
    rw [← hsame cloneUntraced (by decide)] at htraced
    exact if_neg (not_not.mpr htraced)
  · rw [linuxKind_vfork, hvfork]
  · rw [← hvfork]
    refine newChildFlags_and (by decide) hseen fun hclone hclone3 => ?_
    rw [hguess]
    rcases hother hclone hclone3 with rfl | rfl
    · decide
    · decide
  · rw [← hsame clonePtrace (by decide)]
    refine newChildFlags_and (by decide) hseen fun hclone hclone3 => ?_
    rw [hguess]
    rcases hother hclone hclone3 with rfl | rfl
    · decide
    · decide
  · unfold linuxKind
    rw [hvfork]
    by_cases hset : flags &&& cloneVfork ≠ 0
    · rw [if_pos hset, if_pos hset]
      exact Or.inl rfl
    · rw [if_neg hset, if_neg hset]
      rcases hsignals with rfl | ⟨hkept, hword⟩
      · exact Or.inl rfl
      · by_cases hentered : entered = sigchld
        · rw [if_pos hentered]
          by_cases hasked : exitSignal = sigchld
          · rw [if_pos hasked]
            exact Or.inl rfl
          · rw [if_neg hasked]
            exact Or.inr ⟨rfl, rfl, (hword .fork).trans hentered⟩
        · rw [if_neg hentered, if_neg fun hasked => hentered (hkept hasked)]
          exact Or.inl rfl

end ChildCall

/-! ## New children -/

/-- The child is a ptracee as Linux has it, and for an event exactly when it is reported. -/
structure FollowsKernel (c : ChildCall host) (options flags exitSignal : BitVec 64) (s : Tracees)
    (pid ptracer : Nat) : Prop where
  attached : Attached s pid ptracer ↔ linuxAttaches options flags exitSignal
  reported : flags &&& clonePtrace = 0 →
    (Attached s pid ptracer ↔ ∃ kind, c.event = some kind ∧ Reports options kind)

/-- When it is: there is an event for a child with `CLONE_PTRACE`, and one without is of a kind
that the flags word tells, or the options do not distinguish it from what the word tells. -/
def Foreseen (c : ChildCall host) (options flags exitSignal : BitVec 64) : Prop :=
  if flags &&& cloneUntraced ≠ 0 then flags &&& clonePtrace = 0
  else flags &&& clonePtrace = 0 →
    Agree options (c.word (linuxKind flags exitSignal)) (linuxKind flags exitSignal)

/-- **New children of ptracees are attached as Linux does it, if and only if they are foreseen.** -/
theorem auto_attach_iff {k : LifeAnswers} {c : ChildCall host} {s : Tracees} {p : LifeTracee}
    {parent ptracer pid : Nat} {flags exitSignal : BitVec 64}
    (hparent : s.get parent = some p) (hp : p.ptracer = some ptracer)
    (hptracer : (s.get ptracer).isSome) (hnew : NewProcess s pid)
    (hflags : c.requested = some flags) (hsignal : c.exitSignal = some exitSignal) :
    ∃ s', c.report k s parent pid = .ok s' ∧
      (FollowsKernel c p.asPtracee.options flags exitSignal s' pid ptracer ↔
        Foreseen c p.asPtracee.options flags exitSignal) := by
  unfold ChildCall.report Foreseen
  by_cases huntraced : flags &&& cloneUntraced ≠ 0
  · have hevent := c.event_untraced hflags hsignal huntraced
    rw [hevent, if_pos huntraced]
    refine ⟨s, rfl, fun hfollows => ?_, fun hclear => ⟨?_, fun _ => ?_⟩⟩
    · by_contra hset
      exact hnew.not_attached (hfollows.attached.mpr (Or.inl hset))
    · refine ⟨fun h => absurd h hnew.not_attached, fun hlinux => ?_⟩
      rcases hlinux with hset | ⟨hnone, -⟩
      · exact absurd hclear hset
      · exact absurd hnone huntraced
    · refine ⟨fun h => absurd h hnew.not_attached, fun ⟨kind, hkind, _⟩ => ?_⟩
      rw [hevent] at hkind
      cases hkind
  · rw [if_neg huntraced]
    obtain ⟨kind, hevent, hvfork, hword, hptrace, hkind⟩ :=
      c.event_kind hflags hsignal (not_not.mp huntraced)
    obtain ⟨s', hs', hattached⟩ :=
      (@newChild_attached k s ptracer _ p parent pid (c.word kind) hparent hp hptracer hnew).ok
    rw [hevent]
    refine ⟨s', hs', ?_⟩
    have hsame : c.word (linuxKind flags exitSignal) = c.word kind := by
      unfold ChildCall.word
      rw [decide_eq_decide.mpr (linuxKind_vfork.trans hvfork.symm)]
    rw [hsame]
    by_cases hset : flags &&& clonePtrace = 0
    · have hinherits : Attached s' pid ptracer ↔
          ptraceOption (c.word kind) &&& p.asPtracee.options ≠ 0 := by
        rw [hattached, Inherits, hptrace, hset]
        exact ⟨fun h => h.resolve_right fun h => h rfl, Or.inl⟩
      have hlinux : linuxAttaches p.asPtracee.options flags exitSignal ↔
          Reports p.asPtracee.options (linuxKind flags exitSignal) :=
        ⟨fun h => (h.resolve_left (not_not.mpr hset)).2, fun h => Or.inr ⟨not_not.mp huntraced, h⟩⟩
      have hagree := @ptraceOption_iff p.asPtracee.options (c.word kind)
        (linuxKind flags exitSignal) (by rw [hword, linuxKind_vfork])
      refine ⟨fun hfollows _ => ?_, fun hforeseen => ⟨?_, fun _ => ?_⟩⟩
      · rw [← hagree, ← hinherits, ← hlinux]
        exact hfollows.attached
      · rw [hinherits, hlinux, hagree]
        exact hforeseen hset
      · have hreported : Reports p.asPtracee.options kind ↔
            ∃ kind, c.event = some kind ∧ Reports p.asPtracee.options kind :=
          ⟨fun h => ⟨kind, hevent, h⟩, fun ⟨_, hother, h⟩ => by
            rwa [Option.some.inj (hevent.symm.trans hother)]⟩
        rw [hinherits, ← hreported, ptraceOption_iff (by rw [hword, hvfork])]
        rcases hkind with hkind | ⟨-, hkind, hchld⟩
        · rw [hkind, hsame]
          exact hforeseen hset
        · rw [hkind]
          rw [hkind] at hchld
          exact fun _ h => absurd hchld h
    · refine ⟨fun _ h => absurd h hset, fun _ => ⟨?_, fun h => absurd h hset⟩⟩
      rw [hattached, Inherits, hptrace]
      exact ⟨fun _ => Or.inl hset, fun _ => Or.inr hset⟩

/-- A tracee, the process 2, with the process 1 for its ptracer and some options. -/
def tracedPair (options : BitVec 64) : Tracees where
  next := 2
  cells :=
    [(1, { pid := 2, exe := true, parent := some 0, asPtracee := { ptracer := some 0, options } }),
      (0, { pid := 1, exe := true, asPtracer := { nbPtracees := 1 } })]
  below := by
    intro c hc
    rcases List.mem_pair.mp hc with rfl | rfl
    · exact Nat.lt_succ_self 1
    · exact Nat.zero_lt_succ 1
  newest := List.pairwise_pair.mpr Nat.zero_lt_one

theorem tracedPair_new (options : BitVec 64) : NewProcess (tracedPair options) 3 := by
  intro i t ht hpid
  unfold LinkedHeap.get tracedPair at ht
  rw [LinkedHeap.lookup_cons_if, LinkedHeap.lookup_cons_if] at ht
  split_ifs at ht
  · rw [← Option.some.inj ht] at hpid
    cases hpid
  · rw [← Option.some.inj ht] at hpid
    cases hpid
  · cases ht

/-- Each restart works, as does each write. -/
def easyAnswers : LifeAnswers := ⟨fun _ => true, true, true⟩

/-- A `fork`, with `PTRACE_O_TRACEFORK`. -/
theorem auto_attach_fork :
    ∃ s', (forkCall (some 3)).report easyAnswers (tracedPair 2) 1 3 = .ok s' ∧
      Attached s' 3 0 := by
  obtain ⟨s', hs', hfollows⟩ := @auto_attach_iff _ easyAnswers (forkCall (some 3))
    (tracedPair 2) _ 1 0 3 0x11 sigchld rfl rfl rfl (tracedPair_new 2) rfl rfl
  have hforeseen : Foreseen (forkCall (some 3)) 2 0x11 sigchld := fun _ h => absurd rfl h
  exact ⟨s', hs', (hfollows.mpr hforeseen).attached.mpr (Or.inr ⟨by decide, by decide⟩)⟩

/-- `clone (CLONE_VFORK | SIGCHLD)`. -/
def vforkClone : ChildCall .ARCH_X86_64 where
  abi := .ABI_DEFAULT
  regs := regsOf 56 0x4011
  memory := fun _ => none
  writable := true
  child := some 3
  vfork := true
  family := by decide

/-- With `PTRACE_O_TRACEVFORK` the event of a `clone` with `CLONE_VFORK` is reported, as Linux has
it, but the child is not attached: its exit signal is that of a `fork`. -/
theorem auto_attach_vfork :
    vforkClone.requested = some 0x4011 ∧ vforkClone.exitSignal = some sigchld ∧
      vforkClone.event = some .vfork ∧ Reports 4 .vfork ∧ linuxAttaches 4 0x4011 sigchld ∧
      ∃ s', vforkClone.report easyAnswers (tracedPair 4) 1 3 = .ok s' ∧ ¬ Attached s' 3 0 := by
  refine ⟨rfl, rfl, rfl, by decide, Or.inr ⟨by decide, by decide⟩, ?_⟩
  obtain ⟨s', hs', hattached⟩ := (@newChild_attached easyAnswers (tracedPair 4) 0 _ _ 1 3
    (vforkClone.word .vfork) rfl rfl rfl (tracedPair_new 4)).ok
  refine ⟨s', hs', fun h => ?_⟩
  exact absurd (hattached.mp h) (by decide)

end PRoot
