import PRoot.BrkRuns
import PRoot.ExecveFailures
import PRoot.LoadScript

/-!
# Programs without a mapping

The first mapping of a program is looked at for its load address and in its load script, the
last one for its heap.  What makes sure that there is one.

* `GoesOn`: what follows the enter stage finds its mappings;
* `MappingsExist`: that, unless the execution fails; PRoot does not crash;
* `HasSegments`: the file of the program has a segment, and so has that of its interpreter;
* `mappings_exist_iff`: the one is the other.
-/

namespace PRoot

/-- The heap of a program can be looked for, after any calls of `brk`. -/
def BrksGoThrough (loadInfo : Option LoadInfo) (heap : Heap) : Prop :=
  ∀ (B : BrkHost) (calls : List BrkCall) (heap' : Heap) (regs : SyscallRegs),
    (∀ call ∈ calls, call.loadInfo = loadInfo ∧ getSysnum B.host B.abi call.regs = .PR_brk) →
    AbortableRuns.run (brkStep B) heap calls = some heap' →
    (translateBrkEnter B loadInfo heap' regs).isSome

/-- The mappings of a program: the first one is there for its load script, and the last one for
its heap, whatever the kernel says to its execution. -/
structure GoesOn (K : ExecHost) (call : ExecCall) (sys : ExecSys) : Prop where
  script : sys.tracee.skipProotLoader = false → ∃ info, sys.tracee.loadInfo = some info ∧
    ∀ tracee, (transferLoadScript K tracee info).isSome
  heap : ∀ result, let after := (translateExecveExit K call result sys).1
    BrksGoThrough after.tracee.loadInfo (after.heaps after.tracee.heap)

section

variable (K : ExecHost) (call : ExecCall)

/-- **Accepted files have mappings**: either the execution fails, or what follows finds its
mappings. -/
def MappingsExist (sys : ExecSys) : Prop :=
  match translateExecveEnter K call sys with
  | .crash => False
  | .status (.error _) _ => True
  | .status (.ok _) sys' => isLoadDone call sys.tracee = true ∨ GoesOn K call sys'

/-- The loader for a program can be executed. -/
def LoaderReady (header : ElfHeader) : Prop :=
  ∃ loaderPath, K.loaderPath (K.hasLoader32bit && header.isClass32) = some loaderPath ∧
    call.setSysargPath loaderPath = .ok ()

/-- **The files have segments**: that of the program, unless it is not position independent
and there is no loader for it; that of its interpreter if it is position independent. -/
structure HasSegments (qemu : Bool) (hostPath : CStr) : Prop where
  program : (headerAt K hostPath).isPositionIndependent ∨ LoaderReady K call (headerAt K hostPath) →
    segmentsAt K hostPath ≠ []
  interp : ∀ path, interpreterAt K qemu hostPath = some path →
    (headerAt K path).isPositionIndependent → segmentsAt K path ≠ []

/-- The files that are accepted for an execution have segments. -/
def SegmentsPresent (sys : ExecSys) : Prop :=
  ∀ tracee hostPath userPath rawPath info, isLoadDone call sys.tracee = false →
    expandProgram K call sys.tracee = (tracee, .ok (hostPath, userPath, rawPath)) →
    tracee.skipProotLoader = false → K.allocates .loadInfo = true →
    collectLoadInfo K tracee.qemu.isSome hostPath userPath rawPath .zero = .ok () info →
    HasSegments K call tracee.qemu.isSome hostPath

end

/-! ## The heap -/

/-- The heap is looked for after the last mapping once. -/
theorem translateBrkEnter_eq_none_iff {B : BrkHost} {loadInfo : Option LoadInfo} {heap : Heap}
    {regs : SyscallRegs} :
    translateBrkEnter B loadInfo heap regs = none ↔
      heap.disabled = false ∧ heap.base = 0 ∧ B.reg regs.arg1 = 0 ∧
        ((loadInfo.bind (·.mappings)).bind List.getLast?) = none := by
  unfold translateBrkEnter
  cases heap.disabled with
  | true => simp
  | false =>
      rw [if_neg Bool.false_ne_true]
      dsimp only
      by_cases hbase : heap.base = 0
      · rw [if_pos hbase]
        by_cases hasked : B.reg regs.arg1 = 0
        · rw [if_neg (fun hne => hne hasked)]
          cases (loadInfo.bind (·.mappings)).bind List.getLast? with
          | none => exact ⟨fun _ => ⟨rfl, hbase, hasked, rfl⟩, fun _ => rfl⟩
          | some bss =>
              constructor
              · intro h
                cases h
              · rintro ⟨_, _, _, h⟩
                cases h
        · rw [if_pos hasked]
          constructor
          · intro h
            cases h
          · intro h
            exact absurd h.2.2.1 hasked
      · rw [if_neg hbase]
        constructor
        · intro h
          split at h <;> cases h
        · intro h
          exact absurd h.2.1 hbase

/-- A program with a mapping has a place for its heap. -/
theorem brksGoThrough_of_mapping {info : LoadInfo} (heap : Heap)
    (h : info.mappings.getD [] ≠ []) : BrksGoThrough (some info) heap := by
  intro B calls heap' regs _ _
  rw [← Option.ne_none_iff_isSome, ne_eq, translateBrkEnter_eq_none_iff]
  intro ⟨_, _, _, hnone⟩
  apply h
  rw [Option.bind_some] at hnone
  cases hmappings : info.mappings with
  | none => rfl
  | some mappings =>
      rw [hmappings, Option.bind_some, List.getLast?_eq_none_iff] at hnone
      exact hnone

/-- A heap that is disabled or set up stays so. -/
theorem brkStep_known {B : BrkHost} {heap heap' : Heap} {call : BrkCall}
    (hbrk : getSysnum B.host B.abi call.regs = .PR_brk)
    (hstep : brkStep B heap call = some heap') (h : heap.disabled = true ∨ heap.base ≠ 0) :
    heap'.disabled = true ∨ heap'.base ≠ 0 := by
  obtain ⟨⟨_, reported⟩, hcall, rfl⟩ := Option.map_eq_some_iff.mp hstep
  obtain ⟨modified, henter, hexit⟩ := Option.bind_eq_some_iff.mp hcall
  cases hdisabled : heap.disabled with
  | true =>
      rw [translateBrkExit, if_pos hdisabled] at hexit
      cases hexit
      exact .inl hdisabled
  | false =>
      have hbase := h.resolve_left (by rw [hdisabled]; decide)
      have hneg : ¬ heap.disabled = true := by rw [hdisabled]; decide
      rw [translateBrkEnter, if_neg hneg, if_neg hbase] at henter
      rw [translateBrkExit, if_neg hneg] at hexit
      dsimp only at henter
      split at henter
      · have hvoid := (getSysnum_setSysnum B.host B.abi call.regs .PR_void).2
          (fun h => h.elim fun _ h => h.1 rfl)
        obtain rfl := Option.some.inj henter
        rw [hvoid] at hexit
        cases hexit
        exact .inr hbase
      · obtain ⟨nr, hnames⟩ := names_mremap hbrk
        have hset := (getSysnum_setSysnum B.host B.abi call.regs .PR_mremap).1 ⟨nr, hnames⟩
        have hmodified : getSysnum B.host B.abi modified = .PR_mremap := by
          obtain rfl := Option.some.inj henter
          exact hset
        rw [hmodified] at hexit
        dsimp only at hexit
        split at hexit <;> cases hexit <;> exact .inr hbase

/-- Such a heap is not looked for. -/
theorem brksGoThrough_of_known {loadInfo : Option LoadInfo} {heap : Heap}
    (h : heap.disabled = true ∨ heap.base ≠ 0) : BrksGoThrough loadInfo heap := by
  intro B calls heap' regs hcalls hrun
  have hknown : heap'.disabled = true ∨ heap'.base ≠ 0 := by
    clear regs
    induction calls generalizing heap with
    | nil =>
        obtain rfl := Option.some.inj hrun
        exact h
    | cons call calls ih =>
        obtain ⟨middle, hstep, hrest⟩ := Option.bind_eq_some_iff.mp hrun
        exact ih (brkStep_known (hcalls call (List.mem_cons_self ..)).2 hstep h)
          (fun call hmem => hcalls call (List.mem_cons_of_mem _ hmem)) hrest
  rw [← Option.ne_none_iff_isSome, ne_eq, translateBrkEnter_eq_none_iff]
  intro ⟨hdisabled, hbase, _, _⟩
  rw [hdisabled] at hknown
  exact hknown.elim (by decide) (fun hne => hne hbase)

/-! ## The load script -/

theorem transferLoadScript_isSome_iff {K : ExecHost} {tracee : ScriptTracee} {info : LoadInfo} :
    (transferLoadScript K tracee info).isSome ↔ info.mappings.getD [] ≠ [] := by
  rw [transferLoadScript, loadStatements, Option.isSome_map, Option.isSome_map, atPhdr]
  cases info.mappings with
  | none => simp
  | some mappings =>
      cases mappings with
      | nil => simp
      | cons mapping mappings => simp

/-! ## The enter stage -/

theorem ElfHeader.ident_eq (header : ElfHeader) {i : Nat} (hi : i < 64) :
    header.ident i = header.bytes[i] := by
  rw [ident, List.getD_eq_getElem?_getD, Vector.getElem?_toList, Vector.getElem?_eq_getElem hi,
    Option.getD_some]

/-- The class of a program stays where it is loaded. -/
theorem ElfHeader.addEntry_isClass32 (header : ElfHeader) (base : BitVec 64) :
    (header.addEntry base).isClass32 = header.isClass32 := by
  have hbefore : ¬ (24 ≤ 4 ∧ 4 < 24 + if header.isClass64 then 8 else 4) := by omega
  rw [isClass32, isClass32, ident_eq _ (by decide), ident_eq _ (by decide), addEntry,
    Vector.getElem_ofFn, if_neg hbefore]
  rfl

section

variable {K : ExecHost} {call : ExecCall}

/-- What is placed has as many mappings as before, and its class. -/
theorem LoadInfo.place_keeps {base : BitVec 64} {info placed : LoadInfo}
    (h : info.place K base = some placed) :
    (placed.mappings.getD [] = [] ↔ info.mappings.getD [] = []) ∧ placed.interp = info.interp ∧
      placed.elfHeader.isClass32 = info.elfHeader.isClass32 := by
  obtain rfl | rfl := LoadInfo.place_inv h
  · exact ⟨Iff.rfl, rfl, rfl⟩
  · refine ⟨?_, rfl, ElfHeader.addEntry_isClass32 _ _⟩
    rw [LoadInfo.addLoadBase_mappings, List.map_eq_nil_iff]

/-- A program is placed if it and its interpreter can be. -/
theorem computeLoadAddresses_eq_none_iff {info : LoadInfo} :
    computeLoadAddresses K info = none ↔
      (info.elfHeader.isPositionIndependent ∧ info.mappings.getD [] = []) ∨
        ∃ interp, info.interp = some interp ∧ interp.elfHeader.isPositionIndependent ∧
          interp.mappings.getD [] = [] := by
  unfold computeLoadAddresses
  dsimp only
  generalize K.execPicAddress _ = base
  generalize K.interpPicAddress _ = interpBase
  cases hplace : info.place K base with
  | none => exact ⟨fun _ => .inl (LoadInfo.place_eq_none_iff.mp hplace), fun _ => rfl⟩
  | some placed =>
      have hprogram : ¬ (info.elfHeader.isPositionIndependent ∧ info.mappings.getD [] = []) := by
        intro h
        rw [LoadInfo.place_eq_none_iff.mpr h] at hplace
        cases hplace
      obtain ⟨-, hinterp, -⟩ := LoadInfo.place_keeps hplace
      dsimp only
      rw [← hinterp]
      cases hsome : placed.interp with
      | none =>
          constructor
          · intro h
            cases h
          · rintro (h | ⟨_, h, _⟩)
            · exact absurd h hprogram
            · cases h
      | some interp =>
          dsimp only
          cases hplace' : interp.place K interpBase with
          | none =>
              exact ⟨fun _ => .inr ⟨interp, rfl, LoadInfo.place_eq_none_iff.mp hplace'⟩,
                fun _ => rfl⟩
          | some placed' =>
              constructor
              · intro h
                cases h
              · rintro (h | ⟨_, h, hnone⟩)
                · exact absurd h hprogram
                · obtain rfl := Option.some.inj h
                  rw [LoadInfo.place_eq_none_iff.mpr hnone] at hplace'
                  cases hplace'

theorem computeLoadAddresses_keeps {info placed : LoadInfo}
    (h : computeLoadAddresses K info = some placed) :
    (placed.mappings.getD [] = [] ↔ info.mappings.getD [] = []) ∧
      placed.elfHeader.isClass32 = info.elfHeader.isClass32 := by
  unfold computeLoadAddresses at h
  dsimp only at h
  cases hplace : info.place K (K.execPicAddress (K.hasLoader32bit && info.elfHeader.isClass32)) with
  | none =>
      rw [hplace] at h
      cases h
  | some program =>
      obtain ⟨hmappings, -, hclass⟩ := LoadInfo.place_keeps hplace
      rw [hplace] at h
      dsimp only at h
      split at h
      · obtain rfl := Option.some.inj h
        exact ⟨hmappings, hclass⟩
      · split at h
        · cases h
        · obtain rfl := Option.some.inj h
          exact ⟨hmappings, hclass⟩

/-- The exit stage keeps the description of the program. -/
theorem translateExecveExit_loadInfo (result : Except Errno Unit) (sys : ExecSys) :
    (translateExecveExit K call result sys).1.tracee.loadInfo = sys.tracee.loadInfo := by
  unfold translateExecveExit
  dsimp only
  split
  · rfl
  split
  · rfl
  cases result with
  | error status =>
      dsimp only
      split <;> rfl
  | ok value =>
      dsimp only
      unfold ExecSys.newHeap
      dsimp only
      split <;> split <;> rfl

/-- What follows for a program that the loader loads. -/
theorem goesOn_iff {sys : ExecSys} {info : LoadInfo} (hskip : sys.tracee.skipProotLoader = false)
    (hinfo : sys.tracee.loadInfo = some info) :
    GoesOn K call sys ↔ info.mappings.getD [] ≠ [] := by
  constructor
  · intro h
    obtain ⟨info', hinfo', hscript⟩ := h.script hskip
    obtain rfl := Option.some.inj (hinfo.symm.trans hinfo')
    exact transferLoadScript_isSome_iff.mp (hscript ⟨0, false, false, false⟩)
  · intro h
    refine ⟨fun _ => ⟨info, hinfo, fun _ => transferLoadScript_isSome_iff.mpr h⟩, ?_⟩
    intro result
    dsimp only
    rw [translateExecveExit_loadInfo, hinfo]
    exact brksGoThrough_of_mapping _ h

/-- The heap of a runner is disabled. -/
theorem goesOn_runner {sys : ExecSys} (hskip : sys.tracee.skipProotLoader = true)
    (hheap : (sys.heaps sys.tracee.heap).disabled = true) : GoesOn K call sys := by
  constructor
  · intro hno
    rw [hskip] at hno
    cases hno
  · intro result
    have hexit : (translateExecveExit K call result sys).1 =
        { sys with tracee := { sys.tracee with auxvFd := -1, seenExecve := true } } := by
      rw [translateExecveExit]
      dsimp only
      rw [if_pos hskip]
    dsimp only
    rw [hexit]
    exact brksGoThrough_of_known (.inl hheap)

/-- What is collected is laid out, and the loader is found. -/
theorem describe_collected {qemu : Bool} {hostPath userPath : CStr} {rawPath : Option CStr}
    {info : LoadInfo}
    (hcollect : collectLoadInfo K qemu hostPath userPath rawPath .zero = .ok () info)
    (hroom : K.allocates .loadInfo = true) :
    describe K call qemu hostPath userPath rawPath =
      (computeLoadAddresses K info).map fun loadInfo => (some loadInfo,
        match K.loaderPath (K.hasLoader32bit && loadInfo.elfHeader.isClass32) with
        | none => .error .ENOENT
        | some loaderPath => call.setSysargPath loaderPath) := by
  unfold describe
  rw [hroom, hcollect]
  rfl

/-- What is collected goes on if the files have segments. -/
theorem goesOn_describe_iff {tracee : ExecTracee} {sys : ExecSys} {qemu : Bool}
    {hostPath userPath : CStr} {rawPath : Option CStr} {info : LoadInfo}
    (hskip : tracee.skipProotLoader = false)
    (hcollect : collectLoadInfo K qemu hostPath userPath rawPath .zero = .ok () info)
    (hroom : K.allocates .loadInfo = true) :
    (match describe K call qemu hostPath userPath rawPath with
      | none => False
      | some (_, .error _) => True
      | some (loadInfo, .ok _) => GoesOn K call
          { sys with tracee := { tracee with loadInfo, ignoreLoaderSyscalls := true } }) ↔
      HasSegments K call qemu hostPath := by
  have hcollected := collectLoadInfo_collected hcollect
  rw [describe_collected hcollect hroom]
  have hnil := hcollected.program.mappings_eq_nil_iff
  cases hplace : computeLoadAddresses K info with
  | none =>
      rw [Option.map_none]
      refine ⟨False.elim, fun h => ?_⟩
      rcases computeLoadAddresses_eq_none_iff.mp hplace with ⟨hpic, hnone⟩ | ⟨interp, hinterp, hpic, hnone⟩
      · rw [hcollected.program.elfHeader] at hpic
        exact h.program (.inl hpic) (hnil.mp hnone)
      · cases hpath : interpreterAt K qemu hostPath with
        | none =>
            rw [hcollected.noInterp hpath] at hinterp
            cases hinterp
        | some path =>
            obtain ⟨interp', hinterp', hdescribes⟩ := hcollected.interp path hpath
            obtain rfl := Option.some.inj (hinterp.symm.trans hinterp')
            rw [hdescribes.elfHeader] at hpic
            exact h.interp path hpath hpic (hdescribes.mappings_eq_nil_iff.mp hnone)
  | some placed =>
      obtain ⟨hsame, hclass⟩ := computeLoadAddresses_keeps hplace
      have hplaceable : ¬ _ := fun h => by
        rw [computeLoadAddresses_eq_none_iff.mpr h] at hplace
        cases hplace
      have hinterp : ∀ path, interpreterAt K qemu hostPath = some path →
          (headerAt K path).isPositionIndependent → segmentsAt K path ≠ [] := by
        intro path hpath hpic hnone
        obtain ⟨interp, hinterp, hdescribes⟩ := hcollected.interp path hpath
        apply hplaceable
        refine .inr ⟨interp, hinterp, ?_, hdescribes.mappings_eq_nil_iff.mpr hnone⟩
        rwa [hdescribes.elfHeader]
      have hpic : (headerAt K hostPath).isPositionIndependent → segmentsAt K hostPath ≠ [] := by
        intro hpic hnone
        apply hplaceable
        rw [hcollected.program.elfHeader]
        exact .inl ⟨hpic, hnil.mpr hnone⟩
      rw [Option.map_some, hclass, hcollected.program.elfHeader]
      cases hloader : K.loaderPath (K.hasLoader32bit && (headerAt K hostPath).isClass32) with
      | none =>
          refine ⟨fun _ => ⟨?_, hinterp⟩, fun _ => trivial⟩
          rintro (hyes | ⟨loaderPath, hpath, -⟩)
          · exact hpic hyes
          · rw [hloader] at hpath
            cases hpath
      | some loaderPath =>
          dsimp only
          cases hset : call.setSysargPath loaderPath with
          | error status =>
              refine ⟨fun _ => ⟨?_, hinterp⟩, fun _ => trivial⟩
              rintro (hyes | ⟨loaderPath', hpath, hready⟩)
              · exact hpic hyes
              · rw [hloader] at hpath
                obtain rfl := Option.some.inj hpath
                rw [hset] at hready
                cases hready
          | ok value =>
              dsimp only
              rw [goesOn_iff hskip rfl, ne_eq, hsame, hnil]
              refine ⟨fun hsome => ⟨fun _ => hsome, hinterp⟩, fun h => ?_⟩
              exact h.program (.inr ⟨loaderPath, hloader, hset⟩)

/-- A heap that is disabled or set up is so after the enter stage. -/
theorem translateExecveEnter_known {sys sys' : ExecSys} {answer : Except Errno Unit}
    (h : translateExecveEnter K call sys = .status answer sys')
    (hknown : (sys.heaps sys.tracee.heap).disabled = true ∨ (sys.heaps sys.tracee.heap).base ≠ 0) :
    (sys'.heaps sys'.tracee.heap).disabled = true ∨ (sys'.heaps sys'.tracee.heap).base ≠ 0 := by
  unfold translateExecveEnter at h
  split at h
  · cases h
    exact hknown
  cases hexpand : expandProgram K call sys.tracee with
  | mk tracee program =>
      obtain ⟨newExe, hostExe, skip, rfl⟩ := expandProgram_keeps hexpand
      rw [hexpand] at h
      cases program with
      | error status =>
          cases h
          exact hknown
      | ok program =>
          obtain ⟨hostPath, userPath, rawPath⟩ := program
          dsimp only at h
          split at h
          · cases h
            left
            simp [ExecSys.disableHeap, ExecSys.setLoadInfo]
          · rw [enterLoader_eq] at h
            split at h <;> cases h <;> exact hknown

/-- **Accepted files have mappings** exactly when their segments are there.  After an execution
that failed, the heap of the program that goes on is not looked for if it was set up or
disabled before. -/
theorem mappings_exist_iff (K : ExecHost) (call : ExecCall) (sys : ExecSys) :
    (MappingsExist K call sys ↔ SegmentsPresent K call sys) ∧
      ∀ status sys', translateExecveEnter K call sys = .status (.error status) sys' →
        (sys.heaps sys.tracee.heap).disabled = true ∨ (sys.heaps sys.tracee.heap).base ≠ 0 →
        BrksGoThrough sys'.tracee.loadInfo (sys'.heaps sys'.tracee.heap) := by
  refine ⟨?_, fun status sys' h hknown =>
    brksGoThrough_of_known (translateExecveEnter_known h hknown)⟩
  unfold MappingsExist SegmentsPresent translateExecveEnter
  cases hdone : isLoadDone call sys.tracee with
  | true =>
      rw [if_pos rfl]
      refine iff_of_true (.inl rfl) ?_
      intro _ _ _ _ _ hno
      cases hno
  | false =>
      rw [if_neg Bool.false_ne_true]
      cases hexpand : expandProgram K call sys.tracee with
      | mk tracee program =>
          cases program with
          | error status =>
              refine iff_of_true trivial ?_
              intro _ _ _ _ _ _ h
              cases h
          | ok program =>
              obtain ⟨hostPath, userPath, rawPath⟩ := program
              dsimp only
              cases hskip : tracee.skipProotLoader with
              | true =>
                  refine iff_of_true ?_ ?_
                  · rw [if_pos rfl, enterRunner]
                    cases call.setSysargPath hostPath with
                    | error status => trivial
                    | ok value =>
                        refine .inr (goesOn_runner hskip ?_)
                        simp [ExecSys.disableHeap, ExecSys.setLoadInfo]
                  · intro tracee' _ _ _ _ _ h hno
                    cases h
                    rw [hskip] at hno
                    cases hno
              | false =>
                  rw [if_neg Bool.false_ne_true, enterLoader_eq]
                  -- Nothing is collected where there is no room, or the file is refused.
                  by_cases hroom : K.allocates .loadInfo = true
                  case neg =>
                    refine iff_of_true ?_ ?_
                    · rw [describe, if_pos (by simpa using hroom)]
                      trivial
                    · intro _ _ _ _ _ _ _ _ hyes
                      exact absurd hyes hroom
                  cases hcollect : collectLoadInfo K tracee.qemu.isSome hostPath userPath rawPath
                      .zero with
                  | error status info =>
                      refine iff_of_true ?_ ?_
                      · rw [describe, hroom, hcollect]
                        trivial
                      · intro _ _ _ _ info' _ h _ _ hcollect'
                        cases h
                        rw [hcollect] at hcollect'
                        cases hcollect'
                  | ok value info =>
                      have hgoes := @goesOn_describe_iff K call tracee sys _ _ _ _ _ hskip hcollect hroom
                      constructor
                      · intro h tracee' hostPath' userPath' rawPath' info' _ hsame _ _ hcollect'
                        cases hsame
                        apply hgoes.mp
                        revert h
                        dsimp only
                        cases describe K call tracee.qemu.isSome hostPath userPath rawPath with
                        | none => exact id
                        | some described =>
                            obtain ⟨loadInfo, answer⟩ := described
                            cases answer with
                            | error status => exact fun _ => trivial
                            | ok value => exact fun h => h.resolve_left Bool.false_ne_true
                      · intro h
                        have hhas := hgoes.mpr
                          (h tracee hostPath userPath rawPath info rfl rfl hskip hroom hcollect)
                        revert hhas
                        dsimp only
                        cases describe K call tracee.qemu.isSome hostPath userPath rawPath with
                        | none => exact id
                        | some described =>
                            obtain ⟨loadInfo, answer⟩ := described
                            cases answer with
                            | error status => exact fun _ => trivial
                            | ok value => exact fun h => .inr h

end

/-- A shared object without a program header. -/
def sharedObject : List (BitVec 8) :=
  [0x7f, 0x45, 0x4c, 0x46, 2, 1, 1, 0, 0, 0, 0, 0, 0, 0, 0, 0,
    3, 0, 183, 0, 1, 0, 0, 0, 0, 0, 0, 0, 0, 0, 0, 0,
    0, 0, 0, 0, 0, 0, 0, 0, 0, 0, 0, 0, 0, 0, 0, 0,
    0, 0, 0, 0, 64, 0, 56, 0, 0, 0, 0, 0, 0, 0, 0, 0]

/-- The execution of a shared object without a segment crashes PRoot. -/
theorem mappings_missing : ¬ MappingsExist
    { hostOfNotes with openFile := fun _ => .ok ⟨.ok sharedObject, 2 ^ 40⟩ }
    execveNotes sysOfShell := by
  have hcrash : (match translateExecveEnter
      { hostOfNotes with openFile := fun _ => .ok ⟨.ok sharedObject, 2 ^ 40⟩ }
      execveNotes sysOfShell with
    | .crash => true
    | .status _ _ => false) = true := by
    decide
  intro h
  unfold MappingsExist at h
  split at hcrash
  case h_1 heq =>
    rw [heq] at h
    exact h
  case h_2 => cases hcrash

end PRoot
