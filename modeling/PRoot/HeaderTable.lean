import PRoot.MissingMappings

/-!
# The program headers in memory

The load script tells a program where its own program headers are.  It takes the address of the
first mapping for that of the start of the file.

* `CoversTable`: a segment has all the program headers of its file;
* `AtPhdrRight`: the program is told where such a segment was mapped;
* `FirstSegmentFits`: such a segment lies as if the file were mapped at the first one;
* `at_phdr_iff`: the one is the other.
-/

namespace PRoot

section

variable (K : ExecHost)

/-- The `PT_LOAD` segments that the program headers of a file list, visited or not. -/
def listedAt (hostPath : CStr) : List ProgramHeader :=
  match K.openFile hostPath with
  | .error _ => []
  | .ok file =>
      let header := headerAt K hostPath
      (headersFrom file header.phentsize.toNat header.phnum.toNat header.phoff.toNat).filter
        fun programHeader => programHeader.type header = 1

/-- A segment covers the program header table. -/
def CoversTable (header : ElfHeader) (segment : ProgramHeader) : Prop :=
  (segment.offset header).toNat ≤ header.phoff.toNat ∧
    header.phoff.toNat + header.phnum.toNat * header.phentsize.toNat ≤
      (segment.offset header).toNat + (segment.filesz header).toNat

/-- The mappings of a file, all of them moved by the same distance. -/
def IsPlaced (hostPath : CStr) (placed : LoadInfo) (bias : BitVec 64) : Prop :=
  placed.mappings.getD [] =
    ((segmentsAt K hostPath).flatMap (mappingsOf K (headerAt K hostPath))).map fun mapping =>
      { mapping with addr := K.word (mapping.addr + bias) }

/-- Where the program header table is, if a segment that covers it is moved by a distance. -/
def tableAddress (hostPath : CStr) (segment : ProgramHeader) (bias : BitVec 64) : BitVec 64 :=
  let header := headerAt K hostPath
  let mapping := fileMapping K header segment
  K.word (mapping.addr + bias + (header.phoff - mapping.offset))

/-- The `AT_PHDR` that a statement gives to the program. -/
def LoadStatement.givesPhdr : LoadStatement → Option (BitVec 64)
  | .LOAD_ACTION_START_TRACED _ _ atPhdr _ _ _ _ | .LOAD_ACTION_START _ _ atPhdr _ _ _ _ =>
      some atPhdr
  | _ => none

/-- The `AT_PHDR` of a load script, given by its last statement. -/
def scriptPhdr (tracee : ScriptTracee) (info : LoadInfo) : Option (BitVec 64) :=
  (loadStatements K tracee info).bind fun statements =>
    statements.getLast?.bind LoadStatement.givesPhdr

/-- **`AT_PHDR` is right**: it is where a segment that covers the program header table has it. -/
def AtPhdrRight (hostPath : CStr) (tracee : ScriptTracee) (placed : LoadInfo) : Prop :=
  (∃ segment ∈ listedAt K hostPath, CoversTable (headerAt K hostPath) segment) →
    ∃ bias, IsPlaced K hostPath placed bias ∧ ∃ segment ∈ segmentsAt K hostPath,
      CoversTable (headerAt K hostPath) segment ∧
        scriptPhdr K tracee placed = some (tableAddress K hostPath segment bias)

/-- **The first segment fits**: a segment that covers the program header table is as far from
the first one as its part of the file is from the start of the file. -/
def FirstSegmentFits (hostPath : CStr) : Prop :=
  (∃ segment ∈ listedAt K hostPath, CoversTable (headerAt K hostPath) segment) →
    ∃ first rest, segmentsAt K hostPath = first :: rest ∧ ∃ segment ∈ segmentsAt K hostPath,
      CoversTable (headerAt K hostPath) segment ∧
        K.word ((segment.vaddr (headerAt K hostPath) &&& K.pageMask)
          - (segment.offset (headerAt K hostPath) &&& K.pageMask)) =
        K.word (first.vaddr (headerAt K hostPath) &&& K.pageMask)

end

/-! ## Words -/

section

variable {K : ExecHost}

/-- Words are equal when their low halves are, on 32-bit hosts. -/
theorem ExecHost.word_eq_iff {a b : BitVec 64} :
    K.word a = K.word b ↔ a.setWidth (8 * K.host.word) = b.setWidth (8 * K.host.word) := by
  have hmask : (0xFFFFFFFF : BitVec 64).toNat = 2 ^ 32 - 1 := rfl
  unfold ExecHost.word
  cases K.host <;> simp only [Host.word, if_true, if_false, Nat.reduceMul,
    Nat.reduceEqDiff, ← BitVec.toNat_inj, BitVec.toNat_and, BitVec.toNat_setWidth, hmask,
    Nat.and_two_pow_sub_one_eq_mod, BitVec.toNat_mod_cancel]

theorem ExecHost.word_setWidth (a : BitVec 64) :
    (K.word a).setWidth (8 * K.host.word) = a.setWidth (8 * K.host.word) := by
  have hmask : (0xFFFFFFFF : BitVec 64).toNat = 2 ^ 32 - 1 := rfl
  unfold ExecHost.word
  cases K.host <;> simp only [Host.word, if_true, if_false, Nat.reduceMul,
    Nat.reduceEqDiff, ← BitVec.toNat_inj, BitVec.toNat_and, BitVec.toNat_setWidth, hmask,
    Nat.and_two_pow_sub_one_eq_mod, Nat.mod_mod]

theorem word_bits_le (host : Host) : 8 * host.word ≤ 64 := by cases host <;> decide

theorem ExecHost.setWidth_add (a b : BitVec 64) :
    (a + b).setWidth (8 * K.host.word) =
      a.setWidth (8 * K.host.word) + b.setWidth (8 * K.host.word) :=
  BitVec.setWidth_add a b (word_bits_le K.host)

theorem ExecHost.setWidth_sub (a b : BitVec 64) :
    (a - b).setWidth (8 * K.host.word) =
      a.setWidth (8 * K.host.word) - b.setWidth (8 * K.host.word) := by
  have h := K.setWidth_add (a - b) b
  rw [BitVec.sub_add_cancel] at h
  rw [h, BitVec.add_sub_cancel]

/-! ## Where a program is placed -/

theorem fieldAt_congr {bytes bytes' : List (BitVec 8)} {offset size : Nat}
    (h : ∀ i, offset ≤ i → i < offset + size → bytes[i]? = bytes'[i]?) :
    fieldAt bytes offset size = fieldAt bytes' offset size := by
  have hslice : (bytes.drop offset).take size = (bytes'.drop offset).take size := by
    apply List.ext_getElem?
    intro i
    rw [List.getElem?_take, List.getElem?_take]
    split
    · rw [List.getElem?_drop, List.getElem?_drop]
      exact h _ (by omega) (by omega)
    · rfl
  rw [fieldAt, fieldAt, hslice]

/-- The place of the program header table stays where a program is loaded. -/
theorem ElfHeader.addEntry_phoff (header : ElfHeader) (base : BitVec 64) :
    (header.addEntry base).phoff = header.phoff := by
  have hbyte : ∀ i, (if header.isClass64 then 32 else 28) ≤ i →
      (header.addEntry base).bytes.toList[i]? = header.bytes.toList[i]? := by
    intro i hi
    rw [Vector.getElem?_toList, Vector.getElem?_toList, addEntry]
    by_cases hlt : i < 64
    · have hafter : ¬ (24 ≤ i ∧ i < 24 + if header.isClass64 then 8 else 4) := by
        by_cases hclass : header.isClass64 = true
        · rw [if_pos hclass] at hi ⊢
          omega
        · rw [if_neg hclass] at hi ⊢
          omega
      rw [Vector.getElem?_eq_getElem hlt, Vector.getElem?_eq_getElem hlt, Vector.getElem_ofFn]
      exact congrArg some (if_neg hafter)
    · rw [Vector.getElem?_eq_none (by omega), Vector.getElem?_eq_none (by omega)]
  have hclass : (header.addEntry base).isClass64 = header.isClass64 := by
    have hbefore : ¬ (24 ≤ 4 ∧ 4 < 24 + if header.isClass64 then 8 else 4) := by omega
    rw [isClass64, isClass64, ident_eq _ (by decide), ident_eq _ (by decide), addEntry,
      Vector.getElem_ofFn, if_neg hbefore]
    rfl
  rw [phoff, phoff, field, field, hclass]
  split
  case isTrue h =>
    apply fieldAt_congr
    intro i hi _
    exact hbyte i (by rw [if_pos h]; exact hi)
  case isFalse h =>
    apply fieldAt_congr
    intro i hi _
    exact hbyte i (by rw [if_neg h]; exact hi)

theorem computeLoadAddresses_placed {info placed : LoadInfo}
    (h : computeLoadAddresses K info = some placed) :
    ∃ base program, info.place K base = some program ∧ placed.mappings = program.mappings ∧
      placed.elfHeader = program.elfHeader := by
  unfold computeLoadAddresses at h
  dsimp only at h
  cases hplace : info.place K (K.execPicAddress (K.hasLoader32bit && info.elfHeader.isClass32)) with
  | none =>
      rw [hplace] at h
      cases h
  | some program =>
      refine ⟨_, program, hplace, ?_⟩
      rw [hplace] at h
      dsimp only at h
      split at h
      · obtain rfl := Option.some.inj h
        exact ⟨rfl, rfl⟩
      · split at h
        · cases h
        · obtain rfl := Option.some.inj h
          exact ⟨rfl, rfl⟩

theorem word_word (a : BitVec 64) : K.word (K.word a) = K.word a := by
  rw [ExecHost.word_eq_iff, ExecHost.word_setWidth]

/-- The addresses of mappings are words. -/
theorem mappingsOf_addr {header : ElfHeader} {segment : ProgramHeader} {mapping : Mapping}
    (h : mapping ∈ mappingsOf K header segment) : K.word (mapping.addr + 0#64) = mapping.addr := by
  rw [BitVec.add_zero]
  unfold mappingsOf at h
  rcases List.mem_cons.mp h with rfl | h
  · exact word_word _
  · split at h
    · obtain rfl := List.mem_singleton.mp h
      exact word_word _
    · cases h

/-- A program is moved as a whole. -/
theorem isPlaced_of_describes {hostPath : CStr} {info placed : LoadInfo}
    (hdescribes : Describes K hostPath info) (h : computeLoadAddresses K info = some placed) :
    placed.elfHeader.phoff = (headerAt K hostPath).phoff ∧
      ∃ bias, IsPlaced K hostPath placed bias := by
  obtain ⟨base, program, hplace, hmappings, hheader⟩ := computeLoadAddresses_placed h
  unfold IsPlaced
  rw [hheader, hmappings, ← hdescribes.elfHeader, hdescribes.elfHeader, ← hdescribes.mappings]
  obtain rfl | rfl := LoadInfo.place_inv hplace
  · refine ⟨by rw [hdescribes.elfHeader], 0, ?_⟩
    rw [hdescribes.mappings]
    symm
    apply (List.map_congr_left _).trans (List.map_id _)
    intro mapping hmem
    obtain ⟨segment, -, hof⟩ := List.mem_flatMap.mp hmem
    exact congrArg (fun addr => { mapping with addr }) (mappingsOf_addr hof)
  · refine ⟨?_, base, LoadInfo.addLoadBase_mappings base info⟩
    rw [← hdescribes.elfHeader]
    exact ElfHeader.addEntry_phoff _ _

/-! ## The program header table -/

/-- What a program is told, wherever it is moved. -/
theorem atPhdr_eq {hostPath : CStr} {placed : LoadInfo} {bias : BitVec 64} {first : ProgramHeader}
    {rest : List ProgramHeader} (hplaced : IsPlaced K hostPath placed bias)
    (hphoff : placed.elfHeader.phoff = (headerAt K hostPath).phoff)
    (hsegments : segmentsAt K hostPath = first :: rest) :
    atPhdr K placed = some (K.word ((headerAt K hostPath).phoff
      + K.word ((fileMapping K (headerAt K hostPath) first).addr + bias))) := by
  rw [IsPlaced, hsegments, List.flatMap_cons, mappingsOf, List.cons_append, List.map_cons] at hplaced
  unfold atPhdr
  cases hmappings : placed.mappings with
  | none =>
      rw [hmappings] at hplaced
      cases hplaced
  | some mappings =>
      rw [hmappings, Option.getD_some] at hplaced
      rw [hplaced, hphoff]

/-- It is right for a segment that lies as the first one does. -/
theorem tableAddress_eq_iff {hostPath : CStr} {first segment : ProgramHeader} {bias : BitVec 64} :
    K.word ((headerAt K hostPath).phoff
        + K.word ((fileMapping K (headerAt K hostPath) first).addr + bias)) =
      tableAddress K hostPath segment bias ↔
    K.word ((segment.vaddr (headerAt K hostPath) &&& K.pageMask)
        - (segment.offset (headerAt K hostPath) &&& K.pageMask)) =
      K.word (first.vaddr (headerAt K hostPath) &&& K.pageMask) := by
  rw [tableAddress, ExecHost.word_eq_iff, ExecHost.word_eq_iff]
  simp only [fileMapping, ExecHost.setWidth_add, ExecHost.setWidth_sub, ExecHost.word_setWidth]
  generalize ((headerAt K hostPath).phoff).setWidth _ = phoff
  generalize (first.vaddr (headerAt K hostPath) &&& K.pageMask).setWidth _ = a
  generalize (segment.vaddr (headerAt K hostPath) &&& K.pageMask).setWidth _ = b
  generalize (segment.offset (headerAt K hostPath) &&& K.pageMask).setWidth _ = c
  generalize bias.setWidth _ = d
  constructor
  · intro h
    have hsum : a + (phoff + d) = b - c + (phoff + d) := by
      calc a + (phoff + d) = phoff + (a + d) := by ac_rfl
        _ = b + d + (phoff - c) := h
        _ = b - c + (phoff + d) := by
            rw [BitVec.sub_eq_add_neg, BitVec.sub_eq_add_neg]
            ac_rfl
    exact ((BitVec.add_left_inj _).mp hsum).symm
  · intro h
    rw [← h, BitVec.sub_eq_add_neg, BitVec.sub_eq_add_neg]
    ac_rfl

theorem scriptPhdr_eq (tracee : ScriptTracee) (info : LoadInfo) :
    scriptPhdr K tracee info = atPhdr K info := by
  unfold scriptPhdr loadStatements
  cases atPhdr K info with
  | none => rfl
  | some phdr =>
      rw [Option.map_some, Option.bind_some, List.getLast?_concat, Option.bind_some, startStatement]
      split <;> rfl

/-- **`AT_PHDR` is right** exactly when the first segment fits. -/
theorem at_phdr_iff {qemu : Bool} {hostPath userPath : CStr} {rawPath : Option CStr}
    {info placed : LoadInfo} (tracee : ScriptTracee)
    (haccepted : collectLoadInfo K qemu hostPath userPath rawPath .zero = .ok () info)
    (hplaced : computeLoadAddresses K info = some placed) :
    AtPhdrRight K hostPath tracee placed ↔ FirstSegmentFits K hostPath := by
  have hdescribes := (collectLoadInfo_collected haccepted).program
  obtain ⟨hphoff, bias, hmoved⟩ := isPlaced_of_describes hdescribes hplaced
  unfold AtPhdrRight FirstSegmentFits
  rw [scriptPhdr_eq]
  constructor
  · intro h hlisted
    obtain ⟨bias, hmoved, segment, hmem, hcovers, hphdr⟩ := h hlisted
    obtain ⟨first, rest, hsegments⟩ := List.exists_cons_of_ne_nil (List.ne_nil_of_mem hmem)
    refine ⟨first, rest, hsegments, segment, hmem, hcovers, ?_⟩
    rw [atPhdr_eq hmoved hphoff hsegments] at hphdr
    exact tableAddress_eq_iff.mp (Option.some.inj hphdr)
  · intro h hlisted
    obtain ⟨first, rest, hsegments, segment, hmem, hcovers, hlies⟩ := h hlisted
    refine ⟨bias, hmoved, segment, hmem, hcovers, ?_⟩
    rw [atPhdr_eq hmoved hphoff hsegments]
    exact congrArg some (tableAddress_eq_iff.mpr hlies)

end

/-! ## A program whose header is not in its first segment -/

/-- A program of two segments: the second one starts with the file, at `0x500000`. -/
def lateHeader : List (BitVec 8) :=
  [0x7f, 0x45, 0x4c, 0x46, 2, 1, 1, 0, 0, 0, 0, 0, 0, 0, 0, 0,
    2, 0, 183, 0, 1, 0, 0, 0, 0, 0, 0x40, 0, 0, 0, 0, 0,
    64, 0, 0, 0, 0, 0, 0, 0, 0, 0, 0, 0, 0, 0, 0, 0,
    0, 0, 0, 0, 64, 0, 56, 0, 2, 0, 0, 0, 0, 0, 0, 0,
    -- `PT_LOAD` of `0x1000` bytes from `0x1000`, at `0x400000`,
    1, 0, 0, 0, 5, 0, 0, 0, 0, 0x10, 0, 0, 0, 0, 0, 0,
    0, 0, 0x40, 0, 0, 0, 0, 0, 0, 0, 0x40, 0, 0, 0, 0, 0,
    0, 0x10, 0, 0, 0, 0, 0, 0, 0, 0x10, 0, 0, 0, 0, 0, 0, 0, 0x10, 0, 0, 0, 0, 0, 0,
    -- and of `0x1000` bytes from `0`, at `0x500000`.
    1, 0, 0, 0, 4, 0, 0, 0, 0, 0, 0, 0, 0, 0, 0, 0,
    0, 0, 0x50, 0, 0, 0, 0, 0, 0, 0, 0x50, 0, 0, 0, 0, 0,
    0, 0x10, 0, 0, 0, 0, 0, 0, 0, 0x10, 0, 0, 0, 0, 0, 0, 0, 0x10, 0, 0, 0, 0, 0, 0]

/-- A host where every file is that program. -/
def hostOfLateHeader : ExecHost :=
  { hostOfNotes with openFile := fun _ => .ok ⟨.ok lateHeader, 2 ^ 40⟩ }

/-- The segments of that program. -/
theorem segmentsAt_lateHeader :
    segmentsAt hostOfLateHeader "/a".toList =
        [(lateHeader.drop 64).take 56, (lateHeader.drop 120).take 56] ∧
      listedAt hostOfLateHeader "/a".toList =
        [(lateHeader.drop 64).take 56, (lateHeader.drop 120).take 56] := by
  decide

/-- Where its mappings are, and what its load script gives. -/
theorem lateHeader_collected :
    (match collectLoadInfo hostOfLateHeader false "/a".toList "/a".toList none .zero with
      | .error _ _ => none
      | .ok _ info => (computeLoadAddresses hostOfLateHeader info).map fun placed =>
          ((placed.mappings.getD []).map (·.addr),
            scriptPhdr hostOfLateHeader ⟨0x7ffff0, false, false, false⟩ placed)) =
      some ([0x400000, 0x500000], some 0x400040) := by
  decide

theorem lateHeader_script : ∃ info placed,
    collectLoadInfo hostOfLateHeader false "/a".toList "/a".toList none .zero = .ok () info ∧
      computeLoadAddresses hostOfLateHeader info = some placed ∧
      (placed.mappings.getD []).map (·.addr) = [0x400000, 0x500000] ∧
      scriptPhdr hostOfLateHeader ⟨0x7ffff0, false, false, false⟩ placed = some 0x400040 := by
  have hall := lateHeader_collected
  split at hall
  · cases hall
  case h_2 info hcollect =>
    obtain ⟨placed, hplaced, hvalues⟩ := Option.map_eq_some_iff.mp hall
    obtain ⟨haddr, hphdr⟩ := Prod.mk.inj hvalues
    exact ⟨info, placed, hcollect, hplaced, haddr, hphdr⟩

/-- Its `AT_PHDR` is right if its first segment fits. -/
theorem at_phdr_iff_lateHeader : ∃ placed,
    AtPhdrRight hostOfLateHeader "/a".toList ⟨0x7ffff0, false, false, false⟩ placed ↔
      FirstSegmentFits hostOfLateHeader "/a".toList := by
  obtain ⟨info, placed, hcollect, hplaced, -, -⟩ := lateHeader_script
  exact ⟨placed, at_phdr_iff ⟨0x7ffff0, false, false, false⟩ hcollect hplaced⟩

/-- The program is told an address in its first segment, but its header is in the second one. -/
theorem at_phdr_wrong : ∃ info placed,
    collectLoadInfo hostOfLateHeader false "/a".toList "/a".toList none .zero = .ok () info ∧
      computeLoadAddresses hostOfLateHeader info = some placed ∧
      ¬ AtPhdrRight hostOfLateHeader "/a".toList ⟨0x7ffff0, false, false, false⟩ placed := by
  obtain ⟨info, placed, hcollect, hplaced, haddr, hphdr⟩ := lateHeader_script
  obtain ⟨hsegments, hlisted⟩ := segmentsAt_lateHeader
  refine ⟨info, placed, hcollect, hplaced, ?_⟩
  intro hright
  have hcovers : CoversTable (headerAt hostOfLateHeader "/a".toList)
      ((lateHeader.drop 120).take 56) := by
    constructor <;> decide
  obtain ⟨bias, hmoved, segment, hmem, hcovers, hvalue⟩ :=
    hright ⟨_, by rw [hlisted]; exact List.mem_cons_of_mem _ (List.mem_singleton_self _), hcovers⟩
  have hbias : bias = 0 := by
    have haddrs : (placed.mappings.getD []).map (·.addr) = [0x400000 + bias, 0x500000 + bias] := by
      rw [hmoved, hsegments]
      rfl
    rw [haddr] at haddrs
    have hfirst : (0x400000 : BitVec 64) = 0x400000 + bias := (List.cons.inj haddrs).1
    have hsum : (0x400000 : BitVec 64) + 0 = 0x400000 + bias := hfirst
    exact ((BitVec.add_right_inj _).mp hsum).symm
  rw [hsegments] at hmem
  rw [hphdr, hbias] at hvalue
  rcases List.mem_cons.mp hmem with rfl | hmem
  · have hoffset : ¬ (ProgramHeader.offset (headerAt hostOfLateHeader "/a".toList)
        ((lateHeader.drop 64).take 56)).toNat ≤
        (headerAt hostOfLateHeader "/a".toList).phoff.toNat := by
      decide
    exact hoffset hcovers.1
  · obtain rfl := List.mem_singleton.mp hmem
    have hnot : some 0x400040 ≠ some (tableAddress hostOfLateHeader "/a".toList
        ((lateHeader.drop 120).take 56) 0) := by
      decide
    exact hnot hvalue

end PRoot
