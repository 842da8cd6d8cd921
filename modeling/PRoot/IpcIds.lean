import PRoot.IpcRuns

/-!
# The ids of System V IPC objects

An id packs a place, in its low 12 bits, and a generation, as a signed `int`.  So it
serves only for the first 4095 places of an array, and while the generation of the
slot is not negative.

* `Roomy`: a call that creates an object does so in such a slot;
* `idsValid_iff`: the ids are valid and unambiguous exactly in the runs where all
  calls do;
* `idsValid_fails`: the 4096th queue gets an id that does not lead to it.
-/

namespace PRoot

/-- A slot whose id can be looked up. -/
def Encodable (i : Nat) (generation : BitVec 16) : Prop := i < 4095 ∧ generation.toNat < 2 ^ 15

variable {i : Nat}

/-- The id is the place and the generation, side by side. -/
theorem ipcObjectId_toNat {generation : BitVec 16} (h : Encodable i generation) :
    (ipcObjectId i generation).toNat = generation.toNat * 4096 + (i + 1) := by
  obtain ⟨hi, hg⟩ := h
  have hmsb : generation.msb = false := by
    rw [BitVec.msb_eq_false_iff_two_mul_lt]
    omega
  have hshift : (generation.signExtend 32 <<< 12).toNat = generation.toNat <<< 12 := by
    have hmod : generation.toNat % 2 ^ 32 = generation.toNat := Nat.mod_eq_of_lt (by omega)
    rw [BitVec.signExtend_eq_setWidth_of_msb_false hmsb, BitVec.toNat_shiftLeft,
      BitVec.toNat_setWidth, hmod, Nat.mod_eq_of_lt]
    rw [Nat.shiftLeft_eq]
    omega
  rw [ipcObjectId, BitVec.toNat_or, hshift, BitVec.toNat_ofNat, Nat.mod_eq_of_lt (by omega),
    Nat.or_comm, ← Nat.shiftLeft_add_eq_or_of_lt (by omega), Nat.shiftLeft_eq]

/-- **Looking up an id**: the slot at its place has to be occupied, in its generation. -/
theorem lookup_id {D : Type} {objects : List (IpcObject D)} {arg : BitVec 64}
    {generation : BitVec 16} (h : Encodable i generation)
    (harg : arg.setWidth 32 = ipcObjectId i generation) (hlength : objects.length < 2 ^ 31) :
    lookupIpcObject objects arg =
      if Slot.live objects i = true ∧ Slot.generationAt objects i = generation then .ok i
      else .error .EINVAL := by
  have hid := ipcObjectId_toNat h
  obtain ⟨hi, hg⟩ := h
  have hindex : (ipcObjectId i generation &&& 0xFFF).toInt = i + 1 := by
    have hnat : (ipcObjectId i generation &&& 0xFFF).toNat = i + 1 := by
      rw [BitVec.toNat_and, hid]
      show (generation.toNat * 4096 + (i + 1)) &&& (2 ^ 12 - 1) = i + 1
      rw [Nat.and_two_pow_sub_one_eq_mod]
      omega
    rw [BitVec.toInt_eq_toNat_of_lt (by omega), hnat]
    rfl
  have hgeneration : ((ipcObjectId i generation).sshiftRight 12 &&& 0xFFFF).toInt =
      generation.toNat := by
    have hmsb : (ipcObjectId i generation).msb = false := by
      rw [BitVec.msb_eq_false_iff_two_mul_lt]
      omega
    have hnat : ((ipcObjectId i generation).sshiftRight 12 &&& 0xFFFF).toNat =
        generation.toNat := by
      rw [BitVec.sshiftRight_eq_of_msb_false hmsb, BitVec.toNat_and, BitVec.toNat_ushiftRight, hid,
        Nat.shiftRight_eq_div_pow]
      show (generation.toNat * 4096 + (i + 1)) / 2 ^ 12 &&& (2 ^ 16 - 1) = generation.toNat
      rw [Nat.and_two_pow_sub_one_eq_mod]
      omega
    rw [BitVec.toInt_eq_toNat_of_lt (by omega), hnat]
  have hbound : (BitVec.ofNat 32 objects.length).toInt = objects.length := by
    rw [BitVec.toInt_eq_toNat_of_lt (by rw [BitVec.toNat_ofNat]; omega), BitVec.toNat_ofNat,
      Nat.mod_eq_of_lt (by omega)]
  unfold lookupIpcObject
  simp only [harg, hindex, hgeneration, hbound]
  have hplace : ((i : Int) + 1 - 1).toNat = i := by omega
  have hsigned : generation.toInt = generation.toNat := BitVec.toInt_eq_toNat_of_lt (by omega)
  rw [hplace]
  by_cases hlt : i < objects.length
  · have hget := List.getElem?_eq_getElem hlt
    have hlive : Slot.live objects i = objects[i].valid := by
      rw [Slot.live, hget, Option.any_some]
    have hgen : Slot.generationAt objects i = objects[i].generation := by
      rw [Slot.generationAt, hget, Option.elim_some]
    have hsame : objects[i].generation.toInt = generation.toNat ↔
        objects[i].generation = generation := by
      rw [← hsigned, BitVec.toInt_inj]
    rw [if_neg (by omega), hget, hlive, hgen]
    simp only [ne_eq, hsame]
    by_cases hvalid : objects[i].valid = true
    · by_cases heq : objects[i].generation = generation <;> simp [hvalid, heq]
    · simp [hvalid]
  · have hdead : ¬ Slot.live objects i = true := fun h => hlt (Slot.live_lt h)
    rw [if_pos (by omega), if_neg fun h => hdead h.1]

/-- Only the first 4095 places can be looked up. -/
theorem lookup_place {D : Type} {objects : List (IpcObject D)} {arg : BitVec 64}
    (h : lookupIpcObject objects arg = .ok i) : i < 4095 := by
  have hlt : (arg.setWidth 32 &&& 0xFFF).toNat < 4096 := by
    rw [BitVec.toNat_and]
    exact Nat.lt_of_le_of_lt Nat.and_le_right (by decide)
  have hint := BitVec.toInt_eq_toNat_of_lt (x := arg.setWidth 32 &&& 0xFFF) (by omega)
  unfold lookupIpcObject at h
  simp only [hint] at h
  split at h
  · cases h
  · split at h
    · cases h
    · split at h
      · cases h
      · cases h
        omega

/-- A negative generation makes a negative id. -/
theorem ipcObjectId_sign {generation : BitVec 16} (h : 0 < (ipcObjectId i generation).toInt) :
    generation.toNat < 2 ^ 15 := by
  by_contra hle
  have hmsb : generation.msb = true := by
    rw [BitVec.msb_eq_true_iff_two_mul_ge]
    omega
  have hid : (ipcObjectId i generation).msb = true := by
    rw [ipcObjectId, BitVec.msb_or, BitVec.msb_shiftLeft, BitVec.getMsbD_signExtend]
    simp [hmsb]
  have hneg := BitVec.toInt_neg_iff.mpr (BitVec.msb_eq_true_iff_two_mul_ge.mp hid)
  omega

/-! ## Runs -/

/-- The call creates an object, if it does, in a slot whose id can be looked up. -/
def Roomy (ns : IpcNamespace) (call : IpcCall) : Prop :=
  ∀ kind i, call.asks = some kind → call.place ns = some i →
    Encodable i (Slot.generationAt (ns.objects kind) i)

/-- **Valid ids** throughout a run: no two objects of a kind have the same id; an id
that is returned is positive, and looking it up leads to its object as long as this
is not removed, and nowhere from then on until the generation of the slot has gone
through all its values. -/
def IdsValid (calls : List IpcCall) : Prop :=
  ∀ before call between, before ++ call :: between <+: calls →
    let ns := IpcNamespace.empty.run before
    let ns' := (ns.step call).1
    let ns'' := ns'.run between
    (∀ kind i j, Slot.live (ns''.objects kind) i = true → Slot.live (ns''.objects kind) j = true →
      ipcObjectId i (Slot.generationAt (ns''.objects kind) i) =
        ipcObjectId j (Slot.generationAt (ns''.objects kind) j) → i = j) ∧
    ∀ kind id, call.asks = some kind → (ns.step call).2 = .ok id →
      0 < id.toInt ∧ ∃ i, Slot.live (ns'.objects kind) i = true ∧
        id = ipcObjectId i (Slot.generationAt (ns'.objects kind) i) ∧
        keyAt (ns'.objects kind) i = call.key.setWidth 32 ∧
        ∀ arg : BitVec 64, arg.setWidth 32 = id →
          (Slot.releases i (ns'.objects kind) (ns'.history kind between) = 0 →
            ns''.lookup kind arg = .ok i) ∧
          (Slot.releases i (ns'.objects kind) (ns'.history kind between) ≠ 0 →
            Slot.releases i (ns'.objects kind) (ns'.history kind between) < 2 ^ 16 →
              ns''.lookup kind arg = .error .EINVAL)

/-- All objects are in slots whose ids can be looked up. -/
structure IdInv (objects : List (IpcObject Unit)) : Prop where
  encodable : ∀ i, Slot.live objects i = true → Encodable i (Slot.generationAt objects i)
  length : objects.length ≤ 4096

variable {objects : List (IpcObject Unit)}

theorem IdInv.inj (h : IdInv objects) {j : Nat} (hi : Slot.live objects i = true)
    (hj : Slot.live objects j = true) (heq : ipcObjectId i (Slot.generationAt objects i) =
      ipcObjectId j (Slot.generationAt objects j)) : i = j := by
  have hid := ipcObjectId_toNat (h.encodable i hi)
  have hjd := ipcObjectId_toNat (h.encodable j hj)
  have hi' := (h.encodable i hi).1
  have hj' := (h.encodable j hj).1
  rw [heq] at hid
  omega

theorem GetSpec.encodable {key : BitVec 64} {place : Option Nat}
    {out : List (IpcObject Unit) × Except Errno (BitVec 32)} (h : GetSpec key place objects out)
    (hplace : ∀ i, place = some i → Encodable i (Slot.generationAt objects i))
    (hlive : ∀ i, Slot.live objects i = true → Encodable i (Slot.generationAt objects i)) (i : Nat)
    (hi : Slot.live out.1 i = true) : Encodable i (Slot.generationAt out.1 i) := by
  cases h with
  | refused hnone hsame =>
      rw [hsame.generation]
      exact hlive i ((hsame.live i).symm.trans hi)
  | found hnone hfound hprivate hkey => exact hlive i hi
  | @created j _ hsome hfree hnew hlive' hgeneration hkey =>
      rw [hgeneration]
      by_cases heq : i = j
      · exact heq ▸ hplace j hsome
      · rw [hlive', decide_eq_false heq, Bool.false_or] at hi
        exact hlive i hi

/-- A get call answers with the id of an object of its key. -/
theorem GetSpec.answer {key : BitVec 64} {place : Option Nat}
    {out : List (IpcObject Unit) × Except Errno (BitVec 32)} (h : GetSpec key place objects out)
    {id : BitVec 32} (hid : out.2 = .ok id) : ∃ i, Slot.live out.1 i = true ∧
      id = ipcObjectId i (Slot.generationAt out.1 i) ∧ keyAt out.1 i = key.setWidth 32 := by
  cases h with
  | refused hnone hsame => cases hid
  | @found i hnone hlive hprivate hkey => exact ⟨i, hlive, (Except.ok.inj hid).symm, hkey⟩
  | @created i _ hsome hfree hnew hlive hgeneration hkey =>
      refine ⟨i, by rw [hlive, decide_eq_true rfl, Bool.true_or], ?_, by rw [hkey, if_pos rfl]⟩
      rw [hgeneration]
      exact (Except.ok.inj hid).symm

/-- A get call that creates an object answers with its id. -/
theorem GetSpec.creates {key : BitVec 64} {out : List (IpcObject Unit) × Except Errno (BitVec 32)}
    (h : GetSpec key (some i) objects out) :
    out.2 = .ok (ipcObjectId i (Slot.generationAt objects i)) ∧ Slot.live out.1 i = true ∧
      Slot.generationAt out.1 i = Slot.generationAt objects i := by
  cases h with
  | refused hnone hsame => cases hnone
  | found hnone hlive hprivate hkey => cases hnone
  | created hsome hfree hnew hlive hgeneration hkey =>
      obtain rfl := Option.some.inj hsome
      exact ⟨rfl, by rw [hlive, decide_eq_true rfl, Bool.true_or], hgeneration i⟩

/-- A call keeps them there. -/
theorem IdInv.step {ns : IpcNamespace} {call : IpcCall} (h : ∀ kind, IdInv (ns.objects kind))
    (hroomy : Roomy ns call) (kind : IpcKind) : IdInv ((ns.step call).1.objects kind) := by
  refine ⟨fun j hj => ?_, step_length ns call kind (fun i hi => ((h kind).encodable i hi).1)
    (h kind).length⟩
  cases step_spec ns call with
  | @get k hasks hspec hothers =>
      by_cases hk : kind = k
      · subst hk
        exact hspec.encodable (fun i hi => hroomy kind i hasks hi) (h kind).encodable j hj
      · rw [hothers kind hk] at hj ⊢
        exact (h kind).encodable j hj
  | keep hasks hsame hlength =>
      rw [(hsame kind).generation]
      exact (h kind).encodable j (((hsame kind).live j).symm.trans hj)
  | @remove k i hasks hremoved hothers =>
      by_cases hk : kind = k
      · subst hk
        rw [hremoved.live] at hj
        have hne : j ≠ i := by
          rintro rfl
          simp at hj
        rw [hremoved.generation, if_neg hne]
        exact (h kind).encodable j (by simpa [hne] using hj)
      · rw [hothers kind hk] at hj ⊢
        exact (h kind).encodable j hj

theorem IdInv.empty (kind : IpcKind) : IdInv (IpcNamespace.empty.objects kind) := by
  cases kind <;> exact ⟨fun i hi => (by cases hi), Nat.zero_le _⟩

/-- **The life of an id**, from the state its object is there. -/
theorem IdInv.lookup {ns : IpcNamespace} {kind : IpcKind} {calls : List IpcCall}
    (hlive : Slot.live (ns.objects kind) i = true) (h : IdInv (ns.objects kind))
    (hlater : IdInv ((ns.run calls).objects kind)) {arg : BitVec 64}
    (harg : arg.setWidth 32 = ipcObjectId i (Slot.generationAt (ns.objects kind) i)) :
    (Slot.releases i (ns.objects kind) (ns.history kind calls) = 0 →
      (ns.run calls).lookup kind arg = .ok i) ∧
    (Slot.releases i (ns.objects kind) (ns.history kind calls) ≠ 0 →
      Slot.releases i (ns.objects kind) (ns.history kind calls) < 2 ^ 16 →
        (ns.run calls).lookup kind arg = .error .EINVAL) := by
  have hevolves := evolvesAlong_history ns kind calls
  have hlatest := latest_history ns kind calls
  rw [IpcNamespace.lookup_eq, lookup_id (h.encodable i hlive) harg
    (Nat.lt_of_le_of_lt hlater.length (by decide))]
  rw [← hlatest]
  constructor
  · intro hnone
    have hgeneration := Slot.generationAt_history hevolves i
    rw [hnone, BitVec.add_zero] at hgeneration
    exact if_pos ⟨Slot.live_history hlive hnone, hgeneration⟩
  · intro hsome hfew
    exact if_neg fun hcontra => Slot.generationAt_ne hevolves hsome hfew hcontra.2

/-- Where the ids of a run are valid, its calls are roomy. -/
theorem roomy_of_idsValid {calls : List IpcCall} (hvalid : IdsValid calls) {before : List IpcCall}
    {call : IpcCall} (hbefore : before ++ [call] <+: calls) :
    Roomy (IpcNamespace.empty.run before) call := by
  intro kind i hasks hplace
  obtain ⟨hinj, hget⟩ := hvalid before call [] hbefore
  have hcreates : ((IpcNamespace.empty.run before).step call).2 = .ok (ipcObjectId i
        (Slot.generationAt ((IpcNamespace.empty.run before).objects kind) i)) ∧
      Slot.live (((IpcNamespace.empty.run before).step call).1.objects kind) i = true ∧
      Slot.generationAt (((IpcNamespace.empty.run before).step call).1.objects kind) i =
        Slot.generationAt ((IpcNamespace.empty.run before).objects kind) i := by
    cases step_spec (IpcNamespace.empty.run before) call with
    | get hasks' hspec hothers =>
        obtain rfl := Option.some.inj (hasks.symm.trans hasks')
        rw [hplace] at hspec
        exact hspec.creates
    | keep hasks' => rw [hasks'] at hasks; cases hasks
    | remove hasks' => rw [hasks'] at hasks; cases hasks
  obtain ⟨hresult, hlive, hgeneration⟩ := hcreates
  obtain ⟨hpos, j, hjlive, hid, -, hlookup⟩ := hget kind _ hasks hresult
  obtain rfl : i = j := by
    refine hinj kind i j hlive hjlive ?_
    show ipcObjectId i (Slot.generationAt
      (((IpcNamespace.empty.run before).step call).1.objects kind) i) = _
    rw [hgeneration]
    exact hid
  have hfound := (hlookup ((ipcObjectId i (Slot.generationAt
    ((IpcNamespace.empty.run before).objects kind) i)).setWidth 64) (by simp)).1 rfl
  rw [IpcNamespace.lookup_eq] at hfound
  exact ⟨lookup_place hfound, ipcObjectId_sign hpos⟩

/-- **When ids are valid**: exactly in the runs whose calls create objects only in
slots whose ids can be looked up, the first 4095 of an array as long as their
generation is not negative. -/
theorem idsValid_iff (calls : List IpcCall) : IdsValid calls ↔
    ∀ before call, before ++ [call] <+: calls → Roomy (IpcNamespace.empty.run before) call := by
  refine ⟨fun hvalid before call hbefore => roomy_of_idsValid hvalid hbefore, ?_⟩
  intro hroomy before call between hbefore
  have hinv : ∀ calls', calls' <+: calls → ∀ kind,
      IdInv ((IpcNamespace.empty.run calls').objects kind) := by
    intro calls' hcalls'
    exact run_induction (fun ns => ∀ kind, IdInv (ns.objects kind)) Roomy IdInv.empty
      (fun ns call h hroomy => IdInv.step h hroomy)
      fun before call h => hroomy before call (h.trans hcalls')
  have hbefore' : before ++ [call] ++ between <+: calls := by
    rwa [List.append_assoc, List.singleton_append]
  have hns' : IpcNamespace.empty.run (before ++ [call]) =
      ((IpcNamespace.empty.run before).step call).1 := IpcNamespace.run_append _ _ _
  have hns'' : IpcNamespace.empty.run (before ++ [call] ++ between) =
      (((IpcNamespace.empty.run before).step call).1).run between := by
    rw [IpcNamespace.run_append, hns']
  have hinv' := hinv (before ++ [call]) ((List.prefix_append _ _).trans hbefore')
  have hinv'' := hinv _ hbefore'
  rw [hns'] at hinv'
  rw [hns''] at hinv''
  refine ⟨fun kind i j hi hj heq => (hinv'' kind).inj hi hj heq, fun kind id hasks hresult => ?_⟩
  have hanswer : ∃ i, Slot.live ((((IpcNamespace.empty.run before).step call).1).objects kind) i =
      true ∧ id = ipcObjectId i (Slot.generationAt
        ((((IpcNamespace.empty.run before).step call).1).objects kind) i) ∧
      keyAt ((((IpcNamespace.empty.run before).step call).1).objects kind) i =
        call.key.setWidth 32 := by
    cases step_spec (IpcNamespace.empty.run before) call with
    | get hasks' hspec hothers =>
        obtain rfl := Option.some.inj (hasks.symm.trans hasks')
        exact hspec.answer hresult
    | keep hasks' => rw [hasks'] at hasks; cases hasks
    | remove hasks' => rw [hasks'] at hasks; cases hasks
  obtain ⟨i, hlive, hid, hkey⟩ := hanswer
  refine ⟨?_, i, hlive, hid, hkey, fun arg harg => ?_⟩
  · have hnat := ipcObjectId_toNat ((hinv' kind).encodable i hlive)
    have henc := (hinv' kind).encodable i hlive
    rw [hid, BitVec.toInt_eq_toNat_of_lt (by have := henc.1; have := henc.2; omega), hnat]
    omega
  · exact (hinv' kind).lookup hlive (hinv'' kind) (harg.trans hid)

/-! ## A run with an invalid id -/

/-- The object a `msgget` without a key creates in a new slot. -/
def privateQueue : IpcObject MsgQueue := ⟨0, true, ⟨0, (msggetCall 0 0x200).make .zero⟩⟩

theorem searchKey_private (n i : Nat) :
    searchKey 0 (List.replicate n privateQueue) i none = .missing none := by
  induction n generalizing i with
  | zero => rfl
  | succ n ih =>
      rw [List.replicate_succ, searchKey]
      exact ih (i + 1)

theorem getObject_private (n : Nat) :
    (getObject (msggetCall 0 0x200) (List.replicate n privateQueue)).1 =
      List.replicate (n + 1) privateQueue := by
  have hsearch : searchKey (msggetCall 0 0x200).key (List.replicate n privateQueue) 0 none =
      .missing none := searchKey_private n 0
  have hcreat : (msggetCall 0 0x200).has ipcCreat = true := by decide
  have hfull : ∀ objects, (msggetCall 0 0x200).full objects = false := fun _ => rfl
  unfold getObject
  rw [hsearch]
  simp only [hcreat, hfull, not_true_eq_false, if_false, Bool.false_eq_true, and_false]
  rw [List.replicate_succ']
  exact Slot.occupy_grow (List.replicate n privateQueue) ⟨0, .zero⟩
    fun content => ⟨0, (msggetCall 0 0x200).make content.data⟩

/-- Queues without a key are all put behind each other. -/
theorem run_msggets (n : Nat) : IpcNamespace.empty.run (List.replicate n (.msgget 0 0x200)) =
    ⟨List.replicate n privateQueue, [], []⟩ := by
  induction n with
  | zero => rfl
  | succ n ih =>
      rw [List.replicate_succ', IpcNamespace.run_append, ih, ← getObject_private]
      rfl

/-- **The 4096th queue gets an id that does not lead to it**: 4096, whose low 12 bits
are no place. -/
theorem idsValid_fails : ¬ IdsValid (List.replicate 4096 (.msgget 0 0x200)) := by
  intro hvalid
  have hbefore : List.replicate 4095 (IpcCall.msgget 0 0x200) ++ [.msgget 0 0x200] <+:
      List.replicate 4096 (.msgget 0 0x200) := List.replicate_succ' ▸ List.prefix_refl _
  have hroomy := roomy_of_idsValid hvalid hbefore .queue 4095 rfl
  rw [run_msggets] at hroomy
  refine absurd (hroomy ?_).1 (Nat.lt_irrefl 4095)
  show (msggetCall 0 0x200).place (List.replicate 4095 privateQueue) = some 4095
  have hsearch : searchKey (msggetCall 0 0x200).key (List.replicate 4095 privateQueue) 0 none =
      .missing none := searchKey_private 4095 0
  rw [GetCall.place, hsearch]
  show some (List.replicate 4095 privateQueue).length = some 4095
  rw [List.length_replicate]

end PRoot
