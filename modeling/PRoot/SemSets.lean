import PRoot.SemLog

/-!
# The sets of semaphores

* `SemsRight`: no value is too large, and a set that is there has all its semaphores;
* `semget_sets`: what `semget` does to the sets;
* `semget_right`, `semctlRmid_right`, `semsRight_setSems`: the calls keep them right.
-/

namespace PRoot

/-! ## The sets -/

/-- **The sets are as they should be**: no value is too large, and a set that is there has all
its semaphores. -/
structure IpcNamespace.SemsRight (ns : IpcNamespace) : Prop where
  bounded : ∀ index, SemsBounded (ns.semaphoreAt index).sems
  sized : ∀ index, Slot.live ns.semaphores index = true →
    (ns.semaphoreAt index).sems.length = (ns.semaphoreAt index).nsems

/-- The set a tracee waits for is there, and has the semaphores that are named. -/
def IpcNamespace.Names (ns : IpcNamespace) (index : Nat) (sops : List SysVIpcSembuf) : Prop :=
  Slot.live ns.semaphores index = true ∧
    ∀ sop ∈ sops, sop.semNum.toNat < (ns.semaphoreAt index).sems.length

section Sets

variable {ns : IpcNamespace}

variable {semid : BitVec 64} {index : Nat}

theorem semopArgs_names {nsops : BitVec 64} {readSop : Nat → Except Errno SysVIpcSembuf}
    {sops : List SysVIpcSembuf} (hright : ns.SemsRight)
    (h : semopArgs ns semid nsops readSop = .ok (index, sops)) : ns.Names index sops := by
  obtain ⟨hlive, hnsems⟩ := semopArgs_ok h
  refine ⟨hlive, fun sop hsop => ?_⟩
  rw [hright.sized index hlive]
  exact hnsems sop hsop

theorem setSems_nsems (index i : Nat) (sems : List (BitVec 16)) :
    ((ns.setSems index sems).semaphoreAt i).nsems = (ns.semaphoreAt i).nsems := by
  unfold IpcNamespace.setSems IpcNamespace.semaphoreAt
  rw [Slot.update, List.getElem?_modify]
  cases ns.semaphores[i]? with
  | none => rfl
  | some object => by_cases h : index = i <;> simp [h]

theorem values_setSems (sems : List (BitVec 16)) (hlive : Slot.live ns.semaphores index = true) :
    (ns.setSems index sems).values = Function.update ns.values index (semValues sems) := by
  funext i
  rw [IpcNamespace.values, setSems_sems ns i sems hlive, Function.update_apply]
  by_cases hi : i = index
  · rw [if_pos hi, if_pos hi]
  · rw [if_neg hi, if_neg hi]
    rfl

theorem semsRight_setSems {sems : List (BitVec 16)} (hright : ns.SemsRight)
    (hlive : Slot.live ns.semaphores index = true)
    (hlength : sems.length = (ns.semaphoreAt index).sems.length) (hbounded : SemsBounded sems) :
    (ns.setSems index sems).SemsRight := by
  refine ⟨fun i => ?_, fun i hi => ?_⟩
  · rw [setSems_sems ns i sems hlive]
    split
    · exact hbounded
    · exact hright.bounded i
  · rw [live_setSems] at hi
    rw [setSems_nsems, setSems_sems ns i sems hlive, ← hright.sized i hi]
    split
    · rename_i heq
      rw [heq]
      exact hlength
    · rfl

theorem names_setSems {i : Nat} {sems : List (BitVec 16)} {sops : List SysVIpcSembuf}
    (hlive : Slot.live ns.semaphores index = true)
    (hlength : sems.length = (ns.semaphoreAt index).sems.length) (h : ns.Names i sops) :
    (ns.setSems index sems).Names i sops := by
  refine ⟨(live_setSems ns index i sems).trans h.1, fun sop hsop => ?_⟩
  rw [setSems_sems ns i sems hlive]
  split
  · rename_i heq
    rw [hlength, ← heq]
    exact h.2 sop hsop
  · exact h.2 sop hsop

/-- Where `semget` creates a set. -/
def semgetPlace (ns : IpcNamespace) (key nsems semflg : BitVec 64) : Option Nat :=
  if nsemsValid nsems then (semgetCall key nsems semflg).place ns.semaphores else none

/-- What `semget` does to the sets. -/
theorem semget_sets (ns : IpcNamespace) (key nsems semflg : BitVec 64) (i : Nat) :
    (Slot.live (semget ns key nsems semflg).1.semaphores i =
      if semgetPlace ns key nsems semflg = some i then true else Slot.live ns.semaphores i) ∧
    (semget ns key nsems semflg).1.semaphoreAt i =
      if semgetPlace ns key nsems semflg = some i then
        ⟨List.replicate (nsems.setWidth 32).toNat 0, (nsems.setWidth 32).toNat⟩
      else ns.semaphoreAt i := by
  unfold semget semgetPlace
  by_cases hvalid : nsemsValid nsems = true
  · rw [if_pos hvalid, if_pos hvalid]
    have hspec := getObject_spec (semgetCall key nsems semflg) ns.semaphores
    have hdata := getObject_data (semgetCall key nsems semflg) ns.semaphores i
    generalize (semgetCall key nsems semflg).place ns.semaphores = place at hspec ⊢
    generalize getObject (semgetCall key nsems semflg) ns.semaphores = out at hspec hdata ⊢
    cases hspec with
    | refused hplace hsame =>
        rw [hplace, if_neg (by simp), if_neg (by simp)]
        refine ⟨hsame.live i, ?_⟩
        rcases hdata with ⟨-, hdata⟩ | ⟨hfree, -, hlive⟩
        · exact hdata
        · exact absurd ((hsame.live i).symm.trans (hlive.mpr rfl)) (by rw [hfree]; decide)
    | found hplace =>
        rw [hplace, if_neg (by simp), if_neg (by simp)]
        exact ⟨rfl, rfl⟩
    | @created j objects' hplace hfree hnew hlive hgeneration hkey =>
        rw [hplace]
        by_cases hi : i = j
        · subst hi
          rw [if_pos rfl, if_pos rfl]
          refine ⟨by simp [hlive], ?_⟩
          rcases hdata with ⟨hsame, -⟩ | ⟨-, hdata, -⟩
          · simp [hlive, hfree] at hsame
          · exact hdata
        · have hne : some j ≠ some i := fun h => hi (Option.some.inj h).symm
          rw [if_neg hne, if_neg hne]
          refine ⟨by simp [hlive, hi], ?_⟩
          rcases hdata with ⟨-, hdata⟩ | ⟨hnot, -, hlives⟩
          · exact hdata
          · have hin := hlives.mpr rfl
            simp [hlive, hi, hnot] at hin
  · rw [if_neg hvalid, if_neg hvalid, if_neg (by simp), if_neg (by simp)]
    exact ⟨rfl, rfl⟩

theorem semget_right (key nsems semflg : BitVec 64) (hright : ns.SemsRight) :
    (semget ns key nsems semflg).1.SemsRight := by
  refine ⟨fun i => ?_, fun i => ?_⟩
  · rw [(semget_sets ns key nsems semflg i).2]
    split
    · intro value hvalue
      rw [List.eq_of_mem_replicate hvalue]
      exact Nat.zero_le _
    · exact hright.bounded i
  · rw [(semget_sets ns key nsems semflg i).1, (semget_sets ns key nsems semflg i).2]
    split
    · exact fun _ => List.length_replicate
    · exact hright.sized i

theorem semget_values (sys : SemSystem) (pid : Nat) (fromSigsys : Bool)
    (key nsems semflg : BitVec 64) :
    replayNotes sys.ns.values ((SemCall.semget key nsems semflg).notes sys pid fromSigsys) =
      some (semget sys.ns key nsems semflg).1.values := by
  have hnotes : (SemCall.semget key nsems semflg).notes sys pid fromSigsys =
      (semgetPlace sys.ns key nsems semflg).toList.map
        (.created · (nsems.setWidth 32).toNat) := by
    rw [semgetPlace, SemCall.notes]
    by_cases hvalid : nsemsValid nsems = true
    · rw [if_pos hvalid, if_pos hvalid]
    · rw [if_neg hvalid, if_neg hvalid]
      rfl
  have hvalues : (semget sys.ns key nsems semflg).1.values = fun i =>
      if semgetPlace sys.ns key nsems semflg = some i then
        List.replicate (nsems.setWidth 32).toNat 0
      else sys.ns.values i := by
    funext i
    rw [IpcNamespace.values, (semget_sets sys.ns key nsems semflg i).2]
    split
    · exact List.map_replicate
    · rfl
  rw [hnotes, hvalues]
  cases hplace : semgetPlace sys.ns key nsems semflg with
  | none => rfl
  | some index =>
      refine congrArg some (funext fun i => ?_)
      rw [Function.update_apply]
      by_cases hi : i = index
      · rw [if_pos hi, if_pos (congrArg some hi.symm)]
      · rw [if_neg hi, if_neg fun h => hi (Option.some.inj h).symm]

/-- What the removal of a set does. -/
theorem semctlRmid_sems (hlookup : lookupIpcObject ns.semaphores semid = .ok index) :
    Slot.live (semctlRmid ns semid).1.semaphores index = false ∧
      ((semctlRmid ns semid).1.semaphoreAt index).sems = [] := by
  unfold semctlRmid
  rw [hlookup]
  refine ⟨by simp, ?_⟩
  obtain ⟨object, hget, -⟩ := (Slot.live_iff _ _).mp (lookupIpcObject_live hlookup)
  simp [IpcNamespace.semaphoreAt, Slot.release, hget]

theorem semctlRmid_right (hlookup : lookupIpcObject ns.semaphores semid = .ok index)
    (hright : ns.SemsRight) :
    (semctlRmid ns semid).1.SemsRight := by
  obtain ⟨hdead, hsems⟩ := semctlRmid_sems hlookup
  refine ⟨fun i => ?_, fun i hi => ?_⟩
  · by_cases heq : i = index
    · rw [heq, hsems]
      exact fun _ hvalue => by cases hvalue
    · rw [(semctlRmid_keeps ns hlookup heq).2]
      exact hright.bounded i
  · have hne : i ≠ index := by
      rintro rfl
      rw [hdead] at hi
      cases hi
    obtain ⟨hlive, hsame⟩ := semctlRmid_keeps ns hlookup hne
    rw [hsame]
    exact hright.sized i (hlive.symm.trans hi)

theorem semctlRmid_values (hlookup : lookupIpcObject ns.semaphores semid = .ok index) :
    (semctlRmid ns semid).1.values = Function.update ns.values index [] := by
  funext i
  rw [Function.update_apply, IpcNamespace.values]
  split
  · rename_i heq
    rw [heq, (semctlRmid_sems hlookup).2]
    rfl
  · rename_i hne
    rw [(semctlRmid_keeps ns hlookup hne).2]
    rfl

end Sets

end PRoot
