import PRoot.IpcObjects

/-!
# Runs of System V IPC calls

The three kinds of objects behave alike, so runs are described by what they do to
the keys and the slots of each kind.

* `step_spec`: what a call does to the objects of each kind;
* `step_evolves`: it follows the rules of slots;
* `evolvesAlong_history`: so does a run.
-/

namespace PRoot

/-- The kinds of objects. -/
inductive IpcKind
  | queue | semaphore | shm
  deriving DecidableEq, Repr

/-- An array without the data of its objects. -/
def forget {D : Type} (objects : List (IpcObject D)) : List (IpcObject Unit) :=
  objects.map fun object => { object with content := ⟨object.content.key, ()⟩ }

/-- The objects of one kind. -/
def IpcNamespace.objects (ns : IpcNamespace) : IpcKind → List (IpcObject Unit)
  | .queue => forget ns.queues
  | .semaphore => forget ns.semaphores
  | .shm => forget ns.shms

/-- The lookup of an object of some kind. -/
def IpcNamespace.lookup (ns : IpcNamespace) (kind : IpcKind) (arg : BitVec 64) :
    Except Errno Nat :=
  match kind with
  | .queue => lookupIpcObject ns.queues arg
  | .semaphore => lookupIpcObject ns.semaphores arg
  | .shm => lookupIpcObject ns.shms arg

/-- The kind of object a get call asks for. -/
def IpcCall.asks : IpcCall → Option IpcKind
  | .msgget .. => some .queue
  | .semget .. => some .semaphore
  | .shmget .. => some .shm
  | _ => none

/-- The key a get call gives. -/
def IpcCall.key : IpcCall → BitVec 64
  | .msgget key .. | .semget key .. | .shmget key .. => key
  | _ => 0

/-- The slot a get call creates an object in, if it creates one. -/
def IpcCall.place (ns : IpcNamespace) : IpcCall → Option Nat
  | .msgget key msgflg => (msggetCall key msgflg).place ns.queues
  | .semget key nsems semflg =>
      if nsemsValid nsems then (semgetCall key nsems semflg).place ns.semaphores else none
  | .shmget key shmSize shmflg fd pgid => (shmgetCall key shmSize shmflg fd pgid).place ns.shms
  | _ => none

section Forget

variable {D : Type} (objects : List (IpcObject D))

theorem forget_getElem? (i : Nat) : (forget objects)[i]? =
    (objects[i]?).map fun object => { object with content := ⟨object.content.key, ()⟩ } :=
  List.getElem?_map

@[simp] theorem forget_length : (forget objects).length = objects.length := List.length_map _

@[simp] theorem live_forget (i : Nat) : Slot.live (forget objects) i = Slot.live objects i := by
  rw [Slot.live, Slot.live, forget_getElem?]
  cases objects[i]? <;> rfl

@[simp] theorem generationAt_forget (i : Nat) :
    Slot.generationAt (forget objects) i = Slot.generationAt objects i := by
  rw [Slot.generationAt, Slot.generationAt, forget_getElem?]
  cases objects[i]? <;> rfl

@[simp] theorem keyAt_forget (i : Nat) : keyAt (forget objects) i = keyAt objects i := by
  rw [keyAt, keyAt, forget_getElem?]
  cases objects[i]? <;> rfl

/-- The data does not matter to a lookup. -/
theorem lookupIpcObject_forget (arg : BitVec 64) :
    lookupIpcObject (forget objects) arg = lookupIpcObject objects arg := by
  unfold lookupIpcObject
  simp only [forget_length, forget_getElem?]
  split
  · rfl
  · cases objects[((arg.setWidth 32 &&& 0xFFF).toInt - 1).toNat]? <;> rfl

theorem SameObjects.forget {objects objects' : List (IpcObject D)}
    (h : SameObjects objects objects') :
    SameObjects (forget objects) (PRoot.forget objects') := by
  refine ⟨fun i => ?_, fun i => ?_, fun i => ?_⟩
  · rw [live_forget, live_forget, h.live]
  · rw [generationAt_forget, generationAt_forget, h.generation]
  · rw [keyAt_forget, keyAt_forget, h.key]

/-- Nor does it matter to what a get call does. -/
theorem GetSpec.forget {key : BitVec 64} {place : Option Nat} {objects : List (IpcObject D)}
    {out : List (IpcObject D) × Except Errno (BitVec 32)} (h : GetSpec key place objects out) :
    GetSpec key place (forget objects) (PRoot.forget out.1, out.2) := by
  cases h with
  | refused hplace hsame => exact .refused hplace hsame.forget
  | @found i hplace hlive hprivate hkey =>
      rw [← generationAt_forget]
      exact .found hplace (by rwa [live_forget]) hprivate (by rwa [keyAt_forget])
  | @created i objects' hplace hfree hnew hlive hgeneration hkey =>
      rw [← generationAt_forget]
      refine .created hplace (by rwa [live_forget]) (fun j hj => ?_) (fun j => ?_) (fun j => ?_)
        (fun j => ?_)
      · rw [live_forget] at hj
        rw [keyAt_forget]
        exact hnew j hj
      · rw [live_forget, live_forget, hlive]
      · rw [generationAt_forget, hgeneration, generationAt_forget]
      · rw [keyAt_forget, keyAt_forget, hkey]

end Forget

theorem IpcNamespace.lookup_eq (ns : IpcNamespace) (kind : IpcKind) (arg : BitVec 64) :
    ns.lookup kind arg = lookupIpcObject (ns.objects kind) arg := by
  cases kind <;> exact (lookupIpcObject_forget _ arg).symm

/-- The objects after a removal: the slot is free, and its generation counted up. -/
structure Removed (i : Nat) (objects objects' : List (IpcObject Unit)) : Prop where
  there : Slot.live objects i = true
  live : ∀ j, Slot.live objects' j = (!decide (j = i) && Slot.live objects j)
  generation : ∀ j, Slot.generationAt objects' j =
    if j = i then Slot.generationAt objects j + 1 else Slot.generationAt objects j
  key : ∀ j, keyAt objects' j = keyAt objects j
  length : objects'.length = objects.length

/-- **What a call does to the objects of a namespace.** -/
inductive StepSpec (ns : IpcNamespace) (call : IpcCall) (ns' : IpcNamespace)
    (result : Except Errno (BitVec 32)) : Prop
  | get {kind : IpcKind} (hasks : call.asks = some kind)
      (hspec : GetSpec call.key (call.place ns) (ns.objects kind) (ns'.objects kind, result))
      (hothers : ∀ k, k ≠ kind → ns'.objects k = ns.objects k)
  | keep (hasks : call.asks = none) (hsame : ∀ k, SameObjects (ns.objects k) (ns'.objects k))
      (hlength : ∀ k, (ns'.objects k).length = (ns.objects k).length)
  | remove {kind : IpcKind} {i : Nat} (hasks : call.asks = none)
      (hremoved : Removed i (ns.objects kind) (ns'.objects kind))
      (hothers : ∀ k, k ≠ kind → ns'.objects k = ns.objects k)

theorem removed_release {D : Type} {objects : List (IpcObject D)} {i : Nat}
    (hlive : Slot.live objects i = true) (data : D → D) :
    Removed i (forget objects) (forget (Slot.release objects i fun content =>
      { content with data := data content.data })) := by
  refine ⟨by rwa [live_forget], fun j => ?_, fun j => ?_, fun j => ?_, ?_⟩
  · rw [live_forget, live_forget, Slot.live_release]
  · rw [generationAt_forget, generationAt_forget,
      Slot.generationAt_release _ _ _ _ (Slot.live_lt hlive)]
  · rw [keyAt_forget, keyAt_forget, Slot.release, keyAt_modify i j _ (Slot.live_lt hlive)]
    split
    · rename_i heq
      rw [heq, keyAt_eq (List.getElem?_eq_getElem (Slot.live_lt hlive))]
    · rfl
  · rw [forget_length, forget_length, Slot.release, List.length_modify]

theorem step_spec (ns : IpcNamespace) (call : IpcCall) :
    StepSpec ns call (ns.step call).1 (ns.step call).2 := by
  have hkeep : ∀ {result : Except Errno (BitVec 32)}, call.asks = none →
      StepSpec ns call ns result := fun hasks =>
    .keep hasks (fun k => SameObjects.refl _) (fun k => rfl)
  cases call with
  | msgget key msgflg =>
      refine .get rfl (getObject_spec (msggetCall key msgflg) ns.queues).forget fun k hk => ?_
      cases k <;> first | rfl | exact absurd rfl hk
  | semget key nsems semflg =>
      show StepSpec ns _ (semget ns key nsems semflg).1 (semget ns key nsems semflg).2
      unfold semget
      by_cases hvalid : nsemsValid nsems = true
      · have hspec := (getObject_spec (semgetCall key nsems semflg) ns.semaphores).forget
        rw [if_pos hvalid]
        refine .get rfl ?_ fun k hk => ?_
        · rw [IpcCall.place, if_pos hvalid]
          exact hspec
        · cases k <;> first | rfl | exact absurd rfl hk
      · rw [if_neg hvalid]
        refine .get rfl ?_ fun k hk => rfl
        rw [IpcCall.place, if_neg hvalid]
        exact .refused rfl (SameObjects.refl _)
  | shmget key shmSize shmflg fd pgid =>
      refine .get rfl (getObject_spec (shmgetCall key shmSize shmflg fd pgid) ns.shms).forget
        fun k hk => ?_
      cases k <;> first | rfl | exact absurd rfl hk
  | msgctlRmid msqid =>
      show StepSpec ns _ (msgctlRmid ns msqid).1 (msgctlRmid ns msqid).2
      unfold msgctlRmid
      cases hlookup : lookupIpcObject ns.queues msqid with
      | error e => exact hkeep rfl
      | ok i =>
          have hremoved := removed_release (lookupIpcObject_live hlookup)
            fun queue : MsgQueue => { queue with items := [] }
          refine @StepSpec.remove ns _ _ _ .queue i rfl hremoved fun k hk => ?_
          cases k <;> first | rfl | exact absurd rfl hk
  | semctlRmid semid =>
      show StepSpec ns _ (semctlRmid ns semid).1 (semctlRmid ns semid).2
      unfold semctlRmid
      cases hlookup : lookupIpcObject ns.semaphores semid with
      | error e => exact hkeep rfl
      | ok i =>
          have hremoved := removed_release (lookupIpcObject_live hlookup)
            fun semaphore : Semaphore => { semaphore with sems := [] }
          refine @StepSpec.remove ns _ _ _ .semaphore i rfl hremoved fun k hk => ?_
          cases k <;> first | rfl | exact absurd rfl hk
  | shmctlRmid shmid =>
      show StepSpec ns _ (shmctlRmid ns shmid).1 (shmctlRmid ns shmid).2
      unfold shmctlRmid
      cases hlookup : lookupIpcObject ns.shms shmid with
      | error e => exact hkeep rfl
      | ok i =>
          by_cases hmapped : ((ns.shms[i]?).any fun shm => shm.content.data.mappings ≠ []) = true
          · have hsame := @SameObjects.update SharedMem ns.shms i
              fun shm : SharedMem => { shm with rmidPending := true }
            simp only [hmapped, if_true]
            refine .keep rfl (fun k => ?_) (fun k => ?_)
            · cases k
              · exact SameObjects.refl _
              · exact SameObjects.refl _
              · exact hsame.forget
            · cases k
              · rfl
              · rfl
              · simp [IpcNamespace.objects, Slot.update]
          · simp only [hmapped]
            have hremoved := removed_release (lookupIpcObject_live hlookup)
              fun shm : SharedMem => { shm with rmidPending := false, fd := -1, mappings := [] }
            refine @StepSpec.remove ns _ _ _ .shm i rfl hremoved fun k hk => ?_
            cases k <;> first | rfl | exact absurd rfl hk

/-- An array is only grown where all its slots are in use. -/
theorem step_length (ns : IpcNamespace) (call : IpcCall) (kind : IpcKind) {n : Nat}
    (hlive : ∀ i, Slot.live (ns.objects kind) i = true → i < n)
    (hlength : (ns.objects kind).length ≤ n + 1) :
    ((ns.step call).1.objects kind).length ≤ n + 1 := by
  cases step_spec ns call with
  | @get k hasks hspec hothers =>
      by_cases hk : kind = k
      · subst hk
        cases call with
        | msgget key msgflg =>
            cases hasks
            exact (forget_length _).trans_le (getObject_length _
              (fun i hi => hlive i ((live_forget _ _).trans hi))
              ((forget_length _).symm.trans_le hlength))
        | semget key nsems semflg =>
            cases hasks
            show ((semget ns key nsems semflg).1.objects .semaphore).length ≤ n + 1
            unfold semget
            split
            · exact (forget_length _).trans_le (getObject_length _
                (fun i hi => hlive i ((live_forget _ _).trans hi))
                ((forget_length _).symm.trans_le hlength))
            · exact hlength
        | shmget key shmSize shmflg fd pgid =>
            cases hasks
            exact (forget_length _).trans_le (getObject_length _
              (fun i hi => hlive i ((live_forget _ _).trans hi))
              ((forget_length _).symm.trans_le hlength))
        | _ => cases hasks
      · rw [hothers kind hk]
        exact hlength
  | keep hasks hsame hkept => exact (hkept kind).trans_le hlength
  | @remove k i hasks hremoved hothers =>
      by_cases hk : kind = k
      · subst hk
        exact hremoved.length.trans_le hlength
      · rw [hothers kind hk]
        exact hlength

/-! ## Histories -/

theorem SameObjects.evolves {objects objects' : List (IpcObject Unit)}
    (h : SameObjects objects objects') : Slot.Evolves objects objects' :=
  (Slot.Evolves.refl objects).congr (fun _ => ⟨rfl, rfl⟩) fun i => ⟨h.live i, h.generation i⟩

theorem GetSpec.evolves {key : BitVec 64} {place : Option Nat} {objects : List (IpcObject Unit)}
    {out : List (IpcObject Unit) × Except Errno (BitVec 32)} (h : GetSpec key place objects out) :
    Slot.Evolves objects out.1 := by
  cases h with
  | refused hplace hsame => exact hsame.evolves
  | found hplace hlive hprivate hkey => exact Slot.Evolves.refl _
  | @created i _ hplace hfree hnew hlive hgeneration hkey =>
      refine ⟨fun j _ _ => hgeneration j, fun j h h' => ?_, fun j _ => hgeneration j⟩
      rw [hlive, h, Bool.or_true] at h'
      cases h'

/-- **A call follows the rules of slots.** -/
theorem step_evolves (ns : IpcNamespace) (call : IpcCall) (kind : IpcKind) :
    Slot.Evolves (ns.objects kind) ((ns.step call).1.objects kind) := by
  cases step_spec ns call with
  | @get k hasks hspec hothers =>
      by_cases hk : kind = k
      · subst hk
        exact hspec.evolves
      · rw [hothers kind hk]
        exact Slot.Evolves.refl _
  | keep hasks hsame hlength => exact (hsame kind).evolves
  | @remove k i hasks hremoved hothers =>
      by_cases hk : kind = k
      · subst hk
        refine ⟨fun j _ h' => ?_, fun j h h' => ?_, fun j h => ?_⟩
        · have hne : j ≠ i := by
            rintro rfl
            simp [hremoved.live] at h'
          rw [hremoved.generation, if_neg hne]
        · have heq : j = i := by
            by_contra hne
            simp [hremoved.live, hne, h] at h'
          rw [hremoved.generation, if_pos heq]
        · have hne : j ≠ i := by
            rintro rfl
            rw [hremoved.there] at h
            cases h
          rw [hremoved.generation, if_neg hne]
      · rw [hothers kind hk]
        exact Slot.Evolves.refl _

/-- The objects of one kind after each call of a run. -/
def IpcNamespace.history (ns : IpcNamespace) (kind : IpcKind) :
    List IpcCall → List (List (IpcObject Unit))
  | [] => []
  | call :: calls =>
      (ns.step call).1.objects kind :: (ns.step call).1.history kind calls

/-- So does a run. -/
theorem evolvesAlong_history (ns : IpcNamespace) (kind : IpcKind) (calls : List IpcCall) :
    Slot.EvolvesAlong (ns.objects kind) (ns.history kind calls) := by
  induction calls generalizing ns with
  | nil => exact True.intro
  | cons call calls ih => exact ⟨step_evolves ns call kind, ih (ns.step call).1⟩

theorem latest_history (ns : IpcNamespace) (kind : IpcKind) (calls : List IpcCall) :
    Slot.latest (ns.objects kind) (ns.history kind calls) = (ns.run calls).objects kind := by
  induction calls generalizing ns with
  | nil => rfl
  | cons call calls ih => exact ih (ns.step call).1

theorem IpcNamespace.run_append (ns : IpcNamespace) (calls calls' : List IpcCall) :
    ns.run (calls ++ calls') = (ns.run calls).run calls' := List.foldl_append

/-- A property of the empty namespace that each call of a run keeps. -/
theorem run_induction (P : IpcNamespace → Prop) (cond : IpcNamespace → IpcCall → Prop)
    (hempty : P .empty) (hstep : ∀ ns call, P ns → cond ns call → P (ns.step call).1)
    {calls : List IpcCall}
    (hcond : ∀ before call, before ++ [call] <+: calls → cond (IpcNamespace.empty.run before) call) :
    P (IpcNamespace.empty.run calls) := by
  induction calls using List.reverseRecOn with
  | nil => exact hempty
  | append_singleton calls call ih =>
      rw [IpcNamespace.run_append]
      refine hstep _ call (ih fun before c hbefore => ?_) (hcond calls call (List.prefix_refl _))
      exact hcond before c (hbefore.trans (List.prefix_append calls [call]))

end PRoot
