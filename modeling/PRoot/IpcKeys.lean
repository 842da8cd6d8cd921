import PRoot.IpcRuns

/-!
# The keys of System V IPC objects

A get call compares the whole register with `IPC_PRIVATE`, but the low half of it
with the keys of the objects.

* `keysUnique_run`: no two objects of a kind ever have the same key;
* `keysHonoured_iff`: the get calls answer as their keys ask for exactly in the runs
  where all of them suit;
* `keysHonoured_fails`: a private key with a bit set above finds an existing queue.
-/

namespace PRoot

/-- No two objects have the same key, other than `IPC_PRIVATE`. -/
def KeysUnique {D : Type} (objects : List (IpcObject D)) : Prop :=
  ∀ i j, Slot.live objects i = true → Slot.live objects j = true →
    keyAt objects i = keyAt objects j → keyAt objects i ≠ 0 → i = j

/-- **A get call answers as its key asks for**, the key being the low half of the
register: with the object that has it, or `EEXIST` where a new one was asked for;
and for `IPC_PRIVATE` with an object that was not there before. -/
def GetHonours {D : Type} (key flags : BitVec 64) (objects : List (IpcObject D))
    (out : List (IpcObject D) × Except Errno (BitVec 32)) : Prop :=
  (∀ i, Slot.live objects i = true → keyAt objects i = key.setWidth 32 → key.setWidth 32 ≠ 0#32 →
    out.2 = if flags &&& ipcCreat ≠ 0 ∧ flags &&& ipcExcl ≠ 0 then .error .EEXIST
      else .ok (ipcObjectId i (Slot.generationAt objects i))) ∧
  (key.setWidth 32 = 0#32 → ∃ i, Slot.live objects i = false ∧ Slot.live out.1 i = true ∧
    out.2 = .ok (ipcObjectId i (Slot.generationAt out.1 i)))

/-- The arguments of a get call suit the objects that are there.  A key in use comes
with a size that is not rejected, unless a new object was asked for.  The key
`IPC_PRIVATE` comes with `IPC_CREAT` and where a new object can be made; and its
register is zero as a whole, or there is no object without a key. -/
def GetCall.Suits {D : Type} (call : GetCall D) (objects : List (IpcObject D)) : Prop :=
  (call.key.setWidth 32 ≠ 0#32 → ∀ object ∈ objects, object.valid = true →
    object.content.key = call.key.setWidth 32 →
      (call.flags &&& ipcCreat ≠ 0 ∧ call.flags &&& ipcExcl ≠ 0) ∨
        call.unsuited object.content.data = none) ∧
  (call.key.setWidth 32 = 0#32 → call.flags &&& ipcCreat ≠ 0 ∧ call.refuse = none ∧
    (call.full objects = true → ∃ object ∈ objects, object.valid = false) ∧
    (call.key = ipcPrivate ∨ ∀ object ∈ objects, object.valid = true → object.content.key ≠ 0#32))

section Get

variable {D : Type} {call : GetCall D} {objects : List (IpcObject D)}

theorem has_iff (flag : BitVec 64) : call.has flag = true ↔ call.flags &&& flag ≠ 0 := by
  rw [GetCall.has, decide_eq_true_iff]

theorem getObject_found {index : Nat} {object : IpcObject D}
    (hsearch : searchKey call.key objects 0 none = .found index)
    (hget : objects[index]? = some object) : getObject call objects = (objects,
      if call.flags &&& ipcCreat ≠ 0 ∧ call.flags &&& ipcExcl ≠ 0 then .error .EEXIST
      else (call.unsuited object.content.data).elim
        (.ok (ipcObjectId index (Slot.generationAt objects index))) .error) := by
  unfold getObject
  rw [hsearch]
  simp only [hget, has_iff, Option.bind_some]
  split
  · rfl
  · cases call.unsuited object.content.data <;> rfl

/-- A call that finds an object. -/
theorem honours_found (hunique : KeysUnique objects) {index : Nat}
    (hsearch : searchKey call.key objects 0 none = .found index) :
    GetHonours call.key call.flags objects (getObject call objects) ↔ call.Suits objects := by
  obtain ⟨-, object, hget, hvalid, hprivate, hkey⟩ := searchKey_found hsearch
  rw [Nat.sub_zero] at hget
  have hlive : Slot.live objects index = true := (Slot.live_iff _ _).mpr ⟨object, hget, hvalid⟩
  have hkeyAt : keyAt objects index = call.key.setWidth 32 := (keyAt_eq hget).trans hkey
  rw [getObject_found hsearch hget]
  by_cases hzero : call.key.setWidth 32 = 0#32
  · refine iff_of_false (fun h => ?_) fun h => ?_
    · obtain ⟨i, hfree, hthere, -⟩ := h.2 hzero
      exact absurd (hfree.symm.trans hthere) (by decide)
    · rcases (h.2 hzero).2.2.2 with hfull | hno
      · exact hprivate hfull
      · exact hno object (List.mem_of_getElem? hget) hvalid (hkey.trans hzero)
  · have honly : ∀ i, Slot.live objects i = true → keyAt objects i = call.key.setWidth 32 →
        i = index := fun i hi hk =>
      hunique i index hi hlive (hk.trans hkeyAt.symm) fun h => hzero (hk.symm.trans h)
    constructor
    · intro h
      refine ⟨fun _ o ho hv hk => ?_, fun h => absurd h hzero⟩
      obtain ⟨i, hi⟩ := List.getElem?_of_mem ho
      obtain rfl := honly i ((Slot.live_iff _ _).mpr ⟨o, hi, hv⟩) ((keyAt_eq hi).trans hk)
      obtain rfl : object = o := Option.some.inj (hget.symm.trans hi)
      have hresult := h.1 i hlive hkeyAt hzero
      by_cases hexcl : call.flags &&& ipcCreat ≠ 0 ∧ call.flags &&& ipcExcl ≠ 0
      · exact Or.inl hexcl
      · right
        simp only [if_neg hexcl] at hresult
        cases hunsuited : call.unsuited object.content.data with
        | none => rfl
        | some e =>
            rw [hunsuited] at hresult
            cases hresult
    · intro h
      refine ⟨fun i hi hk _ => ?_, fun h => absurd h hzero⟩
      obtain rfl := honly i hi hk
      simp only
      split
      · rfl
      · rename_i hexcl
        rcases h.1 hzero object (List.mem_of_getElem? hget) hvalid hkey with hboth | hsuited
        · exact absurd hboth hexcl
        · rw [hsuited]
          rfl

/-- A call that misses. -/
theorem honours_missing {unused : Option Nat}
    (hsearch : searchKey call.key objects 0 none = .missing unused) :
    GetHonours call.key call.flags objects (getObject call objects) ↔ call.Suits objects := by
  obtain ⟨hno, hunused⟩ := searchKey_missing hsearch
  by_cases hzero : call.key.setWidth 32 = 0#32
  · have hprivate : call.key = ipcPrivate ∨
        ∀ object ∈ objects, object.valid = true → object.content.key ≠ 0#32 := by
      by_cases hkey : call.key = ipcPrivate
      · exact Or.inl hkey
      · exact Or.inr fun object hobject hvalid hk =>
          hno object hobject hvalid ⟨hkey, hk.trans hzero.symm⟩
    have hroom : (unused = none ∧ call.full objects = true) ↔
        ¬ (call.full objects = true → ∃ object ∈ objects, object.valid = false) := by
      cases unused with
      | none =>
          have hall := searchKey_full hsearch
          refine ⟨fun hboth h => ?_, fun h => ⟨rfl, (Classical.not_imp.mp h).1⟩⟩
          obtain ⟨object, hobject, hfree⟩ := h hboth.2
          exact absurd (hfree.symm.trans (hall object hobject)) (by decide)
      | some i =>
          refine ⟨fun h => absurd h.1 (by simp), fun h => absurd (fun _ => ?_) h⟩
          rcases hunused i rfl with hnone | ⟨object, -, hget, hfree⟩
          · cases hnone
          · exact ⟨object, List.mem_of_getElem? hget, hfree⟩
    have hplace : call.Suits objects ↔ ∃ i, call.place objects = some i := by
      rw [GetCall.place, hsearch]
      simp only [hroom, has_iff, not_not]
      refine ⟨fun h => ?_, fun hsome => ?_⟩
      · obtain ⟨hcreat, hrefuse, hfull, -⟩ := h.2 hzero
        exact ⟨_, if_pos ⟨hcreat, hfull, hrefuse⟩⟩
      · obtain ⟨i, hi⟩ := hsome
        split at hi
        · rename_i hcan
          exact ⟨fun h => absurd hzero h, fun _ => ⟨hcan.1, hcan.2.2, hcan.2.1, hprivate⟩⟩
        · cases hi
    rw [hplace]
    have hspec := getObject_spec call objects
    generalize hout : getObject call objects = out at hspec
    generalize call.place objects = place at hspec
    cases hspec with
    | refused hnone hsame =>
        refine iff_of_false (fun h => ?_) (by simp [hnone])
        obtain ⟨i, -, -, hresult⟩ := h.2 hzero
        cases hresult
    | @found i hnone hlive hkey hkeyAt =>
        obtain ⟨object, hget, hvalid⟩ := (Slot.live_iff _ _).mp hlive
        rw [keyAt_eq hget] at hkeyAt
        exact absurd ⟨hkey, hkeyAt⟩ (hno object (List.mem_of_getElem? hget) hvalid)
    | @created i _ hsome hfree hnew hlive hgeneration hkey =>
        refine iff_of_true ⟨fun _ _ _ h => absurd hzero h, fun _ => ⟨i, hfree, ?_, ?_⟩⟩ ⟨i, hsome⟩
        · rw [hlive, decide_eq_true rfl, Bool.true_or]
        · rw [hgeneration]
  · refine iff_of_true ⟨fun i hi hk _ => ?_, fun h => absurd h hzero⟩
      ⟨fun _ object hobject hvalid hk => ?_, fun h => absurd h hzero⟩
    · obtain ⟨object, hget, hvalid⟩ := (Slot.live_iff _ _).mp hi
      rw [keyAt_eq hget] at hk
      refine absurd ⟨fun h => hzero ?_, hk⟩ (hno object (List.mem_of_getElem? hget) hvalid)
      rw [h]
      rfl
    · refine absurd ⟨fun h => hzero ?_, hk⟩ (hno object hobject hvalid)
      rw [h]
      rfl

/-- **A get call answers as its key asks for exactly if its arguments suit.** -/
theorem honours_iff (hunique : KeysUnique objects) :
    GetHonours call.key call.flags objects (getObject call objects) ↔ call.Suits objects := by
  cases hsearch : searchKey call.key objects 0 none with
  | found index => exact honours_found hunique hsearch
  | missing unused => exact honours_missing hsearch

end Get

/-! ## Runs -/

/-- The flags a get call gives. -/
def IpcCall.flags : IpcCall → BitVec 64
  | .msgget _ flags | .semget _ _ flags | .shmget _ _ flags _ _ => flags
  | _ => 0

/-- The arguments of a call suit the namespace.  A `semget` that is answered at all
has between 1 and `SYSVIPC_MAX_NSEMS` semaphores. -/
def IpcCall.Suits (ns : IpcNamespace) : IpcCall → Prop
  | .msgget key msgflg => (msggetCall key msgflg).Suits ns.queues
  | .semget key nsems semflg =>
      (semgetCall key nsems semflg).Suits ns.semaphores ∧
        ((key.setWidth 32 = 0#32 ∨ ∃ object ∈ ns.semaphores, object.valid = true ∧
          object.content.key = key.setWidth 32) → nsemsValid nsems = true)
  | .shmget key shmSize shmflg fd pgid => (shmgetCall key shmSize shmflg fd pgid).Suits ns.shms
  | _ => True

/-- **Honoured keys** throughout a run: no two objects of a kind have the same key,
and each get call answers as its key asks for. -/
def KeysHonoured (calls : List IpcCall) : Prop :=
  ∀ before call, before ++ [call] <+: calls →
    let ns := IpcNamespace.empty.run before
    (∀ kind, KeysUnique ((ns.step call).1.objects kind)) ∧
    ∀ kind, call.asks = some kind → GetHonours call.key call.flags (ns.objects kind)
      ((ns.step call).1.objects kind, (ns.step call).2)

theorem KeysUnique.forget {D : Type} {objects : List (IpcObject D)}
    (h : KeysUnique (PRoot.forget objects)) : KeysUnique objects := by
  intro i j hi hj hkey hne
  refine h i j ((live_forget _ _).trans hi) ((live_forget _ _).trans hj) ?_ ?_
  · rwa [keyAt_forget, keyAt_forget]
  · rwa [keyAt_forget]

theorem getHonours_forget {D : Type} {key flags : BitVec 64} {objects : List (IpcObject D)}
    {out : List (IpcObject D) × Except Errno (BitVec 32)} :
    GetHonours key flags (forget objects) (forget out.1, out.2) ↔
      GetHonours key flags objects out := by
  unfold GetHonours
  simp only [live_forget, keyAt_forget, generationAt_forget]

/-- A set is only looked for where the number of semaphores is valid. -/
theorem semget_honours_iff {ns : IpcNamespace} (hunique : KeysUnique ns.semaphores)
    (key nsems semflg : BitVec 64) :
    GetHonours key semflg ns.semaphores
      ((semget ns key nsems semflg).1.semaphores, (semget ns key nsems semflg).2) ↔
        (IpcCall.semget key nsems semflg).Suits ns := by
  unfold semget
  by_cases hvalid : nsemsValid nsems = true
  · rw [if_pos hvalid]
    exact (@honours_iff _ (semgetCall key nsems semflg) _ hunique).trans
      ⟨fun h => ⟨h, fun _ => hvalid⟩, fun h => h.1⟩
  · rw [if_neg hvalid]
    constructor
    · rintro ⟨hfound, hfresh⟩
      have hzero : key.setWidth 32 ≠ 0#32 := fun hzero => by
        obtain ⟨i, hfree, hlive, -⟩ := hfresh hzero
        exact absurd (hfree.symm.trans hlive) (by decide)
      have hnone : ∀ object ∈ ns.semaphores, object.valid = true →
          object.content.key ≠ key.setWidth 32 := fun object hobject hlive hkey => by
        obtain ⟨i, hi⟩ := List.getElem?_of_mem hobject
        have hresult := hfound i ((Slot.live_iff _ _).mpr ⟨object, hi, hlive⟩)
          ((keyAt_eq hi).trans hkey) hzero
        split at hresult <;> cases hresult
      refine ⟨⟨fun _ object hobject hlive hkey => ?_, fun h => absurd h hzero⟩, ?_⟩
      · exact absurd hkey (hnone object hobject hlive)
      · rintro (h | ⟨object, hobject, hlive, hkey⟩)
        · exact absurd h hzero
        · exact absurd hkey (hnone object hobject hlive)
    · rintro ⟨-, hneeds⟩
      refine ⟨fun i hi hkey _ => ?_, fun hzero => absurd (hneeds (Or.inl hzero)) hvalid⟩
      obtain ⟨object, hget, hlive⟩ := (Slot.live_iff _ _).mp hi
      exact absurd (hneeds (Or.inr ⟨object, List.mem_of_getElem? hget, hlive,
        (keyAt_eq hget).symm.trans hkey⟩)) hvalid

/-- **A get call on a namespace answers as its key asks for exactly if its arguments
suit.** -/
theorem step_honours_iff {ns : IpcNamespace} (hunique : ∀ kind, KeysUnique (ns.objects kind))
    {call : IpcCall} {kind : IpcKind} (hasks : call.asks = some kind) :
    GetHonours call.key call.flags (ns.objects kind)
      ((ns.step call).1.objects kind, (ns.step call).2) ↔ call.Suits ns := by
  cases call with
  | msgget key msgflg =>
      cases hasks
      have hqueues : KeysUnique ns.queues := (hunique .queue).forget
      exact (@getHonours_forget _ key msgflg _ (getObject (msggetCall key msgflg) ns.queues)).trans
        (@honours_iff _ (msggetCall key msgflg) _ hqueues)
  | semget key nsems semflg =>
      cases hasks
      have hsemaphores : KeysUnique ns.semaphores := (hunique .semaphore).forget
      exact (@getHonours_forget _ key semflg _ ((semget ns key nsems semflg).1.semaphores,
        (semget ns key nsems semflg).2)).trans (semget_honours_iff hsemaphores key nsems semflg)
  | shmget key shmSize shmflg fd pgid =>
      cases hasks
      have hshms : KeysUnique ns.shms := (hunique .shm).forget
      exact (@getHonours_forget _ key shmflg _
        (getObject (shmgetCall key shmSize shmflg fd pgid) ns.shms)).trans
          (@honours_iff _ (shmgetCall key shmSize shmflg fd pgid) _ hshms)
  | _ => cases hasks

theorem SameObjects.keysUnique {D : Type} {objects objects' : List (IpcObject D)}
    (h : SameObjects objects objects') (hunique : KeysUnique objects) : KeysUnique objects' := by
  intro i j hi hj hkey hne
  rw [h.live] at hi hj
  rw [h.key] at hne
  rw [h.key, h.key] at hkey
  exact hunique i j hi hj hkey hne

/-- A get call only creates an object where there is none of its key. -/
theorem GetSpec.keysUnique {D : Type} {key : BitVec 64} {place : Option Nat}
    {objects : List (IpcObject D)} {out : List (IpcObject D) × Except Errno (BitVec 32)}
    (hspec : GetSpec key place objects out) (hunique : KeysUnique objects) :
    KeysUnique out.1 := by
  cases hspec with
  | refused hplace hsame => exact hsame.keysUnique hunique
  | found hplace hlive hprivate hkey => exact hunique
  | @created n objects' hplace hfree hnew hlive hgeneration hkey =>
      have hprivate : key.setWidth 32 ≠ 0#32 → key ≠ ipcPrivate := by
        rintro hne rfl
        exact hne rfl
      intro i j hi hj hij hne
      rw [hlive] at hi hj
      rw [hkey, hkey] at hij
      rw [hkey] at hne
      by_cases hin : i = n <;> by_cases hjn : j = n
      · exact hin.trans hjn.symm
      · simp only [hin, hjn, if_true, if_false, decide_false, Bool.false_or] at hij hne hj
        exact absurd ⟨hprivate hne, hij.symm⟩ (hnew j hj)
      · simp only [hin, hjn, if_true, if_false, decide_false, Bool.false_or] at hij hne hi
        exact absurd ⟨hprivate (hij ▸ hne), hij⟩ (hnew i hi)
      · simp only [hin, hjn, if_false, decide_false, Bool.false_or] at hij hne hi hj
        exact hunique i j hi hj hij hne

/-- No call gives two objects of a kind the same key. -/
theorem KeysUnique.step {ns : IpcNamespace} (h : ∀ kind, KeysUnique (ns.objects kind))
    (call : IpcCall) (kind : IpcKind) : KeysUnique ((ns.step call).1.objects kind) := by
  cases step_spec ns call with
  | @get k hasks hspec hothers =>
      by_cases hk : kind = k
      · rw [hk]
        exact hspec.keysUnique (h k)
      · rw [hothers kind hk]
        exact h kind
  | keep hasks hsame hlength => exact (hsame kind).keysUnique (h kind)
  | @remove k n hasks hremoved hothers =>
      by_cases hk : kind = k
      · rw [hk]
        intro i j hi hj hij hne
        rw [hremoved.live, Bool.and_eq_true] at hi hj
        rw [hremoved.key] at hne
        rw [hremoved.key, hremoved.key] at hij
        exact h k i j hi.2 hj.2 hij hne
      · rw [hothers kind hk]
        exact h kind

/-- **No two objects of a kind ever have the same key.** -/
theorem keysUnique_run (calls : List IpcCall) (kind : IpcKind) :
    KeysUnique ((IpcNamespace.empty.run calls).objects kind) := by
  refine run_induction (fun ns => ∀ kind, KeysUnique (ns.objects kind)) (fun _ _ => True) ?_
    (fun ns call h _ => KeysUnique.step h call) (fun _ _ _ => True.intro) kind
  intro kind i j hi
  cases kind <;> cases hi

/-- **When keys are honoured**: exactly in the runs whose get calls all have arguments
that suit. -/
theorem keysHonoured_iff (calls : List IpcCall) : KeysHonoured calls ↔
    ∀ before call, before ++ [call] <+: calls →
      call.Suits (IpcNamespace.empty.run before) := by
  constructor
  · intro h before call hbefore
    cases hasks : call.asks with
    | some kind =>
        exact (step_honours_iff (keysUnique_run before) hasks).mp
          ((h before call hbefore).2 kind hasks)
    | none =>
        cases call with
        | msgget | semget | shmget => cases hasks
        | _ => exact True.intro
  · intro h before call hbefore
    exact ⟨KeysUnique.step (keysUnique_run before) call, fun kind hasks =>
      (step_honours_iff (keysUnique_run before) hasks).mpr (h before call hbefore)⟩

/-- A private key with a bit set above the low half finds the queue of another
private key. -/
theorem keysHonoured_fails : ¬ KeysHonoured [.msgget 0 0x200, .msgget 0x100000000 0x200] := by
  intro h
  obtain ⟨i, hfree, hlive, hresult⟩ :=
    ((h [.msgget 0 0x200] (.msgget 0x100000000 0x200) (List.prefix_refl _)).2 .queue rfl).2 rfl
  cases i with
  | zero => cases hfree
  | succ i => cases hlive

end PRoot
