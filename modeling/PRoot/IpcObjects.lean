import PRoot.Paths
import PRoot.Slots

/-!
# System V IPC objects

The message queues, semaphore sets and shared memory segments of the `sysvipc`
extension: how they are found, created and removed.  A namespace has an array of
each kind; an id packs a place in the array and a generation.

* `getObject_spec`: what the three get calls do;
* `removeObject`, `shmctlRmid`: what `IPC_RMID` does.
-/

namespace PRoot

/-- What a slot holds besides its generation: the key and the data of an object. -/
structure Keyed (D : Type) where
  key : BitVec 32
  data : D
  deriving DecidableEq, Repr

/-- An element of one of the arrays of a namespace. -/
abbrev IpcObject (D : Type) := Slot 16 (Keyed D)

/-- `SysVIpcMsgQueueItem`. -/
structure MsgQueueItem where
  mtype : BitVec 64
  mtext : List (BitVec 8)
  deriving DecidableEq, Repr

/-- `struct msqid_ds`, as far as it is set. -/
structure MsqidDs where
  msgQnum : Nat
  msgCbytes : Nat
  msgQbytes : Nat
  msgLspid : Int
  msgLrpid : Int
  msgStime : Int
  msgRtime : Int
  deriving DecidableEq, Repr

/-- `SysVIpcMsgQueue`. -/
structure MsgQueue where
  items : List MsgQueueItem
  stats : MsqidDs
  deriving DecidableEq, Repr

/-- `SysVIpcSemaphore`. -/
structure Semaphore where
  sems : List (BitVec 16)
  nsems : Nat
  deriving DecidableEq, Repr

/-- `SysVIpcSharedMemMap`, with the process it belongs to. -/
structure SharedMemMap where
  process : Nat
  addr : BitVec 64
  size : BitVec 64
  deriving DecidableEq, Repr

/-- `SysVIpcSharedMem`.  The fields from `mode` on are those of `stats`. -/
structure SharedMem where
  rmidPending : Bool
  fd : Int
  mappings : List SharedMemMap
  mode : BitVec 64
  shmSegsz : BitVec 64
  shmCpid : Int
  deriving DecidableEq, Repr

/-- `SysVIpcNamespace`. -/
structure IpcNamespace where
  queues : List (IpcObject MsgQueue)
  semaphores : List (IpcObject Semaphore)
  shms : List (IpcObject SharedMem)
  deriving DecidableEq, Repr

/-- The namespace an initial tracee gets. -/
def IpcNamespace.empty : IpcNamespace := ⟨[], [], []⟩

/-- `IPC_CREAT`. -/
def ipcCreat : BitVec 64 := 0x200

/-- `IPC_EXCL`. -/
def ipcExcl : BitVec 64 := 0x400

/-- `IPC_PRIVATE`. -/
def ipcPrivate : BitVec 64 := 0

/-- `SYSVIPC_MAX_SEMS`. -/
def sysvipcMaxSems : Nat := 512

/-- `SYSVIPC_MAX_NSEMS`. -/
def sysvipcMaxNsems : Nat := 512

/-- `IPC_OBJECT_ID`: a place and a generation in one `int`. -/
def ipcObjectId (index : Nat) (generation : BitVec 16) : BitVec 32 :=
  BitVec.ofNat 32 (index + 1) ||| generation.signExtend 32 <<< 12

/-- `LOOKUP_IPC_OBJECT`, for the value of the first argument register. -/
def lookupIpcObject {D : Type} (objects : List (IpcObject D)) (arg : BitVec 64) :
    Except Errno Nat :=
  let objectId := arg.setWidth 32
  let objectIndex := (objectId &&& 0xFFF).toInt
  if objectIndex ≤ 0 ∨ objectIndex > (BitVec.ofNat 32 objects.length).toInt then .error .EINVAL
  else
    match objects[(objectIndex - 1).toNat]? with
    | none => .error .EINVAL
    | some object =>
        if object.valid = false ∨
            object.generation.toInt ≠ (objectId.sshiftRight 12 &&& 0xFFFF).toInt then
          .error .EINVAL
        else .ok (objectIndex - 1).toNat

/-! ## The get calls -/

/-- How the search of a get call ends. -/
inductive Search
  | found (index : Nat)
  | missing (unused : Option Nat)
  deriving DecidableEq, Repr

/-- The loop of the get calls, from the place `index` on: it ends at the object of
the key, and takes down the first unused slot before it. -/
def searchKey {D : Type} (key : BitVec 64) : List (IpcObject D) → Nat → Option Nat → Search
  | [], _, unused => .missing unused
  | object :: rest, index, unused =>
      if object.valid then
        if key ≠ ipcPrivate ∧ object.content.key = key.setWidth 32 then .found index
        else searchKey key rest (index + 1) unused
      else searchKey key rest (index + 1) (unused.or (some index))

/-- In what the three get calls differ: how many slots there may be, what a new
slot holds, what is written to the slot of a new object, or why there is none, and
why an existing object does not suit. -/
structure GetCall (D : Type) where
  key : BitVec 64
  flags : BitVec 64
  limit : Option Nat
  zero : D
  make : D → D
  refuse : Option Errno
  unsuited : D → Option Errno

section Get

variable {D : Type} (call : GetCall D) (objects : List (IpcObject D))

/-- Whether a flag is set. -/
def GetCall.has (flag : BitVec 64) : Bool := call.flags &&& flag ≠ 0

/-- Whether there is no room for another slot. -/
def GetCall.full : Bool := call.limit.any (objects.length ≥ ·)

/-- The slot a new object goes to, with the array grown for it where no slot is
unused. -/
def GetCall.slot (unused : Option Nat) : Nat × List (IpcObject D) :=
  match unused with
  | some index => (index, objects)
  | none => (objects.length, Slot.grow objects ⟨0, call.zero⟩)

/-- What `sysvipc_msgget`, `sysvipc_semget` and `sysvipc_shmget` have in common. -/
def getObject : List (IpcObject D) × Except Errno (BitVec 32) :=
  match searchKey call.key objects 0 none with
  | .found index =>
      if call.has ipcCreat ∧ call.has ipcExcl then (objects, .error .EEXIST)
      else
        match (objects[index]?).bind fun object => call.unsuited object.content.data with
        | some e => (objects, .error e)
        | none => (objects, .ok (ipcObjectId index (Slot.generationAt objects index)))
  | .missing unused =>
      if ¬ call.has ipcCreat then (objects, .error .ENOENT)
      else if unused = none ∧ call.full objects then (objects, .error .ENOSPC)
      else
        let (index, objects) := call.slot objects unused
        match call.refuse with
        | some e =>
            (Slot.update objects index fun content => ⟨content.key, call.make content.data⟩,
              .error e)
        | none =>
            (Slot.occupy objects index fun content =>
                ⟨call.key.setWidth 32, call.make content.data⟩,
              .ok (ipcObjectId index (Slot.generationAt objects index)))

/-- Where a get call creates its object, if it creates one. -/
def GetCall.place : Option Nat :=
  match searchKey call.key objects 0 none with
  | .found _ => none
  | .missing unused =>
      if call.has ipcCreat ∧ ¬ (unused = none ∧ call.full objects) ∧ call.refuse = none then
        some (call.slot objects unused).1
      else none

end Get

/-- What `memset` leaves of a queue. -/
def MsgQueue.zero : MsgQueue := ⟨[], ⟨0, 0, 0, 0, 0, 0, 0⟩⟩

/-- What `memset` leaves of a set. -/
def Semaphore.zero : Semaphore := ⟨[], 0⟩

/-- What `memset` leaves of a segment. -/
def SharedMem.zero : SharedMem := ⟨false, 0, [], 0, 0, 0⟩

/-- The get call of `sysvipc_msgget`. -/
def msggetCall (key msgflg : BitVec 64) : GetCall MsgQueue where
  key
  flags := msgflg
  limit := none
  zero := .zero
  make _ := ⟨[], { MsgQueue.zero.stats with msgQbytes := 1024 * 64 }⟩
  refuse := none
  unsuited _ := none

/-- `sysvipc_msgget`. -/
def msgget (ns : IpcNamespace) (key msgflg : BitVec 64) :
    IpcNamespace × Except Errno (BitVec 32) :=
  let (queues, result) := getObject (msggetCall key msgflg) ns.queues
  ({ ns with queues }, result)

/-- The get call of `sysvipc_semget`. -/
def semgetCall (key nsems semflg : BitVec 64) : GetCall Semaphore where
  key
  flags := semflg
  limit := some sysvipcMaxSems
  zero := .zero
  make _ :=
    let nsems := (nsems.setWidth 32).toNat
    ⟨List.replicate nsems 0, nsems⟩
  refuse := none
  unsuited semaphore := if semaphore.nsems < (nsems.setWidth 32).toNat then some .EINVAL else none

/-- The first check of `sysvipc_semget`. -/
def nsemsValid (nsems : BitVec 64) : Bool :=
  0 < (nsems.setWidth 32).toInt ∧ (nsems.setWidth 32).toInt ≤ sysvipcMaxNsems

/-- `sysvipc_semget`. -/
def semget (ns : IpcNamespace) (key nsems semflg : BitVec 64) :
    IpcNamespace × Except Errno (BitVec 32) :=
  if nsemsValid nsems then
    let (semaphores, result) := getObject (semgetCall key nsems semflg) ns.semaphores
    ({ ns with semaphores }, result)
  else (ns, .error .EINVAL)

/-- The get call of `sysvipc_shmget`.  `fd` is what the helper answers, `pgid` the
process of the caller. -/
def shmgetCall (key shmSize shmflg : BitVec 64) (fd pgid : Int) : GetCall SharedMem where
  key
  flags := shmflg
  limit := none
  zero := .zero
  make shm :=
    if fd < 0 then { shm with fd }
    else { shm with fd, mode := shmflg &&& 0x1FF, shmSegsz := shmSize, shmCpid := pgid,
                    mappings := [] }
  refuse := if fd < 0 then some .ENOSPC else none
  unsuited shm := if shmSize ≠ 0 ∧ shmSize ≠ shm.shmSegsz then some .EINVAL else none

/-- `sysvipc_shmget`. -/
def shmget (ns : IpcNamespace) (key shmSize shmflg : BitVec 64) (fd pgid : Int) :
    IpcNamespace × Except Errno (BitVec 32) :=
  let (shms, result) := getObject (shmgetCall key shmSize shmflg fd pgid) ns.shms
  ({ ns with shms }, result)

/-! ## Removal -/

/-- `sysvipc_msgctl` with `IPC_RMID`. -/
def msgctlRmid (ns : IpcNamespace) (arg : BitVec 64) : IpcNamespace × Except Errno (BitVec 32) :=
  match lookupIpcObject ns.queues arg with
  | .error e => (ns, .error e)
  | .ok index =>
      ({ ns with queues := Slot.release ns.queues index fun content =>
          { content with data := { content.data with items := [] } } }, .ok 0)

/-- `sysvipc_semctl` with `IPC_RMID`. -/
def semctlRmid (ns : IpcNamespace) (arg : BitVec 64) : IpcNamespace × Except Errno (BitVec 32) :=
  match lookupIpcObject ns.semaphores arg with
  | .error e => (ns, .error e)
  | .ok index =>
      ({ ns with semaphores := Slot.release ns.semaphores index fun content =>
          { content with data := { content.data with sems := [] } } }, .ok 0)

/-- `sysvipc_do_rmid`. -/
def doRmid (shms : List (IpcObject SharedMem)) (index : Nat) : List (IpcObject SharedMem) :=
  Slot.release shms index fun content =>
    { content with data := { content.data with rmidPending := false, fd := -1, mappings := [] } }

/-- `sysvipc_shmctl` with `IPC_RMID`: a mapped segment is removed later. -/
def shmctlRmid (ns : IpcNamespace) (arg : BitVec 64) : IpcNamespace × Except Errno (BitVec 32) :=
  match lookupIpcObject ns.shms arg with
  | .error e => (ns, .error e)
  | .ok index =>
      let mapped := (ns.shms[index]?).any fun shm => shm.content.data.mappings ≠ []
      ({ ns with shms :=
          if mapped then
            Slot.update ns.shms index fun content =>
              { content with data := { content.data with rmidPending := true } }
          else doRmid ns.shms index }, .ok 0)

/-! ## What the operations do -/

variable {i : Nat}

theorem lookupIpcObject_live {D : Type} {objects : List (IpcObject D)} {arg : BitVec 64}
    (h : lookupIpcObject objects arg = .ok i) : Slot.live objects i = true := by
  unfold lookupIpcObject at h
  simp only at h
  split at h
  · cases h
  · split at h
    · cases h
    · rename_i object hget
      split at h
      · cases h
      · rename_i hvalid
        cases h
        refine (Slot.live_iff _ _).mpr ⟨object, hget, ?_⟩
        by_contra hfree
        exact hvalid (Or.inl (Bool.eq_false_iff.mpr hfree))

section Spec

variable {D : Type} {call : GetCall D} {objects : List (IpcObject D)}

/-- The key at some place. -/
def keyAt (objects : List (IpcObject D)) (i : Nat) : BitVec 32 :=
  (objects[i]?).elim 0 fun object => object.content.key

/-- Two arrays with the same objects, as far as keys and ids go. -/
structure SameObjects (objects objects' : List (IpcObject D)) : Prop where
  live : ∀ i, Slot.live objects' i = Slot.live objects i
  generation : ∀ i, Slot.generationAt objects' i = Slot.generationAt objects i
  key : ∀ i, keyAt objects' i = keyAt objects i

theorem SameObjects.refl (objects : List (IpcObject D)) : SameObjects objects objects :=
  ⟨fun _ => rfl, fun _ => rfl, fun _ => rfl⟩

theorem SameObjects.trans {objects' objects'' : List (IpcObject D)}
    (h : SameObjects objects objects') (h' : SameObjects objects' objects'') :
    SameObjects objects objects'' :=
  ⟨fun i => (h'.live i).trans (h.live i), fun i => (h'.generation i).trans (h.generation i),
    fun i => (h'.key i).trans (h.key i)⟩

theorem keyAt_eq {object : IpcObject D} (h : objects[i]? = some object) :
    keyAt objects i = object.content.key := by
  rw [keyAt, h, Option.elim_some]

theorem keyAt_modify (i j : Nat) (f : IpcObject D → IpcObject D) (hi : i < objects.length) :
    keyAt (objects.modify i f) j =
      if j = i then (f (objects[i])).content.key else keyAt objects j := by
  rw [keyAt, keyAt, List.getElem?_modify]
  by_cases h : i = j
  · subst h
    rw [List.getElem?_eq_getElem hi]
    simp
  · simp [h, Ne.symm h]

/-- The array may be grown. -/
theorem SameObjects.grow (zero : D) : SameObjects objects (Slot.grow objects ⟨0, zero⟩) := by
  refine ⟨fun i => Slot.live_grow objects i _, fun i => Slot.generationAt_grow objects i _,
    fun i => ?_⟩
  rw [keyAt, keyAt, Slot.grow, List.getElem?_append]
  split
  · rfl
  · rename_i hle
    rw [List.getElem?_eq_none (Nat.le_of_not_lt hle)]
    cases i - objects.length <;> rfl

/-- Data other than the key may change. -/
theorem SameObjects.update (i : Nat) (data : D → D) :
    SameObjects objects
      (Slot.update objects i fun content => ⟨content.key, data content.data⟩) := by
  refine ⟨fun j => Slot.live_update objects i j _, fun j => Slot.generationAt_update objects i j _,
    fun j => ?_⟩
  rw [keyAt, keyAt, Slot.update, List.getElem?_modify]
  cases objects[j]? with
  | none => rfl
  | some object => by_cases h : i = j <;> simp [h]

variable {key : BitVec 64} {l : List (IpcObject D)} {n : Nat}

/-- What the search finds is an object of the key. -/
theorem searchKey_found {u : Option Nat} (h : searchKey key l n u = .found i) :
    n ≤ i ∧ ∃ object, l[i - n]? = some object ∧
      object.valid = true ∧ key ≠ ipcPrivate ∧ object.content.key = key.setWidth 32 := by
  induction l generalizing n u with
  | nil => cases h
  | cons object rest ih =>
      have hrest : ∀ {u}, searchKey key rest (n + 1) u = .found i → n ≤ i ∧ ∃ object',
          (object :: rest)[i - n]? = some object' ∧ object'.valid = true ∧ key ≠ ipcPrivate ∧
            object'.content.key = key.setWidth 32 := by
        intro u hfound
        obtain ⟨hle, object', hget, hobject⟩ := ih hfound
        refine ⟨by omega, object', ?_, hobject⟩
        rw [show i - n = i - (n + 1) + 1 by omega]
        exact hget
      rw [searchKey] at h
      split at h
      · rename_i hvalid
        split at h
        · rename_i hkey
          cases h
          exact ⟨Nat.le_refl _, object, by rw [Nat.sub_self]; rfl, hvalid, hkey⟩
        · exact hrest h
      · exact hrest h

/-- A slot that was taken down stays. -/
theorem searchKey_unused {v : Option Nat} (h : searchKey key l n (some i) = .missing v) :
    v = some i := by
  induction l generalizing n with
  | nil => exact (Search.missing.inj h).symm
  | cons object rest ih =>
      rw [searchKey] at h
      split at h
      · split at h
        · cases h
        · exact ih h
      · exact ih h

/-- Where no slot is taken down, all are in use. -/
theorem searchKey_full {u : Option Nat} (h : searchKey key l n u = .missing none) :
    ∀ object ∈ l, object.valid = true := by
  induction l generalizing n u with
  | nil => exact fun object hobject => absurd hobject List.not_mem_nil
  | cons object rest ih =>
      rw [searchKey] at h
      split at h
      · rename_i hvalid
        split at h
        · cases h
        · intro o ho
          rcases List.mem_cons.mp ho with rfl | ho
          · exact hvalid
          · exact ih h o ho
      · cases u with
        | none => cases searchKey_unused h
        | some i => cases searchKey_unused h

/-- What the search misses is not there, and the slot it takes down is unused. -/
theorem searchKey_missing {u v : Option Nat} (h : searchKey key l n u = .missing v) :
    (∀ object ∈ l, object.valid = true →
      ¬ (key ≠ ipcPrivate ∧ object.content.key = key.setWidth 32)) ∧
    ∀ i, v = some i → u = some i ∨
      ∃ object, n ≤ i ∧ l[i - n]? = some object ∧ object.valid = false := by
  induction l generalizing n u with
  | nil =>
      cases h
      exact ⟨fun object hobject => absurd hobject List.not_mem_nil, fun i hi => Or.inl hi⟩
  | cons object rest ih =>
      have hshift : ∀ i, (∃ object', n + 1 ≤ i ∧ rest[i - (n + 1)]? = some object' ∧
          object'.valid = false) → ∃ object', n ≤ i ∧ (object :: rest)[i - n]? = some object' ∧
            object'.valid = false := by
        rintro i ⟨object', hle, hget, hobject⟩
        refine ⟨object', by omega, ?_, hobject⟩
        rw [show i - n = i - (n + 1) + 1 by omega]
        exact hget
      rw [searchKey] at h
      split at h
      · split at h
        · cases h
        · rename_i hkey
          obtain ⟨hno, hunused⟩ := ih h
          refine ⟨fun o ho hv => ?_, fun i hi => (hunused i hi).imp_right (hshift i)⟩
          rcases List.mem_cons.mp ho with rfl | ho
          · exact hkey
          · exact hno o ho hv
      · rename_i hvalid
        obtain ⟨hno, hunused⟩ := ih h
        refine ⟨fun o ho hv => ?_, fun i hi => ?_⟩
        · rcases List.mem_cons.mp ho with rfl | ho
          · exact absurd hv hvalid
          · exact hno o ho hv
        · rcases hunused i hi with hor | hlater
          · cases u with
            | some j => exact Or.inl hor
            | none =>
                obtain rfl : n = i := Option.some.inj hor
                exact Or.inr ⟨object, Nat.le_refl _, by rw [Nat.sub_self]; rfl,
                  Bool.eq_false_iff.mpr hvalid⟩
          · exact Or.inr (hshift i hlater)

/-- **What a get call does**, where `place` is the slot it creates an object in: it
changes nothing that matters and fails, or it answers with an object of its key, or
it creates an object. -/
inductive GetSpec (key : BitVec 64) (place : Option Nat) (objects : List (IpcObject D)) :
    List (IpcObject D) × Except Errno (BitVec 32) → Prop
  | refused {objects' : List (IpcObject D)} {e : Errno} (hplace : place = none)
      (hsame : SameObjects objects objects') : GetSpec key place objects (objects', .error e)
  | found {i : Nat} (hplace : place = none) (hlive : Slot.live objects i = true)
      (hprivate : key ≠ ipcPrivate) (hkey : keyAt objects i = key.setWidth 32) :
      GetSpec key place objects (objects, .ok (ipcObjectId i (Slot.generationAt objects i)))
  | created {i : Nat} {objects' : List (IpcObject D)} (hplace : place = some i)
      (hfree : Slot.live objects i = false)
      (hnew : ∀ j, Slot.live objects j = true →
        ¬ (key ≠ ipcPrivate ∧ keyAt objects j = key.setWidth 32))
      (hlive : ∀ j, Slot.live objects' j = (decide (j = i) || Slot.live objects j))
      (hgeneration : ∀ j, Slot.generationAt objects' j = Slot.generationAt objects j)
      (hkey : ∀ j, keyAt objects' j = if j = i then key.setWidth 32 else keyAt objects j) :
      GetSpec key place objects (objects', .ok (ipcObjectId i (Slot.generationAt objects i)))

/-- The slot of a new object is there, and free. -/
theorem GetCall.slot_spec {unused : Option Nat}
    (hunused : ∀ i, unused = some i → ∃ object, objects[i]? = some object ∧ object.valid = false) :
    SameObjects objects (call.slot objects unused).2 ∧
      (call.slot objects unused).1 < (call.slot objects unused).2.length ∧
      Slot.live objects (call.slot objects unused).1 = false := by
  cases unused with
  | none =>
      refine ⟨SameObjects.grow call.zero, ?_, ?_⟩
      · simp [GetCall.slot, Slot.grow]
      · rw [GetCall.slot, Slot.live, List.getElem?_eq_none (Nat.le_refl _)]
        rfl
  | some i =>
      obtain ⟨object, hget, hfree⟩ := hunused i rfl
      refine ⟨SameObjects.refl objects, (List.getElem?_eq_some_iff.mp hget).1, ?_⟩
      rw [GetCall.slot, Slot.live, hget, Option.any_some, hfree]

theorem getObject_spec (call : GetCall D) (objects : List (IpcObject D)) :
    GetSpec call.key (call.place objects) objects (getObject call objects) := by
  unfold getObject
  cases hsearch : searchKey call.key objects 0 none with
  | found index =>
      obtain ⟨-, object, hget, hvalid, hprivate, hkey⟩ := searchKey_found hsearch
      rw [Nat.sub_zero] at hget
      have hplace : call.place objects = none := by rw [GetCall.place, hsearch]
      have hlive : Slot.live objects index = true := (Slot.live_iff _ _).mpr ⟨object, hget, hvalid⟩
      simp only
      split
      · exact .refused hplace (SameObjects.refl objects)
      · split
        · exact .refused hplace (SameObjects.refl objects)
        · exact .found hplace hlive hprivate ((keyAt_eq hget).trans hkey)
  | missing unused =>
      obtain ⟨hno, hunused⟩ := searchKey_missing hsearch
      have hnew : ∀ j, Slot.live objects j = true →
          ¬ (call.key ≠ ipcPrivate ∧ keyAt objects j = call.key.setWidth 32) := by
        intro j hj
        obtain ⟨object, hget, hvalid⟩ := (Slot.live_iff _ _).mp hj
        rw [keyAt_eq hget]
        exact hno object (List.mem_of_getElem? hget) hvalid
      obtain ⟨hsame, hlt, hfree⟩ := @GetCall.slot_spec D call objects unused fun i hi => by
        rcases hunused i hi with hnone | ⟨object, -, hget, hobject⟩
        · cases hnone
        · exact ⟨object, by simpa using hget, hobject⟩
      have hplace : call.place objects =
          if call.has ipcCreat ∧ ¬ (unused = none ∧ call.full objects) ∧ call.refuse = none then
            some (call.slot objects unused).1
          else none := by rw [GetCall.place, hsearch]
      simp only
      generalize hslot : call.slot objects unused = slot at *
      obtain ⟨index, grown⟩ := slot
      split
      · rename_i hcreat
        exact .refused (by rw [hplace, if_neg fun h => hcreat h.1]) (SameObjects.refl objects)
      · rename_i hcreat
        split
        · rename_i hfull
          exact .refused (by rw [hplace, if_neg fun h => h.2.1 hfull]) (SameObjects.refl objects)
        · rename_i hfull
          simp only
          cases hrefuse : call.refuse with
          | some e =>
              refine .refused ?_ (hsame.trans (SameObjects.update index call.make))
              rw [hplace, if_neg fun h => by simp [hrefuse] at h]
          | none =>
              rw [hsame.generation]
              refine .created ?_ hfree hnew (fun j => ?_) (fun j => ?_) (fun j => ?_)
              · rw [hplace, if_pos ⟨not_not.mp hcreat, hfull, hrefuse⟩]
              · rw [Slot.live_occupy grown index j _ hlt, hsame.live]
              · rw [Slot.generationAt_occupy, hsame.generation]
              · rw [Slot.occupy, keyAt_modify index j _ hlt, hsame.key]

/-- A get call leaves the objects there are alone. -/
theorem getObject_others (call : GetCall D) (hlive : Slot.live objects i = true) :
    (getObject call objects).1[i]? = objects[i]? := by
  unfold getObject
  cases hsearch : searchKey call.key objects 0 none with
  | found index =>
      simp only
      split
      · rfl
      · split <;> rfl
  | missing unused =>
      obtain ⟨-, hunused⟩ := searchKey_missing hsearch
      obtain ⟨-, -, hfree⟩ := @GetCall.slot_spec D call objects unused fun j hj => by
        rcases hunused j hj with hnone | ⟨object, -, hget, hobject⟩
        · cases hnone
        · exact ⟨object, by simpa using hget, hobject⟩
      have hgrown : (call.slot objects unused).2[i]? = objects[i]? := by
        cases unused with
        | none => exact List.getElem?_append_left (Slot.live_lt hlive)
        | some j => rfl
      simp only
      generalize call.slot objects unused = slot at *
      obtain ⟨index, grown⟩ := slot
      have hne : index ≠ i := by
        rintro rfl
        exact absurd (hfree.symm.trans hlive) (by decide)
      split
      · rfl
      · split
        · rfl
        · cases call.refuse with
          | some e => simpa [Slot.update, List.getElem?_modify, hne] using hgrown
          | none => simpa [Slot.occupy, List.getElem?_modify, hne] using hgrown

/-- What the slot at some place holds; slots to come hold `zero`. -/
def slotData (zero : D) (objects : List (IpcObject D)) (i : Nat) : D :=
  (objects[i]?).elim zero fun object => object.content.data

@[simp] theorem slotData_grow (zero : D) (i : Nat) :
    slotData zero (Slot.grow objects ⟨0, zero⟩) i = slotData zero objects i := by
  rw [slotData, slotData, Slot.grow, List.getElem?_append]
  split
  · rfl
  · rename_i hle
    rw [List.getElem?_eq_none (Nat.le_of_not_lt hle)]
    cases i - objects.length <;> rfl

theorem slotData_modify (zero : D) (i j : Nat) (f : IpcObject D → IpcObject D) (data : D → D)
    (hf : ∀ object, (f object).content.data = data object.content.data)
    (hi : i < objects.length) : slotData zero (objects.modify i f) j =
      if j = i then data (slotData zero objects j) else slotData zero objects j := by
  rw [slotData, slotData, List.getElem?_modify]
  by_cases h : i = j
  · subst h
    rw [List.getElem?_eq_getElem hi]
    simp [hf]
  · simp [h, Ne.symm h]

/-- What a get call does to a slot: nothing, or it was free and is filled, and occupied unless
the call is refused. -/
theorem getObject_data (call : GetCall D) (objects : List (IpcObject D)) (i : Nat) :
    (Slot.live (getObject call objects).1 i = Slot.live objects i ∧
      slotData call.zero (getObject call objects).1 i = slotData call.zero objects i) ∨
    (Slot.live objects i = false ∧
      slotData call.zero (getObject call objects).1 i = call.make (slotData call.zero objects i) ∧
      (Slot.live (getObject call objects).1 i = true ↔ call.refuse = none)) := by
  unfold getObject
  cases hsearch : searchKey call.key objects 0 none with
  | found index =>
      simp only
      split
      · exact Or.inl ⟨rfl, rfl⟩
      · split <;> exact Or.inl ⟨rfl, rfl⟩
  | missing unused =>
      obtain ⟨-, hunused⟩ := searchKey_missing hsearch
      obtain ⟨hsame, hlt, hfree⟩ := @GetCall.slot_spec D call objects unused fun j hj => by
        rcases hunused j hj with hnone | ⟨object, -, hget, hobject⟩
        · cases hnone
        · exact ⟨object, by simpa using hget, hobject⟩
      have hgrown : ∀ j, slotData call.zero (call.slot objects unused).2 j =
          slotData call.zero objects j := by
        intro j
        cases unused with
        | none => exact slotData_grow call.zero j
        | some i => rfl
      simp only
      generalize call.slot objects unused = slot at *
      obtain ⟨index, grown⟩ := slot
      split
      · exact Or.inl ⟨rfl, rfl⟩
      · split
        · exact Or.inl ⟨rfl, rfl⟩
        · by_cases hi : i = index
          · subst hi
            refine Or.inr ⟨hfree, ?_⟩
            cases hrefuse : call.refuse with
            | some e =>
                refine ⟨?_, ?_⟩
                · exact (slotData_modify _ _ _ _ call.make (fun _ => rfl) hlt).trans
                    ((if_pos rfl).trans (congrArg call.make (hgrown i)))
                · simp [hsame.live, hfree]
            | none =>
                refine ⟨?_, ?_⟩
                · exact (slotData_modify _ _ _ _ call.make (fun _ => rfl) hlt).trans
                    ((if_pos rfl).trans (congrArg call.make (hgrown i)))
                · simp [Slot.live_occupy grown i i _ hlt]
          · refine Or.inl ?_
            cases call.refuse with
            | some e =>
                refine ⟨?_, ?_⟩
                · simp [hsame.live]
                · exact (slotData_modify _ _ _ _ call.make (fun _ => rfl) hlt).trans
                    ((if_neg hi).trans (hgrown i))
            | none =>
                refine ⟨?_, ?_⟩
                · simp [Slot.live_occupy grown index i _ hlt, hsame.live, hi]
                · exact (slotData_modify _ _ _ _ call.make (fun _ => rfl) hlt).trans
                    ((if_neg hi).trans (hgrown i))

/-- An array is only grown where all its slots are in use. -/
theorem getObject_length (call : GetCall D) (hlive : ∀ i, Slot.live objects i = true → i < n)
    (hlength : objects.length ≤ n + 1) :
    (getObject call objects).1.length ≤ n + 1 := by
  have hslot : ∀ unused, searchKey call.key objects 0 none = .missing unused →
      (call.slot objects unused).2.length ≤ n + 1 := by
    intro unused hsearch
    cases unused with
    | some i => exact hlength
    | none =>
        have hfull := searchKey_full hsearch
        have hle : objects.length ≤ n := by
          by_contra hlt
          have hget := List.getElem?_eq_getElem (Nat.lt_of_not_le hlt)
          have hin := (Slot.live_iff objects n).mpr
            ⟨_, hget, hfull _ (List.getElem_mem (Nat.lt_of_not_le hlt))⟩
          exact Nat.lt_irrefl n (hlive n hin)
        show (objects ++ _).length ≤ n + 1
        rw [List.length_append]
        exact Nat.succ_le_succ hle
  unfold getObject
  cases hsearch : searchKey call.key objects 0 none with
  | found index =>
      simp only
      split
      · exact hlength
      · split <;> exact hlength
  | missing unused =>
      have hgrown := hslot unused hsearch
      simp only
      split
      · exact hlength
      · split
        · exact hlength
        · split <;> simpa [Slot.update, Slot.occupy] using hgrown

end Spec

/-! ## Runs -/

/-- The calls that create and remove objects, with the values of their argument
registers. -/
inductive IpcCall
  | msgget (key msgflg : BitVec 64)
  | semget (key nsems semflg : BitVec 64)
  | shmget (key shmSize shmflg : BitVec 64) (fd pgid : Int)
  | msgctlRmid (msqid : BitVec 64)
  | semctlRmid (semid : BitVec 64)
  | shmctlRmid (shmid : BitVec 64)
  deriving DecidableEq, Repr

/-- A call on a namespace. -/
def IpcNamespace.step (ns : IpcNamespace) : IpcCall → IpcNamespace × Except Errno (BitVec 32)
  | .msgget key msgflg => msgget ns key msgflg
  | .semget key nsems semflg => semget ns key nsems semflg
  | .shmget key shmSize shmflg fd pgid => shmget ns key shmSize shmflg fd pgid
  | .msgctlRmid msqid => msgctlRmid ns msqid
  | .semctlRmid semid => semctlRmid ns semid
  | .shmctlRmid shmid => shmctlRmid ns shmid

/-- One call after the other. -/
def IpcNamespace.run (ns : IpcNamespace) (calls : List IpcCall) : IpcNamespace :=
  calls.foldl (fun ns call => (ns.step call).1) ns

end PRoot
