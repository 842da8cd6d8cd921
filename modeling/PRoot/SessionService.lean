import Mathlib.Data.List.AList
import Mathlib.Data.List.DropRight
import Mathlib.Data.List.Perm.Basic
import PRoot.AbortableRuns

/-!
# The terminal sessions of the app

`SessionService` keeps the sessions under their ids, the mode of each one, and the order in which
they are listed (`SessionService.kt`).  New ids are made by `generateUniqueSessionId`
(`KeyShortcutHandler.kt`).

* `step`: a call of the binder;
* `Consistent`: three collections with the same ids;
* `Accounted`: each session is registered once, with its mode, until it is terminated;
* `sessions_consistent`: both hold after any calls.
-/

namespace Sessions

/-- A string, by its UTF-16 code units. -/
structure KString where
  units : List UInt16
  deriving DecidableEq, Repr

/-- `Char.isWhitespace`. -/
def isWhitespace (c : UInt16) : Bool :=
  (9 ≤ c && c ≤ 13) || (28 ≤ c && c ≤ 32) || c = 0xa0 || c = 0x1680 || (0x2000 ≤ c && c ≤ 0x200a) ||
    c = 0x2028 || c = 0x2029 || c = 0x202f || c = 0x205f || c = 0x3000

/-- `String.trim`. -/
def trim (text : KString) : KString :=
  ⟨(text.units.dropWhile isWhitespace).rdropWhile isWhitespace⟩

/-- The order of two strings is that of their first different units. -/
def compareUnits : List UInt16 → List UInt16 → Ordering
  | [], [] => .eq
  | [], _ :: _ => .lt
  | _ :: _, [] => .gt
  | a :: units, b :: other => (compare a b).then (compareUnits units other)

/-- `String.compareTo`. -/
def compareTo (text other : KString) : Ordering := compareUnits text.units other.units

/-- `"main$index"`. -/
def mainId (index : Nat) : KString :=
  ⟨("main".toList ++ Nat.toDigits 10 index).map fun c => UInt16.ofNat c.toNat⟩

/-- The loop of `generateUniqueSessionId`, with as many rounds as `fuel` says. -/
def uniqueIdFrom (existingIds : List KString) : Nat → Nat → Option KString
  | 0, _ => none
  | fuel + 1, index =>
      let newId := mainId index
      if newId ∈ existingIds then uniqueIdFrom existingIds fuel (index + 1) else some newId

def generateUniqueSessionId (existingIds : List KString) : Option KString :=
  uniqueIdFrom existingIds (existingIds.length + 1) 1

/-- A session that was made, told from the others by its number. -/
abbrev TerminalSession := Nat

/-- `service` counts the sessions it made; `finished` are those whose processes were told to end. -/
structure SessionService where
  sessions : AList fun _ : KString => TerminalSession
  sessionList : AList fun _ : KString => Int
  sessionOrder : List KString
  currentSession : KString × Int
  made : Nat
  finished : List TerminalSession
  notification : Option String
  stopped : Bool

/-- A call of the binder. -/
inductive SessionCall
  | createSession (id : KString) (workingMode : Int)
  /-- `setting` is the working mode of the settings. -/
  | renameSession (oldId newId : KString) (setting : Int)
  | moveSession (fromIndex toIndex : Int)
  | sortSessions (ascending : Bool)
  /-- `emulator`: the session has an emulator. -/
  | terminateSession (id : KString) (emulator : Bool)
  | terminateAllSessions
  deriving DecidableEq, Repr

/-- `oldId` is replaced where it stands, or `trimmed` is added. -/
def replaceId (oldId trimmed : KString) (sessionOrder : List KString) : List KString :=
  match sessionOrder.idxOf? oldId with
  | some idx => sessionOrder.set idx trimmed
  | none => sessionOrder ++ [trimmed]

namespace SessionService

/-- The service when it is created. -/
def start (currentSession : KString × Int) : SessionService :=
  ⟨∅, ∅, [], currentSession, 0, [], none, false⟩

variable (s : SessionService)

def getNotificationContentText : String :=
  let count := s.sessions.entries.length
  if count = 1 then "1 session running" else toString count ++ " sessions running"

def updateNotification : SessionService :=
  { s with notification := some s.getNotificationContentText }

def terminateAllSessions : SessionService :=
  { s with
    finished := s.finished ++ s.sessions.entries.map Sigma.snd
    sessions := ∅
    sessionList := ∅
    sessionOrder := [] }.updateNotification

def createSession (id : KString) (workingMode : Int) : SessionService :=
  { s with
    made := s.made + 1
    sessions := s.sessions.insert id s.made
    sessionList := s.sessionList.insert id workingMode
    sessionOrder :=
      if id ∈ s.sessionOrder then s.sessionOrder else s.sessionOrder ++ [id] }.updateNotification

/-- The session of `oldId` is registered as `trimmed`. -/
def register (oldId trimmed : KString) (session : TerminalSession) (mode : Int) : SessionService :=
  { s with
    sessions := (s.sessions.erase oldId).insert trimmed session
    sessionList := (s.sessionList.erase oldId).insert trimmed mode
    sessionOrder := replaceId oldId trimmed s.sessionOrder
    currentSession :=
      if s.currentSession.1 = oldId then (trimmed, mode) else s.currentSession }

/-- The new service, and what the caller is told. -/
def renameSession (oldId newId : KString) (setting : Int) : SessionService × Bool :=
  let trimmed := trim newId
  if trimmed.units = [] then (s, false)
  else if trimmed = oldId then (s, true)
  else if trimmed ∈ s.sessions then (s, false)
  else
    match s.sessions.lookup oldId with
    | none => (s, false)
    | some session =>
        (s.register oldId trimmed session ((s.sessionList.lookup oldId).getD setting), true)

/-- `fromIndex` and `toIndex` are compared with `sessionOrder.indices`. -/
def moveSession (fromIndex toIndex : Int) : SessionService :=
  let size : Int := s.sessionOrder.length
  if 0 ≤ fromIndex ∧ fromIndex < size ∧ 0 ≤ toIndex ∧ toIndex < size ∧ fromIndex ≠ toIndex then
    { s with
      sessionOrder :=
        (s.sessionOrder.eraseIdx fromIndex.toNat).insertIdx toIndex.toNat
          (s.sessionOrder.getD fromIndex.toNat ⟨[]⟩) }
  else s

/-- `sorted` and `sortedDescending` are stable. -/
def sortSessions (ascending : Bool) : SessionService :=
  { s with
    sessionOrder :=
      s.sessionOrder.mergeSort fun a b =>
        if ascending then (compareTo a b).isLE else (compareTo b a).isLE }

def terminateSession (id : KString) (emulator : Bool) : SessionService :=
  let finished := if emulator then s.finished ++ (s.sessions.lookup id).toList else s.finished
  let s' := { s with
    finished := finished
    sessions := s.sessions.erase id
    sessionList := s.sessionList.erase id
    sessionOrder := s.sessionOrder.erase id }
  if s'.sessions.entries = [] then { s' with stopped := true } else s'.updateNotification

def step : SessionCall → SessionService
  | .createSession id workingMode => s.createSession id workingMode
  | .renameSession oldId newId setting => (s.renameSession oldId newId setting).1
  | .moveSession fromIndex toIndex => s.moveSession fromIndex toIndex
  | .sortSessions ascending => s.sortSessions ascending
  | .terminateSession id emulator => s.terminateSession id emulator
  | .terminateAllSessions => s.terminateAllSessions

/-- The call ends as it should: no exception is thrown. -/
def next (s : SessionService) (call : SessionCall) : Option SessionService := some (s.step call)

/-- A session that is made has an id that is not in use. -/
def freshId (s : SessionService) : SessionCall → Bool
  | .createSession id _ => decide (id ∉ s.sessions)
  | _ => true

end SessionService

/-- What becomes of a session. -/
inductive SessionNote
  | created (session : TerminalSession) (workingMode : Int)
  | terminated (session : TerminalSession)
  deriving DecidableEq, Repr

namespace SessionService

variable (s : SessionService)

/-- What a call makes or terminates. -/
def notes : SessionCall → List SessionNote
  | .createSession _ workingMode => [.created s.made workingMode]
  | .terminateSession id _ => (s.sessions.lookup id).toList.map .terminated
  | .terminateAllSessions => s.sessions.entries.map fun entry => .terminated entry.2
  | _ => []

/-- **Three collections with the same ids.** -/
structure Consistent : Prop where
  order : s.sessionOrder.Perm s.sessions.keys
  list : s.sessionList.keys.Perm s.sessions.keys

/-- **Each session that was made and not terminated is registered once**, with its mode. -/
structure Accounted (log : List SessionNote) : Prop where
  registered : ∀ session mode, .created session mode ∈ log → .terminated session ∉ log →
    ∃ id, s.sessions.lookup id = some session ∧ s.sessionList.lookup id = some mode
  once : ∀ id other session, s.sessions.lookup id = some session →
    s.sessions.lookup other = some session → id = other
  known : ∀ id session, s.sessions.lookup id = some session → session < s.made
  noted : ∀ session mode, .created session mode ∈ log → session < s.made

end SessionService

/-! ## New ids -/

theorem mainId_chars (index : Nat) :
    (mainId index).units.map (fun unit => Char.ofNat unit.toNat) =
      "main".toList ++ Nat.toDigits 10 index := by
  rw [mainId, List.map_map]
  refine (List.map_congr_left fun c hc => ?_).trans (List.map_id _)
  have hsmall : c.toNat < 2 ^ 16 := by
    rcases List.mem_append.mp hc with hc | hc
    · have hmain : "main".toList = ['m', 'a', 'i', 'n'] := by simp
      rw [hmain] at hc
      simp only [List.mem_cons, List.not_mem_nil, or_false] at hc
      rcases hc with rfl | rfl | rfl | rfl <;> decide
    · have hdigit := Nat.isDigit_of_mem_toDigits (by decide) (by decide) hc
      have hle : c.toNat ≤ '9'.toNat := (Char.isDigit_iff_toNat.mp hdigit).2
      exact hle.trans_lt (by decide)
  show Char.ofNat (UInt16.ofNat c.toNat).toNat = c
  rw [UInt16.toNat_ofNat', Nat.mod_eq_of_lt hsmall, Char.ofNat_toNat]

theorem mainId_injective : Function.Injective mainId := by
  intro n m h
  have hchars := congrArg (fun id => id.units.map fun unit => Char.ofNat unit.toNat) h
  rw [mainId_chars, mainId_chars] at hchars
  have hdigits := congrArg (Nat.ofDigitChars 10 · 0) (List.append_cancel_left hchars)
  rwa [Nat.ofDigitChars_ten_toDigits, Nat.ofDigitChars_ten_toDigits] at hdigits

/-- The loop ends with an id that does not exist, or all the ids it tries exist. -/
theorem uniqueIdFrom_spec (existingIds : List KString) (fuel index : Nat) :
    (∃ id, uniqueIdFrom existingIds fuel index = some id ∧ id ∉ existingIds) ∨
      ∀ i < fuel, mainId (index + i) ∈ existingIds := by
  induction fuel generalizing index with
  | zero => exact .inr fun i hi => absurd hi (Nat.not_lt_zero i)
  | succ fuel ih =>
      rw [uniqueIdFrom]
      by_cases hmem : mainId index ∈ existingIds
      · rw [if_pos hmem]
        refine (ih (index + 1)).imp_right fun hall i hi => ?_
        cases i with
        | zero => exact hmem
        | succ i =>
            rw [← Nat.add_assoc, Nat.add_right_comm]
            exact hall i (Nat.lt_of_succ_lt_succ hi)
      · rw [if_neg hmem]
        exact .inl ⟨_, rfl, hmem⟩

/-- **A new id is not in use.** -/
theorem generateUniqueSessionId_fresh (existingIds : List KString) :
    ∃ id, generateUniqueSessionId existingIds = some id ∧ id ∉ existingIds := by
  refine (uniqueIdFrom_spec existingIds _ 1).resolve_right fun hall => ?_
  -- more different ids than there are
  have hnodup : ((List.range (existingIds.length + 1)).map fun i => mainId (1 + i)).Nodup := by
    refine List.Nodup.map (fun i j h => ?_) List.nodup_range
    exact Nat.add_left_cancel (mainId_injective h)
  have hsubset : ((List.range (existingIds.length + 1)).map fun i => mainId (1 + i)) ⊆
      existingIds := by
    intro id hid
    obtain ⟨i, hi, rfl⟩ := List.mem_map.mp hid
    exact hall i (List.mem_range.mp hi)
  have hlength := (List.subperm_of_subset hnodup hsubset).length_le
  rw [List.length_map, List.length_range] at hlength
  omega

namespace SessionService

variable {s : SessionService}

/-! ## The three collections -/

theorem Consistent.mem_list (h : s.Consistent) (id : KString) :
    id ∈ s.sessionList ↔ id ∈ s.sessions := by
  rw [AList.mem_keys, AList.mem_keys, h.list.mem_iff]

theorem Consistent.mem_order (h : s.Consistent) (id : KString) :
    id ∈ s.sessionOrder ↔ id ∈ s.sessions := by
  rw [AList.mem_keys, h.order.mem_iff]

theorem Consistent.nodup (h : s.Consistent) : s.sessionOrder.Nodup :=
  h.order.nodup_iff.mpr s.sessions.keys_nodup

theorem Consistent.createSession (h : s.Consistent) (id : KString) (workingMode : Int) :
    (s.createSession id workingMode).Consistent where
  order := by
    show (if id ∈ s.sessionOrder then s.sessionOrder else s.sessionOrder ++ [id]).Perm
      (s.sessions.insert id s.made).keys
    rw [AList.keys_insert]
    split_ifs with hid
    · exact (List.perm_cons_erase hid).trans ((h.order.erase id).cons id)
    · have hkeys : id ∉ s.sessions.keys := fun hkey => hid (h.order.mem_iff.mpr hkey)
      rw [List.erase_of_not_mem hkeys]
      exact (List.perm_append_singleton id _).trans (h.order.cons id)
  list := by
    show (s.sessionList.insert id workingMode).keys.Perm (s.sessions.insert id s.made).keys
    rw [AList.keys_insert, AList.keys_insert]
    exact (h.list.erase id).cons id

theorem replaceId_perm {oldId : KString} (trimmed : KString) {sessionOrder : List KString}
    (h : oldId ∈ sessionOrder) :
    (replaceId oldId trimmed sessionOrder).Perm (trimmed :: sessionOrder.erase oldId) := by
  obtain ⟨idx, hidx⟩ := Option.isSome_iff_exists.mp (List.isSome_idxOf?.mpr h)
  obtain ⟨hlt, hat, -⟩ := List.idxOf?_eq_some_iff.mp hidx
  have hperm : (sessionOrder.eraseIdx idx).Perm (sessionOrder.erase oldId) := by
    have hall := List.getElem_cons_eraseIdx_perm hlt
    rw [hat] at hall
    exact (hall.trans (List.perm_cons_erase h)).cons_inv
  rw [replaceId, hidx]
  exact (List.set_perm_cons_eraseIdx hlt trimmed).trans (hperm.cons trimmed)

/-- **What a rename does**: nothing, or the session gets another id that is not in use. -/
theorem renameSession_cases (s : SessionService) (oldId newId : KString) (setting : Int) :
    ((s.renameSession oldId newId setting).1 = s ∧
        ((s.renameSession oldId newId setting).2 = true → trim newId = oldId)) ∨
      ∃ session, trim newId ≠ oldId ∧ trim newId ∉ s.sessions ∧
        s.sessions.lookup oldId = some session ∧
        s.renameSession oldId newId setting =
          (s.register oldId (trim newId) session ((s.sessionList.lookup oldId).getD setting),
            true) := by
  unfold SessionService.renameSession
  dsimp only
  by_cases hempty : (trim newId).units = []
  · rw [if_pos hempty]
    exact .inl ⟨rfl, nofun⟩
  rw [if_neg hempty]
  by_cases hsame : trim newId = oldId
  · rw [if_pos hsame]
    exact .inl ⟨rfl, fun _ => hsame⟩
  rw [if_neg hsame]
  by_cases hused : trim newId ∈ s.sessions
  · rw [if_pos hused]
    exact .inl ⟨rfl, nofun⟩
  rw [if_neg hused]
  cases hsession : s.sessions.lookup oldId with
  | none => exact .inl ⟨rfl, nofun⟩
  | some session => exact .inr ⟨session, hsame, hused, rfl, rfl⟩

theorem Consistent.register (h : s.Consistent) {oldId trimmed : KString} {session : TerminalSession}
    (hsession : s.sessions.lookup oldId = some session) (hnew : trimmed ∉ s.sessions) (mode : Int) :
    (s.register oldId trimmed session mode).Consistent where
  order := by
    have hold : oldId ∈ s.sessions := AList.lookup_isSome.mp (Option.isSome_of_eq_some hsession)
    show (replaceId oldId trimmed s.sessionOrder).Perm
      ((s.sessions.erase oldId).insert trimmed session).keys
    have hfree : trimmed ∉ s.sessions.keys.erase oldId := fun hmem =>
      hnew (AList.mem_keys.mpr (List.mem_of_mem_erase hmem))
    rw [AList.keys_insert, AList.keys_erase, List.erase_of_not_mem hfree]
    exact (replaceId_perm trimmed ((h.mem_order oldId).mpr hold)).trans
      ((h.order.erase oldId).cons trimmed)
  list := by
    show ((s.sessionList.erase oldId).insert trimmed mode).keys.Perm
      ((s.sessions.erase oldId).insert trimmed session).keys
    rw [AList.keys_insert, AList.keys_insert, AList.keys_erase, AList.keys_erase]
    exact ((h.list.erase oldId).erase trimmed).cons trimmed

theorem moveSession_perm (s : SessionService) (fromIndex toIndex : Int) :
    (s.moveSession fromIndex toIndex).sessionOrder.Perm s.sessionOrder := by
  unfold SessionService.moveSession
  dsimp only
  split_ifs with hmoves
  · obtain ⟨hfrom, hfromlt, hto, htolt, -⟩ := hmoves
    have hlt : fromIndex.toNat < s.sessionOrder.length := by omega
    have hroom : toIndex.toNat ≤ (s.sessionOrder.eraseIdx fromIndex.toNat).length := by
      rw [List.length_eraseIdx_of_lt hlt]
      omega
    refine (List.perm_insertIdx _ _ hroom).trans ?_
    rw [List.getD_eq_getElem?_getD, List.getElem?_eq_getElem hlt, Option.getD_some]
    exact List.getElem_cons_eraseIdx_perm hlt
  · exact List.Perm.refl _

theorem Consistent.terminateSession (h : s.Consistent) (id : KString) (emulator : Bool) :
    (s.terminateSession id emulator).Consistent := by
  have hkept : ∀ s' : SessionService, s'.sessions = s.sessions.erase id →
      s'.sessionList = s.sessionList.erase id → s'.sessionOrder = s.sessionOrder.erase id →
      s'.Consistent := by
    intro s' hsessions hlist horder
    constructor
    · rw [horder, hsessions, AList.keys_erase]
      exact h.order.erase id
    · rw [hlist, hsessions, AList.keys_erase, AList.keys_erase]
      exact h.list.erase id
  unfold SessionService.terminateSession
  dsimp only
  split_ifs <;> exact hkept _ rfl rfl rfl

/-- What a call keeps. -/
theorem Consistent.step (h : s.Consistent) (call : SessionCall) : (s.step call).Consistent := by
  cases call with
  | createSession id workingMode => exact h.createSession id workingMode
  | renameSession oldId newId setting =>
      show (s.renameSession oldId newId setting).1.Consistent
      obtain ⟨hsame, -⟩ | ⟨session, -, hnew, hsession, hafter⟩ :=
        renameSession_cases s oldId newId setting
      · rwa [hsame]
      · rw [hafter]
        exact h.register hsession hnew _
  | moveSession fromIndex toIndex =>
      have hsessions : (s.moveSession fromIndex toIndex).sessions = s.sessions ∧
          (s.moveSession fromIndex toIndex).sessionList = s.sessionList := by
        unfold SessionService.moveSession
        dsimp only
        split_ifs <;> exact ⟨rfl, rfl⟩
      constructor
      · show (s.moveSession fromIndex toIndex).sessionOrder.Perm
          (s.moveSession fromIndex toIndex).sessions.keys
        rw [hsessions.1]
        exact (moveSession_perm s fromIndex toIndex).trans h.order
      · show (s.moveSession fromIndex toIndex).sessionList.keys.Perm
          (s.moveSession fromIndex toIndex).sessions.keys
        rw [hsessions.1, hsessions.2]
        exact h.list
  | sortSessions ascending => exact ⟨(List.mergeSort_perm _ _).trans h.order, h.list⟩
  | terminateSession id emulator => exact h.terminateSession id emulator
  | terminateAllSessions => exact ⟨List.Perm.refl _, List.Perm.refl _⟩

/-! ## The account of the sessions -/

variable {log : List SessionNote}

/-- Where the sessions and the modes are those of before, nothing is to be accounted for. -/
theorem Accounted.same (h : s.Accounted log) {s' : SessionService}
    (hsessions : s'.sessions = s.sessions) (hlist : s'.sessionList = s.sessionList)
    (hmade : s'.made = s.made) : s'.Accounted log where
  registered := by
    rw [hsessions, hlist]
    exact h.registered
  once := by
    rw [hsessions]
    exact h.once
  known := by
    rw [hsessions, hmade]
    exact h.known
  noted := by
    rw [hmade]
    exact h.noted

theorem Accounted.createSession (h : s.Accounted log) {id : KString} (hfresh : id ∉ s.sessions)
    (workingMode : Int) :
    (s.createSession id workingMode).Accounted (log ++ [.created s.made workingMode]) := by
  have hsessions : (s.createSession id workingMode).sessions = s.sessions.insert id s.made := rfl
  have hlist : (s.createSession id workingMode).sessionList = s.sessionList.insert id workingMode :=
    rfl
  have hother : ∀ other session, other ≠ id →
      ((s.createSession id workingMode).sessions.lookup other = some session ↔
        s.sessions.lookup other = some session) := by
    intro other session hne
    rw [hsessions, AList.lookup_insert_ne hne]
  have hnew : (s.createSession id workingMode).sessions.lookup id = some s.made := by
    rw [hsessions, AList.lookup_insert]
  constructor
  · intro session mode hcreated hlive
    rcases List.mem_append.mp hcreated with hcreated | hcreated
    · obtain ⟨other, hother', hmode⟩ := h.registered session mode hcreated
        fun hended => hlive (List.mem_append_left _ hended)
      have hne : other ≠ id := by
        rintro rfl
        exact hfresh (AList.lookup_isSome.mp (Option.isSome_of_eq_some hother'))
      refine ⟨other, (hother other session hne).mpr hother', ?_⟩
      rw [hlist, AList.lookup_insert_ne hne, hmode]
    · obtain ⟨rfl, rfl⟩ := SessionNote.created.inj (List.mem_singleton.mp hcreated)
      exact ⟨id, hnew, by rw [hlist, AList.lookup_insert]⟩
  · intro first second session hfirst hsecond
    by_cases hone : first = id <;> by_cases htwo : second = id
    · rw [hone, htwo]
    · rw [hone, hnew, Option.some.injEq] at hfirst
      have hlt := h.known second session ((hother second session htwo).mp hsecond)
      exact absurd hlt (by rw [hfirst]; exact Nat.lt_irrefl _)
    · rw [htwo, hnew, Option.some.injEq] at hsecond
      have hlt := h.known first session ((hother first session hone).mp hfirst)
      exact absurd hlt (by rw [hsecond]; exact Nat.lt_irrefl _)
    · exact h.once first second session ((hother first session hone).mp hfirst)
        ((hother second session htwo).mp hsecond)
  · intro other session hsession
    show session < s.made + 1
    by_cases hid : other = id
    · rw [hid, hnew, Option.some.injEq] at hsession
      rw [← hsession]
      exact Nat.lt_succ_self _
    · exact Nat.lt_succ_of_lt (h.known other session ((hother other session hid).mp hsession))
  · intro session mode hcreated
    show session < s.made + 1
    rcases List.mem_append.mp hcreated with hcreated | hcreated
    · exact Nat.lt_succ_of_lt (h.noted session mode hcreated)
    · obtain ⟨rfl, -⟩ := SessionNote.created.inj (List.mem_singleton.mp hcreated)
      exact Nat.lt_succ_self _

/-- A session keeps its mode under its new id. -/
theorem Accounted.register (h : s.Accounted log)
    (hlist : ∀ id, id ∈ s.sessionList ↔ id ∈ s.sessions) {oldId trimmed : KString}
    {session : TerminalSession} (hsession : s.sessions.lookup oldId = some session)
    (hnew : trimmed ∉ s.sessions) (setting : Int) :
    (s.register oldId trimmed session ((s.sessionList.lookup oldId).getD setting)).Accounted
      log := by
  obtain ⟨mode, hmode⟩ : ∃ mode, s.sessionList.lookup oldId = some mode :=
    Option.isSome_iff_exists.mp (AList.lookup_isSome.mpr ((hlist oldId).mpr
      (AList.lookup_isSome.mp (Option.isSome_of_eq_some hsession))))
  rw [hmode, Option.getD_some]
  have hnewId : (s.register oldId trimmed session mode).sessions.lookup trimmed = some session :=
    AList.lookup_insert _
  have hother : ∀ id, id ≠ trimmed → id ≠ oldId →
      (s.register oldId trimmed session mode).sessions.lookup id = s.sessions.lookup id := by
    intro id hid hold
    show ((s.sessions.erase oldId).insert trimmed session).lookup id = _
    rw [AList.lookup_insert_ne hid, AList.lookup_erase_ne hold]
  have hback : ∀ id other, (s.register oldId trimmed session mode).sessions.lookup id = some other →
      (id = trimmed ∧ s.sessions.lookup oldId = some other) ∨
        (id ≠ oldId ∧ s.sessions.lookup id = some other) := by
    intro id other hid
    by_cases htrimmed : id = trimmed
    · rw [htrimmed, hnewId] at hid
      exact .inl ⟨htrimmed, hsession.trans hid⟩
    · have hne : id ≠ oldId := by
        rintro rfl
        rw [SessionService.register, AList.lookup_insert_ne htrimmed, AList.lookup_erase] at hid
        cases hid
      rw [hother id htrimmed hne] at hid
      exact .inr ⟨hne, hid⟩
  constructor
  · intro other otherMode hcreated hlive
    obtain ⟨id, hid, hidmode⟩ := h.registered other otherMode hcreated hlive
    have hne : id ≠ trimmed := by
      rintro rfl
      exact hnew (AList.lookup_isSome.mp (Option.isSome_of_eq_some hid))
    by_cases holdid : id = oldId
    · rw [holdid, hsession, Option.some.injEq] at hid
      rw [holdid, hmode, Option.some.injEq] at hidmode
      refine ⟨trimmed, ?_, ?_⟩
      · rw [hnewId, hid]
      · show ((s.sessionList.erase oldId).insert trimmed mode).lookup trimmed = _
        rw [AList.lookup_insert, hidmode]
    · refine ⟨id, (hother id hne holdid).trans hid, ?_⟩
      show ((s.sessionList.erase oldId).insert trimmed mode).lookup id = _
      rw [AList.lookup_insert_ne hne, AList.lookup_erase_ne holdid, hidmode]
  · intro first second other hfirst hsecond
    rcases hback first other hfirst with ⟨hone, hfirst⟩ | ⟨hone, hfirst⟩ <;>
      rcases hback second other hsecond with ⟨htwo, hsecond⟩ | ⟨htwo, hsecond⟩
    · rw [hone, htwo]
    · exact absurd (h.once second oldId other hsecond hfirst) htwo
    · exact absurd (h.once first oldId other hfirst hsecond) hone
    · exact h.once first second other hfirst hsecond
  · intro id other hid
    rcases hback id other hid with ⟨-, hid⟩ | ⟨-, hid⟩ <;> exact h.known _ other hid
  · exact h.noted

theorem Accounted.terminateSession (h : s.Accounted log) (id : KString) (emulator : Bool) :
    (s.terminateSession id emulator).Accounted
      (log ++ (s.sessions.lookup id).toList.map .terminated) := by
  have hafter : (s.terminateSession id emulator).sessions = s.sessions.erase id ∧
      (s.terminateSession id emulator).sessionList = s.sessionList.erase id ∧
      (s.terminateSession id emulator).made = s.made := by
    unfold SessionService.terminateSession
    dsimp only
    split_ifs <;> exact ⟨rfl, rfl, rfl⟩
  obtain ⟨hsessions, hlist, hmade⟩ := hafter
  have hback : ∀ other session, (s.sessions.erase id).lookup other = some session →
      other ≠ id ∧ s.sessions.lookup other = some session := by
    intro other session hother
    have hne : other ≠ id := by
      rintro rfl
      rw [AList.lookup_erase] at hother
      cases hother
    rw [AList.lookup_erase_ne hne] at hother
    exact ⟨hne, hother⟩
  have hcreated : ∀ session mode, SessionNote.created session mode ∈
      log ++ (s.sessions.lookup id).toList.map .terminated → .created session mode ∈ log := by
    intro session mode hmem
    refine (List.mem_append.mp hmem).resolve_right fun hended => ?_
    obtain ⟨_, -, hnote⟩ := List.mem_map.mp hended
    cases hnote
  constructor
  · intro session mode hmem hlive
    rw [List.mem_append, not_or] at hlive
    obtain ⟨other, hother, hmode⟩ := h.registered session mode (hcreated session mode hmem) hlive.1
    have hne : other ≠ id := by
      rintro rfl
      exact hlive.2 (List.mem_map_of_mem (Option.mem_toList.mpr hother))
    rw [hsessions, hlist]
    exact ⟨other, (AList.lookup_erase_ne hne).trans hother,
      (AList.lookup_erase_ne hne).trans hmode⟩
  · intro first second session hfirst hsecond
    rw [hsessions] at hfirst hsecond
    exact h.once first second session (hback first session hfirst).2
      (hback second session hsecond).2
  · intro other session hother
    rw [hsessions] at hother
    rw [hmade]
    exact h.known other session (hback other session hother).2
  · intro session mode hmem
    rw [hmade]
    exact h.noted session mode (hcreated session mode hmem)

/-- What a call keeps, with what it makes or terminates. -/
theorem Accounted.step (h : s.Accounted log) (hconsistent : s.Consistent) {call : SessionCall}
    (hfresh : s.freshId call = true) :
    (s.step call).Accounted (log ++ s.notes call) := by
  cases call with
  | createSession id workingMode => exact h.createSession (of_decide_eq_true hfresh) workingMode
  | renameSession oldId newId setting =>
      show (s.renameSession oldId newId setting).1.Accounted (log ++ [])
      rw [List.append_nil]
      obtain ⟨hsame, -⟩ | ⟨session, -, hnew, hsession, hafter⟩ :=
        renameSession_cases s oldId newId setting
      · rwa [hsame]
      · rw [hafter]
        exact h.register hconsistent.mem_list hsession hnew setting
  | moveSession fromIndex toIndex =>
      show (s.moveSession fromIndex toIndex).Accounted (log ++ [])
      rw [List.append_nil, SessionService.moveSession]
      split_ifs <;> exact h.same rfl rfl rfl
  | sortSessions ascending =>
      show (s.sortSessions ascending).Accounted (log ++ [])
      rw [List.append_nil]
      exact h.same rfl rfl rfl
  | terminateSession id emulator => exact h.terminateSession id emulator
  | terminateAllSessions =>
      have hcreated : ∀ session mode, SessionNote.created session mode ∈
          log ++ s.notes .terminateAllSessions → .created session mode ∈ log := by
        intro session mode hmem
        refine (List.mem_append.mp hmem).resolve_right fun hended => ?_
        obtain ⟨_, -, hnote⟩ := List.mem_map.mp hended
        cases hnote
      constructor
      · intro session mode hmem hlive
        rw [List.mem_append, not_or] at hlive
        obtain ⟨id, hid, -⟩ := h.registered session mode (hcreated session mode hmem) hlive.1
        refine absurd ?_ hlive.2
        exact List.mem_map.mpr ⟨⟨id, session⟩, AList.mem_lookup_iff.mp hid, rfl⟩
      · intro first second session hfirst
        cases hfirst
      · intro id session hid
        cases hid
      · exact fun session mode hmem => h.noted session mode (hcreated session mode hmem)

theorem Consistent.start (current : KString × Int) : (start current).Consistent :=
  ⟨List.Perm.refl _, List.Perm.refl _⟩

theorem Accounted.start (current : KString × Int) : (start current).Accounted [] :=
  ⟨nofun, nofun, nofun, nofun⟩

end SessionService

open SessionService AbortableRuns

/-- **The bookkeeping of the sessions is consistent** after any calls, where each session is made
with an id that is not in use: the three collections have the same ids, each one once, and a session
that was made and not terminated is registered under one id, with its mode.  A rename that is
refused changes nothing, and the current session stays current under its new id. -/
theorem sessions_consistent (current : KString × Int) {calls : List SessionCall}
    {s : SessionService} (hfresh : allSteps next freshId (start current) calls = true)
    (hrun : run next (start current) calls = some s) :
    (∀ id, id ∈ s.sessionList ↔ id ∈ s.sessions) ∧ (∀ id, id ∈ s.sessionOrder ↔ id ∈ s.sessions) ∧
    s.sessionOrder.Nodup ∧
    (∀ session mode, .created session mode ∈ record next notes (start current) calls →
      .terminated session ∉ record next notes (start current) calls →
      ∃ id, s.sessions.lookup id = some session ∧ s.sessionList.lookup id = some mode ∧
        ∀ other, s.sessions.lookup other = some session → other = id) ∧
    (∃ id, generateUniqueSessionId s.sessionList.keys = some id ∧ id ∉ s.sessions) ∧
    ∀ oldId newId setting,
      ((s.renameSession oldId newId setting).2 = false →
        (s.renameSession oldId newId setting).1 = s) ∧
      ((s.renameSession oldId newId setting).2 = true → s.currentSession.1 = oldId →
        (s.renameSession oldId newId setting).1.currentSession.1 = trim newId) := by
  have hboth : s.Consistent ∧ s.Accounted ([] ++ record next notes (start current) calls) := by
    refine @record_invariant _ _ _ next notes freshId (fun s log => s.Consistent ∧ s.Accounted log)
      ?_ (start current) s [] ⟨Consistent.start current, Accounted.start current⟩ calls hfresh hrun
    intro s log call s' ⟨hconsistent, haccounted⟩ hfresh hstep
    obtain rfl := Option.some.inj hstep
    exact ⟨hconsistent.step call, haccounted.step hconsistent hfresh⟩
  obtain ⟨hconsistent, haccounted⟩ := hboth
  refine ⟨hconsistent.mem_list, hconsistent.mem_order, hconsistent.nodup, ?_, ?_, ?_⟩
  · intro session mode hcreated hlive
    obtain ⟨id, hid, hmode⟩ := haccounted.registered session mode hcreated hlive
    exact ⟨id, hid, hmode, fun other hother => haccounted.once other id session hother hid⟩
  · obtain ⟨id, hid, hnew⟩ := generateUniqueSessionId_fresh s.sessionList.keys
    exact ⟨id, hid, fun hmem => hnew (AList.mem_keys.mp ((hconsistent.mem_list id).mpr hmem))⟩
  · intro oldId newId setting
    obtain ⟨hsame, htold⟩ | ⟨session, -, -, -, hafter⟩ := renameSession_cases s oldId newId setting
    · rw [hsame]
      exact ⟨fun _ => rfl, fun hok hcurrent => hcurrent.trans (htold hok).symm⟩
    · rw [hafter]
      refine ⟨nofun, fun _ hcurrent => ?_⟩
      show (if s.currentSession.1 = oldId then _ else _ : KString × Int).1 = trim newId
      rw [if_pos hcurrent]

/-- Two sessions are made, the current one is renamed, and the other one is terminated. -/
def twoSessions : List SessionCall :=
  [.createSession (mainId 1) 0, .createSession (mainId 2) 2, .renameSession (mainId 1) ⟨[32, 97]⟩ 0,
    .moveSession 0 1, .sortSessions true, .terminateSession (mainId 2) true]

theorem sessions_consistent_two : ∃ s, run next (start (mainId 1, 0)) twoSessions = some s ∧
    (∀ id, id ∈ s.sessionOrder ↔ id ∈ s.sessions) ∧ s.currentSession.1 = trim ⟨[32, 97]⟩ := by
  have hfresh : allSteps next freshId (start (mainId 1, 0)) twoSessions = true := by decide
  refine ⟨_, rfl, (sessions_consistent (mainId 1, 0) hfresh rfl).2.1, ?_⟩
  decide

end Sessions
