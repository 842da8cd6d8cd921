/-!
# Scans over waiters

A resource has waiters, and each of them asks for one change of the resource.  A scan
goes over the waiters once, and lets go those that can have their change, or that
fail.

* `mem_left_iff`: the waiters that a scan leaves are those that had to wait at their
  turn;
* `settles_iff`: when one scan is enough.
-/

namespace Waiters

/-- What becomes of a waiter at its turn. -/
inductive Outcome (S E : Type)
  | wait
  | fail (e : E)
  | done (s : S)
  deriving DecidableEq, Repr

variable {S E W : Type}

/-- The resource after a turn. -/
def Outcome.next (s : S) : Outcome S E → S
  | .wait => s
  | .fail _ => s
  | .done s' => s'

variable (check : S → W → Outcome S E)

/-- The resource after the waiters had their turns. -/
def pass (s : S) (ws : List W) : S := ws.foldl (fun s w => (check s w).next s) s

/-- The waiters that a scan leaves. -/
def left (s : S) : List W → List W
  | [] => []
  | w :: ws =>
      match check s w with
      | .wait => w :: left s ws
      | .fail _ => left s ws
      | .done s' => left s' ws

/-- A waiter that could have its change. -/
def Ready (s : S) (w : W) : Prop := ∃ s', check s w = .done s'

/-- **One scan is enough**: a waiter that has to wait at its turn could not have its
change after the turns of the others either. -/
def Settles (s : S) (ws : List W) : Prop :=
  ∀ before w after, ws = before ++ w :: after → check (pass check s before) w = .wait →
    ¬ Ready check (pass check s ws) w

@[simp] theorem pass_cons (s : S) (w : W) (ws : List W) :
    pass check s (w :: ws) = pass check ((check s w).next s) ws := rfl

theorem mem_left_cons (s : S) (v : W) (ws : List W) (w : W) : w ∈ left check s (v :: ws) ↔
    (w = v ∧ check s v = .wait) ∨ w ∈ left check ((check s v).next s) ws := by
  rw [left]
  cases check s v <;> simp [Outcome.next]

theorem mem_left_iff (s : S) (ws : List W) (w : W) : w ∈ left check s ws ↔
    ∃ before after, ws = before ++ w :: after ∧ check (pass check s before) w = .wait := by
  induction ws generalizing s with
  | nil => simp [left]
  | cons v ws ih =>
      rw [mem_left_cons, ih]
      constructor
      · rintro (⟨rfl, hwait⟩ | ⟨before, after, hws, hwait⟩)
        · exact ⟨[], ws, rfl, hwait⟩
        · exact ⟨v :: before, after, by rw [hws, List.cons_append], hwait⟩
      · rintro ⟨before, after, hws, hwait⟩
        cases before with
        | nil =>
            obtain ⟨rfl, rfl⟩ := List.cons.inj hws
            exact Or.inl ⟨rfl, hwait⟩
        | cons v' before =>
            obtain ⟨rfl, rfl⟩ := List.cons.inj hws
            exact Or.inr ⟨before, after, rfl, hwait⟩

theorem settles_iff (s : S) (ws : List W) :
    Settles check s ws ↔ ∀ w ∈ left check s ws, ¬ Ready check (pass check s ws) w := by
  constructor
  · intro h w hw
    obtain ⟨before, after, hws, hwait⟩ := (mem_left_iff check s ws w).mp hw
    exact h before w after hws hwait
  · intro h before w after hws hwait
    exact h w ((mem_left_iff check s ws w).mpr ⟨before, after, hws, hwait⟩)

end Waiters
