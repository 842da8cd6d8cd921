import PRoot.PathEdits

/-!
# Splitting a path

`next_component` (`path/canon.c`), called until its result is final.

* `splitPath`: the results, one after another;
* `splitResults`: the results for a list of components;
* `splitPath_eq`: they are those of the components of the path;
* `splitsRight_iff`: when they are those that the kernel would have.
-/

namespace PRoot



/-- The results of `next_component`, until one is final or an error. -/
def splitPath : Nat → CStr → Option (List (Except Errno (CStr × Finality)))
  | 0, _ => none
  | fuel + 1, cursor =>
      match nextComponent cursor with
      | .error status => some [.error status]
      | .ok (component, finality, cursor) =>
          if finality.isFinal then some [.ok (component, finality)]
          else (splitPath fuel cursor).map (.ok (component, finality) :: ·)

/-- The results for the components of a path, where some fit and others are refused. -/
def splitResults (fits : CStr → Bool) (finality : Finality) :
    List CStr → List (Except Errno (CStr × Finality))
  | [] => [.ok ([], .finalNormal)]
  | [component] =>
      [if fits component then .ok (component, finality) else .error .ENAMETOOLONG]
  | component :: components =>
      if fits component then .ok (component, .notFinal) :: splitResults fits finality components
      else [.error .ENAMETOOLONG]

/-- How the last component of a path ends it. -/
def pathFinality (path : CStr) : Finality :=
  if path.getLast? = some '/' then .finalSlash else .finalNormal

/-- The results for a path, with the names that the kernel takes. -/
def kernelSplit (path : CStr) : List (Except Errno (CStr × Finality)) :=
  splitResults (fun component => component.length ≤ nameMax) (pathFinality path) (comps path)

/-- **A path is split right**: the iteration ends, and gives the components. -/
def SplitsRight (path : CStr) : Prop :=
  ∃ rounds, ∀ fuel, rounds ≤ fuel → splitPath fuel path = some (kernelSplit path)

section

variable {path cursor : CStr} {fits fits' : CStr → Bool} {finality : Finality}

theorem splitResults_refused {component : CStr} (h : fits component = false)
    (components : List CStr) :
    splitResults fits finality (component :: components) = [.error .ENAMETOOLONG] := by
  cases components with
  | nil => simp [splitResults, h]
  | cons next components => simp [splitResults, h]

theorem splitResults_fits {component : CStr} (h : fits component = true) {components : List CStr}
    (hmore : components ≠ []) :
    splitResults fits finality (component :: components) =
      .ok (component, .notFinal) :: splitResults fits finality components := by
  cases components with
  | nil => exact absurd rfl hmore
  | cons next components => simp [splitResults, h]

/-- **The results are those of the components**, which are to be shorter than `NAME_MAX`. -/
theorem splitPath_eq {fuel : Nat} (hfuel : cursor.length < fuel) :
    splitPath fuel cursor = some (splitResults (fun component => component.length < nameMax)
      (pathFinality cursor) (comps cursor)) := by
  induction fuel generalizing cursor with
  | zero => omega
  | succ fuel ih =>
      have hspec := nextComponent_spec cursor
      unfold splitPath
      cases hnext : nextComponent cursor with
      | error status =>
          rw [hnext] at hspec
          cases hspec with
          | tooLong h hlen =>
              rw [h, splitResults_refused (decide_eq_false (Nat.not_lt.mpr hlen))]
      | ok result =>
          obtain ⟨component, ending, rest⟩ := result
          rw [hnext] at hspec
          cases hspec with
          | empty h =>
              rw [h]
              rfl
          | last h hlen =>
              have hending : (pathFinality cursor).isFinal = true := by
                unfold pathFinality
                split <;> rfl
              rw [h, splitResults, if_pos (decide_eq_true hlen)]
              exact if_pos hending
          | more h hlen hmore hshort hlast =>
              have hrest := ih (Nat.lt_of_lt_of_le hshort (Nat.le_of_lt_succ hfuel))
              have hfinality : pathFinality rest = pathFinality cursor := by
                rw [pathFinality, hlast, pathFinality]
              rw [h, splitResults_fits (decide_eq_true hlen) hmore]
              simp only [Finality.isFinal, ne_eq, not_true, decide_false, Bool.false_eq_true,
                if_false]
              rw [hrest, hfinality]
              rfl

/-- Two bounds give the same results where no name that is reached is between them. -/
theorem splitResults_eq_iff (components : List CStr) :
    splitResults (fun component => component.length < nameMax) finality components =
        splitResults (fun component => component.length ≤ nameMax) finality components ↔
      ∀ component ∈ components.takeWhile (·.length ≤ nameMax), component.length ≠ nameMax := by
  induction components with
  | nil => simp [splitResults]
  | cons component components ih =>
      by_cases hle : component.length ≤ nameMax
      · rw [List.takeWhile_cons_of_pos (by simpa using hle), List.forall_mem_cons]
        by_cases hlt : component.length < nameMax
        · rw [← ih]
          cases components with
          | nil => simp [splitResults, hle, hlt, Nat.ne_of_lt hlt]
          | cons next components =>
              rw [splitResults_fits (decide_eq_true hlt) (List.cons_ne_nil _ _),
                splitResults_fits (decide_eq_true hle) (List.cons_ne_nil _ _)]
              simp [Nat.ne_of_lt hlt]
        · have heq : component.length = nameMax := by omega
          rw [splitResults_refused (decide_eq_false hlt)]
          cases components with
          | nil => simp [splitResults, heq]
          | cons next components =>
              rw [splitResults_fits (decide_eq_true hle) (List.cons_ne_nil _ _)]
              simp [heq]
      · have hlt : ¬ component.length < nameMax := by omega
        rw [List.takeWhile_cons_of_neg (by simpa using hle),
          splitResults_refused (decide_eq_false hlt), splitResults_refused (decide_eq_false hle)]
        simp

/-- **A path is split right where no component has exactly `NAME_MAX` bytes**, up to the first one
that is too long. -/
theorem splitsRight_iff (path : CStr) :
    SplitsRight path ↔ ∀ component ∈ (comps path).takeWhile (·.length ≤ nameMax),
      component.length ≠ nameMax := by
  rw [← @splitResults_eq_iff (pathFinality path)]
  constructor
  · rintro ⟨rounds, h⟩
    have hrun := h (max rounds (path.length + 1)) (Nat.le_max_left _ _)
    rw [splitPath_eq (Nat.lt_of_succ_le (Nat.le_max_right _ _))] at hrun
    exact Option.some.inj hrun
  · intro heq
    refine ⟨path.length + 1, fun fuel hfuel => ?_⟩
    rw [splitPath_eq (Nat.lt_of_succ_le hfuel), heq]
    rfl

/-- A name of 255 bytes is refused. -/
theorem longest_name_refused : ¬ ∀ path : CStr, path.length < pathMax → SplitsRight path := by
  intro h
  have hword : SepPath.IsWord '/' (List.replicate nameMax 'a') := by
    refine ⟨List.ne_nil_of_length_pos (by rw [List.length_replicate]; decide), fun hmem => ?_⟩
    exact absurd (List.eq_of_mem_replicate hmem) (by decide)
  have hlength : (SepPath.flat '/' [List.replicate nameMax 'a']).length < pathMax := by
    rw [SepPath.flat_cons, SepPath.flat_nil, List.append_nil, List.length_cons,
      List.length_replicate]
    decide
  have hcomps : comps (SepPath.flat '/' [List.replicate nameMax 'a']) =
      [List.replicate nameMax 'a'] :=
    SepPath.comps_flat '/' (List.forall_mem_singleton.mpr hword)
  have hright := (splitsRight_iff _).mp (h _ hlength)
  rw [hcomps] at hright
  have hmem : List.replicate nameMax 'a' ∈
      [List.replicate nameMax 'a'].takeWhile (·.length ≤ nameMax) := by
    rw [List.takeWhile_cons_of_pos (by simp)]
    exact List.mem_cons_self
  exact hright _ hmem List.length_replicate

end

end PRoot
