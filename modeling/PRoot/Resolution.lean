import Mathlib.Data.List.Basic

/-!
# Resolving path names in a tree with symbolic links

The resolution POSIX describes, over a tree of any names.  The steps of a path
name are taken from a directory; the contents of a link are put in front of the
steps that are left.

* `Resolves`: where a path name leads to;
* `Resolves.unique`: it leads to one place at most;
* `Resolves.append`: the contents of a link may be resolved on their own first.
  A resolver that recurses into itself relies on this.
-/

/-- One step of a path name. -/
inductive PathStep (N : Type*)
  /-- `.` -/
  | here
  /-- `..` -/
  | up
  | down (name : N)
  deriving DecidableEq, Repr

/-- A path name: it starts from the root, or from the directory it is used in. -/
structure PathName (N : Type*) where
  absolute : Bool
  steps : List (PathStep N)
  deriving DecidableEq, Repr

/-- What is found in a tree.  Links may be unreadable. -/
inductive TreeNode (N : Type*)
  | dir
  | link (contents : Option (PathName N))
  | other
  deriving DecidableEq, Repr

variable {N : Type*}

/-- Where a path name used in `dir` starts from. -/
def PathName.start (name : PathName N) (dir : List N) : List N := if name.absolute then [] else dir

/-- **Resolution of a path name** from the directory `dir`.  A link that is the
last step is followed if `follow` is set; any other one always is.  What is not
the last step has to lead to a directory. -/
inductive Resolves (tree : List N → TreeNode N) (follow : Bool) :
    List N → List (PathStep N) → List N → Prop
  | done {dir : List N} : Resolves tree follow dir [] dir
  | here {dir place : List N} {rest : List (PathStep N)}
      (hrest : Resolves tree follow dir rest place) :
      Resolves tree follow dir (.here :: rest) place
  | up {dir place : List N} {rest : List (PathStep N)}
      (hrest : Resolves tree follow dir.dropLast rest place) :
      Resolves tree follow dir (.up :: rest) place
  | last {dir : List N} {name : N}
      (hlast : ∀ contents, tree (dir ++ [name]) = .link contents → follow = false) :
      Resolves tree follow dir [.down name] (dir ++ [name])
  | down {dir place : List N} {name : N} {rest : List (PathStep N)}
      (hdir : tree (dir ++ [name]) = .dir) (hmore : rest ≠ [])
      (hrest : Resolves tree follow (dir ++ [name]) rest place) :
      Resolves tree follow dir (.down name :: rest) place
  | link {dir place : List N} {name : N} {contents : PathName N} {rest : List (PathStep N)}
      (hlink : tree (dir ++ [name]) = .link (some contents)) (hfollow : rest ≠ [] ∨ follow = true)
      (hrest : Resolves tree follow (contents.start dir) (contents.steps ++ rest) place) :
      Resolves tree follow dir (.down name :: rest) place

namespace Resolves

variable {tree : List N → TreeNode N} {follow : Bool} {dir place : List N}
  {steps rest : List (PathStep N)}

/-- **A path name leads to one place at most.** -/
theorem unique {place' : List N} (h : Resolves tree follow dir steps place)
    (h' : Resolves tree follow dir steps place') : place = place' := by
  induction h with
  | done =>
      cases h'
      rfl
  | here hrest ih =>
      cases h' with
      | here hrest' => exact ih hrest'
  | up hrest ih =>
      cases h' with
      | up hrest' => exact ih hrest'
  | last hlast =>
      cases h' with
      | last => rfl
      | down hdir hmore hrest' => exact absurd rfl hmore
      | link hlink hfollow hrest' =>
          rcases hfollow with hmore | hfollow
          · exact absurd rfl hmore
          · rw [hlast _ hlink] at hfollow
            cases hfollow
  | down hdir hmore hrest ih =>
      cases h' with
      | last => exact absurd rfl hmore
      | down hdir' hmore' hrest' => exact ih hrest'
      | link hlink hfollow hrest' => cases hdir.symm.trans hlink
  | link hlink hfollow hrest ih =>
      cases h' with
      | last hlast =>
          rcases hfollow with hmore | hfollow
          · exact absurd rfl hmore
          · rw [hlast _ hlink] at hfollow
            cases hfollow
      | down hdir hmore hrest' => cases hlink.symm.trans hdir
      | link hlink' hfollow' hrest' =>
          cases hlink.symm.trans hlink'
          exact ih hrest'

/-- **Steps may be resolved in two parts.**  Where the first part ends there has
to be a directory if steps are left, and a link at the end of the first part
counts as followed. -/
theorem append {middle : List N} (h : Resolves tree true dir steps middle)
    (hmiddle : rest ≠ [] → tree middle ≠ .other) (hfollow : rest = [] → follow = true)
    (hrest : Resolves tree follow middle rest place) :
    Resolves tree follow dir (steps ++ rest) place := by
  induction h with
  | done => exact hrest
  | here hfirst ih => exact .here (ih hmiddle hrest)
  | up hfirst ih => exact .up (ih hmiddle hrest)
  | @last dir name hlast =>
      by_cases hend : rest = []
      · subst hend
        cases hrest
        exact .last fun contents hlink => absurd (hlast contents hlink) (by simp)
      · refine .down ?_ hend hrest
        cases hnode : tree (dir ++ [name]) with
        | dir => rfl
        | link contents => exact absurd (hlast contents hnode) (by simp)
        | other => exact absurd hnode (hmiddle hend)
  | down hdir hmore hfirst ih =>
      exact .down hdir (fun hnil => hmore (List.append_eq_nil_iff.mp hnil).1) (ih hmiddle hrest)
  | link hlink _ hfirst ih =>
      have hall := ih hmiddle hrest
      rw [List.append_assoc] at hall
      refine .link hlink ?_ hall
      by_cases hend : rest = []
      · exact Or.inr (hfollow hend)
      · exact Or.inl fun hnil => hend (List.append_eq_nil_iff.mp hnil).2

/-- **A link is followed by resolving its contents.** -/
theorem through {middle : List N} {name : N} {contents : PathName N}
    (hlink : tree (dir ++ [name]) = .link (some contents))
    (hcontents : Resolves tree true (contents.start dir) contents.steps middle)
    (hmiddle : rest ≠ [] → tree middle ≠ .other) (hfollow : rest = [] → follow = true)
    (hrest : Resolves tree follow middle rest place) :
    Resolves tree follow dir (.down name :: rest) place := by
  refine .link hlink ?_ (hcontents.append hmiddle hfollow hrest)
  by_cases hend : rest = []
  · exact Or.inr (hfollow hend)
  · exact Or.inl hend

end Resolves
