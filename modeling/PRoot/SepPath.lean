import Mathlib.Data.List.Basic
import Mathlib.Data.List.Infix

/-!
# Words behind separators

A path is a string over an alphabet with one distinguished separator.  This
file relates the two views of it: the list of its words, and the string in
which every word is preceded by one separator.

* `flat` writes a list of words, `comps` reads the words of any string back,
  and `comps_flat` says that reading undoes writing;
* `Covers a p` says that the words `a` are a leading part of the *string* `p`
  that ends at a word boundary.  Two coverings of one string are comparable
  (`Covers.chain`), so they form a chain and one of them is the deepest;
* on written paths covering is the prefix order on words
  (`covers_flat_iff`).
-/

namespace SepPath

variable {α : Type*} (sep : α)

/-- A word: nonempty and free of separators. -/
def IsWord (c : List α) : Prop := c ≠ [] ∧ sep ∉ c

/-- Write each word after a separator. -/
def flat : List (List α) → List α
  | [] => []
  | c :: cs => sep :: c ++ flat cs

/-- Write a path; the path of no words is the separator alone. -/
def render (cs : List (List α)) : List α :=
  if cs = [] then [sep] else flat sep cs

/-- A string starts at a word boundary. -/
def AtBoundary (p : List α) : Prop := p.head? = none ∨ p.head? = some sep

/-- The words `a` are a leading part of `p` that ends at a boundary. -/
def Covers (a : List (List α)) (p : List α) : Prop :=
  ∃ rest, p = flat sep a ++ rest ∧ AtBoundary sep rest

@[simp] theorem flat_nil : flat sep [] = [] := rfl

@[simp] theorem flat_cons (c : List α) (cs : List (List α)) :
    flat sep (c :: cs) = sep :: (c ++ flat sep cs) := rfl

@[simp] theorem flat_append (a b : List (List α)) :
    flat sep (a ++ b) = flat sep a ++ flat sep b := by
  induction a with
  | nil => rfl
  | cons c cs ih => simp [ih]

@[simp] theorem render_nil : render sep [] = [sep] := rfl

@[simp] theorem render_cons (c : List α) (cs : List (List α)) :
    render sep (c :: cs) = sep :: (c ++ flat sep cs) := by
  simp [render]

variable {cs : List (List α)}

theorem render_of_ne_nil (h : cs ≠ []) :
    render sep cs = flat sep cs := by
  simp [render, h]

theorem flat_eq_nil_iff : flat sep cs = [] ↔ cs = [] := by
  cases cs <;> simp

theorem render_ne_nil (cs : List (List α)) : render sep cs ≠ [] := by
  cases cs <;> simp

theorem atBoundary_nil : AtBoundary sep ([] : List α) := Or.inl rfl

theorem atBoundary_cons (p : List α) : AtBoundary sep (sep :: p) := Or.inr rfl

/-- A written path starts at a boundary. -/
theorem atBoundary_flat (cs : List (List α)) : AtBoundary sep (flat sep cs) := by
  cases cs with
  | nil => exact atBoundary_nil sep
  | cons c cs => exact atBoundary_cons sep _

variable {p : List α}

theorem atBoundary_append {q : List α} (hp : AtBoundary sep p) (hq : AtBoundary sep q) :
    AtBoundary sep (p ++ q) := by
  cases p with
  | nil => simpa using hq
  | cons x xs => simpa [AtBoundary] using hp

/-- Written words followed by a boundary start at a boundary. -/
theorem atBoundary_flat_append {q : List α} (cs : List (List α)) (hq : AtBoundary sep q) :
    AtBoundary sep (flat sep cs ++ q) :=
  atBoundary_append sep (atBoundary_flat sep cs) hq

theorem covers_nil (hp : AtBoundary sep p) : Covers sep [] p :=
  ⟨p, by simp, hp⟩

variable {a b : List (List α)}

/-- A leading part of covering words covers too. -/
theorem Covers.of_lead (hab : a <+: b) (hbp : Covers sep b p) : Covers sep a p := by
  obtain ⟨t, rfl⟩ := hab
  obtain ⟨r, rfl, hr⟩ := hbp
  exact ⟨flat sep t ++ r, by simp, atBoundary_flat_append sep t hr⟩

/-! ## Reading words back -/

variable [DecidableEq α]

instance (c : List α) : Decidable (IsWord sep c) := inferInstanceAs (Decidable (_ ∧ _))

/-- The words of a string, empty ones dropped. -/
def comps : List α → List (List α)
  | [] => []
  | c :: cs =>
      if c = sep then comps cs
      else if cs.head? = none ∨ cs.head? = some sep then [c] :: comps cs
      else
        match comps cs with
        | [] => [[c]]
        | w :: ws => (c :: w) :: ws


@[simp] theorem comps_nil : comps sep ([] : List α) = [] := rfl

@[simp] theorem comps_sep_cons (p : List α) : comps sep (sep :: p) = comps sep p := by
  simp [comps]

/-- A word in front of a boundary is the first word read. -/
theorem comps_word_append {c : List α} (hc : IsWord sep c) (hp : AtBoundary sep p) :
    comps sep (c ++ p) = c :: comps sep p := by
  obtain ⟨hne, hmem⟩ := hc
  induction c with
  | nil => exact absurd rfl hne
  | cons x xs ih =>
      have hx : x ≠ sep := fun h => hmem (h ▸ List.mem_cons_self)
      cases xs with
      | nil =>
          have hb : p.head? = none ∨ p.head? = some sep := hp
          rw [List.singleton_append, comps, if_neg hx, if_pos hb]
      | cons y ys =>
          have hy : y ≠ sep := fun h => hmem (h ▸ by simp)
          have htail := ih (by simp) (fun h => hmem (List.mem_cons_of_mem _ h))
          rw [List.cons_append, comps, if_neg hx, htail]
          simp [hy]

/-- **Reading undoes writing.** -/
theorem comps_flat (h : ∀ c ∈ cs, IsWord sep c) :
    comps sep (flat sep cs) = cs := by
  induction cs with
  | nil => rfl
  | cons c cs ih =>
      rw [flat_cons, comps_sep_cons,
        comps_word_append sep (h c List.mem_cons_self) (atBoundary_flat sep cs),
        ih (fun d hd => h d (List.mem_cons_of_mem _ hd))]

theorem comps_render (h : ∀ c ∈ cs, IsWord sep c) :
    comps sep (render sep cs) = cs := by
  cases cs with
  | nil => simp
  | cons c cs => rw [render_of_ne_nil sep (by simp), comps_flat sep h]

/-- Written paths of words are equal only for equal words. -/
theorem render_inj (ha : ∀ c ∈ a, IsWord sep c) (hb : ∀ c ∈ b, IsWord sep c) :
    render sep a = render sep b ↔ a = b := by
  refine ⟨fun h => ?_, fun h => h ▸ rfl⟩
  rw [← comps_render sep ha, h, comps_render sep hb]

/-- What is read from any string is words. -/
theorem comps_isWord (p : List α) : ∀ c ∈ comps sep p, IsWord sep c := by
  induction p with
  | nil => simp
  | cons x xs ih =>
      intro c hc
      by_cases hx : x = sep
      · rw [hx, comps_sep_cons] at hc
        exact ih c hc
      · rw [comps, if_neg hx] at hc
        split at hc
        · rcases List.mem_cons.mp hc with rfl | hc
          · exact ⟨by simp, by simpa using Ne.symm hx⟩
          · exact ih c hc
        · rename_i hhead
          cases hws : comps sep xs with
          | nil =>
              rw [hws] at hc
              obtain rfl := List.mem_singleton.mp hc
              exact ⟨by simp, by simpa using Ne.symm hx⟩
          | cons w ws =>
              rw [hws] at hc ih
              rcases List.mem_cons.mp hc with rfl | hc
              · have hw := ih w List.mem_cons_self
                refine ⟨by simp, ?_⟩
                simpa [Ne.symm hx] using hw.2
              · exact ih c (List.mem_cons_of_mem _ hc)

/-! ## Covering -/

/-- Two words that start one string at a boundary are the same word. -/
theorem word_unique {c d q : List α} (hc : IsWord sep c) (hd : IsWord sep d) (hp : AtBoundary sep p)
    (hq : AtBoundary sep q) (h : c ++ p = d ++ q) :
    c = d ∧ p = q := by
  have hread := congrArg (comps sep) h
  rw [comps_word_append sep hc hp, comps_word_append sep hd hq] at hread
  have hcd : c = d := (List.cons.inj hread).1
  subst hcd
  exact ⟨rfl, List.append_cancel_left h⟩

/-- **The coverings of one string form a chain.** -/
theorem Covers.chain (ha : ∀ c ∈ a, IsWord sep c) (hb : ∀ c ∈ b, IsWord sep c)
    (hap : Covers sep a p) (hbp : Covers sep b p) : a <+: b ∨ b <+: a := by
  induction a generalizing b p with
  | nil => exact Or.inl List.nil_prefix
  | cons c cs ih =>
      cases b with
      | nil => exact Or.inr List.nil_prefix
      | cons d ds =>
          obtain ⟨r, hr, hrb⟩ := hap
          obtain ⟨s, hs, hsb⟩ := hbp
          have heq : c ++ (flat sep cs ++ r) = d ++ (flat sep ds ++ s) := by
            have := hr.symm.trans hs
            simpa using this
          obtain ⟨rfl, hrest⟩ := word_unique sep (ha c List.mem_cons_self)
            (hb d List.mem_cons_self) (atBoundary_flat_append sep cs hrb)
            (atBoundary_flat_append sep ds hsb) heq
          have htail := ih (fun x hx => ha x (List.mem_cons_of_mem _ hx))
            (fun x hx => hb x (List.mem_cons_of_mem _ hx))
            ⟨r, rfl, hrb⟩ ⟨s, hrest, hsb⟩
          simpa [List.cons_prefix_cons] using htail

/-- **On written paths covering is the prefix order**, whatever boundary-led
text without words of its own follows. -/
theorem covers_flat_iff (ha : ∀ c ∈ a, IsWord sep c) (hb : ∀ c ∈ b, IsWord sep c) :
    Covers sep a (flat sep b) ↔ a <+: b := by
  constructor
  · intro h
    have hself : Covers sep b (flat sep b) := ⟨[], by simp, atBoundary_nil sep⟩
    rcases Covers.chain sep ha hb h hself with hpre | hpre
    · exact hpre
    · obtain ⟨t, rfl⟩ := hpre
      obtain ⟨r, hr, _⟩ := h
      have hlen := congrArg List.length hr
      simp only [flat_append, List.length_append] at hlen
      have ht : flat sep t = [] := List.length_eq_zero_iff.mp (by omega)
      have : t = [] := (flat_eq_nil_iff sep).mp ht
      simp [this]
  · rintro ⟨t, rfl⟩
    exact ⟨flat sep t, by simp, atBoundary_flat sep t⟩

theorem covers_render_iff (ha : ∀ c ∈ a, IsWord sep c) (hb : ∀ c ∈ b, IsWord sep c) :
    Covers sep a (render sep b) ↔ a <+: b := by
  cases b with
  | nil =>
      rw [render_nil, List.prefix_nil]
      constructor
      · rintro ⟨r, hr, _⟩
        cases a with
        | nil => rfl
        | cons c cs =>
            have hne := (ha c List.mem_cons_self).1
            have hlen := congrArg List.length hr
            cases c with
            | nil => exact absurd rfl hne
            | cons x xs => simp at hlen
      · rintro rfl
        exact covers_nil sep (atBoundary_cons sep [])
  | cons c cs => rw [render_of_ne_nil sep (by simp), covers_flat_iff sep ha hb]

end SepPath
