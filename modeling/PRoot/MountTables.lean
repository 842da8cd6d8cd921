import Mathlib.Data.List.Basic
import Mathlib.Data.List.Infix

/-!
# Mount tables

A table that maps some paths to the places they are mounted from, paths being
lists of names.  A path is reached through the deepest entry over it.

* `Reaches.unique`: there is one deepest entry;
* `Reaches.moved`: what is below one path in a table is below another path in
  another table when the entries below the one are entries below the other, and
  when what else is there is no deeper.
-/

namespace MountTables

variable {α : Type*}

/-- What is mounted at a path. -/
abbrev Table (α : Type*) := List α → Option (List α)

/-- The path `p` leads to `out`: the deepest entry over `p` is at `a`, and what
is left of `p` behind it follows what is mounted there. -/
def Reaches (t : Table α) (p out : List α) : Prop :=
  ∃ a rest host, p = a ++ rest ∧ t a = some host ∧ out = host ++ rest ∧
    ∀ c, c <+: p → t c ≠ none → c <+: a

/-- **A path leads to one place.** -/
theorem Reaches.unique {t : Table α} {p out out' : List α} (h : Reaches t p out)
    (h' : Reaches t p out') : out = out' := by
  obtain ⟨a, rest, host, hp, ha, rfl, hdeep⟩ := h
  obtain ⟨a', rest', host', hp', ha', rfl, hdeep'⟩ := h'
  have hle : a <+: a' := hdeep' a ⟨rest, hp.symm⟩ (by simp [ha])
  have hge : a' <+: a := hdeep a' ⟨rest', hp'.symm⟩ (by simp [ha'])
  obtain rfl : a = a' := hle.eq_of_length (Nat.le_antisymm hle.length_le hge.length_le)
  obtain rfl : rest = rest' := List.append_cancel_left (hp.symm.trans hp')
  rw [ha] at ha'
  rw [Option.some.inj ha']

/-- An entry leads to what is mounted there. -/
theorem Reaches.of_entry {t : Table α} {a host : List α} (ha : t a = some host) :
    Reaches t a host :=
  ⟨a, [], host, by simp, ha, by simp, fun _ hc _ => hc⟩

/-- A path below an entry with no deeper one over it. -/
theorem Reaches.below {t : Table α} {a p host : List α} (ha : t a = some host)
    (hnone : ∀ r, r ≠ [] → r <+: p → t (a ++ r) = none) : Reaches t (a ++ p) (host ++ p) := by
  refine ⟨a, p, host, rfl, ha, rfl, fun c hc hne => ?_⟩
  rcases List.prefix_or_prefix_of_prefix hc (List.prefix_append a p) with hle | ⟨r, rfl⟩
  · exact hle
  · by_cases hr : r = []
    · rw [hr, List.append_nil]
    · exact absurd (hnone r hr ((List.prefix_append_right_inj a).mp hc)) hne

/-- **A moved subtree.**  What `m` leads to is mounted at `m'`; the entries of
`t` below `m` and over `p` are entries of `t'` below `m'`; and what else is
below `m'` and over `p` is no deeper than one of these. -/
theorem Reaches.moved {t t' : Table α} {m m' p host out : List α} (hm : Reaches t m host)
    (hm' : t' m' = some host)
    (hentries : ∀ r, r ≠ [] → r <+: p → ∀ place, t (m ++ r) = some place →
      t' (m' ++ r) = some place)
    (hothers : ∀ r, r ≠ [] → r <+: p → t' (m' ++ r) ≠ none →
      ∃ s, r <+: s ∧ s <+: p ∧ t (m ++ s) ≠ none)
    (h : Reaches t (m ++ p) out) : Reaches t' (m' ++ p) out := by
  obtain ⟨a, rest, place, hp, ha, hout, hdeep⟩ := h
  have hsplit : (∃ r, r ≠ [] ∧ a = m ++ r) ∨ a <+: m := by
    rcases List.prefix_or_prefix_of_prefix ⟨rest, hp.symm⟩ (List.prefix_append m p) with
      hle | ⟨r, rfl⟩
    · exact Or.inr hle
    · by_cases hr : r = []
      · exact Or.inr (by rw [hr, List.append_nil])
      · exact Or.inl ⟨r, hr, rfl⟩
  rcases hsplit with ⟨r, hr, rfl⟩ | hle
  · -- the deepest entry is below `m`, and moves
    rw [List.append_assoc] at hp
    obtain rfl : p = r ++ rest := List.append_cancel_left hp
    refine ⟨m' ++ r, rest, place, by simp, hentries r hr (by simp) place ha, hout,
      fun c hc hne => ?_⟩
    rcases List.prefix_or_prefix_of_prefix hc (List.prefix_append m' (r ++ rest)) with
      hc' | ⟨d, rfl⟩
    · exact hc'.trans (List.prefix_append m' r)
    · have hd : d <+: r ++ rest := (List.prefix_append_right_inj m').mp hc
      rw [List.prefix_append_right_inj]
      by_cases hnil : d = []
      · rw [hnil]
        exact List.nil_prefix
      · obtain ⟨s, hds, hsp, hs⟩ := hothers d hnil hd hne
        have hdeeper := hdeep (m ++ s) ((List.prefix_append_right_inj m).mpr hsp) hs
        exact hds.trans ((List.prefix_append_right_inj m).mp hdeeper)
  · -- it is over `m`, so there is none below
    have hnone : ∀ s, s ≠ [] → s <+: p → t (m ++ s) = none := by
      intro s hs hsp
      by_contra hne
      have hdeeper := (hdeep (m ++ s) ((List.prefix_append_right_inj m).mpr hsp) hne).trans hle
      have hlen := hdeeper.length_le
      rw [List.length_append] at hlen
      exact hs (List.length_eq_zero_iff.mp (by omega))
    obtain ⟨b, rfl⟩ := hle
    have hover : Reaches t (a ++ b) (place ++ b) := by
      refine ⟨a, b, place, rfl, ha, rfl, fun c hc hne => hdeep c ?_ hne⟩
      exact hc.trans (List.prefix_append (a ++ b) p)
    obtain rfl := hm.unique hover
    rw [List.append_assoc] at hp
    obtain rfl : b ++ p = rest := List.append_cancel_left hp
    rw [hout, ← List.append_assoc]
    refine Reaches.below hm' fun r hr hrp => ?_
    by_contra hne
    obtain ⟨s, hrs, hsp, hs⟩ := hothers r hr hrp hne
    refine hs (hnone s (fun hnil => hr ?_) hsp)
    rw [hnil] at hrs
    exact List.prefix_nil.mp hrs

end MountTables
