/-!
# Decoding UTF-8

Bytes become characters one at a time, and what is malformed becomes U+FFFD: one for each longest
part that some character starts with.

* `Utf8.decode`: the characters of some bytes;
* `Utf8.Cuts`: some bytes end in the middle of a character that others go on with;
* `Utf8.decode_append`: bytes decoded in two parts, unless a character is cut;
* `Utf8.decode_cut`: what becomes of a character that is.
-/

namespace Utf8

/-- U+FFFD. -/
def replacement : Char := Char.ofNat 0xFFFD

/-- A character that has begun: how many bytes it still needs, its value so far, and where its
next byte must be. -/
structure Begun where
  needed : Nat
  value : Nat
  lower : Nat
  upper : Nat
  deriving DecidableEq, Repr

/-- A byte at the start of a character. -/
def first (b : UInt8) : List Char × Option Begun :=
  if b.toNat < 0x80 then ([Char.ofNat b.toNat], none)
  else if b.toNat < 0xC2 then ([replacement], none)
  else if b.toNat < 0xE0 then ([], some ⟨1, b.toNat - 0xC0, 0x80, 0xBF⟩)
  else if b.toNat < 0xF0 then
    ([], some ⟨2, b.toNat - 0xE0, if b.toNat = 0xE0 then 0xA0 else 0x80,
      if b.toNat = 0xED then 0x9F else 0xBF⟩)
  else if b.toNat < 0xF5 then
    ([], some ⟨3, b.toNat - 0xF0, if b.toNat = 0xF0 then 0x90 else 0x80,
      if b.toNat = 0xF4 then 0x8F else 0xBF⟩)
  else ([replacement], none)

/-- The character goes on with a byte. -/
def Begun.Accepts (s : Begun) (b : UInt8) : Prop := s.lower ≤ b.toNat ∧ b.toNat ≤ s.upper

instance (s : Begun) (b : UInt8) : Decidable (s.Accepts b) := inferInstanceAs (Decidable (_ ∧ _))

/-- A byte that a character goes on with. -/
def Begun.next (s : Begun) (b : UInt8) : List Char × Option Begun :=
  let value := s.value * 64 + (b.toNat - 0x80)
  if s.needed = 1 then ([Char.ofNat value], none) else ([], some ⟨s.needed - 1, value, 0x80, 0xBF⟩)

/-- Any byte. -/
def step (s : Option Begun) (b : UInt8) : List Char × Option Begun :=
  match s with
  | none => first b
  | some s =>
      if s.Accepts b then s.next b else ((replacement :: (first b).1), (first b).2)

/-- The end: a character that is not complete. -/
def finish (s : Option Begun) : List Char := if s.isSome then [replacement] else []

/-- The characters that are complete, and what is left over. -/
def run (s : Option Begun) : List UInt8 → List Char × Option Begun
  | [] => ([], s)
  | b :: bytes =>
      let (chars, s) := step s b
      let (rest, s) := run s bytes
      (chars ++ rest, s)

/-- The characters from a state on. -/
def decodeFrom (s : Option Begun) (bytes : List UInt8) : List Char :=
  (run s bytes).1 ++ finish (run s bytes).2

/-- The characters of some bytes. -/
def decode (bytes : List UInt8) : List Char := decodeFrom none bytes

/-- The bytes `before` end in a character that the bytes `after` go on with. -/
def Cuts (before after : List UInt8) : Prop :=
  ∃ s b bytes, (run none before).2 = some s ∧ after = b :: bytes ∧ s.Accepts b

/-! ## Parts -/

theorem run_append (s : Option Begun) (x y : List UInt8) :
    run s (x ++ y) =
      ((run s x).1 ++ (run (run s x).2 y).1, (run (run s x).2 y).2) := by
  induction x generalizing s with
  | nil => rfl
  | cons b x ih =>
      have hcons : ∀ rest, run s (b :: rest) =
          ((step s b).1 ++ (run (step s b).2 rest).1, (run (step s b).2 rest).2) := fun _ => rfl
      rw [List.cons_append, hcons, hcons, ih]
      simp only [List.append_assoc]

theorem decodeFrom_append (s : Option Begun) (x y : List UInt8) :
    decodeFrom s (x ++ y) = (run s x).1 ++ decodeFrom (run s x).2 y := by
  unfold decodeFrom
  rw [run_append, List.append_assoc]

theorem decodeFrom_cons (s : Option Begun) (b : UInt8) (bytes : List UInt8) :
    decodeFrom s (b :: bytes) = (step s b).1 ++ decodeFrom (step s b).2 bytes := by
  exact List.append_assoc ..

variable {s : Begun}

/-- A character that is not gone on with. -/
theorem decodeFrom_refused {bytes : List UInt8} (h : ∀ b rest, bytes = b :: rest → ¬ s.Accepts b) :
    decodeFrom (some s) bytes = replacement :: decode bytes := by
  cases bytes with
  | nil => rfl
  | cons b rest =>
      have hrefused := h b rest rfl
      rw [decode, decodeFrom_cons, decodeFrom_cons]
      show (if s.Accepts b then _ else _ : List Char × Option Begun).1 ++
        decodeFrom (if s.Accepts b then _ else _ : List Char × Option Begun).2 rest = _
      rw [if_neg hrefused]
      rfl

/-- **Bytes are decoded in two parts** unless a character is cut. -/
theorem decode_append {x y : List UInt8} (h : ¬ Cuts x y) :
    decode (x ++ y) = decode x ++ decode y := by
  unfold decode
  rw [decodeFrom_append]
  show _ = (_ ++ _) ++ _
  rw [List.append_assoc]
  congr 1
  cases hstate : (run none x).2 with
  | none => rfl
  | some s =>
      apply decodeFrom_refused
      intro b rest hy hin
      exact h ⟨s, b, rest, hstate, hy, hin⟩

/-! ## A character that is cut -/

/-- The bytes that a character needs give a character, which is not ASCII. -/
def Sound : Nat → Nat → Nat → Nat → Prop
  | 0, _, _, _ => False
  | 1, value, lower, upper => ∀ t, lower ≤ t → t ≤ upper →
      0x80 ≤ value * 64 + (t - 0x80) ∧ (value * 64 + (t - 0x80)).isValidChar
  | n + 2, value, lower, upper => ∀ t, lower ≤ t → t ≤ upper →
      Sound (n + 1) (value * 64 + (t - 0x80)) 0x80 0xBF

/-- What is said of a character that has begun. -/
structure Begun.Good (s : Begun) : Prop where
  lower : 0x80 ≤ s.lower
  upper : s.upper ≤ 0xBF
  sound : Sound s.needed s.value s.lower s.upper

variable {b : UInt8}

theorem first_good (h : (first b).2 = some s) : s.Good := by
  unfold first at h
  split at h
  · cases h
  · split at h
    · cases h
    · split at h
      · obtain rfl := Option.some.inj h
        refine ⟨Nat.le_refl _, Nat.le_refl _, fun t _ _ => ?_⟩
        unfold Nat.isValidChar
        simp only at *
        omega
      · split at h
        · obtain rfl := Option.some.inj h
          refine ⟨?_, ?_, fun t hlower hupper t' _ _ => ?_⟩
          · show 0x80 ≤ if b.toNat = 0xE0 then 0xA0 else 0x80
            split <;> omega
          · show (if b.toNat = 0xED then 0x9F else 0xBF) ≤ 0xBF
            split <;> omega
          · unfold Nat.isValidChar
            simp only at hlower hupper ⊢
            split at hlower <;> split at hupper <;> omega
        · split at h
          · obtain rfl := Option.some.inj h
            refine ⟨?_, ?_, fun t hlower hupper t' _ _ t'' _ _ => ?_⟩
            · show 0x80 ≤ if b.toNat = 0xF0 then 0x90 else 0x80
              split <;> omega
            · show (if b.toNat = 0xF4 then 0x8F else 0xBF) ≤ 0xBF
              split <;> omega
            · unfold Nat.isValidChar
              simp only at hlower hupper ⊢
              split at hlower <;> split at hupper <;> omega
          · cases h

theorem next_good {s' : Begun} (hgood : s.Good) (hin : s.Accepts b) (h : (s.next b).2 = some s') :
    s'.Good := by
  obtain ⟨hlower, hupper, hsound⟩ := hgood
  unfold Begun.next at h
  simp only at h
  split at h
  · cases h
  · rename_i hneeded
    obtain rfl := Option.some.inj h
    refine ⟨Nat.le_refl _, Nat.le_refl _, ?_⟩
    match hn : s.needed with
    | 0 =>
        rw [hn] at hsound
        exact hsound.elim
    | 1 => exact absurd hn hneeded
    | n + 2 =>
        rw [hn] at hsound
        exact hsound b.toNat hin.1 hin.2

theorem run_good {s' : Begun} {start : Option Begun} {bytes : List UInt8}
    (hstart : ∀ s ∈ start, s.Good) (h : (run start bytes).2 = some s') : s'.Good := by
  induction bytes generalizing start with
  | nil => exact hstart s' h
  | cons b bytes ih =>
      refine @ih (step start b).2 (fun _ hs => ?_) h
      cases start with
      | none => exact first_good hs
      | some begun =>
          unfold step at hs
          simp only at hs
          split at hs
          · exact next_good (hstart begun rfl) ‹_› hs
          · exact first_good hs

/-- Not a character of ASCII. -/
def NotAscii (c : Char) : Prop := 0x80 ≤ c.toNat

theorem replacement_notAscii : NotAscii replacement :=
  show 0x80 ≤ 0xFFFD by decide

theorem ofNat_notAscii {value : Nat} (h : 0x80 ≤ value) (hvalid : value.isValidChar) :
    NotAscii (Char.ofNat value) := by
  have hvalue : (Char.ofNat value).toNat = value := by
    rw [Char.ofNat, dif_pos hvalid]
    rfl
  rw [NotAscii, hvalue]
  exact h

/-- A byte after the first one is malformed by itself. -/
theorem decode_continuation (hgood : s.Good) (hin : s.Accepts b) (bytes : List UInt8) :
    decode (b :: bytes) = replacement :: decode bytes := by
  have hlower := Nat.le_trans hgood.lower hin.1
  have hupper := Nat.le_trans hin.2 hgood.upper
  have hfirst : first b = ([replacement], none) := by
    rw [first, if_neg (by omega), if_pos (by omega)]
  rw [decode, decodeFrom_cons]
  show (first b).1 ++ decodeFrom (first b).2 bytes = _
  rw [hfirst]
  rfl

theorem decodeFrom_next (hin : s.Accepts b) (bytes : List UInt8) :
    decodeFrom (some s) (b :: bytes) = (s.next b).1 ++ decodeFrom (s.next b).2 bytes := by
  rw [decodeFrom_cons]
  show (if s.Accepts b then _ else _ : List Char × Option Begun).1 ++
    decodeFrom (if s.Accepts b then _ else _ : List Char × Option Begun).2 bytes = _
  rw [if_pos hin]

/-- The rest of a character: one character where it goes on, and otherwise a replacement for
each byte that it goes on with. -/
theorem decodeFrom_begun (hgood : s.Good) (bytes : List UInt8) :
    ∃ c chars k, NotAscii c ∧ decodeFrom (some s) bytes = c :: chars ∧
      decode bytes = List.replicate k replacement ++ chars ∧
      ∀ b rest, bytes = b :: rest → s.Accepts b → 0 < k := by
  induction bytes generalizing s with
  | nil => exact ⟨_, [], 0, replacement_notAscii, rfl, rfl, fun b rest hb => by cases hb⟩
  | cons b bytes ih =>
      by_cases hin : s.Accepts b
      · by_cases hneeded : s.needed = 1
        · have hsound := hgood.sound
          rw [hneeded] at hsound
          obtain ⟨hle, hvalid⟩ := hsound b.toNat hin.1 hin.2
          refine ⟨_, decode bytes, 1, ofNat_notAscii hle hvalid, ?_,
            decode_continuation hgood hin bytes, fun _ _ _ _ => Nat.one_pos⟩
          rw [decodeFrom_next hin]
          simp only [Begun.next, hneeded, if_true]
          rfl
        · have hnext : s.next b =
              ([], some ⟨s.needed - 1, s.value * 64 + (b.toNat - 0x80), 0x80, 0xBF⟩) := by
            simp only [Begun.next, hneeded, if_false]
          obtain ⟨c, chars, k, hc, hrest, hapart, -⟩ :=
            ih (next_good hgood hin (congrArg Prod.snd hnext))
          refine ⟨c, chars, k + 1, hc, ?_, ?_, fun _ _ _ _ => k.succ_pos⟩
          · rw [decodeFrom_next hin, hnext]
            exact hrest
          · rw [decode_continuation hgood hin, hapart]
            rfl
      · refine ⟨_, decode (b :: bytes), 0, replacement_notAscii, ?_, rfl, ?_⟩
        · apply decodeFrom_refused
          rintro _ _ ⟨⟩
          exact hin
        · rintro _ _ ⟨⟩ hin'
          exact absurd hin' hin

/-- **A character that is cut**: the bytes alone have a character that the two parts do not,
which have two replacements or more in its place. -/
theorem decode_cut {x y : List UInt8} (h : Cuts x y) :
    ∃ before c after k, NotAscii c ∧ decode (x ++ y) = before ++ c :: after ∧
      decode x ++ decode y = before ++ (List.replicate (k + 2) replacement ++ after) := by
  obtain ⟨s, b, rest, hstate, rfl, hin⟩ := h
  have hgood : s.Good := run_good (by simp) hstate
  obtain ⟨c, after, k, hc, hwhole, hparts, hpos⟩ := decodeFrom_begun hgood (b :: rest)
  obtain ⟨k, rfl⟩ := Nat.exists_eq_succ_of_ne_zero (Nat.ne_of_gt (hpos b rest rfl hin))
  refine ⟨(run none x).1, c, after, k, hc, ?_, ?_⟩
  · rw [decode, decodeFrom_append, hstate, hwhole]
  · rw [hparts]
    show ((run none x).1 ++ finish (run none x).2) ++ _ = _
    rw [hstate, List.append_assoc]
    rfl

/-- Where nothing is cut, what comes after does not depend on what comes before. -/
theorem cuts_append {x y z : List UInt8} (h : ¬ Cuts x (y ++ z)) (hy : y ≠ []) :
    Cuts (x ++ y) z ↔ Cuts y z := by
  have hstate : (run none (x ++ y)).2 = (run none y).2 := by
    rw [run_append]
    cases hx : (run none x).2 with
    | none => rfl
    | some s =>
        cases y with
        | nil => exact absurd rfl hy
        | cons b y =>
            have hrefused : ¬ s.Accepts b := fun hin => h ⟨s, b, y ++ z, hx, rfl, hin⟩
            show (run (if s.Accepts b then _ else _ : List Char × Option Begun).2 y).2 = _
            rw [if_neg hrefused]
            rfl
  unfold Cuts
  rw [hstate]

end Utf8
