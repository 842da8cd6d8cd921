import Mathlib.Data.List.TakeWhile
import PRoot.Utf8Decoder

/-!
# The console of a virtual machine

`startReadingOutput` of `TerminalActivity.kt` reads what QEMU writes, piece by piece, takes escape
sequences out and appends the rest to the console.

* `replaceAnsi`: `ansiRegex.replace (text, "")`;
* `Console.read`: a read, whose bytes are decoded as UTF-8 by themselves;
* `makesUp_reads`: what is shown and what is held back make up the text, or more;
* `characters_le`: the reads have no fewer characters than the stream;
* `console_whole_iff`: when the console shows the text of the whole stream.
-/

namespace TerminalOutput

open Utf8

/-- The character U+001B. -/
def esc : Char := Char.ofNat 27

/-- `[0-9;?]`. -/
def isParameter (c : Char) : Bool := c.isDigit || c = ';' || c = '?'

/-- A match of `ansiPartial`, which is one of `ansiRegex` at the start: what comes after it. -/
def matchAnsi : List Char → Option (List Char)
  | c :: d :: rest =>
      if c = esc ∧ d = '[' then
        match rest.dropWhile isParameter with
        | [] => none
        | letter :: after => if letter.isAlpha then some after else none
      else none
  | _ => none

/-- `ansiRegex.replace (text, "")`, when as many characters as `skip` says belong to a match. -/
def replaceFrom : Nat → List Char → List Char
  | _, [] => []
  | skip + 1, _ :: text => replaceFrom skip text
  | 0, c :: text =>
      match matchAnsi (c :: text) with
      | none => c :: replaceFrom 0 text
      | some after => replaceFrom (text.length - after.length) text

/-- `ansiRegex.replace (text, "")`. -/
def replaceAnsi (text : List Char) : List Char := replaceFrom 0 text

/-- `text.lastIndexOf`, of the escape character. -/
def lastEsc : List Char → Option Nat
  | [] => none
  | c :: text =>
      match lastEsc text with
      | some i => some (i + 1)
      | none => if c = esc then some 0 else none

/-- `text.length`, in units of UTF-16. -/
def units : List Char → Nat
  | [] => 0
  | c :: text => (if c.toNat < 0x10000 then 1 else 2) + units text

/-- The console and `pending`. -/
structure Console where
  shown : List Char
  pending : List Char
  deriving DecidableEq, Repr

/-- The body of the loop, with the bytes of a read. -/
def Console.read (console : Console) (buffer : List UInt8) : Console :=
  let text := console.pending ++ decode buffer
  match lastEsc text with
  | none => ⟨console.shown ++ replaceAnsi text, []⟩
  | some i =>
      let tail := text.drop i
      if matchAnsi tail = some [] then ⟨console.shown ++ replaceAnsi text, []⟩
      else if units tail > 64 then ⟨console.shown ++ replaceAnsi text, []⟩
      else ⟨console.shown ++ replaceAnsi (text.take i), tail⟩

/-- The reads up to the end of the stream. -/
def readAll (reads : List (List UInt8)) : Console := reads.foldl Console.read ⟨[], []⟩

/-- The console does not depend on the reads: it shows the text of the whole stream, and nothing
is held back. -/
def Whole (reads : List (List UInt8)) : Prop :=
  (readAll reads).shown = replaceAnsi (decode reads.flatten) ∧ (readAll reads).pending = []

/-- When it does not: no character is cut, no escape sequence is cut more than 64 units after it
began, and the last one is let go, as some read ends with it or 64 units after it. -/
structure WellCut (reads : List (List UInt8)) : Prop where
  characters : ∀ before after, reads = before ++ after → ¬ Cuts before.flatten after.flatten
  escapes : ∀ before after, reads = before ++ after →
    ∀ text begun, decode before.flatten = text ++ begun → matchAnsi begun = none →
      (matchAnsi (begun ++ decode after.flatten)).isSome → units begun ≤ 64
  last : esc ∉ decode reads.flatten ∨
    ∃ before after text rest, reads = before ++ after ∧ esc ∉ decode after.flatten ∧
      decode before.flatten = text ++ esc :: rest ∧ esc ∉ rest ∧
      (matchAnsi (esc :: rest) = some [] ∨ 64 < units (esc :: rest))

/-! ## Escape sequences -/

/-- `ESC [`, parameters, a letter. -/
def Escape (sequence : List Char) : Prop :=
  ∃ parameters letter, sequence = esc :: '[' :: (parameters ++ [letter]) ∧
    (∀ c ∈ parameters, isParameter c = true) ∧ letter.isAlpha = true

theorem isAlpha_iff (c : Char) :
    c.isAlpha = true ↔ 65 ≤ c.toNat ∧ c.toNat ≤ 90 ∨ 97 ≤ c.toNat ∧ c.toNat ≤ 122 := by
  have hupper : c.isUpper = true ↔ 65 ≤ c.toNat ∧ c.toNat ≤ 90 := decide_eq_true_iff
  have hlower : c.isLower = true ↔ 97 ≤ c.toNat ∧ c.toNat ≤ 122 := by
    refine (Bool.and_eq_true _ _).to_iff.trans ?_
    rw [decide_eq_true_eq, decide_eq_true_eq]
    rfl
  refine (Bool.or_eq_true _ _).to_iff.trans ?_
  rw [hupper, hlower]

theorem isParameter_iff (c : Char) :
    isParameter c = true ↔ 48 ≤ c.toNat ∧ c.toNat ≤ 57 ∨ c.toNat = 59 ∨ c.toNat = 63 := by
  have hdigit : c.isDigit = true ↔ 48 ≤ c.toNat ∧ c.toNat ≤ 57 := by
    simp only [Char.isDigit, Bool.and_eq_true, decide_eq_true_eq]
    rfl
  have hsame : ∀ d : Char, c = d ↔ c.toNat = d.toNat := fun d =>
    ⟨congrArg _, fun h => Char.ext (UInt32.toNat_inj.mp h)⟩
  simp only [isParameter, Bool.or_eq_true, decide_eq_true_eq, hdigit, hsame, or_assoc]
  rfl

variable {text : List Char}

/-- What the pattern matches. -/
theorem matchAnsi_iff {after : List Char} :
    matchAnsi text = some after ↔ ∃ sequence, Escape sequence ∧ text = sequence ++ after := by
  constructor
  · intro h
    unfold matchAnsi at h
    split at h
    · rename_i c d rest
      split at h
      · rename_i hstart
        obtain ⟨rfl, rfl⟩ := hstart
        split at h
        · cases h
        · rename_i letter _ hdrop
          split at h
          · rename_i halpha
            obtain rfl := Option.some.inj h
            refine ⟨_, ⟨rest.takeWhile isParameter, letter, rfl,
              fun c hc => List.mem_takeWhile_imp hc, halpha⟩, ?_⟩
            have hsplit := List.takeWhile_append_dropWhile (p := isParameter) (l := rest)
            rw [hdrop] at hsplit
            simp [hsplit]
          · cases h
      · cases h
    · cases h
  · rintro ⟨_, ⟨parameters, letter, rfl, hparameters, halpha⟩, rfl⟩
    have hletter : isParameter letter = false := by
      rw [Bool.eq_false_iff]
      intro hparameter
      rw [isParameter_iff] at hparameter
      rw [isAlpha_iff] at halpha
      omega
    have hdrop : (parameters ++ [letter] ++ after).dropWhile isParameter = letter :: after := by
      rw [List.append_assoc, List.dropWhile_append_of_pos hparameters]
      exact List.dropWhile_cons_of_neg (by simpa using hletter)
    rw [List.cons_append, List.cons_append, matchAnsi, if_pos ⟨rfl, rfl⟩, hdrop]
    simp only [halpha, if_true]

variable {c : Char} {rest : List Char}

/-- Nothing but the first character is an escape character, and all are ASCII. -/
theorem Escape.tail (h : Escape (c :: rest)) :
    c = esc ∧ ∀ d ∈ rest, d ≠ esc ∧ ¬ NotAscii d := by
  obtain ⟨parameters, letter, heq, hparameters, halpha⟩ := h
  obtain ⟨rfl, rfl⟩ := List.cons.inj heq
  refine ⟨rfl, fun d hd => ?_⟩
  have hrange : 48 ≤ d.toNat ∧ d.toNat < 0x80 := by
    rcases List.mem_cons.mp hd with rfl | hd
    · decide
    · rcases List.mem_append.mp hd with hd | hd
      · have hrange := (isParameter_iff d).mp (hparameters d hd)
        omega
      · rw [List.mem_singleton.mp hd]
        rw [isAlpha_iff] at halpha
        omega
  refine ⟨fun heq => ?_, fun hnot => ?_⟩
  · have hvalue : esc.toNat = 27 := rfl
    rw [heq] at hrange
    omega
  · unfold NotAscii at hnot
    omega

theorem Escape.ne_nil (h : Escape []) : False := by
  obtain ⟨parameters, letter, heq, -⟩ := h
  cases heq

/-! ## Taking them out -/

theorem replaceFrom_drop (skip : Nat) (text : List Char) :
    replaceFrom skip text = replaceAnsi (text.drop skip) := by
  induction skip generalizing text with
  | zero => rfl
  | succ skip ih =>
      cases text with
      | nil => rfl
      | cons c text => exact ih text

theorem replaceFrom_zero (c : Char) (text : List Char) :
    replaceFrom 0 (c :: text) = match matchAnsi (c :: text) with
      | none => c :: replaceFrom 0 text
      | some after => replaceFrom (text.length - after.length) text := rfl

theorem replaceAnsi_cons (h : matchAnsi (c :: text) = none) :
    replaceAnsi (c :: text) = c :: replaceAnsi text := by
  rw [replaceAnsi, replaceFrom_zero, h]
  rfl

theorem replaceAnsi_escape {sequence : List Char} (h : Escape sequence) (after : List Char) :
    replaceAnsi (sequence ++ after) = replaceAnsi after := by
  cases sequence with
  | nil => exact h.ne_nil.elim
  | cons c rest =>
      have hmatch : matchAnsi (c :: (rest ++ after)) = some after :=
        matchAnsi_iff.mpr ⟨_, h, rfl⟩
      rw [List.cons_append, replaceAnsi, replaceFrom_zero, hmatch]
      simp only
      rw [replaceFrom_drop, List.length_append, Nat.add_sub_cancel, List.drop_left]

/-- An escape sequence begins in one text and ends in the one after it. -/
def Straddles (begun rest : List Char) : Prop :=
  matchAnsi begun = none ∧ (matchAnsi (begun ++ rest)).isSome

theorem Straddles.escape {begun : List Char} (h : Straddles begun rest) (hne : begun ≠ []) :
    ∃ ending after, ending ≠ [] ∧ rest = ending ++ after ∧ Escape (begun ++ ending) := by
  obtain ⟨hnone, hsome⟩ := h
  obtain ⟨after, hafter⟩ := Option.isSome_iff_exists.mp hsome
  obtain ⟨sequence, hescape, heq⟩ := matchAnsi_iff.mp hafter
  rcases List.append_eq_append_iff.mp heq with ⟨ending, rfl, hrest⟩ | ⟨within, rfl, -⟩
  · refine ⟨ending, after, ?_, hrest, hescape⟩
    rintro rfl
    rw [List.append_nil] at hescape
    rw [matchAnsi_iff.mpr ⟨begun, hescape, (List.append_nil _).symm⟩] at hnone
    cases hnone
  · rw [matchAnsi_iff.mpr ⟨sequence, hescape, rfl⟩] at hnone
    cases hnone

/-- It begins with its only escape character. -/
theorem Straddles.cons {begun : List Char} (h : Straddles (c :: begun) rest) :
    c = esc ∧ esc ∉ begun := by
  obtain ⟨ending, -, -, -, hescape⟩ := h.escape (List.cons_ne_nil _ _)
  obtain ⟨hc, htail⟩ := hescape.tail
  exact ⟨hc, fun hmem => (htail esc (List.mem_append_left _ hmem)).1 rfl⟩

/-- No escape sequence begins in the text and ends after it. -/
def Safe (text rest : List Char) : Prop :=
  ∀ begun, begun <:+ text → begun ≠ [] → ¬ Straddles begun rest

theorem Safe.of_cons (h : Safe (c :: text) rest) :
    Safe text rest :=
  fun begun hsuffix => h begun (hsuffix.trans (List.suffix_cons c text))

theorem safe_of_not_mem (h : esc ∉ text) (rest : List Char) :
    Safe text rest := by
  intro begun hsuffix hne hstraddles
  cases begun with
  | nil => exact hne rfl
  | cons c begun =>
      rw [hstraddles.cons.1] at hsuffix
      exact h (hsuffix.mem List.mem_cons_self)

theorem safe_esc (text rest : List Char) : Safe text (esc :: rest) := by
  intro begun _ hne hstraddles
  obtain ⟨ending, after, hending, hrest, hescape⟩ := hstraddles.escape hne
  cases begun with
  | nil => exact hne rfl
  | cons c begun =>
      cases ending with
      | nil => exact hending rfl
      | cons d ending =>
          rw [List.cons_append, List.cons.injEq] at hrest
          exact (hescape.tail.2 d (List.mem_append_right _ List.mem_cons_self)).1 hrest.1.symm

theorem safe_notAscii (text : List Char) (hc : NotAscii c) (rest : List Char) :
    Safe text (c :: rest) := by
  intro begun _ hne hstraddles
  obtain ⟨ending, after, hending, hrest, hescape⟩ := hstraddles.escape hne
  cases begun with
  | nil => exact hne rfl
  | cons b begun =>
      cases ending with
      | nil => exact hending rfl
      | cons d ending =>
          rw [List.cons_append, List.cons.injEq] at hrest
          rw [hrest.1] at hc
          exact (hescape.tail.2 d (List.mem_append_right _ List.mem_cons_self)).2 hc

/-- Two texts are the same from their last escape character on. -/
theorem last_unique {text' rest' : List Char} (hrest : esc ∉ rest) (hrest' : esc ∉ rest')
    (h : text ++ esc :: rest = text' ++ esc :: rest') :
    text = text' ∧ rest = rest' := by
  rcases List.append_eq_append_iff.mp h with ⟨between, rfl, hbetween⟩ | ⟨between, rfl, hbetween⟩
  · cases between with
    | nil => exact ⟨(List.append_nil _).symm, (List.cons.inj hbetween).2⟩
    | cons c between =>
        obtain ⟨-, rfl⟩ := List.cons.inj hbetween
        exact absurd (List.mem_append_right _ List.mem_cons_self) hrest
  · cases between with
    | nil => exact ⟨List.append_nil _, (List.cons.inj hbetween).2.symm⟩
    | cons c between =>
        obtain ⟨-, rfl⟩ := List.cons.inj hbetween
        exact absurd (List.mem_append_right _ List.mem_cons_self) hrest'

/-- Only what begins at the last escape character can end after the text. -/
theorem safe_last {after : List Char} (hrest : esc ∉ rest) (h : ¬ Straddles (esc :: rest) after) :
    Safe (text ++ esc :: rest) after := by
  rintro begun ⟨before, heq⟩ hne hstraddles
  cases begun with
  | nil => exact hne rfl
  | cons c begun =>
      obtain ⟨rfl, hbegun⟩ := hstraddles.cons
      obtain ⟨-, rfl⟩ := last_unique hbegun hrest heq
      exact h hstraddles

/-- Where it is safe, the parts of a text can be treated apart. -/
theorem replaceAnsi_append (h : Safe text rest) :
    replaceAnsi (text ++ rest) = replaceAnsi text ++ replaceAnsi rest := by
  induction hlength : text.length using Nat.strongRecOn generalizing text with
  | _ n ih =>
      cases text with
      | nil => rfl
      | cons c text =>
          cases hmatch : matchAnsi (c :: text) with
          | none =>
              have hwhole : matchAnsi (c :: (text ++ rest)) = none := by
                by_contra hsome
                exact h _ List.suffix_rfl (List.cons_ne_nil _ _)
                  ⟨hmatch, Option.isSome_iff_ne_none.mpr hsome⟩
              rw [List.cons_append, replaceAnsi_cons hwhole, replaceAnsi_cons hmatch,
                ih text.length (by rw [← hlength]; exact Nat.lt_succ_self _) h.of_cons rfl,
                List.cons_append]
          | some after =>
              obtain ⟨sequence, hescape, heq⟩ := matchAnsi_iff.mp hmatch
              have hsafe : Safe after rest := fun begun hsuffix =>
                h begun (hsuffix.trans ⟨sequence, heq.symm⟩)
              have hshorter : after.length < n := by
                have hlengths := congrArg List.length heq
                rw [hlength, List.length_append] at hlengths
                have hpos : 0 < sequence.length :=
                  List.length_pos_iff.mpr fun hnil => (hnil ▸ hescape).ne_nil
                omega
              rw [heq, List.append_assoc, replaceAnsi_escape hescape, replaceAnsi_escape hescape,
                ih after.length hshorter hsafe rfl]

theorem replaceAnsi_of_not_mem (h : esc ∉ text) :
    replaceAnsi text = text := by
  induction text with
  | nil => rfl
  | cons c text ih =>
      obtain ⟨hc, htext⟩ : esc ≠ c ∧ esc ∉ text :=
        not_or.mp fun hmem => h (List.mem_cons.mpr hmem)
      rw [replaceAnsi_cons, ih htext]
      by_contra hsome
      obtain ⟨after, hafter⟩ := Option.ne_none_iff_exists'.mp hsome
      obtain ⟨sequence, hescape, heq⟩ := matchAnsi_iff.mp hafter
      cases sequence with
      | nil => exact hescape.ne_nil
      | cons d sequence =>
          rw [hescape.tail.1] at heq
          exact hc (List.cons.inj heq).1.symm

/-- A sequence that is cut stays in the text, in two parts. -/
theorem length_of_straddles (text : List Char) {begun : List Char} (hne : begun ≠ [])
    (h : Straddles begun rest) :
    (replaceAnsi (text ++ begun ++ rest)).length <
      (replaceAnsi (text ++ begun)).length + (replaceAnsi rest).length := by
  obtain ⟨ending, after, hending, rfl, hescape⟩ := h.escape hne
  cases begun with
  | nil => exact absurd rfl hne
  | cons c begun =>
      obtain ⟨rfl, hbegun⟩ := h.cons
      have hplain : esc ∉ ending := fun hmem =>
        (hescape.tail.2 esc (List.mem_append_right _ hmem)).1 rfl
      have hbegunPlain : replaceAnsi (esc :: begun) = esc :: begun := by
        rw [replaceAnsi_cons h.1, replaceAnsi_of_not_mem hbegun]
      have hwhole : esc :: begun ++ (ending ++ after) = esc :: begun ++ ending ++ after :=
        (List.append_assoc ..).symm
      rw [List.append_assoc, List.cons_append, replaceAnsi_append (safe_esc _ _),
        replaceAnsi_append (safe_esc _ _), hbegunPlain, ← List.cons_append, hwhole,
        replaceAnsi_escape hescape, replaceAnsi_append (safe_of_not_mem hplain _),
        replaceAnsi_of_not_mem hplain]
      simp only [List.length_append, List.length_cons]
      omega

/-! ## One read -/

theorem lastEsc_none (h : lastEsc text = none) : esc ∉ text := by
  induction text with
  | nil => exact List.not_mem_nil
  | cons c text ih =>
      rw [lastEsc] at h
      split at h
      · cases h
      · rename_i hrest
        split at h
        · cases h
        · rename_i hc
          intro hmem
          rcases List.mem_cons.mp hmem with heq | hmem
          · exact hc heq.symm
          · exact ih hrest hmem

theorem lastEsc_some {i : Nat} (h : lastEsc text = some i) :
    ∃ rest, text.drop i = esc :: rest ∧ esc ∉ rest := by
  induction text generalizing i with
  | nil => cases h
  | cons c text ih =>
      rw [lastEsc] at h
      split at h
      · rename_i j hj
        obtain rfl := Option.some.inj h
        exact ih hj
      · rename_i hrest
        split at h
        · rename_i hc
          obtain rfl := Option.some.inj h
          exact ⟨text, by rw [hc]; rfl, lastEsc_none hrest⟩
        · cases h

/-- What is held back: nothing, or an escape sequence that is not complete and what follows it. -/
def Held (pending : List Char) : Prop :=
  pending = [] ∨ ∃ rest, pending = esc :: rest ∧ esc ∉ rest ∧
    matchAnsi pending ≠ some [] ∧ units pending ≤ 64

/-- **A read** shows the text up to some place, and holds the rest back. -/
theorem read_cases (console : Console) (buffer : List UInt8) :
    (esc ∉ console.pending ++ decode buffer ∧
        console.read buffer =
          ⟨console.shown ++ replaceAnsi (console.pending ++ decode buffer), []⟩) ∨
      ∃ text rest, console.pending ++ decode buffer = text ++ esc :: rest ∧ esc ∉ rest ∧
        ((matchAnsi (esc :: rest) = some [] ∨ 64 < units (esc :: rest)) ∧
            console.read buffer =
              ⟨console.shown ++ replaceAnsi (console.pending ++ decode buffer), []⟩ ∨
          Held (esc :: rest) ∧
            console.read buffer = ⟨console.shown ++ replaceAnsi text, esc :: rest⟩) := by
  unfold Console.read
  simp only
  split
  · exact Or.inl ⟨lastEsc_none ‹_›, rfl⟩
  · rename_i i hi
    obtain ⟨rest, hdrop, hrest⟩ := lastEsc_some hi
    refine Or.inr ⟨(console.pending ++ decode buffer).take i, rest, ?_, hrest, ?_⟩
    · rw [← hdrop, List.take_append_drop]
    · rw [hdrop]
      split
      · exact Or.inl ⟨Or.inl ‹_›, rfl⟩
      · split
        · exact Or.inl ⟨Or.inr ‹_›, rfl⟩
        · exact Or.inr ⟨Or.inr ⟨rest, rfl, hrest, ‹_›, Nat.le_of_not_gt ‹_›⟩, rfl⟩

/-- The texts of some reads, in a row. -/
def texts (reads : List (List UInt8)) : List Char := (reads.map decode).flatten

@[simp] theorem texts_nil : texts [] = [] := rfl

@[simp] theorem texts_cons (buffer : List UInt8) (reads : List (List UInt8)) :
    texts (buffer :: reads) = decode buffer ++ texts reads := rfl

@[simp] theorem texts_append (before after : List (List UInt8)) :
    texts (before ++ after) = texts before ++ texts after := by
  simp only [texts, List.map_append, List.flatten_append]

/-- An escape sequence that has got long ends after the text. -/
def Cut (text rest : List Char) : Prop :=
  ∃ before begun, text = before ++ begun ∧ Straddles begun rest ∧ 64 < units begun

/-- No read ends in a long escape sequence. -/
def Intact (pending : List Char) (reads : List (List UInt8)) : Prop :=
  ∀ before after, reads = before ++ after → ¬ Cut (pending ++ texts before) (texts after)

variable {pending : List Char}

/-- What is safe to show has no part in what is cut later. -/
theorem Safe.cut_iff {between : List Char} (h : Safe text (pending ++ between ++ rest)) :
    Cut (text ++ (pending ++ between)) rest ↔ Cut (pending ++ between) rest := by
  constructor
  · rintro ⟨before, begun, heq, hstraddles, hlong⟩
    rcases List.append_eq_append_iff.mp heq with ⟨start, rfl, hstart⟩ | ⟨start, rfl, rfl⟩
    · exact ⟨start, begun, hstart, hstraddles, hlong⟩
    · cases start with
      | nil => exact ⟨[], _, rfl, hstraddles, hlong⟩
      | cons c start =>
          refine absurd ?_ (h _ (List.suffix_append before _) (List.cons_ne_nil c start))
          obtain ⟨hnone, hsome⟩ := hstraddles
          refine ⟨?_, by rwa [List.append_assoc] at hsome⟩
          by_contra hmatch
          obtain ⟨after, hafter⟩ := Option.ne_none_iff_exists'.mp hmatch
          obtain ⟨sequence, hescape, hsequence⟩ := matchAnsi_iff.mp hafter
          rw [hsequence, List.append_assoc,
            matchAnsi_iff.mpr ⟨sequence, hescape, rfl⟩] at hnone
          cases hnone
  · rintro ⟨before, begun, heq, hstraddles, hlong⟩
    exact ⟨text ++ before, begun, by rw [heq, List.append_assoc], hstraddles, hlong⟩

theorem units_append (text rest : List Char) : units (text ++ rest) = units text + units rest := by
  induction text with
  | nil => rw [List.nil_append, units, Nat.zero_add]
  | cons c text ih => rw [List.cons_append, units, units, ih, Nat.add_assoc]

/-- What is held back is not long. -/
theorem Held.not_cut (h : Held pending) (rest : List Char) :
    ¬ Cut pending rest := by
  rintro ⟨before, begun, rfl, -, hlong⟩
  rcases h with hnil | ⟨-, -, -, -, hshort⟩
  · rw [(List.append_eq_nil_iff.mp hnil).2] at hlong
    exact absurd hlong (by decide)
  · rw [units_append] at hshort
    omega

variable {reads : List (List UInt8)}

/-- What is intact is so from a read on. -/
theorem intact_cons {pending' : List Char} {buffer : List UInt8} (hheld : Held pending)
    (htext : pending ++ decode buffer = text ++ pending')
    (hsafe : Safe text (pending' ++ texts reads)) :
    Intact pending (buffer :: reads) ↔ Intact pending' reads := by
  have hstep : ∀ before after, reads = before ++ after →
      (Cut (pending ++ texts (buffer :: before)) (texts after) ↔
        Cut (pending' ++ texts before) (texts after)) := by
    rintro before after rfl
    rw [texts_cons, ← List.append_assoc, htext, List.append_assoc]
    apply Safe.cut_iff
    rwa [texts_append, ← List.append_assoc] at hsafe
  constructor
  · intro hintact before after heq hcut
    exact hintact (buffer :: before) after (by rw [heq]; rfl) ((hstep before after heq).mpr hcut)
  · intro hintact before after heq hcut
    cases before with
    | nil =>
        rw [texts_nil, List.append_nil] at hcut
        exact hheld.not_cut _ hcut
    | cons buffer' before =>
        obtain ⟨rfl, hrest⟩ := List.cons.inj heq
        exact hintact before after hrest ((hstep before after hrest).mp hcut)

/-! ## All reads -/

theorem read_held (console : Console) (buffer : List UInt8) :
    Held (console.read buffer).pending := by
  rcases read_cases console buffer with ⟨-, hread⟩ | ⟨text, rest, -, -, ⟨-, hread⟩ | ⟨hheld, hread⟩⟩
  · rw [hread]
    exact Or.inl rfl
  · rw [hread]
    exact Or.inl rfl
  · rw [hread]
    exact hheld

/-- What is shown and held back in the end makes up the text, or more if something was cut. -/
def MakesUp (last : Console) (shown text : List Char) (intact : Prop) : Prop :=
  (intact ∧ last.shown ++ replaceAnsi last.pending = shown ++ replaceAnsi text) ∨
    (¬ intact ∧ shown.length + (replaceAnsi text).length <
      last.shown.length + (replaceAnsi last.pending).length)

theorem MakesUp.le {last : Console} {shown : List Char} {intact : Prop}
    (h : MakesUp last shown text intact) :
    shown.length + (replaceAnsi text).length ≤
      last.shown.length + (replaceAnsi last.pending).length := by
  rcases h with ⟨-, heq⟩ | ⟨-, hlt⟩
  · have hlengths := congrArg List.length heq
    rw [List.length_append, List.length_append] at hlengths
    exact Nat.le_of_eq hlengths.symm
  · exact Nat.le_of_lt hlt

/-- **All reads**: no more than the text is lost, and only cut sequences add to it. -/
theorem makesUp_reads (reads : List (List UInt8)) {console : Console}
    (hheld : Held console.pending) :
    MakesUp (reads.foldl Console.read console) console.shown (console.pending ++ texts reads)
      (Intact console.pending reads) := by
  induction reads generalizing console with
  | nil =>
      refine Or.inl ⟨fun before after heq => ?_, ?_⟩
      · rw [(List.append_eq_nil_iff.mp heq.symm).1, texts_nil, List.append_nil]
        exact hheld.not_cut _
      · rw [texts_nil, List.append_nil]
        rfl
  | cons buffer reads ih =>
      have hnext := ih (read_held console buffer)
      -- A read that shows `text` and holds `pending` back, as long as that is safe.
      have hstep : ∀ text,
          console.pending ++ decode buffer = text ++ (console.read buffer).pending →
          (console.read buffer).shown = console.shown ++ replaceAnsi text →
          Safe text ((console.read buffer).pending ++ texts reads) →
          MakesUp (reads.foldl Console.read (console.read buffer)) console.shown
            (console.pending ++ texts (buffer :: reads))
            (Intact console.pending (buffer :: reads)) := by
        intro text htext hshown hsafe
        have hreplaced : replaceAnsi (console.pending ++ texts (buffer :: reads)) =
            replaceAnsi text ++ replaceAnsi ((console.read buffer).pending ++ texts reads) := by
          rw [texts_cons, ← List.append_assoc, htext, List.append_assoc, replaceAnsi_append hsafe]
        rw [hshown] at hnext
        unfold MakesUp at hnext ⊢
        rw [intact_cons hheld htext hsafe, hreplaced]
        simpa only [List.length_append, List.append_assoc, Nat.add_assoc] using hnext
      rcases read_cases console buffer with
        ⟨hplain, hread⟩ | ⟨text, rest, htext, hrest, ⟨hfull, hread⟩ | ⟨-, hread⟩⟩
      · exact hstep _ (by rw [hread, List.append_nil]) (by rw [hread]) (safe_of_not_mem hplain _)
      · by_cases hstraddles : Straddles (esc :: rest) (texts reads)
        · refine Or.inr ⟨fun hintact => ?_, ?_⟩
          · rcases hfull with hcomplete | hlong
            · have hnone := hstraddles.1
              rw [hcomplete] at hnone
              cases hnone
            · refine hintact [buffer] reads rfl ⟨text, esc :: rest, ?_, hstraddles, hlong⟩
              rw [texts_cons, texts_nil, List.append_nil, htext]
          · have hless := length_of_straddles text (List.cons_ne_nil _ _) hstraddles
            have hle := hnext.le
            rw [hread] at hle
            rw [List.length_append, List.nil_append, htext] at hle
            rw [texts_cons, ← List.append_assoc, htext, List.foldl_cons, hread, htext]
            omega
        · refine hstep (console.pending ++ decode buffer) (by rw [hread, List.append_nil])
            (by rw [hread]) ?_
          rw [htext]
          exact safe_last hrest (by rwa [hread])
      · refine hstep text (by rw [hread, htext]) (by rw [hread]) ?_
        rw [hread]
        exact safe_esc _ _

/-! ## What is held back in the end -/

/-- The last escape sequence is let go: some read ends with it, or is long after it began. -/
def LetGo (pending : List Char) (reads : List (List UInt8)) : Prop :=
  esc ∉ pending ++ texts reads ∨
    ∃ before after text rest, reads = before ++ after ∧ esc ∉ texts after ∧
      pending ++ texts before = text ++ esc :: rest ∧ esc ∉ rest ∧
      (matchAnsi (esc :: rest) = some [] ∨ 64 < units (esc :: rest))

/-- The last escape character of two texts, if the second one has any. -/
theorem last_append {first second : List Char} (hmem : esc ∈ second) (hrest : esc ∉ rest)
    (h : first ++ second = text ++ esc :: rest) :
    ∃ text', second = text' ++ esc :: rest := by
  rcases List.append_eq_append_iff.mp h with ⟨between, -, hbetween⟩ | ⟨between, -, hbetween⟩
  · exact ⟨between, hbetween⟩
  · cases between with
    | nil => exact ⟨[], hbetween.symm⟩
    | cons c between =>
        obtain ⟨-, rfl⟩ := List.cons.inj hbetween
        exact absurd (List.mem_append_right _ hmem) hrest

theorem Held.not_released (h : Held pending) (hpending : pending = text ++ esc :: rest)
    (hrest : esc ∉ rest) :
    ¬ (matchAnsi (esc :: rest) = some [] ∨ 64 < units (esc :: rest)) := by
  rcases h with rfl | ⟨rest', rfl, hrest', hmatch, hshort⟩
  · exact absurd hpending.symm (by simp)
  · obtain ⟨-, rfl⟩ := last_unique hrest' hrest (show [] ++ esc :: rest' = _ from hpending)
    exact not_or.mpr ⟨hmatch, Nat.not_lt.mpr hshort⟩

/-- What is let go is so from a read on, if the read keeps what comes after its last escape. -/
theorem letGo_cons {pending' : List Char} {buffer : List UInt8} (hheld : Held pending)
    (htext : pending ++ decode buffer = text ++ pending')
    (hplain : esc ∉ pending' ++ texts reads → LetGo pending (buffer :: reads)) :
    LetGo pending (buffer :: reads) ↔ LetGo pending' reads := by
  have hwhole : ∀ reads',
      pending ++ texts (buffer :: reads') = text ++ (pending' ++ texts reads') := by
    intro reads'
    rw [texts_cons, ← List.append_assoc, htext, List.append_assoc]
  by_cases hmem : esc ∈ pending' ++ texts reads
  · constructor
    · rintro (hnone | ⟨before, after, text', rest, heq, hafter, hlast, hrest, hfull⟩)
      · rw [hwhole] at hnone
        exact absurd (List.mem_append_right _ hmem) hnone
      · cases before with
        | nil =>
            rw [texts_nil, List.append_nil] at hlast
            exact absurd hfull (hheld.not_released hlast hrest)
        | cons buffer' before =>
            obtain ⟨rfl, hreads⟩ := List.cons.inj heq
            have hreads : reads = before ++ after := hreads
            rw [hwhole] at hlast
            have hwithin : esc ∈ pending' ++ texts before := by
              rw [hreads, texts_append, ← List.append_assoc] at hmem
              exact (List.mem_append.mp hmem).resolve_right hafter
            obtain ⟨text'', hlast⟩ := last_append hwithin hrest hlast
            exact Or.inr ⟨before, after, text'', rest, hreads, hafter, hlast, hrest, hfull⟩
    · rintro (hnone | ⟨before, after, text', rest, rfl, hafter, hlast, hrest, hfull⟩)
      · exact absurd hmem hnone
      · refine Or.inr ⟨buffer :: before, after, text ++ text', rest, rfl, hafter, ?_, hrest, hfull⟩
        rw [hwhole, hlast, List.append_assoc]
  · exact ⟨fun _ => Or.inl hmem, fun _ => hplain hmem⟩

/-- **What is held back in the end** is nothing if the last escape sequence is let go. -/
theorem pending_nil_iff (reads : List (List UInt8)) {console : Console}
    (hheld : Held console.pending) :
    (reads.foldl Console.read console).pending = [] ↔ LetGo console.pending reads := by
  induction reads generalizing console with
  | nil =>
      rw [List.foldl_nil]
      constructor
      · intro hnil
        rw [hnil]
        exact Or.inl List.not_mem_nil
      · rintro (hnone | ⟨before, after, text, rest, heq, -, hlast, hrest, hfull⟩)
        · rcases hheld with hnil | ⟨rest, hcons, -⟩
          · exact hnil
          · rw [hcons] at hnone
            exact absurd List.mem_cons_self hnone
        · rw [(List.append_eq_nil_iff.mp heq.symm).1, texts_nil, List.append_nil] at hlast
          exact absurd hfull (hheld.not_released hlast hrest)
  | cons buffer reads ih =>
      rw [List.foldl_cons, ih (read_held console buffer)]
      symm
      rcases read_cases console buffer with
        ⟨hplain, hread⟩ | ⟨text, rest, htext, hrest, ⟨hfull, hread⟩ | ⟨-, hread⟩⟩
      · rw [hread]
        refine letGo_cons hheld (List.append_nil _).symm fun hnone => Or.inl ?_
        rw [texts_cons, ← List.append_assoc]
        exact List.not_mem_append hplain hnone
      · rw [hread]
        refine letGo_cons hheld (List.append_nil _).symm fun hnone => Or.inr
          ⟨[buffer], reads, text, rest, rfl, hnone, ?_, hrest, hfull⟩
        rw [texts_cons, texts_nil, List.append_nil, htext]
      · rw [hread]
        refine letGo_cons hheld htext fun hnone => ?_
        exact absurd (List.mem_append_left _ List.mem_cons_self) hnone

/-! ## Characters -/

theorem replaceAnsi_notAscii (text : List Char) (hc : NotAscii c) (rest : List Char) :
    replaceAnsi (text ++ c :: rest) = replaceAnsi text ++ c :: replaceAnsi rest := by
  rw [replaceAnsi_append (safe_notAscii text hc rest), replaceAnsi_cons]
  by_contra hsome
  obtain ⟨after, hafter⟩ := Option.ne_none_iff_exists'.mp hsome
  obtain ⟨sequence, hescape, heq⟩ := matchAnsi_iff.mp hafter
  cases sequence with
  | nil => exact hescape.ne_nil
  | cons d sequence =>
      rw [hescape.tail.1] at heq
      rw [(List.cons.inj heq).1] at hc
      exact absurd hc (by unfold NotAscii esc; decide)

theorem length_replacements (text : List Char) (k : Nat) (rest : List Char) :
    (replaceAnsi (text ++ (List.replicate (k + 1) replacement ++ rest))).length =
      (replaceAnsi text).length + (k + 1) + (replaceAnsi rest).length := by
  induction k generalizing text with
  | zero =>
      rw [show List.replicate (0 + 1) replacement ++ rest = replacement :: rest from rfl,
        replaceAnsi_notAscii text replacement_notAscii, List.length_append, List.length_cons]
      omega
  | succ k ih =>
      have hrest := ih []
      rw [List.nil_append] at hrest
      rw [List.replicate_succ, List.cons_append, replaceAnsi_notAscii text replacement_notAscii,
        List.length_append, List.length_cons, hrest]
      show _ + (0 + _ + _ + 1) = _
      omega

/-- A character that is cut adds to what is shown. -/
theorem length_cut {x y : List UInt8} (text : List Char) (h : Cuts x y) :
    (replaceAnsi (text ++ decode (x ++ y))).length <
      (replaceAnsi (text ++ decode x ++ decode y)).length := by
  obtain ⟨before, c, after, k, hc, hwhole, hparts⟩ := decode_cut h
  rw [List.append_assoc, hparts, hwhole, ← List.append_assoc, ← List.append_assoc,
    replaceAnsi_notAscii _ hc, length_replacements, List.length_append, List.length_cons]
  omega

/-- No read ends in a character. -/
def CharactersWhole (reads : List (List UInt8)) : Prop :=
  ∀ before after, reads = before ++ after → ¬ Cuts before.flatten after.flatten

theorem not_cuts_nil (after : List UInt8) : ¬ Cuts [] after := by
  rintro ⟨s, b, bytes, hstate, -⟩
  cases hstate

theorem charactersWhole_cons {buffer : List UInt8} :
    CharactersWhole (buffer :: reads) ↔
      ¬ Cuts buffer reads.flatten ∧ CharactersWhole reads := by
  constructor
  · intro h
    have hfirst : ¬ Cuts buffer reads.flatten := by
      have hfirst := h [buffer] reads rfl
      rwa [List.flatten_cons, List.flatten_nil, List.append_nil] at hfirst
    refine ⟨hfirst, fun before after heq hcuts => ?_⟩
    by_cases hempty : before.flatten = []
    · rw [hempty] at hcuts
      exact not_cuts_nil _ hcuts
    · rw [heq, List.flatten_append] at hfirst
      refine h (buffer :: before) after (by rw [heq]; rfl) ?_
      rw [List.flatten_cons]
      exact (cuts_append hfirst hempty).mpr hcuts
  · rintro ⟨hfirst, hreads⟩ before after heq hcuts
    cases before with
    | nil => exact not_cuts_nil _ hcuts
    | cons buffer' before =>
        obtain ⟨rfl, hrest⟩ := List.cons.inj heq
        have hrest : reads = before ++ after := hrest
        rw [hrest, List.flatten_append] at hfirst
        rw [List.flatten_cons] at hcuts
        by_cases hempty : before.flatten = []
        · rw [hempty, List.append_nil] at hcuts
          rw [hempty, List.nil_append] at hfirst
          exact hfirst hcuts
        · exact hreads before after hrest ((cuts_append hfirst hempty).mp hcuts)

theorem CharactersWhole.before {before after : List (List UInt8)}
    (h : CharactersWhole (before ++ after)) : CharactersWhole before := by
  rintro first second rfl ⟨s, b, bytes, hstate, hsecond, hin⟩
  refine h first (second ++ after) (List.append_assoc ..)
    ⟨s, b, bytes ++ after.flatten, hstate, ?_, hin⟩
  rw [List.flatten_append, hsecond, List.cons_append]

theorem CharactersWhole.after {before after : List (List UInt8)}
    (h : CharactersWhole (before ++ after)) : CharactersWhole after := by
  induction before with
  | nil => exact h
  | cons buffer before ih => exact ih (charactersWhole_cons.mp h).2

/-- **Characters**: the texts of the reads show no less than the text of the stream, and more if
a character is cut. -/
theorem characters_le (reads : List (List UInt8)) (text : List Char) :
    (replaceAnsi (text ++ decode reads.flatten)).length ≤
        (replaceAnsi (text ++ texts reads)).length ∧
      ((replaceAnsi (text ++ decode reads.flatten)).length =
        (replaceAnsi (text ++ texts reads)).length → CharactersWhole reads) := by
  induction reads generalizing text with
  | nil =>
      refine ⟨Nat.le_refl _, fun _ before after heq hcuts => ?_⟩
      rw [(List.append_eq_nil_iff.mp heq.symm).1] at hcuts
      exact not_cuts_nil _ hcuts
  | cons buffer reads ih =>
      obtain ⟨hle, hwhole⟩ := ih (text ++ decode buffer)
      rw [texts_cons, ← List.append_assoc, List.flatten_cons]
      by_cases hcut : Cuts buffer reads.flatten
      · have hless := length_cut text hcut
        exact ⟨by omega, fun heq => by omega⟩
      · rw [decode_append hcut, ← List.append_assoc]
        exact ⟨hle, fun heq => charactersWhole_cons.mpr ⟨hcut, hwhole heq⟩⟩

/-- Whole characters are decoded read by read. -/
theorem CharactersWhole.texts_eq (h : CharactersWhole reads) :
    texts reads = decode reads.flatten := by
  induction reads with
  | nil => rfl
  | cons buffer reads ih =>
      obtain ⟨hcut, hreads⟩ := charactersWhole_cons.mp h
      rw [texts_cons, List.flatten_cons, decode_append hcut, ih hreads]

/-! ## The console -/

/-- **The console does not depend on the reads** if and only if none of them cuts a character or
a long escape sequence, and the last escape sequence is let go. -/
theorem console_whole_iff (reads : List (List UInt8)) : Whole reads ↔ WellCut reads := by
  have hheld : Held (⟨[], []⟩ : Console).pending := Or.inl rfl
  have hmakesUp : MakesUp (readAll reads) [] (texts reads) (Intact [] reads) :=
    makesUp_reads reads hheld
  have hpending : (readAll reads).pending = [] ↔ LetGo [] reads := pending_nil_iff reads hheld
  obtain ⟨hle, hcharacters⟩ := characters_le reads []
  rw [List.nil_append, List.nil_append] at hle hcharacters
  constructor
  · rintro ⟨hshown, hnil⟩
    have hbelow := hmakesUp.le
    have hlength := congrArg List.length hshown
    rw [hnil] at hbelow
    have hempty : (replaceAnsi []).length = 0 := rfl
    have hwhole : CharactersWhole reads := hcharacters (by
      simp only [List.length_nil] at hbelow
      omega)
    have hintact : Intact [] reads := by
      rcases hmakesUp with ⟨hintact, -⟩ | ⟨-, hless⟩
      · exact hintact
      · rw [hnil] at hless
        simp only [List.length_nil] at hless
        omega
    refine ⟨hwhole, ?_, ?_⟩
    · rintro before after rfl text begun htext hnone hsome
      by_contra hlong
      refine hintact before after rfl ⟨text, begun, ?_, ⟨hnone, ?_⟩, Nat.lt_of_not_le hlong⟩
      · rw [List.nil_append, hwhole.before.texts_eq, htext]
      · rwa [hwhole.after.texts_eq]
    · rcases hpending.mp hnil with hnone | ⟨before, after, text, rest, rfl, hafter, hlast, hfull⟩
      · rw [List.nil_append, hwhole.texts_eq] at hnone
        exact Or.inl hnone
      · rw [hwhole.after.texts_eq] at hafter
        rw [List.nil_append, hwhole.before.texts_eq] at hlast
        exact Or.inr ⟨before, after, text, rest, rfl, hafter, hlast, hfull⟩
  · rintro ⟨hwhole, hescapes, hlast⟩
    have hwhole : CharactersWhole reads := hwhole
    have hnil : (readAll reads).pending = [] := by
      rw [hpending]
      rcases hlast with hnone | ⟨before, after, text, rest, rfl, hafter, hlast, hfull⟩
      · exact Or.inl (by rwa [List.nil_append, hwhole.texts_eq])
      · refine Or.inr ⟨before, after, text, rest, rfl, ?_, ?_, hfull⟩
        · rwa [hwhole.after.texts_eq]
        · rwa [List.nil_append, hwhole.before.texts_eq]
    have hintact : Intact [] reads := by
      rintro before after rfl ⟨text, begun, htext, ⟨hnone, hsome⟩, hlong⟩
      rw [List.nil_append, hwhole.before.texts_eq] at htext
      rw [hwhole.after.texts_eq] at hsome
      exact absurd (hescapes before after rfl text begun htext hnone hsome) (Nat.not_le.mpr hlong)
    rcases hmakesUp with ⟨-, hshown⟩ | ⟨hcut, -⟩
    · refine ⟨?_, hnil⟩
      rw [hnil, hwhole.texts_eq] at hshown
      exact (List.append_nil _).symm.trans hshown
    · exact absurd hintact hcut

/-- Three streams: text after an escape sequence that is held back for good, a character in two
reads, an escape sequence in two reads. -/
theorem console_not_whole :
    readAll [[27, 91, 109, 104, 105]] = ⟨[], [esc, '[', 'm', 'h', 'i']⟩ ∧
      replaceAnsi (decode [27, 91, 109, 104, 105]) = ['h', 'i'] ∧
      ¬ Whole [[27, 91, 109, 104, 105]] ∧ ¬ Whole [[0xC3], [0xA9]] ∧
      ¬ Whole [27 :: 91 :: List.replicate 63 49, [109]] := by
  refine ⟨by decide, by decide, ?_, ?_, ?_⟩
  · rintro ⟨-, hpending⟩
    exact absurd hpending (by decide)
  · rintro ⟨hshown, -⟩
    exact absurd hshown (by decide)
  · rintro ⟨hshown, -⟩
    exact absurd hshown (by decide)

end TerminalOutput
