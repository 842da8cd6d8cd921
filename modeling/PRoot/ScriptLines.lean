import Mathlib.Data.List.TakeWhile
import PRoot.Shebang

/-!
# First lines of scripts

`extract_shebang` reads a first line byte by byte.  What the line says is told by its tokens.

* `kernelLine`: the interpreter and the argument of a line;
* `LineFits`: the line ends in the buffer, with a newline or a carriage return;
* `extract_shebang_line`: such a line is read as the kernel does.
-/

namespace PRoot

/-- What a first line says after its `#!`: the first token that blanks delimit, and the rest
without the blanks around it. -/
def kernelLine (line : CStr) : CStr × CStr :=
  let body := line.dropWhile isBlank
  let rest := (body.dropWhile fun c => !isBlank c).dropWhile isBlank
  (body.takeWhile fun c => !isBlank c, (rest.reverse.dropWhile isBlank).reverse)

/-- A first line, after its `#!`, ends in the buffer; if with its last byte, no blanks are left
at its end.  The interpreter is a string. -/
structure LineFits (bufSize : Nat) (line : CStr) (ending : Char) : Prop where
  ends : isEndOfLine ending = true
  noEnd : ∀ c ∈ line, isEndOfLine c = false
  inBuffer : 2 + line.length < bufSize
  atLimit : 2 + line.length + 1 = bufSize → ∀ c, line.getLast? = some c → isBlank c = false
  name : '\x00' ∉ (kernelLine line).1

/-- The characters of a file. -/
def fileChars (bytes : List (BitVec 8)) : CStr := bytes.map fun byte => Char.ofNat byte.toNat

/-! ## Lists -/

variable {rest : CStr} {c : Char}

theorem takeWhile_append_cons {p : Char → Bool} {w : CStr} (hw : ∀ x ∈ w, p x = true)
    (hc : p c = false) : (w ++ c :: rest).takeWhile p = w := by
  rw [List.takeWhile_append_of_pos hw, List.takeWhile_cons, hc]
  exact List.append_nil _

theorem upToNul_of_notMem {w : CStr} (h : '\x00' ∉ w) : upToNul w = w := by
  rw [upToNul, List.takeWhile_eq_self_iff]
  intro c hc
  simp only [ne_eq, decide_not, Bool.not_eq_eq_eq_not, Bool.not_true, decide_eq_false_iff_not]
  intro hnul
  exact h (hnul ▸ hc)

theorem upToNul_append_nul {w : CStr} (h : '\x00' ∉ w) :
    upToNul (w ++ '\x00' :: rest) = w := by
  apply takeWhile_append_cons
  · intro c hc
    simp only [ne_eq, decide_not, Bool.not_eq_eq_eq_not, Bool.not_true, decide_eq_false_iff_not]
    intro hnul
    exact h (hnul ▸ hc)
  · rfl

variable {text : CStr}

/-- Blanks at the end of a text that starts with none go without its first character. -/
theorem trimmed_of_cons (hc : isBlank c = false) :
    (c :: text).take 1 ++ (((c :: text).drop 1).reverse.dropWhile isBlank).reverse =
      ((c :: text).reverse.dropWhile isBlank).reverse := by
  rw [List.reverse_cons, List.dropWhile_append]
  cases hrest : (text.reverse.dropWhile isBlank).isEmpty with
  | true =>
      rw [List.isEmpty_iff] at hrest
      rw [if_pos rfl, List.dropWhile_cons, hc]
      simp [hrest]
  | false =>
      rw [if_neg Bool.false_ne_true]
      simp

/-! ## The states of the reader -/

section

variable {bufSize : Nat}

variable {n : Nat} {blanks : CStr}

theorem skipSpaces_blanks (hblanks : ∀ b ∈ blanks, isBlank b = true) (hc : isBlank c = false)
    (hfits : n + blanks.length < bufSize) :
    skipSpaces bufSize n (blanks ++ c :: rest) = .ok (n + blanks.length + 1, c, rest) := by
  induction blanks generalizing n with
  | nil =>
      rw [List.nil_append, skipSpaces, hc, if_neg (by simp)]
      rfl
  | cons b blanks ih =>
      rw [List.length_cons] at hfits
      have hb := hblanks b (List.mem_cons_self ..)
      rw [List.cons_append, skipSpaces, if_pos ⟨hb, by omega⟩,
        ih (fun b hmem => hblanks b (List.mem_cons_of_mem _ hmem)) (by omega), List.length_cons]
      congr 3
      omega

theorem skipSpaces_end (hblanks : ∀ b ∈ blanks, isBlank b = true)
    (hfits : n + blanks.length < bufSize) :
    skipSpaces bufSize n blanks = .error .ENOEXEC := by
  induction blanks generalizing n with
  | nil => rfl
  | cons b blanks ih =>
      rw [List.length_cons] at hfits
      have hb := hblanks b (List.mem_cons_self ..)
      rw [skipSpaces, if_pos ⟨hb, by omega⟩]
      exact ih (fun b hmem => hblanks b (List.mem_cons_of_mem _ hmem)) (by omega)

variable {path : CStr}

/-- One character of the name. -/
theorem slurpPath_char {next : Char} (hfits : n < bufSize) (hend : isEndOfLine c = false)
    (hmore : isBlank c = true ∨ path.getLast? ≠ some '\x00' ∨ path.length ≤ 1) :
    slurpPath bufSize path n c (next :: rest) =
      slurpPath bufSize (path ++ [if isBlank c then '\x00' else c]) (n + 1) next rest := by
  have hnot : ¬ (¬ isBlank c = true ∧ 1 < path.length ∧ path.getLast? = some '\x00') := by
    intro ⟨hblank, hlength, hlast⟩
    rcases hmore with h | h | h
    · exact hblank h
    · exact h hlast
    · omega
  rw [slurpPath, if_pos hfits, if_neg (by rw [hend]; exact Bool.false_ne_true), if_neg hnot]

variable {more : CStr}

/-- The name, up to what follows it. -/
theorem slurpPath_name {name : CStr} {next : Char}
    (hname : ∀ x ∈ name, isBlank x = false ∧ isEndOfLine x = false ∧ x ≠ '\x00')
    (hpath : path.getLast? ≠ some '\x00') (hfits : n + name.length ≤ bufSize)
    (hsplit : c :: rest = name ++ next :: more) :
    slurpPath bufSize path n c rest =
      slurpPath bufSize (path ++ name) (n + name.length) next more := by
  induction name generalizing path n c rest with
  | nil =>
      obtain ⟨rfl, rfl⟩ := List.cons.inj hsplit
      simp
  | cons x name ih =>
      obtain ⟨rfl, hrest⟩ := List.cons.inj hsplit
      rw [List.length_cons] at hfits
      obtain ⟨hblank, hend, hnul⟩ := hname c (List.mem_cons_self ..)
      cases rest with
      | nil =>
          have := congrArg List.length hrest
          simp at this
      | cons y rest =>
          rw [slurpPath_char (by omega) hend (.inr (.inl hpath)), hblank, if_neg Bool.false_ne_true]
          have hlast : (path ++ [c]).getLast? ≠ some '\x00' := by
            rw [List.getLast?_concat]
            intro h
            exact hnul (Option.some.inj h)
          rw [ih (fun x hmem => hname x (List.mem_cons_of_mem _ hmem)) hlast (by omega) hrest]
          simp only [List.append_assoc, List.singleton_append, List.length_cons]
          congr 1
          omega

/-- Blanks, up to what follows them. -/
theorem slurpPath_blanks {next : Char}
    (hblanks : ∀ b ∈ blanks, isBlank b = true ∧ isEndOfLine b = false)
    (hfits : n + blanks.length ≤ bufSize) (hsplit : c :: rest = blanks ++ next :: more) :
    slurpPath bufSize path n c rest =
      slurpPath bufSize (path ++ List.replicate blanks.length '\x00') (n + blanks.length) next
        more := by
  induction blanks generalizing path n c rest with
  | nil =>
      obtain ⟨rfl, rfl⟩ := List.cons.inj hsplit
      simp
  | cons x blanks ih =>
      obtain ⟨rfl, hrest⟩ := List.cons.inj hsplit
      rw [List.length_cons] at hfits
      obtain ⟨hblank, hend⟩ := hblanks c (List.mem_cons_self ..)
      cases rest with
      | nil =>
          have := congrArg List.length hrest
          simp at this
      | cons y rest =>
          rw [slurpPath_char (by omega) hend (.inl hblank), hblank, if_pos rfl]
          rw [ih (fun x hmem => hblanks x (List.mem_cons_of_mem _ hmem)) (by omega)
            hrest]
          simp only [List.append_assoc, List.singleton_append, List.length_cons,
            List.replicate_succ]
          congr 1
          omega

variable {ending : Char}

/-- The argument, up to the end of the line. -/
theorem slurpArgument_text {argument : CStr} (htext : ∀ x ∈ text, isEndOfLine x = false)
    (hfits : n + text.length ≤ bufSize) (hsplit : c :: rest = text ++ ending :: more) :
    slurpArgument bufSize argument n c rest =
      slurpArgument bufSize (argument ++ text) (n + text.length) ending
        more := by
  induction text generalizing argument n c rest with
  | nil =>
      obtain ⟨rfl, rfl⟩ := List.cons.inj hsplit
      simp
  | cons x text ih =>
      obtain ⟨rfl, hrest⟩ := List.cons.inj hsplit
      rw [List.length_cons] at hfits
      have hend := htext c (List.mem_cons_self ..)
      cases rest with
      | nil =>
          have := congrArg List.length hrest
          simp at this
      | cons y rest =>
          rw [slurpArgument, if_pos (by omega), if_neg (by rw [hend]; exact Bool.false_ne_true)]
          rw [ih (fun x hmem => htext x (List.mem_cons_of_mem _ hmem)) (by omega)
            hrest]
          simp only [List.append_assoc, List.singleton_append, List.length_cons]
          congr 1
          omega

/-! ## The whole line -/

theorem isBlank_of_end (h : isEndOfLine c = true) : isBlank c = false := by
  unfold isEndOfLine at h
  rcases (Bool.or_eq_true ..).mp h with hc | hc <;> rw [of_decide_eq_true hc] <;> rfl

/-- The name ends the line. -/
theorem slurpPath_end (hend : isEndOfLine ending = true) :
    slurpPath bufSize path n ending rest = (upToNul path, []) := by
  rw [slurpPath.eq_def, if_pos hend, ite_self]

/-- The argument ends the line. -/
theorem slurpArgument_end (hend : isEndOfLine ending = true) (hc : isBlank c = false)
    (hlimit : n = bufSize → ∀ x, (c :: text).getLast? = some x → isBlank x = false)
    (hfits : n ≤ bufSize) :
    slurpArgument bufSize (c :: text) n ending rest =
      upToNul ((c :: text).reverse.dropWhile isBlank).reverse := by
  rw [slurpArgument.eq_def, if_pos hend, trimmed_of_cons hc]
  split
  · rfl
  case isFalse hge =>
    have hlast := hlimit (by omega)
    have hkeep : (c :: text).reverse.dropWhile isBlank = (c :: text).reverse := by
      cases hrev : (c :: text).reverse with
      | nil => rfl
      | cons x before =>
          have hx : isBlank x = false := by
            apply hlast
            rw [List.getLast?_eq_head?_reverse, hrev]
            rfl
          rw [List.dropWhile_cons, hx, if_neg Bool.false_ne_true]
    rw [hkeep, List.reverse_reverse]

/-- What follows the name of the interpreter. -/
theorem slurpPath_rest {name : CStr} (hne : name ≠ []) (hname : '\x00' ∉ name)
    (hblanks : ∀ b ∈ blanks, isBlank b = true ∧ isEndOfLine b = false)
    (htext : ∀ x ∈ text, isEndOfLine x = false)
    (hhead : ∀ x, text.head? = some x → isBlank x = false) (hboth : blanks = [] → text = [])
    (hend : isEndOfLine ending = true) (hsplit : c :: rest = blanks ++ (text ++ ending :: more))
    (hfits : n + blanks.length + text.length ≤ bufSize)
    (hlimit : n + blanks.length + text.length = bufSize →
      ∀ x, text.getLast? = some x → isBlank x = false) :
    slurpPath bufSize name n c rest =
      (name, upToNul (text.reverse.dropWhile isBlank).reverse) := by
  cases text with
  | nil =>
      have hskip : slurpPath bufSize name n c rest =
          slurpPath bufSize (name ++ List.replicate blanks.length '\x00') (n + blanks.length)
            ending more := by
        rw [List.length_nil] at hfits
        exact slurpPath_blanks hblanks (by omega) hsplit
      rw [hskip, slurpPath_end hend]
      cases blanks with
      | nil =>
          rw [List.length_nil, List.replicate_zero, List.append_nil, upToNul_of_notMem hname]
          rfl
      | cons b blanks =>
          rw [List.length_cons, List.replicate_succ, upToNul_append_nul hname]
          rfl
  | cons d text =>
      rw [List.length_cons] at hfits hlimit
      have hd := hhead d rfl
      have hdend := htext d (List.mem_cons_self ..)
      have hblank : blanks ≠ [] := fun h => by cases hboth h
      obtain ⟨b, blanks, rfl⟩ := List.exists_cons_of_ne_nil hblank
      have hskip : slurpPath bufSize name n c rest =
          slurpPath bufSize (name ++ List.replicate (b :: blanks).length '\x00')
            (n + (b :: blanks).length) d (text ++ ending :: more) :=
        slurpPath_blanks hblanks (by omega) hsplit
      have hlength : 1 < (name ++ List.replicate (b :: blanks).length '\x00').length := by
        have := List.length_pos_iff.mpr hne
        simp
        omega
      have hlast : (name ++ List.replicate (b :: blanks).length '\x00').getLast? = some '\x00' := by
        rw [List.length_cons, List.replicate_succ', ← List.append_assoc, List.getLast?_concat]
      have hargument : slurpArgument bufSize [] (n + (b :: blanks).length) d
            (text ++ ending :: more) =
          slurpArgument bufSize (d :: text) (n + (b :: blanks).length + (d :: text).length)
            ending more :=
        slurpArgument_text htext (by rw [List.length_cons]; omega) rfl
      rw [hskip, slurpPath.eq_def, if_pos (by omega), if_neg (by rw [hdend]; exact Bool.false_ne_true),
        if_pos ⟨by rw [hd]; exact Bool.false_ne_true, hlength, hlast⟩, hargument,
        slurpArgument_end hend hd _ (by rw [List.length_cons (a := d)]; omega)]
      · rw [List.length_cons, List.replicate_succ, upToNul_append_nul hname]
      · intro h
        rw [List.length_cons (a := d)] at h
        exact hlimit (by omega)

/-- A line without its leading blanks: its name, then blanks, then the rest. -/
theorem line_parts (body : CStr) :
    body = (body.takeWhile fun c => !isBlank c)
      ++ ((body.dropWhile fun c => !isBlank c).takeWhile isBlank
        ++ (body.dropWhile fun c => !isBlank c).dropWhile isBlank) := by
  rw [List.takeWhile_append_dropWhile, List.takeWhile_append_dropWhile]

theorem head_dropWhile {p : Char → Bool} {l : CStr} (h : (l.dropWhile p).head? = some c) :
    p c = false := by
  have := List.head?_dropWhile_not p l
  rw [h] at this
  simpa using this

/-- A first line that fits. -/
theorem slurp_line {line : CStr} (h : LineFits bufSize line ending) (rest : CStr) :
    ∃ n c after, skipSpaces bufSize 2 (line ++ ending :: rest) = .ok (n, c, after) ∧
      slurpPath bufSize [] n c after = ((kernelLine line).1, upToNul (kernelLine line).2) := by
  have hlead : ∀ b ∈ line.takeWhile isBlank, isBlank b = true :=
    fun b hb => List.mem_takeWhile_imp hb
  have hsplit : line = line.takeWhile isBlank ++ line.dropWhile isBlank :=
    (List.takeWhile_append_dropWhile).symm
  have hmem : ∀ c ∈ line.dropWhile isBlank, isEndOfLine c = false :=
    fun c hc => h.noEnd c ((List.dropWhile_sublist _).mem hc)
  have hlength := congrArg List.length hsplit
  rw [List.length_append] at hlength
  have hbuffer := h.inBuffer
  have hlimit := h.atLimit
  have hname := h.name
  unfold kernelLine at hname ⊢
  dsimp only at hname ⊢
  cases hbody : line.dropWhile isBlank with
  | nil =>
      -- A line of blanks: its end is taken for that of the name.
      rw [hbody, List.append_nil] at hsplit
      have hblank : ∀ b ∈ line, isBlank b = true := by
        intro b hb
        rw [hsplit] at hb
        exact hlead b hb
      refine ⟨2 + line.length + 1, ending, rest,
        skipSpaces_blanks hblank (isBlank_of_end h.ends) (by omega), ?_⟩
      rw [slurpPath_end h.ends]
      rfl
  | cons d body =>
      rw [hbody] at hmem hname hlength
      have hd : isBlank d = false := head_dropWhile (by rw [hbody]; rfl)
      have hline : line ++ ending :: rest =
          line.takeWhile isBlank ++ d :: (body ++ ending :: rest) := by
        rw [← List.cons_append, ← hbody, ← List.append_assoc, ← hsplit]
      refine ⟨2 + (line.takeWhile isBlank).length + 1, d, body ++ ending :: rest, ?_, ?_⟩
      · rw [hline]
        exact skipSpaces_blanks hlead hd (by omega)
      · have hparts := line_parts (d :: body)
        revert hparts hname
        generalize hnamed : ((d :: body).takeWhile fun c => !isBlank c) = name
        generalize hblanked : ((d :: body).dropWhile fun c => !isBlank c).takeWhile isBlank = blanks
        generalize htexted : ((d :: body).dropWhile fun c => !isBlank c).dropWhile isBlank = text
        intro hname hparts
        have hname' : ∀ x ∈ name, isBlank x = false ∧ isEndOfLine x = false ∧ x ≠ '\x00' := by
          intro x hx
          refine ⟨?_, hmem x ?_, fun hnul => hname (hnul ▸ hx)⟩
          · rw [← hnamed] at hx
            simpa using List.mem_takeWhile_imp hx
          · rw [hparts]
            exact List.mem_append_left _ hx
        have hne : name ≠ [] := by
          rw [← hnamed, List.takeWhile_cons, hd]
          exact List.cons_ne_nil _ _
        have hblanks : ∀ b ∈ blanks, isBlank b = true ∧ isEndOfLine b = false := by
          intro b hb
          refine ⟨?_, hmem b ?_⟩
          · rw [← hblanked] at hb
            exact List.mem_takeWhile_imp hb
          · rw [hparts]
            exact List.mem_append_right _ (List.mem_append_left _ hb)
        have htext : ∀ x ∈ text, isEndOfLine x = false := by
          intro x hx
          apply hmem x
          rw [hparts]
          exact List.mem_append_right _ (List.mem_append_right _ hx)
        have hhead : ∀ x, text.head? = some x → isBlank x = false := by
          intro x hx
          rw [← htexted] at hx
          exact head_dropWhile hx
        have hboth : blanks = [] → text = [] := by
          intro hnil
          rw [← htexted]
          rw [← hblanked] at hnil
          cases hrest : (d :: body).dropWhile fun c => !isBlank c with
          | nil => rfl
          | cons x after =>
              have hx := head_dropWhile (show ((d :: body).dropWhile fun c => !isBlank c).head? =
                some x by rw [hrest]; rfl)
              rw [hrest, List.takeWhile_cons, if_pos (by simpa using hx)] at hnil
              cases hnil
        have hsizes := congrArg List.length hparts
        rw [List.length_append, List.length_append] at hsizes
        have hlast : ∀ x, text.getLast? = some x → line.getLast? = some x := by
          intro x hx
          rw [hsplit, hbody, hparts, List.getLast?_append, List.getLast?_append,
            List.getLast?_append, hx]
          rfl
        obtain ⟨c, after, hafter⟩ : ∃ c after, blanks ++ (text ++ ending :: rest) = c :: after := by
          apply List.exists_cons_of_ne_nil
          simp
        have hwalk : slurpPath bufSize [] (2 + (line.takeWhile isBlank).length + 1) d
              (body ++ ending :: rest) =
            slurpPath bufSize ([] ++ name) (2 + (line.takeWhile isBlank).length + 1 + name.length)
              c after := by
          apply slurpPath_name hname' (by simp) (by omega)
          rw [← hafter, ← List.cons_append, hparts]
          simp only [List.append_assoc]
        rw [hwalk, List.nil_append]
        exact slurpPath_rest hne hname hblanks htext hhead hboth h.ends hafter.symm (by omega)
          (fun hn x hx => hlimit (by omega) x (hlast x hx))

/-- **First lines are read as the kernel reads them**: what does not start with `#!` is no
script; a line that ends in the buffer names its interpreter and its argument; a file of `#!`
and blanks is refused, and so is an interpreter without a name. -/
theorem extract_shebang_line (bufSize : Nat) (bytes : List (BitVec 8)) (maxOffset : Nat) :
    ((∀ line, fileChars bytes ≠ '#' :: '!' :: line) →
      extractShebang bufSize ⟨.ok bytes, maxOffset⟩ = .ok none) ∧
    (∀ line ending rest, fileChars bytes = '#' :: '!' :: (line ++ ending :: rest) →
      LineFits bufSize line ending →
        extractShebang bufSize ⟨.ok bytes, maxOffset⟩ =
          .ok (some ((kernelLine line).1, upToNul (kernelLine line).2))) ∧
    (∀ blanks, fileChars bytes = '#' :: '!' :: blanks → (∀ b ∈ blanks, isBlank b = true) →
      2 + blanks.length < bufSize →
        extractShebang bufSize ⟨.ok bytes, maxOffset⟩ = .error .ENOEXEC) ∧
    ∀ K : ExecHost, K.translateAndCheckExec [] = .error .ENOEXEC := by
  unfold extractShebang
  refine ⟨?_, ?_, ?_, fun K => rfl⟩
  · intro hno
    dsimp only
    split
    case h_1 line hline => exact absurd hline (hno line)
    case h_2 => rfl
  · intro line ending rest hchars hfits
    obtain ⟨n, c, after, hskip, hslurp⟩ := slurp_line hfits rest
    unfold fileChars at hchars
    simp only [hchars, hskip, hslurp]
  · intro blanks hchars hblanks hfits
    unfold fileChars at hchars
    simp only [hchars, skipSpaces_end hblanks hfits]

end

/-- The bytes of a text. -/
def textBytes (text : String) : List (BitVec 8) := text.toList.map fun c => BitVec.ofNat 8 c.toNat

/-- A script that is started with an option. -/
theorem extract_shebang_line_sh :
    LineFits 128 "/bin/sh -x ".toList '\n' ∧
      extractShebang 128 ⟨.ok (textBytes "#!/bin/sh -x \n"), 0⟩ =
        .ok (some ("/bin/sh".toList, "-x".toList)) := by
  have hchars : "/bin/sh -x ".toList =
      ['/', 'b', 'i', 'n', '/', 's', 'h', ' ', '-', 'x', ' '] := by
    simp
  have hfits : LineFits 128 "/bin/sh -x ".toList '\n' := by
    rw [hchars]
    refine ⟨rfl, ?_, by decide, fun h => ?_, by decide⟩
    · simp [isEndOfLine]
    · exact absurd h (by decide)
  have hline : ((kernelLine "/bin/sh -x ".toList).1, upToNul (kernelLine "/bin/sh -x ".toList).2) =
      ("/bin/sh".toList, "-x".toList) := by
    rw [hchars]
    decide +kernel
  have hread := (extract_shebang_line 128 (textBytes "#!/bin/sh -x \n") 0).2.1
    "/bin/sh -x ".toList '\n' [] (by decide +kernel) hfits
  rw [hline] at hread
  exact ⟨hfits, hread⟩

/-- A carriage return ends a line too. -/
theorem extract_shebang_return :
    fileChars (textBytes "#!/bin/sh\rx\n") = '#' :: '!' :: ("/bin/sh\rx".toList ++ ['\n']) ∧
      '\n' ∉ "/bin/sh\rx".toList ∧
      extractShebang 128 ⟨.ok (textBytes "#!/bin/sh\rx\n"), 0⟩ = .ok (some ("/bin/sh".toList, [])) ∧
      extractShebang 128 ⟨.ok (textBytes "#!/bin/sh\rx\n"), 0⟩ ≠
        .ok (some ((kernelLine "/bin/sh\rx".toList).1, upToNul (kernelLine "/bin/sh\rx".toList).2)) := by
  have hread : extractShebang 128 ⟨.ok (textBytes "#!/bin/sh\rx\n"), 0⟩ =
      .ok (some ("/bin/sh".toList, [])) := by
    decide +kernel
  refine ⟨by decide +kernel, by decide +kernel, hread, ?_⟩
  rw [hread]
  intro h
  have hname := congrArg Prod.fst (Option.some.inj (Except.ok.inj h))
  revert hname
  decide +kernel

end PRoot
