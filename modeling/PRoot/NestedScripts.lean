import PRoot.LoadScript
import PRoot.PointerEdits
import PRoot.Shebang

/-!
# Nested scripts

`expand_shebang` in the memory of a tracee: each script of a chain is replaced by its interpreter,
in the program to execute and at the start of `argv[]`, which is pushed at the end.

* `expandShebangIn`: `expand_shebang` on the pointers of `argv[]`;
* `kernelArgv`: what a script does to the arguments;
* `expand_shebang_chain`: a chain does it once for each of its scripts.
-/

namespace PRoot

section

variable (K : ExecHost) (T : XTracee K.host)

/-- `write_xpointees`. -/
def writeXPointees (m : Space K.host) (array : List (XPointer K.host)) (index : Nat) :
    List CStr → Except XStop (List (XPointer K.host))
  | [] => .ok array
  | string :: strings => do
      let array ← applyEdit T m array (.write index (pathBytes string))
      writeXPointees m array (index + 1) strings

/-- The start of `argv[]` is resized and written.  "See commit 8c8fbe85 about
`argv->length == 1`." -/
def writeScriptArgv (m : Space K.host) (argv : List (XPointer K.host))
    (userPath argument oldUserPath : CStr) : Except XStop (List (XPointer K.host)) := do
  if argument ≠ [] then
    let argv ← resizeArrayOfXPointers ⟨0, none⟩ argv 0 (2 + if argv.length = 1 then 1 else 0)
    writeXPointees K T m argv 0 [userPath, argument, oldUserPath]
  else
    let argv ← resizeArrayOfXPointers ⟨0, none⟩ argv 0 (1 + if argv.length = 1 then 1 else 0)
    writeXPointees K T m argv 0 [userPath, oldUserPath]

variable (room : Nat)

/-- The rounds of the loop of `expand_shebang`, as many as are left: the program, from both
points of view, and the pointers of `argv[]` once they were fetched. -/
def expandRoundsIn (s : XState K.host) (userPath : CStr)
    (argv : Option (List (XPointer K.host))) :
    Nat → Except XStop (CStr × CStr × Option (List (XPointer K.host)))
  | 0 => .error (.errno .ELOOP)
  | left + 1 => do
      let round := K.maxSymlinks - (left + 1)
      let hostPath ← (K.translateAndCheckExec userPath).mapError .errno
      if !K.allocates (.oldUserPath round) then throw (.errno .ENOMEM)
      let file ← (K.openFile hostPath).mapError .errno
      match ← (extractShebang K.binprmBufSize file).mapError .errno with
      | none => .ok (hostPath, userPath, argv)
      | some (interpreter, argument) =>
          let _ ← (K.translateAndCheckExec interpreter).mapError .errno
          let old ← match argv with
            | some argv => .ok argv
            | none => (fetchArrayOfXPointers T room s).mapError .errno
          if !K.allocates (.resizedArgv round) then throw (.errno .ENOMEM)
          if !K.allocates (.writtenArgv round) then throw (.errno .ENOMEM)
          let argv ← writeScriptArgv K T s.space old interpreter argument userPath
          expandRoundsIn s interpreter (some argv) left

/-- `expand_shebang`: what changed, the program from both points of view, and whether it is the
interpreter of a script. -/
def expandShebangIn (s : XState K.host) (userPath : CStr) :
    XState K.host × Except XStop (CStr × CStr × Bool) :=
  match expandRoundsIn K T room s userPath none K.maxSymlinks with
  | .error stop => (s, .error stop)
  | .ok (hostPath, userPath, none) => (s, .ok (hostPath, userPath, false))
  | .ok (hostPath, userPath, some argv) =>
      match pushArrayOfXPointers T s argv with
      | (s, .error stop) => (s, .error stop)
      | (s, .ok _) => (s, .ok (hostPath, userPath, true))

end

/-! ## Chains -/

/-- A script of a chain: its path as it is given, and what its first line asks for. -/
structure ScriptStep where
  path : CStr
  interpreter : CStr
  argument : CStr

section

variable (K : ExecHost)

/-- A path names a script that can be executed. -/
def IsScript (step : ScriptStep) : Prop :=
  ∃ hostPath file, K.translateAndCheckExec step.path = .ok hostPath ∧
    K.openFile hostPath = .ok file ∧
    extractShebang K.binprmBufSize file = .ok (some (step.interpreter, step.argument))

/-- A path names a program that is no script, at a host path. -/
def IsProgram (path hostPath : CStr) : Prop :=
  K.translateAndCheckExec path = .ok hostPath ∧
    ∃ file, K.openFile hostPath = .ok file ∧ extractShebang K.binprmBufSize file = .ok none

/-- A chain of scripts, from a path to the last interpreter. -/
inductive Scripts : CStr → List ScriptStep → CStr → Prop
  | nil (path : CStr) : Scripts path [] path
  | cons {step : ScriptStep} {steps : List ScriptStep} {last : CStr} (h : IsScript K step)
      (hrest : Scripts step.interpreter steps last) : Scripts step.path (step :: steps) last

end

section

variable {host : Host}

/-- An argument that is a string. -/
def Item.ofString (string : CStr) : Item host := .written (throughNul (pathBytes string))

/-- What the kernel makes of the arguments of a script: the interpreter, its optional argument,
the path of the script as it was given, and the arguments from index 1 on. -/
def kernelArgv (args : List (Item host)) (step : ScriptStep) : List (Item host) :=
  [.ofString step.interpreter]
    ++ (if step.argument ≠ [] then [.ofString step.argument] else [])
    ++ .ofString step.path :: args.drop 1

/-- The bytes that an argument adds to a new array. -/
def Item.text : Item host → Bytes
  | .kept _ _ => []
  | .written string => string

/-- The size of an array of pointers with its strings. -/
def itemsSize (T : XTracee host) (items : List (Item host)) : Nat :=
  items.length * T.sizeofWord + (items.flatMap Item.text).length

/-- The stack has room for a new array, up to the word at its end. -/
def StackHasRoom (T : XTracee host) (s : XState host) (size : Nat) : Prop :=
  ∃ ptr, allocMem T s.stackPointer size = some ptr ∧
    (s.space.load ptr (size + host.word)).isSome

/-! ## Room on the stack -/

section

variable {T : XTracee host}

theorem load_isSome_of_le {m : Space host} {a : Address host} {j k n : Nat}
    (h : (m.load a n).isSome) (hle : j + k ≤ n) : (m.load (a.plus j) k).isSome := by
  obtain ⟨bytes, hbytes⟩ := Option.isSome_iff_exists.mp h
  have hdrop := AddressSpace.load_drop hbytes (show j ≤ n by omega)
  rw [AddressSpace.load_take hdrop (show k ≤ n - j by omega)]
  rfl

/-- A piece is written where there is room for it and a word. -/
theorem writeData_granted {processVm : Bool} {m : Space host} {dest : Address host} {src : Bytes}
    (htag : untagPointer host dest = dest) (hspace : src.length ≤ 2 ^ (8 * host.word))
    (hroom : (m.load dest (src.length + host.word)).isSome) :
    ∃ m', MemoryAccess.writeData processVm m dest src = (m', .ok ()) := by
  have hsplit := split_words host src.length
  have hstore : (m.store dest src).isSome := by
    have := load_isSome_of_le hroom (show 0 + src.length ≤ _ by omega)
    rwa [AddressSpace.store_isSome_iff, ← plus_zero dest]
  obtain ⟨m', hm'⟩ := Option.isSome_iff_exists.mp hstore
  refine ⟨m', ?_⟩
  have hpoke : pokeBytes m dest src = (m', .ok ()) :=
    pokeBytes_eq hspace hm' fun _ => load_isSome_of_le hroom (by omega)
  unfold MemoryAccess.writeData
  dsimp only
  rw [htag]
  split
  case h_1 stored hwrite =>
    split at hwrite
    · unfold processVmWritev at hwrite
      split at hwrite
      · rw [hm'] at hwrite
        rw [Option.some.inj hwrite]
      · cases hwrite
    · cases hwrite
  case h_2 => exact hpoke

theorem writePieces_granted {m : Space host} {dest : Address host} {pieces : List Bytes}
    (hspace : pieces.flatten.length ≤ 2 ^ (8 * host.word))
    (htag : ∀ k ≤ pieces.flatten.length, untagPointer host (dest.plus k) = dest.plus k)
    (hroom : (m.load dest (pieces.flatten.length + host.word)).isSome) :
    ∃ m', writePieces T m dest pieces = (m', .ok ()) := by
  induction pieces generalizing m dest with
  | nil => exact ⟨m, rfl⟩
  | cons piece pieces ih =>
      rw [List.flatten_cons, List.length_append] at hspace htag hroom
      have hdest := htag 0 (Nat.zero_le _)
      rw [plus_zero] at hdest
      have hfirst := load_isSome_of_le hroom (show 0 + (piece.length + host.word) ≤ _ by omega)
      rw [plus_zero] at hfirst
      obtain ⟨middle, hwrite⟩ := @writeData_granted _ T.processVm _ _ _ hdest (by omega) hfirst
      have hstore := writeData_store (by omega) hwrite
      have hrest := load_isSome_of_le hroom
        (show piece.length + (pieces.flatten.length + host.word) ≤ _ by omega)
      rw [← load_isSome_congr (AddressSpace.store_mapped hstore)] at hrest
      obtain ⟨m', hm'⟩ := ih (by omega)
        (fun k hk => by rw [plus_plus]; exact htag (piece.length + k) (by omega)) hrest
      refine ⟨m', ?_⟩
      rw [writePieces, hwrite]
      exact hm'

theorem writevData_granted {m : Space host} {dest : Address host} {pieces : List Bytes}
    (hspace : pieces.flatten.length ≤ 2 ^ (8 * host.word))
    (htag : ∀ k ≤ pieces.flatten.length, untagPointer host (dest.plus k) = dest.plus k)
    (hroom : (m.load dest (pieces.flatten.length + host.word)).isSome) :
    ∃ m', writevData T m dest pieces = (m', .ok ()) := by
  have hdest := htag 0 (Nat.zero_le _)
  rw [plus_zero] at hdest
  unfold writevData
  dsimp only
  rw [hdest]
  split
  case h_1 stored hwrite => exact ⟨stored, rfl⟩
  case h_2 => exact writePieces_granted hspace htag hroom

/-- An array that has room on the stack is pushed. -/
theorem push_granted {s : XState host} {array : List (XPointer host)}
    (htag : untagPointer host (T.peekReg s.stackPointer) = T.peekReg s.stackPointer)
    (hsome : modifiedPointees array ≠ [])
    (hcount : (modifiedPointees array).length < array.length)
    (hroom : StackHasRoom T s (blockSize T array)) :
    ∃ s', pushArrayOfXPointers T s array = (s', .ok ()) := by
  obtain ⟨ptr, halloc, hmapped⟩ := hroom
  generalize hpod : ((podValues ptr (array.length * T.sizeofWord) array).map
    BitVec.toNat).flatMap (wordBytes T.sizeofWord) = pod
  have hflat : (pod :: modifiedPointees array).flatten.length = blockSize T array := by
    rw [List.flatten_cons, List.length_append, ← hpod, rowBytes_length, List.length_map,
      podValues_length, blockSize]
  have hblock : 0 < blockSize T array := by
    have hword := sizeofWord_pos T
    have hrow : 0 < array.length * T.sizeofWord := Nat.mul_pos (by omega) hword
    unfold blockSize
    omega
  obtain ⟨-, hbelow⟩ := allocMem_inv hblock halloc
  have huntag : ∀ k ≤ (pod :: modifiedPointees array).flatten.length,
      untagPointer host (ptr.plus k) = ptr.plus k := by
    rw [hflat]
    intro k hk
    apply untagPointer_of_le htag
    rw [BitVec.toNat_add, BitVec.toNat_ofNat,
      Nat.mod_eq_of_lt (show k < 2 ^ (8 * host.word) by omega), Nat.mod_eq_of_lt (by omega)]
    omega
  obtain ⟨m', hm'⟩ := @writevData_granted _ T s.space ptr (pod :: modifiedPointees array)
    (by omega) huntag (by rw [hflat]; exact hmapped)
  unfold pushArrayOfXPointers
  dsimp only
  rw [if_neg hsome, if_neg (by omega), halloc]
  dsimp only
  rw [hpod, hm']
  exact ⟨_, rfl⟩

end

end

/-! ## The start of `argv[]` -/

section

variable {K : ExecHost} {T : XTracee K.host} {m : Space K.host}

variable {array : List (XPointer K.host)}

theorem writeXPointees_tracks {items : List (Item K.host)} {index : Nat} {strings : List CStr}
    (h : List.Forall₂ (StandsFor m) array items) (hroom : index + strings.length ≤ array.length) :
    ∃ array', writeXPointees K T m array index strings = .ok array' ∧
      List.Forall₂ (StandsFor m) array'
        (items.take index ++ strings.map Item.ofString
          ++ items.drop (index + strings.length)) := by
  induction strings generalizing array items index with
  | nil =>
      refine ⟨array, rfl, ?_⟩
      rw [List.map_nil, List.append_nil, List.length_nil, Nat.add_zero, List.take_append_drop]
      exact h
  | cons string strings ih =>
      rw [List.length_cons] at hroom
      have hentry : array[index]? = some array[index] := List.getElem?_eq_getElem (by omega)
      have hindex : index < items.length := by
        rw [← h.length_eq]
        omega
      have hset : List.Forall₂ (StandsFor m)
          (array.set index { array[index] with localCopy := some (throughNul (pathBytes string)) })
          (items.set index (.ofString string)) :=
        forall₂_set h (show StandsFor m _ (.ofString string) from ⟨rfl, isString_throughNul⟩) index
      obtain ⟨array', hwrite, htracks⟩ := @ih _ _ (index + 1) hset (by rw [List.length_set]; omega)
      refine ⟨array', ?_, ?_⟩
      · rw [writeXPointees, applyEdit, hentry]
        exact hwrite
      · have htake : (items.set index (.ofString string)).take (index + 1) =
            items.take index ++ [.ofString string] := by
          rw [List.take_add_one, List.getElem?_set_self hindex, List.take_set_of_le le_rfl]
          rfl
        rw [htake, List.drop_set_of_lt (by omega), Nat.add_assoc, Nat.add_comm 1] at htracks
        rw [List.map_cons, List.length_cons]
        simpa using htracks

/-- The start of the array is resized and written: the first argument, if there is one, goes. -/
theorem writeStart_tracks {args : List (Item K.host)} {strings : List CStr} {delta : Int}
    (hpos : 0 < delta) (hstrings : strings.length = delta.toNat + 1)
    (h : List.Forall₂ (StandsFor m) array (args ++ [.kept 0 false])) :
    ∃ resized array', resizeArrayOfXPointers ⟨0, none⟩ array 0
        (delta + if array.length = 1 then 1 else 0) = .ok resized ∧
      writeXPointees K T m resized 0 strings = .ok array' ∧
      List.Forall₂ (StandsFor m) array'
        (strings.map Item.ofString ++ args.drop 1 ++ [.kept 0 false]) := by
  have hlength := h.length_eq
  rw [List.length_append, List.length_singleton] at hlength
  generalize hcount : delta + (if array.length = 1 then (1 : Int) else 0) = count
  have hcountPos : 0 < count := by
    rw [← hcount]
    split <;> omega
  have hresize : resizeArrayOfXPointers ⟨0, none⟩ array 0 count =
      .ok (List.replicate count.toNat ⟨0, none⟩ ++ array) := by
    unfold resizeArrayOfXPointers
    rw [if_neg (by omega), if_neg (by omega), if_pos hcountPos, List.take_zero, List.nil_append,
      List.drop_zero]
  have hresized : List.Forall₂ (StandsFor m)
      (List.replicate count.toNat (⟨0, none⟩ : XPointer K.host) ++ array)
      (List.replicate count.toNat (.kept 0 false) ++ (args ++ [.kept 0 false])) := by
    apply List.rel_append _ h
    generalize count.toNat = n
    induction n with
    | zero => exact .nil
    | succ n ih => exact .cons ⟨rfl, .inl ⟨rfl, rfl⟩⟩ ih
  have hcases : (args = [] ∧ strings.length = count.toNat) ∨
      (args ≠ [] ∧ strings.length = count.toNat + 1) := by
    cases args with
    | nil =>
        rw [if_pos (show array.length = 1 from hlength)] at hcount
        exact .inl ⟨rfl, by omega⟩
    | cons arg args =>
        rw [List.length_cons] at hlength
        rw [if_neg (by omega)] at hcount
        exact .inr ⟨List.cons_ne_nil _ _, by omega⟩
  have hroom : 0 + strings.length ≤
      (List.replicate count.toNat (⟨0, none⟩ : XPointer K.host) ++ array).length := by
    rw [List.length_append, List.length_replicate, hlength]
    obtain ⟨-, hsize⟩ | ⟨-, hsize⟩ := hcases <;> omega
  obtain ⟨array', hwrite, htracks⟩ := @writeXPointees_tracks K T m _ _ 0 strings hresized hroom
  refine ⟨_, array', hresize, hwrite, ?_⟩
  rw [List.take_zero, List.nil_append, Nat.zero_add] at htracks
  obtain ⟨rfl, hsize⟩ | ⟨hne, hsize⟩ := hcases
  · rw [hsize, List.drop_left' (List.length_replicate ..)] at htracks
    simpa using htracks
  · obtain ⟨arg, args, rfl⟩ := List.exists_cons_of_ne_nil hne
    rw [hsize, ← List.drop_drop, List.drop_left' (List.length_replicate ..)] at htracks
    simpa using htracks

/-- A script rewrites `argv[]` as the kernel does. -/
theorem writeScriptArgv_tracks {args : List (Item K.host)} (step : ScriptStep)
    (h : List.Forall₂ (StandsFor m) array (args ++ [.kept 0 false])) :
    ∃ array', writeScriptArgv K T m array step.interpreter step.argument step.path = .ok array' ∧
      List.Forall₂ (StandsFor m) array' (kernelArgv args step ++ [.kept 0 false]) := by
  unfold writeScriptArgv kernelArgv
  by_cases hargument : step.argument ≠ []
  · obtain ⟨resized, array', hresize, hwrite, htracks⟩ :=
      @writeStart_tracks K T m array args [step.interpreter, step.argument, step.path] 2
        (by decide) rfl h
    refine ⟨array', ?_, ?_⟩
    · rw [if_pos hargument, hresize]
      exact hwrite
    · rw [if_pos hargument]
      exact htracks
  · obtain ⟨resized, array', hresize, hwrite, htracks⟩ :=
      @writeStart_tracks K T m array args [step.interpreter, step.path] 1 (by decide) rfl h
    refine ⟨array', ?_, ?_⟩
    · rw [if_neg hargument, hresize]
      exact hwrite
    · rw [if_neg hargument]
      exact htracks

/-! ## The rounds -/

variable {room : Nat} {s : XState K.host}

theorem Scripts.translates {path last : CStr} {steps : List ScriptStep}
    (h : Scripts K path steps last)
    (hlast : ∃ hostPath, K.translateAndCheckExec last = .ok hostPath) :
    ∃ hostPath, K.translateAndCheckExec path = .ok hostPath := by
  cases h with
  | nil => exact hlast
  | cons hscript hrest =>
      obtain ⟨hostPath, -, htranslate, -⟩ := hscript
      exact ⟨hostPath, htranslate⟩

/-- The pointers that a round works on: those of the rounds before, or what is fetched. -/
def ArgvIs (T : XTracee K.host) (room : Nat) (s : XState K.host)
    (argv : Option (List (XPointer K.host))) (array : List (XPointer K.host)) : Prop :=
  argv = some array ∨ (argv = none ∧ fetchArrayOfXPointers T room s = .ok array)

/-- A round for a script. -/
theorem expandRoundsIn_script (halloc : ∀ allocation, K.allocates allocation = true)
    {step : ScriptStep} (hscript : IsScript K step)
    (hinterpreter : ∃ hostPath, K.translateAndCheckExec step.interpreter = .ok hostPath)
    {argv : Option (List (XPointer K.host))} {args : List (Item K.host)}
    (hargv : ArgvIs T room s argv array)
    (htracks : List.Forall₂ (StandsFor s.space) array (args ++ [.kept 0 false])) :
    ∃ array', List.Forall₂ (StandsFor s.space) array' (kernelArgv args step ++ [.kept 0 false]) ∧
      ∀ left, expandRoundsIn K T room s step.path argv (left + 1) =
        expandRoundsIn K T room s step.interpreter (some array') left := by
  obtain ⟨hostPath, file, htranslate, hopen, hextract⟩ := hscript
  obtain ⟨interpreterPath, hinterpreter⟩ := hinterpreter
  obtain ⟨array', hwrite, htracks'⟩ := writeScriptArgv_tracks (T := T) step htracks
  refine ⟨array', htracks', fun left => ?_⟩
  rw [expandRoundsIn, htranslate]
  simp only [Except.mapError, bind, Except.bind, halloc, Bool.not_true, Bool.false_eq_true,
    if_false, hopen, hextract, hinterpreter]
  obtain rfl | ⟨rfl, hfetch⟩ := hargv
  · simp only [hwrite]
  · simp only [hfetch, hwrite]

/-- **The rounds for a chain**: one for each script, if there are as many. -/
theorem expandRoundsIn_chain (halloc : ∀ allocation, K.allocates allocation = true)
    {path last : CStr} {steps : List ScriptStep} (hchain : Scripts K path steps last)
    (hlast : ∃ hostPath, K.translateAndCheckExec last = .ok hostPath)
    {argv : Option (List (XPointer K.host))} {args : List (Item K.host)}
    (hargv : ArgvIs T room s argv array)
    (htracks : List.Forall₂ (StandsFor s.space) array (args ++ [.kept 0 false])) (left : Nat) :
    (left ≤ steps.length → expandRoundsIn K T room s path argv left = .error (.errno .ELOOP)) ∧
      ∃ argv' array', ArgvIs T room s argv' array' ∧
        (argv' = none ↔ argv = none ∧ steps = []) ∧
        List.Forall₂ (StandsFor s.space) array' (steps.foldl kernelArgv args ++ [.kept 0 false]) ∧
        expandRoundsIn K T room s path argv (left + steps.length) =
          expandRoundsIn K T room s last argv' left := by
  induction hchain generalizing argv array args left with
  | nil path =>
      refine ⟨fun hleft => ?_, argv, array, hargv, by simp, htracks, rfl⟩
      obtain rfl : left = 0 := Nat.le_zero.mp hleft
      rfl
  | @cons step steps last hscript hrest ih =>
      obtain ⟨array₁, htracks₁, hround⟩ :=
        expandRoundsIn_script halloc hscript (hrest.translates hlast) hargv htracks
      have hrounds := fun left => ih hlast (.inl rfl) htracks₁ left
      constructor
      · intro hleft
        cases left with
        | zero => rfl
        | succ left =>
            rw [hround]
            exact (hrounds left).1 (Nat.le_of_succ_le_succ hleft)
      · obtain ⟨-, argv', array', hargv', hnone, htracks', hsame⟩ := hrounds left
        refine ⟨argv', array', hargv', ?_, htracks', ?_⟩
        · rw [hnone]
          simp
        · rw [List.length_cons, ← Nat.add_assoc, hround]
          exact hsame

/-- The round for a program. -/
theorem expandRoundsIn_program (halloc : ∀ allocation, K.allocates allocation = true)
    {path hostPath : CStr} (hprogram : IsProgram K path hostPath)
    (argv : Option (List (XPointer K.host))) (left : Nat) :
    expandRoundsIn K T room s path argv (left + 1) = .ok (hostPath, path, argv) := by
  obtain ⟨htranslate, file, hopen, hextract⟩ := hprogram
  rw [expandRoundsIn, htranslate]
  simp only [Except.mapError, bind, Except.bind, halloc, Bool.not_true, Bool.false_eq_true,
    if_false, hopen, hextract]

/-! ## The arguments of a chain -/

section

variable {args : List (Item K.host)} {steps : List ScriptStep}

/-- Arguments are strings of the chain, or are from before. -/
theorem mem_kernelArgvs {item : Item K.host} (h : item ∈ steps.foldl kernelArgv args) :
    (∃ string, item = .ofString string) ∨ item ∈ args := by
  induction steps generalizing args with
  | nil => exact .inr h
  | cons step steps ih =>
      rw [List.foldl_cons] at h
      rcases ih h with hstring | hmem
      · exact .inl hstring
      · unfold kernelArgv at hmem
        rw [List.mem_append, List.mem_append, List.mem_singleton, List.mem_cons] at hmem
        obtain (rfl | hargument) | rfl | hdrop := hmem
        · exact .inl ⟨_, rfl⟩
        · split at hargument
          · exact .inl ⟨_, List.mem_singleton.mp hargument⟩
          · cases hargument
        · exact .inl ⟨_, rfl⟩
        · exact .inr (List.mem_of_mem_drop hdrop)

/-- The first argument of a chain is an interpreter. -/
theorem kernelArgvs_head (hne : steps ≠ []) :
    ∃ string rest, steps.foldl kernelArgv args = .ofString string :: rest := by
  obtain ⟨front, step, rfl⟩ := (List.eq_nil_or_concat' steps).resolve_left hne
  rw [List.foldl_append]
  exact ⟨step.interpreter, _, rfl⟩

/-- Nothing of a list is read: its size is that of its array. -/
theorem blockSize_eq {items : List (Item K.host)} (h : List.Forall₂ (StandsFor m) array items)
    (hunread : ∀ item ∈ items, ∀ remote, item ≠ .kept remote true) :
    blockSize T array = itemsSize T items := by
  unfold blockSize itemsSize
  rw [h.length_eq]
  congr 2
  induction h with
  | nil => rfl
  | @cons entry item array items hhead htail ih =>
      rw [List.forall_mem_cons] at hunread
      have ih := ih hunread.2
      unfold modifiedPointees at ih ⊢
      rw [List.filterMap_cons, List.flatMap_cons, ← ih]
      cases item with
      | kept remote wasRead =>
          obtain ⟨rfl, ⟨-, hnone⟩ | ⟨rfl, -⟩⟩ := hhead
          · rw [hnone]
            rfl
          · exact absurd rfl (hunread.1 _)
      | written string =>
          rw [hhead.1]
          rfl

end

/-- **A terminated list is pushed** where there is room for it, and is what is fetched then. -/
theorem push_terminated {items : List (Item K.host)}
    (htag : untagPointer K.host (T.peekReg s.stackPointer) = T.peekReg s.stackPointer)
    (htracks : List.Forall₂ (StandsFor s.space) array (items ++ [.kept 0 false]))
    (hnonnull : ∀ item ∈ items, item.isNull = false)
    (hunread : ∀ item ∈ items, ∀ remote, item ≠ .kept remote true)
    (hfits : ∀ remote, .kept remote false ∈ items → remote.toNat < 256 ^ T.sizeofWord)
    (hlocal : ∃ item ∈ items, item.isLocal = true)
    (hroom : StackHasRoom T s (itemsSize T (items ++ [.kept 0 false]))) :
    ∃ s', pushArrayOfXPointers T s array = (s', .ok ()) ∧
      ∃ room' array', fetchArrayOfXPointers T room' s' = .ok array' ∧
        List.Forall₂ (IsItem s.space s'.space) array' (items ++ [.kept 0 false]) := by
  have hunread' : ∀ item ∈ items ++ [.kept 0 false], ∀ remote, item ≠ .kept remote true := by
    intro item hmem remote
    rw [List.mem_append, List.mem_singleton] at hmem
    obtain hmem | rfl := hmem
    · exact hunread item hmem remote
    · intro heq
      cases heq
  have hsome : modifiedPointees array ≠ [] := by
    obtain ⟨item, hmem, hlocal⟩ := hlocal
    rw [Ne, modifiedPointees_eq_nil htracks]
    intro hall
    rw [hall item (List.mem_append_left _ hmem)] at hlocal
    cases hlocal
  have hcount : (modifiedPointees array).length < array.length := by
    by_contra hfull
    cases modifiedPointees_full htracks (by omega) (.kept 0 false) (by simp)
  have hpointers : ∀ entry ∈ array, entry.localCopy = none →
      entry.remote.toNat < 256 ^ T.sizeofWord := by
    intro entry hentry hcopy
    obtain ⟨i, hi⟩ := List.mem_iff_getElem?.mp hentry
    obtain ⟨item, hitem, htrack⟩ := forall₂_getElem? htracks hi
    have hmem := List.mem_of_getElem? hitem
    cases item with
    | written string =>
        rw [htrack.1] at hcopy
        cases hcopy
    | kept remote wasRead =>
        obtain rfl : wasRead = false := Bool.eq_false_iff.mpr fun hread =>
          hunread' _ hmem remote (by rw [hread])
        obtain ⟨rfl, -⟩ := htrack
        rw [List.mem_append, List.mem_singleton] at hmem
        obtain hmem | hlast := hmem
        · exact hfits _ hmem
        · rw [(Item.kept.inj hlast).1, show (0 : Address K.host).toNat = 0 from BitVec.toNat_zero]
          exact Nat.pow_pos (by decide)
  rw [← blockSize_eq htracks hunread'] at hroom
  obtain ⟨s', hpush⟩ := push_granted htag hsome hcount hroom
  obtain ⟨ptr, hpushed⟩ := push_pushed htag hsome hpointers hpush
  have hne : array ≠ [] := by
    rintro rfl
    exact hsome rfl
  refine ⟨s', hpush, (hpushed.fetched_iff hne htracks).mpr ⟨?_, ?_⟩⟩
  · exact ⟨items, .kept 0 false, rfl, by simp [Item.isNull], hnonnull⟩
  · obtain ⟨ptr', halloc, hmapped⟩ := hroom
    obtain rfl := Option.some.inj (hpushed.alloc.symm.trans halloc)
    refine .inr (.inr (load_isSome_of_le hmapped ?_))
    have := Nat.mul_le_mul_right T.sizeofWord (Nat.sub_le array.length 1)
    unfold blockSize
    omega

/-- **Nested scripts are expanded as the kernel does**: once for each script of the chain. -/
theorem expand_shebang_chain (halloc : ∀ allocation, K.allocates allocation = true)
    {path last : CStr} {steps : List ScriptStep} {argv : List (XPointer K.host)}
    (hchain : Scripts K path steps last)
    (hlast : ∃ hostPath, K.translateAndCheckExec last = .ok hostPath)
    (hfetch : fetchArrayOfXPointers T room s = .ok argv)
    (htag : untagPointer K.host (T.peekReg s.stackPointer) = T.peekReg s.stackPointer)
    (hroom : StackHasRoom T s (itemsSize T
      (steps.foldl kernelArgv (fetchedItems argv).dropLast ++ [.kept 0 false]))) :
    (∀ hostPath, IsProgram K last hostPath → steps.length < K.maxSymlinks → ∃ s',
      expandShebangIn K T room s path = (s', .ok (hostPath, last, decide (steps ≠ []))) ∧
        (∃ room' argv', fetchArrayOfXPointers T room' s' = .ok argv' ∧
          List.Forall₂ (IsItem s.space s'.space) argv'
            (steps.foldl kernelArgv (fetchedItems argv).dropLast ++ [.kept 0 false])) ∧
        (steps = [] → s' = s)) ∧
    (K.maxSymlinks ≤ steps.length →
      expandShebangIn K T room s path = (s, .error (.errno .ELOOP))) := by
  obtain ⟨front, hfront, rfl, hpeeked⟩ := fetchXPointers_inv hfetch
  have hstart : fetchedItems ((front ++ [0]).map XPointer.fetched) =
      front.map (fun value => Item.kept value false) ++ [.kept 0 false] := by
    rw [fetchedItems, List.map_append, List.map_append, List.map_map]
    rfl
  have htracks := @fetched_tracks _ (front ++ [0]) s.space
  have hunchanged := @isItem_fetched _ s.space s.space ((front ++ [0]).map XPointer.fetched)
    ((front ++ [0]).map XPointer.fetched)
  rw [hstart] at htracks
  rw [hstart, List.dropLast_concat] at hroom ⊢
  have hrounds := expandRoundsIn_chain (T := T) halloc hchain hlast (.inr ⟨rfl, hfetch⟩) htracks
  constructor
  · intro hostPath hprogram hshort
    obtain ⟨-, argv', array, hargv', hnone, htracks', hsame⟩ :=
      hrounds (K.maxSymlinks - steps.length - 1 + 1)
    rw [show K.maxSymlinks - steps.length - 1 + 1 + steps.length = K.maxSymlinks by omega,
      expandRoundsIn_program halloc hprogram] at hsame
    unfold expandShebangIn
    rw [hsame]
    by_cases hnil : steps = []
    · subst hnil
      obtain rfl := hnone.mpr ⟨rfl, rfl⟩
      refine ⟨s, rfl, ⟨room, _, hfetch, ?_⟩, fun _ => rfl⟩
      rw [List.foldl_nil, ← hstart]
      exact hunchanged.mpr rfl
    · obtain rfl | ⟨rfl, -⟩ := hargv'
      case inr => exact absurd (hnone.mp rfl).2 hnil
      -- The arguments are strings of the chain, and pointers that were fetched.
      have hitems : ∀ item ∈ steps.foldl kernelArgv (front.map fun value => .kept value false),
          (∃ string, item = .ofString string) ∨ ∃ value ∈ front, item = .kept value false := by
        intro item hmem
        rcases mem_kernelArgvs hmem with hstring | hmem
        · exact .inl hstring
        · obtain ⟨value, hvalue, rfl⟩ := List.mem_map.mp hmem
          exact .inr ⟨value, hvalue, rfl⟩
      have hpush := push_terminated htag htracks' ?_ ?_ ?_ ?_ hroom
      · obtain ⟨s', hpush, hfetched⟩ := hpush
        dsimp only
        rw [hpush]
        exact ⟨s', by simp [hnil], hfetched, fun h => absurd h hnil⟩
      · intro item hmem
        obtain ⟨string, rfl⟩ | ⟨value, hvalue, rfl⟩ := hitems item hmem
        · rfl
        · exact decide_eq_false (hfront value hvalue)
      · intro item hmem remote heq
        subst heq
        obtain ⟨string, heq⟩ | ⟨value, -, heq⟩ := hitems _ hmem <;> cases heq
      · intro remote hmem
        obtain ⟨string, heq⟩ | ⟨value, hvalue, heq⟩ := hitems _ hmem
        · cases heq
        · obtain rfl := (Item.kept.inj heq).1
          obtain ⟨j, hj⟩ := List.mem_iff_getElem?.mp (List.mem_append_left [0] hvalue)
          exact peekWord_lt (hpeeked j _ hj)
      · obtain ⟨string, rest, hhead⟩ :=
          @kernelArgvs_head K (front.map fun value => .kept value false) _ hnil
        rw [hhead]
        exact ⟨_, List.mem_cons_self .., rfl⟩
  · intro hlong
    unfold expandShebangIn
    rw [(hrounds K.maxSymlinks).1 hlong]

end

/-- A host where `s` is a script of `i`, and `i` one of `e`. -/
def hostOfScripts : ExecHost where
  host := .ARCH_X86_64
  pageSize := 4096
  binprmBufSize := 128
  maxSymlinks := 20
  forceForeign := false
  useLoaderForQemu := false
  errno := none
  allocates := fun _ => true
  translatePath := fun path => .ok path
  detranslatePath := fun path => some path
  accessF := fun _ => true
  accessX := fun _ => true
  lstat := fun _ => true
  openFile := fun path => .ok ⟨.ok
    (if path = ['s'] then [0x23, 0x21, 0x69, 0x20, 0x2d, 0x78, 0x0a]
    else if path = ['i'] then [0x23, 0x21, 0x65, 0x0a]
    else [0x7f, 0x45, 0x4c, 0x46]), 2 ^ 40⟩
  loaderPath := fun _ => none

/-- The chain of `s`. -/
def stepsOfScripts : List ScriptStep := [⟨['s'], ['i'], ['-', 'x']⟩, ⟨['i'], ['e'], []⟩]

theorem scripts_of_s : Scripts hostOfScripts ['s'] stepsOfScripts ['e'] := by
  refine @Scripts.cons hostOfScripts ⟨['s'], ['i'], ['-', 'x']⟩ _ _ ⟨['s'], _, rfl, rfl, ?_⟩
    (@Scripts.cons hostOfScripts ⟨['i'], ['e'], []⟩ _ _ ⟨['i'], _, rfl, rfl, ?_⟩ (.nil _))
  · decide
  · decide

/-- `["a"]` becomes `["e", "i", "-x", "s"]`. -/
theorem expand_shebang_chain_s : ∃ s',
    @expandShebangIn hostOfScripts oneStringTracee 2 oneString ['s'] =
        (s', .ok (['e'], ['e'], true)) ∧
      ∃ room' argv', @fetchArrayOfXPointers .ARCH_X86_64 oneStringTracee room' s' = .ok argv' ∧
        List.Forall₂ (IsItem oneString.space s'.space) argv'
          [.ofString ['e'], .ofString ['i'], .ofString ['-', 'x'], .ofString ['s'],
            .kept 0 false] := by
  have hroom : StackHasRoom oneStringTracee oneString (itemsSize oneStringTracee
      (stepsOfScripts.foldl kernelArgv [.kept 0x2000 false] ++ [.kept 0 false])) :=
    ⟨0x7f4f, by decide, by decide⟩
  obtain ⟨s', hexpand, hfetched, -⟩ := (@expand_shebang_chain hostOfScripts oneStringTracee 2
    oneString (fun _ => rfl) ['s'] ['e'] stepsOfScripts [⟨0x2000, none⟩, ⟨0, none⟩] scripts_of_s
    ⟨['e'], by decide⟩ (by decide) (by decide) hroom).1 ['e']
    ⟨by decide, ⟨.ok [0x7f, 0x45, 0x4c, 0x46], 2 ^ 40⟩, rfl, by decide⟩
    (by decide)
  exact ⟨s', hexpand, hfetched⟩

end PRoot
