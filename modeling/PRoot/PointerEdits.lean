import Mathlib.Data.List.Forall2
import PRoot.ArrayOfXPointers

/-!
# Edits of pointer arrays

An array of pointers is fetched, edited and pushed.  What is fetched then is the edited list, but
for what the local copies do not tell.

* `Item`, `editItems`: the list that the operations edit;
* `EditsExact`: it is what is fetched after the push;
* `EditsKept`: the list is terminated, and told from the old one by local copies;
* `edits_exact_iff`: the one is the other.
-/

namespace PRoot

/-! ## Lists side by side -/

section

variable {α β : Type} {R : α → β → Prop} {xs : List α} {ys : List β}

theorem forall₂_getElem? (h : List.Forall₂ R xs ys) {i : Nat} {x : α} (hx : xs[i]? = some x) :
    ∃ y, ys[i]? = some y ∧ R x y := by
  obtain ⟨hi, rfl⟩ := List.getElem?_eq_some_iff.mp hx
  have hi' : i < ys.length := h.length_eq ▸ hi
  exact ⟨ys[i], List.getElem?_eq_getElem hi', h.get hi hi'⟩

theorem forall₂_of_getElem? (hlength : xs.length = ys.length)
    (h : ∀ (i : Nat) (y : β), ys[i]? = some y → ∃ x, xs[i]? = some x ∧ R x y) :
    List.Forall₂ R xs ys := by
  apply List.forall₂_of_length_eq_of_get hlength
  intro i hi hi'
  obtain ⟨x, hx, hR⟩ := h i _ (List.getElem?_eq_getElem hi')
  rw [List.getElem?_eq_getElem hi] at hx
  obtain rfl := Option.some.inj hx
  exact hR

theorem forall₂_set {x : α} {y : β} (h : List.Forall₂ R xs ys) (hxy : R x y) (i : Nat) :
    List.Forall₂ R (xs.set i x) (ys.set i y) := by
  induction h generalizing i with
  | nil => exact .nil
  | cons hhead htail ih =>
      cases i with
      | zero => exact .cons hxy htail
      | succ i => exact .cons hhead (ih i)

/-- What is last in a list, and only there, is so in the one beside it. -/
theorem forall₂_last {p : α → Prop} {q : β → Prop} (h : List.Forall₂ R xs ys)
    (hR : ∀ x y, R x y → (p x ↔ q y))
    (hlast : ∃ front last, xs = front ++ [last] ∧ p last ∧ ∀ x ∈ front, ¬ p x) :
    ∃ front last, ys = front ++ [last] ∧ q last ∧ ∀ y ∈ front, ¬ q y := by
  obtain ⟨front, last, rfl, hp, hno⟩ := hlast
  have hfront := List.forall₂_take_append ys front [last] h.flip
  have hend := List.forall₂_drop_append ys front [last] h.flip
  obtain ⟨y, ys', hy, hnil, hdrop⟩ := List.forall₂_cons_right_iff.mp hend
  obtain rfl := List.forall₂_nil_right_iff.mp hnil
  refine ⟨ys.take front.length, y, ?_, (hR _ _ hy).mp hp, ?_⟩
  · rw [← hdrop, List.take_append_drop]
  · intro z hz hq
    obtain ⟨i, hi⟩ := List.mem_iff_getElem?.mp hz
    obtain ⟨x, hx, hxz⟩ := forall₂_getElem? hfront hi
    exact hno x (List.mem_of_getElem? hx) ((hR _ _ hxz).mpr hq)

theorem forall₂_resize {x₀ : α} {y₀ : β} {xs' : List α} {index : Nat} {delta : Int}
    (h₀ : R x₀ y₀) (h : List.Forall₂ R xs ys)
    (hresize : resizeArrayOfXPointers x₀ xs index delta = .ok xs') :
    ∃ ys', resizeArrayOfXPointers y₀ ys index delta = .ok ys' ∧ List.Forall₂ R xs' ys' := by
  unfold resizeArrayOfXPointers at hresize ⊢
  rw [h.length_eq] at hresize
  split at hresize
  · cases hresize
  case isFalse hindex =>
  rw [if_neg hindex]
  split at hresize
  case isTrue hzero =>
    rw [if_pos hzero]
    obtain rfl := Except.ok.inj hresize
    exact ⟨ys, rfl, h⟩
  case isFalse hzero =>
  rw [if_neg hzero]
  have htake : ∀ n, List.Forall₂ R (xs.take n) (ys.take n) := fun n => List.forall₂_take n h
  have hdrop : ∀ n, List.Forall₂ R (xs.drop n) (ys.drop n) := fun n => List.forall₂_drop n h
  split at hresize
  case isTrue hpos =>
    rw [if_pos hpos]
    obtain rfl := Except.ok.inj hresize
    refine ⟨_, rfl, List.rel_append (List.rel_append (htake index) ?_) (hdrop index)⟩
    generalize delta.toNat = count
    induction count with
    | zero => exact .nil
    | succ count ih => exact .cons h₀ ih
  case isFalse hneg =>
  rw [if_neg hneg]
  split at hresize
  · cases hresize
  case isFalse hroom =>
    rw [if_neg hroom]
    obtain rfl := Except.ok.inj hresize
    exact ⟨_, rfl, List.rel_append (htake _) (hdrop index)⟩

end

section

variable {host : Host}

/-! ## Strings -/

variable {a : Address host}

/-- What is read in chunks is a string, -/
theorem readChunks_string {chunk : Nat} {m : Space host} {rounds left : Nat} {bytes : Bytes}
    (h : readChunks chunk m rounds a left = some bytes) : StringAt m a bytes := by
  induction rounds generalizing a left bytes with
  | zero => cases h
  | succ rounds ih =>
      unfold readChunks at h
      dsimp only at h
      generalize (if chunk - a.toNat % chunk < left then chunk - a.toNat % chunk
        else left) = size at h
      cases hread : processVmReadv m a size with
      | none =>
          rw [hread] at h
          cases h
      | some first =>
          rw [hread] at h
          dsimp only at h
          have hload : m.load a size = some first := by
            unfold processVmReadv at hread
            split at hread
            · exact hread
            · cases hread
          by_cases hnul : 0 ∈ first
          · rw [if_pos hnul] at h
            obtain rfl := Option.some.inj h
            exact stringAt_throughNul hload hnul
          · rw [if_neg hnul] at h
            split at h
            · obtain ⟨rest, hrest, rfl⟩ := Option.map_eq_some_iff.mp h
              exact .append hload hnul (ih hrest)
            · cases h

/-- and so is what is read word by word. -/
theorem peekStringWords_inv {m : Space host} {i : Nat} {bytes : Bytes} {ended : Bool}
    (h : peekStringWords m a i = .ok (bytes, ended)) :
    if ended then StringAt m a bytes else m.load a (i * host.word) = some bytes ∧ 0 ∉ bytes := by
  induction i generalizing a bytes ended with
  | zero =>
      cases h
      exact ⟨by rw [Nat.zero_mul]; rfl, List.not_mem_nil⟩
  | succ i ih =>
      unfold peekStringWords at h
      cases hpeek : peekData m a with
      | none =>
          rw [hpeek] at h
          cases h
      | some word =>
          rw [hpeek] at h
          dsimp only at h
          by_cases hnul : 0 ∈ word
          · rw [if_pos hnul] at h
            cases h
            exact stringAt_throughNul hpeek hnul
          · rw [if_neg hnul] at h
            cases hrest : peekStringWords m (a.plus host.word) i with
            | error status =>
                rw [hrest] at h
                cases h
            | ok rest =>
                obtain ⟨rest, ended'⟩ := rest
                rw [hrest] at h
                cases h
                have hrest := ih hrest
                cases ended with
                | true => exact .append hpeek hnul hrest
                | false =>
                    obtain ⟨hload, hno⟩ := hrest
                    refine ⟨?_, ?_⟩
                    · have hboth := AddressSpace.load_append hpeek hload
                      rwa [Nat.add_comm, ← Nat.succ_mul i] at hboth
                    · rw [List.mem_append]
                      exact fun hmem => hmem.elim hnul hno

/-- A length below the limit is that of a string. -/
theorem readString_string {processVm : Bool} {pageSize maxSize : Nat} {m : Space host} {n : Int}
    {bytes : Bytes} (hmax : asInt (maxSize + 1) = (maxSize + 1 : Nat))
    (h : readString processVm pageSize m a maxSize = .ok (n, bytes)) (hn : n < maxSize) :
    StringAt m (untagPointer host a) bytes := by
  unfold readString at h
  dsimp only at h
  split at h
  case h_1 string hread =>
    obtain ⟨-, rfl⟩ := Prod.mk.inj (Except.ok.inj h)
    split at hread
    · exact readChunks_string hread
    · cases hread
  case h_2 =>
    unfold peekString at h
    dsimp only at h
    rw [fullWords] at h
    cases hwords : peekStringWords m (untagPointer host a) (maxSize / host.word) with
    | error status =>
        rw [hwords] at h
        cases h
    | ok words =>
        obtain ⟨words, ended⟩ := words
        have hinv := peekStringWords_inv hwords
        rw [hwords] at h
        cases ended with
        | true =>
            obtain ⟨-, rfl⟩ := Prod.mk.inj (Except.ok.inj h)
            exact hinv
        | false =>
            obtain ⟨hload, hno⟩ := hinv
            dsimp only at h
            split at h
            · cases h
            case h_2 word hword =>
              split at h
              case isTrue hnul =>
                obtain ⟨-, rfl⟩ := Prod.mk.inj (Except.ok.inj h)
                apply StringAt.append hload hno
                exact stringAt_throughNul
                  (AddressSpace.load_take hword (Nat.mod_lt _ (word_pos host)).le) hnul
              case isFalse =>
                obtain ⟨rfl, -⟩ := Prod.mk.inj (Except.ok.inj h)
                rw [← split_words host maxSize] at hn
                rw [hmax] at hn
                omega

/-- What is known of an entry that was read. -/
theorem readXPointee_inv {T : XTracee host} {m : Space host} {entry entry' : XPointer host}
    (h : readXPointee T m entry = .ok entry') :
    (entry' = entry ∧ (entry.localCopy.isSome ∨ entry.remote = 0)) ∨
      (entry.remote ≠ 0 ∧ ∃ string, entry' = { entry with localCopy := some string } ∧
        StringAt m (untagPointer host entry.remote) string) := by
  unfold readXPointee at h
  split at h
  case isTrue hsome => exact .inl ⟨(Except.ok.inj h).symm, .inl hsome⟩
  split at h
  case isTrue hzero => exact .inl ⟨(Except.ok.inj h).symm, .inr hzero⟩
  case isFalse hne =>
    split at h
    · cases h
    case h_2 status tmp hread =>
      split at h
      · cases h
      case isFalse hsize =>
        have hlimit := T.argMax_lt
        have hstring := readString_string ((asInt_eq_iff _).mpr (by omega)) hread (by omega)
        cases h
        rw [hstring.1.throughNul_self]
        exact .inr ⟨hne, tmp, rfl, hstring⟩

/-! ## Writes -/

variable {m' : Space host}

theorem load_isSome_congr {m : Space host} (h : ∀ x, (m' x).isSome = (m x).isSome)
    (a : Address host) (k : Nat) : (m'.load a k).isSome = (m.load a k).isSome := by
  rw [Bool.eq_iff_iff, AddressSpace.load_isSome_iff, AddressSpace.load_isSome_iff]
  simp only [h]

/-- Words are written where there is room for them. -/
theorem pokeWords_room {m : Space host} {src : Bytes} {i : Nat}
    (hlength : i * host.word ≤ src.length) (h : pokeWords m a src i = (m', true)) :
    (m.load a (i * host.word)).isSome ∧ ∀ x, (m' x).isSome = (m x).isSome := by
  induction i generalizing m a src with
  | zero =>
      cases h
      refine ⟨?_, fun x => rfl⟩
      rw [AddressSpace.load_isSome_iff]
      intro i hi
      rw [Nat.zero_mul] at hi
      exact absurd hi (Nat.not_lt_zero i)
  | succ i ih =>
      rw [Nat.succ_mul] at hlength
      unfold pokeWords at h
      cases hpoke : pokeData m a (src.take host.word) with
      | none =>
          rw [hpoke] at h
          cases h
      | some middle =>
          rw [hpoke] at h
          have hword : (src.take host.word).length = host.word := by
            rw [List.length_take]
            omega
          have hmapped := AddressSpace.store_mapped hpoke
          have hfirst : (m.load a host.word).isSome := by
            have hroom := AddressSpace.store_isSome_iff.mp (show (m.store a _).isSome by
              rw [show m.store a (src.take host.word) = some middle from hpoke]; rfl)
            rwa [hword] at hroom
          obtain ⟨hrest, hsame⟩ := ih (by rw [List.length_drop]; omega) h
          rw [load_isSome_congr hmapped] at hrest
          obtain ⟨first, hfirst⟩ := Option.isSome_iff_exists.mp hfirst
          obtain ⟨rest, hrest⟩ := Option.isSome_iff_exists.mp hrest
          refine ⟨?_, fun x => (hsame x).trans (hmapped x)⟩
          have hboth := AddressSpace.load_append hfirst hrest
          rw [Nat.add_comm, ← Nat.succ_mul i] at hboth
          rw [hboth]
          rfl

/-- What was written word by word is all there. -/
theorem pokeBytes_store {m : Space host} {src : Bytes} (hspace : src.length ≤ 2 ^ (8 * host.word))
    (h : pokeBytes m a src = (m', .ok ())) :
    m.store a src = some m' := by
  have hsplit := split_words host src.length
  have hstored : ∃ m'', m.store a src = some m'' ∧ (src.length % host.word ≠ 0 →
      (peekData m (a.plus (src.length / host.word * host.word))).isSome) := by
    have h' := h
    unfold pokeBytes at h'
    dsimp only at h'
    rw [fullWords] at h'
    cases hwords : pokeWords m a src (src.length / host.word) with
    | mk middle done =>
        rw [hwords] at h'
        cases done with
        | false => cases h'
        | true =>
            obtain ⟨hfull, hmapped⟩ := pokeWords_room (by omega) hwords
            obtain ⟨full, hfull⟩ := Option.isSome_iff_exists.mp hfull
            dsimp only at h'
            rw [Bool.not_true, if_neg Bool.false_ne_true] at h'
            split at h'
            case isTrue hzero =>
              have hall : (m.store a src).isSome := by
                rw [AddressSpace.store_isSome_iff, hsplit, hzero, Nat.add_zero, hfull]
                rfl
              obtain ⟨m'', hm''⟩ := Option.isSome_iff_exists.mp hall
              exact ⟨m'', hm'', fun hne => absurd hzero hne⟩
            case isFalse hne =>
              split at h'
              · cases h'
              case h_2 word hpeek =>
                have hlast : (peekData m (a.plus (src.length / host.word * host.word))).isSome := by
                  have hpeek' : (middle.load (a.plus (src.length / host.word * host.word))
                      host.word).isSome := by
                    rw [show middle.load _ _ = some word from hpeek]
                    rfl
                  rwa [load_isSome_congr hmapped] at hpeek'
                obtain ⟨last, hload⟩ := Option.isSome_iff_exists.mp hlast
                have htake := AddressSpace.load_take hload
                  (Nat.mod_lt src.length (word_pos host)).le
                have hboth := AddressSpace.load_append hfull htake
                have hall : (m.store a src).isSome := by
                  rw [AddressSpace.store_isSome_iff, hsplit, hboth]
                  rfl
                obtain ⟨m'', hm''⟩ := Option.isSome_iff_exists.mp hall
                exact ⟨m'', hm'', fun _ => hlast⟩
  obtain ⟨m'', hstore, hlast⟩ := hstored
  rw [pokeBytes_eq hspace hstore hlast] at h
  rw [hstore]
  exact congrArg some (Prod.mk.inj h).1

theorem writeData_store {processVm : Bool} {m : Space host} {src : Bytes}
    (hspace : src.length ≤ 2 ^ (8 * host.word))
    (h : MemoryAccess.writeData processVm m a src = (m', .ok ())) :
    m.store (untagPointer host a) src = some m' := by
  unfold MemoryAccess.writeData at h
  dsimp only at h
  split at h
  case h_1 stored hwrite =>
    cases h
    split at hwrite
    · unfold processVmWritev at hwrite
      split at hwrite
      · exact hwrite
      · cases hwrite
    · cases hwrite
  case h_2 => exact pokeBytes_store hspace h

/-- **What is written is read back**, by either way, and nothing else is written.  But `ptrace`
reads it only if the last word does not stick out of what is mapped. -/
theorem written_read {m : Space host} {src : Bytes} (writes reads : Bool)
    (hspace : src.length ≤ 2 ^ (8 * host.word))
    (h : MemoryAccess.writeData writes m a src = (m', .ok ())) :
    (MemoryAccess.readData reads m' a src.length = (src, .ok ()) ↔
      reads = true ∧ src.length ≤ 0x7ffff000 ∨ (src.length % host.word ≠ 0 →
        (peekData m ((untagPointer host a).plus
          (src.length / host.word * host.word))).isSome)) ∧
      ∀ x, (∀ i < src.length, x ≠ (untagPointer host a).plus i) → m' x = m x := by
  have hstore := writeData_store hspace h
  have hload := AddressSpace.load_store hstore hspace
  refine ⟨?_, fun x => AddressSpace.store_frame hstore⟩
  by_cases hdirect : reads = true ∧ src.length ≤ 0x7ffff000
  · have hread : processVmReadv m' (untagPointer host a) src.length = some src := by
      rw [processVmReadv, if_pos hdirect.2, hload]
    simp [MemoryAccess.readData, hdirect, hread]
  have hread : MemoryAccess.readData reads m' a src.length
      = peekBytes m' (untagPointer host a) src.length := by
    have hno : (if reads then processVmReadv m' (untagPointer host a) src.length else none)
        = none := by
      cases reads
      · rfl
      · exact if_neg fun hle => hdirect ⟨rfl, hle⟩
    simp only [MemoryAccess.readData, hno]
  rw [hread, or_iff_right hdirect, peekData,
    ← load_isSome_congr (AddressSpace.store_mapped hstore)]
  refine ⟨fun hbytes hne => ?_, peekBytes_eq hload⟩
  by_contra hnot
  have hword : peekData m' _ = none := Option.not_isSome_iff_eq_none.mp hnot
  have hfull := AddressSpace.load_take hload
    (show src.length / host.word * host.word ≤ src.length from Nat.div_mul_le_self ..)
  simp [peekBytes, fullWords, peekWords_eq hfull, hne, hword] at hbytes

/-- The last byte of a page is not read back by `ptrace`. -/
theorem written_read_onePage :
    MemoryAccess.readData false (MemoryAccess.writeData true onePage.space 0x1fff [0x42]).1
      (0x1fff : BitVec 64) 1 ≠ ([0x42], .ok ()) := by
  intro h
  have hwrite : MemoryAccess.writeData true onePage.space (0x1fff : BitVec 64) [0x42] =
    (_, .ok ()) := rfl
  exact absurd ((written_read true false (by decide) hwrite).1.mp h) (by decide)

theorem store_nil (m : Space host) (a : Address host) : m.store a [] = some m := by
  apply AddressSpace.store_eq_some_iff.mpr
  simp

/-- Pieces are written one behind the other, at addresses without a tag. -/
theorem writePieces_store {T : XTracee host} {m : Space host} {dest : Address host}
    {pieces : List Bytes} (hspace : pieces.flatten.length ≤ 2 ^ (8 * host.word))
    (htag : ∀ k ≤ pieces.flatten.length, untagPointer host (dest.plus k) = dest.plus k)
    (h : writePieces T m dest pieces = (m', .ok ())) :
    m.store dest pieces.flatten = some m' := by
  induction pieces generalizing m dest with
  | nil =>
      cases h
      exact store_nil _ _
  | cons piece pieces ih =>
      rw [List.flatten_cons, List.length_append] at hspace htag
      unfold writePieces at h
      cases hwrite : MemoryAccess.writeData T.processVm m dest piece with
      | mk middle answer =>
          rw [hwrite] at h
          cases answer with
          | error status => cases h
          | ok value =>
              have hfirst := writeData_store (by omega) hwrite
              have hdest := htag 0 (Nat.zero_le _)
              rw [plus_zero] at hdest
              rw [hdest] at hfirst
              have hrest := ih (by omega)
                (fun k hk => by rw [plus_plus]; exact htag (piece.length + k) (by omega)) h
              rw [List.flatten_cons]
              exact AddressSpace.store_append hfirst hrest (by rw [List.length_append]; omega)

theorem writevData_store {T : XTracee host} {m : Space host} {dest : Address host}
    {pieces : List Bytes} (hspace : pieces.flatten.length ≤ 2 ^ (8 * host.word))
    (htag : ∀ k ≤ pieces.flatten.length, untagPointer host (dest.plus k) = dest.plus k)
    (h : writevData T m dest pieces = (m', .ok ())) :
    m.store dest pieces.flatten = some m' := by
  have hdest := htag 0 (Nat.zero_le _)
  rw [plus_zero] at hdest
  unfold writevData at h
  dsimp only at h
  rw [hdest] at h
  split at h
  case h_1 stored hwrite =>
    cases h
    split at hwrite
    · unfold processVmWritev at hwrite
      split at hwrite
      · exact hwrite
      · cases hwrite
    · cases hwrite
  case h_2 => exact writePieces_store hspace htag h

/-! ## Rows of pointers -/

variable {values : List (Address host)} {s : XState host} {ptr value : Address host}

section

variable {T : XTracee host}

/-- A row of words that can be peeked. -/
def RowAt (T : XTracee host) (m : Space host) (address : Address host)
    (values : List (Address host)) : Prop :=
  ∀ i value, values[i]? = some value →
    peekWord T m (address.plus (i * T.sizeofWord)) = .ok value

/-- An entry as it is fetched. -/
def XPointer.fetched (value : Address host) : XPointer host := ⟨value, none⟩

variable {address : Address host}

/-- What is fetched is a row that ends with the null pointer, which it has only there. -/
theorem fetchXPointers_inv {m : Space host} {room i : Nat} {array : List (XPointer host)}
    (h : fetchXPointers T m address room i = .ok array) :
    ∃ front : List (Address host), (∀ value ∈ front, value ≠ 0) ∧
      array = (front ++ [0]).map XPointer.fetched ∧
      ∀ j value, (front ++ [0])[j]? = some value →
        peekWord T m (address.plus ((i + j) * T.sizeofWord)) = .ok value := by
  induction room generalizing i array with
  | zero => cases h
  | succ room ih =>
      unfold fetchXPointers at h
      cases hpeek : peekWord T m (address.plus (i * T.sizeofWord)) with
      | error status =>
          rw [hpeek] at h
          cases h
      | ok pointer =>
          rw [hpeek] at h
          dsimp only at h
          split at h
          case isTrue hzero =>
            subst hzero
            refine ⟨[], fun value hmem => (List.not_mem_nil hmem).elim, (Except.ok.inj h).symm, ?_⟩
            intro j value hvalue
            cases j with
            | zero =>
                obtain rfl := Option.some.inj hvalue
                exact hpeek
            | succ j => cases hvalue
          case isFalse hne =>
            cases hrest : fetchXPointers T m address room (i + 1) with
            | error status =>
                rw [hrest] at h
                cases h
            | ok rest =>
                rw [hrest] at h
                obtain ⟨front, hfront, rfl, hrow⟩ := ih hrest
                refine ⟨pointer :: front, ?_, (Except.ok.inj h).symm, ?_⟩
                · intro value hmem
                  rcases List.mem_cons.mp hmem with rfl | hmem
                  · exact hne
                  · exact hfront value hmem
                · intro j value hvalue
                  cases j with
                  | zero =>
                      obtain rfl := Option.some.inj hvalue
                      exact hpeek
                  | succ j =>
                      rw [show i + (j + 1) = i + 1 + j by omega]
                      exact hrow j value hvalue

/-- Such a row is fetched. -/
theorem fetchXPointers_row {m : Space host} {front : List (Address host)} {i : Nat}
    (hfront : ∀ value ∈ front, value ≠ 0) (hrow : ∀ j value, (front ++ [0])[j]? = some value →
      peekWord T m (address.plus ((i + j) * T.sizeofWord)) = .ok value) :
    fetchXPointers T m address (front.length + 1) i =
      .ok ((front ++ [0]).map XPointer.fetched) := by
  induction front generalizing i with
  | nil =>
      have hpeek := hrow 0 0 rfl
      rw [Nat.add_zero] at hpeek
      rw [fetchXPointers, hpeek]
      exact if_pos rfl
  | cons pointer front ih =>
      have hpeek := hrow 0 pointer rfl
      rw [Nat.add_zero] at hpeek
      have hrest : fetchXPointers T m address (front.length + 1) (i + 1) =
          .ok ((front ++ [0]).map XPointer.fetched) := by
        apply ih (fun value hmem => hfront value (List.mem_cons_of_mem _ hmem))
        intro j value hvalue
        rw [show i + 1 + j = i + (j + 1) by omega]
        exact hrow (j + 1) value hvalue
      rw [List.length_cons, fetchXPointers, hpeek]
      dsimp only
      rw [if_neg (hfront pointer (List.mem_cons_self ..)), hrest]
      rfl

/-- Rows of as many words from the same address are the same. -/
theorem row_unique {m : Space host} {values' : List (Address host)} (h : RowAt T m address values)
    (h' : RowAt T m address values') (hlength : values.length = values'.length) :
    values = values' := by
  apply List.ext_getElem?
  intro i
  cases hvalue : values[i]? with
  | none =>
      rw [List.getElem?_eq_none_iff] at hvalue
      rw [eq_comm, List.getElem?_eq_none_iff]
      omega
  | some value =>
      have hlt := (List.getElem?_eq_some_iff.mp hvalue).1
      have hvalue' : values'[i]? = some values'[i] := List.getElem?_eq_getElem (by omega)
      have hsame := (h i value hvalue).symm.trans (h' i _ hvalue')
      rw [hvalue', Except.ok.inj hsame]

/-- **What is fetched of a row**: it, if it ends with the null pointer and has it only there. -/
theorem fetch_row_iff (hrow : RowAt T s.space (T.peekReg s.reg) values) (hne : values ≠ []) :
    (∃ room array, fetchArrayOfXPointers T room s = .ok array ∧ array.length = values.length) ↔
      ∃ front, values = front ++ [0] ∧ ∀ value ∈ front, value ≠ 0 := by
  constructor
  · intro ⟨room, array, hfetch, hlength⟩
    obtain ⟨front, hfront, rfl, hfetched⟩ := fetchXPointers_inv hfetch
    rw [List.length_map] at hlength
    have hsame : front ++ [0] = values := by
      apply row_unique (m := s.space) _ hrow hlength
      intro i value hvalue
      have := hfetched i value hvalue
      rwa [Nat.zero_add] at this
    exact ⟨front, hsame.symm, hfront⟩
  · intro ⟨front, hvalues, hfront⟩
    subst hvalues
    refine ⟨front.length + 1, _, fetchXPointers_row hfront ?_, by rw [List.length_map]⟩
    intro j value hvalue
    rw [Nat.zero_add]
    exact hrow j value hvalue

/-- What is fetched again. -/
theorem fetch_row_eq {room : Nat} {array : List (XPointer host)}
    (hrow : RowAt T s.space (T.peekReg s.reg) values)
    (hfetch : fetchArrayOfXPointers T room s = .ok array) (hlength : array.length = values.length) :
    array = values.map XPointer.fetched := by
  obtain ⟨front, hfront, rfl, hfetched⟩ := fetchXPointers_inv hfetch
  rw [List.length_map] at hlength
  congr 1
  apply row_unique (m := s.space) _ hrow hlength
  intro i value hvalue
  have := hfetched i value hvalue
  rwa [Nat.zero_add] at this

/-! ## What is pushed -/

theorem podValues_length (ptr : Address host) (totalSize : Nat) (array : List (XPointer host)) :
    (podValues ptr totalSize array).length = array.length := by
  induction array generalizing totalSize with
  | nil => rfl
  | cons entry array ih =>
      unfold podValues
      split <;> rw [List.length_cons, List.length_cons, ih]

/-- Entries without a local copy keep their pointers, the others point to their copies. -/
theorem podValues_get {totalSize i : Nat} {array : List (XPointer host)} {entry : XPointer host}
    (h : array[i]? = some entry) :
    (entry.localCopy = none → (podValues ptr totalSize array)[i]? = some entry.remote) ∧
      ∀ string, entry.localCopy = some string → ∃ offset,
        (podValues ptr totalSize array)[i]? = some (ptr.plus (totalSize + offset)) ∧
          offset + string.length ≤ (modifiedPointees array).flatten.length ∧
          ((modifiedPointees array).flatten.drop offset).take string.length = string := by
  induction array generalizing totalSize i with
  | nil => cases h
  | cons first array ih =>
      unfold podValues modifiedPointees
      cases hcopy : first.localCopy with
      | none =>
          simp only [List.filterMap_cons, hcopy]
          cases i with
          | zero =>
              obtain rfl := Option.some.inj h
              refine ⟨fun _ => rfl, ?_⟩
              intro string hstring
              rw [hcopy] at hstring
              cases hstring
          | succ i => exact ih h
      | some copy =>
          simp only [List.filterMap_cons, hcopy, List.flatten_cons]
          cases i with
          | zero =>
              obtain rfl := Option.some.inj h
              constructor
              · intro hnone
                rw [hcopy] at hnone
                cases hnone
              · intro string hstring
                obtain rfl := Option.some.inj (hcopy.symm.trans hstring)
                refine ⟨0, rfl, ?_, ?_⟩
                · rw [List.length_append]
                  omega
                · rw [List.drop_zero, List.take_left]
          | succ i =>
              obtain ⟨hkept, hcopied⟩ := @ih (totalSize + copy.length) i h
              refine ⟨hkept, ?_⟩
              intro string hstring
              obtain ⟨offset, hvalue, hle, hpart⟩ := hcopied string hstring
              refine ⟨copy.length + offset, ?_, ?_, ?_⟩
              · rw [← Nat.add_assoc]
                exact hvalue
              · rw [List.length_append]
                unfold modifiedPointees at hle
                omega
              · rw [← List.drop_drop, List.drop_left]
                exact hpart

theorem untagPointer_toNat (a : Address host) :
    (untagPointer host a).toNat =
      if host = .ARCH_ARM64 then a.toNat % 2 ^ 56 else a.toNat := by
  have hmask : (0x00FFFFFFFFFFFFFF : BitVec 64).toNat = 2 ^ 56 - 1 := rfl
  have hlt := a.isLt
  revert a
  unfold untagPointer Host.untagPointer
  cases host with
  | ARCH_ARM64 =>
      intro a hlt
      rw [if_pos rfl, BitVec.toNat_setWidth, BitVec.toNat_and, hmask,
        Nat.and_two_pow_sub_one_eq_mod, BitVec.toNat_setWidth]
      change a.toNat < 2 ^ 64 at hlt
      change a.toNat % 2 ^ 64 % 2 ^ 56 % 2 ^ 64 = _
      omega
  | ARCH_X86_64 =>
      intro a hlt
      rw [if_neg (by decide), BitVec.toNat_setWidth, BitVec.toNat_setWidth,
        Nat.mod_eq_of_lt (Nat.lt_of_le_of_lt (Nat.mod_le _ _) hlt)]
      exact Nat.mod_eq_of_lt hlt
  | _ =>
      intro a hlt
      change a.toNat < 2 ^ 32 at hlt
      rw [if_neg (by decide), BitVec.toNat_setWidth, BitVec.toNat_setWidth,
        Nat.mod_eq_of_lt (show a.toNat < 2 ^ 64 by omega)]
      exact Nat.mod_eq_of_lt hlt

/-- An address that has no tag, and those below it. -/
theorem untagPointer_of_le {b : Address host} (hb : untagPointer host b = b) (h : a.toNat ≤ b.toNat)
    : untagPointer host a = a := by
  have hb' := congrArg BitVec.toNat hb
  apply BitVec.eq_of_toNat_eq
  rw [untagPointer_toNat] at hb' ⊢
  split at hb'
  case isTrue harm =>
    rw [if_pos harm]
    omega
  case isFalse harm => rw [if_neg harm]

/-- A block of memory of the tracee, and what is left of its stack pointer. -/
theorem allocMem_inv {stackPointer : Address host} {size : Nat} (hpos : 0 < size)
    (h : allocMem T stackPointer size = some ptr) :
    0 < ptr.toNat ∧ ptr.toNat + size ≤ (T.peekReg stackPointer).toNat := by
  unfold allocMem at h
  dsimp only at h
  generalize hreserved : (if T.peekReg stackPointer = T.peekReg T.originalStackPointer then
    size + host.redZoneSize else size) = reserved at h
  have hle : size ≤ reserved := by
    rw [← hreserved]
    split <;> omega
  split at h
  · cases h
  case isFalse hno =>
    obtain rfl := Option.some.inj h
    have hvalue : (T.peekReg stackPointer - BitVec.ofNat _ reserved).toNat =
        (T.peekReg stackPointer).toNat - reserved := by
      rw [BitVec.toNat_sub_of_le]
      · rw [BitVec.toNat_ofNat, Nat.mod_eq_of_lt (by omega)]
      · rw [BitVec.le_def, BitVec.toNat_ofNat, Nat.mod_eq_of_lt (by omega)]
        omega
    rw [hvalue]
    omega

theorem peekReg_le (value : Address host) : (T.peekReg value).toNat ≤ value.toNat := by
  unfold XTracee.peekReg
  split
  · rw [BitVec.toNat_and]
    exact Nat.and_le_left
  · exact Nat.le_refl _

theorem sizeofWord_pos (T : XTracee host) : 0 < T.sizeofWord := by
  have hpos := word_pos host
  have h64 := T.word64
  unfold XTracee.sizeofWord
  split
  case isTrue hmode =>
    have := h64 hmode
    omega
  case isFalse => exact hpos

theorem halfWord (h : T.is32on64 = true) : 256 ^ (host.word / 2) = 2 ^ 32 := by
  rw [T.word64 h]
  rfl

theorem peekReg_lt (value : Address host) : (T.peekReg value).toNat < 256 ^ T.sizeofWord := by
  unfold XTracee.peekReg XTracee.sizeofWord
  cases hmode : T.is32on64 with
  | true =>
      rw [if_pos rfl, if_pos rfl, halfWord hmode, BitVec.toNat_and, BitVec.toNat_ofNat]
      exact Nat.lt_of_le_of_lt Nat.and_le_right
        (Nat.lt_of_le_of_lt (Nat.mod_le _ _) (by decide))
  | false =>
      rw [if_neg Bool.false_ne_true, if_neg Bool.false_ne_true]
      have hlt := value.isLt
      rwa [Nat.pow_mul] at hlt

/-- A value that fits a word is read from the register as it is. -/
theorem peekReg_of_lt (h : value.toNat < 256 ^ T.sizeofWord) :
    T.peekReg value = value := by
  unfold XTracee.peekReg
  cases hmode : T.is32on64 with
  | false => rw [if_neg Bool.false_ne_true]
  | true =>
      unfold XTracee.sizeofWord at h
      rw [if_pos hmode, halfWord hmode] at h
      have hbits : 2 ^ 32 ≤ 2 ^ (8 * host.word) := by
        rw [T.word64 hmode]
        decide
      have hmask : (BitVec.ofNat (8 * host.word) 0xFFFFFFFF).toNat = 2 ^ 32 - 1 := by
        rw [BitVec.toNat_ofNat, Nat.mod_eq_of_lt (by omega)]
        rfl
      rw [if_pos rfl]
      apply BitVec.eq_of_toNat_eq
      rw [BitVec.toNat_and, hmask, Nat.and_two_pow_sub_one_eq_mod, Nat.mod_eq_of_lt]
      exact h

/-- Without `process_vm_readv` a word of a 32-bit tracee is peeked with the one after it, which
has to be there for the last one of an array. -/
def LastPeeks (T : XTracee host) (m : Space host) (address : Address host) (count : Nat) : Prop :=
  T.processVm = true ∨ T.is32on64 = false ∨
    (peekData m (address.plus ((count - 1) * T.sizeofWord))).isSome

/-- A word that is there is peeked, if what is peeked with it is there too. -/
theorem peekWord_eq {m : Space host} (htag : untagPointer host address = address)
    (hvalue : value.toNat < 256 ^ T.sizeofWord)
    (hload : m.load address T.sizeofWord = some (wordBytes T.sizeofWord value.toNat))
    (hpeek : T.processVm = true ∨ T.is32on64 = false ∨ (peekData m address).isSome) :
    peekWord T m address = .ok value := by
  have hread : BitVec.ofNat (8 * host.word)
      (littleEndian (wordBytes T.sizeofWord value.toNat)) = value := by
    rw [littleEndian_wordBytes, Nat.mod_eq_of_lt hvalue, BitVec.ofNat_toNat, BitVec.setWidth_eq]
  have hsize : T.sizeofWord ≤ 0x7ffff000 := by
    have := host_word_le host
    unfold XTracee.sizeofWord
    split <;> omega
  unfold peekWord
  dsimp only
  rw [htag]
  cases hway : T.processVm with
  | true => rw [if_pos rfl, processVmReadv, if_pos hsize, hload]; exact congrArg Except.ok hread
  | false =>
      rw [if_neg Bool.false_ne_true]
      dsimp only
      cases hmode : T.is32on64 with
      | false =>
          have hword : T.sizeofWord = host.word := by
            unfold XTracee.sizeofWord
            rw [if_neg (by rw [hmode]; exact Bool.false_ne_true)]
          rw [hword] at hload hread
          rw [show peekData m address = _ from hload]
          dsimp only
          rw [hread, peekReg_of_lt hvalue]
      | true =>
          obtain hno | hno | hpeek := hpeek
          · rw [hway] at hno
            cases hno
          · rw [hmode] at hno
            cases hno
          · obtain ⟨bytes, hbytes⟩ := Option.isSome_iff_exists.mp hpeek
            rw [hbytes]
            dsimp only
            have hhalf : T.sizeofWord ≤ host.word := by
              unfold XTracee.sizeofWord
              split <;> omega
            have htake : bytes.take T.sizeofWord = wordBytes T.sizeofWord value.toNat :=
              Option.some.inj ((AddressSpace.load_take hbytes hhalf).symm.trans hload)
            have hsplit := List.take_append_drop T.sizeofWord bytes
            rw [htake] at hsplit
            have hlow : littleEndian bytes % 256 ^ T.sizeofWord = value.toNat := by
              rw [← hsplit, littleEndian_append, wordBytes_length, Nat.add_mul_mod_self_left,
                littleEndian_wordBytes, Nat.mod_mod, Nat.mod_eq_of_lt hvalue]
            congr 1
            apply BitVec.eq_of_toNat_eq
            have hbound := littleEndian_lt bytes
            rw [AddressSpace.load_length hbytes, show (256 : Nat) = 2 ^ 8 from rfl,
              ← Nat.pow_mul] at hbound
            have hword : 256 ^ T.sizeofWord = 2 ^ 32 := by
              unfold XTracee.sizeofWord
              rw [if_pos hmode, halfWord hmode]
            have hbits : 2 ^ 32 ≤ 2 ^ (8 * host.word) := by
              rw [T.word64 hmode]
              decide
            have hmask : (BitVec.ofNat (8 * host.word) 0xFFFFFFFF).toNat = 2 ^ 32 - 1 := by
              rw [BitVec.toNat_ofNat, Nat.mod_eq_of_lt (by omega)]
              rfl
            rw [XTracee.peekReg, if_pos hmode, BitVec.toNat_and, hmask, BitVec.toNat_ofNat,
              Nat.mod_eq_of_lt hbound, Nat.and_two_pow_sub_one_eq_mod, ← hword, hlow]

theorem peekWord_peeks {m : Space host} (htag : untagPointer host address = address)
    (h : peekWord T m address = .ok value) :
    T.processVm = true ∨ T.is32on64 = false ∨ (peekData m address).isSome := by
  cases hway : T.processVm with
  | true => exact .inl rfl
  | false =>
      unfold peekWord at h
      dsimp only at h
      rw [htag, hway, if_neg Bool.false_ne_true] at h
      cases hpeek : peekData m address with
      | none =>
          rw [hpeek] at h
          cases h
      | some bytes => exact .inr (.inr rfl)

/-- The pointers of the array that is pushed to an address. -/
def pushedValues (T : XTracee host) (ptr : Address host) (array : List (XPointer host)) :
    List (Address host) :=
  podValues ptr (array.length * T.sizeofWord) array

/-- What a successful push leaves in the memory. -/
structure Pushed (T : XTracee host) (s s' : XState host) (array : List (XPointer host))
    (ptr : Address host) : Prop where
  alloc : allocMem T s.stackPointer (blockSize T array) = some ptr
  reg : T.peekReg s'.reg = ptr
  moved : s' ≠ s
  mapped : ∀ x, (s'.space x).isSome = (s.space x).isSome
  row : LastPeeks T s'.space ptr array.length → RowAt T s'.space ptr (pushedValues T ptr array)
  peeks : ∀ value, peekWord T s'.space (ptr.plus ((array.length - 1) * T.sizeofWord)) = .ok value →
    LastPeeks T s'.space ptr array.length
  copies : ∀ (i : Nat) (entry : XPointer host) (string : Bytes), array[i]? = some entry →
    entry.localCopy = some string → ∃ a, (pushedValues T ptr array)[i]? = some a ∧ a ≠ 0 ∧
      s'.space.load (untagPointer host a) string.length = some string

theorem push_pushed {s' : XState host} {array : List (XPointer host)}
    (htag : untagPointer host (T.peekReg s.stackPointer) = T.peekReg s.stackPointer)
    (hcopies : modifiedPointees array ≠ []) (hpointers : ∀ entry ∈ array, entry.localCopy = none →
      entry.remote.toNat < 256 ^ T.sizeofWord) (h : pushArrayOfXPointers T s array = (s', .ok ())) :
    ∃ ptr, Pushed T s s' array ptr := by
  unfold pushArrayOfXPointers at h
  dsimp only at h
  rw [if_neg hcopies] at h
  split at h
  · cases h
  case isFalse hcount =>
  have hcount' : 0 < array.length := by
    by_contra hzero
    obtain rfl : array = [] := List.length_eq_zero_iff.mp (by omega)
    exact hcopies rfl
  have hword := sizeofWord_pos T
  have hrow : 0 < array.length * T.sizeofWord := Nat.mul_pos hcount' hword
  cases halloc : allocMem T s.stackPointer (blockSize T array) with
  | none =>
      rw [halloc] at h
      cases h
  | some ptr =>
      rw [halloc] at h
      dsimp only at h
      have hblock : 0 < blockSize T array := by
        unfold blockSize
        omega
      obtain ⟨hptr, hbelow⟩ := allocMem_inv hblock halloc
      have hsp := peekReg_lt (T := T) s.stackPointer
      -- The addresses of the block neither wrap around nor have a tag.
      have hplus : ∀ k ≤ blockSize T array, (ptr.plus k).toNat = ptr.toNat + k := by
        intro k hk
        rw [BitVec.toNat_add, BitVec.toNat_ofNat,
          Nat.mod_eq_of_lt (show k < 2 ^ (8 * host.word) by omega), Nat.mod_eq_of_lt (by omega)]
      have huntag : ∀ k ≤ blockSize T array, untagPointer host (ptr.plus k) = ptr.plus k := by
        intro k hk
        apply untagPointer_of_le htag
        rw [hplus k hk]
        omega
      have hptrs : T.peekReg ptr = ptr := peekReg_of_lt (by omega)
      generalize hpod : ((podValues ptr (array.length * T.sizeofWord) array).map
        BitVec.toNat).flatMap (wordBytes T.sizeofWord) = pod at h
      have hpodLength : pod.length = array.length * T.sizeofWord := by
        rw [← hpod, rowBytes_length, List.length_map, podValues_length]
      have hflat : (pod :: modifiedPointees array).flatten.length = blockSize T array := by
        rw [List.flatten_cons, List.length_append, hpodLength, blockSize]
      cases hwrite : writevData T s.space ptr (pod :: modifiedPointees array) with
      | mk space answer =>
          rw [hwrite] at h
          cases answer with
          | error status => cases h
          | ok value =>
              cases h
              have hstore := writevData_store (by omega) (by rw [hflat]; exact huntag) hwrite
              have hload := AddressSpace.load_store hstore (by omega)
              rw [hflat, List.flatten_cons] at hload
              have hmapped := AddressSpace.store_mapped hstore
              have hlast : untagPointer host
                  (ptr.plus ((array.length - 1) * T.sizeofWord)) =
                    ptr.plus ((array.length - 1) * T.sizeofWord) := by
                apply huntag
                have := Nat.mul_le_mul_right T.sizeofWord (Nat.sub_le array.length 1)
                unfold blockSize
                omega
              refine ⟨ptr, halloc, hptrs, ?_, hmapped, ?_, ?_, ?_⟩
              · intro hsame
                have hstack := congrArg XState.stackPointer hsame
                dsimp only at hstack
                have hle := peekReg_le (T := T) s.stackPointer
                rw [hstack] at hbelow hptr
                omega
              · intro hpeeks i value hvalue
                have hi := (List.getElem?_eq_some_iff.mp hvalue).1
                rw [pushedValues, podValues_length] at hi
                have hle : i * T.sizeofWord + T.sizeofWord ≤ array.length * T.sizeofWord := by
                  rw [← Nat.succ_mul]
                  exact Nat.mul_le_mul_right _ hi
                have hin : i * T.sizeofWord ≤ blockSize T array := by
                  unfold blockSize
                  omega
                have hvalueWord : value.toNat < 256 ^ T.sizeofWord := by
                  obtain ⟨entry, hentry⟩ : ∃ entry, array[i]? = some entry :=
                    ⟨_, List.getElem?_eq_getElem hi⟩
                  obtain ⟨hkept, hcopied⟩ :=
                    @podValues_get host ptr (array.length * T.sizeofWord) i array entry hentry
                  cases hcopy : entry.localCopy with
                  | none =>
                      obtain rfl := Option.some.inj ((hkept hcopy).symm.trans hvalue)
                      exact hpointers entry (List.mem_of_getElem? hentry) hcopy
                  | some string =>
                      obtain ⟨offset, hoffset, hin, -⟩ := hcopied string hcopy
                      obtain rfl := Option.some.inj (hoffset.symm.trans hvalue)
                      rw [hplus _ (by unfold blockSize; omega)]
                      unfold blockSize at hbelow
                      omega
                rw [← hpod] at hload
                have hvalueNat : ((podValues ptr (array.length * T.sizeofWord) array).map
                    BitVec.toNat)[i]? = some value.toNat := by
                  rw [List.getElem?_map]
                  exact congrArg (Option.map BitVec.toNat) hvalue
                apply peekWord_eq (huntag _ hin) hvalueWord (load_word hload hvalueNat)
                -- Words before the last one are peeked with the next one.
                rcases hpeeks with hway | hmode | hpeeks
                · exact .inl hway
                · exact .inr (.inl hmode)
                · rcases Nat.lt_or_ge i (array.length - 1) with hbefore | hlastIndex
                  · cases hmode : T.is32on64 with
                    | false => exact .inr (.inl rfl)
                    | true =>
                        right
                        right
                        have hhalf : host.word = 2 * T.sizeofWord := by
                          unfold XTracee.sizeofWord
                          rw [if_pos hmode, T.word64 hmode]
                        have htwo : (i + 2) * T.sizeofWord ≤ array.length * T.sizeofWord :=
                          Nat.mul_le_mul_right _ (by omega)
                        rw [Nat.add_mul] at htwo
                        have hdrop := AddressSpace.load_drop hload hin
                        have hpair := AddressSpace.load_take hdrop
                          (show host.word ≤ blockSize T array - i * T.sizeofWord by
                            unfold blockSize; omega)
                        rw [show peekData space (ptr.plus (i * T.sizeofWord)) = _ from hpair]
                        rfl
                  · rw [show i = array.length - 1 by omega]
                    exact .inr (.inr hpeeks)
              · intro value hvalue
                exact peekWord_peeks hlast hvalue
              · intro i entry string hentry hcopy
                obtain ⟨-, hcopied⟩ :=
                  @podValues_get host ptr (array.length * T.sizeofWord) i array entry hentry
                obtain ⟨offset, hoffset, hin, hpart⟩ := hcopied string hcopy
                have hle : array.length * T.sizeofWord + offset ≤ blockSize T array := by
                  unfold blockSize
                  omega
                refine ⟨_, hoffset, ?_, ?_⟩
                · intro hzero
                  have hvalue := hplus _ hle
                  rw [hzero] at hvalue
                  have hnone : (0 : Address host).toNat = 0 := BitVec.toNat_zero
                  omega
                · rw [huntag _ hle]
                  have hdrop := AddressSpace.load_drop hload hle
                  have hpiece := AddressSpace.load_take hdrop
                    (show string.length ≤ blockSize T array
                      - (array.length * T.sizeofWord + offset) by unfold blockSize; omega)
                  rw [← List.drop_drop, ← hpodLength, List.drop_left, hpart] at hpiece
                  rw [← hpodLength]
                  exact hpiece

end

/-! ## The edited list -/

/-- An entry of the edited list: a pointer of the tracee, which was read or not, or a string that
was written. -/
inductive Item (host : Host)
  | kept (remote : Address host) (wasRead : Bool)
  | written (string : Bytes)
  deriving DecidableEq

namespace Item

/-- What it is, read or not. -/
def plain : Item host → Item host
  | kept remote _ => kept remote false
  | written string => written string

/-- It was read or written. -/
def isLocal : Item host → Bool
  | kept _ wasRead => wasRead
  | written _ => true

def isNull : Item host → Bool
  | kept remote _ => remote = 0
  | written _ => false

/-- An entry of the list is read: only pointers that are not null. -/
def read : Item host → Item host
  | kept remote wasRead => kept remote (wasRead || remote ≠ 0)
  | written string => written string

end Item

/-- What an operation does to the list. -/
def editItem (items : List (Item host)) : Edit → Except XStop (List (Item host))
  | .resize index delta => resizeArrayOfXPointers (.kept 0 false) items index delta
  | .read index =>
      match items[index]? with
      | none => .error .abort
      | some item => .ok (items.set index item.read)
  | .write index string =>
      match items[index]? with
      | none => .error .abort
      | some _ => .ok (items.set index (.written (throughNul string)))

def editItems (items : List (Item host)) (edits : List Edit) : Except XStop (List (Item host)) :=
  edits.foldlM editItem items

/-- The list of the entries that were fetched. -/
def fetchedItems (array : List (XPointer host)) : List (Item host) :=
  array.map fun entry => .kept entry.remote false

/-- The null pointer is last, and nowhere else. -/
def Terminated (items : List (Item host)) : Prop :=
  ∃ front last, items = front ++ [last] ∧ last.isNull = true ∧ ∀ item ∈ front, item.isNull = false

/-- An entry that is fetched again is the item: the same pointer, or a copy of the string that was
read there; or a pointer to the string that was written. -/
def IsItem (m m' : Space host) (entry : XPointer host) : Item host → Prop
  | .kept remote wasRead => entry.remote = remote ∨ (wasRead = true ∧
      ∃ string, StringAt m (untagPointer host remote) string ∧
        StringAt m' (untagPointer host entry.remote) string)
  | .written string => StringAt m' (untagPointer host entry.remote) string

/-- **The edits are exact**: the push succeeds, what is fetched then is the edited list, and
nothing is touched if that is the old one. -/
structure EditsExact (T : XTracee host) (s : XState host) (old : List (XPointer host))
    (items : List (Item host)) (pushed : XState host × Except XStop Unit) : Prop where
  done : pushed.2 = .ok ()
  fetched : ∃ room array, fetchArrayOfXPointers T room pushed.1 = .ok array ∧
    List.Forall₂ (IsItem s.space pushed.1.space) array items
  untouched : items.map Item.plain = fetchedItems old → pushed.1 = s

/-- **The edits are kept**: if the list is the old one, nothing of it was read; else something of
it was read or written, it is terminated, and its end can be peeked. -/
structure EditsKept (T : XTracee host) (s : XState host) (old : List (XPointer host))
    (array : List (XPointer host)) (items : List (Item host)) : Prop where
  same : items.map Item.plain = fetchedItems old → ∀ item ∈ items, item.isLocal = false
  told : items.map Item.plain ≠ fetchedItems old → ∃ item ∈ items, item.isLocal = true
  terminated : items.map Item.plain ≠ fetchedItems old → Terminated items
  peeks : items.map Item.plain ≠ fetchedItems old → ∀ ptr,
    allocMem T s.stackPointer (blockSize T array) = some ptr →
      LastPeeks T s.space ptr array.length

/-- An entry of the array stands for an item. -/
def StandsFor (m : Space host) (entry : XPointer host) : Item host → Prop
  | .kept remote wasRead => entry.remote = remote ∧
      ((wasRead = false ∧ entry.localCopy = none) ∨ (wasRead = true ∧ remote ≠ 0 ∧
        ∃ string, entry.localCopy = some string ∧
          StringAt m (untagPointer host remote) string))
  | .written string => entry.localCopy = some string ∧ IsString string

section

variable {T : XTracee host} {m : Space host}

theorem StandsFor.isLocal_iff {entry : XPointer host} {item : Item host}
    (h : StandsFor m entry item) :
    entry.localCopy.isSome = item.isLocal := by
  cases item with
  | kept remote wasRead =>
      obtain ⟨-, ⟨rfl, hnone⟩ | ⟨rfl, -, string, hsome, -⟩⟩ := h
      · rw [hnone]
        rfl
      · rw [hsome]
        rfl
  | written string =>
      rw [h.1]
      rfl

/-- An entry that is read still stands for its item, -/
theorem StandsFor.read {entry entry' : XPointer host} {item : Item host}
    (h : StandsFor m entry item) (hread : readXPointee T m entry = .ok entry') : StandsFor m entry' item.read := by
  rcases readXPointee_inv hread with ⟨rfl, hsame⟩ | ⟨hne, string, rfl, hstring⟩
  · cases item with
    | kept remote wasRead =>
        obtain ⟨rfl, ⟨rfl, hnone⟩ | ⟨rfl, hne, hcopy⟩⟩ := h
        · rw [hnone] at hsame
          obtain hsome | hzero := hsame
          · cases hsome
          · rw [Item.read, hzero]
            exact ⟨hzero, .inl ⟨by simp, hnone⟩⟩
        · exact ⟨rfl, .inr ⟨rfl, hne, hcopy⟩⟩
    | written string => exact h
  · cases item with
    | kept remote wasRead =>
        obtain ⟨rfl, -⟩ := h
        exact ⟨rfl, .inr ⟨by rw [decide_eq_true hne, Bool.or_true], hne, string, rfl, hstring⟩⟩
    | written copy =>
        -- Nothing is read when there is a local copy.
        rw [readXPointee, if_pos (by rw [h.1]; rfl)] at hread
        rw [← Except.ok.inj hread]
        exact h

variable {array' : List (XPointer host)}

/-- and so does the array for the list: what an operation does to the one, it does to the
other. -/
theorem applyEdit_tracks {array : List (XPointer host)} {items : List (Item host)} {edit : Edit}
    (h : List.Forall₂ (StandsFor m) array items) (hedit : applyEdit T m array edit = .ok array') :
    ∃ items', editItem items edit = .ok items' ∧ List.Forall₂ (StandsFor m) array' items' := by
  cases edit with
  | resize index delta => exact forall₂_resize ⟨rfl, .inl ⟨rfl, rfl⟩⟩ h hedit
  | read index =>
      rw [applyEdit] at hedit
      cases hentry : array[index]? with
      | none =>
          rw [hentry] at hedit
          cases hedit
      | some entry =>
          rw [hentry] at hedit
          dsimp only at hedit
          obtain ⟨item, hitem, htracks⟩ := forall₂_getElem? h hentry
          cases hread : readXPointee T m entry with
          | error status =>
              rw [hread] at hedit
              cases hedit
          | ok entry' =>
              rw [hread] at hedit
              rw [editItem, hitem, ← Except.ok.inj hedit]
              exact ⟨_, rfl, forall₂_set h (htracks.read hread) index⟩
  | write index string =>
      rw [applyEdit] at hedit
      cases hentry : array[index]? with
      | none =>
          rw [hentry] at hedit
          cases hedit
      | some entry =>
          rw [hentry] at hedit
          obtain ⟨item, hitem, -⟩ := forall₂_getElem? h hentry
          rw [editItem, hitem, ← Except.ok.inj hedit]
          have htracks : StandsFor m { entry with localCopy := some (throughNul string) }
              (.written (throughNul string)) := ⟨rfl, isString_throughNul⟩
          exact ⟨_, rfl, forall₂_set h htracks index⟩

theorem applyEdits_tracks {array : List (XPointer host)} {items : List (Item host)}
    {edits : List Edit} (h : List.Forall₂ (StandsFor m) array items)
    (hedits : applyEdits T m array edits = .ok array') :
    ∃ items', editItems items edits = .ok items' ∧ List.Forall₂ (StandsFor m) array' items' := by
  induction edits generalizing array items with
  | nil =>
      obtain rfl := Except.ok.inj hedits
      exact ⟨items, rfl, h⟩
  | cons edit edits ih =>
      rw [applyEdits, List.foldlM_cons] at hedits
      cases hedit : applyEdit T m array edit with
      | error stop =>
          rw [hedit] at hedits
          cases hedits
      | ok middle =>
          rw [hedit] at hedits
          obtain ⟨items₁, hitem, hmiddle⟩ := applyEdit_tracks h hedit
          obtain ⟨items', hitems, hlast⟩ := ih hmiddle hedits
          refine ⟨items', ?_, hlast⟩
          rw [editItems, List.foldlM_cons, hitem]
          exact hitems

/-- The operations keep the pointers, and add null ones. -/
theorem applyEdit_remote {P : Address host → Prop} {array : List (XPointer host)} {edit : Edit}
    (hzero : P 0) (h : ∀ entry ∈ array, P entry.remote)
    (hedit : applyEdit T m array edit = .ok array') : ∀ entry ∈ array', P entry.remote := by
  have hset : ∀ (index : Nat) (entry entry' : XPointer host), array[index]? = some entry →
      entry'.remote = entry.remote → ∀ e ∈ array.set index entry', P e.remote := by
    intro index entry entry' hentry hremote e he
    rcases List.mem_or_eq_of_mem_set he with he | rfl
    · exact h e he
    · rw [hremote]
      exact h entry (List.mem_of_getElem? hentry)
  cases edit with
  | resize index delta =>
      rw [applyEdit, resizeArrayOfXPointers] at hedit
      split at hedit
      · cases hedit
      split at hedit
      · obtain rfl := Except.ok.inj hedit
        exact h
      split at hedit
      · obtain rfl := Except.ok.inj hedit
        intro entry hentry
        rw [List.mem_append, List.mem_append] at hentry
        obtain (hentry | hentry) | hentry := hentry
        · exact h entry (List.mem_of_mem_take hentry)
        · rw [List.eq_of_mem_replicate hentry]
          exact hzero
        · exact h entry (List.mem_of_mem_drop hentry)
      · split at hedit
        · cases hedit
        · obtain rfl := Except.ok.inj hedit
          intro entry hentry
          rw [List.mem_append] at hentry
          obtain hentry | hentry := hentry
          · exact h entry (List.mem_of_mem_take hentry)
          · exact h entry (List.mem_of_mem_drop hentry)
  | read index =>
      rw [applyEdit] at hedit
      cases hentry : array[index]? with
      | none =>
          rw [hentry] at hedit
          cases hedit
      | some entry =>
          rw [hentry] at hedit
          dsimp only at hedit
          cases hread : readXPointee T m entry with
          | error status =>
              rw [hread] at hedit
              cases hedit
          | ok entry' =>
              rw [hread] at hedit
              obtain rfl := Except.ok.inj hedit
              apply hset index entry entry' hentry
              rcases readXPointee_inv hread with ⟨rfl, -⟩ | ⟨-, string, rfl, -⟩ <;> rfl
  | write index string =>
      rw [applyEdit] at hedit
      cases hentry : array[index]? with
      | none =>
          rw [hentry] at hedit
          cases hedit
      | some entry =>
          rw [hentry] at hedit
          obtain rfl := Except.ok.inj hedit
          exact hset index entry _ hentry rfl

theorem applyEdits_remote {P : Address host → Prop} {array : List (XPointer host)}
    {edits : List Edit} (hzero : P 0) (h : ∀ entry ∈ array, P entry.remote)
    (hedits : applyEdits T m array edits = .ok array') : ∀ entry ∈ array', P entry.remote := by
  induction edits generalizing array with
  | nil =>
      obtain rfl := Except.ok.inj hedits
      exact h
  | cons edit edits ih =>
      rw [applyEdits, List.foldlM_cons] at hedits
      cases hedit : applyEdit T m array edit with
      | error stop =>
          rw [hedit] at hedits
          cases hedits
      | ok middle =>
          rw [hedit] at hedits
          exact ih (applyEdit_remote hzero h hedit) hedits

/-- What was fetched. -/
theorem fetched_tracks :
    List.Forall₂ (StandsFor m) (values.map XPointer.fetched)
      (fetchedItems (values.map XPointer.fetched)) := by
  rw [fetchedItems, List.forall₂_map_right_iff, List.forall₂_same]
  intro entry hentry
  obtain ⟨value, -, rfl⟩ := List.mem_map.mp hentry
  exact ⟨rfl, .inl ⟨rfl, rfl⟩⟩

/-! ## What is fetched after the push -/

theorem peekWord_lt (h : peekWord T m a = .ok value) :
    value.toNat < 256 ^ T.sizeofWord := by
  unfold peekWord at h
  dsimp only at h
  split at h
  case h_1 bytes hread =>
    obtain rfl := Except.ok.inj h
    split at hread
    · unfold processVmReadv at hread
      split at hread
      · have hlt := littleEndian_lt bytes
        rw [AddressSpace.load_length hread] at hlt
        rw [BitVec.toNat_ofNat]
        exact Nat.lt_of_le_of_lt (Nat.mod_le _ _) hlt
      · cases hread
    · cases hread
  case h_2 =>
    split at h
    · cases h
    · obtain rfl := Except.ok.inj h
      exact peekReg_lt _

/-- The room does not matter where it is enough. -/
theorem fetchXPointers_unique {room room' i : Nat} {array : List (XPointer host)}
    (h : fetchXPointers T m a room i = .ok array) (h' : fetchXPointers T m a room' i = .ok array') :
    array = array' := by
  induction room generalizing room' i array array' with
  | zero => cases h
  | succ room ih =>
      cases room' with
      | zero => cases h'
      | succ room' =>
          unfold fetchXPointers at h h'
          cases hpeek : peekWord T m (a.plus (i * T.sizeofWord)) with
          | error status =>
              rw [hpeek] at h
              cases h
          | ok pointer =>
              rw [hpeek] at h h'
              dsimp only at h h'
              split at h
              case isTrue hzero =>
                rw [if_pos hzero] at h'
                exact Except.ok.inj (h.symm.trans h')
              case isFalse hne =>
                rw [if_neg hne] at h'
                cases hrest : fetchXPointers T m a room (i + 1) with
                | error status =>
                    rw [hrest] at h
                    cases h
                | ok rest =>
                    cases hrest' : fetchXPointers T m a room' (i + 1) with
                    | error status =>
                        rw [hrest'] at h'
                        cases h'
                    | ok rest' =>
                        rw [hrest] at h
                        rw [hrest'] at h'
                        rw [← Except.ok.inj h, ← Except.ok.inj h', ih hrest hrest']

/-- The pointers that are pushed point to what the items are. -/
theorem Pushed.items {s' : XState host} {array : List (XPointer host)} {items : List (Item host)}
    (h : Pushed T s s' array ptr) (htracks : List.Forall₂ (StandsFor s.space) array items) :
    List.Forall₂ (fun value item => (value = 0 ↔ item.isNull = true) ∧
      IsItem s.space s'.space (XPointer.fetched value) item) (pushedValues T ptr array) items := by
  apply forall₂_of_getElem?
  · rw [pushedValues, podValues_length, htracks.length_eq]
  intro i item hitem
  obtain ⟨entry, hentry, htrack⟩ := forall₂_getElem? htracks.flip hitem
  obtain ⟨hkept, -⟩ := @podValues_get host ptr (array.length * T.sizeofWord) i array entry hentry
  have hcopied := h.copies i entry
  cases item with
  | kept remote wasRead =>
      obtain ⟨rfl, ⟨rfl, hnone⟩ | ⟨rfl, hne, string, hcopy, hstring⟩⟩ := htrack
      · refine ⟨entry.remote, hkept hnone, ?_, .inl rfl⟩
        rw [Item.isNull, decide_eq_true_iff]
      · obtain ⟨value, hvalue, hvalueNe, hload⟩ := hcopied string hentry hcopy
        refine ⟨value, hvalue, ?_, .inr ⟨rfl, string, hstring, hstring.1, hload⟩⟩
        rw [Item.isNull, decide_eq_true_iff]
        exact iff_of_false hvalueNe hne
  | written string =>
      obtain ⟨hcopy, hstring⟩ := htrack
      obtain ⟨value, hvalue, hvalueNe, hload⟩ := hcopied string hentry hcopy
      exact ⟨value, hvalue, iff_of_false hvalueNe Bool.false_ne_true, hstring, hload⟩

theorem LastPeeks.congr {m : Space host} (h : ∀ x, (m' x).isSome = (m x).isSome) (a : Address host)
    (count : Nat) : LastPeeks T m' a count ↔ LastPeeks T m a count := by
  unfold LastPeeks peekData
  rw [load_isSome_congr h]

/-- **What is fetched after a push**: the list, if its null pointer is last and nowhere else. -/
theorem Pushed.fetched_iff {s' : XState host} {array : List (XPointer host)}
    {items : List (Item host)} (h : Pushed T s s' array ptr) (hne : array ≠ [])
    (htracks : List.Forall₂ (StandsFor s.space) array items) :
    (∃ room array', fetchArrayOfXPointers T room s' = .ok array' ∧
      List.Forall₂ (IsItem s.space s'.space) array' items) ↔
      Terminated items ∧ LastPeeks T s.space ptr array.length := by
  have hitems := h.items htracks
  have hlength : (pushedValues T ptr array).length = array.length := by
    rw [pushedValues, podValues_length]
  have hrow := h.row
  have hpeeks := h.peeks
  generalize pushedValues T ptr array = values at hitems hlength hrow
  have hvalues : values ≠ [] := by
    rintro rfl
    exact hne (List.length_eq_zero_iff.mp hlength.symm)
  obtain rfl := h.reg
  rw [← LastPeeks.congr h.mapped]
  constructor
  · intro ⟨room, array', hfetch, hforall⟩
    have hsame : array'.length = values.length := by
      rw [hforall.length_eq, hitems.length_eq]
    obtain ⟨fetched, -, rfl, hpeeked⟩ := fetchXPointers_inv hfetch
    -- The null pointer that was fetched last is where the last pointer was pushed.
    have hlast := hpeeked fetched.length 0 (by simp)
    rw [List.length_map, List.length_append, List.length_singleton] at hsame
    rw [Nat.zero_add, show fetched.length = array.length - 1 by omega] at hlast
    have hpeeks := hpeeks 0 hlast
    refine ⟨?_, hpeeks⟩
    obtain ⟨front, rfl, hnonzero⟩ := (fetch_row_iff (hrow hpeeks) hvalues).mp
      ⟨room, _, hfetch, by rw [List.length_map, List.length_append, List.length_singleton, hsame]⟩
    obtain ⟨items', last, rfl, hnull, hno⟩ :=
      forall₂_last hitems (fun value item hR => hR.1) ⟨front, 0, rfl, rfl, hnonzero⟩
    exact ⟨items', last, rfl, hnull, fun item hmem => Bool.eq_false_iff.mpr (hno item hmem)⟩
  · intro ⟨hterminated, hlastPeeks⟩
    obtain ⟨items', last, rfl, hnull, hno⟩ := hterminated
    obtain ⟨front, value, rfl, hzero, hnonzero⟩ :=
      forall₂_last hitems.flip (fun item value hR => hR.1.symm)
        ⟨items', last, rfl, hnull, fun item hmem => Bool.eq_false_iff.mp (hno item hmem)⟩
    subst hzero
    obtain ⟨room, array', hfetch, hsame⟩ :=
      (fetch_row_iff (hrow hlastPeeks) hvalues).mpr ⟨front, rfl, hnonzero⟩
    refine ⟨room, array', hfetch, ?_⟩
    rw [fetch_row_eq (hrow hlastPeeks) hfetch hsame, List.forall₂_map_left_iff]
    exact hitems.imp fun value item hR => hR.2

/-! ## Edits and pushes -/

theorem modifiedPointees_eq_nil {array : List (XPointer host)} {items : List (Item host)}
    (h : List.Forall₂ (StandsFor m) array items) :
    modifiedPointees array = [] ↔ ∀ item ∈ items, item.isLocal = false := by
  induction h with
  | nil => simp [modifiedPointees]
  | @cons entry item array items hhead htail ih =>
      have hlocal := hhead.isLocal_iff
      unfold modifiedPointees at ih ⊢
      rw [List.forall_mem_cons, ← ih, List.filterMap_cons]
      cases hcopy : entry.localCopy with
      | none =>
          rw [hcopy] at hlocal
          simp [← hlocal]
      | some string =>
          rw [hcopy] at hlocal
          simp [← hlocal]

/-- Every entry has a local copy. -/
theorem modifiedPointees_full {array : List (XPointer host)} {items : List (Item host)}
    (h : List.Forall₂ (StandsFor m) array items)
    (hfull : array.length ≤ (modifiedPointees array).length) :
    ∀ item ∈ items, item.isLocal = true := by
  induction h with
  | nil => simp
  | @cons entry item array items hhead htail ih =>
      have hlocal := hhead.isLocal_iff
      have hle : (modifiedPointees array).length ≤ array.length := List.length_filterMap_le ..
      unfold modifiedPointees at ih hfull hle
      rw [List.filterMap_cons, List.length_cons] at hfull
      cases hcopy : entry.localCopy with
      | none =>
          rw [hcopy] at hfull
          dsimp only at hfull
          omega
      | some string =>
          rw [hcopy] at hfull hlocal
          rw [List.length_cons] at hfull
          rw [List.forall_mem_cons]
          exact ⟨hlocal.symm, ih (by omega)⟩

/-- A list of which nothing was read or written is what its array points to. -/
theorem items_of_unlocal {array : List (XPointer host)} {items : List (Item host)}
    (h : List.Forall₂ (StandsFor m) array items) (hno : ∀ item ∈ items, item.isLocal = false) :
    items = fetchedItems array ∧ items.map Item.plain = items := by
  induction h with
  | nil => exact ⟨rfl, rfl⟩
  | @cons entry item array items hhead htail ih =>
      rw [List.forall_mem_cons] at hno
      obtain ⟨hsame, hplain⟩ := ih hno.2
      cases item with
      | kept remote wasRead =>
          obtain rfl : wasRead = false := hno.1
          obtain ⟨rfl, -⟩ := hhead
          rw [fetchedItems, List.map_cons, List.map_cons, hplain]
          exact ⟨congrArg _ hsame, rfl⟩
      | written string => cases hno.1

/-- Entries that were fetched are other ones than those of a list of which nothing was read, unless
they point to the same. -/
theorem isItem_fetched {array : List (XPointer host)} :
    List.Forall₂ (IsItem m m') array (fetchedItems array') ↔
      fetchedItems array = fetchedItems array' := by
  unfold fetchedItems
  rw [List.forall₂_map_right_iff, ← List.forall₂_eq_eq_eq, List.forall₂_map_left_iff,
    List.forall₂_map_right_iff]
  have hitem : ∀ entry entry' : XPointer host,
      IsItem m m' entry (.kept entry'.remote false) ↔
        Item.kept entry.remote false = Item.kept entry'.remote false := by
    intro entry entry'
    rw [IsItem, Item.kept.injEq]
    simp
  exact ⟨fun h => h.imp fun a b => (hitem a b).mp, fun h => h.imp fun a b => (hitem a b).mpr⟩

/-- Nothing is pushed where nothing was read or written. -/
theorem push_unlocal {array : List (XPointer host)} (h : modifiedPointees array = []) :
    pushArrayOfXPointers T s array = (s, .ok ()) := by
  unfold pushArrayOfXPointers
  exact if_pos h

/-- **Edits of a pointer array are exact when its local copies tell them.** -/
theorem edits_exact_iff {s : XState host} {room : Nat} {old array : List (XPointer host)}
    {edits : List Edit}
    (htag : untagPointer host (T.peekReg s.stackPointer) = T.peekReg s.stackPointer)
    (hfetch : fetchArrayOfXPointers T room s = .ok old)
    (hedits : applyEdits T s.space old edits = .ok array)
    (hpush : ∀ status, (pushArrayOfXPointers T s array).2 ≠ .error (.errno status)) :
    ∃ items, editItems (fetchedItems old) edits = .ok items ∧
      (EditsExact T s old items (pushArrayOfXPointers T s array) ↔
        EditsKept T s old array items) := by
  obtain ⟨front, hfront, hold, hpeeked⟩ := fetchXPointers_inv hfetch
  have hstart : List.Forall₂ (StandsFor s.space) old (fetchedItems old) := by
    rw [hold]
    exact fetched_tracks
  obtain ⟨items, hitems, htracks⟩ := applyEdits_tracks hstart hedits
  refine ⟨items, hitems, ?_⟩
  by_cases hnone : modifiedPointees array = []
  · have hno := (modifiedPointees_eq_nil htracks).mp hnone
    obtain ⟨hsame, hplain⟩ := items_of_unlocal htracks hno
    rw [push_unlocal hnone]
    constructor
    · intro hexact
      obtain ⟨room', array', hfetch', hforall⟩ := hexact.fetched
      obtain rfl := fetchXPointers_unique hfetch hfetch'
      rw [hsame, isItem_fetched] at hforall
      have hunchanged : items.map Item.plain = fetchedItems old := by rw [hplain, hsame, hforall]
      exact ⟨fun _ => hno, fun hne => absurd hunchanged hne, fun hne => absurd hunchanged hne,
        fun hne => absurd hunchanged hne⟩
    · intro hkept
      have hunchanged : items.map Item.plain = fetchedItems old := by
        by_contra hne
        obtain ⟨item, hmem, hlocal⟩ := hkept.told hne
        rw [hno item hmem] at hlocal
        cases hlocal
      refine ⟨rfl, ⟨room, old, hfetch, ?_⟩, fun _ => rfl⟩
      rw [← hplain, hunchanged, isItem_fetched]
  · have hsome : ∃ item ∈ items, item.isLocal = true := by
      by_contra hall
      exact hnone ((modifiedPointees_eq_nil htracks).mpr
        fun item hmem => Bool.eq_false_iff.mpr fun hlocal => hall ⟨item, hmem, hlocal⟩)
    have hnotSame : EditsKept T s old array items → items.map Item.plain ≠ fetchedItems old := by
      intro hkept hsame
      obtain ⟨item, hmem, hlocal⟩ := hsome
      rw [hkept.same hsame item hmem] at hlocal
      cases hlocal
    by_cases hfull : array.length ≤ (modifiedPointees array).length
    · -- The assertion before the allocation fails.
      have habort : (pushArrayOfXPointers T s array).2 = .error .abort := by
        unfold pushArrayOfXPointers
        dsimp only
        rw [if_neg hnone, if_pos (by omega)]
      apply iff_of_false
      · intro hexact
        rw [hexact.done] at habort
        cases habort
      · intro hkept
        obtain ⟨front, last, rfl, hnull, -⟩ := hkept.terminated (hnotSame hkept)
        have hlast := modifiedPointees_full htracks hfull last (by simp)
        obtain ⟨entry, -, htrack⟩ := forall₂_getElem? htracks.flip
          (show (front ++ [last])[front.length]? = some last by simp)
        cases last with
        | written string => cases hnull
        | kept remote wasRead =>
            obtain rfl : remote = 0 := of_decide_eq_true hnull
            obtain ⟨-, ⟨rfl, -⟩ | ⟨-, hne, -⟩⟩ := htrack
            · cases hlast
            · exact hne rfl
    · have hdone : (pushArrayOfXPointers T s array).2 = .ok () := by
        cases hanswer : (pushArrayOfXPointers T s array).2 with
        | ok value => rfl
        | error stop =>
            cases stop with
            | errno status => exact absurd hanswer (hpush status)
            | abort =>
                unfold pushArrayOfXPointers at hanswer
                dsimp only at hanswer
                rw [if_neg hnone, if_neg (by omega)] at hanswer
                split at hanswer
                · cases hanswer
                · split at hanswer <;> cases hanswer
      have hzero : (0 : Address host).toNat < 256 ^ T.sizeofWord := by
        rw [show (0 : Address host).toNat = 0 from BitVec.toNat_zero]
        exact Nat.pow_pos (by decide)
      have hremotes : ∀ entry ∈ array, entry.remote.toNat < 256 ^ T.sizeofWord := by
        refine applyEdits_remote (P := fun a => a.toNat < 256 ^ T.sizeofWord) hzero ?_ hedits
        intro entry hentry
        rw [hold] at hentry
        obtain ⟨value, hvalue, rfl⟩ := List.mem_map.mp hentry
        obtain ⟨i, hi⟩ := List.mem_iff_getElem?.mp hvalue
        exact peekWord_lt (hpeeked i value hi)
      obtain ⟨ptr, hpushed⟩ := push_pushed htag hnone (fun entry hentry _ => hremotes entry hentry)
        (show pushArrayOfXPointers T s array = (_, .ok ()) by rw [← hdone])
      have harray : array ≠ [] := by
        rintro rfl
        exact hnone rfl
      have hiff := hpushed.fetched_iff harray htracks
      constructor
      · intro hexact
        obtain ⟨hterminated, hpeeks⟩ := hiff.mp hexact.fetched
        refine ⟨fun hsame => absurd (hexact.untouched hsame) hpushed.moved, fun _ => hsome,
          fun _ => hterminated, ?_⟩
        intro _ ptr' hptr'
        obtain rfl := Option.some.inj (hpushed.alloc.symm.trans hptr')
        exact hpeeks
      · intro hkept
        have hne := hnotSame hkept
        exact ⟨hdone, hiff.mpr ⟨hkept.terminated hne, hkept.peeks hne ptr hpushed.alloc⟩,
          fun hsame => absurd hsame hne⟩

end

end

/-- A native tracee. -/
def oneStringTracee : XTracee .ARCH_X86_64 where
  processVm := true
  pageSize := 0x1000
  argMax := 131072
  argMax_lt := by decide
  is32on64 := false
  word64 := by decide
  originalStackPointer := 0x8000

/-- At 0x1000 is an array of one string, which is at 0x2000. -/
def oneString : XState .ARCH_X86_64 where
  space := fun x => some (if x = 0x1001 then 0x20 else if x = 0x2000 then 0x61 else 0)
  reg := 0x1000
  stackPointer := 0x8000

theorem edits_exact_iff_write :
    ∃ items, editItems (fetchedItems [⟨0x2000, none⟩, ⟨0, none⟩]) [.write 0 [0x62]] = .ok items ∧
      EditsExact oneStringTracee oneString [⟨0x2000, none⟩, ⟨0, none⟩] items
        (pushArrayOfXPointers oneStringTracee oneString
          [⟨0x2000, some [0x62, 0]⟩, ⟨0, none⟩]) := by
  have hdone : (pushArrayOfXPointers oneStringTracee oneString
      [⟨0x2000, some [0x62, 0]⟩, ⟨0, none⟩]).2 = .ok () := by decide
  obtain ⟨items, hitems, hiff⟩ := @edits_exact_iff _ oneStringTracee oneString 2
    [⟨0x2000, none⟩, ⟨0, none⟩] [⟨0x2000, some [0x62, 0]⟩, ⟨0, none⟩] [.write 0 [0x62]]
    (by decide) (by decide) (by decide)
    (by intro status h; rw [hdone] at h; cases h)
  refine ⟨items, hitems, hiff.mpr ?_⟩
  obtain rfl : [.written [0x62, 0], .kept 0 false] = items :=
    Except.ok.inj (hitems.symm.trans (by decide)).symm
  refine ⟨fun hsame => ?_, fun _ => ⟨_, List.mem_cons_self .., rfl⟩, fun _ => ?_,
    fun _ _ _ => .inl rfl⟩
  · exact absurd hsame (by decide)
  · exact ⟨[.written [0x62, 0]], .kept 0 false, rfl, rfl, by decide⟩

/-- Where an entry is only removed, nothing is pushed, and it is still there. -/
theorem edits_dropped :
    fetchArrayOfXPointers oneStringTracee 2 oneString = .ok [⟨0x2000, none⟩, ⟨0, none⟩] ∧
      applyEdits oneStringTracee oneString.space [⟨0x2000, none⟩, ⟨0, none⟩] [.resize 1 (-1)] =
        .ok [⟨0, none⟩] ∧
      editItems (fetchedItems [⟨0x2000, none⟩, ⟨0, none⟩]) [.resize 1 (-1)] =
        .ok [Item.kept (0 : Address .ARCH_X86_64) false] ∧
      (pushArrayOfXPointers oneStringTracee oneString [⟨0, none⟩]).2 = .ok () ∧
      ¬ EditsExact oneStringTracee oneString [⟨0x2000, none⟩, ⟨0, none⟩] [.kept 0 false]
        (pushArrayOfXPointers oneStringTracee oneString [⟨0, none⟩]) := by
  have hfetch : fetchArrayOfXPointers oneStringTracee 2 oneString =
      .ok [⟨0x2000, none⟩, ⟨0, none⟩] := by decide
  have hpush : pushArrayOfXPointers oneStringTracee oneString [⟨0, none⟩] =
      (oneString, .ok ()) := push_unlocal rfl
  refine ⟨hfetch, by decide, by decide, by rw [hpush], ?_⟩
  intro hexact
  rw [hpush] at hexact
  obtain ⟨room, array, hagain, hforall⟩ := hexact.fetched
  obtain rfl := fetchXPointers_unique hfetch hagain
  have hlength := hforall.length_eq
  cases hlength

end PRoot
