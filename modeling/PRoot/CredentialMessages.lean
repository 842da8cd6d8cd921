import PRoot.Owners

/-!
# Credentials in control messages

`fake_id0` puts the ids that PRoot really has into the credentials that a tracee sends: the loop of
`extension/fake_id0/sendmsg.c` over a control buffer, beside the one of the kernel.  A word of the
tracee has `w` bytes.

* `fixCmsgs`: the loop of PRoot;
* `kernelCmsgs`: the messages that the kernel takes a buffer for;
* `fixCmsgs_eq`: what the loop makes of them.
-/

namespace PRoot

section

variable (w : Nat)

/-- `sizeof(struct msghdr)`. -/
def sizeofMsghdr : Nat := 7 * w

/-- `sizeof(struct cmsghdr)`. -/
def sizeofCmsghdr : Nat := w + 8

/-- `struct cmsghdr`. -/
structure Cmsghdr where
  len : Nat
  level : Nat
  type : Nat
  deriving DecidableEq, Repr

/-- `sendmsg_unpack_cmsghdr`. -/
def sendmsgUnpackCmsghdr (cmsg : Bytes) : Cmsghdr where
  len := littleEndian (cmsg.take w)
  level := littleEndian ((cmsg.drop w).take 4)
  type := littleEndian ((cmsg.drop (w + 4)).take 4)

/-- `SOL_SOCKET` and `SCM_CREDENTIALS`. -/
def Cmsghdr.isCredentials (cmsghdr : Cmsghdr) : Bool := cmsghdr.level = 1 && cmsghdr.type = 2

/-- The length of a message with a `struct ucred`. -/
def credentialsLen : Nat := sizeofCmsghdr w + 12

/-- "Pid is not changed as we don't fiddle with getpid()." -/
def setUcred (own : OwnIds) (cmsg : Bytes) : Bytes :=
  cmsg.take (sizeofCmsghdr w + 4) ++ (wordBytes 4 own.uid.toNat ++ wordBytes 4 own.gid.toNat) ++
    cmsg.drop (sizeofCmsghdr w + 4 + 8)

/-- `(cmsg_len + tracee_alignofmask_cmsghdr) & ~tracee_alignofmask_cmsghdr`. -/
def cmsgAlign (len : Nat) : Nat := (len + (w - 1)) / w * w

/-- How the loop ends: it may be that it never does. -/
inductive CmsgLoop
  | spins
  | malformed
  | done (cmsgBuf : Bytes) (didModify : Bool)
  deriving DecidableEq

/-- The messages before the ones that were gone through. -/
def CmsgLoop.after (first : Bytes) (didModify : Bool) : CmsgLoop → CmsgLoop
  | .done cmsgBuf modified => .done (first ++ cmsgBuf) (didModify || modified)
  | ended => ended

/-- "Iterate over control messages": what is left of the buffer is gone through. -/
def fixCmsgs (own : OwnIds) : Nat → Bytes → CmsgLoop
  | 0, rest => if rest = [] then .done [] false else .spins
  | fuel + 1, rest =>
      if rest = [] then .done [] false
      else if rest.length < sizeofCmsghdr w then .malformed
      else
        let cmsghdr := sendmsgUnpackCmsghdr w rest
        if !(sizeofCmsghdr w ≤ cmsghdr.len && cmsghdr.len ≤ rest.length) then .malformed
        else
          let next := cmsgAlign w cmsghdr.len
          if cmsghdr.isCredentials then
            if cmsghdr.len ≠ credentialsLen w then .malformed
            else (fixCmsgs own fuel (rest.drop next)).after ((setUcred w own rest).take next) true
          else (fixCmsgs own fuel (rest.drop next)).after (rest.take next) false

/-! ## The kernel -/

/-- No message is left.  For the kernel's own word size this is so as soon as no header fits
(`CMSG_NXTHDR`), while a 32-bit program on a 64-bit kernel gets an error then. -/
def kernelStops (compat : Bool) (rest : Bytes) : Bool :=
  if compat then rest = [] else rest.length < sizeofCmsghdr w

/-- The messages of a buffer, and what is left behind them, if the kernel accepts it. -/
def kernelCmsgs (compat : Bool) : Nat → Bytes → Option (List Bytes × Bytes)
  | 0, _ => none
  | fuel + 1, rest =>
      if kernelStops w compat rest then some ([], rest)
      else
        let cmsghdr := sendmsgUnpackCmsghdr w rest
        if sizeofCmsghdr w ≤ cmsghdr.len ∧ cmsghdr.len ≤ rest.length ∧
            (cmsghdr.isCredentials → cmsghdr.len = credentialsLen w) then
          let next := cmsgAlign w cmsghdr.len
          (kernelCmsgs compat fuel (rest.drop next)).map fun (messages, last) =>
            (rest.take next :: messages, last)
        else none

def hasCredentials (messages : List Bytes) : Bool :=
  messages.any fun cmsg => (sendmsgUnpackCmsghdr w cmsg).isCredentials

/-- A message with the ids that PRoot has. -/
def fixMessage (own : OwnIds) (cmsg : Bytes) : Bytes :=
  if (sendmsgUnpackCmsghdr w cmsg).isCredentials then setUcred w own cmsg else cmsg

/-- The buffer that the kernel is to get. -/
def fixedControl (own : OwnIds) (messages : List Bytes) (last : Bytes) : Bytes :=
  (messages.map (fixMessage w own)).flatten ++ last

/-! ## One beside the other -/

variable {w} {own : OwnIds} {rest : Bytes} {fuel : Nat}

theorem le_cmsgAlign (hw : 0 < w) (len : Nat) : len ≤ cmsgAlign w len := by
  unfold cmsgAlign
  have hdiv := Nat.div_add_mod (len + (w - 1)) w
  have hmod := Nat.mod_lt (len + (w - 1)) hw
  rw [Nat.mul_comm] at hdiv
  omega

/-- A header is read of its own bytes. -/
theorem sendmsgUnpackCmsghdr_take {k : Nat} (hk : sizeofCmsghdr w ≤ k) :
    sendmsgUnpackCmsghdr w (rest.take k) = sendmsgUnpackCmsghdr w rest := by
  unfold sizeofCmsghdr at hk
  unfold sendmsgUnpackCmsghdr
  rw [List.take_take, List.drop_take, List.drop_take, List.take_take, List.take_take,
    Nat.min_eq_left (show w ≤ k by omega), Nat.min_eq_left (show 4 ≤ k - w by omega),
    Nat.min_eq_left (show 4 ≤ k - (w + 4) by omega)]

theorem setUcred_take {k : Nat} (hk : credentialsLen w ≤ k) :
    setUcred w own (rest.take k) = (setUcred w own rest).take k := by
  unfold credentialsLen sizeofCmsghdr at hk
  have hids : (wordBytes 4 own.uid.toNat ++ wordBytes 4 own.gid.toNat).length = 8 := by
    rw [List.length_append, wordBytes_length, wordBytes_length]
  unfold setUcred sizeofCmsghdr
  generalize wordBytes 4 own.uid.toNat ++ wordBytes 4 own.gid.toNat = ids at hids
  rw [List.take_take, Nat.min_eq_left (show w + 8 + 4 ≤ k by omega), List.take_append,
    List.take_append, List.take_take, Nat.min_eq_right (show w + 8 + 4 ≤ k by omega),
    List.length_append, List.length_take, List.drop_take,
    List.take_of_length_le (show ids.length ≤ k - min (w + 8 + 4) rest.length by omega)]
  rcases Nat.lt_or_ge rest.length (w + 8 + 4 + 8) with hshort | hlong
  · rw [List.drop_of_length_le (by omega), List.take_nil, List.take_nil]
  · rw [Nat.min_eq_left (by omega), hids]

/-- The first message, and the others. -/
theorem fixedControl_cons {cmsg last : Bytes} {messages : List Bytes} :
    fixedControl w own (cmsg :: messages) last =
      fixMessage w own cmsg ++ fixedControl w own messages last := by
  unfold fixedControl
  rw [List.map_cons, List.flatten_cons, List.append_assoc]

/-- **The loop ends, and gives the messages new ids,** if nothing is left behind them. -/
theorem fixCmsgs_eq (hw : 0 < w) (compat : Bool) (hfuel : rest.length < fuel) :
    fixCmsgs w own fuel rest =
      match kernelCmsgs w compat fuel rest with
      | none => .malformed
      | some (messages, last) =>
          if last = [] then .done (fixedControl w own messages last) (hasCredentials w messages)
          else .malformed := by
  induction fuel generalizing rest with
  | zero => exact absurd hfuel (Nat.not_lt_zero _)
  | succ fuel ih =>
  unfold fixCmsgs kernelCmsgs
  by_cases hnil : rest = []
  · subst hnil
    have hstops : kernelStops w compat [] = true := by
      unfold kernelStops sizeofCmsghdr
      cases compat <;> simp
    rw [if_pos rfl, if_pos hstops]
    rfl
  rw [if_neg hnil]
  by_cases hshort : rest.length < sizeofCmsghdr w
  · rw [if_pos hshort]
    by_cases hstops : kernelStops w compat rest
    · rw [if_pos hstops]
      dsimp only
      rw [if_neg hnil]
    · rw [if_neg hstops]
      dsimp only
      rw [if_neg (by omega)]
  have hstops : ¬ kernelStops w compat rest := by
    unfold kernelStops
    cases compat <;> simp [hnil]
    omega
  rw [if_neg hshort, if_neg hstops]
  dsimp only
  generalize hcmsghdr : sendmsgUnpackCmsghdr w rest = cmsghdr
  by_cases hfits : sizeofCmsghdr w ≤ cmsghdr.len ∧ cmsghdr.len ≤ rest.length
  case neg =>
    rw [if_pos (by simp; omega), if_neg (fun h => hfits ⟨h.1, h.2.1⟩)]
  -- What is left for the next round is shorter.
  have hnext := le_cmsgAlign hw cmsghdr.len
  have hpos : 0 < sizeofCmsghdr w := by
    unfold sizeofCmsghdr
    omega
  have hrest := @ih (rest.drop (cmsgAlign w cmsghdr.len)) (by
    rw [List.length_drop]
    omega)
  have hheader : sendmsgUnpackCmsghdr w (rest.take (cmsgAlign w cmsghdr.len)) = cmsghdr := by
    rw [sendmsgUnpackCmsghdr_take (by omega), hcmsghdr]
  rw [if_neg (by simpa using hfits)]
  by_cases hcredentials : cmsghdr.isCredentials
  · rw [if_pos hcredentials]
    by_cases hlen : cmsghdr.len = credentialsLen w
    case neg =>
      rw [if_pos hlen, if_neg (fun h => hlen (h.2.2 hcredentials))]
    rw [if_neg (not_not_intro hlen), if_pos ⟨hfits.1, hfits.2, fun _ => hlen⟩, hrest]
    cases kernelCmsgs w compat fuel (rest.drop (cmsgAlign w cmsghdr.len)) with
    | none => rfl
    | some answer =>
        obtain ⟨messages, last⟩ := answer
        dsimp only [Option.map_some]
        have hfixed : fixMessage w own (rest.take (cmsgAlign w cmsghdr.len)) =
            (setUcred w own rest).take (cmsgAlign w cmsghdr.len) := by
          unfold fixMessage
          rw [hheader, if_pos hcredentials, setUcred_take (by omega)]
        split
        · simp only [CmsgLoop.after, fixedControl_cons, hfixed, hasCredentials, List.any_cons,
            hheader, hcredentials]
        · rfl
  · rw [if_neg hcredentials,
      if_pos ⟨hfits.1, hfits.2, fun h => absurd h hcredentials⟩, hrest]
    cases kernelCmsgs w compat fuel (rest.drop (cmsgAlign w cmsghdr.len)) with
    | none => rfl
    | some answer =>
        obtain ⟨messages, last⟩ := answer
        dsimp only [Option.map_some]
        have hkept : fixMessage w own (rest.take (cmsgAlign w cmsghdr.len)) =
            rest.take (cmsgAlign w cmsghdr.len) := by
          unfold fixMessage
          rw [hheader, if_neg hcredentials]
        split
        · simp only [CmsgLoop.after, fixedControl_cons, hkept, hasCredentials, List.any_cons,
            hheader, Bool.not_eq_true _ ▸ hcredentials, Bool.false_or]
        · rfl

theorem setUcred_length {cmsg : Bytes} (h : credentialsLen w ≤ cmsg.length) :
    (setUcred w own cmsg).length = cmsg.length := by
  unfold credentialsLen sizeofCmsghdr at h
  unfold setUcred sizeofCmsghdr
  simp only [List.length_append, List.length_take, List.length_drop, wordBytes_length]
  omega

/-- The new buffer is as long as the old one. -/
theorem fixedControl_length (hw : 0 < w) {compat : Bool} {messages : List Bytes} {last : Bytes}
    (h : kernelCmsgs w compat fuel rest = some (messages, last)) :
    (fixedControl w own messages last).length = rest.length := by
  induction fuel generalizing rest messages with
  | zero => cases h
  | succ fuel ih =>
      unfold kernelCmsgs at h
      split at h
      · cases h
        rfl
      · dsimp only at h
        split at h
        case isFalse => cases h
        case isTrue hfits =>
          obtain ⟨⟨others, last'⟩, hrest, hall⟩ := Option.map_eq_some_iff.mp h
          cases hall
          have hnext := le_cmsgAlign hw (sendmsgUnpackCmsghdr w rest).len
          rw [fixedControl_cons, List.length_append, ih hrest, List.length_drop]
          have hfirst : (fixMessage w own
              (rest.take (cmsgAlign w (sendmsgUnpackCmsghdr w rest).len))).length =
              (rest.take (cmsgAlign w (sendmsgUnpackCmsghdr w rest).len)).length := by
            unfold fixMessage
            rw [sendmsgUnpackCmsghdr_take (by omega)]
            split
            case isTrue hcredentials =>
              have hlen := hfits.2.2 hcredentials
              exact setUcred_length (by rw [List.length_take]; omega)
            case isFalse => rfl
          rw [hfirst, List.length_take]
          omega

end

end PRoot
