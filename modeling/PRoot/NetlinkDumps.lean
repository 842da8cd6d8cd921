import Mathlib.Data.List.TakeWhile
import PRoot.NetlinkMessages
import PRoot.NetlinkReplies

/-!
# Netlink dumps

The reply to a request for a dump is a sequence of whole messages that ends with `NLMSG_DONE`.

* `IsMessage`: the attributes of a message tile it;
* `fitting`: messages are appended while there is room for them;
* `IsDump`: a well-formed reply;
* `dump_wellFormed`: each reply to a request for a dump is one.
-/

namespace PRoot

/-! ## Messages -/

theorem align4_of_dvd {n : Nat} (h : n % 4 = 0) : align4 n = n := by
  unfold align4
  omega

theorem align4_mod (n : Nat) : align4 n % 4 = 0 := Nat.mul_mod_left _ _

theorem le_align4 (n : Nat) : n ≤ align4 n ∧ align4 n < n + 4 := by
  unfold align4
  omega

theorem numberAt_word {first rest : List (BitVec 8)} {offset size value : Nat}
    (h : first.length = offset) :
    numberAt (first ++ (wordBytes size value ++ rest)) offset size = value % 256 ^ size := by
  rw [numberAt, List.drop_left' h, List.take_left' (wordBytes_length ..), littleEndian_wordBytes]

/-- A message with its header. -/
def netMessage (type flags : Nat) (seq pid : BitVec 32) (body : List (BitVec 8)) :
    List (BitVec 8) :=
  nlmsghdr (16 + body.length) type flags seq pid ++ body

section

variable {type flags : Nat} {seq pid : BitVec 32} {body : List (BitVec 8)}

theorem nlmsghdr_length (len type flags : Nat) (seq pid : BitVec 32) :
    (nlmsghdr len type flags seq pid).length = 16 := by
  simp [nlmsghdr]

theorem netMessage_length : (netMessage type flags seq pid body).length = 16 + body.length := by
  rw [netMessage, List.length_append, nlmsghdr_length]

/-- The fields of a header. -/
theorem nlmsghdr_fields (len type flags : Nat) (seq pid : BitVec 32) (rest : List (BitVec 8)) :
    msgLen (nlmsghdr len type flags seq pid ++ rest) = len % 2 ^ 32 ∧
      msgType (nlmsghdr len type flags seq pid ++ rest) = type % 2 ^ 16 ∧
      msgSeq (nlmsghdr len type flags seq pid ++ rest) = seq.toNat ∧
      msgPid (nlmsghdr len type flags seq pid ++ rest) = pid.toNat := by
  have hseq := seq.isLt
  have hpid := pid.isLt
  unfold nlmsghdr msgLen msgType msgSeq msgPid
  refine ⟨?_, ?_, ?_, ?_⟩
  · simp only [List.append_assoc]
    exact @numberAt_word [] _ 0 4 len rfl
  · rw [List.append_assoc, List.append_assoc, List.append_assoc, List.append_assoc]
    exact numberAt_word (wordBytes_length ..)
  · rw [List.append_assoc, List.append_assoc, numberAt_word (by simp)]
    exact Nat.mod_eq_of_lt hseq
  · rw [List.append_assoc, numberAt_word (by simp)]
    exact Nat.mod_eq_of_lt hpid

theorem netMessage_isMessage (hbody : body.length % 4 = 0) (hlength : 16 + body.length < 2 ^ 32)
    (htype : type < 2 ^ 16)
    (hattributes : ∀ n, fixedLength type = some n → n ≤ body.length ∧ Attributes (body.drop n)) :
    IsMessage (netMessage type flags seq pid body) := by
  obtain ⟨hlen, htypeAt, -⟩ := nlmsghdr_fields (16 + body.length) type flags seq pid body
  rw [Nat.mod_eq_of_lt hlength] at hlen
  rw [Nat.mod_eq_of_lt htype] at htypeAt
  refine ⟨?_, ?_, ?_⟩
  · rw [netMessage, hlen]
    omega
  · rw [netMessage_length, netMessage, hlen, align4_of_dvd (by omega)]
  · intro n hn
    rw [netMessage, htypeAt] at hn
    obtain ⟨hle, hattributes⟩ := hattributes n hn
    rw [netMessage, hlen, List.take_of_length_le (by rw [List.length_append, nlmsghdr_length]),
      ← List.drop_drop, List.drop_left' (nlmsghdr_length ..)]
    exact ⟨by omega, hattributes⟩

end

/-! ## Attributes -/

/-- An attribute with its padding. -/
def rtattr (type : Nat) (data : List (BitVec 8)) : List (BitVec 8) :=
  wordBytes 2 (4 + data.length) ++ wordBytes 2 type ++ data
    ++ List.replicate (align4 (4 + data.length) - (4 + data.length)) 0

section

variable {type : Nat} {data : List (BitVec 8)}

theorem rtattr_length (type : Nat) (data : List (BitVec 8)) :
    (rtattr type data).length = align4 (4 + data.length) := by
  have := le_align4 (4 + data.length)
  simp [rtattr]
  omega

theorem Attributes.rtattr_append {rest : List (BitVec 8)} (hdata : 4 + data.length < 2 ^ 16)
    (hrest : Attributes rest) : Attributes (rtattr type data ++ rest) := by
  have hlen : numberAt (rtattr type data) 0 2 = 4 + data.length := by
    rw [rtattr, List.append_assoc, List.append_assoc]
    exact (@numberAt_word [] _ 0 2 _ rfl).trans (Nat.mod_eq_of_lt hdata)
  apply Attributes.cons _ _ hrest
  · rw [hlen]
    omega
  · rw [hlen, rtattr_length]

theorem nlAddAttr_eq {max : Nat} {out : List (BitVec 8)} (hdata : 4 + data.length < 2 ^ 16)
    (hroom : out.length + align4 (4 + data.length) ≤ max) :
    nlAddAttr max out type data = out ++ rtattr type data := by
  have hlength : data.length % 2 ^ 16 = data.length := Nat.mod_eq_of_lt (by omega)
  unfold nlAddAttr
  simp only [hlength]
  rw [if_neg (by omega), List.take_length, rtattr]
  simp only [List.append_assoc]

/-- Attributes, one after another. -/
def rtattrs (attrs : List (Nat × List (BitVec 8))) : List (BitVec 8) :=
  attrs.flatMap fun attr => rtattr attr.1 attr.2

theorem rtattrs_attributes {attrs : List (Nat × List (BitVec 8))}
    (h : ∀ attr ∈ attrs, 4 + attr.2.length < 2 ^ 16) : Attributes (rtattrs attrs) := by
  induction attrs with
  | nil => exact .nil
  | cons attr attrs ih =>
      rw [List.forall_mem_cons] at h
      exact .rtattr_append h.1 (ih h.2)

theorem rtattrs_mod (attrs : List (Nat × List (BitVec 8))) : (rtattrs attrs).length % 4 = 0 := by
  induction attrs with
  | nil => rfl
  | cons attr attrs ih =>
      have := align4_mod (4 + attr.2.length)
      unfold rtattrs at ih ⊢
      rw [List.flatMap_cons, List.length_append, rtattr_length]
      omega

theorem nlAddAttrs_eq {max : Nat} {out : List (BitVec 8)} {attrs : List (Nat × List (BitVec 8))}
    (h : ∀ attr ∈ attrs, 4 + attr.2.length < 2 ^ 16)
    (hroom : out.length + (rtattrs attrs).length ≤ max) :
    attrs.foldl (fun out attr => nlAddAttr max out attr.1 attr.2) out = out ++ rtattrs attrs := by
  induction attrs generalizing out with
  | nil => exact (List.append_nil _).symm
  | cons attr attrs ih =>
      rw [List.forall_mem_cons] at h
      unfold rtattrs at ih hroom ⊢
      rw [List.flatMap_cons, List.length_append, rtattr_length] at hroom
      rw [List.foldl_cons, nlAddAttr_eq h.1 (by omega), ih h.2
        (by rw [List.length_append, rtattr_length]; omega), List.flatMap_cons, List.append_assoc]

/-- The header that is written at the end is that of the message. -/
theorem nlFinish_eq {start body : List (BitVec 8)} {flags : Nat} {seq pid : BitVec 32}
    (hbody : body.length % 4 = 0) :
    nlFinish start (start ++ List.replicate 16 0 ++ body) type flags seq pid =
      start ++ netMessage type flags seq pid body := by
  have hlength : (start ++ List.replicate 16 0 ++ body).length - start.length =
      16 + body.length := by
    simp
    omega
  unfold nlFinish netMessage
  simp only [hlength]
  rw [List.drop_left' (by simp), align4_of_dvd (by omega), Nat.sub_self, List.replicate_zero,
    List.append_nil, List.append_assoc]

end

/-! ## Links and addresses -/

section

variable {max : Nat} {out : List (BitVec 8)} {seq pid : BitVec 32} {nlflags : Nat}

/-- `struct ifinfomsg` of a link. -/
def linkInfo (link : HostLink) : List (BitVec 8) :=
  let flags := link.flags ||| if link.flags &&& 0x40 ≠ 0 then 0x10000 else 0
  wordBytes 2 0 ++ wordBytes 2 link.type.toNat ++ wordBytes 4 link.index.toNat
    ++ wordBytes 4 flags.toNat ++ wordBytes 4 0

/-- The attributes of a link. -/
def linkAttrs (link : HostLink) : List (Nat × List (BitVec 8)) :=
  [(3, link.name ++ [0]), (4, wordBytes 4 link.mtu.toNat), (13, wordBytes 4 1000),
    (16, wordBytes 1 (if link.flags &&& 1 ≠ 0 then 6 else 2))]
    ++ if link.hwaddr.length > 0 then
        [(1, link.hwaddr),
          (2, List.replicate link.hwaddr.length (if link.type = 772 then 0x00 else 0xff))]
      else []

def linkMessage (nlflags : Nat) (seq pid : BitVec 32) (link : HostLink) : List (BitVec 8) :=
  netMessage rtmNewlink nlflags seq pid (linkInfo link ++ rtattrs (linkAttrs link))

/-- A link is described in full. -/
structure HostLink.Fits (link : HostLink) : Prop where
  name : link.name.length < 16
  hwaddr : link.hwaddr.length ≤ 8

theorem linkInfo_length (link : HostLink) : (linkInfo link).length = 16 := by
  simp [linkInfo]

theorem linkAttrs_fit {link : HostLink} (h : link.Fits) :
    (∀ attr ∈ linkAttrs link, 4 + attr.2.length < 2 ^ 16) ∧
      (rtattrs (linkAttrs link)).length ≤ 68 := by
  obtain ⟨hname, hhwaddr⟩ := h
  unfold linkAttrs rtattrs
  by_cases hmac : link.hwaddr.length > 0
  · rw [if_pos hmac]
    constructor
    · simp
      omega
    · simp [rtattr_length, align4]
      omega
  · rw [if_neg hmac]
    constructor
    · simp
      omega
    · simp [rtattr_length, align4]
      omega

theorem linkMessage_length {link : HostLink} (h : link.Fits) :
    (linkMessage nlflags seq pid link).length ≤ 100 := by
  have := (linkAttrs_fit h).2
  rw [linkMessage, netMessage_length, List.length_append, linkInfo_length]
  omega

theorem linkMessage_isMessage {link : HostLink} (h : link.Fits) :
    IsMessage (linkMessage nlflags seq pid link) := by
  obtain ⟨hattrs, hlength⟩ := linkAttrs_fit h
  have hmod := rtattrs_mod (linkAttrs link)
  apply netMessage_isMessage
  · rw [List.length_append, linkInfo_length]
    omega
  · rw [List.length_append, linkInfo_length]
    omega
  · decide
  · intro n hn
    obtain rfl : 16 = n := Option.some.inj hn
    rw [List.length_append, List.drop_left' (linkInfo_length _), linkInfo_length]
    exact ⟨by omega, rtattrs_attributes hattrs⟩

theorem nlBuildLink_eq {link : HostLink} (h : link.Fits) (hroom : out.length + 256 ≤ max) :
    nlBuildLink max out seq pid nlflags link = out ++ linkMessage nlflags seq pid link := by
  obtain ⟨hattrs, hlength⟩ := linkAttrs_fit h
  have hmod := rtattrs_mod (linkAttrs link)
  have hadd := @nlAddAttrs_eq max (out ++ List.replicate 16 0 ++ linkInfo link) _ hattrs (by
    simp [linkInfo_length]
    omega)
  rw [linkMessage, ← nlFinish_eq (by rw [List.length_append, linkInfo_length]; omega),
    ← List.append_assoc, ← hadd]
  unfold nlBuildLink
  rw [if_neg (by omega)]
  unfold linkAttrs
  by_cases hmac : link.hwaddr.length > 0
  · simp only [if_pos hmac]
    rfl
  · simp only [if_neg hmac]
    rfl

/-- `struct ifaddrmsg` of an address. -/
def addrInfo (address : HostAddr) : List (BitVec 8) :=
  wordBytes 1 address.family ++ wordBytes 1 address.prefixlen ++ wordBytes 1 0x80
    ++ wordBytes 1 address.scope ++ wordBytes 4 address.index.toNat

/-- The attributes of an address. -/
def addrAttrs (address : HostAddr) : List (Nat × List (BitVec 8)) :=
  [(1, address.addr), (2, address.addr)]
    ++ match address.label with
      | some label => if address.family = 2 then [(3, label ++ [0])] else []
      | none => []

def addrMessage (nlflags : Nat) (seq pid : BitVec 32) (address : HostAddr) : List (BitVec 8) :=
  netMessage rtmNewaddr nlflags seq pid (addrInfo address ++ rtattrs (addrAttrs address))

/-- An address is described in full. -/
structure HostAddr.Fits (address : HostAddr) : Prop where
  addr : address.addr.length ≤ 16
  label : ∀ label, address.label = some label → label.length < 16

theorem addrInfo_length (address : HostAddr) : (addrInfo address).length = 8 := by
  simp [addrInfo]

theorem addrAttrs_fit {address : HostAddr} (h : address.Fits) :
    (∀ attr ∈ addrAttrs address, 4 + attr.2.length < 2 ^ 16) ∧
      (rtattrs (addrAttrs address)).length ≤ 60 := by
  obtain ⟨haddr, hlabel⟩ := h
  unfold addrAttrs rtattrs
  cases hname : address.label with
  | none =>
      constructor
      · simp
        omega
      · simp [rtattr_length, align4]
        omega
  | some label =>
      have hlabel := hlabel label hname
      dsimp only
      split
      · constructor
        · simp
          omega
        · simp [rtattr_length, align4]
          omega
      · constructor
        · simp
          omega
        · simp [rtattr_length, align4]
          omega

theorem addrMessage_length {address : HostAddr} (h : address.Fits) :
    (addrMessage nlflags seq pid address).length ≤ 84 := by
  have := (addrAttrs_fit h).2
  rw [addrMessage, netMessage_length, List.length_append, addrInfo_length]
  omega

theorem addrMessage_isMessage {address : HostAddr} (h : address.Fits) :
    IsMessage (addrMessage nlflags seq pid address) := by
  obtain ⟨hattrs, hlength⟩ := addrAttrs_fit h
  have hmod := rtattrs_mod (addrAttrs address)
  apply netMessage_isMessage
  · rw [List.length_append, addrInfo_length]
    omega
  · rw [List.length_append, addrInfo_length]
    omega
  · decide
  · intro n hn
    obtain rfl : 8 = n := Option.some.inj hn
    rw [List.length_append, List.drop_left' (addrInfo_length _), addrInfo_length]
    exact ⟨by omega, rtattrs_attributes hattrs⟩

theorem nlBuildAddr_eq {address : HostAddr} (h : address.Fits) (hroom : out.length + 256 ≤ max) :
    nlBuildAddr max out seq pid nlflags address =
      out ++ addrMessage nlflags seq pid address := by
  obtain ⟨hattrs, hlength⟩ := addrAttrs_fit h
  have hmod := rtattrs_mod (addrAttrs address)
  have hadd := @nlAddAttrs_eq max (out ++ List.replicate 16 0 ++ addrInfo address) _ hattrs (by
    simp [addrInfo_length]
    omega)
  rw [addrMessage, ← nlFinish_eq (by rw [List.length_append, addrInfo_length]; omega),
    ← List.append_assoc, ← hadd]
  unfold nlBuildAddr
  rw [if_neg (by omega)]
  unfold addrAttrs
  cases hname : address.label with
  | none => rfl
  | some label =>
      dsimp only
      by_cases hfamily : address.family = 2
      · simp only [if_pos hfamily]
        rfl
      · simp only [if_neg hfamily]
        rfl

end

/-! ## Messages while there is room -/

section

variable (max : Nat) (needs : List (BitVec 8) → Nat)

/-- The messages for which there is what each of them needs, up to the first one for which there
is not. -/
def fitting : Nat → List (List (BitVec 8)) → List (List (BitVec 8))
  | _, [] => []
  | off, message :: messages =>
      if off + needs message > max then []
      else message :: fitting (off + message.length) messages

variable {max needs}

theorem fitting_start (off : Nat) (messages : List (List (BitVec 8))) :
    fitting max needs off messages <+: messages := by
  induction messages generalizing off with
  | nil => exact List.prefix_rfl
  | cons message messages ih =>
      unfold fitting
      split
      · exact List.nil_prefix
      · exact List.cons_prefix_cons.mpr ⟨rfl, ih _⟩

/-- What is left behind is what is needed less what is taken. -/
theorem fitting_length {reserve off : Nat} {messages : List (List (BitVec 8))}
    (hneeds : ∀ message ∈ messages, message.length + reserve ≤ needs message)
    (hoff : off + reserve ≤ max) :
    off + (fitting max needs off messages).flatten.length + reserve ≤ max := by
  induction messages generalizing off with
  | nil => simpa [fitting] using hoff
  | cons message messages ih =>
      rw [List.forall_mem_cons] at hneeds
      unfold fitting
      split
      · simpa using hoff
      · have := @ih (off + message.length) hneeds.2 (by omega)
        rw [List.flatten_cons, List.length_append]
        omega

/-- A message is left out where there is not what it needs. -/
theorem fitting_next {off : Nat} {messages : List (List (BitVec 8))} {message : List (BitVec 8)}
    (h : messages[(fitting max needs off messages).length]? = some message) :
    max < off + (fitting max needs off messages).flatten.length + needs message := by
  induction messages generalizing off with
  | nil => cases h
  | cons first messages ih =>
      unfold fitting at h ⊢
      by_cases hroom : off + needs first > max
      · rw [if_pos hroom] at h ⊢
        obtain rfl := Option.some.inj h
        simpa using hroom
      · rw [if_neg hroom] at h ⊢
        rw [List.length_cons, List.getElem?_cons_succ] at h
        have := ih h
        rw [List.flatten_cons, List.length_append]
        omega

end

/-! ## Dumps of interfaces -/

variable {wantFamily : Nat}

namespace NetHost

variable (N : NetHost) (max : Nat) (seq pid : BitVec 32)

/-- The links of all the interfaces, each one once. -/
def dueLinks : List IfAddrs → List (List (BitVec 8)) → List (List (BitVec 8))
  | [], _ => []
  | ifa :: ifaddr, seen =>
      match ifa.name with
      | none => dueLinks ifaddr seen
      | some name =>
          if name ∈ seen then dueLinks ifaddr seen
          else
            linkMessage nlmFMulti seq pid (N.hostLink ifa name) ::
              dueLinks ifaddr (if seen.length < 64 then seen ++ [name.take 15] else seen)

/-- The addresses of a family, or all of them. -/
def dueAddrs (wantFamily : Nat) (ifaddr : List IfAddrs) : List (List (BitVec 8)) :=
  (ifaddr.filterMap (N.hostAddr wantFamily)).map (addrMessage nlmFMulti seq pid)

variable {N max seq pid}

@[simp] theorem dueLinks_nil (seen : List (List (BitVec 8))) : N.dueLinks seq pid [] seen = [] :=
  rfl

theorem dueLinks_cons (ifa : IfAddrs) (ifaddr : List IfAddrs) (seen : List (List (BitVec 8))) :
    N.dueLinks seq pid (ifa :: ifaddr) seen =
      match ifa.name with
      | none => N.dueLinks seq pid ifaddr seen
      | some name =>
          if name ∈ seen then N.dueLinks seq pid ifaddr seen
          else
            linkMessage nlmFMulti seq pid (N.hostLink ifa name) ::
              N.dueLinks seq pid ifaddr
                (if seen.length < 64 then seen ++ [name.take 15] else seen) :=
  rfl

theorem hostLink_fits {ifa : IfAddrs} {name : List (BitVec 8)} (h : ifa.name = some name) :
    (N.hostLink ifa name).Fits := by
  have hname := ifa.name_lt name h
  have hioctl := N.hwaddr_length (name.take 15)
  unfold hostLink
  constructor
  · exact hname
  · have hmac : ∀ parts : BitVec 32 × BitVec 16 × List (BitVec 8), parts.2.2.length ≤ 8 →
        (if N.hasSocket ∧ parts.2.2 = [] then
          (N.siocgifhwaddr (name.take 15)).getD (parts.2.1, parts.2.2)
          else (parts.2.1, parts.2.2)).2.length ≤ 8 := by
      intro parts hparts
      split
      · cases hanswer : N.siocgifhwaddr (name.take 15) with
        | none => exact hparts
        | some answer =>
            rw [Option.getD_some, hioctl answer hanswer]
            omega
      · exact hparts
    apply hmac
    split
    · dsimp only
      split
      case isTrue hsize => exact hsize.2
      case isFalse => exact Nat.zero_le _
    · exact Nat.zero_le _

theorem hostAddr_fits {ifa : IfAddrs} {address : HostAddr}
    (h : N.hostAddr wantFamily ifa = some address) : address.Fits := by
  unfold hostAddr at h
  split at h
  case h_1 name addr hname haddr =>
    have hfits : ∀ family (bytes : List (BitVec 8)), bytes.length ≤ 16 →
        (HostAddr.mk family (N.ifNametoindex name) bytes (match ifa.netmask with
          | some mask => nlPrefixlen (mask.take bytes.length)
          | none => if family = 2 then 32 else 128) (nlAddrScope family bytes) (some name)).Fits :=
      fun family bytes hbytes =>
        ⟨hbytes, fun label hlabel => Option.some.inj hlabel ▸ ifa.name_lt name hname⟩
    cases addr with
    | inet bytes hbytes =>
        dsimp only at h
        split at h
        · cases h
        · obtain rfl := Option.some.inj h
          exact hfits 2 bytes (by omega)
    | inet6 bytes hbytes =>
        dsimp only at h
        split at h
        · cases h
        · obtain rfl := Option.some.inj h
          exact hfits 10 bytes (by omega)
    | packet | other => cases h
  case h_2 => cases h

theorem hostLinks_eq (ifaddr : List IfAddrs) (seen : List (List (BitVec 8)))
    (out : List (BitVec 8)) (built : Nat) :
    N.hostLinks max seq pid [] 0 true ifaddr seen out built =
      (out ++ (fitting max (fun _ => 256) out.length (N.dueLinks seq pid ifaddr seen)).flatten,
        built +
          (fitting max (fun _ => 256) out.length (N.dueLinks seq pid ifaddr seen)).length) := by
  induction ifaddr generalizing seen out built with
  | nil => simp [hostLinks, fitting]
  | cons ifa ifaddr ih =>
      unfold hostLinks
      rw [dueLinks_cons]
      cases hname : ifa.name with
      | none => exact ih seen out built
      | some name =>
          dsimp only
          by_cases hseen : name ∈ seen
          · rw [if_pos hseen, if_pos hseen]
            exact ih seen out built
          · rw [if_neg hseen, if_neg hseen, if_neg (by simp)]
            unfold fitting
            by_cases hroom : out.length + 256 > max
            · rw [if_pos hroom, if_pos hroom]
              simp
            · rw [if_neg hroom, if_neg hroom, if_pos rfl, if_neg (by simp),
                nlBuildLink_eq (hostLink_fits hname) (by omega), ih]
              simp [Nat.add_assoc, Nat.add_comm 1]

theorem hostAddrs_eq (ifaddr : List IfAddrs) (out : List (BitVec 8)) (built : Nat) :
    N.hostAddrs max seq pid wantFamily true ifaddr out built =
      (out ++
          (fitting max (fun _ => 256) out.length (N.dueAddrs seq pid wantFamily ifaddr)).flatten,
        built +
          (fitting max (fun _ => 256) out.length
            (N.dueAddrs seq pid wantFamily ifaddr)).length) := by
  induction ifaddr generalizing out built with
  | nil => simp [hostAddrs, dueAddrs, fitting]
  | cons ifa ifaddr ih =>
      unfold dueAddrs at ih ⊢
      unfold hostAddrs
      rw [List.filterMap_cons]
      cases haddr : N.hostAddr wantFamily ifa with
      | none => exact ih out built
      | some address =>
          dsimp only
          rw [List.map_cons]
          unfold fitting
          by_cases hroom : out.length + 256 > max
          · rw [if_pos hroom, if_pos hroom]
            simp
          · rw [if_neg hroom, if_neg hroom, if_pos rfl,
              nlBuildAddr_eq (hostAddr_fits haddr) (by omega), ih]
            simp [Nat.add_assoc, Nat.add_comm 1]

theorem buildHostLinks_eq : N.buildHostLinks max seq pid [] 0 true =
    ((fitting max (fun _ => 256) 0 (N.dueLinks seq pid (N.interfaces.getD []) [])).flatten,
      (fitting max (fun _ => 256) 0 (N.dueLinks seq pid (N.interfaces.getD []) [])).length) := by
  unfold buildHostLinks
  cases N.interfaces with
  | none => rfl
  | some ifaddr => simp [hostLinks_eq]

theorem buildHostAddrs_eq : N.buildHostAddrs max seq pid wantFamily true =
    ((fitting max (fun _ => 256) 0 (N.dueAddrs seq pid wantFamily (N.interfaces.getD []))).flatten,
      (fitting max (fun _ => 256) 0
        (N.dueAddrs seq pid wantFamily (N.interfaces.getD []))).length) := by
  unfold buildHostAddrs
  cases N.interfaces with
  | none => rfl
  | some ifaddr => simp [hostAddrs_eq]

end NetHost

/-! ## Dumps of routes -/

/-- The whole messages of a datagram. -/
def wholeMessages : Nat → List (BitVec 8) → List (List (BitVec 8))
  | 0, _ => []
  | left + 1, datagram =>
      if !nlmsgOk datagram then []
      else
        datagram.take (align4 (msgLen datagram)) ::
          wholeMessages left (datagram.drop (align4 (msgLen datagram)))

/-- The messages that are received in some rounds. -/
def receivedMessages (recv : Nat → Option (List (BitVec 8))) : Nat → List (List (BitVec 8))
  | 0 => []
  | left + 1 =>
      match recv (64 - (left + 1)) with
      | none => []
      | some datagram => wholeMessages datagram.length datagram ++ receivedMessages recv left

/-- A whole message that is relayed with its padding. -/
def relayedWhole (seq pid : BitVec 32) (message : List (BitVec 8)) : List (BitVec 8) :=
  relayedMessage seq pid (message.take (msgLen message))
    ++ List.replicate (message.length - msgLen message) 0

/-- The relay of whole messages. -/
def relayWhole (max : Nat) (seq pid : BitVec 32) :
    List (List (BitVec 8)) → List (BitVec 8) → List (BitVec 8) × Bool × Bool
  | [], out => (out, false, false)
  | message :: messages, out =>
      if out.length + message.length + 64 > max then (out, true, false)
      else
        let out := out ++ relayedWhole seq pid message
        if msgType message = nlmsgDone then (out, true, true)
        else relayWhole max seq pid messages out

section

variable {max : Nat} {seq pid : BitVec 32}

theorem numberAt_append {bytes rest : List (BitVec 8)} {offset size : Nat}
    (h : offset + size ≤ bytes.length) :
    numberAt (bytes ++ rest) offset size = numberAt bytes offset size := by
  rw [numberAt, numberAt, List.drop_append_of_le_length (by omega),
    List.take_append_of_le_length (by rw [List.length_drop]; omega)]

theorem numberAt_take {bytes : List (BitVec 8)} {offset size n : Nat} (h : offset + size ≤ n) :
    numberAt (bytes.take n) offset size = numberAt bytes offset size := by
  rw [numberAt, numberAt, List.drop_take, List.take_take, Nat.min_eq_left (by omega)]

theorem IsMessage.length {message : List (BitVec 8)} (h : IsMessage message) :
    16 ≤ message.length ∧ msgLen message ≤ message.length := by
  have := le_align4 (msgLen message)
  have hheader := h.header
  rw [h.tiles]
  omega

theorem IsMessage.ok {message : List (BitVec 8)} (h : IsMessage message)
    (rest : List (BitVec 8)) : nlmsgOk (message ++ rest) = true ∧
      msgLen (message ++ rest) = msgLen message ∧ msgType (message ++ rest) = msgType message := by
  obtain ⟨hlength, hle⟩ := h.length
  have hlen : msgLen (message ++ rest) = msgLen message := numberAt_append (by omega)
  refine ⟨?_, hlen, numberAt_append (by omega)⟩
  have hheader := h.header
  rw [nlmsgOk, hlen, List.length_append]
  simp
  omega

theorem relayedMessage_length {bytes : List (BitVec 8)} (h : 16 ≤ bytes.length) :
    (relayedMessage seq pid bytes).length = bytes.length := by
  simp [relayedMessage]
  omega

theorem relayedWhole_length {message : List (BitVec 8)} (h : IsMessage message) :
    (relayedWhole seq pid message).length = message.length := by
  obtain ⟨hlength, hle⟩ := h.length
  have hheader := h.header
  have htake : (message.take (msgLen message)).length = msgLen message := by
    rw [List.length_take]
    omega
  rw [relayedWhole, List.length_append, relayedMessage_length (by omega), htake,
    List.length_replicate]
  omega

/-- A relayed message is a message, with another sequence number and port. -/
theorem relayedWhole_isMessage {message : List (BitVec 8)} (h : IsMessage message) :
    IsMessage (relayedWhole seq pid message) ∧
      msgType (relayedWhole seq pid message) = msgType message ∧
      msgSeq (relayedWhole seq pid message) = seq.toNat ∧
      msgPid (relayedWhole seq pid message) = pid.toNat := by
  obtain ⟨hlength, hle⟩ := h.length
  have hheader := h.header
  have hlengthRelayed := @relayedWhole_length seq pid _ h
  generalize hzeros : List.replicate (message.length - msgLen message) (0 : BitVec 8) = zeros at *
  have htake : (message.take (msgLen message)).take 8 = message.take 8 := by
    rw [List.take_take, Nat.min_eq_left (by omega)]
  have heq : relayedWhole seq pid message = message.take 8 ++ (wordBytes 4 seq.toNat
      ++ (wordBytes 4 pid.toNat ++ ((message.take (msgLen message)).drop 16 ++ zeros))) := by
    rw [relayedWhole, relayedMessage, htake, hzeros]
    simp only [List.append_assoc]
  have height : (message.take 8).length = 8 := by
    rw [List.length_take]
    omega
  have hlen : msgLen (relayedWhole seq pid message) = msgLen message := by
    rw [heq, msgLen, numberAt_append (by omega), numberAt_take (by omega)]
    rfl
  have htype : msgType (relayedWhole seq pid message) = msgType message := by
    rw [heq, msgType, numberAt_append (by omega), numberAt_take (by omega)]
    rfl
  refine ⟨⟨by omega, ?_, ?_⟩, htype, ?_, ?_⟩
  · rw [hlengthRelayed, hlen, h.tiles]
  · intro n hn
    rw [htype] at hn
    obtain ⟨hfixed, hattributes⟩ := h.attributes n hn
    refine ⟨by omega, ?_⟩
    have hsame : ((relayedWhole seq pid message).take (msgLen message)).drop (16 + n) =
        (message.take (msgLen message)).drop (16 + n) := by
      have hparts : relayedWhole seq pid message = (message.take 8 ++ wordBytes 4 seq.toNat
          ++ wordBytes 4 pid.toNat ++ (message.take (msgLen message)).drop 16) ++ zeros := by
        rw [heq]
        simp only [List.append_assoc]
      rw [hparts, List.take_left' (by simp; omega), ← List.drop_drop,
        List.drop_left' (by simp; omega), List.drop_drop]
    rw [hlen, hsame]
    exact hattributes
  · rw [heq, msgSeq, numberAt_word height]
    exact Nat.mod_eq_of_lt seq.isLt
  · rw [heq, msgPid, ← List.append_assoc, numberAt_word (by simp; omega)]
    exact Nat.mod_eq_of_lt pid.isLt

theorem wholeMessages_eq {messages : List (List (BitVec 8))} {rest : List (BitVec 8)} {left : Nat}
    (h : ∀ message ∈ messages, IsMessage message) (hrest : nlmsgOk rest = false)
    (hleft : messages.length ≤ left) :
    wholeMessages left (messages.flatten ++ rest) = messages := by
  induction messages generalizing left with
  | nil =>
      cases left with
      | zero => rfl
      | succ left => exact if_pos (by simp [hrest])
  | cons message messages ih =>
      rw [List.forall_mem_cons] at h
      cases left with
      | zero => cases hleft
      | succ left =>
          obtain ⟨hok, hlen, -⟩ := h.1.ok (messages.flatten ++ rest)
          rw [List.flatten_cons, List.append_assoc, wholeMessages, hok, hlen, ← h.1.tiles,
            List.take_left, List.drop_left, ih h.2 (Nat.le_of_succ_le_succ hleft)]
          rfl

/-- Whole messages are relayed one after another. -/
theorem relayMessages_eq {messages : List (List (BitVec 8))} {rest : List (BitVec 8)} {left : Nat}
    (h : ∀ message ∈ messages, IsMessage message) (hrest : nlmsgOk rest = false)
    (hleft : messages.length ≤ left) (out : List (BitVec 8)) :
    relayMessages max seq pid left (messages.flatten ++ rest) out =
      some (relayWhole max seq pid messages out) := by
  induction messages generalizing left out with
  | nil =>
      cases left with
      | zero => rfl
      | succ left => exact if_pos (by simp [hrest])
  | cons message messages ih =>
      rw [List.forall_mem_cons] at h
      cases left with
      | zero => cases hleft
      | succ left =>
          obtain ⟨hok, hlen, htype⟩ := h.1.ok (messages.flatten ++ rest)
          obtain ⟨-, hle⟩ := h.1.length
          rw [List.flatten_cons, List.append_assoc, relayMessages, hok, if_neg (by simp)]
          dsimp only
          rw [hlen, htype, ← h.1.tiles, relayWhole]
          split
          · rfl
          · rw [List.take_append_of_le_length hle, List.append_assoc]
            change (if msgType message = nlmsgDone then
              some (out ++ relayedWhole seq pid message, true, true) else _) = _
            split
            · rfl
            · rw [if_neg (by rw [List.length_append]; omega), List.drop_left,
                ih h.2 (Nat.le_of_succ_le_succ hleft)]
              rfl

theorem length_le_flatten {messages : List (List (BitVec 8))}
    (h : ∀ message ∈ messages, IsMessage message) :
    messages.length ≤ messages.flatten.length := by
  induction messages with
  | nil => exact Nat.le_refl _
  | cons message messages ih =>
      rw [List.forall_mem_cons] at h
      have := h.1.length
      have := ih h.2
      rw [List.length_cons, List.flatten_cons, List.length_append]
      omega

theorem relayWhole_append (first rest : List (List (BitVec 8))) (out : List (BitVec 8)) :
    relayWhole max seq pid (first ++ rest) out =
      if (relayWhole max seq pid first out).2.1 then relayWhole max seq pid first out
      else relayWhole max seq pid rest (relayWhole max seq pid first out).1 := by
  induction first generalizing out with
  | nil => rfl
  | cons message first ih =>
      rw [List.cons_append, relayWhole, relayWhole]
      split
      · rfl
      · dsimp only
        split
        · rfl
        · exact ih _

/-- All the messages that are received are whole ones, and are relayed one after another. -/
theorem relayRounds_eq {recv : Nat → Option (List (BitVec 8))}
    (hrecv : ∀ i bytes, recv i = some bytes → KernelDatagram bytes) (left : Nat)
    (out : List (BitVec 8)) :
    (∀ message ∈ receivedMessages recv left, IsMessage message) ∧
      relayRounds max seq pid recv left out =
        some ((relayWhole max seq pid (receivedMessages recv left) out).1,
          (relayWhole max seq pid (receivedMessages recv left) out).2.2) := by
  induction left generalizing out with
  | zero => exact ⟨fun message hmem => (List.not_mem_nil hmem).elim, rfl⟩
  | succ left ih =>
      unfold receivedMessages relayRounds
      cases hanswer : recv (64 - (left + 1)) with
      | none => exact ⟨fun message hmem => (List.not_mem_nil hmem).elim, rfl⟩
      | some datagram =>
          obtain ⟨messages, rest, rfl, hmessages, hrest⟩ := hrecv _ _ hanswer
          have hleft : messages.length ≤ (messages.flatten ++ rest).length := by
            rw [List.length_append]
            exact Nat.le_add_right_of_le (length_le_flatten hmessages)
          dsimp only
          rw [wholeMessages_eq hmessages hrest hleft, relayMessages_eq hmessages hrest hleft,
            relayWhole_append]
          constructor
          · intro message hmem
            rcases List.mem_append.mp hmem with hmem | hmem
            · exact hmessages message hmem
            · exact (ih out).1 message hmem
          · obtain ⟨reply, done, sawDone⟩ := relayWhole max seq pid messages out
            cases done with
            | true => rfl
            | false => exact (ih reply).2

/-- What was relayed: the messages before the end of the dump, as far as there is room, and that
end if there is room for it. -/
theorem relayWhole_spec {messages : List (List (BitVec 8))}
    (h : ∀ message ∈ messages, IsMessage message) {out : List (BitVec 8)}
    (hout : out.length + 64 ≤ max) :
    ∃ ending, (relayWhole max seq pid messages out).1 =
        out ++ (fitting max (fun message => message.length + 64) out.length
          ((messages.takeWhile fun message => msgType message ≠ nlmsgDone).map
            (relayedWhole seq pid))).flatten ++ ending ∧
      (relayWhole max seq pid messages out).1.length + 64 ≤ max ∧
      if (relayWhole max seq pid messages out).2.2 then
        ∃ done, IsMessage done ∧ msgType done = nlmsgDone ∧ ending = relayedWhole seq pid done
      else ending = [] := by
  induction messages generalizing out with
  | nil => exact ⟨[], by simp [relayWhole, fitting], hout, rfl⟩
  | cons message messages ih =>
      rw [List.forall_mem_cons] at h
      have hlength := @relayedWhole_length seq pid message h.1
      unfold relayWhole
      rw [List.takeWhile_cons]
      by_cases hroom : out.length + message.length + 64 > max
      · rw [if_pos hroom]
        refine ⟨[], ?_, hout, rfl⟩
        split
        · rw [List.map_cons, fitting, if_pos (by rw [hlength]; omega)]
          simp
        · simp [fitting]
      · rw [if_neg hroom]
        dsimp only
        have hnext : (out ++ relayedWhole seq pid message).length + 64 ≤ max := by
          rw [List.length_append]
          omega
        by_cases hdone : msgType message = nlmsgDone
        · rw [if_pos hdone, if_neg (by simp [hdone])]
          refine ⟨relayedWhole seq pid message, by simp [fitting], hnext, ?_⟩
          exact ⟨message, h.1, hdone, rfl⟩
        · rw [if_neg hdone, if_pos (by simp [hdone]), List.map_cons, fitting,
            if_neg (by rw [hlength]; omega)]
          obtain ⟨ending, hreply, hfits, hending⟩ := ih h.2 hnext
          refine ⟨ending, ?_, hfits, hending⟩
          rw [hreply, List.length_append]
          simp

end

/-! ## Replies -/

/-- What ends a dump. -/
def doneMessage (seq pid : BitVec 32) : List (BitVec 8) :=
  netMessage nlmsgDone nlmFMulti seq pid (wordBytes 4 0)

/-- A message of a reply. -/
structure IsAnswer (seq pid : BitVec 32) (message : List (BitVec 8)) : Prop where
  whole : IsMessage message
  hasSeq : msgSeq message = seq.toNat
  hasPid : msgPid message = pid.toNat

/-- **A well-formed reply**: it fits in its buffer; whole messages tile it, each with the sequence
number of the request and the port of the tracee; the last one is the only `NLMSG_DONE`.  Before it
are the messages that are due, but for those at the end for which there was no room. -/
structure IsDump (seq pid : BitVec 32) (due : List (List (BitVec 8))) (reply : List (BitVec 8))
    (front : List (List (BitVec 8))) (done : List (BitVec 8)) : Prop where
  fits : reply.length ≤ maxFakeNetlinkReply
  tiles : reply = (front ++ [done]).flatten
  answers : ∀ message ∈ front ++ [done], IsAnswer seq pid message
  ends : msgType done = nlmsgDone
  once : ∀ message ∈ front, msgType message ≠ nlmsgDone
  inOrder : front <+: due
  leftOut : ∀ message, due[front.length]? = some message →
    maxFakeNetlinkReply < front.flatten.length + message.length + 256

/-- The messages that are due in the reply to a request for a dump: what the host tells, or the
loopback interface where it tells nothing. -/
def dueMessages (N : NetHost) (pid : BitVec 32) (req : List (BitVec 8)) :
    List (List (BitVec 8)) :=
  let type := msgType req
  let seq := BitVec.ofNat 32 (msgSeq req)
  let family := (req.getD 16 0).toNat
  if type = rtmGetlink then
    let links := N.dueLinks seq pid (N.interfaces.getD []) []
    if links = [] then [linkMessage nlmFMulti seq pid loopbackLink]
    else links
  else if type = rtmGetaddr then
    let wantFamily := if family = 2 ∨ family = 10 then family else 0
    let addrs := N.dueAddrs seq pid wantFamily (N.interfaces.getD [])
    if addrs = [] then
      (if family = 0 ∨ family = 2 then [addrMessage nlmFMulti seq pid loopbackAddr4] else [])
        ++ (if family = 0 ∨ family = 10 then [addrMessage nlmFMulti seq pid loopbackAddr6] else [])
    else addrs
  else if type = rtmGetroute then
    match N.routes (req.getD 16 0) seq with
    | none => []
    | some recv =>
        ((receivedMessages recv 64).takeWhile fun message => msgType message ≠ nlmsgDone).map
          (relayedWhole seq pid)
  else []

section

variable {seq pid : BitVec 32} {N : NetHost}

theorem netMessage_isAnswer {type flags : Nat} {body : List (BitVec 8)}
    (h : IsMessage (netMessage type flags seq pid body)) :
    IsAnswer seq pid (netMessage type flags seq pid body) :=
  have hfields := nlmsghdr_fields (16 + body.length) type flags seq pid body
  ⟨h, hfields.2.2.1, hfields.2.2.2⟩

theorem doneMessage_isAnswer : IsAnswer seq pid (doneMessage seq pid) := by
  apply netMessage_isAnswer
  apply netMessage_isMessage
  · simp
  · simp
  · decide
  · intro n hn
    cases hn

theorem doneMessage_type : msgType (doneMessage seq pid) = nlmsgDone :=
  (nlmsghdr_fields 20 nlmsgDone nlmFMulti seq pid (wordBytes 4 0)).2.1

theorem nlBuildDone_eq {max : Nat} {out : List (BitVec 8)} (hroom : out.length + 20 ≤ max) :
    nlBuildDone max out seq pid = out ++ doneMessage seq pid := by
  unfold nlBuildDone
  rw [if_neg (by rw [align4_of_dvd (by omega)]; omega), List.append_assoc]
  rfl

/-- Messages that are due, each one an answer of its own. -/
def AnswersDue (seq pid : BitVec 32) (due : List (List (BitVec 8))) : Prop :=
  ∀ message ∈ due, IsAnswer seq pid message ∧ msgType message ≠ nlmsgDone

variable {due : List (List (BitVec 8))}

/-- A reply is what fits of the messages that are due, and an end. -/
theorem isDump_fitting {needs : List (BitVec 8) → Nat} {done : List (BitVec 8)}
    (hdue : AnswersDue seq pid due) (hneeds : ∀ message ∈ due, needs message ≤ message.length + 256)
    (hdone : IsAnswer seq pid done) (htype : msgType done = nlmsgDone)
    (hfits : ((fitting maxFakeNetlinkReply needs 0 due).flatten ++ done).length ≤
      maxFakeNetlinkReply) :
    IsDump seq pid due ((fitting maxFakeNetlinkReply needs 0 due).flatten ++ done)
      (fitting maxFakeNetlinkReply needs 0 due) done := by
  have hstart := @fitting_start maxFakeNetlinkReply needs 0 due
  refine ⟨hfits, by simp, ?_, htype, fun message hmem => (hdue message (hstart.subset hmem)).2,
    hstart, ?_⟩
  · intro message hmem
    rcases List.mem_append.mp hmem with hmem | hmem
    · exact (hdue message (hstart.subset hmem)).1
    · rw [List.mem_singleton.mp hmem]
      exact hdone
  · intro message hnext
    have hroom := fitting_next hnext
    have := hneeds message (List.mem_of_getElem? hnext)
    omega

/-- The end fits where each message leaves room for it. -/
theorem isDump_done {needs : List (BitVec 8) → Nat} (hdue : AnswersDue seq pid due)
    (hneeds : ∀ message ∈ due, needs message ≤ message.length + 256)
    (hreserve : ∀ message ∈ due, message.length + 64 ≤ needs message) :
    IsDump seq pid due
      (nlBuildDone maxFakeNetlinkReply (fitting maxFakeNetlinkReply needs 0 due).flatten seq pid)
      (fitting maxFakeNetlinkReply needs 0 due) (doneMessage seq pid) := by
  have hroom := fitting_length hreserve (show 0 + 64 ≤ maxFakeNetlinkReply by decide)
  rw [nlBuildDone_eq (by omega)]
  apply isDump_fitting hdue hneeds doneMessage_isAnswer doneMessage_type
  rw [List.length_append, doneMessage, netMessage_length, wordBytes_length]
  omega

theorem linkMessage_due {link : HostLink} (h : link.Fits) :
    IsAnswer seq pid (linkMessage nlmFMulti seq pid link) ∧
      msgType (linkMessage nlmFMulti seq pid link) ≠ nlmsgDone := by
  refine ⟨netMessage_isAnswer (linkMessage_isMessage h), ?_⟩
  rw [linkMessage, netMessage, (nlmsghdr_fields _ _ _ _ _ _).2.1]
  decide

theorem addrMessage_due {address : HostAddr} (h : address.Fits) :
    IsAnswer seq pid (addrMessage nlmFMulti seq pid address) ∧
      msgType (addrMessage nlmFMulti seq pid address) ≠ nlmsgDone := by
  refine ⟨netMessage_isAnswer (addrMessage_isMessage h), ?_⟩
  rw [addrMessage, netMessage, (nlmsghdr_fields _ _ _ _ _ _).2.1]
  decide

/-- Each link that is due is the message of an interface. -/
theorem mem_dueLinks {ifaddr : List IfAddrs} {seen : List (List (BitVec 8))}
    {message : List (BitVec 8)} (h : message ∈ N.dueLinks seq pid ifaddr seen) :
    ∃ link : HostLink, link.Fits ∧ message = linkMessage nlmFMulti seq pid link := by
  induction ifaddr generalizing seen with
  | nil => cases h
  | cons ifa ifaddr ih =>
      rw [NetHost.dueLinks_cons] at h
      cases hname : ifa.name with
      | none =>
          rw [hname] at h
          exact ih h
      | some name =>
          rw [hname] at h
          dsimp only at h
          split at h
          · exact ih h
          · rcases List.mem_cons.mp h with rfl | h
            · exact ⟨_, NetHost.hostLink_fits hname, rfl⟩
            · exact ih h

theorem mem_dueAddrs {ifaddr : List IfAddrs} {message : List (BitVec 8)}
    (h : message ∈ N.dueAddrs seq pid wantFamily ifaddr) :
    ∃ address : HostAddr, address.Fits ∧ message = addrMessage nlmFMulti seq pid address := by
  obtain ⟨address, haddress, rfl⟩ := List.mem_map.mp h
  obtain ⟨ifa, -, hifa⟩ := List.mem_filterMap.mp haddress
  exact ⟨address, NetHost.hostAddr_fits hifa, rfl⟩

/-- Messages of less than 192 bytes are appended while there is room for 256. -/
theorem isDump_small (hdue : AnswersDue seq pid due)
    (hsmall : ∀ message ∈ due, message.length + 64 ≤ 256) :
    IsDump seq pid due (nlBuildDone maxFakeNetlinkReply
        (fitting maxFakeNetlinkReply (fun _ => 256) 0 due).flatten seq pid)
      (fitting maxFakeNetlinkReply (fun _ => 256) 0 due) (doneMessage seq pid) :=
  isDump_done hdue (fun message _ => Nat.le_add_left 256 message.length) hsmall

theorem fitting_length_eq_zero :
    (fitting maxFakeNetlinkReply (fun _ => 256) 0 due).length = 0 ↔ due = [] := by
  cases due with
  | nil => simp [fitting]
  | cons message due => simp [fitting, maxFakeNetlinkReply]

/-- The links of a dump. -/
theorem links_wellFormed (links : List (List (BitVec 8)))
    (hlinks : ∀ message ∈ links, ∃ link : HostLink, link.Fits ∧
      message = linkMessage nlmFMulti seq pid link) :
    ∃ front done, IsDump seq pid links (nlBuildDone maxFakeNetlinkReply
      (fitting maxFakeNetlinkReply (fun _ => 256) 0 links).flatten seq pid) front done := by
  refine ⟨_, _, isDump_small ?_ ?_⟩
  · intro message hmem
    obtain ⟨link, hfits, rfl⟩ := hlinks message hmem
    exact linkMessage_due hfits
  · intro message hmem
    obtain ⟨link, hfits, rfl⟩ := hlinks message hmem
    have := @linkMessage_length seq pid nlmFMulti link hfits
    omega

theorem addrs_wellFormed (addrs : List (List (BitVec 8)))
    (haddrs : ∀ message ∈ addrs, ∃ address : HostAddr, address.Fits ∧
      message = addrMessage nlmFMulti seq pid address) :
    ∃ front done, IsDump seq pid addrs (nlBuildDone maxFakeNetlinkReply
      (fitting maxFakeNetlinkReply (fun _ => 256) 0 addrs).flatten seq pid) front done := by
  refine ⟨_, _, isDump_small ?_ ?_⟩
  · intro message hmem
    obtain ⟨address, hfits, rfl⟩ := haddrs message hmem
    exact addrMessage_due hfits
  · intro message hmem
    obtain ⟨address, hfits, rfl⟩ := haddrs message hmem
    have := @addrMessage_length seq pid nlmFMulti address hfits
    omega

theorem loopbackLink_fits : loopbackLink.Fits := ⟨by decide, by decide⟩

theorem loopbackAddr4_fits : loopbackAddr4.Fits :=
  ⟨by decide, fun label hlabel => by cases hlabel; decide⟩

theorem loopbackAddr6_fits : loopbackAddr6.Fits :=
  ⟨by decide, fun label hlabel => by cases hlabel⟩

/-- The fallback of the links. -/
theorem loopbackLink_eq : nlBuildLoopbackLink maxFakeNetlinkReply seq pid [] nlmFMulti =
    (fitting maxFakeNetlinkReply (fun _ => 256) 0
      [linkMessage nlmFMulti seq pid loopbackLink]).flatten := by
  rw [nlBuildLoopbackLink, nlBuildLink_eq loopbackLink_fits (by decide)]
  simp [fitting, maxFakeNetlinkReply]

/-- The fallback of the addresses, of one family or both. -/
theorem loopbackAddrs_eq (v4 v6 : Prop) [Decidable v4] [Decidable v6] :
    (if v6 then
      nlBuildLoopbackAddr maxFakeNetlinkReply seq pid
        (if v4 then nlBuildLoopbackAddr maxFakeNetlinkReply seq pid [] 2 nlmFMulti else [])
        10 nlmFMulti
      else if v4 then nlBuildLoopbackAddr maxFakeNetlinkReply seq pid [] 2 nlmFMulti else []) =
    (fitting maxFakeNetlinkReply (fun _ => 256) 0
      ((if v4 then [addrMessage nlmFMulti seq pid loopbackAddr4] else [])
        ++ (if v6 then [addrMessage nlmFMulti seq pid loopbackAddr6] else []))).flatten := by
  have hlength := @addrMessage_length seq pid nlmFMulti _ loopbackAddr4_fits
  have h4 : nlBuildLoopbackAddr maxFakeNetlinkReply seq pid [] 2 nlmFMulti =
      addrMessage nlmFMulti seq pid loopbackAddr4 := by
    rw [nlBuildLoopbackAddr, if_neg (by decide), nlBuildAddr_eq loopbackAddr4_fits (by decide)]
    rfl
  have h6 : ∀ out : List (BitVec 8), out.length ≤ 84 →
      nlBuildLoopbackAddr maxFakeNetlinkReply seq pid out 10 nlmFMulti =
        out ++ addrMessage nlmFMulti seq pid loopbackAddr6 := by
    intro out hout
    rw [nlBuildLoopbackAddr, if_pos rfl, nlBuildAddr_eq loopbackAddr6_fits]
    unfold maxFakeNetlinkReply
    omega
  have hroom : ¬ (addrMessage nlmFMulti seq pid loopbackAddr4).length + 256 >
      maxFakeNetlinkReply := by
    unfold maxFakeNetlinkReply
    omega
  have hfirst : ¬ 0 + 256 > maxFakeNetlinkReply := by decide
  by_cases hv4 : v4 <;> by_cases hv6 : v6
  · rw [if_pos hv6, if_pos hv4, if_pos hv4, if_pos hv6, h4, h6 _ hlength, List.singleton_append,
      fitting, if_neg hfirst, fitting, Nat.zero_add, if_neg hroom, fitting]
    simp
  · rw [if_neg hv6, if_pos hv4, if_pos hv4, if_neg hv6, h4, List.append_nil, fitting,
      if_neg hfirst, fitting]
    simp
  · rw [if_pos hv6, if_neg hv4, if_neg hv4, if_pos hv6, h6 [] (Nat.zero_le _), List.nil_append,
      List.nil_append, fitting, if_neg hfirst, fitting]
    simp
  · rw [if_neg hv6, if_neg hv4, if_neg hv4, if_neg hv6]
    rfl

/-- The reply to a request for the routes. -/
theorem routes_wellFormed {recv : Nat → Option (List (BitVec 8))}
    (hrecv : ∀ i bytes, recv i = some bytes → KernelDatagram bytes)
    (hdue : due = ((receivedMessages recv 64).takeWhile fun message =>
      msgType message ≠ nlmsgDone).map (relayedWhole seq pid)) :
    ∃ out sawDone, relayRounds maxFakeNetlinkReply seq pid recv 64 [] = some (out, sawDone) ∧
      (out = [] → sawDone = false) ∧
      ∃ front done, IsDump seq pid due
        (if sawDone then out else nlBuildDone maxFakeNetlinkReply out seq pid) front done := by
  obtain ⟨hwhole, hrounds⟩ := @relayRounds_eq maxFakeNetlinkReply seq pid recv hrecv 64 []
  obtain ⟨ending, hreply, hfits, hending⟩ :=
    @relayWhole_spec maxFakeNetlinkReply seq pid _ hwhole [] (by decide)
  rw [← hdue, List.nil_append, List.length_nil] at hreply
  have hanswers : AnswersDue seq pid due := by
    intro message hmem
    rw [hdue] at hmem
    obtain ⟨received, hreceived, rfl⟩ := List.mem_map.mp hmem
    have hmessage := hwhole received (List.takeWhile_subset _ hreceived)
    obtain ⟨hmessage', htype, hseq, hpid⟩ := @relayedWhole_isMessage seq pid _ hmessage
    refine ⟨⟨hmessage', hseq, hpid⟩, ?_⟩
    rw [htype]
    have hfront := List.mem_takeWhile_imp hreceived
    exact of_decide_eq_true hfront
  generalize relayWhole maxFakeNetlinkReply seq pid (receivedMessages recv 64) [] = relayed at *
  obtain ⟨out, isDone, sawDone⟩ := relayed
  refine ⟨out, sawDone, hrounds, ?_, ?_⟩
  · intro hnil
    cases sawDone with
    | false => rfl
    | true =>
        obtain ⟨done, hdone, -, rfl⟩ := hending
        have hlength := congrArg List.length (hreply.symm.trans hnil)
        have := hdone.length
        rw [List.length_append, relayedWhole_length hdone, List.length_nil] at hlength
        omega
  · dsimp only at hreply hfits
    cases sawDone with
    | true =>
        obtain ⟨done, hdone, htype, rfl⟩ := hending
        obtain ⟨hdone', htype', hseq, hpid⟩ := @relayedWhole_isMessage seq pid _ hdone
        rw [if_pos rfl, hreply]
        rw [hreply] at hfits
        exact ⟨_, _, isDump_fitting hanswers (fun message _ => Nat.add_le_add_left (by decide) _)
          ⟨hdone', hseq, hpid⟩ (htype'.trans htype) (by omega)⟩
    | false =>
        obtain rfl : ending = [] := hending
        rw [if_neg Bool.false_ne_true, hreply, List.append_nil]
        exact ⟨_, _, isDump_done hanswers
          (fun message _ => Nat.add_le_add_left (by decide) _) fun message _ => Nat.le_refl _⟩

/-- **Each reply to a request for a dump is well formed.** -/
theorem dump_wellFormed (N : NetHost) (pid : BitVec 32) {req : List (BitVec 8)}
    (hdump : isDump req = true) :
    ∃ reply front done, composeReply N pid req = some reply ∧
      IsDump (BitVec.ofNat 32 (msgSeq req)) pid (dueMessages N pid req) reply front done := by
  unfold composeReply dueMessages
  dsimp only
  rw [hdump]
  generalize BitVec.ofNat 32 (msgSeq req) = seq
  by_cases hlink : msgType req = rtmGetlink
  · rw [if_pos hlink, if_pos hlink]
    simp only [if_true, NetHost.buildHostLinks_eq]
    by_cases hnil : N.dueLinks seq pid (N.interfaces.getD []) [] = []
    · rw [if_pos (fitting_length_eq_zero.mpr hnil), if_pos hnil, loopbackLink_eq]
      obtain ⟨front, done, h⟩ := @links_wellFormed seq pid
        [linkMessage nlmFMulti seq pid loopbackLink] (fun message hmem => ⟨_, loopbackLink_fits, List.mem_singleton.mp hmem⟩)
      exact ⟨_, front, done, rfl, h⟩
    · rw [if_neg (mt fitting_length_eq_zero.mp hnil), if_neg hnil]
      obtain ⟨front, done, h⟩ := links_wellFormed (N.dueLinks seq pid (N.interfaces.getD []) [])
        fun message hmem => mem_dueLinks hmem
      exact ⟨_, front, done, rfl, h⟩
  rw [if_neg hlink, if_neg hlink]
  by_cases haddr : msgType req = rtmGetaddr
  · rw [if_pos haddr, if_pos haddr]
    generalize (if (req.getD 16 0).toNat = 2 ∨ (req.getD 16 0).toNat = 10
      then (req.getD 16 0).toNat else 0) = wantFamily
    simp only [if_true, NetHost.buildHostAddrs_eq]
    by_cases hnil : N.dueAddrs seq pid wantFamily (N.interfaces.getD []) = []
    · rw [if_pos (fitting_length_eq_zero.mpr hnil), if_pos hnil, loopbackAddrs_eq]
      obtain ⟨front, done, h⟩ := @addrs_wellFormed seq pid
        ((if (req.getD 16 0).toNat = 0 ∨ (req.getD 16 0).toNat = 2
          then [addrMessage nlmFMulti seq pid loopbackAddr4] else [])
          ++ (if (req.getD 16 0).toNat = 0 ∨ (req.getD 16 0).toNat = 10
          then [addrMessage nlmFMulti seq pid loopbackAddr6] else [])) (by
        intro message hmem
        rcases List.mem_append.mp hmem with hmem | hmem
        · split at hmem
          · exact ⟨_, loopbackAddr4_fits, List.mem_singleton.mp hmem⟩
          · cases hmem
        · split at hmem
          · exact ⟨_, loopbackAddr6_fits, List.mem_singleton.mp hmem⟩
          · cases hmem)
      exact ⟨_, front, done, rfl, h⟩
    · rw [if_neg (mt fitting_length_eq_zero.mp hnil), if_neg hnil]
      obtain ⟨front, done, h⟩ := addrs_wellFormed
        (N.dueAddrs seq pid wantFamily (N.interfaces.getD [])) fun message hmem => mem_dueAddrs hmem
      exact ⟨_, front, done, rfl, h⟩
  rw [if_neg haddr, if_neg haddr]
  have hempty : ∃ front done, IsDump seq pid [] (nlBuildDone maxFakeNetlinkReply [] seq pid)
      front done := links_wellFormed [] fun message hmem => (List.not_mem_nil hmem).elim
  by_cases hroute : msgType req = rtmGetroute
  · rw [if_pos hroute, if_pos hroute, if_pos rfl]
    unfold relayRouteDump
    cases hroutes : N.routes (req.getD 16 0) seq with
    | none =>
        obtain ⟨front, done, h⟩ := hempty
        exact ⟨_, front, done, rfl, h⟩
    | some recv =>
        dsimp only
        obtain ⟨out, sawDone, hrounds, hnil, front, done, h⟩ := routes_wellFormed
          (fun i bytes => N.datagrams _ _ _ i bytes hroutes) rfl
        rw [hrounds]
        dsimp only
        cases out with
        | nil =>
            obtain rfl := hnil rfl
            exact ⟨_, front, done, rfl, h⟩
        | cons first out =>
            cases sawDone with
            | true => exact ⟨_, front, done, rfl, h⟩
            | false =>
                refine ⟨_, front, done, ?_, h⟩
                obtain ⟨rest, hrest⟩ : ∃ rest,
                    nlBuildDone maxFakeNetlinkReply (first :: out) seq pid = first :: rest := by
                  unfold nlBuildDone
                  split <;> exact ⟨_, rfl⟩
                rw [if_neg (List.cons_ne_nil _ _), if_neg Bool.false_ne_true,
                  if_neg Bool.false_ne_true, hrest]
  · rw [if_neg hroute, if_neg hroute, if_pos rfl]
    obtain ⟨front, done, h⟩ := hempty
    exact ⟨_, front, done, rfl, h⟩

end

/-- A host with one interface. -/
def hostOfOneLink : NetHost where
  interfaces := some [⟨some [0x65, 0x74, 0x68, 0x30], 0x43, none, none, by
    intro n hn
    obtain rfl := Option.some.inj hn
    decide⟩]
  hasSocket := false
  ifNametoindex := fun _ => 2
  siocgifmtu := fun _ => none
  siocgifhwaddr := fun _ => none
  hwaddr_length := fun _ _ h => by cases h
  routes := fun _ _ => none
  datagrams := fun _ _ _ _ _ h => by cases h

theorem dump_wellFormed_link : ∃ reply front done,
    composeReply hostOfOneLink 100 (nlmsghdr 20 rtmGetlink 0x301 7 0 ++ List.replicate 4 0) =
        some reply ∧
      IsDump 7 100
        [linkMessage nlmFMulti 7 100 ⟨2, 1, 0x43, 1500, [0x65, 0x74, 0x68, 0x30], []⟩]
        reply front done := by
  have hseq : msgSeq (nlmsghdr 20 rtmGetlink 0x301 7 0 ++ List.replicate 4 0) = 7 := by
    decide
  have hdue : dueMessages hostOfOneLink 100
      (nlmsghdr 20 rtmGetlink 0x301 7 0 ++ List.replicate 4 0) =
        [linkMessage nlmFMulti 7 100 ⟨2, 1, 0x43, 1500, [0x65, 0x74, 0x68, 0x30], []⟩] := by
    decide
  have h := dump_wellFormed hostOfOneLink 100
    (show isDump (nlmsghdr 20 rtmGetlink 0x301 7 0 ++ List.replicate 4 0) = true by decide)
  rw [hdue, hseq] at h
  exact h

/-- A request for which a reply is composed: what is read of it, if it can be. -/
def netlinkRequest (N : NetHost) (pid : BitVec 32) (bufAddr bufLen : Nat)
    (read : Option (List (BitVec 8))) : Request :=
  ⟨bufAddr, bufLen, read.isSome, ((read.bind (composeReply N pid)).getD []).map UInt8.ofBitVec⟩

end PRoot
