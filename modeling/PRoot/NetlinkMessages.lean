import PRoot.WordBytes

/-!
# Netlink messages

The messages that PRoot answers netlink requests with (`syscall/enter.c`): the interfaces and the
addresses that the host tells, the routes that its kernel tells, and what ends a dump.

* `nlBuildLink`, `nlBuildAddr`, `nlBuildDone`, `nlBuildError`: one message;
* `buildHostLinks`, `buildHostAddrs`, `relayRouteDump`: those of a dump;
* `composeReply`: the reply to a request.

A buffer is given by what was written to its start.
-/

namespace PRoot

/-- `NLMSG_ALIGN` and `RTA_ALIGN`. -/
def align4 (n : Nat) : Nat := (n + 3) / 4 * 4

/-- A number in a buffer. -/
def numberAt (bytes : List (BitVec 8)) (offset size : Nat) : Nat :=
  littleEndian ((bytes.drop offset).take size)

/-- `nlmsg_len`, `nlmsg_type`, `nlmsg_flags`, `nlmsg_seq` and `nlmsg_pid`. -/
def msgLen (bytes : List (BitVec 8)) : Nat := numberAt bytes 0 4
def msgType (bytes : List (BitVec 8)) : Nat := numberAt bytes 4 2
def msgFlags (bytes : List (BitVec 8)) : Nat := numberAt bytes 6 2
def msgSeq (bytes : List (BitVec 8)) : Nat := numberAt bytes 8 4
def msgPid (bytes : List (BitVec 8)) : Nat := numberAt bytes 12 4

/-- The types of messages. -/
def nlmsgError : Nat := 2
def nlmsgDone : Nat := 3
def rtmNewlink : Nat := 16
def rtmGetlink : Nat := 18
def rtmNewaddr : Nat := 20
def rtmGetaddr : Nat := 22
def rtmNewroute : Nat := 24
def rtmGetroute : Nat := 26

def nlmFMulti : Nat := 2

/-- `struct nlmsghdr`. -/
def nlmsghdr (len type flags : Nat) (seq pid : BitVec 32) : List (BitVec 8) :=
  wordBytes 4 len ++ wordBytes 2 type ++ wordBytes 2 flags ++ wordBytes 4 seq.toNat
    ++ wordBytes 4 pid.toNat

/-! ## One message -/

/-- `nl_add_attr`. -/
def nlAddAttr (max : Nat) (out : List (BitVec 8)) (type : Nat) (data : List (BitVec 8)) :
    List (BitVec 8) :=
  let dlen := data.length % 2 ^ 16
  let space := align4 (4 + dlen)
  if out.length + space > max then out
  else
    out ++ wordBytes 2 (4 + dlen) ++ wordBytes 2 type ++ data.take dlen
      ++ List.replicate (space - (4 + dlen)) 0

/-- The header of a message is written when its length is known. -/
def nlFinish (start out : List (BitVec 8)) (type flags : Nat) (seq pid : BitVec 32) :
    List (BitVec 8) :=
  let len := out.length - start.length
  start ++ nlmsghdr len type flags seq pid ++ out.drop (start.length + 16)
    ++ List.replicate (align4 len - len) 0

/-- What a message says of an interface. -/
structure HostLink where
  index : BitVec 32
  type : BitVec 16
  flags : BitVec 32
  mtu : BitVec 32
  name : List (BitVec 8)
  hwaddr : List (BitVec 8)

/-- `nl_build_link`. -/
def nlBuildLink (max : Nat) (out : List (BitVec 8)) (seq pid : BitVec 32) (nlflags : Nat)
    (link : HostLink) : List (BitVec 8) :=
  if out.length + 16 + 16 > max then out
  else
    -- `IFF_UP`: `IF_OPER_UP` or `IF_OPER_DOWN`; `IFF_RUNNING`: `IFF_LOWER_UP`.
    let operstate : Nat := if link.flags &&& 1 ≠ 0 then 6 else 2
    let flags := link.flags ||| if link.flags &&& 0x40 ≠ 0 then 0x10000 else 0
    let ifi := wordBytes 2 0 ++ wordBytes 2 link.type.toNat ++ wordBytes 4 link.index.toNat
      ++ wordBytes 4 flags.toNat ++ wordBytes 4 0
    let message := out ++ List.replicate 16 0 ++ ifi
    let message := nlAddAttr max message 3 (link.name ++ [0])
    let message := nlAddAttr max message 4 (wordBytes 4 link.mtu.toNat)
    let message := nlAddAttr max message 13 (wordBytes 4 1000)
    let message := nlAddAttr max message 16 (wordBytes 1 operstate)
    let message :=
      if link.hwaddr.length > 0 then
        let brd := List.replicate link.hwaddr.length (if link.type = 772 then 0x00 else 0xff)
        nlAddAttr max (nlAddAttr max message 1 link.hwaddr) 2 brd
      else message
    nlFinish out message rtmNewlink nlflags seq pid

/-- What a message says of an address. -/
structure HostAddr where
  family : Nat
  index : BitVec 32
  addr : List (BitVec 8)
  prefixlen : Nat
  scope : Nat
  label : Option (List (BitVec 8))

/-- `nl_build_addr`. -/
def nlBuildAddr (max : Nat) (out : List (BitVec 8)) (seq pid : BitVec 32) (nlflags : Nat)
    (address : HostAddr) : List (BitVec 8) :=
  if out.length + 16 + 8 > max then out
  else
    let ifa := wordBytes 1 address.family ++ wordBytes 1 address.prefixlen ++ wordBytes 1 0x80
      ++ wordBytes 1 address.scope ++ wordBytes 4 address.index.toNat
    let message := out ++ List.replicate 16 0 ++ ifa
    let message := nlAddAttr max message 1 address.addr
    let message := nlAddAttr max message 2 address.addr
    let message :=
      match address.label with
      | some label => if address.family = 2 then nlAddAttr max message 3 (label ++ [0]) else message
      | none => message
    nlFinish out message rtmNewaddr nlflags seq pid

/-- `nl_build_done`. -/
def nlBuildDone (max : Nat) (out : List (BitVec 8)) (seq pid : BitVec 32) : List (BitVec 8) :=
  if out.length + align4 20 > max then out
  else out ++ nlmsghdr 20 nlmsgDone nlmFMulti seq pid ++ wordBytes 4 0

/-- `nl_build_error`. -/
def nlBuildError (max : Nat) (out : List (BitVec 8)) (seq pid : BitVec 32) (error : Int) :
    List (BitVec 8) :=
  if out.length + align4 36 > max then out
  else
    out ++ nlmsghdr 36 nlmsgError 0 seq pid ++ wordBytes 4 (BitVec.ofInt 32 error).toNat
      ++ List.replicate 16 0

/-! ## What the host tells -/

/-- `struct sockaddr`, of the families that are looked at. -/
inductive SockAddr
  | inet (addr : List (BitVec 8)) (h : addr.length = 4)
  | inet6 (addr : List (BitVec 8)) (h : addr.length = 16)
  | packet (ifindex : BitVec 32) (hatype : BitVec 16) (addr : List (BitVec 8))
  | other (family : Nat)

/-- `struct ifaddrs`.  The name of an interface is shorter than `IFNAMSIZ`.  The mask is what is
read as one for the family of the address. -/
structure IfAddrs where
  name : Option (List (BitVec 8))
  flags : BitVec 32
  addr : Option SockAddr
  netmask : Option (List (BitVec 8))
  name_lt : ∀ n, name = some n → n.length < 16

/-- Attributes with their padding, one after another. -/
inductive Attributes : List (BitVec 8) → Prop
  | nil : Attributes []
  | cons {attr rest : List (BitVec 8)} (header : 4 ≤ numberAt attr 0 2)
      (tiles : attr.length = align4 (numberAt attr 0 2)) (hrest : Attributes rest) :
      Attributes (attr ++ rest)

/-- The length of the structure before the attributes. -/
def fixedLength (type : Nat) : Option Nat :=
  if type = rtmNewlink then some 16
  else if type = rtmNewaddr then some 8
  else if type = rtmNewroute then some 12
  else none

/-- A message with its padding: `nlmsg_len` tells its length, and after the structure that its
type tells its attributes tile it. -/
structure IsMessage (bytes : List (BitVec 8)) : Prop where
  header : 16 ≤ msgLen bytes
  tiles : bytes.length = align4 (msgLen bytes)
  attributes : ∀ n, fixedLength (msgType bytes) = some n →
    16 + n ≤ msgLen bytes ∧ Attributes ((bytes.take (msgLen bytes)).drop (16 + n))

/-- `NLMSG_OK`. -/
def nlmsgOk (bytes : List (BitVec 8)) : Bool :=
  16 ≤ bytes.length && 16 ≤ msgLen bytes && msgLen bytes ≤ bytes.length

/-- What is received from the kernel: whole messages, and what is left of one if the buffer was
too small. -/
def KernelDatagram (bytes : List (BitVec 8)) : Prop :=
  ∃ messages rest, bytes = List.flatten messages ++ rest ∧
    (∀ message ∈ messages, IsMessage message) ∧ nlmsgOk rest = false

/-- What the host tells of its network. -/
structure NetHost where
  /-- `getifaddrs`. -/
  interfaces : Option (List IfAddrs)
  /-- The socket for the requests below can be opened. -/
  hasSocket : Bool
  ifNametoindex : List (BitVec 8) → BitVec 32
  siocgifmtu : List (BitVec 8) → Option (BitVec 32)
  siocgifhwaddr : List (BitVec 8) → Option (BitVec 16 × List (BitVec 8))
  hwaddr_length : ∀ name answer, siocgifhwaddr name = some answer → answer.2.length = 6
  /-- A dump of the routes of a family: what is received in each round, unless it is refused. -/
  routes : BitVec 8 → BitVec 32 → Option (Nat → Option (List (BitVec 8)))
  datagrams : ∀ family seq recv i bytes, routes family seq = some recv → recv i = some bytes →
    KernelDatagram bytes

/-- The leading ones of a byte. -/
def leadingOnes : Nat → BitVec 8 → Nat
  | 0, _ => 0
  | n + 1, b => if b &&& 0x80 ≠ 0 then 1 + leadingOnes n (b <<< 1) else 0

/-- `nl_prefixlen`. -/
def nlPrefixlen : List (BitVec 8) → Nat
  | [] => 0
  | b :: mask => if b = 0xff then 8 + nlPrefixlen mask else leadingOnes 8 b

/-- `nl_addr_scope`: `RT_SCOPE_HOST`, `RT_SCOPE_LINK` or `RT_SCOPE_UNIVERSE`. -/
def nlAddrScope (family : Nat) (addr : List (BitVec 8)) : Nat :=
  let first := addr.headD 0
  let second := addr.getD 1 0
  if family = 2 then
    if first = 127 then 254
    else if first = 169 ∧ second = 254 then 253
    else 0
  else if addr = List.replicate 15 0 ++ [1] then 254
  else if first = 0xfe ∧ second &&& 0xc0 = 0x80 then 253
  else 0

namespace NetHost

variable (N : NetHost) (max : Nat) (seq pid : BitVec 32)

/-- What the links of `build_host_links` say of an interface: "`AF_PACKET` entries carry the
authoritative index/type/hwaddr". -/
def hostLink (ifa : IfAddrs) (name : List (BitVec 8)) : HostLink :=
  let loopback := ifa.flags &&& 8 ≠ 0
  let ifindex := N.ifNametoindex name
  let (ifindex, iftype, hwaddr) : BitVec 32 × BitVec 16 × List (BitVec 8) :=
    match ifa.addr with
    | some (.packet sllIfindex hatype addr) =>
        (if sllIfindex ≠ 0 then sllIfindex else ifindex, hatype,
          if 0 < addr.length ∧ addr.length ≤ 8 then addr else [])
    | _ => (ifindex, if loopback then 772 else 1, [])
  let mtu : BitVec 32 := if loopback then 65536 else 1500
  let ifrName := name.take 15
  let mtu := if N.hasSocket then (N.siocgifmtu ifrName).getD mtu else mtu
  let (iftype, hwaddr) :=
    if N.hasSocket ∧ hwaddr = [] then (N.siocgifhwaddr ifrName).getD (iftype, hwaddr)
    else (iftype, hwaddr)
  ⟨ifindex, iftype, ifa.flags, mtu, name, hwaddr⟩

/-- The loop of `build_host_links`: the messages so far, and how many links were built. -/
def hostLinks (wantName : List (BitVec 8)) (wantIndex : Int) (dump : Bool) :
    List IfAddrs → List (List (BitVec 8)) → List (BitVec 8) → Nat → List (BitVec 8) × Nat
  | [], _, out, built => (out, built)
  | ifa :: ifaddr, seen, out, built =>
      match ifa.name with
      | none => hostLinks wantName wantIndex dump ifaddr seen out built
      | some name =>
          if name ∈ seen then hostLinks wantName wantIndex dump ifaddr seen out built
          else
            let seen := if seen.length < 64 then seen ++ [name.take 15] else seen
            let link := N.hostLink ifa name
            let skip :=
              if wantName ≠ [] then wantName ≠ name
              else wantIndex > 0 ∧ link.index.toInt ≠ wantIndex
            if !dump ∧ skip then hostLinks wantName wantIndex dump ifaddr seen out built
            else if out.length + 256 > max then (out, built)
            else
              let out := nlBuildLink max out seq pid (if dump then nlmFMulti else 0) link
              if !dump then (out, built + 1)
              else hostLinks wantName wantIndex dump ifaddr seen out (built + 1)

/-- `build_host_links`. -/
def buildHostLinks (wantName : List (BitVec 8)) (wantIndex : Int) (dump : Bool) :
    List (BitVec 8) × Nat :=
  match N.interfaces with
  | none => ([], 0)
  | some ifaddr => N.hostLinks max seq pid wantName wantIndex dump ifaddr [] [] 0

/-- What the messages of `build_host_addrs` say of an address, if it is one of those asked for. -/
def hostAddr (wantFamily : Nat) (ifa : IfAddrs) : Option HostAddr :=
  match ifa.name, ifa.addr with
  | some name, some addr =>
      let known : Option (Nat × List (BitVec 8)) :=
        match addr with
        | .inet addr _ => some (2, addr)
        | .inet6 addr _ => some (10, addr)
        | _ => none
      match known with
      | none => none
      | some (family, addr) =>
          if wantFamily ≠ 0 ∧ family ≠ wantFamily then none
          else
            let prefixlen :=
              match ifa.netmask with
              | some mask => nlPrefixlen (mask.take addr.length)
              | none => if family = 2 then 32 else 128
            some ⟨family, N.ifNametoindex name, addr, prefixlen, nlAddrScope family addr, some name⟩
  | _, _ => none

/-- The loop of `build_host_addrs`. -/
def hostAddrs (wantFamily : Nat) (dump : Bool) :
    List IfAddrs → List (BitVec 8) → Nat → List (BitVec 8) × Nat
  | [], out, built => (out, built)
  | ifa :: ifaddr, out, built =>
      match N.hostAddr wantFamily ifa with
      | none => hostAddrs wantFamily dump ifaddr out built
      | some address =>
          if out.length + 256 > max then (out, built)
          else
            let out := nlBuildAddr max out seq pid (if dump then nlmFMulti else 0) address
            hostAddrs wantFamily dump ifaddr out (built + 1)

/-- `build_host_addrs`. -/
def buildHostAddrs (wantFamily : Nat) (dump : Bool) : List (BitVec 8) × Nat :=
  match N.interfaces with
  | none => ([], 0)
  | some ifaddr => N.hostAddrs max seq pid wantFamily dump ifaddr [] 0

end NetHost

section

variable (max : Nat) (seq pid : BitVec 32)

/-- "The hardcoded loopback link / addresses". -/
def loopbackLink : HostLink := ⟨1, 772, 0x49, 65536, [0x6c, 0x6f], List.replicate 6 0⟩
def loopbackAddr4 : HostAddr := ⟨2, 1, [127, 0, 0, 1], 8, 254, some [0x6c, 0x6f]⟩
def loopbackAddr6 : HostAddr := ⟨10, 1, List.replicate 15 0 ++ [1], 128, 254, none⟩

/-- `nl_build_loopback_link`. -/
def nlBuildLoopbackLink (out : List (BitVec 8)) (nlflags : Nat) : List (BitVec 8) :=
  nlBuildLink max out seq pid nlflags loopbackLink

/-- `nl_build_loopback_addr`. -/
def nlBuildLoopbackAddr (out : List (BitVec 8)) (family nlflags : Nat) : List (BitVec 8) :=
  nlBuildAddr max out seq pid nlflags (if family = 10 then loopbackAddr6 else loopbackAddr4)

/-- A message that is relayed. -/
def relayedMessage (message : List (BitVec 8)) : List (BitVec 8) :=
  message.take 8 ++ wordBytes 4 seq.toNat ++ wordBytes 4 pid.toNat ++ message.drop 16

/-- The messages of one datagram are relayed, up to the end of the dump: what there is of the reply
then, whether nothing more is to be received, and whether the end was seen.  There is no telling
what is read after a message whose padding is beyond the datagram. -/
def relayMessages : Nat → List (BitVec 8) → List (BitVec 8) →
    Option (List (BitVec 8) × Bool × Bool)
  | 0, _, out => some (out, false, false)
  | left + 1, datagram, out =>
      if !nlmsgOk datagram then some (out, false, false)
      else
        let mlen := msgLen datagram
        let aligned := align4 mlen
        if out.length + aligned + 64 > max then some (out, true, false)
        else
          let out := out ++ relayedMessage seq pid (datagram.take mlen)
            ++ List.replicate (aligned - mlen) 0
          if msgType datagram = nlmsgDone then some (out, true, true)
          else if datagram.length < aligned then none
          else relayMessages left (datagram.drop aligned) out

/-- The rounds of `relay_route_dump`, as many as are left: the reply, and whether the end was
seen. -/
def relayRounds (recv : Nat → Option (List (BitVec 8))) :
    Nat → List (BitVec 8) → Option (List (BitVec 8) × Bool)
  | 0, out => some (out, false)
  | left + 1, out =>
      match recv (64 - (left + 1)) with
      | none => some (out, false)
      | some datagram =>
          match relayMessages max seq pid datagram.length datagram out with
          | none => none
          | some (out, true, sawDone) => some (out, sawDone)
          | some (out, false, _) => relayRounds recv left out

/-- `relay_route_dump`. -/
def relayRouteDump (N : NetHost) (req : List (BitVec 8)) : Option (List (BitVec 8)) :=
  match N.routes (req.getD 16 0) seq with
  | none => some []
  | some recv =>
      match relayRounds max seq pid recv 64 [] with
      | none => none
      | some (out, sawDone) =>
          if out = [] then some []
          else if sawDone then some out
          else some (nlBuildDone max out seq pid)

end

/-! ## Requests -/

/-- The attributes of a request are looked through for the name of an interface, from an offset
on. -/
def requestIfname : Nat → List (BitVec 8) → Option (List (BitVec 8)) → Option (List (BitVec 8))
  | 0, _, name => name
  | left + 1, rest, name =>
      if rest.length < 4 then name
      else
        let rlen := numberAt rest 0 2
        if rlen < 4 ∨ rest.length < rlen then name
        else
          let name :=
            if numberAt rest 2 2 = 3 then
              some (((rest.drop 4).take (if rlen - 4 < 16 then rlen - 4 else 15)).takeWhile (· ≠ 0))
            else name
          requestIfname left (rest.drop (align4 rlen)) name

/-- `ifi_index` of a request. -/
def requestIfindex (req : List (BitVec 8)) : Int := (BitVec.ofNat 32 (numberAt req 20 4)).toInt

/-- `nl_request_is_loopback`. -/
def nlRequestIsLoopback (req : List (BitVec 8)) : Bool :=
  if req.length < 32 then true
  else
    match requestIfname req.length (req.drop 32) none with
    | some name => name = [0x6c, 0x6f]
    | none => requestIfindex req = 0 || requestIfindex req = 1

/-- `nl_request_link_target`. -/
def nlRequestLinkTarget (req : List (BitVec 8)) : Int × List (BitVec 8) :=
  if req.length < 32 then (0, [])
  else (requestIfindex req, (requestIfname req.length (req.drop 32) none).getD [])

/-- `MAX_FAKE_NETLINK_REPLY`. -/
def maxFakeNetlinkReply : Nat := 8192

/-- A request is one for a dump: `NLM_F_DUMP`. -/
def isDump (req : List (BitVec 8)) : Bool := msgFlags req &&& 0x300 = 0x300

/-- `build_fake_netlink_reply`, of the request that was read. -/
def composeReply (N : NetHost) (pid : BitVec 32) (req : List (BitVec 8)) :
    Option (List (BitVec 8)) :=
  let max := maxFakeNetlinkReply
  let type := msgType req
  let seq := BitVec.ofNat 32 (msgSeq req)
  let dump := isDump req
  let multi := if dump then nlmFMulti else 0
  let ended := fun out => if dump then nlBuildDone max out seq pid else out
  if type = rtmGetlink then
    let (wantIndex, wantName) := nlRequestLinkTarget req
    let (out, n) := N.buildHostLinks max seq pid (if dump then [] else wantName)
      (if dump then 0 else wantIndex) dump
    let out :=
      if n = 0 then
        if dump then nlBuildLoopbackLink max seq pid [] nlmFMulti
        else if nlRequestIsLoopback req then nlBuildLoopbackLink max seq pid [] 0
        else nlBuildError max [] seq pid (-19)
      else out
    some (ended out)
  else if type = rtmGetaddr then
    let family := (req.getD 16 0).toNat
    let wantFamily := if family = 2 ∨ family = 10 then family else 0
    let (out, n) := N.buildHostAddrs max seq pid wantFamily dump
    let out :=
      if n = 0 then
        let out := if family = 0 ∨ family = 2 then nlBuildLoopbackAddr max seq pid [] 2 multi
          else []
        if family = 0 ∨ family = 10 then nlBuildLoopbackAddr max seq pid out 10 multi else out
      else out
    some (ended out)
  else if type = rtmGetroute then
    if dump then
      match relayRouteDump max seq pid N req with
      | none => none
      | some [] => some (nlBuildDone max [] seq pid)
      | some out => some out
    else some (nlBuildError max [] seq pid 0)
  else if dump then some (nlBuildDone max [] seq pid)
  else some (nlBuildError max [] seq pid 0)

end PRoot
