import PRoot.NetlinkFds

/-!
# Replies of substituted netlink sockets

`translate_syscall_enter` answers the requests that are sent on a substituted netlink socket: the
reply is built when the request is sent, and kept until it is received (`syscall/enter.c`).  There
is one reply for a tracee.

* `NetlinkSockets.call`: a call on a socket is made;
* `outstandingAfter`: the replies that are due on each socket;
* `Consistent`: the reply that is kept is the only one that is due;
* `call_consistent`: a call that `matchesReply` keeps that, and what is received was due;
* `replies_match`: so it is in a run of such calls.
-/

namespace PRoot

/-- A request in the memory of a tracee: whether it can be read, and what it is answered by. -/
structure Request where
  bufAddr : Nat
  bufLen : Nat
  readable : Bool
  composed : List UInt8
  deriving DecidableEq, Repr

/-- The length of a `struct nlmsghdr`. -/
def nlmsghdrLen : Nat := 16

/-- `build_fake_netlink_reply`. -/
def buildFakeNetlinkReply (request : Request) : List UInt8 :=
  if request.bufAddr = 0 || request.bufLen < nlmsghdrLen || !request.readable then []
  else request.composed

/-- A buffer of a tracee, and whether it can be written. -/
structure Iovec where
  base : Nat
  len : Nat
  writable : Bool
  deriving DecidableEq, Repr

/-- What is in the memory of the tracee after a receive, and its result; `msgFlags` is for
`recvmsg`. -/
structure Received where
  written : List UInt8
  result : Nat
  msgFlags : Nat
  deriving DecidableEq, Repr

/-- `scatter_fake_netlink_reply`: what is written, and how much of the reply is passed. -/
def scatterFakeNetlinkReply : List Iovec → List UInt8 → List UInt8 × Nat
  | [], _ => ([], 0)
  | segment :: segments, reply =>
      if reply = [] then ([], 0)
      else
        let chunk := min reply.length segment.len
        if segment.base ≠ 0 && 0 < chunk then
          if !segment.writable then ([], 0)
          else
            let (written, done) := scatterFakeNetlinkReply segments (reply.drop chunk)
            (reply.take chunk ++ written, chunk + done)
        else
          let (written, done) := scatterFakeNetlinkReply segments (reply.drop chunk)
          (written, chunk + done)

/-- The calls on netlink sockets.  A `sendmsg` has the request of its first segment, if there is
one. -/
inductive NetlinkCall
  | sendto (fd : Int) (request : Request)
  | sendmsg (fd : Int) (request : Option Request)
  | recvfrom (fd : Int) (buffer : Iovec) (flags : Nat)
  | recvmsg (fd : Int) (segments : List Iovec) (flags : Nat)
  deriving DecidableEq, Repr

def msgPeek : Nat := 0x2

def msgTrunc : Nat := 0x20

/-- What PRoot keeps of the netlink sockets of a tracee. -/
structure NetlinkSockets where
  fakeNetlinkFds : List Int
  fakeNetlinkReply : List UInt8
  deriving DecidableEq, Repr

namespace NetlinkCall

def fd : NetlinkCall → Int
  | .sendto fd _ | .sendmsg fd _ | .recvfrom fd _ _ | .recvmsg fd _ _ => fd

/-- The request that is sent. -/
def request : NetlinkCall → Option Request
  | .sendto _ request => some request
  | .sendmsg _ request => request
  | _ => none

/-- The buffers and the flags of a receive. -/
def receives : NetlinkCall → Option (List Iovec × Nat)
  | .recvfrom _ buffer flags => some ([buffer], flags)
  | .recvmsg _ segments flags => some (segments, flags)
  | _ => none

end NetlinkCall

/-- The case of `recvfrom`. -/
def receiveFrom (reply : List UInt8) (buffer : Iovec) (flags : Nat) : Received :=
  let copied := if reply.length > 0 && buffer.base ≠ 0 then min buffer.len reply.length else 0
  let copied := if copied > 0 && !buffer.writable then 0 else copied
  ⟨reply.take copied, if flags &&& msgTrunc ≠ 0 then reply.length else copied, 0⟩

/-- The case of `recvmsg`. -/
def receiveMessage (reply : List UInt8) (segments : List Iovec) (flags : Nat) : Received :=
  let (written, scattered) := scatterFakeNetlinkReply segments reply
  ⟨written, if flags &&& msgTrunc ≠ 0 then reply.length else scattered,
    if scattered < reply.length then msgTrunc else 0⟩

namespace NetlinkSockets

variable (s : NetlinkSockets)

/-- A call on a socket that is not tracked is left to the kernel. -/
def tracked (call : NetlinkCall) : Bool := isFakeNetlinkFd s.fakeNetlinkFds call.fd

/-- What a call receives. -/
def received : NetlinkCall → Option Received
  | .recvfrom _ buffer flags => some (receiveFrom s.fakeNetlinkReply buffer flags)
  | .recvmsg _ segments flags => some (receiveMessage s.fakeNetlinkReply segments flags)
  | _ => none

/-- A call of the tracee. -/
def call (call : NetlinkCall) : NetlinkSockets :=
  if !s.tracked call then s
  else
    match call with
    | .sendto _ request => { s with fakeNetlinkReply := buildFakeNetlinkReply request }
    | .sendmsg _ none => s
    | .sendmsg _ (some request) => { s with fakeNetlinkReply := buildFakeNetlinkReply request }
    | .recvfrom _ _ flags | .recvmsg _ _ flags =>
        { s with fakeNetlinkReply := if flags &&& msgPeek = 0 then [] else s.fakeNetlinkReply }

end NetlinkSockets

/-! ## The replies that are due -/

/-- The replies that are due on each socket, the oldest first. -/
abbrev Outstanding := Int → List (List UInt8)

def Outstanding.update (outstanding : Outstanding) (fd : Int) (replies : List (List UInt8)) :
    Outstanding :=
  fun other => if other = fd then replies else outstanding other

/-- The sockets of a tracee, and the replies that are due. -/
abbrev NetlinkRun := NetlinkSockets × Outstanding

/-- A request makes a reply due; it is no longer so when it was received in full, and not only
looked at. -/
def outstandingAfter (s : NetlinkRun) (call : NetlinkCall) : Outstanding :=
  if !s.1.tracked call then s.2
  else
    match call.request, call.receives, s.1.received call with
    | some request, _, _ =>
        if buildFakeNetlinkReply request = [] then s.2
        else s.2.update call.fd (s.2 call.fd ++ [buildFakeNetlinkReply request])
    | none, some (_, flags), some received =>
        if flags &&& msgPeek = 0 && (s.2 call.fd).head? = some received.written then
          s.2.update call.fd (s.2 call.fd).tail
        else s.2
    | none, _, _ => s.2

def netlinkStep (s : NetlinkRun) (call : NetlinkCall) : Option NetlinkRun :=
  some (s.1.call call, outstandingAfter s call)

/-- What a receive on a substituted socket was due to receive, and what it received. -/
structure ReceiveEntry where
  segments : List Iovec
  flags : Nat
  due : Option (List UInt8)
  received : Received
  deriving DecidableEq, Repr

def receiveEntries (s : NetlinkRun) (call : NetlinkCall) : List ReceiveEntry :=
  if !s.1.tracked call then []
  else
    match call.receives, s.1.received call with
    | some (segments, flags), some received =>
        [⟨segments, flags, (s.2 call.fd).head?, received⟩]
    | _, _ => []

/-- The length of some buffers. -/
def room : List Iovec → Nat
  | [] => 0
  | segment :: segments => segment.len + room segments

/-- **A receive returns the reply that is due**, as far as there is room for it; nothing where none
is due.  With `MSG_TRUNC` its result is the length of the whole reply. -/
def ReceiveEntry.Answered (entry : ReceiveEntry) : Prop :=
  match entry.due with
  | none => entry.received.written = [] ∧ entry.received.result = 0
  | some reply =>
      entry.received.written = reply.take (room entry.segments) ∧
        entry.received.result =
          if entry.flags &&& msgTrunc ≠ 0 then reply.length else entry.received.written.length

/-- The buffers that a reply of some length gets into can be written. -/
def canWrite : List Iovec → Nat → Bool
  | [], _ => true
  | segment :: segments, length =>
      length = 0 ||
        (segment.len = 0 || segment.base ≠ 0 && segment.writable) &&
          canWrite segments (length - segment.len)

/-- A call that fits to the reply that is kept: no request is sent while there is one; and what is
received is due on that socket, can be written, and gets received in full unless it is only looked
at. -/
def matchesReply (s : NetlinkRun) (call : NetlinkCall) : Bool :=
  !s.1.tracked call || s.1.fakeNetlinkReply = [] ||
    call.request = none &&
      call.receives.all fun (segments, flags) =>
        s.2 call.fd ≠ [] && canWrite segments s.1.fakeNetlinkReply.length &&
          (flags &&& msgPeek ≠ 0 || s.1.fakeNetlinkReply.length ≤ room segments)

/-- **The reply that is kept is the only one that is due.** -/
inductive Consistent (outstanding : Outstanding) : List UInt8 → Prop
  | idle (hnone : ∀ fd, outstanding fd = []) : Consistent outstanding []
  | pending {reply : List UInt8} (fd : Int) (hreply : reply ≠ []) (hdue : outstanding fd = [reply])
      (hothers : ∀ other, other ≠ fd → outstanding other = []) : Consistent outstanding reply

/-! ## What is received -/

/-- A reply that can be written gets into the buffers in order. -/
theorem scatter_spec (segments : List Iovec) (reply : List UInt8)
    (h : canWrite segments reply.length = true) :
    scatterFakeNetlinkReply segments reply =
      (reply.take (room segments), min (room segments) reply.length) := by
  induction segments generalizing reply with
  | nil => simp [scatterFakeNetlinkReply, room]
  | cons segment segments ih =>
      by_cases hreply : reply = []
      · simp [hreply, scatterFakeNetlinkReply]
      · have hlength : reply.length ≠ 0 := fun hzero => hreply (List.length_eq_zero_iff.mp hzero)
        simp only [canWrite, hlength, decide_false, Bool.false_or, Bool.and_eq_true] at h
        obtain ⟨hgood, hrest⟩ := h
        have hdrop : (reply.drop (min reply.length segment.len)).length =
            reply.length - segment.len := by
          rw [List.length_drop]
          omega
        have hnext := ih (reply.drop (min reply.length segment.len)) (by rw [hdrop]; exact hrest)
        rw [hdrop] at hnext
        have htake : reply.take (min reply.length segment.len) ++
            (reply.drop (min reply.length segment.len)).take (room segments) =
              reply.take (room (segment :: segments)) := by
          rw [room, List.take_add, List.take_eq_take_min (i := segment.len), Nat.min_comm,
            List.drop_eq_drop_min (i := segment.len)]
        have hdone : min reply.length segment.len +
            min (room segments) (reply.length - segment.len) =
              min (room (segment :: segments)) reply.length := by
          rw [room]
          omega
        rw [scatterFakeNetlinkReply, if_neg hreply]
        simp only [hnext]
        rw [htake, hdone]
        by_cases hlen : segment.len = 0
        · have hskip : (segment.base ≠ 0 && decide (0 < min reply.length segment.len)) = false := by
            simp [hlen]
          rw [hskip, if_neg Bool.false_ne_true]
          rw [← htake]
          simp [hlen]
        · have hgood : segment.base ≠ 0 ∧ segment.writable = true := by simpa [hlen] using hgood
          have hwrite : (segment.base ≠ 0 && decide (0 < min reply.length segment.len)) = true := by
            rw [Bool.and_eq_true, decide_eq_true_eq, decide_eq_true_eq]
            exact ⟨hgood.1, by omega⟩
          rw [hwrite, if_pos rfl, hgood.2]
          rfl

/-- **A receive that can write the reply** returns it, as far as there is room for it. -/
theorem received_spec {s : NetlinkSockets} {call : NetlinkCall} {segments : List Iovec}
    {flags : Nat} (hcall : call.receives = some (segments, flags))
    (h : canWrite segments s.fakeNetlinkReply.length = true) :
    ∃ received, s.received call = some received ∧
      received.written = s.fakeNetlinkReply.take (room segments) ∧
      received.result = if flags &&& msgTrunc ≠ 0 then s.fakeNetlinkReply.length
        else received.written.length := by
  cases call with
  | sendto | sendmsg => cases hcall
  | recvmsg fd segments flags =>
      cases hcall
      refine ⟨_, rfl, ?_, ?_⟩
      · rw [receiveMessage, scatter_spec segments _ h]
      · rw [receiveMessage, scatter_spec segments _ h]
        simp
  | recvfrom fd buffer flags =>
      cases hcall
      have hcopied : receiveFrom s.fakeNetlinkReply buffer flags =
          ⟨s.fakeNetlinkReply.take (min buffer.len s.fakeNetlinkReply.length),
            if flags &&& msgTrunc ≠ 0 then s.fakeNetlinkReply.length
            else min buffer.len s.fakeNetlinkReply.length, 0⟩ := by
        rw [receiveFrom]
        by_cases hnone : min buffer.len s.fakeNetlinkReply.length = 0
        · simp [hnone]
        · have hgood : buffer.base ≠ 0 ∧ buffer.writable = true := by
            have hlength : s.fakeNetlinkReply ≠ [] := fun heq => hnone (by simp [heq])
            have hlen : buffer.len ≠ 0 := fun heq => hnone (by simp [heq])
            simpa [canWrite, hlength, hlen] using h
          have hlength : 0 < s.fakeNetlinkReply.length := by omega
          simp [hgood.1, hgood.2, hlength]
      refine ⟨_, rfl, ?_, ?_⟩
      · rw [hcopied, ← List.take_eq_take_min]
        rfl
      · rw [hcopied]
        simp

/-! ## Runs -/

variable {s s' : NetlinkRun} {call : NetlinkCall}

theorem Outstanding.update_self (outstanding : Outstanding) (fd : Int)
    (replies : List (List UInt8)) : outstanding.update fd replies fd = replies := if_pos rfl

theorem Outstanding.update_other (outstanding : Outstanding) {fd other : Int}
    (replies : List (List UInt8)) (h : other ≠ fd) :
    outstanding.update fd replies other = outstanding other := if_neg h

theorem call_untracked (h : s.1.tracked call = false) :
    netlinkStep s call = some s ∧ receiveEntries s call = [] := by
  simp [netlinkStep, NetlinkSockets.call, outstandingAfter, receiveEntries, h]

theorem call_send {request : Request} (htracked : s.1.tracked call = true)
    (hcall : call.request = some request) :
    s.1.call call = { s.1 with fakeNetlinkReply := buildFakeNetlinkReply request } ∧
      outstandingAfter s call =
        (if buildFakeNetlinkReply request = [] then s.2
        else s.2.update call.fd (s.2 call.fd ++ [buildFakeNetlinkReply request])) ∧
      receiveEntries s call = [] := by
  rw [NetlinkSockets.call.eq_def, outstandingAfter, receiveEntries, htracked]
  cases call with
  | sendto fd request =>
      cases hcall
      exact ⟨rfl, rfl, rfl⟩
  | sendmsg fd request =>
      cases hcall
      exact ⟨rfl, rfl, rfl⟩
  | recvfrom | recvmsg => cases hcall

theorem call_receive {segments : List Iovec} {flags : Nat} {received : Received}
    (htracked : s.1.tracked call = true) (hcall : call.receives = some (segments, flags))
    (hreceived : s.1.received call = some received) :
    s.1.call call = { s.1 with
        fakeNetlinkReply := if flags &&& msgPeek = 0 then [] else s.1.fakeNetlinkReply } ∧
      outstandingAfter s call =
        (if flags &&& msgPeek = 0 && (s.2 call.fd).head? = some received.written then
          s.2.update call.fd (s.2 call.fd).tail
        else s.2) ∧
      receiveEntries s call = [⟨segments, flags, (s.2 call.fd).head?, received⟩] := by
  rw [NetlinkSockets.call.eq_def, outstandingAfter, receiveEntries, htracked, hreceived]
  cases call with
  | sendto | sendmsg => cases hcall
  | recvfrom fd buffer flags =>
      cases hcall
      exact ⟨rfl, rfl, rfl⟩
  | recvmsg fd segments flags =>
      cases hcall
      exact ⟨rfl, rfl, rfl⟩

/-- A `sendmsg` without a segment. -/
theorem call_neither (hrequest : call.request = none) (hcall : call.receives = none) :
    netlinkStep s call = some s ∧ receiveEntries s call = [] := by
  rw [netlinkStep, NetlinkSockets.call.eq_def, outstandingAfter, receiveEntries]
  cases call with
  | sendto | recvfrom | recvmsg => simp [NetlinkCall.request, NetlinkCall.receives] at hrequest hcall
  | sendmsg fd request =>
      cases hrequest
      dsimp only [NetlinkCall.request, NetlinkCall.receives]
      split_ifs <;> exact ⟨rfl, rfl⟩

/-- A request is sent while no reply is kept. -/
theorem send_consistent {request : Request} (h : Consistent s.2 s.1.fakeNetlinkReply)
    (hreply : s.1.fakeNetlinkReply = []) (htracked : s.1.tracked call = true)
    (hcall : call.request = some request) :
    Consistent (outstandingAfter s call) (s.1.call call).fakeNetlinkReply := by
  obtain ⟨hafter, hout, -⟩ := call_send htracked hcall
  rw [hafter, hout]
  have hnone : ∀ fd, s.2 fd = [] := by
    rw [hreply] at h
    cases h with
    | pending fd hne => exact absurd rfl hne
    | idle hnone => exact hnone
  show Consistent _ (buildFakeNetlinkReply request)
  split_ifs with hempty
  · rw [hempty]
    exact .idle hnone
  · refine .pending call.fd hempty ?_ fun other hother => ?_
    · rw [Outstanding.update_self, hnone, List.nil_append]
    · rw [Outstanding.update_other _ _ hother, hnone]

/-- A receive on the socket where the reply is due, or when none is kept. -/
theorem receive_consistent {segments : List Iovec} {flags : Nat}
    (h : Consistent s.2 s.1.fakeNetlinkReply)
    (htracked : s.1.tracked call = true) (hcall : call.receives = some (segments, flags))
    (hdue : s.1.fakeNetlinkReply ≠ [] → s.2 call.fd ≠ [])
    (hwrite : canWrite segments s.1.fakeNetlinkReply.length = true)
    (hroom : flags &&& msgPeek ≠ 0 ∨ s.1.fakeNetlinkReply.length ≤ room segments) :
    Consistent (outstandingAfter s call) (s.1.call call).fakeNetlinkReply ∧
      ∀ entry ∈ receiveEntries s call, entry.Answered := by
  obtain ⟨received, hreceived, hwritten, hresult⟩ := received_spec hcall hwrite
  obtain ⟨hafter, hout, hentries⟩ := call_receive htracked hcall hreceived
  rw [hafter, hout, hentries]
  generalize s.1.fakeNetlinkReply = reply at *
  simp only [List.mem_singleton, forall_eq]
  cases h with
  | idle hnone =>
      have hempty : received.written = [] := by rw [hwritten, List.take_nil]
      rw [hnone, List.head?_nil]
      refine ⟨?_, hempty, by simp [hresult, hempty]⟩
      simp only [reduceCtorEq, decide_false, Bool.and_false, Bool.false_eq_true, if_false, ite_self]
      exact .idle hnone
  | pending fd hreply hfd hothers =>
      have hsocket : call.fd = fd := by
        by_contra hother
        exact hdue hreply (hothers call.fd hother)
      rw [hsocket, hfd]
      refine ⟨?_, hwritten, hresult⟩
      by_cases hpeek : flags &&& msgPeek = 0
      · have hfull : received.written = reply := by
          rw [hwritten, List.take_of_length_le (hroom.resolve_left (not_not.mpr hpeek))]
        simp only [hpeek, hfull, List.head?_cons, decide_true, Bool.and_self, if_true,
          List.tail_cons]
        refine .idle fun other => ?_
        by_cases hother : other = fd
        · rw [hother, Outstanding.update_self]
        · rw [Outstanding.update_other _ _ hother, hothers other hother]
      · simp only [hpeek, decide_false, Bool.false_and, Bool.false_eq_true, if_false]
        exact .pending fd hreply hfd hothers

/-- **A call that `matchesReply`** keeps the reply and what is due in step, and what it receives was
due. -/
theorem call_consistent (h : Consistent s.2 s.1.fakeNetlinkReply)
    (hmatches : matchesReply s call = true) (hstep : netlinkStep s call = some s') :
    Consistent s'.2 s'.1.fakeNetlinkReply ∧ ∀ entry ∈ receiveEntries s call, entry.Answered := by
  by_cases htracked : s.1.tracked call = true
  · cases hrequest : call.request with
    | some request =>
        have hreply : s.1.fakeNetlinkReply = [] := by
          simpa [matchesReply, htracked, hrequest] using hmatches
        cases hstep
        refine ⟨send_consistent h hreply htracked hrequest, ?_⟩
        rw [(call_send htracked hrequest).2.2]
        exact fun entry hentry => absurd hentry List.not_mem_nil
    | none =>
        cases hreceives : call.receives with
        | none =>
            obtain ⟨hsame, hentries⟩ := @call_neither s call hrequest hreceives
            rw [hsame] at hstep
            cases hstep
            exact ⟨h, by simp [hentries]⟩
        | some buffers =>
            obtain ⟨segments, flags⟩ := buffers
            cases hstep
            by_cases hreply : s.1.fakeNetlinkReply = []
            · exact receive_consistent h htracked hreceives (absurd hreply)
                (by cases segments <;> simp [hreply, canWrite]) (.inr (by simp [hreply]))
            · simp only [matchesReply, htracked, hreply, hrequest, hreceives, Bool.not_true,
                decide_false, Bool.or_self, Bool.false_or, decide_true, Bool.true_and,
                Option.all_some, Bool.and_eq_true, Bool.or_eq_true, decide_eq_true_eq] at hmatches
              obtain ⟨⟨hdue, hwrite⟩, hroom⟩ := hmatches
              exact receive_consistent h htracked hreceives (fun _ => hdue) hwrite hroom
  · obtain ⟨hsame, hentries⟩ := call_untracked (Bool.not_eq_true _ ▸ htracked)
    rw [hsame] at hstep
    cases hstep
    exact ⟨h, by simp [hentries]⟩

open AbortableRuns

/-- **Fake netlink replies match requests.**  In a run of calls that all `matchesReply`, each receive
returns the reply that is due on its socket, and the reply that is kept stays the only one that is
due. -/
theorem replies_match {sockets : NetlinkSockets} (hreply : sockets.fakeNetlinkReply = [])
    {calls : List NetlinkCall}
    (hmatches : allSteps netlinkStep matchesReply (sockets, fun _ => []) calls = true)
    {s' : NetlinkRun} (hrun : run netlinkStep (sockets, fun _ => []) calls = some s') :
    (∀ entry ∈ record netlinkStep receiveEntries (sockets, fun _ => []) calls, entry.Answered) ∧
      Consistent s'.2 s'.1.fakeNetlinkReply := by
  have hstart : Consistent (fun _ => []) sockets.fakeNetlinkReply ∧
      ∀ entry ∈ ([] : List ReceiveEntry), entry.Answered := by
    rw [hreply]
    exact ⟨.idle fun _ => rfl, fun entry hentry => absurd hentry List.not_mem_nil⟩
  have hend := record_invariant
    (P := fun (s : NetlinkRun) log => Consistent s.2 s.1.fakeNetlinkReply ∧
      ∀ entry ∈ log, ReceiveEntry.Answered entry)
    (fun s log call s' h hmatches hstep => by
      obtain ⟨hconsistent, hentries⟩ := call_consistent h.1 hmatches hstep
      refine ⟨hconsistent, fun entry hentry => ?_⟩
      rcases List.mem_append.mp hentry with hentry | hentry
      · exact h.2 entry hentry
      · exact hentries entry hentry) hstart hmatches hrun
  exact ⟨hend.2, hend.1⟩

/-- A tracee with two substituted sockets. -/
def twoSockets : NetlinkSockets := ⟨[3, 4], []⟩

/-- A request that is answered by some bytes. -/
def requestOf (reply : List UInt8) : Request := ⟨4096, 20, true, reply⟩

/-- One socket after the other; the reply is looked at first. -/
def oneByOne : List NetlinkCall :=
  [.sendto 3 (requestOf [1, 2]), .recvmsg 3 [] 0x22, .recvmsg 3 [⟨8192, 64, true⟩] 0,
    .sendmsg 4 (some (requestOf [3])), .recvfrom 4 ⟨8192, 64, true⟩ 0, .recvfrom 3 ⟨8192, 64, true⟩ 0]

theorem replies_match_one_by_one :
    (record netlinkStep receiveEntries (twoSockets, fun _ => []) oneByOne).map (·.received.written) =
        [[], [1, 2], [3], []] ∧
      ∀ entry ∈ record netlinkStep receiveEntries (twoSockets, fun _ => []) oneByOne,
        entry.Answered :=
  ⟨by decide, (@replies_match twoSockets rfl oneByOne (by decide) _ rfl).1⟩

/-- **A request on another socket** takes the place of the reply, which is received as its own. -/
theorem replies_mismatch :
    ∃ entry ∈ record netlinkStep receiveEntries (twoSockets, fun _ => [])
      [.sendto 3 (requestOf [1, 2]), .sendto 4 (requestOf [3]),
        .recvfrom 3 ⟨8192, 64, true⟩ 0],
      entry.due = some [1, 2] ∧ entry.received.written = [3] ∧ ¬ entry.Answered := by
  refine ⟨⟨[⟨8192, 64, true⟩], 0, some [1, 2], ⟨[3], 1, 0⟩⟩, by decide, rfl, rfl, ?_⟩
  rintro ⟨hwritten, -⟩
  exact absurd hwritten (by decide)

end PRoot
