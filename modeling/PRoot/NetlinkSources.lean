import Mathlib.Tactic.IntervalCases
import PRoot.NetlinkReplies

/-!
# Sources of netlink replies

What `recvfrom` and `recvmsg` return of the reply on a substituted netlink socket, with the address
that it is said to come from (`syscall/enter.c`).

* `writeFakeNetlinkSockname`, `recvfrom`, `recvmsg`: the calls;
* `receives_agree_iff`: when they return the same, from the kernel.
-/

namespace PRoot

/-- The bytes of a `struct sockaddr_nl`. -/
def sockaddrNl (nlPid : UInt32) : List UInt8 :=
  [16, 0, 0, 0, nlPid.toUInt8, (nlPid >>> 8).toUInt8, (nlPid >>> 16).toUInt8,
    (nlPid >>> 24).toUInt8, 0, 0, 0, 0]

/-- Where an address is to be written: its length is `none` if it cannot be read. -/
structure NameBuffer where
  base : Nat
  inSize : Option UInt32
  writable : Bool
  deriving DecidableEq, Repr

/-- What is in the memory of the tracee then: the bytes of the address, and its length if that is
set. -/
structure NameReport where
  written : List UInt8
  size : Option UInt32
  deriving DecidableEq, Repr

/-- `write_fake_netlink_sockname`. -/
def writeFakeNetlinkSockname (pid : UInt32) (name : NameBuffer) (sizePtr : Nat) : NameReport :=
  if sizePtr = 0 then ⟨[], none⟩
  else
    match name.inSize with
    | none => ⟨[], none⟩
    | some inSize =>
        if name.base ≠ 0 && 0 < inSize then
          if name.writable then ⟨(sockaddrNl pid).take (min inSize.toNat 12), some 12⟩
          else ⟨[], none⟩
        else ⟨[], some 12⟩

/-- A receive: what is received, what is left of the reply, and the source. -/
structure NetlinkReceive where
  received : Received
  pending : List UInt8
  source : NameReport
  deriving DecidableEq, Repr

def pendingAfter (reply : List UInt8) (flags : Nat) : List UInt8 :=
  if flags &&& msgPeek = 0 then [] else reply

/-- `PR_recvfrom`, of a tracee with this `pid`. -/
def recvfrom (pid : UInt32) (reply : List UInt8) (buffer : Iovec) (flags : Nat) (name : NameBuffer)
    (sizePtr : Nat) : NetlinkReceive :=
  ⟨receiveFrom reply buffer flags, pendingAfter reply flags,
    if name.base ≠ 0 && sizePtr ≠ 0 then writeFakeNetlinkSockname pid name sizePtr
    else ⟨[], none⟩⟩

/-- `PR_recvmsg`: the length of the address is in the `msghdr`. -/
def recvmsg (reply : List UInt8) (segments : List Iovec) (flags : Nat) (name : NameBuffer) :
    NetlinkReceive :=
  ⟨receiveMessage reply segments flags, pendingAfter reply flags,
    if name.base ≠ 0 then
      match name.inSize with
      | none => ⟨[], none⟩
      | some inSize =>
          if 0 < inSize then
            ⟨if name.writable then (sockaddrNl 0).take (min inSize.toNat 12) else [], some 12⟩
          else ⟨[], none⟩
    else ⟨[], none⟩⟩

/-- Two receives return the same, from the kernel: "nl_pid == 0". -/
structure NetlinkReceive.Agree (first second : NetlinkReceive) : Prop where
  written : first.received.written = second.received.written
  result : first.received.result = second.received.result
  pending : first.pending = second.pending
  source : first.source = second.source
  kernel : first.source.written <+: sockaddrNl 0

/-- A missing buffer gets nothing, or the length of the reply is asked for. -/
def BufferFits (reply : List UInt8) (buffer : Iovec) (flags : Nat) : Prop :=
  buffer.base ≠ 0 ∨ buffer.len = 0 ∨ reply = [] ∨ flags &&& msgTrunc ≠ 0

/-- The source is not asked for, or what there is room for is the same for a `pid` of 0. -/
def SourceFits (pid : UInt32) (name : NameBuffer) (sizePtr : Nat) : Prop :=
  name.base = 0 ∨
    match name.inSize with
    | none => True
    | some inSize =>
        if sizePtr = 0 then inSize = 0
        else 0 < inSize ∧ name.writable ∧ pid.toNat % 256 ^ (inSize.toNat - 4) = 0

section

variable {pid : UInt32} {reply : List UInt8} {buffer : Iovec} {flags sizePtr : Nat}
  {name : NameBuffer}

theorem received_written (reply : List UInt8) (buffer : Iovec) (flags : Nat) :
    (receiveFrom reply buffer flags).written = (receiveMessage reply [buffer] flags).written := by
  unfold receiveFrom receiveMessage
  simp only [scatterFakeNetlinkReply]
  by_cases hreply : reply = []
  · simp [hreply]
  · have hpos : 0 < reply.length := List.length_pos_iff.mpr hreply
    by_cases hbase : buffer.base = 0
    · simp [hreply, hbase]
    · by_cases hlen : buffer.len = 0
      · simp [hreply, hlen]
      · have hmin : 0 < min buffer.len reply.length := by omega
        cases hwritable : buffer.writable <;>
          simp [hreply, hbase, hpos, hmin, Nat.min_comm reply.length]

/-- The results are the same but for a missing buffer. -/
theorem received_result_iff :
    (receiveFrom reply buffer flags).result = (receiveMessage reply [buffer] flags).result ↔
      BufferFits reply buffer flags := by
  unfold receiveFrom receiveMessage BufferFits
  simp only [scatterFakeNetlinkReply]
  by_cases htrunc : flags &&& msgTrunc = 0
  case neg => simp [htrunc]
  by_cases hreply : reply = []
  · simp [hreply, htrunc]
  · have hpos : 0 < reply.length := List.length_pos_iff.mpr hreply
    by_cases hlen : buffer.len = 0
    · simp [hreply, hlen, htrunc]
    · have hmin : 0 < min buffer.len reply.length := by omega
      by_cases hbase : buffer.base = 0
      · simp [hreply, hbase, htrunc, hlen]
        omega
      · cases hwritable : buffer.writable <;>
          simp [hreply, hbase, hpos, hmin, htrunc, Nat.min_comm reply.length]

theorem toUInt8_eq_zero_iff (value : UInt32) : value.toUInt8 = 0 ↔ value.toNat % 256 = 0 := by
  rw [← UInt8.toNat_inj, UInt32.toNat_toUInt8]
  rfl

theorem toNat_shiftRight_byte (value : UInt32) :
    (value >>> 8).toNat = value.toNat / 256 ∧ (value >>> 16).toNat = value.toNat / 65536 ∧
      (value >>> 24).toNat = value.toNat / 16777216 := by
  refine ⟨?_, ?_, ?_⟩ <;>
  · rw [UInt32.toNat_shiftRight, Nat.shiftRight_eq_div_pow]
    rfl

/-- **What there is room for** of the address of a tracee is that of the kernel. -/
theorem take_sockaddrNl_iff (pid : UInt32) (k : Nat) :
    (sockaddrNl pid).take (min k 12) = (sockaddrNl 0).take (min k 12) ↔
      pid.toNat % 256 ^ (k - 4) = 0 := by
  have hlt := pid.toNat_lt
  obtain ⟨h₁, h₂, h₃⟩ := toNat_shiftRight_byte pid
  have hbyte₀ := toUInt8_eq_zero_iff pid
  have hbyte₁ := toUInt8_eq_zero_iff (pid >>> 8)
  have hbyte₂ := toUInt8_eq_zero_iff (pid >>> 16)
  have hbyte₃ := toUInt8_eq_zero_iff (pid >>> 24)
  rw [h₁] at hbyte₁
  rw [h₂] at hbyte₂
  rw [h₃] at hbyte₃
  rcases Nat.lt_or_ge k 8 with hshort | hlong
  · interval_cases k <;> simp [sockaddrNl, hbyte₀, hbyte₁, hbyte₂] <;> omega
  · have hsplit : ∀ nlPid, (sockaddrNl nlPid).take (min k 12) =
        (sockaddrNl nlPid).take 8 ++ List.replicate (min k 12 - 8) 0 := by
      intro nlPid
      obtain ⟨j, hj, hjle⟩ : ∃ j, min k 12 = 8 + j ∧ j ≤ 4 := ⟨min k 12 - 8, by omega, by omega⟩
      rw [hj, List.take_add, Nat.add_sub_cancel_left]
      congr 1
      interval_cases j <;> rfl
    have hpow : 256 ^ 4 ≤ 256 ^ (k - 4) := Nat.pow_le_pow_right (by decide) (by omega)
    rw [hsplit, hsplit, List.append_left_inj, Nat.mod_eq_of_lt (by omega)]
    simp [sockaddrNl, hbyte₀, hbyte₁, hbyte₂, hbyte₃]
    omega

theorem source_eq_iff : (recvfrom pid reply buffer flags name sizePtr).source =
    (recvmsg reply [buffer] flags name).source ↔ SourceFits pid name sizePtr := by
  unfold recvfrom recvmsg SourceFits writeFakeNetlinkSockname
  dsimp only
  by_cases hbase : name.base = 0
  · simp [hbase]
  cases hsize : name.inSize with
  | none => by_cases hptr : sizePtr = 0 <;> simp [hbase, hptr]
  | some inSize =>
      by_cases hptr : sizePtr = 0
      · by_cases hzero : inSize = 0
        · simp [hbase, hptr, hzero]
        · have hpos : 0 < inSize := UInt32.pos_iff_ne_zero.mpr hzero
          simp [hbase, hptr, hzero, hpos]
      · by_cases hzero : inSize = 0
        · simp [hbase, hptr, hzero]
        · have hpos : 0 < inSize := UInt32.pos_iff_ne_zero.mpr hzero
          cases hwritable : name.writable with
          | false => simp [hbase, hptr, hpos]
          | true => simp [hbase, hptr, hpos, take_sockaddrNl_iff]

theorem recvmsg_source_kernel {segments : List Iovec} :
    (recvmsg reply segments flags name).source.written <+: sockaddrNl 0 := by
  unfold recvmsg
  dsimp only
  split
  · split
    · exact List.nil_prefix
    · split
      · split
        · exact List.take_prefix _ _
        · exact List.nil_prefix
      · exact List.nil_prefix
  · exact List.nil_prefix

/-- **The calls return the same, from the kernel,** exactly where a missing buffer makes no
difference, and the address has no room for a `pid`. -/
theorem receives_agree_iff (pid : UInt32) (reply : List UInt8) (buffer : Iovec) (flags : Nat)
    (name : NameBuffer) (sizePtr : Nat) :
    (recvfrom pid reply buffer flags name sizePtr).Agree (recvmsg reply [buffer] flags name) ↔
      BufferFits reply buffer flags ∧ SourceFits pid name sizePtr := by
  constructor
  · intro h
    exact ⟨received_result_iff.mp h.result, (@source_eq_iff _ _ _ _ _ _).mp h.source⟩
  · rintro ⟨hbuffer, hsource⟩
    have hsame : (recvfrom pid reply buffer flags name sizePtr).source =
        (recvmsg reply [buffer] flags name).source := source_eq_iff.mpr hsource
    refine ⟨received_written reply buffer flags, received_result_iff.mpr hbuffer, rfl, hsame, ?_⟩
    rw [hsame]
    exact recvmsg_source_kernel

/-- A tracee with the `pid` 1234 asks for the address. -/
theorem receives_differ :
    ¬ ∀ (pid : UInt32) (reply : List UInt8) (buffer : Iovec) (flags : Nat) (name : NameBuffer)
      (sizePtr : Nat), buffer.base ≠ 0 → name.base ≠ 0 → sizePtr ≠ 0 → name.inSize = some 12 →
      name.writable →
        (recvfrom pid reply buffer flags name sizePtr).Agree
          (recvmsg reply [buffer] flags name) := by
  intro h
  have hsource := (h 1234 [1, 2, 3] ⟨0x1000, 8, true⟩ 0 ⟨0x2000, some 12, true⟩ 0x3000 (by decide)
    (by decide) (by decide) rfl rfl).source
  revert hsource
  decide

end

end PRoot
