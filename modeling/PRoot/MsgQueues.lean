import PRoot.IpcThreads

/-!
# Message queues

`extension/sysvipc/sysvipc_msg.c`.  A message that is sent wakes the first thread that waits
for such a message; that thread then looks for a message again.

* `receive`: which message a `msgrcv` gets;
* `msgsnd`, `msgrcv`, `msgctl`: the calls;
* `msgrcvRetry`: the second look of a thread that was woken.
-/

namespace PRoot

/-- `SYSVIPC_MAX_MSG_SIZE`. -/
def sysvipcMaxMsgSize : Nat := 0xFFFF

/-- `IPC_NOWAIT`, as a flag of `msgrcv`. -/
def msgNowait : BitVec 32 := 0x800

/-- `MSG_NOERROR`. -/
def msgNoerror : BitVec 32 := 0x1000

/-- `MSG_EXCEPT`. -/
def msgExcept : BitVec 32 := 0x2000

/-- `MSG_COPY`. -/
def msgCopy : BitVec 32 := 0x4000

/-- `sysvipc_msg_match`. -/
def msgMatch (senderType receiverFilter receiverFlag : BitVec 32) : Bool :=
  let matched :=
    receiverFilter = 0 || senderType = receiverFilter ||
      (receiverFilter.slt 0 && senderType.sle (-receiverFilter))
  if receiverFlag &&& msgExcept ≠ 0 then !matched else matched

namespace MsgrcvArgs

variable (args : MsgrcvArgs)

/-- A flag of the call. -/
def has (flag : BitVec 32) : Bool := args.msgflg &&& flag ≠ 0

/-- A message matches the filter of the call. -/
def matchesType (item : MsgQueueItem) : Bool :=
  msgMatch (item.mtype.setWidth 32) args.msgtyp args.msgflg

/-- A message is not too long for the call. -/
def fits (item : MsgQueueItem) : Bool :=
  item.mtext.length ≤ args.msgsz.toNat || args.has msgNoerror

/-- The checks of `sysvipc_do_msgrcv`. -/
def check : Except Errno Unit :=
  if (args.msgsz.setWidth 32).toInt < 0 then .error .EINVAL
  else if args.msgflg &&& ~~~(msgNowait ||| msgNoerror ||| msgCopy ||| msgExcept) ≠ 0 then
    .error .EINVAL
  else if args.has msgCopy ∧ ¬ args.has msgNowait then .error .EINVAL
  else if args.has msgCopy ∧ args.has msgExcept then .error .EINVAL
  else .ok ()

/-- The place of the message the call is for: with `MSG_COPY`, its type is a place. -/
def find (items : List MsgQueueItem) : Option Nat :=
  if args.has msgCopy then
    if 0 ≤ args.msgtyp.toInt ∧ args.msgtyp.toInt < items.length then some args.msgtyp.toInt.toNat
    else none
  else items.findIdx? args.matchesType

end MsgrcvArgs

/-- The outcome of `sysvipc_do_msgrcv`. -/
inductive Receive
  | fail (status : Errno)
  | wait
  | deliver (place : Nat) (item : MsgQueueItem)
  deriving DecidableEq, Repr

/-- `sysvipc_do_msgrcv` and `sysvipc_msg_deliver`, as far as the message goes.  `written` is
what writing it to the memory of the tracee gives. -/
def receive (args : MsgrcvArgs) (items : List MsgQueueItem) (written : Except Errno Unit) :
    Receive :=
  match args.check with
  | .error status => .fail status
  | .ok _ =>
      match args.find items with
      | none => if args.has msgNowait then .fail .ENOMSG else .wait
      | some place =>
          match items[place]? with
          | none => .fail .ENOMSG
          | some item =>
              if !args.fits item then .fail .E2BIG
              else
                match written with
                | .error status => .fail status
                | .ok _ => .deliver place item

/-- The queue after a message was delivered, and taken unless it was copied. -/
def MsgQueue.delivered (queue : MsgQueue) (copy : Bool) (place : Nat) (item : MsgQueueItem)
    (pid now : Int) : MsgQueue :=
  let stats := { queue.stats with msgLrpid := pid, msgRtime := now }
  if copy then { queue with stats }
  else {
    items := queue.items.eraseIdx place
    stats := { stats with
      msgQnum := stats.msgQnum - 1
      msgCbytes := stats.msgCbytes - item.mtext.length } }

/-- The queue after a message was sent. -/
def MsgQueue.sent (queue : MsgQueue) (item : MsgQueueItem) (pid now : Int) : MsgQueue where
  items := queue.items ++ [item]
  stats := { queue.stats with
    msgLspid := pid
    msgStime := now
    msgQnum := queue.stats.msgQnum + 1
    msgCbytes := queue.stats.msgCbytes + item.mtext.length }

namespace IpcSystem

/-- The queue at some place. -/
def queueAt (sys : IpcSystem) (index : Nat) : MsgQueue :=
  (sys.queues[index]?).elim .zero fun object => object.content.data

/-- Change the queue at some place. -/
def setQueue (sys : IpcSystem) (index : Nat) (queue : MsgQueue) : IpcSystem :=
  { sys with queues := Slot.update sys.queues index fun content => { content with data := queue } }

/-- `sysvipc_msgget`. -/
def msgget (sys : IpcSystem) (key msgflg : BitVec 64) : IpcSystem × Except Errno (BitVec 32) :=
  let (queues, status) := getObject (msggetCall key msgflg) sys.queues
  ({ sys with queues }, status)

/-- The message of a `msgsnd`, and the place of its queue, checked.  `readType` and `readText`
are what reading the memory of the tracee gives. -/
def msgsndItem (sys : IpcSystem) (msqid msgsz : BitVec 64) (readType : Except Errno (BitVec 64))
    (readText : Except Errno (Nat → BitVec 8)) : Except Errno (Nat × MsgQueueItem) := do
  let index ← lookupIpcObject sys.queues msqid
  if msgsz.toNat > sysvipcMaxMsgSize then .error .EINVAL
  else do
    let mtype ← readType
    if mtype.toInt < 1 then .error .EINVAL
    else do
      let text ← readText
      .ok (index, ⟨mtype, (List.range msgsz.toNat).map text⟩)

/-- A thread that a message at some place is for. -/
def waitsForItem (index : Nat) (item : MsgQueueItem) (t : IpcThread) : Bool :=
  t.waitsFor .WR_WAIT_QUEUE_RECV index && t.msgrcv.matchesType item

/-- A thread that is told to look for a message again. -/
def retry (t : IpcThread) : IpcThread :=
  { t.wake (.error .EAGAIN) with chainState := .CSTATE_MSGRCV_RETRY }

/-- "Deliver to waiting msgrcv": the loop of `sysvipc_msgsnd` over the threads. -/
def wakeReceiver (index : Nat) (item : MsgQueueItem) : List IpcThread → List IpcThread
  | [] => []
  | t :: threads =>
      if waitsForItem index item t then retry t :: threads
      else t :: wakeReceiver index item threads

/-- `sysvipc_msgsnd`. -/
def msgsnd (sys : IpcSystem) (pid : Nat) (msqid msgsz : BitVec 64)
    (readType : Except Errno (BitVec 64)) (readText : Except Errno (Nat → BitVec 8)) (now : Int) :
    IpcSystem × Except Errno (BitVec 32) :=
  match sys.msgsndItem msqid msgsz readType readText with
  | .error status => (sys, .error status)
  | .ok (index, item) =>
      ({ sys.setQueue index ((sys.queueAt index).sent item pid now) with
          threads := wakeReceiver index item sys.threads }, .ok 0)

/-- The number of bytes of a message that a receiver gets. -/
def deliveredSize (args : MsgrcvArgs) (item : MsgQueueItem) : Nat :=
  min item.mtext.length args.msgsz.toNat

/-- `sysvipc_do_msgrcv`, for the thread of a pid. -/
def doMsgrcv (sys : IpcSystem) (pid index : Nat) (args : MsgrcvArgs) (written : Except Errno Unit)
    (now : Int) : IpcSystem × Except Errno (BitVec 32) :=
  match receive args (sys.queueAt index).items written with
  | .fail status => (sys, .error status)
  | .wait => (sys.modify pid (·.waitFor .WR_WAIT_QUEUE_RECV index), .ok 0)
  | .deliver place item =>
      (sys.setQueue index
          ((sys.queueAt index).delivered (args.has msgCopy) place item pid now),
        .ok (BitVec.ofNat 32 (deliveredSize args item)))

/-- `sysvipc_msgrcv`. -/
def msgrcvCall (sys : IpcSystem) (pid : Nat) (msqid : BitVec 64) (args : MsgrcvArgs)
    (written : Except Errno Unit) (now : Int) : IpcSystem × Except Errno (BitVec 32) :=
  match lookupIpcObject sys.queues msqid with
  | .error status => (sys, .error status)
  | .ok index =>
      doMsgrcv (sys.modify pid fun t => { t with msgrcv := args }) pid index args written now

/-- `sysvipc_msgrcv_retry`, once the thread was woken: what the call gives, unless an
assertion fails.  A thread that would have to wait again is woken in vain. -/
def msgrcvRetry (sys : IpcSystem) (t : IpcThread) (written : Except Errno Unit) (now : Int) :
    Option (IpcSystem × Except Errno (BitVec 32)) :=
  match t.config.statusAfterWait with
  | .error .EAGAIN =>
      let index := t.config.waitingObjectIndex
      if Slot.live sys.queues index then
        let (sys, status) := doMsgrcv sys t.config.pid index t.msgrcv written now
        let waits := (sys.thread t.config.pid).any (·.waitReason ≠ .WR_NOT_WAITING)
        some (sys.modify t.config.pid fun t =>
            { t.setWaitReason .WR_NOT_WAITING with chainState := .CSTATE_NOT_CHAINED },
          if waits then .error .EINTR else status)
      else none
  | status =>
      some (sys.modify t.config.pid fun t => { t with chainState := .CSTATE_NOT_CHAINED }, status)

/-- The loop of `IPC_RMID` over the threads. -/
def wakeReceivers (index : Nat) (threads : List IpcThread) : List IpcThread :=
  threads.map fun t =>
    if t.waitsFor .WR_WAIT_QUEUE_RECV index then t.wake (.error .EIDRM) else t

/-- What a `msgctl` is to do. -/
inductive MsgCommand
  | IPC_RMID
  | IPC_STAT
  deriving DecidableEq, Repr

/-- The `switch` of `sysvipc_msgctl`, for the value of the second argument register. -/
def msgCommand (arg : BitVec 64) : Option MsgCommand :=
  let cmd := arg.setWidth 32
  if cmd = 0 ∨ cmd = 0x100 then some .IPC_RMID
  else if cmd = 2 ∨ cmd = 0x102 then some .IPC_STAT
  else none

/-- `sysvipc_msgctl`. -/
def msgctl (sys : IpcSystem) (msqid cmd : BitVec 64) (written : Except Errno Unit) :
    IpcSystem × Except Errno (BitVec 32) :=
  match lookupIpcObject sys.queues msqid with
  | .error status => (sys, .error status)
  | .ok index =>
      match msgCommand cmd with
      | some .IPC_RMID =>
          ({ sys with
              threads := wakeReceivers index sys.threads
              queues := Slot.release sys.queues index fun content =>
                { content with data := { content.data with items := [] } } }, .ok 0)
      | some .IPC_STAT => (sys, written.map fun _ => 0)
      | none => (sys, .error .EINVAL)

end IpcSystem

end PRoot
