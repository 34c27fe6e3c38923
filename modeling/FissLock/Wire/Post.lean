import Mathlib

/-!
# The lock post: what hosts and switches exchange

`include/types.h`, `lib/lock.h` and `lib/post.h` fix the vocabulary that the host library and
the two data planes share.  This file embeds it.

* `LockState` is the `lock_state` enumeration, used both as a lock's mode and as an operator;
  `LockState.bit` and `LockState.ofBit` are the two directions of the `MODE` macros, which keep
  only the lowest bit of it on the wire.
* `Wqe` is one wait-queue entry.  It is a packed bit-field of 40 bits, so **only 30 bits of the
  task id survive** a stay in a queue; `Wqe.ofReq` is the truncating constructor and
  `Wqe.holder_ofReq` says for which requests nothing is lost.
* `LockHdr` is a lock packet: the header that the Tofino plane parses bit by bit, together with
  the wait queue behind it, whose length is the `wq_size` field.
* `sendPostLockGeneric` and its callers are `post.c`.
-/

namespace FissLock

/-- `host_id`: machine ids are one byte on the wire. -/
abbrev HostId := BitVec 8

/-- `task_id`. -/
abbrev TaskId := BitVec 32

/-- `lock_id`. -/
abbrev LockId := BitVec 32

instance : LawfulBEq HostId := inferInstance

instance : LawfulBEq LockId := inferInstance

/-- `HOST_NUM` of `conf.h`. -/
def HOST_NUM : ℕ := 8

/-- `SWITCH_LOCK_NUM` of `conf.h`: the ids from here on are managed by hosts. -/
def SWITCH_LOCK_NUM : ℕ := 524288 * 3

/-- `TASK_FOR_RESTORE`, that is `(task_id)(-1)`. -/
def TASK_FOR_RESTORE : TaskId := BitVec.allOnes 32

/-- The `lock_state` enumeration, with the values `0x0` to `0x3` in this order. -/
inductive LockState where
  | free
  | release
  | shared
  | excl
  deriving DecidableEq, Repr

namespace LockState

/-- `s & 0x1`, the only bit of a state that the header carries. -/
def bit : LockState → Bool
  | free => false
  | release => true
  | shared => false
  | excl => true

/-- `(b & 0x1) | 0x2`: the macros `MODE` and `OLD_MODE` can only read back `LOCK_SHARED` or
`LOCK_EXCL`. -/
def ofBit : Bool → LockState
  | false => shared
  | true => excl

@[simp] lemma bit_ofBit (b : Bool) : (ofBit b).bit = b := by cases b <;> rfl

@[simp] lemma ofBit_ne_free (b : Bool) : ofBit b ≠ free := by cases b <;> simp [ofBit]

@[simp] lemma ofBit_eq_shared (b : Bool) : ofBit b = shared ↔ b = false := by
  cases b <;> simp [ofBit]

@[simp] lemma ofBit_eq_excl (b : Bool) : ofBit b = excl ↔ b = true := by
  cases b <;> simp [ofBit]

end LockState

/-- `lock_holder`.  The source packs `LOCK_HOLDER(host, task)` into 64 bits as
`(host << 32) ^ task`; the two halves do not overlap, so the pair is the same key. -/
abbrev LockHolder := HostId × TaskId

/-- `wqe`, a packed bit-field: 2 bits of operator (the four `LockState`s), 30 bits of task id and
8 bits of host id. -/
structure Wqe where
  op : LockState
  task : BitVec 30
  host : HostId
  deriving DecidableEq, Repr

namespace Wqe

/-- `wqe e = {.op = op, .task = tid, .host = hid}`: the assignment to the bit-field drops the two
high bits of the task id. -/
def ofReq (op : LockState) (tid : TaskId) (hid : HostId) : Wqe :=
  { op := op, task := tid.setWidth 30, host := hid }

/-- The task id as read back from the entry. -/
def taskId (e : Wqe) : TaskId := e.task.setWidth 32

/-- `LOCK_HOLDER(e.host, e.task)`. -/
def holder (e : Wqe) : LockHolder := (e.host, e.taskId)

lemma taskId_lt (e : Wqe) : e.taskId.toNat < 2 ^ 30 := by
  have h := e.task.isLt
  simp only [taskId, BitVec.toNat_setWidth]
  exact lt_of_le_of_lt (Nat.mod_le _ _) h

/-- Nothing is lost for task ids below `2 ^ 30`. -/
lemma taskId_ofReq {op : LockState} {tid : TaskId} {hid : HostId} (h : tid.toNat < 2 ^ 30) :
    (ofReq op tid hid).taskId = tid := by
  apply BitVec.eq_of_toNat_eq
  have h1 : tid.toNat % 2 ^ 30 = tid.toNat := Nat.mod_eq_of_lt h
  have h2 : tid.toNat % 2 ^ 32 = tid.toNat := Nat.mod_eq_of_lt tid.isLt
  simp only [taskId, ofReq, BitVec.toNat_setWidth, h1, h2]

lemma holder_ofReq {op : LockState} {tid : TaskId} {hid : HostId} (h : tid.toNat < 2 ^ 30) :
    (ofReq op tid hid).holder = (hid, tid) := by
  rw [holder, taskId_ofReq h]
  rfl

@[simp] lemma op_ofReq (op : LockState) (tid : TaskId) (hid : HostId) :
    (ofReq op tid hid).op = op := rfl

@[simp] lemma host_ofReq (op : LockState) (tid : TaskId) (hid : HostId) :
    (ofReq op tid hid).host = hid := rfl

end Wqe

/-- The `type` byte of a lock packet: `POST_LOCK_ACQUIRE = 0x1` to `POST_LOCK_FREE = 0x6`, every
other byte kept as it is. -/
inductive PostType where
  | acquire
  | grantWithAgent
  | grantWoAgent
  | release
  | transfer
  | free
  | other (byte : BitVec 8)
  deriving DecidableEq, Repr

/-- Reading the `type` byte. -/
def PostType.ofByte (b : BitVec 8) : PostType :=
  if b = 0x01 then .acquire
  else if b = 0x02 then .grantWithAgent
  else if b = 0x03 then .grantWoAgent
  else if b = 0x04 then .release
  else if b = 0x05 then .transfer
  else if b = 0x06 then .free
  else .other b

/-- A lock packet.  The Boolean fields are the single bits of `lock_hdr_t` in `headers.p4`, which
on the host are the bits 7, 6, 5, 1 and 0 of `mode_old_mode`; a mode bit is `false` for
`LOCK_SHARED` and `true` for `LOCK_EXCL`.  `wq` is the wait queue behind the header and its length
is the field `wq_size`. -/
structure LockHdr where
  type : PostType
  multicasted : Bool
  granted : Bool
  transferred : Bool
  oldMode : Bool
  mode : Bool
  id : LockId
  machineId : HostId
  taskId : TaskId
  agent : HostId
  wq : List Wqe
  ncnt : BitVec 8
  deriving DecidableEq, Repr

namespace LockHdr

/-- `LOCK_HOLDER(hdr->machine_id, hdr->task_id)`. -/
def holder (hdr : LockHdr) : LockHolder := (hdr.machineId, hdr.taskId)

/-- `MODE(hdr->mode_old_mode)`. -/
def modeState (hdr : LockHdr) : LockState := LockState.ofBit hdr.mode

/-- `OLD_MODE(hdr->mode_old_mode)`. -/
def oldModeState (hdr : LockHdr) : LockState := LockState.ofBit hdr.oldMode

end LockHdr

/-- The compile-time switches and start-up settings that the modelled functions read. -/
structure Conf where
  /-- `LOCALHOST_ID`. -/
  localhostId : HostId
  /-- `enb_local_grants`, set by `lock_setup`. -/
  enbLocalGrants : Bool
  /-- Whether `FISSLOCK_BMV2` is defined. -/
  bmv2 : Bool
  deriving DecidableEq, Repr

/-! ## Building posts (`post.c`) -/

/-- `send_post_lock_generic`: the header it fills, all three flag bits clear. -/
def sendPostLockGeneric (t : PostType) (op : LockState) (lid : LockId) (hid : HostId)
    (tid : TaskId) (wq : List Wqe) (ncnt : BitVec 8) (oldState : LockState) (dest : HostId) :
    LockHdr where
  type := t
  multicasted := false
  granted := false
  transferred := false
  oldMode := oldState.bit
  mode := op.bit
  id := lid
  machineId := hid
  taskId := tid
  agent := dest
  wq := wq
  ncnt := ncnt

/-- `send_post_acquire`. -/
def sendPostAcquire (cf : Conf) (op : LockState) (lid : LockId) (hid : HostId) (tid : TaskId) :
    LockHdr :=
  sendPostLockGeneric .acquire op lid hid tid [] 0 .free cf.localhostId

/-- `send_post_acquire_lm`: here `hid` is the lock manager, the destination. -/
def sendPostAcquireLm (cf : Conf) (op : LockState) (lid : LockId) (hid : HostId) (tid : TaskId) :
    LockHdr :=
  sendPostLockGeneric .acquire op lid cf.localhostId tid [] 0 .free hid

/-- `send_post_transfer`. -/
def sendPostTransfer (cf : Conf) (nextOp : LockState) (lid : LockId) (hid : HostId)
    (tid : TaskId) (wq : List Wqe) (ncnt : BitVec 8) (oldState : LockState) : LockHdr :=
  sendPostLockGeneric .transfer nextOp lid hid tid wq ncnt oldState cf.localhostId

/-- `send_post_free`. -/
def sendPostFree (cf : Conf) (lid : LockId) (ncnt : BitVec 8) (oldState : LockState) : LockHdr :=
  sendPostLockGeneric .free .free lid cf.localhostId 0 [] ncnt oldState cf.localhostId

/-- `send_post_release`. -/
def sendPostRelease (cf : Conf) (lid : LockId) (hid : HostId) (tid : TaskId) : LockHdr :=
  sendPostLockGeneric .release .free lid hid tid [] 0 .free cf.localhostId

/-- `send_post_release_lm`. -/
def sendPostReleaseLm (lid : LockId) (hid : HostId) (tid : TaskId) (lm : HostId) : LockHdr :=
  sendPostLockGeneric .release .free lid hid tid [] 0 .free lm

/-- `send_post_grant`. -/
def sendPostGrant (lid : LockId) (hid : HostId) (tid : TaskId) : LockHdr :=
  sendPostLockGeneric .grantWoAgent .free lid hid tid [] 0 .free hid

end FissLock
