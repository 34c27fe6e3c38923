import FissLock.Wire.Post

/-!
# The host's lock metadata and its handlers

`innet_lock` of `lib/lock.cc` and the static functions that work on it with the metadata mutex
held.  A C++ function that mutates `lmeta(lock)` becomes a function of the record returning the
new record; what it sends is returned beside it.

The handlers for **in-range** locks (`handleGrantedAcquire`, `handleSuspendAcquire`,
`handleRelease`, `lockFreeHelper`, `lockTransferHelper`) maintain the agent's view of a lock that
the switch decides; the `_lm` handlers (`handleAcquireLm`, `handleReleaseLm`) implement the whole
lock for **out-of-range** ids at their manager host.

`ASSERT` and `ASSERT_MSG` do nothing unless `FISSLOCK_DEBUG` is defined, so execution goes on past
them.  A function that contains one returns the assertions that would have fired, as a list of
`Assertion`.

`lockDigestWq_eq` is the one thing later proofs need to know about the digestion of a wait queue:
shared requests become holders and are sent a grant, the others stay queued in their order.
-/

namespace FissLock

/-- The fields of `innet_lock` that the modelled functions read or write.  The maps keyed by a
holder or a task return `false` or `0` for an absent key, as `operator[]` does. -/
structure InnetLock where
  id : LockId
  mode : LockState
  isAgent : Bool
  ncnt : BitVec 32
  holders : Finset LockHolder
  wqueue : List Wqe
  taskGranted : TaskId → Bool
  delayedFree : Bool
  earlyRelease : LockHolder → Bool
  fwdBackCnt : LockHolder → ℕ
  localHolders : Finset TaskId

/-- `lock_local_init`: the metadata of a freshly registered lock. -/
def InnetLock.init (lid : LockId) : InnetLock where
  id := lid
  mode := .free
  isAgent := false
  ncnt := 0
  holders := ∅
  wqueue := []
  taskGranted := fun _ => false
  delayedFree := false
  earlyRelease := fun _ => false
  fwdBackCnt := fun _ => 0
  localHolders := ∅

/-- The assertions of the modelled functions, one constructor for each. -/
inductive Assertion where
  /-- `ASSERT_MSG(op != FREE, ..)` in `handle_suspend_acquire`. -/
  | suspendOpNotFree
  /-- `ASSERT_MSG(mode != FREE, "releasing a free lock")` in `handle_release`. -/
  | releasingFreeLock
  /-- `ASSERT_MSG(!is_agent, "redundant agent")` on `GRANT_WITH_AGENT`. -/
  | redundantAgent
  /-- `ASSERT(hdr->agent == LOCALHOST_ID)` on `GRANT_WITH_AGENT`. -/
  | agentIsLocalhost
  /-- `ASSERT(hdr->machine_id == LOCALHOST_ID)` on `GRANT_WO_AGENT`. -/
  | machineIsLocalhost
  /-- `ASSERT_MSG(mode == FREE, "mode not free")` on a rejected `FREE` or `TRANSFER`. -/
  | modeNotFree
  /-- `ASSERT_MSG(wqueue.size() * sizeof(wqe) < 2000, ..)` in `lock_release`. -/
  | wqueueTooLong
  deriving DecidableEq, Repr

/-- `ASSERT(c)`: what it reports. -/
def assertThat (c : Prop) [Decidable c] (a : Assertion) : List Assertion :=
  if c then [] else [a]

@[simp] lemma assertThat_eq_nil {c : Prop} [Decidable c] {a : Assertion} :
    assertThat c a = [] ↔ c := by
  by_cases h : c <;> simp [assertThat, h]

@[simp] lemma mem_assertThat {c : Prop} [Decidable c] {a b : Assertion} :
    b ∈ assertThat c a ↔ ¬ c ∧ b = a := by
  by_cases h : c <;> simp [assertThat, h]

/-! ## Utility functions -/

/-- `lock_to_lm`. -/
def lockToLm (l : InnetLock) : HostId := BitVec.ofNat 8 (l.id.toNat % HOST_NUM + 1)

/-- `lock_out_of_range`. -/
def lockOutOfRange (l : InnetLock) : Bool := decide (SWITCH_LOCK_NUM ≤ l.id.toNat)

/-- `lock_add_holder`. -/
def lockAddHolder (l : InnetLock) (lh : LockHolder) : InnetLock :=
  { l with holders := insert lh l.holders }

/-- `lock_remove_holder`. -/
def lockRemoveHolder (l : InnetLock) (lh : LockHolder) : InnetLock :=
  { l with holders := l.holders.erase lh }

/-- `lock_has_holder`. -/
def lockHasHolder (l : InnetLock) (lh : LockHolder) : Bool := decide (lh ∈ l.holders)

/-- `lock_no_holders`. -/
def lockNoHolders (l : InnetLock) : Bool := decide (l.holders = ∅)

/-- `lock_append_to_wq`. -/
def lockAppendToWq (l : InnetLock) (w : Wqe) : InnetLock := { l with wqueue := l.wqueue ++ [w] }

/-- `lock_unmarshal_wq`. -/
def lockUnmarshalWq (l : InnetLock) (wq : List Wqe) : InnetLock :=
  { l with wqueue := l.wqueue ++ wq }

/-- `lock_no_waiters`. -/
def lockNoWaiters (l : InnetLock) : Bool := l.wqueue.isEmpty

/-- `lock_digest_wq`: shared entries become holders and are sent a `GRANT_WO_AGENT` (the header it
fills by hand is the one of `send_post_grant`), the others are appended to the wait queue.

This is what it does with a queue of at most `DPDK_TX_BURST_SIZE` entries.  Its array of buffers has
no room for more, see `Host/PacketBuffers.lean`. -/
def lockDigestWq (l : InnetLock) : List Wqe → InnetLock × List LockHdr
  | [] => (l, [])
  | w :: wq =>
      if w.op = .shared then
        let r := lockDigestWq (lockAddHolder l w.holder) wq
        (r.1, sendPostGrant l.id w.host w.taskId :: r.2)
      else lockDigestWq (lockAppendToWq l w) wq

/-- `lock_local_notify`, in the `LOCK_WAIT_BUSY_LOOP` configuration of `conf.h`. -/
def lockLocalNotify (l : InnetLock) (tid : TaskId) : InnetLock :=
  { l with
    localHolders := insert tid l.localHolders
    taskGranted := Function.update l.taskGranted tid true }

/-! ## The lock agent handlers -/

/-- `handle_granted_acquire`. -/
def handleGrantedAcquire (l : InnetLock) (hid : HostId) (tid : TaskId) : InnetLock :=
  lockAddHolder l (hid, tid)

/-- `handle_suspend_acquire`. -/
def handleSuspendAcquire (l : InnetLock) (hid : HostId) (tid : TaskId) (op : LockState) :
    InnetLock × List Assertion :=
  (lockAppendToWq l (Wqe.ofReq op tid hid), assertThat (op ≠ .free) .suspendOpNotFree)

/-- `handle_release`. -/
def handleRelease (l : InnetLock) (hid : HostId) (tid : TaskId) : InnetLock × List Assertion :=
  (lockRemoveHolder l (hid, tid), assertThat (l.mode ≠ .free) .releasingFreeLock)

/-- `lock_free_helper`: turn the packet into a `FREE` and give up the agency. -/
def lockFreeHelper (cf : Conf) (l : InnetLock) (hdr : LockHdr) : InnetLock × LockHdr :=
  ({ l with isAgent := false, mode := .free, ncnt := 0 },
   { hdr with
      type := .free
      multicasted := false
      granted := false
      transferred := false
      oldMode := l.mode.bit
      mode := false
      machineId := cf.localhostId
      taskId := 0
      agent := cf.localhostId
      wq := []
      ncnt := l.ncnt.setWidth 8 })

/-- `lock_transfer_helper`: turn the packet into a `TRANSFER` to the first waiter, with the rest of
the wait queue behind it.  The caller has checked that the queue is not empty; reading the first
element of an empty one is undefined there and leaves everything as it is here.  Returns the
`wq_size` it wrote. -/
def lockTransferHelper (cf : Conf) (l : InnetLock) (hdr : LockHdr) : InnetLock × LockHdr × ℕ :=
  match l.wqueue with
  | [] => (l, hdr, 0)
  | e :: rest =>
      ({ l with isAgent := false, ncnt := 0, mode := .free, wqueue := [] },
       { hdr with
          type := .transfer
          multicasted := false
          granted := false
          transferred := false
          oldMode := l.mode.bit
          mode := e.op.bit
          machineId := e.host
          taskId := e.taskId
          agent := cf.localhostId
          wq := rest
          ncnt := l.ncnt.setWidth 8 },
       rest.length)

/-! ## The lock manager handlers -/

/-- `handle_acquire_lm`: `true` if the request is granted. -/
def handleAcquireLm (l : InnetLock) (hid : HostId) (tid : TaskId) (op : LockState) :
    InnetLock × Bool :=
  -- FREE <- any
  if l.mode = .free then (lockAddHolder { l with mode := op } (hid, tid), true)
  else if l.mode = .shared then
    -- SHARED <- SHARED
    if op = .shared then (lockAddHolder l (hid, tid), true)
    -- SHARED <- EXCL
    else (lockAppendToWq l (Wqe.ofReq op tid hid), false)
  -- EXCL <- any
  else (lockAppendToWq l (Wqe.ofReq op tid hid), false)

/-- `handle_release_lm`: the packets that digesting the queue sends, and `true` if the caller has
to grant the lock to the first waiter. -/
def handleReleaseLm (l : InnetLock) (hid : HostId) (tid : TaskId) :
    InnetLock × List LockHdr × Bool :=
  let l := lockRemoveHolder l (hid, tid)
  if lockNoHolders l then
    match l.wqueue with
    | [] => ({ l with mode := .free }, [], false)
    | w :: _ =>
        if w.op = .shared then
          let r := lockDigestWq { l with mode := w.op, wqueue := [] } l.wqueue
          (r.1, r.2, false)
        else ({ l with mode := w.op }, [], true)
  else (l, [], false)

/-! ## What digesting a queue does -/

/-- **Digestion, in closed form.**  The shared entries are added to the holders and each is sent
one grant, in queue order; all other entries are appended to the wait queue, in queue order. -/
lemma lockDigestWq_eq (l : InnetLock) (wq : List Wqe) :
    lockDigestWq l wq
      = ({ l with
            holders := l.holders ∪ ((wq.filter (·.op = .shared)).map Wqe.holder).toFinset
            wqueue := l.wqueue ++ wq.filter (·.op ≠ .shared) },
         (wq.filter (·.op = .shared)).map fun w => sendPostGrant l.id w.host w.taskId) := by
  induction wq generalizing l with
  | nil => simp [lockDigestWq]
  | cons w wq ih =>
      by_cases hw : w.op = .shared
      · simp [lockDigestWq, hw, ih, lockAddHolder, Finset.insert_union]
      · simp [lockDigestWq, hw, ih, lockAppendToWq]

/-- Digestion sends grants. -/
lemma lockDigestWq_type {l : InnetLock} {wq : List Wqe} {p : LockHdr}
    (hp : p ∈ (lockDigestWq l wq).2) : p.type = .grantWoAgent := by
  rw [lockDigestWq_eq] at hp
  obtain ⟨w, -, rfl⟩ := List.mem_map.1 hp
  rfl

lemma handleReleaseLm_type {l : InnetLock} {hid : HostId} {tid : TaskId} {p : LockHdr}
    (hp : p ∈ (handleReleaseLm l hid tid).2.1) : p.type = .grantWoAgent := by
  simp only [handleReleaseLm] at hp
  split at hp
  · split at hp
    · simp at hp
    · split at hp
      · exact lockDigestWq_type hp
      · simp at hp
  · simp at hp

end FissLock
