import FissLock.Baseline.ParLock

/-!
# The two copies of ParLock's handlers

A host acquires and releases a lock that it serves itself with `acquire_lock_local` and
`release_lock_local` of `client.cc`, everybody else's requests go to the four handlers of
`server.cc`.  Here the six functions are written out statement by statement, each with its own body,
in a monad whose state is the lock with its mutex and what was sent so far, and whose only exception
is `ERROR`, which ends the process.  The timers and counters of the statistics are left out.

`acquireLockLocal_run` … `serverHandleSharedUnlock_run` say what each of them does, in the words of
`ParLock.lean`; the two paths are compared in `local_path_eq_server_path`.
-/

namespace FissLock.ParLock.Paths

/-- Who is told that the lock is granted. -/
inductive Sent where
  /-- `coroutine_wait_queue_signal(lkey, requester)` -/
  | signal (requester : BitVec 32)
  /-- `net_send(dst, POST_LOCK_REPLY, op, lkey, machine_id, lh_id)` -/
  | reply (dst : BitVec 8) (op : LockOp) (machineId : BitVec 8) (lhId : BitVec 32)
  deriving DecidableEq, Repr

/-- The host and the requester to whom the lock is granted: `process_lock_reply` of the host that
gets a reply signals `lh_id`. -/
def Sent.grantee (localhostId : BitVec 8) : Sent → BitVec 8 × BitVec 32
  | .signal requester => (localhostId, requester)
  | .reply dst _ _ lhId => (dst, lhId)

structure Machine where
  lq : LockQueue
  /-- `queue_mutex` is held. -/
  blocked : Bool
  sent : List Sent
  deriving DecidableEq, Repr

abbrev Prog := EStateM Abnormal Machine

/-! ## The functions of `lock_queue.cc` -/

def blockLockQueue : Prog Unit := modify fun m => { m with blocked := true }

def unblockLockQueue : Prog Unit := modify fun m => { m with blocked := false }

def getLockState : Prog QueueState := do return (← get).lq.lockState

def setLockState (state : QueueState) : Prog Unit :=
  modify fun m => { m with lq := { m.lq with lockState := state } }

def getSharedCounter : Prog (BitVec 32) := do return (← get).lq.sharedCounter

def addSharedCounter : Prog Unit :=
  modify fun m => { m with lq := { m.lq with sharedCounter := m.lq.sharedCounter + 1 } }

def subSharedCounter : Prog Unit :=
  modify fun m => { m with lq := { m.lq with sharedCounter := m.lq.sharedCounter - 1 } }

def enqueueRequest (op : LockOp) (machineId : BitVec 8) (lhId : BitVec 32) : Prog Unit :=
  modify fun m => { m with lq := ParLock.enqueueRequest m.lq op machineId lhId }

/-- The entry taken out is not used by the callers, who have read the head before. -/
def dequeueRequest : Prog Unit := modify fun m => { m with lq := ParLock.dequeueRequest m.lq }

def getHeadRequest : Prog (Option LockQueueEntry) := do return ParLock.getHeadRequest (← get).lq

def dequeueSharedRequests : Prog (List LockQueueEntry) :=
  modifyGet fun m =>
    ((ParLock.dequeueSharedRequests m.lq).2,
      { m with lq := (ParLock.dequeueSharedRequests m.lq).1 })

/-- Whether an entry was erased. -/
def eraseLockRequest (requester : BitVec 32) (host : BitVec 8) (op : LockOp) : Prog Bool :=
  modifyGet fun m =>
    ((ParLock.eraseLockRequest m.lq requester host op).2,
      { m with lq := (ParLock.eraseLockRequest m.lq requester host op).1 })

def coroutineWaitQueueSignal (requester : BitVec 32) : Prog Unit :=
  modify fun m => { m with sent := m.sent ++ [.signal requester] }

def netSend (dst : BitVec 8) (op : LockOp) (machineId : BitVec 8) (lhId : BitVec 32) : Prog Unit :=
  modify fun m => { m with sent := m.sent ++ [.reply dst op machineId lhId] }

/-! ## `client.cc` -/

section

variable (localhostId : BitVec 8)

def acquireLockLocal (requester : BitVec 32) (op : LockOp) : Prog Unit := do
  blockLockQueue
  if op = .lockExcl then
    if (← getLockState) = .free then
      -- grant exclusive lock
      setLockState .exclusive
      unblockLockQueue
      coroutineWaitQueueSignal requester
    else
      enqueueRequest op localhostId requester
      unblockLockQueue
  else if op = .lockShared then
    if (← getLockState) ≠ .exclusive then
      setLockState .shared
      addSharedCounter
      unblockLockQueue
      coroutineWaitQueueSignal requester
    else
      enqueueRequest op localhostId requester
      unblockLockQueue
  else
    unblockLockQueue

def releaseLockLocal (requester : BitVec 32) (op : LockOp) : Prog Unit := do
  blockLockQueue
  let ret ← eraseLockRequest requester localhostId op
  if op = .lockExcl then
    if (← getLockState) = .exclusive ∧ ret = false then
      -- holder release lock
      setLockState .free
      match ← getHeadRequest with
      | some head =>
          if head.op = .lockExcl then
            let tid := head.requester
            dequeueRequest
            setLockState .exclusive
            if head.host = localhostId then
              coroutineWaitQueueSignal tid
            else
              netSend head.host head.op head.host head.requester
            unblockLockQueue
          else if head.op = .lockShared then
            setLockState .shared
            let sharedHead ← dequeueSharedRequests
            sharedHead.forM fun iter => do
              addSharedCounter
              if iter.host = localhostId then
                coroutineWaitQueueSignal iter.requester
              else
                netSend iter.host iter.op iter.host iter.requester
            unblockLockQueue
          else
            unblockLockQueue
      | none => unblockLockQueue
    else
      -- abort release
      unblockLockQueue
  else if op = .lockShared then
    if (← getLockState) = .shared ∧ ret = false then
      -- holder release lock
      subSharedCounter
      if 0 < (← getSharedCounter).toInt then
        unblockLockQueue
      else
        setLockState .free
        match ← getHeadRequest with
        | some head =>
            if head.op = .lockExcl then
              dequeueRequest
              setLockState .exclusive
              let tid := head.requester
              if head.host = localhostId then
                coroutineWaitQueueSignal tid
              else
                netSend head.host head.op head.host head.requester
              unblockLockQueue
            else if head.op = .lockShared then
              unblockLockQueue
              throw (.sharedWaiter head.requester)
            else
              unblockLockQueue
        | none => unblockLockQueue
    else if (← getLockState) = .shared then
      unblockLockQueue
      throw (.abortRelease requester)
    else
      unblockLockQueue
  else
    unblockLockQueue

/-! ## `server.cc` -/

def serverHandleExclusiveLock (hd : LockPostHeader) : Prog Unit := do
  blockLockQueue
  if (← getLockState) = .free then
    setLockState .exclusive
    unblockLockQueue
    netSend hd.machineId hd.op hd.machineId hd.lhId
  else
    enqueueRequest hd.op hd.machineId hd.lhId
    unblockLockQueue

def serverHandleSharedLock (hd : LockPostHeader) : Prog Unit := do
  blockLockQueue
  if (← getLockState) ≠ .exclusive then
    setLockState .shared
    addSharedCounter
    unblockLockQueue
    netSend hd.machineId hd.op hd.machineId hd.lhId
  else
    enqueueRequest hd.op hd.machineId hd.lhId
    unblockLockQueue

def serverHandleExclusiveUnlock (hd : LockPostHeader) : Prog Unit := do
  blockLockQueue
  let ret ← eraseLockRequest hd.lhId hd.machineId hd.op
  if (← getLockState) = .exclusive ∧ ret = false then
    setLockState .free
    match ← getHeadRequest with
    | some curHead =>
        if curHead.op = .lockExcl then
          setLockState .exclusive
          dequeueRequest
          if curHead.host = localhostId then
            coroutineWaitQueueSignal curHead.requester
          else
            netSend curHead.host curHead.op curHead.host curHead.requester
          unblockLockQueue
        else if curHead.op = .lockShared then
          setLockState .shared
          let sharedHead ← dequeueSharedRequests
          sharedHead.forM fun iter => do
            addSharedCounter
            if iter.host = localhostId then
              coroutineWaitQueueSignal iter.requester
            else
              netSend iter.host iter.op iter.host iter.requester
          unblockLockQueue
        else
          unblockLockQueue
    | none => unblockLockQueue
  else
    unblockLockQueue

def serverHandleSharedUnlock (hd : LockPostHeader) : Prog Unit := do
  blockLockQueue
  let ret ← eraseLockRequest hd.lhId hd.machineId hd.op
  if (← getLockState) = .shared ∧ ret = false then
    subSharedCounter
    if 0 < (← getSharedCounter).toInt then
      unblockLockQueue
    else
      setLockState .free
      match ← getHeadRequest with
      | some curHead =>
          if curHead.op = .lockExcl then
            setLockState .exclusive
            dequeueRequest
            if curHead.host = localhostId then
              coroutineWaitQueueSignal curHead.requester
            else
              netSend curHead.host curHead.op curHead.host curHead.requester
            unblockLockQueue
          else if curHead.op = .lockShared then
            -- the process ends with the mutex held
            throw (.sharedWaiter curHead.requester)
          else
            unblockLockQueue
      | none => unblockLockQueue
  else if (← getLockState) = .shared then
    unblockLockQueue
    throw (.abortRelease hd.lhId)
  else
    unblockLockQueue

end

/-! ## What a function does -/

/-- The lock that a function leaves, whom it grants the lock, and the `ERROR` that ended it. -/
structure Outcome where
  lq : LockQueue
  grants : List (BitVec 8 × BitVec 32)
  error : Option Abnormal
  deriving DecidableEq, Repr

/-- A function is called with the mutex free. -/
def outcome (localhostId : BitVec 8) (p : Prog Unit) (lq : LockQueue) : Outcome :=
  match p.run ⟨lq, false, []⟩ with
  | .ok _ m => ⟨m.lq, m.sent.map (Sent.grantee localhostId), none⟩
  | .error a m => ⟨m.lq, m.sent.map (Sent.grantee localhostId), some a⟩

/-- The effect that `ParLock.lean` gives a function, as an outcome. -/
def ofEffect (o : Effect) : Outcome :=
  ⟨o.lq, o.grants.map fun n => (n.entry.host, n.entry.requester), o.errors.head?⟩

section Primitives

variable (m : Machine)

@[simp] lemma blockLockQueue_run : blockLockQueue.run m = .ok () { m with blocked := true } := rfl

@[simp] lemma unblockLockQueue_run : unblockLockQueue.run m = .ok () { m with blocked := false } :=
  rfl

@[simp] lemma getLockState_run : getLockState.run m = .ok m.lq.lockState m := rfl

@[simp] lemma setLockState_run (state : QueueState) :
    (setLockState state).run m = .ok () { m with lq := { m.lq with lockState := state } } := rfl

@[simp] lemma getSharedCounter_run : getSharedCounter.run m = .ok m.lq.sharedCounter m := rfl

@[simp] lemma addSharedCounter_run : addSharedCounter.run m
    = .ok () { m with lq := { m.lq with sharedCounter := m.lq.sharedCounter + 1 } } := rfl

@[simp] lemma subSharedCounter_run : subSharedCounter.run m
    = .ok () { m with lq := { m.lq with sharedCounter := m.lq.sharedCounter - 1 } } := rfl

@[simp] lemma enqueueRequest_run (op : LockOp) (machineId : BitVec 8) (lhId : BitVec 32) :
    (enqueueRequest op machineId lhId).run m
      = .ok () { m with lq := ParLock.enqueueRequest m.lq op machineId lhId } := rfl

@[simp] lemma dequeueRequest_run :
    dequeueRequest.run m = .ok () { m with lq := ParLock.dequeueRequest m.lq } := rfl

@[simp] lemma getHeadRequest_run : getHeadRequest.run m = .ok (ParLock.getHeadRequest m.lq) m := rfl

@[simp] lemma dequeueSharedRequests_run :
    dequeueSharedRequests.run m = .ok (ParLock.dequeueSharedRequests m.lq).2
      { m with lq := (ParLock.dequeueSharedRequests m.lq).1 } := rfl

@[simp] lemma eraseLockRequest_run (requester : BitVec 32) (host : BitVec 8) (op : LockOp) :
    (eraseLockRequest requester host op).run m
      = .ok (ParLock.eraseLockRequest m.lq requester host op).2
          { m with lq := (ParLock.eraseLockRequest m.lq requester host op).1 } := rfl

@[simp] lemma coroutineWaitQueueSignal_run (requester : BitVec 32) :
    (coroutineWaitQueueSignal requester).run m
      = .ok () { m with sent := m.sent ++ [.signal requester] } := rfl

@[simp] lemma netSend_run (dst : BitVec 8) (op : LockOp) (machineId : BitVec 8)
    (lhId : BitVec 32) : (netSend dst op machineId lhId).run m
      = .ok () { m with sent := m.sent ++ [.reply dst op machineId lhId] } := rfl

end Primitives

section Grants

variable (localhostId : BitVec 8)

/-- What is sent to a waiter that gets the lock. -/
def told (e : LockQueueEntry) : Sent :=
  if e.host = localhostId then .signal e.requester else .reply e.host e.op e.host e.requester

/-- Either way it is the waiter who is told. -/
@[simp] lemma told_grantee (e : LockQueueEntry) :
    (told localhostId e).grantee localhostId = (e.host, e.requester) := by
  unfold told
  split
  · next h => rw [Sent.grantee, h]
  · rfl

@[simp] lemma grant_run (e : LockQueueEntry) (m : Machine) :
    (if e.host = localhostId then coroutineWaitQueueSignal e.requester
      else netSend e.host e.op e.host e.requester).run m
      = .ok () { m with sent := m.sent ++ [told localhostId e] } := by
  unfold told
  split <;> simp

@[simp] lemma grant_then_run (e : LockQueueEntry) (rest : Prog Unit) (m : Machine) :
    (if e.host = localhostId then do
      coroutineWaitQueueSignal e.requester
      rest
    else do
      netSend e.host e.op e.host e.requester
      rest).run m = rest.run { m with sent := m.sent ++ [told localhostId e] } := by
  unfold told
  split <;> simp

/-- The loop over the shared waiters counts and tells each of them. -/
@[simp] lemma grantAll_run (sharedHead : List LockQueueEntry) (m : Machine) :
    (sharedHead.forM fun iter => do
      addSharedCounter
      if iter.host = localhostId then coroutineWaitQueueSignal iter.requester
      else netSend iter.host iter.op iter.host iter.requester).run m
      = .ok () { m with
          lq := { m.lq with sharedCounter := m.lq.sharedCounter + BitVec.ofNat 32 sharedHead.length }
          sent := m.sent ++ sharedHead.map (told localhostId) } := by
  induction sharedHead generalizing m with
  | nil => simp
  | cons e rest ih =>
      rw [List.forM_eq_forM, List.forM_cons, ← List.forM_eq_forM]
      simp only [EStateM.run_bind, addSharedCounter_run, grant_run, ih]
      simp [BitVec.ofNat_add, add_right_comm, add_assoc]

end Grants

variable {localhostId : BitVec 8} (lq : LockQueue) (requester : BitVec 32)

lemma acquireLockLocal_run (op : LockOp) :
    outcome localhostId (acquireLockLocal localhostId requester op) lq
      = ofEffect (ParLock.acquireLockLocal localhostId lq requester op) := by
  cases op with
  | lockExcl =>
      by_cases h : lq.lockState = .free <;>
        simp [outcome, acquireLockLocal, ParLock.acquireLockLocal, exclusiveLock, ofEffect, h,
          Sent.grantee, Notice.entry]
  | lockShared =>
      by_cases h : lq.lockState = .exclusive <;>
        simp [outcome, acquireLockLocal, ParLock.acquireLockLocal, sharedLock, ofEffect, h,
          Sent.grantee, Notice.entry]
  | free => simp [outcome, acquireLockLocal, ParLock.acquireLockLocal, ofEffect]
  | release => simp [outcome, acquireLockLocal, ParLock.acquireLockLocal, ofEffect]

lemma serverHandleExclusiveLock_run (hd : LockPostHeader) :
    outcome localhostId (serverHandleExclusiveLock hd) lq
      = ofEffect (ParLock.serverHandleExclusiveLock lq hd) := by
  by_cases h : lq.lockState = .free <;>
    simp [outcome, serverHandleExclusiveLock, ParLock.serverHandleExclusiveLock, exclusiveLock,
      ofEffect, h, Sent.grantee, Notice.entry, LockPostHeader.entry]

lemma serverHandleSharedLock_run (hd : LockPostHeader) :
    outcome localhostId (serverHandleSharedLock hd) lq
      = ofEffect (ParLock.serverHandleSharedLock lq hd) := by
  by_cases h : lq.lockState = .exclusive <;>
    simp [outcome, serverHandleSharedLock, ParLock.serverHandleSharedLock, sharedLock,
      ofEffect, h, Sent.grantee, Notice.entry, LockPostHeader.entry]

lemma serverHandleExclusiveUnlock_run (hd : LockPostHeader) :
    outcome localhostId (serverHandleExclusiveUnlock localhostId hd) lq
      = ofEffect (ParLock.serverHandleExclusiveUnlock localhostId lq hd) := by
  unfold ParLock.serverHandleExclusiveUnlock exclusiveUnlock LockPostHeader.entry
  generalize her : ParLock.eraseLockRequest lq hd.lhId hd.machineId hd.op = r
  obtain ⟨lq', ret⟩ := r
  simp only [outcome, serverHandleExclusiveUnlock, EStateM.run_bind, blockLockQueue_run,
    eraseLockRequest_run, her, getLockState_run]
  by_cases h : lq'.lockState = .exclusive ∧ ret = false
  · simp only [if_pos h, EStateM.run_bind, setLockState_run, getHeadRequest_run]
    cases ParLock.getHeadRequest { lq' with lockState := .free } with
    | none => simp [ofEffect]
    | some head =>
        by_cases hx : head.op = .lockExcl
        · simp only [if_pos hx, EStateM.run_bind, setLockState_run, dequeueRequest_run,
            grant_then_run, unblockLockQueue_run]
          simp [ofEffect, grantWaiter_entry]
        · by_cases hs : head.op = .lockShared
          · simp only [if_neg hx, if_pos hs, EStateM.run_bind, setLockState_run,
              dequeueSharedRequests_run, grantAll_run, unblockLockQueue_run]
            simp [ofEffect, grantWaiter_entry]
          · simp [hx, hs, ofEffect]
  · simp [if_neg h, ofEffect]

lemma serverHandleSharedUnlock_run (hd : LockPostHeader) :
    outcome localhostId (serverHandleSharedUnlock localhostId hd) lq
      = ofEffect (ParLock.serverHandleSharedUnlock localhostId lq hd) := by
  unfold ParLock.serverHandleSharedUnlock sharedUnlock LockPostHeader.entry
  generalize her : ParLock.eraseLockRequest lq hd.lhId hd.machineId hd.op = r
  obtain ⟨lq', ret⟩ := r
  simp only [outcome, serverHandleSharedUnlock, EStateM.run_bind, blockLockQueue_run,
    eraseLockRequest_run, her, getLockState_run]
  by_cases h : lq'.lockState = .shared ∧ ret = false
  · simp only [if_pos h, EStateM.run_bind, subSharedCounter_run, getSharedCounter_run]
    by_cases hpos : 0 < (lq'.sharedCounter - 1).toInt
    · simp only [if_pos hpos, unblockLockQueue_run]
      rfl
    · simp only [if_neg hpos, EStateM.run_bind, setLockState_run, getHeadRequest_run]
      generalize ParLock.getHeadRequest _ = head
      cases head with
      | none => simp [ofEffect]
      | some head =>
          by_cases hx : head.op = .lockExcl
          · simp only [if_pos hx, EStateM.run_bind, setLockState_run, dequeueRequest_run,
              grant_then_run, unblockLockQueue_run]
            simp [ofEffect, grantWaiter_entry]
          · by_cases hs : head.op = .lockShared
            · simp [hs, ofEffect]
            · simp [hx, hs, ofEffect]
  · by_cases hst : lq'.lockState = .shared
    · simp only [if_neg h, EStateM.run_bind, getLockState_run, if_pos hst, unblockLockQueue_run,
        EStateM.run_throw]
      rfl
    · simp [hst, ofEffect]

/-- The copies of an exclusive release differ in the order in which they dequeue the next holder and
set the state. -/
lemma releaseLockLocal_excl_run (m : Machine) :
    (releaseLockLocal localhostId requester .lockExcl).run m
      = (serverHandleExclusiveUnlock localhostId ⟨.lockExcl, localhostId, requester⟩).run m := by
  simp only [releaseLockLocal, serverHandleExclusiveUnlock, EStateM.run_bind, blockLockQueue_run,
    eraseLockRequest_run, if_true, getLockState_run]
  generalize ParLock.eraseLockRequest _ _ _ _ = r
  obtain ⟨lq', ret⟩ := r
  by_cases h : lq'.lockState = .exclusive ∧ ret = false
  · simp only [if_pos h, EStateM.run_bind, setLockState_run, getHeadRequest_run]
    generalize ParLock.getHeadRequest _ = head
    cases head with
    | none => rfl
    | some head =>
        by_cases hx : head.op = .lockExcl
        · simp only [if_pos hx, EStateM.run_bind, setLockState_run, dequeueRequest_run,
            grant_then_run]
          rfl
        · simp only [if_neg hx]
  · simp only [if_neg h]

/-- Those of a shared release differ in the mutex, which `ERROR` finds held at the server only. -/
lemma releaseLockLocal_shared_outcome :
    outcome localhostId (releaseLockLocal localhostId requester .lockShared) lq
      = outcome localhostId
          (serverHandleSharedUnlock localhostId ⟨.lockShared, localhostId, requester⟩) lq := by
  simp only [outcome, releaseLockLocal, serverHandleSharedUnlock, EStateM.run_bind,
    blockLockQueue_run, eraseLockRequest_run, reduceCtorEq, if_false, if_true, getLockState_run]
  generalize ParLock.eraseLockRequest _ _ _ _ = r
  obtain ⟨lq', ret⟩ := r
  by_cases h : lq'.lockState = .shared ∧ ret = false
  · simp only [if_pos h, EStateM.run_bind, subSharedCounter_run, getSharedCounter_run]
    by_cases hpos : 0 < (lq'.sharedCounter - 1).toInt
    · simp only [if_pos hpos]
    · simp only [if_neg hpos, EStateM.run_bind, setLockState_run, getHeadRequest_run]
      generalize ParLock.getHeadRequest _ = head
      cases head with
      | none => rfl
      | some head =>
          by_cases hx : head.op = .lockExcl
          · simp only [if_pos hx, EStateM.run_bind, setLockState_run, dequeueRequest_run,
              grant_then_run]
            rfl
          · by_cases hs : head.op = .lockShared
            · simp [hs]
            · simp only [if_neg hx, if_neg hs]
  · simp only [if_neg h]

/-- The release of a host's own lock has the effect that `ParLock.lean` gives it. -/
lemma releaseLockLocal_run (op : LockOp) :
    outcome localhostId (releaseLockLocal localhostId requester op) lq
      = ofEffect (ParLock.releaseLockLocal localhostId lq requester op) := by
  cases op with
  | lockExcl =>
      rw [outcome, releaseLockLocal_excl_run]
      exact serverHandleExclusiveUnlock_run lq ⟨.lockExcl, localhostId, requester⟩
  | lockShared =>
      rw [releaseLockLocal_shared_outcome]
      exact serverHandleSharedUnlock_run lq ⟨.lockShared, localhostId, requester⟩
  | free => simp [outcome, releaseLockLocal, ParLock.releaseLockLocal, ofEffect]
  | release => simp [outcome, releaseLockLocal, ParLock.releaseLockLocal, ofEffect]

/-- **The local path does what the server path does** with a request of this host: the lock they
leave, the requests they grant and the message they end with, if any, are the same, whatever the
lock and its queue were before. -/
theorem local_path_eq_server_path (localhostId : BitVec 8) (lq : LockQueue)
    (requester : BitVec 32) :
    outcome localhostId (acquireLockLocal localhostId requester .lockExcl) lq
        = outcome localhostId (serverHandleExclusiveLock ⟨.lockExcl, localhostId, requester⟩) lq
      ∧ outcome localhostId (acquireLockLocal localhostId requester .lockShared) lq
        = outcome localhostId (serverHandleSharedLock ⟨.lockShared, localhostId, requester⟩) lq
      ∧ outcome localhostId (releaseLockLocal localhostId requester .lockExcl) lq
        = outcome localhostId
            (serverHandleExclusiveUnlock localhostId ⟨.lockExcl, localhostId, requester⟩) lq
      ∧ outcome localhostId (releaseLockLocal localhostId requester .lockShared) lq
        = outcome localhostId
            (serverHandleSharedUnlock localhostId ⟨.lockShared, localhostId, requester⟩) lq := by
  refine ⟨?_, ?_, ?_, releaseLockLocal_shared_outcome lq requester⟩
  · rw [acquireLockLocal_run, serverHandleExclusiveLock_run]
    by_cases h : lq.lockState = .free <;>
      simp [ParLock.acquireLockLocal, ParLock.serverHandleExclusiveLock, exclusiveLock, h, ofEffect,
        Notice.entry, LockPostHeader.entry]
  · rw [acquireLockLocal_run, serverHandleSharedLock_run]
    by_cases h : lq.lockState = .exclusive <;>
      simp [ParLock.acquireLockLocal, ParLock.serverHandleSharedLock, sharedLock, h, ofEffect,
        Notice.entry, LockPostHeader.entry]
  · rw [outcome, releaseLockLocal_excl_run, outcome]

end FissLock.ParLock.Paths
