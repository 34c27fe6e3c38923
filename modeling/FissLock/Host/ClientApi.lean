import FissLock.Host.PacketProcess

/-!
# The client interface: acquire, poll, release

`lock_acquire_async`, `lock_req_granted` and `lock_release` of `lib/lock.cc`, for the builds
without `TPCC_ENB_LOCAL` and `FISSLOCK_FAILURE_RECOVERY`.  Each call locks the metadata mutex once,
so the metadata changes in one step; the packets it sends are returned, because most of them leave
only after the mutex was dropped, and so is the task that a local hand-over notifies then.
-/

namespace FissLock

/-- `lock_req`, the result of `lock_acquire_async`: the source packs all of these into one
`uint64_t`. -/
inductive LockReq where
  /-- `0`: the lock was granted on the spot. -/
  | granted
  /-- The address of the task's grant flag. -/
  | flag (tid : TaskId)
  /-- `-ERR_INVALID_OP`. -/
  | invalidOp
  /-- The variable `req` was never assigned. -/
  | uninitialised
  deriving DecidableEq, Repr

/-- What a call of the client interface did. -/
structure CallOutcome where
  lock : InnetLock
  sent : List LockHdr := []
  /-- The task it passes to `lock_local_notify` after it dropped the mutex. -/
  notify : Option TaskId := none
  failed : List Assertion := []

/-- A call, with the notification that it ends with. -/
def CallOutcome.done (o : CallOutcome) : InnetLock :=
  match o.notify with
  | none => o.lock
  | some t => lockLocalNotify o.lock t

/-- `lock_prepare_wait`: `emplace` leaves a flag that exists already as it is, so the metadata does
not change. -/
def lockPrepareWait (tid : TaskId) : LockReq := .flag tid

/-- `lock_acquire_async`. -/
def lockAcquireAsync (cf : Conf) (l : InnetLock) (task : TaskId) (op : LockState) :
    CallOutcome × LockReq :=
  if op ≠ .excl ∧ op ≠ .shared then ({ lock := l }, .invalidOp)
  else if lockOutOfRange l then
    if lockToLm l = cf.localhostId then
      let r := handleAcquireLm l cf.localhostId task op
      if r.2 then ({ lock := r.1 }, .granted) else ({ lock := r.1 }, lockPrepareWait task)
    else ({ lock := l, sent := [sendPostAcquireLm cf op l.id (lockToLm l) task] },
      lockPrepareWait task)
  else if cf.enbLocalGrants then
    if cf.bmv2 ∧ op = .excl ∧ l.mode = .excl ∧ !lockNoHolders l
        ∧ !lockHasHolder l (cf.localhostId, task) then
      let r := handleSuspendAcquire l cf.localhostId task op
      ({ lock := r.1, failed := r.2 }, lockPrepareWait task)
    else if l.isAgent then
      if l.mode = .shared ∧ op = .shared then
        ({ lock := handleGrantedAcquire l cf.localhostId task }, .granted)
      else
        let r := handleSuspendAcquire l cf.localhostId task op
        ({ lock := r.1, failed := r.2 }, lockPrepareWait task)
    else ({ lock := l, sent := [sendPostAcquire cf op l.id cf.localhostId task] },
      lockPrepareWait task)
  else ({ lock := l, sent := [sendPostAcquire cf op l.id cf.localhostId task] }, .uninitialised)

/-- `lock_req_granted` on a flag handle: reads the flag, and resets it when it was set. -/
def lockReqGranted (l : InnetLock) (tid : TaskId) : InnetLock × Bool :=
  if l.taskGranted tid then
    ({ l with taskGranted := Function.update l.taskGranted tid false }, true)
  else (l, false)

/-- The hand-over at the end of the agent branch of `lock_release`. -/
def lockReleaseHandOver (cf : Conf) (l : InnetLock) (failed : List Assertion) : CallOutcome :=
  if lockNoHolders l then
    match l.wqueue with
    | [] =>
        { lock := { l with isAgent := false, mode := .free, ncnt := 0 }
          sent := [sendPostFree cf l.id (l.ncnt.setWidth 8) l.mode]
          failed := failed }
    | e :: rest =>
        if cf.bmv2 ∧ e.host = cf.localhostId then
          -- BMv2 local grant: hand the lock to our own next waiter without a packet
          { lock := lockAddHolder { l with wqueue := rest, mode := e.op } (cf.localhostId, e.taskId)
            notify := some e.taskId
            failed := failed }
        else
          { lock := { l with isAgent := false, mode := .free, ncnt := 0, wqueue := [] }
            sent := [sendPostTransfer cf e.op l.id e.host e.taskId rest (l.ncnt.setWidth 8) l.mode]
            failed := failed ++ assertThat (l.wqueue.length * 5 < 2000) .wqueueTooLong }
  else { lock := l, failed := failed }

/-- `lock_release`. -/
def lockRelease (cf : Conf) (l : InnetLock) (task : TaskId) : CallOutcome :=
  let l := { l with localHolders := l.localHolders.erase task }
  if lockOutOfRange l then
    if lockToLm l = cf.localhostId then
      let r := handleReleaseLm l cf.localhostId task
      if r.2.2 then
        match r.1.wqueue with
        | [] => { lock := r.1, sent := r.2.1 }
        | w :: rest =>
            { lock := { r.1 with wqueue := rest }
              sent := r.2.1 ++ [sendPostGrant l.id w.host w.taskId] }
      else { lock := r.1, sent := r.2.1 }
    else { lock := l, sent := [sendPostReleaseLm l.id cf.localhostId task (lockToLm l)] }
  else if l.isAgent then
    if !lockHasHolder l (cf.localhostId, task) then
      lockReleaseHandOver cf
        { l with earlyRelease := Function.update l.earlyRelease (cf.localhostId, task) true } []
    else
      let r := handleRelease l cf.localhostId task
      lockReleaseHandOver cf r.1 r.2
  else { lock := l, sent := [sendPostRelease cf l.id cf.localhostId task] }

end FissLock
