import FissLock.Host.LockMeta

/-!
# `lock_packet_process`

The dispatcher target of every lock packet that reaches a host, one definition for each case of
its `switch`.  A handler works on the packet in place: it returns the new metadata, the packet as
it left it, and an `int`.  A nonzero result asks `net.cc` to send the (rewritten) packet back to
the switch, so what a handler puts on the wire is `Outcome.toSwitch`.

Two behaviours are easy to overlook and are kept exactly as they are in the source.

* A `RELEASE` whose holder is not recorded sets the early-release mark and **falls through** to the
  hand-over at the end of the case, whether or not this host is the agent (`processRelease`).
* Consuming an early-release mark returns at once, without asking whether the lock could now be
  handed over (`processAcquire`).
-/

namespace FissLock

/-- What handling one packet did. -/
structure Outcome where
  /-- The lock metadata afterwards. -/
  lock : InnetLock
  /-- The packet, as the handler left it in its buffer. -/
  hdr : LockHdr
  /-- The return value. -/
  ret : ℕ := 0
  /-- Packets handed to `net_send_batch` on the way. -/
  sent : List LockHdr := []
  /-- Assertions that would have fired. -/
  failed : List Assertion := []

/-- `net_poll_packets`: the packets that reach the switch because of this one.  The buffer is
re-used for the reply if the handler returned nonzero. -/
def Outcome.toSwitch (o : Outcome) : List LockHdr :=
  o.sent ++ if o.ret ≠ 0 then [o.hdr] else []

/-- `case POST_LOCK_ACQUIRE`. -/
def processAcquire (l : InnetLock) (hdr : LockHdr) : Outcome :=
  if lockOutOfRange l then
    let r := handleAcquireLm l hdr.machineId hdr.taskId hdr.modeState
    if r.2 then
      { lock := r.1, hdr := { hdr with type := .grantWoAgent, agent := hdr.machineId }, ret := 1 }
    else { lock := r.1, hdr := hdr }
  else
    let l := if hdr.modeState = .shared ∧ hdr.granted then { l with ncnt := l.ncnt + 1 } else l
    let lh := hdr.holder
    if l.earlyRelease lh then
      { lock := { l with earlyRelease := Function.update l.earlyRelease lh false }, hdr := hdr }
    else if !l.isAgent then
      if hdr.modeState = .shared then
        if hdr.granted then
          { lock := handleGrantedAcquire l hdr.machineId hdr.taskId, hdr := hdr }
        else { lock := l, hdr := hdr, ret := 1 }
      else if 2 < l.fwdBackCnt lh then
        -- bounced three times already: expect a delayed grant and queue ahead of time
        let r := handleSuspendAcquire l hdr.machineId hdr.taskId hdr.modeState
        { lock := { r.1 with fwdBackCnt := Function.update r.1.fwdBackCnt lh 0 }
          hdr := hdr
          failed := r.2 }
      else
        { lock := { l with fwdBackCnt := Function.update l.fwdBackCnt lh (l.fwdBackCnt lh + 1) }
          hdr := hdr
          ret := 1 }
    else if hdr.granted then
      { lock := handleGrantedAcquire l hdr.machineId hdr.taskId, hdr := hdr }
    else
      let r := handleSuspendAcquire l hdr.machineId hdr.taskId hdr.modeState
      { lock := r.1, hdr := hdr, failed := r.2 }

/-- `case POST_LOCK_GRANT_WITH_AGENT`. -/
def processGrantWithAgent (cf : Conf) (l : InnetLock) (hdr : LockHdr) : Outcome :=
  if hdr.taskId = TASK_FOR_RESTORE then { lock := l, hdr := hdr }
  else
    let failed := assertThat (l.isAgent = false) .redundantAgent
      ++ assertThat (hdr.agent = cf.localhostId) .agentIsLocalhost
    let l := lockAddHolder { l with isAgent := true } (cf.localhostId, hdr.taskId)
    let l := { l with mode := hdr.modeState }
    if hdr.transferred then
      let l := { l with ncnt := l.ncnt + 0 }
      -- a wait queue that came along is digested in shared mode and adopted whole otherwise
      let r := if hdr.wq ≠ [] then
          if l.mode = .shared then lockDigestWq l hdr.wq else (lockUnmarshalWq l hdr.wq, [])
        else (l, [])
      { lock := lockLocalNotify r.1 hdr.taskId, hdr := hdr, sent := r.2, failed := failed }
    else
      let l := if l.mode = .shared then { l with ncnt := l.ncnt + 1 } else { l with ncnt := 0 }
      { lock := lockLocalNotify l hdr.taskId, hdr := hdr, failed := failed }

/-- `case POST_LOCK_GRANT_WO_AGENT`. -/
def processGrantWoAgent (cf : Conf) (l : InnetLock) (hdr : LockHdr) : Outcome where
  lock := lockLocalNotify l hdr.taskId
  hdr := hdr
  failed := assertThat (hdr.machineId = cf.localhostId) .machineIsLocalhost

/-- The end of `case POST_LOCK_RELEASE`: with no holder left, free or transfer the lock. -/
def releaseHandOver (cf : Conf) (l : InnetLock) (hdr : LockHdr) (failed : List Assertion) :
    Outcome :=
  if lockNoHolders l then
    if lockNoWaiters l then
      let r := lockFreeHelper cf l hdr
      { lock := r.1, hdr := r.2, ret := 1, failed := failed }
    else
      let r := lockTransferHelper cf l hdr
      -- `wq_size ? wq_size * sizeof(wqe) : 1`, an entry being five bytes
      { lock := r.1
        hdr := r.2.1
        ret := if r.2.2 ≠ 0 then r.2.2 * 5 else 1
        failed := failed }
  else { lock := l, hdr := hdr, failed := failed }

/-- `case POST_LOCK_RELEASE`. -/
def processRelease (cf : Conf) (l : InnetLock) (hdr : LockHdr) : Outcome :=
  if lockOutOfRange l then
    let r := handleReleaseLm l hdr.machineId hdr.taskId
    if r.2.2 then
      match r.1.wqueue with
      | [] => { lock := r.1, hdr := hdr, sent := r.2.1 }
      | w :: rest =>
          { lock := { r.1 with wqueue := rest }
            hdr := { hdr with
              type := .grantWoAgent, machineId := w.host, taskId := w.taskId, agent := w.host }
            ret := 1
            sent := r.2.1 }
    else { lock := r.1, hdr := hdr, sent := r.2.1 }
  else if !lockHasHolder l hdr.holder then
    -- not a holder: perhaps a waiter that gave up
    if l.wqueue.any fun e => e.host = hdr.machineId ∧ e.taskId = hdr.taskId then
      { lock := { l with
          wqueue := l.wqueue.eraseP fun e => e.host = hdr.machineId ∧ e.taskId = hdr.taskId }
        hdr := hdr }
    else
      -- otherwise the acquire is still on its way; note that the agency is not asked for here
      releaseHandOver cf
        { l with earlyRelease := Function.update l.earlyRelease hdr.holder true } hdr []
  else if !l.isAgent then
    { lock := { lockRemoveHolder l hdr.holder with delayedFree := true }, hdr := hdr }
  else
    let r := handleRelease l hdr.machineId hdr.taskId
    releaseHandOver cf r.1 hdr r.2

/-- `case POST_LOCK_TRANSFER` and `case POST_LOCK_FREE`: the switch pushed our packet back. -/
def processPushedBack (l : InnetLock) (hdr : LockHdr) : Outcome :=
  if l.delayedFree ∧ lockNoHolders l then
    { lock := { l with ncnt := 0, delayedFree := false }
      hdr := { hdr with ncnt := hdr.ncnt + l.ncnt.setWidth 8 }
      ret := 1 }
  else
    let failed := assertThat (l.mode = .free) .modeNotFree
    let l := { l with
      mode := hdr.oldModeState, isAgent := true, ncnt := l.ncnt + hdr.ncnt.setWidth 32 }
    let l := if hdr.type = .transfer then
        { l with
          wqueue := l.wqueue ++ Wqe.ofReq hdr.modeState hdr.taskId hdr.machineId :: hdr.wq }
      else l
    { lock := l, hdr := hdr, failed := failed }

/-- `lock_packet_process`, with no application-defined preprocessor registered. -/
def lockPacketProcess (cf : Conf) (l : InnetLock) (hdr : LockHdr) : Outcome :=
  match hdr.type with
  | .acquire => processAcquire l hdr
  | .grantWithAgent => processGrantWithAgent cf l hdr
  | .grantWoAgent => processGrantWoAgent cf l hdr
  | .release => processRelease cf l hdr
  | .transfer => processPushedBack l hdr
  | .free => processPushedBack l hdr
  | .other _ => { lock := l, hdr := hdr }

end FissLock
