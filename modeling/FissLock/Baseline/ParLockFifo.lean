import FissLock.Baseline.ParLock
import FissLock.Library.HolderQueue

/-!
# The ParLock server with the first-come first-served policy

The build without `PARLOCK_READER_FIRST`.  The queue of a lock holds all its requests, the granted
ones included, and two counters say how many of them are shared and exclusive; there is no lock
state.  A request is granted at once if the counters of what it conflicts with are zero.  A release
is taken for that of the holder if its requester is the one of the first entry, and that entry is
then dequeued; otherwise the released request is searched for and erased.

Two releases do not do what they should, and `Meets` leaves them out: one whose requester is that of
the first entry although the first entry is another request, and one of a waiting exclusive request
that separates the shared requests that hold the lock from others that wait.

`release_matches` says what the other releases do to the queue, and `fifo_correct` what follows for
the lock by the rules of `HolderQueue`.
-/

namespace FissLock.ParLock.Fifo

open Runs ReadersWriter HolderQueue

/-! ## The lock queue -/

/-- `lock_state` is not used by this build. -/
structure LockQueue where
  requestQueue : List LockQueueEntry
  sharedCounter : BitVec 32
  exclusiveCounter : BitVec 32
  deriving DecidableEq, Repr

def initLock : LockQueue := ⟨[], 0, 0⟩

def addSharedCounter (lq : LockQueue) : LockQueue :=
  { lq with sharedCounter := lq.sharedCounter + 1 }

def subSharedCounter (lq : LockQueue) : LockQueue :=
  { lq with sharedCounter := lq.sharedCounter - 1 }

def addExclusiveCounter (lq : LockQueue) : LockQueue :=
  { lq with exclusiveCounter := lq.exclusiveCounter + 1 }

def subExclusiveCounter (lq : LockQueue) : LockQueue :=
  { lq with exclusiveCounter := lq.exclusiveCounter - 1 }

def enqueueRequest (lq : LockQueue) (op : LockOp) (machineId : BitVec 8) (lhId : BitVec 32) :
    LockQueue :=
  { lq with requestQueue := lq.requestQueue ++ [⟨op, lhId, machineId⟩] }

def dequeueRequest (lq : LockQueue) : LockQueue :=
  { lq with requestQueue := lq.requestQueue.tail }

def getHeadRequest (lq : LockQueue) : Option LockQueueEntry := lq.requestQueue.head?

/-- The loop stops at the first entry that is not shared. -/
def getHeadSharedRequests (lq : LockQueue) : List LockQueueEntry :=
  lq.requestQueue.takeWhile (·.op = .lockShared)

/-- Erase the first entry of the request; 1 if there was one. -/
def eraseLockRequest (lq : LockQueue) (requester : BitVec 32) (host : BitVec 8) (op : LockOp) :
    LockQueue × ℕ :=
  let hit := fun e : LockQueueEntry => e.host = host ∧ e.requester = requester ∧ e.op = op
  if lq.requestQueue.any (fun e => decide (hit e)) then
    ({ lq with requestQueue := lq.requestQueue.eraseP fun e => decide (hit e) }, 1)
  else (lq, 0)

/-! ## Requests and releases -/

/-- What a function does to the lock and whom it tells. -/
structure Effect where
  lq : LockQueue
  grants : List Notice
  deriving DecidableEq, Repr

/-- An exclusive request; `told` is what the requester is sent if it gets the lock at once. -/
def exclusiveLock (lq : LockQueue) (e : LockQueueEntry) (told : Notice) : Effect :=
  if lq.sharedCounter = 0 ∧ lq.exclusiveCounter = 0 then
    ⟨enqueueRequest (addExclusiveCounter lq) e.op e.host e.requester, [told]⟩
  else ⟨enqueueRequest (addExclusiveCounter lq) e.op e.host e.requester, []⟩

/-- A shared request. -/
def sharedLock (lq : LockQueue) (e : LockQueueEntry) (told : Notice) : Effect :=
  if lq.exclusiveCounter = 0 then
    ⟨enqueueRequest (addSharedCounter lq) e.op e.host e.requester, [told]⟩
  else ⟨enqueueRequest (addSharedCounter lq) e.op e.host e.requester, []⟩

section Handlers

variable (localhostId : BitVec 8)

def serverHandleExclusiveLock (lq : LockQueue) (hd : LockPostHeader) : Effect :=
  exclusiveLock lq hd.entry (.reply hd.entry)

def serverHandleSharedLock (lq : LockQueue) (hd : LockPostHeader) : Effect :=
  sharedLock lq hd.entry (.reply hd.entry)

/-- Who is told when an exclusive request was dequeued. -/
def grantAfterExclusive (lq : LockQueue) : List Notice :=
  match getHeadRequest lq with
  | some head =>
      if head.op = .lockExcl then [grantWaiter localhostId head]
      else if head.op = .lockShared then
        (getHeadSharedRequests lq).map (grantWaiter localhostId)
      else []
  | none => []

/-- Who is told when a shared request was dequeued. -/
def grantAfterShared (lq : LockQueue) : List Notice :=
  match getHeadRequest lq with
  | some head => if head.op = .lockExcl then [grantWaiter localhostId head] else []
  | none => []

/-- `none` is the dereference of a null head. -/
def serverHandleExclusiveUnlock (lq : LockQueue) (hd : LockPostHeader) : Option Effect :=
  match getHeadRequest lq with
  | none => none
  | some curHead =>
      if curHead.requester ≠ hd.lhId then
        let (lq, ret) := eraseLockRequest lq hd.lhId hd.machineId hd.op
        some ⟨if ret = 1 then subExclusiveCounter lq else lq, []⟩
      else
        let lq := subExclusiveCounter (dequeueRequest lq)
        some ⟨lq, grantAfterExclusive localhostId lq⟩

def serverHandleSharedUnlock (lq : LockQueue) (hd : LockPostHeader) : Option Effect :=
  match getHeadRequest lq with
  | none => none
  | some curHead =>
      if curHead.requester ≠ hd.lhId then
        let (lq, ret) := eraseLockRequest lq hd.lhId hd.machineId hd.op
        some ⟨if ret = 1 then subSharedCounter lq else lq, []⟩
      else
        let lq := subSharedCounter (dequeueRequest lq)
        some ⟨lq, grantAfterShared localhostId lq⟩

def processLockReq (lq : LockQueue) (hd : LockPostHeader) : Effect :=
  if hd.op = .lockExcl then serverHandleExclusiveLock lq hd
  else if hd.op = .lockShared then serverHandleSharedLock lq hd
  else ⟨lq, []⟩

def processUnlockReq (lq : LockQueue) (hd : LockPostHeader) : Option Effect :=
  if hd.op = .lockExcl then serverHandleExclusiveUnlock localhostId lq hd
  else if hd.op = .lockShared then serverHandleSharedUnlock localhostId lq hd
  else some ⟨lq, []⟩

def acquireLockLocal (lq : LockQueue) (requester : BitVec 32) (op : LockOp) : Effect :=
  let e : LockQueueEntry := ⟨op, requester, localhostId⟩
  if op = .lockExcl then exclusiveLock lq e (.signal e)
  else if op = .lockShared then sharedLock lq e (.signal e)
  else ⟨lq, []⟩

/-- Unlike the server's handlers it goes by the operator of the entry that it dequeues. -/
def releaseLockLocal (lq : LockQueue) (requester : BitVec 32) (op : LockOp) : Option Effect :=
  match getHeadRequest lq with
  | none => none
  | some lqe =>
      if lqe.requester ≠ requester then
        let (lq, ret) := eraseLockRequest lq requester localhostId op
        if ret = 1 then
          if op = .lockExcl then some ⟨subExclusiveCounter lq, []⟩
          else if op = .lockShared then some ⟨subSharedCounter lq, []⟩
          else some ⟨lq, []⟩
        else some ⟨lq, []⟩
      else
        let lq := dequeueRequest lq
        if lqe.op = .lockExcl then
          let lq := subExclusiveCounter lq
          some ⟨lq, grantAfterExclusive localhostId lq⟩
        else if lqe.op = .lockShared then
          let lq := subSharedCounter lq
          some ⟨lq, grantAfterShared localhostId lq⟩
        else some ⟨lq, []⟩

/-! ## Runs -/

/-- The request that a call is about. -/
def requestOf : Call → LockQueueEntry
  | .lockReq hd => hd.entry
  | .unlockReq hd => hd.entry
  | .acquireLocal requester op => ⟨op, requester, localhostId⟩
  | .releaseLocal requester op => ⟨op, requester, localhostId⟩

def isAcquire : Call → Bool
  | .lockReq _ => true
  | .acquireLocal _ _ => true
  | _ => false

def handle (lq : LockQueue) : Call → Option Effect
  | .lockReq hd => some (processLockReq lq hd)
  | .unlockReq hd => processUnlockReq localhostId lq hd
  | .acquireLocal requester op => some (acquireLockLocal localhostId lq requester op)
  | .releaseLocal requester op => releaseLockLocal localhostId lq requester op

/-- The lock at its server, and what its clients have seen of it. -/
structure Server where
  lq : LockQueue
  hist : History LockQueueEntry

def Server.init : Server := ⟨initLock, .start⟩

/-- A request is made if it is not open, and released if it is, granted or not. -/
def Server.accepts (s : Server) (c : Call) : Prop :=
  if isAcquire c then
    (requestOf localhostId c).isRequest ∧ s.hist.request (requestOf localhostId c) = none
  else s.hist.request (requestOf localhostId c) ≠ none

instance (s : Server) (c : Call) : Decidable (s.accepts localhostId c) :=
  inferInstanceAs (Decidable (ite _ _ _))

/-- What the clients have seen when a call has told the clients `gs`. -/
def Server.observed (s : Server) (c : Call) (gs : List LockQueueEntry) : History LockQueueEntry :=
  if isAcquire c then
    s.hist.requested (requestOf localhostId c) (requestOf localhostId c).isExcl gs
  else s.hist.ended (requestOf localhostId c) gs

/-- The step function. -/
def Server.step (s : Server) (c : Call) : Option Server :=
  if s.accepts localhostId c then
    (handle localhostId s.lq c).map fun o =>
      ⟨o.lq, s.observed localhostId c (o.grants.map Notice.entry)⟩
  else none

end Handlers

/-- The counter of the requests with an operator. -/
def LockQueue.counter (lq : LockQueue) : LockOp → BitVec 32
  | .lockShared => lq.sharedCounter
  | .lockExcl => lq.exclusiveCounter
  | _ => 0

/-- The number of queued requests with an operator. -/
def LockQueue.queued (lq : LockQueue) (op : LockOp) : ℕ := lq.requestQueue.countP (·.op = op)

/-- **The condition.**  An `int` counts the requests with one operator; a release that the server
takes for that of the first entry is one; and no waiting exclusive request is released that separates
shared requests which hold the lock from others. -/
def Meets (localhostId : BitVec 8) (s : Server) (c : Call) : Prop :=
  let e := requestOf localhostId c
  if isAcquire c then s.lq.queued e.op + 1 < 2 ^ 31
  else
    (∀ head ∈ getHeadRequest s.lq, head.requester = e.requester → head = e)
      ∧ ¬ Separates LockQueueEntry.isExcl s.lq.requestQueue e

instance (localhostId : BitVec 8) (s : Server) (c : Call) : Decidable (Meets localhostId s c) :=
  inferInstanceAs (Decidable (ite _ _ _))

abbrev Server.Reachable (localhostId : BitVec 8) (s : Server) : Prop :=
  Reach (Server.step localhostId) (fun _ _ => True) .init s

/-- What holds of a lock that serves first come, first served. -/
structure Correct (localhostId : BitVec 8) (s : Server) : Prop where
  /-- A granted exclusive request is the only granted one. -/
  exclusive : ∀ e, s.hist.granted e → e.op = .lockExcl → ∀ c, s.hist.granted c → c = e
  /-- The counters are the numbers of queued entries. -/
  shared_counter : s.lq.sharedCounter.toInt = s.lq.queued .lockShared
  exclusive_counter : s.lq.exclusiveCounter.toInt = s.lq.queued .lockExcl
  /-- The first entry has been granted, -/
  head_granted : ∀ e ∈ getHeadRequest s.lq, s.hist.granted e
  /-- and if it is shared, so have all shared entries up to the first exclusive one. -/
  prefix_granted : ∀ e ∈ getHeadSharedRequests s.lq, s.hist.granted e
  /-- No handler dereferences a null head. -/
  no_null : ∀ c, s.accepts localhostId c → handle localhostId s.lq c ≠ none

/-! ## What a call does -/

section Effects

variable {localhostId : BitVec 8} {lq : LockQueue} {e : LockQueueEntry}

/-- Every entry is a request, and each counter is the number of entries with its operator. -/
structure Counted (lq : LockQueue) : Prop where
  requests : ∀ e ∈ lq.requestQueue, e.isRequest
  counter : ∀ op, lq.counter op = BitVec.ofNat 32 (lq.queued op)
  fits : ∀ op, lq.queued op < 2 ^ 31

lemma Counted.counter_eq_zero (hc : Counted lq) (op : LockOp) :
    lq.counter op = 0 ↔ ∀ e ∈ lq.requestQueue, e.op ≠ op := by
  have hfit := hc.fits op
  have hzero : lq.counter op = 0 ↔ lq.queued op = 0 := by
    rw [hc.counter op]
    constructor
    · intro h
      have := congrArg BitVec.toNat h
      rw [BitVec.toNat_ofNat, Nat.mod_eq_of_lt (by omega)] at this
      exact this
    · intro h
      rw [h]
      rfl
  rw [hzero, LockQueue.queued, List.countP_eq_zero]
  simp

section Counters

variable (op : LockOp)

@[simp] lemma counter_enqueueRequest (lq : LockQueue) (op' : LockOp) (machineId : BitVec 8)
    (lhId : BitVec 32) : (enqueueRequest lq op' machineId lhId).counter op = lq.counter op := by
  cases op <;> rfl

@[simp] lemma counter_dequeueRequest (lq : LockQueue) :
    (dequeueRequest lq).counter op = lq.counter op := by
  cases op <;> rfl

@[simp] lemma counter_addSharedCounter (lq : LockQueue) : (addSharedCounter lq).counter op
    = lq.counter op + if LockOp.lockShared = op then 1 else 0 := by
  cases op <;> simp [addSharedCounter, LockQueue.counter]

@[simp] lemma counter_addExclusiveCounter (lq : LockQueue) : (addExclusiveCounter lq).counter op
    = lq.counter op + if LockOp.lockExcl = op then 1 else 0 := by
  cases op <;> simp [addExclusiveCounter, LockQueue.counter]

@[simp] lemma counter_subSharedCounter (lq : LockQueue) : (subSharedCounter lq).counter op
    = lq.counter op - if LockOp.lockShared = op then 1 else 0 := by
  cases op <;> simp [subSharedCounter, LockQueue.counter]

@[simp] lemma counter_subExclusiveCounter (lq : LockQueue) : (subExclusiveCounter lq).counter op
    = lq.counter op - if LockOp.lockExcl = op then 1 else 0 := by
  cases op <;> simp [subExclusiveCounter, LockQueue.counter]

end Counters

/-- What a request does to the lock, and whom it is granted. -/
structure Acquires (lq : LockQueue) (e : LockQueueEntry) (o : Effect) : Prop where
  queue : o.lq.requestQueue = lq.requestQueue ++ [e]
  counter : ∀ op, o.lq.counter op = lq.counter op + if e.op = op then 1 else 0
  grants : o.grants.map Notice.entry = entering LockQueueEntry.isExcl lq.requestQueue e

/-- What a release does to it. -/
structure Releases (lq : LockQueue) (e : LockQueueEntry) (o : Effect) : Prop where
  queue : o.lq.requestQueue = lq.requestQueue.erase e
  counter : ∀ op, o.lq.counter op = lq.counter op - if e.op = op then 1 else 0
  grants : o.grants.map Notice.entry = leaving LockQueueEntry.isExcl lq.requestQueue e

lemma exclusiveLock_acquires (hc : Counted lq) (hop : e.op = .lockExcl) {told : Notice}
    (ht : told.entry = e) : Acquires lq e (exclusiveLock lq e told) := by
  have hnil : lq.sharedCounter = 0 ∧ lq.exclusiveCounter = 0 ↔ lq.requestQueue = [] := by
    rw [show lq.sharedCounter = lq.counter .lockShared from rfl,
      show lq.exclusiveCounter = lq.counter .lockExcl from rfl, hc.counter_eq_zero,
      hc.counter_eq_zero, List.eq_nil_iff_forall_not_mem]
    constructor
    · rintro ⟨hs, hx⟩ c hcm
      exact (hc.requests c hcm).elim (hs c hcm) (hx c hcm)
    · exact fun h => ⟨fun c hcm => absurd hcm (h c), fun c hcm => absurd hcm (h c)⟩
  have hent : entering LockQueueEntry.isExcl lq.requestQueue e
      = if lq.requestQueue = [] then [e] else [] := by
    simp [entering, LockQueueEntry.isExcl, hop]
  rw [exclusiveLock]
  by_cases h : lq.requestQueue = []
  · rw [if_pos (hnil.2 h)]
    exact ⟨rfl, fun op => by simp [hop], by rw [hent, if_pos h, ← ht]; rfl⟩
  · rw [if_neg (mt hnil.1 h)]
    exact ⟨rfl, fun op => by simp [hop], by rw [hent, if_neg h]; rfl⟩

lemma sharedLock_acquires (hc : Counted lq) (hop : e.op = .lockShared) {told : Notice}
    (ht : told.entry = e) : Acquires lq e (sharedLock lq e told) := by
  have hall : lq.exclusiveCounter = 0 ↔ ∀ c ∈ lq.requestQueue, c.isExcl = false := by
    rw [show lq.exclusiveCounter = lq.counter .lockExcl from rfl, hc.counter_eq_zero]
    simp [LockQueueEntry.isExcl]
  have hent : entering LockQueueEntry.isExcl lq.requestQueue e
      = if ∀ c ∈ lq.requestQueue, c.isExcl = false then [e] else [] := by
    have he : e.isExcl = false := by simp [LockQueueEntry.isExcl, hop]
    have hempty : lq.requestQueue = [] → ∀ c ∈ lq.requestQueue, c.isExcl = false := by
      intro h
      simp [h]
    simp only [entering, he, and_true, or_iff_right_of_imp hempty]
  rw [sharedLock]
  by_cases h : ∀ c ∈ lq.requestQueue, c.isExcl = false
  · rw [if_pos (hall.2 h)]
    exact ⟨rfl, fun op => by simp [hop], by rw [hent, if_pos h, ← ht]; rfl⟩
  · rw [if_neg (mt hall.1 h)]
    exact ⟨rfl, fun op => by simp [hop], by rw [hent, if_neg h]; rfl⟩

lemma handle_acquires (hc : Counted lq) {c : Call} (hac : isAcquire c = true)
    (he : (requestOf localhostId c).isRequest) :
    ∃ o, handle localhostId lq c = some o ∧ Acquires lq (requestOf localhostId c) o := by
  cases c with
  | lockReq hd =>
      refine ⟨_, rfl, ?_⟩
      rcases he with h | h
      · have h' : hd.op = .lockShared := h
        simp only [processLockReq, h', reduceCtorEq, if_false, if_true]
        exact sharedLock_acquires hc h rfl
      · have h' : hd.op = .lockExcl := h
        simp only [processLockReq, h', if_true]
        exact exclusiveLock_acquires hc h rfl
  | acquireLocal requester op =>
      refine ⟨_, rfl, ?_⟩
      rcases he with h | h
      · obtain rfl : op = .lockShared := h
        exact sharedLock_acquires hc rfl rfl
      · obtain rfl : op = .lockExcl := h
        exact exclusiveLock_acquires hc rfl rfl
  | unlockReq hd => cases hac
  | releaseLocal requester op => cases hac

/-- Another request than the first one is released. -/
lemma eraseLockRequest_of_mem {lq : LockQueue} (h : e ∈ lq.requestQueue) :
    eraseLockRequest lq e.requester e.host e.op
      = ({ lq with requestQueue := lq.requestQueue.erase e }, 1) := by
  simp only [eraseLockRequest, hit_iff]
  rw [if_pos (by simpa using h), List.erase_eq_eraseP]
  simp only [beq_eq_decide, eq_comm]

/-- Among requests what is not exclusive is shared. -/
lemma takeWhile_shared {q : List LockQueueEntry} (hreq : ∀ c ∈ q, c.isRequest) :
    q.takeWhile (·.op = .lockShared) = sharedPrefix LockQueueEntry.isExcl q := by
  unfold sharedPrefix
  induction q with
  | nil => rfl
  | cons c q ih =>
      rw [List.takeWhile_cons, List.takeWhile_cons, ih fun d hd => hreq d (List.mem_cons_of_mem c hd)]
      rcases hreq c List.mem_cons_self with h | h <;> simp [LockQueueEntry.isExcl, h]

lemma grantAfterExclusive_entries (hreq : ∀ c ∈ lq.requestQueue, c.isRequest) :
    (grantAfterExclusive localhostId lq).map Notice.entry
      = holders LockQueueEntry.isExcl lq.requestQueue := by
  have hpre := takeWhile_shared hreq
  rw [grantAfterExclusive, getHeadSharedRequests, hpre, getHeadRequest]
  cases hq : lq.requestQueue with
  | nil => rfl
  | cons head rest =>
      rw [hq] at hreq
      rcases hreq head List.mem_cons_self with h | h
      · have hx : head.isExcl = false := by simp [LockQueueEntry.isExcl, h]
        have hne : sharedPrefix LockQueueEntry.isExcl (head :: rest) ≠ [] := by
          simp [sharedPrefix, hx]
        simp [h, holders, hne, Function.comp_def, grantWaiter_entry]
      · have hx : head.isExcl = true := by simp [LockQueueEntry.isExcl, h]
        simp [h, holders, sharedPrefix, hx, grantWaiter_entry]

lemma grantAfterShared_entries :
    (grantAfterShared localhostId lq).map Notice.entry
      = (lq.requestQueue.take 1).filter LockQueueEntry.isExcl := by
  rw [grantAfterShared, getHeadRequest]
  cases lq.requestQueue with
  | nil => rfl
  | cons head rest =>
      by_cases h : head.op = .lockExcl
      · simp [h, LockQueueEntry.isExcl, grantWaiter_entry]
      · simp [h, LockQueueEntry.isExcl]

@[simp] lemma counter_withQueue (lq : LockQueue) (q : List LockQueueEntry) (op : LockOp) :
    LockQueue.counter { lq with requestQueue := q } op = lq.counter op := by
  cases op <;> rfl

/-- The first entry is dequeued, and it is exclusive. -/
lemma dequeue_excl_releases (hc : Counted lq) {rest : List LockQueueEntry}
    (hq : lq.requestQueue = e :: rest) (hop : e.op = .lockExcl) :
    Releases lq e ⟨subExclusiveCounter (dequeueRequest lq),
      grantAfterExclusive localhostId (subExclusiveCounter (dequeueRequest lq))⟩ := by
  have hx : e.isExcl = true := by simp [LockQueueEntry.isExcl, hop]
  have hrest : (subExclusiveCounter (dequeueRequest lq)).requestQueue = rest := by
    simp [subExclusiveCounter, dequeueRequest, hq]
  refine ⟨?_, fun op => ?_, ?_⟩
  · rw [hrest, hq, List.erase_cons_head]
  · simp [hop]
  · rw [grantAfterExclusive_entries, hrest, hq, leaving_writer hx]
    rw [hrest]
    exact fun c hcm => hc.requests c (by rw [hq]; exact List.mem_cons_of_mem e hcm)

/-- The first entry is dequeued, and it is shared. -/
lemma dequeue_shared_releases {rest : List LockQueueEntry} (hq : lq.requestQueue = e :: rest)
    (hop : e.op = .lockShared) :
    Releases lq e ⟨subSharedCounter (dequeueRequest lq),
      grantAfterShared localhostId (subSharedCounter (dequeueRequest lq))⟩ := by
  have hx : e.isExcl = false := by simp [LockQueueEntry.isExcl, hop]
  have hrest : (subSharedCounter (dequeueRequest lq)).requestQueue = rest := by
    simp [subSharedCounter, dequeueRequest, hq]
  refine ⟨?_, fun op => ?_, ?_⟩
  · rw [hrest, hq, List.erase_cons_head]
  · simp [hop]
  · rw [grantAfterShared_entries, hrest, hq, leaving_reader hx]

section Releases

variable (hc : Counted lq) (he : e ∈ lq.requestQueue)
  (hhead : ∀ head ∈ getHeadRequest lq, head.requester = e.requester → head = e)

include he hhead

/-- The server does not take another request for the first entry. -/
lemma first_or_other : ∃ head, getHeadRequest lq = some head
    ∧ (head.requester ≠ e.requester ∧ leaving LockQueueEntry.isExcl lq.requestQueue e = []
      ∨ head = e ∧ ∃ rest, lq.requestQueue = e :: rest) := by
  cases hq : lq.requestQueue with
  | nil =>
      rw [hq] at he
      cases he
  | cons head rest =>
      have hget : getHeadRequest lq = some head := by rw [getHeadRequest, hq]; rfl
      refine ⟨head, hget, ?_⟩
      by_cases h : head.requester = e.requester
      · obtain rfl := hhead head hget h
        exact .inr ⟨rfl, rest, rfl⟩
      · refine .inl ⟨h, leaving_eq_nil ?_⟩
        rintro ⟨⟩
        exact h rfl

include hc in
lemma serverHandleExclusiveUnlock_releases {hd : LockPostHeader} (hhd : hd.entry = e)
    (hop : e.op = .lockExcl) :
    ∃ o, serverHandleExclusiveUnlock localhostId lq hd = some o ∧ Releases lq e o := by
  subst hhd
  obtain ⟨head, hget, ⟨hne, hnil⟩ | ⟨rfl, rest, hq⟩⟩ := first_or_other he hhead
  · have hers := eraseLockRequest_of_mem he
    simp only [LockPostHeader.entry] at hers hne
    simp only [serverHandleExclusiveUnlock, hget, if_pos hne, hers]
    exact ⟨_, rfl, rfl, fun op => by simp [hop], hnil.symm⟩
  · simp only [serverHandleExclusiveUnlock, hget]
    exact ⟨_, if_neg (fun h => h rfl), dequeue_excl_releases hc hq hop⟩

lemma serverHandleSharedUnlock_releases {hd : LockPostHeader} (hhd : hd.entry = e)
    (hop : e.op = .lockShared) :
    ∃ o, serverHandleSharedUnlock localhostId lq hd = some o ∧ Releases lq e o := by
  subst hhd
  obtain ⟨head, hget, ⟨hne, hnil⟩ | ⟨rfl, rest, hq⟩⟩ := first_or_other he hhead
  · have hers := eraseLockRequest_of_mem he
    simp only [LockPostHeader.entry] at hers hne
    simp only [serverHandleSharedUnlock, hget, if_pos hne, hers]
    exact ⟨_, rfl, rfl, fun op => by simp [hop], hnil.symm⟩
  · simp only [serverHandleSharedUnlock, hget]
    exact ⟨_, if_neg (fun h => h rfl), dequeue_shared_releases hq hop⟩

include hc in
lemma releaseLockLocal_releases {requester : BitVec 32} {op : LockOp}
    (hel : ⟨op, requester, localhostId⟩ = e) (hreq : e.isRequest) :
    ∃ o, releaseLockLocal localhostId lq requester op = some o ∧ Releases lq e o := by
  subst hel
  obtain ⟨head, hget, ⟨hne, hnil⟩ | ⟨rfl, rest, hq⟩⟩ := first_or_other he hhead
  · have hers := eraseLockRequest_of_mem he
    simp only [releaseLockLocal, hget, if_pos hne, hers, if_true]
    rcases hreq with h | h
    · obtain rfl : op = .lockShared := h
      exact ⟨_, rfl, rfl, fun op => by simp, hnil.symm⟩
    · obtain rfl : op = .lockExcl := h
      exact ⟨_, rfl, rfl, fun op => by simp, hnil.symm⟩
  · simp only [releaseLockLocal, hget, ne_eq, not_true, if_false]
    rcases hreq with h | h
    · obtain rfl : op = .lockShared := h
      exact ⟨_, rfl, dequeue_shared_releases hq rfl⟩
    · obtain rfl : op = .lockExcl := h
      exact ⟨_, rfl, dequeue_excl_releases hc hq rfl⟩

end Releases

lemma handle_releases (hc : Counted lq) {c : Call} (hac : isAcquire c = false)
    (he : requestOf localhostId c ∈ lq.requestQueue)
    (hhead : ∀ head ∈ getHeadRequest lq,
      head.requester = (requestOf localhostId c).requester → head = requestOf localhostId c) :
    ∃ o, handle localhostId lq c = some o ∧ Releases lq (requestOf localhostId c) o := by
  have hreq := hc.requests _ he
  cases c with
  | lockReq hd => cases hac
  | acquireLocal requester op => cases hac
  | unlockReq hd =>
      rcases hreq with h | h
      · have h' : hd.op = .lockShared := h
        simp only [handle, processUnlockReq, h', reduceCtorEq, if_false, if_true]
        exact serverHandleSharedUnlock_releases he hhead rfl h
      · have h' : hd.op = .lockExcl := h
        simp only [handle, processUnlockReq, h', if_true]
        exact serverHandleExclusiveUnlock_releases hc he hhead rfl h
  | releaseLocal requester op => exact releaseLockLocal_releases hc he hhead rfl hreq

/-- A handler dereferences the first entry only, and that only in a release. -/
lemma handle_ne_none (c : Call) (h : isAcquire c = false → lq.requestQueue ≠ []) :
    handle localhostId lq c ≠ none := by
  cases c with
  | lockReq hd => simp [handle]
  | acquireLocal requester op => simp [handle]
  | unlockReq hd =>
      obtain ⟨head, rest, hq⟩ := List.exists_cons_of_ne_nil (h rfl)
      simp only [handle, processUnlockReq, serverHandleExclusiveUnlock, serverHandleSharedUnlock,
        getHeadRequest, hq, List.head?_cons]
      split_ifs <;> simp
  | releaseLocal requester op =>
      obtain ⟨head, rest, hq⟩ := List.exists_cons_of_ne_nil (h rfl)
      simp only [handle, releaseLockLocal, getHeadRequest, hq, List.head?_cons]
      split_ifs <;> simp

end Effects

/-! ## The invariant -/

/-- The queue is that of a first-come first-served lock, and the counters count it. -/
structure Good (s : Server) : Prop where
  fifo : Inv LockQueueEntry.isExcl s.lq.requestQueue s.hist
  counted : Counted s.lq

lemma good_init : Good .init where
  fifo := inv_start _
  counted :=
    { requests := by simp [Server.init, initLock]
      counter := fun op => by cases op <;> rfl
      fits := fun op => by simp [LockQueue.queued, Server.init, initLock] }

section Steps

variable {localhostId : BitVec 8} {lq : LockQueue} {e : LockQueueEntry} {o : Effect}

lemma Counted.acquired (hc : Counted lq) (ho : Acquires lq e o) (he : e.isRequest)
    (hfit : lq.queued e.op + 1 < 2 ^ 31) : Counted o.lq := by
  have hqueued : ∀ op, o.lq.queued op = lq.queued op + if e.op = op then 1 else 0 := fun op => by
    simp [LockQueue.queued, ho.queue, List.countP_append, List.countP_singleton]
  refine ⟨fun c hcm => ?_, fun op => ?_, fun op => ?_⟩
  · rw [ho.queue, List.mem_append, List.mem_singleton] at hcm
    rcases hcm with hcm | rfl
    · exact hc.requests c hcm
    · exact he
  · rw [ho.counter, hqueued, hc.counter]
    split <;> simp [BitVec.ofNat_add]
  · have := hc.fits op
    rw [hqueued]
    split
    · next h => rwa [← h]
    · exact this

lemma Counted.released (hc : Counted lq) (ho : Releases lq e o) (he : e ∈ lq.requestQueue) :
    Counted o.lq := by
  have hqueued : ∀ op, lq.queued op = o.lq.queued op + if e.op = op then 1 else 0 := fun op => by
    rw [LockQueue.queued, (List.perm_cons_erase he).countP_eq, List.countP_cons, ← ho.queue]
    simp [LockQueue.queued]
  refine ⟨fun c hcm => ?_, fun op => ?_, fun op => ?_⟩
  · rw [ho.queue] at hcm
    exact hc.requests c (List.mem_of_mem_erase hcm)
  · rw [ho.counter, hc.counter, hqueued]
    split <;> simp [BitVec.ofNat_add]
  · have := hc.fits op
    rw [hqueued] at this
    omega

variable {s s' : Server} {c : Call}

lemma Good.mem_queue_iff (hg : Good s) :
    s.hist.request e ≠ none ↔ e ∈ s.lq.requestQueue := by
  rw [ne_eq, hg.fifo.request_eq_none, not_not]

/-- **The step lemma.** -/
lemma Good.step (hg : Good s) (hm : Meets localhostId s c) (h : s.step localhostId c = some s') :
    Good s' := by
  rw [Server.step] at h
  split at h
  · next hacc =>
      rw [Server.accepts] at hacc
      rw [Meets] at hm
      cases hac : isAcquire c with
      | true =>
          rw [if_pos hac] at hacc hm
          obtain ⟨o, ho, heff⟩ := handle_acquires hg.counted hac hacc.1
          rw [ho, Option.map_some, Option.some.injEq] at h
          subst h
          refine ⟨?_, hg.counted.acquired heff hacc.1 hm⟩
          simp only [heff.queue, Server.observed, if_pos hac, heff.grants]
          exact hg.fifo.enter hacc.2
      | false =>
          rw [hac] at hacc hm
          have hmem := hg.mem_queue_iff.1 hacc
          obtain ⟨o, ho, heff⟩ := handle_releases hg.counted hac hmem hm.1
          rw [ho, Option.map_some, Option.some.injEq] at h
          subst h
          refine ⟨?_, hg.counted.released heff hmem⟩
          simp only [heff.queue, Server.observed, hac, heff.grants]
          exact hg.fifo.leave hm.2
  · cases h

lemma Good.counter_toInt (hg : Good s) (op : LockOp) :
    (s.lq.counter op).toInt = s.lq.queued op := by
  have := hg.counted.fits op
  rw [hg.counted.counter, BitVec.toInt_eq_toNat_of_lt, BitVec.toNat_ofNat, Nat.mod_eq_of_lt]
  · omega
  · rw [BitVec.toNat_ofNat, Nat.mod_eq_of_lt] <;> omega

lemma Good.correct (hg : Good s) : Correct localhostId s where
  exclusive e he hop c hc :=
    hg.fifo.exclusive he (by simp [LockQueueEntry.isExcl, hop]) hc
  shared_counter := hg.counter_toInt .lockShared
  exclusive_counter := hg.counter_toInt .lockExcl
  head_granted e he := hg.fifo.head_granted he
  prefix_granted e he := by
    rw [getHeadSharedRequests, takeWhile_shared hg.counted.requests] at he
    exact hg.fifo.prefix_granted he
  no_null c hacc := handle_ne_none c fun hac => by
    rw [Server.accepts, hac] at hacc
    exact List.ne_nil_of_mem (hg.mem_queue_iff.1 hacc)

/-- The release that the condition excludes always breaks the policy, even if the server takes it
for that of the right request. -/
lemma Good.not_correct_of_separates (hg : Good s) (hac : isAcquire c = false)
    (hhead : ∀ head ∈ getHeadRequest s.lq,
      head.requester = (requestOf localhostId c).requester → head = requestOf localhostId c)
    (hsep : Separates LockQueueEntry.isExcl s.lq.requestQueue (requestOf localhostId c))
    (h : s.step localhostId c = some s') : ¬ Correct localhostId s' := by
  rw [Server.step] at h
  split at h
  · next hacc =>
      rw [Server.accepts, hac] at hacc
      obtain ⟨o, ho, heff⟩ := handle_releases hg.counted hac (hg.mem_queue_iff.1 hacc) hhead
      rw [ho, Option.map_some, Option.some.injEq] at h
      subst h
      obtain ⟨b, hb, hno⟩ := hg.fifo.not_granted_of_separates hsep
      intro hcor
      refine hno ?_
      have hreq := (hg.counted.released heff (hg.mem_queue_iff.1 hacc)).requests
      rw [← heff.queue, ← takeWhile_shared hreq] at hb
      have := hcor.prefix_granted b hb
      simp only [Server.observed, hac, heff.grants] at this
      exact this
  · cases h

end Steps

/-- **First come, first served**: in every run whose calls meet the condition, whoever asks and
releases, remote or local, and whenever requests are aborted. -/
theorem fifo_correct (localhostId : BitVec 8) {s : Server}
    (h : Reach (Server.step localhostId) (Meets localhostId) .init s) : Correct localhostId s :=
  (h.invariant good_init fun _ _ _ hg hm hstep => hg.step hm hstep).correct

/-- An exclusive request of the server waits behind a shared one of another host, and a shared one
waits behind it; both holders are done in turn. -/
theorem fifo_correct_handed_over :
    ∃ s, Reach (Server.step 1) (Meets 1) .init s ∧ Correct 1 s
      ∧ s.lq = ⟨[⟨.lockShared, 7, 3⟩], 1, 0⟩ := by
  have hex : ∃ s, Reach (Server.step 1) (Meets 1) .init s
      ∧ s.lq = ⟨[⟨.lockShared, 7, 3⟩], 1, 0⟩ :=
    Reach.exists_of_runFrom [.lockReq ⟨.lockShared, 2, 7⟩, .acquireLocal 5 .lockExcl,
      .lockReq ⟨.lockShared, 3, 7⟩, .unlockReq ⟨.lockShared, 2, 7⟩, .releaseLocal 5 .lockExcl]
      (by decide +kernel)
  obtain ⟨s, hs, hlq⟩ := hex
  exact ⟨s, hs, fifo_correct 1 hs, hlq⟩

/-- The policy is not kept in all runs.  An exclusive request that is aborted between a shared holder
and a shared waiter leaves the waiter in the shared prefix without the lock; and the abort of a
shared request whose requester is that of the exclusive holder dequeues the holder's entry and
counts a shared one. -/
theorem fifo_fails :
    (∃ s, Server.Reachable 1 s ∧ ¬ Correct 1 s
      ∧ s.lq = ⟨[⟨.lockShared, 7, 2⟩, ⟨.lockShared, 9, 3⟩], 2, 0⟩)
    ∧ ∃ s, Server.Reachable 1 s ∧ ¬ Correct 1 s ∧ s.lq = ⟨[⟨.lockShared, 7, 3⟩], 0, 1⟩ := by
  constructor
  · have hex : ∃ s, Server.Reachable 1 s
        ∧ s.lq = ⟨[⟨.lockShared, 7, 2⟩, ⟨.lockShared, 9, 3⟩], 2, 0⟩
        ∧ ¬ s.hist.granted ⟨.lockShared, 9, 3⟩ :=
      Reach.exists_of_runFrom [.lockReq ⟨.lockShared, 2, 7⟩, .lockReq ⟨.lockExcl, 2, 8⟩,
        .lockReq ⟨.lockShared, 3, 9⟩, .unlockReq ⟨.lockExcl, 2, 8⟩] (by decide +kernel)
    obtain ⟨s, hs, hlq, hno⟩ := hex
    refine ⟨s, hs, fun hc => hno (hc.prefix_granted _ ?_), hlq⟩
    rw [hlq]
    decide
  · have hex : ∃ s, Server.Reachable 1 s ∧ s.lq = ⟨[⟨.lockShared, 7, 3⟩], 0, 1⟩ :=
      Reach.exists_of_runFrom [.lockReq ⟨.lockExcl, 2, 7⟩, .lockReq ⟨.lockShared, 3, 7⟩,
        .unlockReq ⟨.lockShared, 3, 7⟩] (by decide +kernel)
    obtain ⟨s, hs, hlq⟩ := hex
    refine ⟨s, hs, fun hc => ?_, hlq⟩
    have := hc.shared_counter
    rw [hlq] at this
    exact absurd this (by decide)

end FissLock.ParLock.Fifo
