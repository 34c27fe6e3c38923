import FissLock.Library.ReadersWriter
import FissLock.Library.SignedCounter

/-!
# The ParLock server

ParLock is a baseline that FissLock is compared with: every lock has one server host, which keeps a
queue of requests for it.  This is the default build, with `PARLOCK_READER_FIRST` and without
`PARLOCK_ENQUEUE_HOLDERS`, so the queue holds the requests that wait and **not** the holders.  Of
the holders the server knows the mode of the lock and, if it is shared, how many they are; a release
is taken for that of a holder exactly if no entry could be erased from the queue.

Remote clients reach the server through `process_lock_req` and `process_unlock_req`, its own tasks
call `acquire_lock_local` and `release_lock_local`.  Each holds the queue's mutex from its first
read to its last write, so a run is a sequence of these four.

`step_simulated` matches every step by one of the abstract readers-writer lock, whose clients are
the requests themselves, as long as `shared_counter`, an `int`, counts the holders; then
`parlock_consistent` is what follows for the server.  With `2 ^ 31` holders the counter is negative
(`parlock_consistent_fails`).
-/

namespace FissLock.ParLock

open Runs ReadersWriter SignedCounter

/-! ## The lock queue -/

/-- `lock_state` of `lock.h`, which also serves as the operator of a request. -/
inductive LockOp where
  | free
  | release
  | lockShared
  | lockExcl
  deriving DecidableEq, Repr

/-- `STATE_FREE`, `STATE_SHARED` and `STATE_EXCLUSIVE`. -/
inductive QueueState where
  | free
  | shared
  | exclusive
  deriving DecidableEq, Repr

structure LockQueueEntry where
  op : LockOp
  requester : BitVec 32
  host : BitVec 8
  deriving DecidableEq, Repr

/-- `exclusive_counter` is not used by this build.  `shared_counter` is an `int`, which wraps around
here; the source leaves it undefined. -/
structure LockQueue where
  requestQueue : List LockQueueEntry
  sharedCounter : BitVec 32
  lockState : QueueState
  deriving DecidableEq, Repr

def initLock : LockQueue := ⟨[], 0, .free⟩

def enqueueRequest (lq : LockQueue) (op : LockOp) (machineId : BitVec 8) (lhId : BitVec 32) :
    LockQueue :=
  { lq with requestQueue := lq.requestQueue ++ [⟨op, lhId, machineId⟩] }

def dequeueRequest (lq : LockQueue) : LockQueue :=
  { lq with requestQueue := lq.requestQueue.tail }

def getHeadRequest (lq : LockQueue) : Option LockQueueEntry := lq.requestQueue.head?

/-- The loop of `dequeue_shared_requests`: the queue, the index of `iter` in it, `prev_idx` and
`result`.  Every round erases an entry or moves on by one, so the length of the queue is fuel
enough (`dequeueSharedRequests_eq`). -/
def dequeueSharedLoop : ℕ → List LockQueueEntry → ℕ → ℤ → List LockQueueEntry →
    List LockQueueEntry × List LockQueueEntry
  | 0, q, _, _, result => (q, result)
  | n + 1, q, iter, prevIdx, result =>
      match q[iter]? with
      | none => (q, result)
      | some e =>
          if e.op = .lockShared then
            let q' := q.eraseIdx iter
            if q' = [] then (q', result ++ [e])
            else dequeueSharedLoop n q' (prevIdx + 1).toNat prevIdx (result ++ [e])
          else dequeueSharedLoop n q (iter + 1) (prevIdx + 1) result

/-- The queue afterwards, and the requests taken from it. -/
def dequeueSharedRequests (lq : LockQueue) : LockQueue × List LockQueueEntry :=
  let r := dequeueSharedLoop lq.requestQueue.length lq.requestQueue 0 (-1) []
  ({ lq with requestQueue := r.1 }, r.2)

/-- Erase the first entry of the request; `true` if there was one. -/
def eraseLockRequest (lq : LockQueue) (requester : BitVec 32) (host : BitVec 8) (op : LockOp) :
    LockQueue × Bool :=
  let hit := fun e : LockQueueEntry => e.host = host ∧ e.requester = requester ∧ e.op = op
  if lq.requestQueue.any (fun e => decide (hit e)) then
    ({ lq with requestQueue := lq.requestQueue.eraseP fun e => decide (hit e) }, true)
  else (lq, false)

/-! ## Requests and releases -/

/-- How the requester of a granted lock is told. -/
inductive Notice where
  /-- `coroutine_wait_queue_signal` wakes a task of this host. -/
  | signal (e : LockQueueEntry)
  /-- `net_send` of a `POST_LOCK_REPLY` to its host. -/
  | reply (e : LockQueueEntry)
  deriving DecidableEq, Repr

/-- The request that is granted. -/
def Notice.entry : Notice → LockQueueEntry
  | .signal e => e
  | .reply e => e

/-- The two messages that `ERROR` prints, less the core and the lock; `release_lock_local` words
them "shared local unlock". -/
inductive Abnormal where
  /-- Abnormal condition in shared unlock: shared waiter in the queue when state is shared. -/
  | sharedWaiter (requester : BitVec 32)
  /-- Abnormal condition in shared unlock when lock state is shared: unlocker abort release. -/
  | abortRelease (unlocker : BitVec 32)
  deriving DecidableEq, Repr

/-- What a function does to the lock and which messages it causes. -/
structure Effect where
  lq : LockQueue
  grants : List Notice
  errors : List Abnormal
  deriving DecidableEq, Repr

/-- An exclusive request; `told` is what the requester is sent if it gets the lock at once. -/
def exclusiveLock (lq : LockQueue) (e : LockQueueEntry) (told : Notice) : Effect :=
  if lq.lockState = .free then ⟨{ lq with lockState := .exclusive }, [told], []⟩
  else ⟨enqueueRequest lq e.op e.host e.requester, [], []⟩

/-- A shared request. -/
def sharedLock (lq : LockQueue) (e : LockQueueEntry) (told : Notice) : Effect :=
  if lq.lockState ≠ .exclusive then
    ⟨{ lq with lockState := .shared, sharedCounter := lq.sharedCounter + 1 }, [told], []⟩
  else ⟨enqueueRequest lq e.op e.host e.requester, [], []⟩

section Handlers

variable (localhostId : BitVec 8)

/-- A waiter is woken up if it is a task of this host, and sent a reply otherwise. -/
def grantWaiter (e : LockQueueEntry) : Notice :=
  if e.host = localhostId then .signal e else .reply e

/-- An exclusive release. -/
def exclusiveUnlock (lq : LockQueue) (e : LockQueueEntry) : Effect :=
  let (lq, ret) := eraseLockRequest lq e.requester e.host e.op
  if lq.lockState = .exclusive ∧ ret = false then
    let lq := { lq with lockState := .free }
    match getHeadRequest lq with
    | some head =>
        if head.op = .lockExcl then
          ⟨dequeueRequest { lq with lockState := .exclusive }, [grantWaiter localhostId head], []⟩
        else if head.op = .lockShared then
          let (lq, sharedHead) := dequeueSharedRequests { lq with lockState := .shared }
          ⟨{ lq with sharedCounter := lq.sharedCounter + BitVec.ofNat 32 sharedHead.length },
            sharedHead.map (grantWaiter localhostId), []⟩
        else ⟨lq, [], []⟩
    | none => ⟨lq, [], []⟩
  -- the release of a request that waits, an abort
  else ⟨lq, [], []⟩

/-- A shared release. -/
def sharedUnlock (lq : LockQueue) (e : LockQueueEntry) : Effect :=
  let (lq, ret) := eraseLockRequest lq e.requester e.host e.op
  if lq.lockState = .shared ∧ ret = false then
    let lq := { lq with sharedCounter := lq.sharedCounter - 1 }
    if 0 < lq.sharedCounter.toInt then ⟨lq, [], []⟩
    else
      let lq := { lq with lockState := .free }
      match getHeadRequest lq with
      | some head =>
          if head.op = .lockExcl then
            ⟨dequeueRequest { lq with lockState := .exclusive }, [grantWaiter localhostId head], []⟩
          else if head.op = .lockShared then ⟨lq, [], [.sharedWaiter head.requester]⟩
          else ⟨lq, [], []⟩
      | none => ⟨lq, [], []⟩
  else if lq.lockState = .shared then ⟨lq, [], [.abortRelease e.requester]⟩
  else ⟨lq, [], []⟩

/-- The fields of a `lock_post_header` that the handlers read, less the lock's id. -/
structure LockPostHeader where
  op : LockOp
  machineId : BitVec 8
  lhId : BitVec 32
  deriving DecidableEq, Repr

/-- The queue entry of a packet. -/
def LockPostHeader.entry (hd : LockPostHeader) : LockQueueEntry := ⟨hd.op, hd.lhId, hd.machineId⟩

def serverHandleExclusiveLock (lq : LockQueue) (hd : LockPostHeader) : Effect :=
  exclusiveLock lq hd.entry (.reply hd.entry)

def serverHandleSharedLock (lq : LockQueue) (hd : LockPostHeader) : Effect :=
  sharedLock lq hd.entry (.reply hd.entry)

def serverHandleExclusiveUnlock (lq : LockQueue) (hd : LockPostHeader) : Effect :=
  exclusiveUnlock localhostId lq hd.entry

def serverHandleSharedUnlock (lq : LockQueue) (hd : LockPostHeader) : Effect :=
  sharedUnlock localhostId lq hd.entry

def processLockReq (lq : LockQueue) (hd : LockPostHeader) : Effect :=
  if hd.op = .lockExcl then serverHandleExclusiveLock lq hd
  else if hd.op = .lockShared then serverHandleSharedLock lq hd
  else ⟨lq, [], []⟩

def processUnlockReq (lq : LockQueue) (hd : LockPostHeader) : Effect :=
  if hd.op = .lockExcl then serverHandleExclusiveUnlock localhostId lq hd
  else if hd.op = .lockShared then serverHandleSharedUnlock localhostId lq hd
  else ⟨lq, [], []⟩

def acquireLockLocal (lq : LockQueue) (requester : BitVec 32) (op : LockOp) : Effect :=
  let e : LockQueueEntry := ⟨op, requester, localhostId⟩
  if op = .lockExcl then exclusiveLock lq e (.signal e)
  else if op = .lockShared then sharedLock lq e (.signal e)
  else ⟨lq, [], []⟩

def releaseLockLocal (lq : LockQueue) (requester : BitVec 32) (op : LockOp) : Effect :=
  let e : LockQueueEntry := ⟨op, requester, localhostId⟩
  if op = .lockExcl then exclusiveUnlock localhostId lq e
  else if op = .lockShared then sharedUnlock localhostId lq e
  -- the request is looked for before the operator is
  else ⟨(eraseLockRequest lq requester localhostId op).1, [], []⟩

end Handlers

/-! ## What the queue functions do -/

lemma dequeueSharedLoop_eq (rest : List LockQueueEntry) :
    ∀ (n : ℕ) (pre result : List LockQueueEntry), rest.length ≤ n →
      dequeueSharedLoop n (pre ++ rest) pre.length (pre.length - 1) result
        = (pre ++ rest.filter (·.op ≠ .lockShared), result ++ rest.filter (·.op = .lockShared)) := by
  induction rest with
  | nil =>
      intro n pre result _
      cases n <;> simp [dequeueSharedLoop]
  | cons e rest ih =>
      rintro (_ | n) pre result hn
      · simp at hn
      · have hget : (pre ++ e :: rest)[pre.length]? = some e := by simp
        have hers : (pre ++ e :: rest).eraseIdx pre.length = pre ++ rest := by
          rw [List.eraseIdx_append_of_length_le le_rfl]
          simp
        have hn' : rest.length ≤ n := by simpa using hn
        have hidx : ((pre.length : ℤ) - 1 + 1).toNat = pre.length := by omega
        simp only [dequeueSharedLoop, hget, hers, hidx]
        by_cases hop : e.op = .lockShared
        · simp only [hop, if_true]
          by_cases hnil : pre ++ rest = []
          · obtain ⟨rfl, rfl⟩ := List.append_eq_nil_iff.1 hnil
            simp [hop]
          · rw [if_neg hnil, ih n pre _ hn']
            simp [hop]
        · have := ih n (pre ++ [e]) result hn'
          simp only [List.length_append, List.length_singleton, Nat.cast_add, Nat.cast_one,
            List.append_assoc, List.singleton_append, add_sub_cancel_right] at this
          rw [if_neg hop, sub_add_cancel, this]
          simp [hop]

/-- `dequeue_shared_requests` takes out all shared requests. -/
lemma dequeueSharedRequests_eq (lq : LockQueue) :
    dequeueSharedRequests lq
      = ({ lq with requestQueue := lq.requestQueue.filter (·.op ≠ .lockShared) },
          lq.requestQueue.filter (·.op = .lockShared)) := by
  have := dequeueSharedLoop_eq lq.requestQueue lq.requestQueue.length [] [] le_rfl
  simp only [List.nil_append, List.length_nil, Nat.cast_zero, zero_sub] at this
  simp only [dequeueSharedRequests, this]

lemma hit_iff (e c : LockQueueEntry) :
    (c.host = e.host ∧ c.requester = e.requester ∧ c.op = e.op) ↔ c = e := by
  cases e
  cases c
  simp only [LockQueueEntry.mk.injEq]
  tauto

lemma eraseLockRequest_of_notMem {lq : LockQueue} {e : LockQueueEntry}
    (h : e ∉ lq.requestQueue) : eraseLockRequest lq e.requester e.host e.op = (lq, false) := by
  simp only [eraseLockRequest, hit_iff]
  rw [if_neg]
  simpa using h

lemma eraseLockRequest_of_mem {lq : LockQueue} {e : LockQueueEntry} (h : e ∈ lq.requestQueue) :
    eraseLockRequest lq e.requester e.host e.op
      = ({ lq with requestQueue := lq.requestQueue.erase e }, true) := by
  simp only [eraseLockRequest, hit_iff]
  rw [if_pos (by simpa using h), List.erase_eq_eraseP]
  simp only [beq_eq_decide, eq_comm]

/-! ## Runs -/

/-- A request that can be granted. -/
def LockQueueEntry.isRequest (e : LockQueueEntry) : Prop :=
  e.op = .lockShared ∨ e.op = .lockExcl

instance (e : LockQueueEntry) : Decidable e.isRequest := inferInstanceAs (Decidable (_ ∨ _))

def LockQueueEntry.isExcl (e : LockQueueEntry) : Bool := decide (e.op = .lockExcl)

/-- The lock at its server, what its clients have seen of it, and the messages printed. -/
structure Server where
  lq : LockQueue
  hist : History LockQueueEntry
  errors : List Abnormal

def Server.init : Server := ⟨initLock, .start, []⟩

/-- What reaches the lock. -/
inductive Call where
  | lockReq (hd : LockPostHeader)
  | unlockReq (hd : LockPostHeader)
  | acquireLocal (requester : BitVec 32) (op : LockOp)
  | releaseLocal (requester : BitVec 32) (op : LockOp)
  deriving DecidableEq, Repr

/-- The request `e` is processed with the effect `o`. -/
def Server.acquired (s : Server) (e : LockQueueEntry) (o : Effect) : Option Server :=
  if e.isRequest ∧ s.hist.request e = none then
    some ⟨o.lq, s.hist.requested e e.isExcl (o.grants.map Notice.entry), s.errors ++ o.errors⟩
  else none

/-- The request `e` is released with the effect `o`, whether or not it was granted. -/
def Server.released (s : Server) (e : LockQueueEntry) (o : Effect) : Option Server :=
  if s.hist.request e ≠ none then
    some ⟨o.lq, s.hist.ended e (o.grants.map Notice.entry), s.errors ++ o.errors⟩
  else none

/-- The step function. -/
def Server.step (localhostId : BitVec 8) (s : Server) : Call → Option Server
  | .lockReq hd => s.acquired hd.entry (processLockReq s.lq hd)
  | .unlockReq hd => s.released hd.entry (processUnlockReq localhostId s.lq hd)
  | .acquireLocal requester op =>
      s.acquired ⟨op, requester, localhostId⟩ (acquireLockLocal localhostId s.lq requester op)
  | .releaseLocal requester op =>
      s.released ⟨op, requester, localhostId⟩ (releaseLockLocal localhostId s.lq requester op)

/-- `shared_counter` has room for a shared request that is granted at once. -/
def AcquireFits (lq : LockQueue) (e : LockQueueEntry) : Prop :=
  e.op = .lockShared → lq.lockState ≠ .exclusive → lq.sharedCounter.toInt < 2 ^ 31 - 1

/-- An exclusive release that hands the lock over to the shared requests in the queue finds fewer
than `2 ^ 31` of them, and no more others than `prev_idx` can count. -/
def ReleaseFits (lq : LockQueue) (e : LockQueueEntry) : Prop :=
  e.op = .lockExcl → e ∉ lq.requestQueue →
    (getHeadRequest lq).map LockQueueEntry.op = some .lockShared →
      lq.requestQueue.countP (·.op = .lockShared) < 2 ^ 31
        ∧ lq.requestQueue.countP (·.op ≠ .lockShared) ≤ 2 ^ 31

instance (lq : LockQueue) (e : LockQueueEntry) : Decidable (AcquireFits lq e) :=
  inferInstanceAs (Decidable (_ → _ → _))

instance (lq : LockQueue) (e : LockQueueEntry) : Decidable (ReleaseFits lq e) :=
  inferInstanceAs (Decidable (_ → _ → _ → _))

def Server.Fits (localhostId : BitVec 8) (s : Server) : Call → Prop
  | .lockReq hd => AcquireFits s.lq hd.entry
  | .unlockReq hd => ReleaseFits s.lq hd.entry
  | .acquireLocal requester op => AcquireFits s.lq ⟨op, requester, localhostId⟩
  | .releaseLocal requester op => ReleaseFits s.lq ⟨op, requester, localhostId⟩

instance (localhostId : BitVec 8) (s : Server) : (c : Call) → Decidable (s.Fits localhostId c)
  | .lockReq hd => inferInstanceAs (Decidable (AcquireFits s.lq hd.entry))
  | .unlockReq hd => inferInstanceAs (Decidable (ReleaseFits s.lq hd.entry))
  | .acquireLocal requester op =>
      inferInstanceAs (Decidable (AcquireFits s.lq ⟨op, requester, localhostId⟩))
  | .releaseLocal requester op =>
      inferInstanceAs (Decidable (ReleaseFits s.lq ⟨op, requester, localhostId⟩))

/-- The states of all runs in which no `int` overflows. -/
abbrev Server.Reachable (localhostId : BitVec 8) : Server → Prop :=
  Reach (Server.step localhostId) (Server.Fits localhostId) Server.init

/-! ## The server implements a readers-writer lock -/

/-- The queue and the counters `lq` stand for a lock in phase `p` with queue `q`.  Who the owners
are is not written anywhere. -/
structure Represents (lq : LockQueue) (p : Phase LockQueueEntry) (q : List (LockQueueEntry × Bool)) :
    Prop where
  queue : q = lq.requestQueue.map fun e => (e, e.isExcl)
  ops : ∀ e ∈ lq.requestQueue, e.isRequest
  phase : match p with
    | .free => lq.lockState = .free ∧ lq.sharedCounter = 0
    | .shared S => lq.lockState = .shared ∧ lq.sharedCounter.toInt = S.card
    | .excl _ => lq.lockState = .exclusive ∧ lq.sharedCounter = 0

section Simulation

variable {lq : LockQueue} {p : Phase LockQueueEntry} {q : List (LockQueueEntry × Bool)}
  {e : LockQueueEntry}

lemma Represents.enqueue (hr : Represents lq p q) (he : e.isRequest) :
    Represents (enqueueRequest lq e.op e.host e.requester) p (q ++ [(e, e.isExcl)]) where
  queue := by simp [enqueueRequest, hr.queue]
  ops c hc := by
    rcases List.mem_append.1 hc with hc | hc
    · exact hr.ops c hc
    · rw [List.mem_singleton.1 hc]
      exact he
  phase := hr.phase

/-- A request does what the abstract lock does. -/
def AcquireMatches (lq : LockQueue) (e : LockQueueEntry) (o : Effect) : Prop :=
  ∀ p q, AcquireFits lq e → Represents lq p q → e ∉ p.owners →
    let g := ReadersWriter.acquire p q e e.isExcl
    Represents o.lq g.phase g.queue ∧ o.grants.map Notice.entry = g.grantees ∧ o.errors = []

lemma exclusiveLock_matches (he : e.op = .lockExcl) {told : Notice} (ht : told.entry = e) :
    AcquireMatches lq e (exclusiveLock lq e told) := by
  intro p q _ hr ho
  have hx : e.isExcl = true := by simp [LockQueueEntry.isExcl, he]
  have hph := hr.phase
  cases p with
  | free =>
      rw [exclusiveLock, if_pos hph.1, hx]
      exact ⟨⟨hr.queue, hr.ops, rfl, hph.2⟩, by simp [ht, ReadersWriter.acquire], rfl⟩
  | shared S =>
      rw [exclusiveLock, if_neg (by simp [hph.1]), hx]
      have hq := hr.enqueue (.inr he)
      rw [hx] at hq
      exact ⟨hq, rfl, rfl⟩
  | excl c =>
      rw [exclusiveLock, if_neg (by simp [hph.1])]
      exact ⟨hr.enqueue (.inr he), rfl, rfl⟩

lemma sharedLock_matches (he : e.op = .lockShared) {told : Notice} (ht : told.entry = e) :
    AcquireMatches lq e (sharedLock lq e told) := by
  intro p q hfits hr ho
  have hx : e.isExcl = false := by simp [LockQueueEntry.isExcl, he]
  have hph := hr.phase
  cases p with
  | free =>
      rw [sharedLock, if_pos (by simp [hph.1]), hx]
      refine ⟨⟨hr.queue, hr.ops, rfl, ?_⟩, by simp [ht, ReadersWriter.acquire], rfl⟩
      simp [hph.2, BitVec.toInt]
  | shared S =>
      rw [sharedLock, if_pos (by simp [hph.1]), hx]
      refine ⟨⟨hr.queue, hr.ops, rfl, ?_⟩, by simp [ht, ReadersWriter.acquire], rfl⟩
      have hcard : (insert e S).card = S.card + 1 := Finset.card_insert_of_notMem ho
      rw [hcard, toInt_add_one (hfits he (by simp [hph.1])), hph.2, Nat.cast_succ]
  | excl c =>
      rw [sharedLock, if_neg (by simp [hph.1])]
      exact ⟨hr.enqueue (.inl he), rfl, rfl⟩

lemma processLockReq_matches {hd : LockPostHeader} (he : hd.entry.isRequest) :
    AcquireMatches lq hd.entry (processLockReq lq hd) := by
  rcases he with h | h
  · have h' : hd.op = .lockShared := h
    simp only [processLockReq, h']
    exact sharedLock_matches h rfl
  · have h' : hd.op = .lockExcl := h
    simp only [processLockReq, h']
    exact exclusiveLock_matches h rfl

lemma acquireLockLocal_matches {localhostId : BitVec 8} {requester : BitVec 32} {op : LockOp}
    (he : (LockQueueEntry.mk op requester localhostId).isRequest) :
    AcquireMatches lq ⟨op, requester, localhostId⟩
      (acquireLockLocal localhostId lq requester op) := by
  rcases he with h | h
  · obtain rfl : op = .lockShared := h
    exact sharedLock_matches rfl rfl
  · obtain rfl : op = .lockExcl := h
    exact exclusiveLock_matches rfl rfl

/-! ### Releases -/

lemma grantWaiter_entry (localhostId : BitVec 8) (e : LockQueueEntry) :
    (grantWaiter localhostId e).entry = e := by
  simp only [grantWaiter]
  split <;> rfl

variable {localhostId : BitVec 8}

/-- What an exclusive holder leaves behind is scheduled as the abstract lock does. -/
lemma Represents.exclusiveUnlock_holder (hr : Represents lq p q) (hs : lq.lockState = .exclusive)
    (hc : lq.sharedCounter = 0) (hnd : lq.requestQueue.Nodup) (he : e ∉ lq.requestQueue)
    (hfits : (getHeadRequest lq).map LockQueueEntry.op = some .lockShared →
      lq.requestQueue.countP (·.op = .lockShared) < 2 ^ 31) :
    let o := exclusiveUnlock localhostId lq e
    Represents o.lq (schedule q).phase (schedule q).queue
      ∧ o.grants.map Notice.entry = (schedule q).grantees ∧ o.errors = [] := by
  have hops := hr.ops
  have hq := hr.queue
  simp only [exclusiveUnlock, eraseLockRequest_of_notMem he, hs, and_self, if_true, getHeadRequest]
  cases hw : lq.requestQueue with
  | nil =>
      rw [hq, hw]
      exact ⟨⟨rfl, by simp, rfl, hc⟩, rfl, rfl⟩
  | cons head rest =>
      have hmem : head ∈ lq.requestQueue := hw ▸ List.mem_cons_self
      rcases hops head hmem with h | h
      · -- all shared waiters become holders
        have hf : head.isExcl = false := by simp [LockQueueEntry.isExcl, h]
        have hread : lq.requestQueue.filter (·.isExcl = false)
            = lq.requestQueue.filter (·.op = .lockShared) :=
          List.filter_congr fun c hc => by
            rcases hops c hc with h | h <;> simp [LockQueueEntry.isExcl, h]
        have hwrite : lq.requestQueue.filter (·.isExcl = true)
            = lq.requestQueue.filter (·.op ≠ .lockShared) :=
          List.filter_congr fun c hc => by
            rcases hops c hc with h | h <;> simp [LockQueueEntry.isExcl, h]
        have hhead : lq.requestQueue.head? = some head := by simp [hw]
        rw [hq, hw, schedule_map_shared _ _ _ hf, ← hw, hread, hwrite]
        simp only [hhead, h, reduceCtorEq, if_false, if_true, dequeueSharedRequests_eq]
        refine ⟨⟨rfl, fun c hc => hops c (List.mem_of_mem_filter hc), rfl, ?_⟩, ?_, trivial⟩
        · have hlt := hfits (by simp [getHeadRequest, hhead, h])
          rw [List.countP_eq_length_filter] at hlt
          rw [List.map_id', List.toFinset_card_of_nodup (hnd.filter _), hc, zero_add,
            toInt_ofNat hlt]
        · rw [List.map_map]
          exact List.map_congr_left fun c _ => grantWaiter_entry localhostId c
      · have ht : head.isExcl = true := by simp [LockQueueEntry.isExcl, h]
        rw [hq, hw, schedule_map_excl _ _ _ ht]
        simp only [List.head?_cons, h, if_true, dequeueRequest]
        refine ⟨⟨rfl, fun c hc => hops c ?_, rfl, hc⟩, ?_, trivial⟩
        · rw [hw]
          exact List.mem_cons_of_mem _ hc
        · simp [grantWaiter_entry]

/-- What a shared holder leaves behind, without shared waiters. -/
lemma Represents.sharedUnlock_holder {S : Finset LockQueueEntry} (hr : Represents lq (.shared S) q)
    (hread : readers q = []) (he : e ∉ lq.requestQueue) (hS : e ∈ S) :
    let o := sharedUnlock localhostId lq e
    let g := ReadersWriter.release (.shared S) q e
    Represents o.lq g.phase g.queue ∧ o.grants.map Notice.entry = g.grantees ∧ o.errors = [] := by
  have hops := hr.ops
  have hq := hr.queue
  have hs : lq.lockState = .shared := hr.phase.1
  have hcard : (lq.sharedCounter - 1).toInt = (S.erase e).card := by
    have : 0 < S.card := Finset.card_pos.2 ⟨e, hS⟩
    rw [toInt_sub_one (by rw [hr.phase.2]; exact_mod_cast this), hr.phase.2,
      Finset.card_erase_of_mem hS]
    omega
  have hpos : 0 < (lq.sharedCounter - 1).toInt ↔ S.erase e ≠ ∅ := by
    rw [hcard, Nat.cast_pos, Finset.card_pos, Finset.nonempty_iff_ne_empty]
  simp only [sharedUnlock, eraseLockRequest_of_notMem he, hs, and_self, if_true, getHeadRequest]
  by_cases hne : S.erase e = ∅
  · rw [if_neg fun h => hpos.1 h hne, release_last (p := .shared S) hne]
    have hzero : lq.sharedCounter - 1 = 0 := eq_zero_of_toInt (hcard.trans (by simp [hne]))
    cases hw : lq.requestQueue with
    | nil =>
        rw [hq, hw]
        exact ⟨⟨rfl, by simp, rfl, hzero⟩, rfl, rfl⟩
    | cons head rest =>
        have hmem : head ∈ lq.requestQueue := hw ▸ List.mem_cons_self
        have h : head.op = .lockExcl := by
          refine (hops head hmem).resolve_left fun h => ?_
          have : head ∈ readers q := by
            rw [hq, readers_map, List.map_id', List.mem_filter]
            exact ⟨hmem, by simp [LockQueueEntry.isExcl, h]⟩
          rw [hread] at this
          cases this
        have ht : head.isExcl = true := by simp [LockQueueEntry.isExcl, h]
        rw [hq, hw, schedule_map_excl _ _ _ ht]
        simp only [List.head?_cons, h, if_true, dequeueRequest]
        refine ⟨⟨rfl, fun c hc => hops c ?_, rfl, hzero⟩, ?_, trivial⟩
        · rw [hw]
          exact List.mem_cons_of_mem _ hc
        · simp [grantWaiter_entry]
  · rw [if_pos (hpos.2 hne), release_more (p := .shared S) hne]
    exact ⟨⟨hq, hops, rfl, hcard⟩, rfl, rfl⟩

/-- A waiting request is taken out of the queue. -/
lemma Represents.erase (hr : Represents lq p q) (hnd : lq.requestQueue.Nodup) :
    Represents { lq with requestQueue := lq.requestQueue.erase e } p (withdraw q e) where
  queue := by
    rw [hr.queue, withdraw, List.filter_map, hnd.erase_eq_filter]
    refine congrArg₂ List.map rfl (List.filter_congr fun c _ => ?_)
    by_cases hce : c = e <;> simp [hce]
  ops c hc := hr.ops c (List.mem_of_mem_erase hc)
  phase := hr.phase

/-- The release of `e` does what the abstract lock does when `e` leaves. -/
def ReleaseMatches (lq : LockQueue) (e : LockQueueEntry) (o : Effect) : Prop :=
  ∀ t : Service LockQueueEntry, ReleaseFits lq e → ReaderFirst t →
    Represents lq t.phase t.queue →
    t.hist.request e = some e.isExcl →
    Represents o.lq (leave t e).phase (leave t e).queue
      ∧ o.grants.map Notice.entry = (leave t e).grantees ∧ o.errors = []

variable {t : Service LockQueueEntry}

lemma Represents.nodup (hr : Represents lq t.phase t.queue) (hi : ReadersWriter.Inv t) :
    lq.requestQueue.Nodup := by
  have := hi.waiting.nodup
  rw [hr.queue, List.map_map] at this
  exact List.Nodup.of_map _ this

lemma Represents.mem_iff (hr : Represents lq t.phase t.queue) (hi : ReadersWriter.Inv t)
    (he : t.hist.request e = some e.isExcl) : e ∈ lq.requestQueue ↔ t.hist.grants e = 0 := by
  have := hi.waiting.mem_iff e e.isExcl
  rw [hr.queue, he] at this
  simpa using this

lemma exclusiveUnlock_matches (hop : e.op = .lockExcl) :
    ReleaseMatches lq e (exclusiveUnlock localhostId lq e) := by
  intro t hfits hi hr he
  have hmem := hr.mem_iff hi.toInv he
  have hx : e.isExcl = true := by simp [LockQueueEntry.isExcl, hop]
  by_cases hg : 0 < t.hist.grants e
  · have hgr : t.hist.granted e := ⟨by simp [he], hg⟩
    have hown := hi.toInv.mem_owners hgr
    have hmode := hi.toInv.mode e hown
    have hlast : t.phase.owners.erase e = ∅ := by
      by_contra hne
      rw [hi.toInv.shared_of_erase_ne hgr hne, he, hx] at hmode
      cases hmode
    rw [leave, if_pos hg, release_last hlast]
    have hph := hr.phase
    cases hp : t.phase with
    | excl c =>
        rw [hp] at hph
        have hnot : e ∉ lq.requestQueue := fun h => hg.ne' (hmem.1 h)
        exact hr.exclusiveUnlock_holder hph.1 hph.2 (hr.nodup hi.toInv) hnot
          fun hhead => (hfits hop hnot hhead).1
    | free => simp [hp, Phase.owners] at hown
    | shared S =>
        rw [hp, he, hx] at hmode
        cases hmode
  · have h0 := Nat.eq_zero_of_not_pos hg
    simp only [leave, if_neg hg, exclusiveUnlock, eraseLockRequest_of_mem (hmem.2 h0), Bool.true_eq_false,
      and_false, if_false]
    exact ⟨hr.erase (hr.nodup hi.toInv), rfl, trivial⟩

lemma sharedUnlock_matches (hop : e.op = .lockShared) :
    ReleaseMatches lq e (sharedUnlock localhostId lq e) := by
  intro t _ hi hr he
  have hmem := hr.mem_iff hi.toInv he
  have hx : e.isExcl = false := by simp [LockQueueEntry.isExcl, hop]
  have hph := hr.phase
  by_cases hg : 0 < t.hist.grants e
  · have hown := hi.toInv.mem_owners ⟨by simp [he], hg⟩
    have hmode := hi.toInv.mode e hown
    rw [leave, if_pos hg]
    cases hp : t.phase with
    | excl c =>
        rw [hp, he, hx] at hmode
        cases hmode
    | free => simp [hp, Phase.owners] at hown
    | shared S =>
        rw [hp] at hr hown
        exact hr.sharedUnlock_holder (hi.readers_nil S hp) (fun h => hg.ne' (hmem.1 h)) hown
  · have h0 := Nat.eq_zero_of_not_pos hg
    -- a shared request waits, so the lock is not shared
    have hst : lq.lockState ≠ .shared := by
      intro hst
      cases hp : t.phase with
      | shared S =>
          have hread : e ∈ readers t.queue := by
            rw [hr.queue, readers_map, List.map_id', List.mem_filter]
            exact ⟨hmem.2 h0, by simp [hx]⟩
          rw [hi.readers_nil S hp] at hread
          cases hread
      | free =>
          rw [hp] at hph
          cases hst.symm.trans hph.1
      | excl c =>
          rw [hp] at hph
          cases hst.symm.trans hph.1
    simp only [leave, if_neg hg, sharedUnlock, eraseLockRequest_of_mem (hmem.2 h0), hst, false_and,
      if_false]
    exact ⟨hr.erase (hr.nodup hi.toInv), rfl, trivial⟩

lemma processUnlockReq_matches {hd : LockPostHeader} (he : hd.entry.isRequest) :
    ReleaseMatches lq hd.entry (processUnlockReq localhostId lq hd) := by
  rcases he with h | h
  · have h' : hd.op = .lockShared := h
    simp only [processUnlockReq, h']
    exact sharedUnlock_matches h
  · have h' : hd.op = .lockExcl := h
    simp only [processUnlockReq, h']
    exact exclusiveUnlock_matches h

lemma releaseLockLocal_matches {requester : BitVec 32} {op : LockOp}
    (he : (LockQueueEntry.mk op requester localhostId).isRequest) :
    ReleaseMatches lq ⟨op, requester, localhostId⟩
      (releaseLockLocal localhostId lq requester op) := by
  rcases he with h | h
  · obtain rfl : op = .lockShared := h
    exact sharedUnlock_matches rfl
  · obtain rfl : op = .lockExcl := h
    exact exclusiveUnlock_matches rfl

end Simulation

/-- The server is in the state of the abstract lock `t`. -/
structure Simulates (s : Server) (t : Service LockQueueEntry) : Prop where
  hist : t.hist = s.hist
  represents : Represents s.lq t.phase t.queue
  requests : ∀ e x, s.hist.request e = some x → e.isRequest ∧ x = e.isExcl
  errors : s.errors = []

lemma simulates_init : Simulates .init .start where
  hist := rfl
  represents := ⟨rfl, by simp [Server.init, initLock], rfl, rfl⟩
  requests := by simp [Server.init, History.start]
  errors := rfl

variable {s s' : Server} {t : Service LockQueueEntry} {e : LockQueueEntry} {o : Effect}

lemma Simulates.acquired (hs : Simulates s t) (hi : ReaderFirst t)
    (ho : e.isRequest → AcquireMatches s.lq e o) (hf : AcquireFits s.lq e)
    (h : s.acquired e o = some s') :
    ∃ c t', t.stepOrLeave c = some t' ∧ Simulates s' t' := by
  simp only [Server.acquired] at h
  split at h
  · next hpre =>
      have hreq : t.hist.request e = none := hs.hist ▸ hpre.2
      have hown : e ∉ t.phase.owners := fun hmem => by
        have := hi.toInv.mode e hmem
        rw [hreq] at this
        cases this
      obtain ⟨hrep, hgr, herr⟩ := ho hpre.1 _ _ hf hs.represents hown
      obtain rfl := Option.some.inj h
      refine ⟨.acquire e e.isExcl, _, if_pos hreq, by rw [hs.hist, hgr], hrep, fun c x hc => ?_,
        by simp [hs.errors, herr]⟩
      by_cases hce : c = e
      · subst hce
        simp only [History.requested, Function.update_self, Option.some.injEq] at hc
        exact ⟨hpre.1, hc.symm⟩
      · simp only [History.requested, Function.update_of_ne hce] at hc
        exact hs.requests c x hc
  · cases h

lemma Simulates.released (hs : Simulates s t) (hi : ReaderFirst t)
    (ho : e.isRequest → ReleaseMatches s.lq e o) (hf : ReleaseFits s.lq e)
    (h : s.released e o = some s') :
    ∃ c t', t.stepOrLeave c = some t' ∧ Simulates s' t' := by
  simp only [Server.released] at h
  split at h
  · next hpre =>
      have hreq : t.hist.request e ≠ none := hs.hist ▸ hpre
      obtain ⟨x, hx⟩ := Option.ne_none_iff_exists'.1 hpre
      have hreq' := hs.requests e x hx
      rw [hreq'.2] at hx
      obtain ⟨hrep, hgr, herr⟩ := ho hreq'.1 t hf hi hs.represents (hs.hist ▸ hx)
      obtain rfl := Option.some.inj h
      refine ⟨.release e, _, if_pos hreq, by rw [hs.hist, hgr], hrep, fun c y hc => ?_,
        by simp [hs.errors, herr]⟩
      simp only [History.request_ended] at hc
      by_cases hce : c = e
      · simp [hce] at hc
      · rw [Function.update_of_ne hce] at hc
        exact hs.requests c y hc
  · cases h

/-- **Every step of the server is a step of a readers-writer lock**, unless an `int` overflows. -/
lemma step_simulated {localhostId : BitVec 8} {c : Call} (hs : Simulates s t) (hi : ReaderFirst t)
    (hf : s.Fits localhostId c) (h : s.step localhostId c = some s') :
    ∃ c' t', t.stepOrLeave c' = some t' ∧ Simulates s' t' := by
  cases c with
  | lockReq hd => exact hs.acquired hi processLockReq_matches hf h
  | unlockReq hd => exact hs.released hi processUnlockReq_matches hf h
  | acquireLocal requester op => exact hs.acquired hi acquireLockLocal_matches hf h
  | releaseLocal requester op => exact hs.released hi releaseLockLocal_matches hf h

lemma simulated_of_reachable {localhostId : BitVec 8} (h : Server.Reachable localhostId s) :
    ∃ t, ReaderFirst t ∧ Simulates s t := by
  obtain ⟨t, ht, hs⟩ := Reach.simulation simulates_init
    (fun _ _ _ _ hR ht hf hstep => step_simulated hR (readerFirst_of_reachable ht) hf hstep) h
  exact ⟨t, readerFirst_of_reachable ht, hs⟩

/-! ## What the server keeps -/

/-- The server's data agree with who holds the lock and who waits for it. -/
structure Consistent (s : Server) : Prop where
  /-- The lock is exclusive exactly if one exclusive request is granted, -/
  exclusive_iff : s.lq.lockState = .exclusive ↔ ∃! e, s.hist.granted e ∧ e.op = .lockExcl
  /-- and then no shared one is. -/
  exclusive_alone : s.lq.lockState = .exclusive →
    s.lq.sharedCounter = 0 ∧ ∀ e, s.hist.granted e → e.op ≠ .lockShared
  /-- It is shared exactly if the counter says how many shared requests are granted, and there are
  some. -/
  shared_iff : s.lq.lockState = .shared ↔
    s.lq.sharedCounter.toInt = {e | s.hist.granted e ∧ e.op = .lockShared}.ncard
      ∧ 0 < s.lq.sharedCounter.toInt
  /-- It is free exactly if nobody is granted, -/
  free_iff : s.lq.lockState = .free ↔ ∀ e, ¬ s.hist.granted e
  /-- and then nobody waits. -/
  free_empty : s.lq.lockState = .free → s.lq.requestQueue = []
  /-- No shared request waits for a shared lock, -/
  shared_queue : s.lq.lockState = .shared → ∀ e ∈ s.lq.requestQueue, e.op ≠ .lockShared
  /-- so neither of the abnormal conditions arises. -/
  no_errors : s.errors = []
  /-- An unreleased request was granted once or waits once. -/
  once : ∀ e, s.hist.request e ≠ none →
    s.hist.grants e = 1 ∧ s.lq.requestQueue.count e = 0
      ∨ s.hist.grants e = 0 ∧ s.lq.requestQueue.count e = 1

section Consistency

variable (hi : ReaderFirst t) (hs : Simulates s t)

include hi hs

lemma Simulates.granted_iff (e : LockQueueEntry) : s.hist.granted e ↔ e ∈ t.phase.owners := by
  rw [← hs.hist]
  exact hi.toInv.granted_iff e

lemma Simulates.op_of_granted (h : s.hist.granted e) :
    e.op = if t.phase.isExcl then .lockExcl else .lockShared := by
  have hm := hi.toInv.mode e ((hs.granted_iff hi e).1 h)
  rw [hs.hist] at hm
  obtain ⟨hreq, hx⟩ := hs.requests e _ hm
  rcases hreq with h | h <;> simp [hx, LockQueueEntry.isExcl, h]

lemma Simulates.granted_or_queued (he : s.hist.request e ≠ none) :
    s.hist.grants e = 1 ∧ s.lq.requestQueue.count e = 0
      ∨ s.hist.grants e = 0 ∧ s.lq.requestQueue.count e = 1 := by
  obtain ⟨x, hx⟩ := Option.ne_none_iff_exists'.1 he
  obtain ⟨-, rfl⟩ := hs.requests e x hx
  have hmem := hs.represents.mem_iff hi.toInv (hs.hist ▸ hx)
  have hgrants := hi.toInv.owners e
  rw [hs.hist] at hmem hgrants
  by_cases ho : e ∈ t.phase.owners
  · rw [if_pos ho] at hgrants
    refine .inl ⟨hgrants, List.count_eq_zero.2 fun h => ?_⟩
    rw [hmem.1 h] at hgrants
    cases hgrants
  · rw [if_neg ho] at hgrants
    exact .inr ⟨hgrants, List.count_eq_one_of_mem (hs.represents.nodup hi.toInv) (hmem.2 hgrants)⟩

lemma Simulates.consistent : Consistent s := by
  have hgr := hs.granted_iff hi
  have hop : ∀ e, s.hist.granted e → _ := fun e => hs.op_of_granted hi
  have hph := hs.represents.phase
  have hheld := hi.toInv.held
  have hidle := hi.toInv.idle
  have hread := hi.readers_nil
  have hq := hs.represents.queue
  have hcounts : ∀ e, s.hist.request e ≠ none → _ := fun e => hs.granted_or_queued hi
  cases hp : t.phase with
  | free =>
      rw [hp] at hph
      have hno : ∀ e, ¬ s.hist.granted e := fun e => by simp [hgr, hp, Phase.owners]
      refine ⟨?_, ?_, ?_, ?_, fun _ => ?_, ?_, hs.errors, hcounts⟩
      · simp [hph.1, hno, ExistsUnique]
      · simp [hph.1]
      · simp [hph.1, hph.2]
      · simp [hph.1, hno]
      · have := hidle hp
        rw [hq] at this
        exact List.map_eq_nil_iff.1 this
      · simp [hph.1]
  | shared S =>
      rw [hp] at hph
      simp only [hp, Phase.isExcl, Phase.owners, Bool.false_eq_true, if_false] at hop hgr hheld
      have hS : S ≠ ∅ := hheld.resolve_left (by rintro ⟨⟩)
      have hcard : {e | s.hist.granted e ∧ e.op = .lockShared}.ncard = S.card := by
        rw [← Set.ncard_coe_finset]
        congr 1
        ext e
        simpa [hgr] using fun he => hop e ((hgr e).2 he)
      refine ⟨?_, ?_, ?_, ?_, ?_, fun _ e he h => ?_, hs.errors, hcounts⟩
      · have hno : ¬ ∃! e, s.hist.granted e ∧ e.op = .lockExcl := by
          rintro ⟨e, ⟨hg, h⟩, -⟩
          cases (hop e hg).symm.trans h
        simp [hph.1, hno]
      · simp [hph.1]
      · simpa [hph.1, hph.2, hcard, Finset.card_pos, Finset.nonempty_iff_ne_empty] using hS
      · have : ¬ ∀ e, ¬ s.hist.granted e := fun hno =>
          hS (Finset.eq_empty_of_forall_notMem fun e he => hno e ((hgr e).2 he))
        simp [hph.1, this]
      · simp [hph.1]
      · have hmem : e ∈ readers t.queue := by
          rw [hq, readers_map, List.map_id', List.mem_filter]
          exact ⟨he, by simp [LockQueueEntry.isExcl, h]⟩
        rw [hread S hp] at hmem
        cases hmem
  | excl c =>
      rw [hp] at hph
      simp only [hp, Phase.isExcl, Phase.owners, if_true, Finset.mem_singleton] at hop hgr
      have hc : s.hist.granted c := (hgr c).2 rfl
      refine ⟨?_, fun _ => ⟨hph.2, fun e he h => ?_⟩, ?_, ?_, ?_, ?_, hs.errors, hcounts⟩
      · simpa [hph.1] using ⟨c, ⟨hc, hop c hc⟩, fun e he => (hgr e).1 he.1⟩
      · cases (hop e he).symm.trans h
      · simp [hph.1, hph.2]
      · simpa [hph.1] using ⟨c, hc⟩
      · simp [hph.1]
      · simp [hph.1]

end Consistency

/-- **The server's data agree with its clients in every run** in which no `int` overflows, whoever asks
and releases, remote or local, and whenever requests are aborted. -/
theorem parlock_consistent (localhostId : BitVec 8) {s : Server}
    (h : Server.Reachable localhostId s) : Consistent s := by
  obtain ⟨t, hi, hs⟩ := simulated_of_reachable h
  exact hs.consistent hi

/-- A shared request of another host waits behind an exclusive one of the server, which aborts
nothing; then a second exclusive request is aborted and the first released. -/
theorem parlock_consistent_handed_over :
    ∃ s, Server.Reachable 1 s ∧ Consistent s ∧ s.lq = ⟨[], 1, .shared⟩ := by
  have hex : ∃ s, Server.Reachable 1 s ∧ s.lq = ⟨[], 1, .shared⟩ :=
    Reach.exists_of_runFrom [.acquireLocal 7 .lockExcl, .lockReq ⟨.lockShared, 2, 7⟩,
      .lockReq ⟨.lockExcl, 3, 7⟩, .unlockReq ⟨.lockExcl, 3, 7⟩, .releaseLocal 7 .lockExcl]
      (by decide +kernel)
  obtain ⟨s, hs, hlq⟩ := hex
  exact ⟨s, hs, parlock_consistent 1 hs, hlq⟩

/-- The reader `n` of host 2. -/
def reader (n : ℕ) : LockQueueEntry := ⟨.lockShared, BitVec.ofNat 32 n, 2⟩

/-- One reader after the other is granted the lock, and the counter wraps around. -/
lemma exists_readers (n : ℕ) (hn : n < 2 ^ 32) :
    ∃ s, Reach (Server.step 1) (fun _ _ => True) .init s
      ∧ s.lq = ⟨[], BitVec.ofNat 32 n, if n = 0 then .free else .shared⟩
      ∧ ∀ k < 2 ^ 32, n ≤ k → s.hist.request (reader k) = none := by
  induction n with
  | zero => exact ⟨.init, .start, rfl, fun _ _ _ => rfl⟩
  | succ n ih =>
      obtain ⟨s, hs, hlq, hnone⟩ := ih (by omega)
      have hstate : s.lq.lockState ≠ .exclusive := by
        rw [hlq]
        by_cases h0 : n = 0 <;> simp [h0]
      have hlock : processLockReq s.lq ⟨.lockShared, 2, BitVec.ofNat 32 n⟩
          = ⟨⟨[], BitVec.ofNat 32 (n + 1), .shared⟩, [.reply (reader n)], []⟩ := by
        have hshared : sharedLock s.lq (reader n) (.reply (reader n))
            = ⟨⟨[], BitVec.ofNat 32 (n + 1), .shared⟩, [.reply (reader n)], []⟩ := by
          rw [sharedLock, if_pos hstate, hlq]
          simp [BitVec.ofNat_add]
        exact hshared
      have hstep : s.step 1 (.lockReq ⟨.lockShared, 2, BitVec.ofNat 32 n⟩)
          = some ⟨⟨[], BitVec.ofNat 32 (n + 1), .shared⟩,
              s.hist.requested (reader n) false [reader n], s.errors⟩ := by
        have hreq : s.hist.request (reader n) = none := hnone n (by omega) le_rfl
        simp only [Server.step, Server.acquired, hlock]
        rw [if_pos ⟨.inl rfl, hreq⟩]
        simp [LockPostHeader.entry, reader, LockQueueEntry.isExcl, Notice.entry]
      refine ⟨_, .next hs trivial hstep, by simp, fun k hk hnk => ?_⟩
      have hne : reader k ≠ reader n := by
        intro h
        have := congrArg (fun e : LockQueueEntry => e.requester.toNat) h
        simp only [reader, BitVec.toNat_ofNat] at this
        omega
      simp only [History.requested, Function.update_of_ne hne]
      exact hnone k hk (by omega)

/-- `2 ^ 31` readers hold the lock, and the counter is `-2 ^ 31`. -/
theorem parlock_consistent_fails :
    ¬ ∀ (localhostId : BitVec 8) (s : Server),
      Reach (Server.step localhostId) (fun _ _ => True) .init s → Consistent s := by
  intro hall
  obtain ⟨s, hs, hlq, -⟩ := exists_readers (2 ^ 31) (by norm_num)
  have hpos := ((hall 1 s hs).shared_iff.1 (by simp [hlq])).2
  rw [hlq, toInt_ofNat_overflow] at hpos
  exact absurd hpos (by norm_num)

end FissLock.ParLock
