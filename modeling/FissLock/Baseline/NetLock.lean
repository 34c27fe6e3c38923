import FissLock.Library.ReadersWriter
import FissLock.Library.SignedCounter

/-!
# The NetLock primary server

The second baseline.  The server of a lock keeps **one** queue for the requests that hold the lock
and those that wait for it: `process_primary_acquire` always appends, and only a release takes
entries out.  Which entries are granted is not marked; it follows from the state of the lock.  If
the lock is exclusive it is the first entry, if it is shared it is every shared entry, wherever it
stands.

`erase_lock_request` returns the position of the entry it erases, and `0` also if there is none.  An
exclusive release is taken for that of the holder if the result is `0`; a shared release does not
look at it.

As for ParLock, `step_simulated` matches every step by one of the abstract readers-writer lock as long
as each `int` counts, and `netlock_consistent` is what follows for the server.
-/

namespace FissLock.NetLock

open Runs ReadersWriter SignedCounter

/-! ## The request queue -/

abbrev SHARED : BitVec 8 := 0

abbrev EXCLUSIVE : BitVec 8 := 1

/-- `STATE_FREE`, `STATE_SHARED` and `STATE_EXCLUSIVE`. -/
inductive QueueState where
  | free
  | shared
  | exclusive
  deriving DecidableEq, Repr

/-- What the server reads of a `lock_queue_node`: not its type, which `process_primary_backup` has
looked at, nor the lock, which is fixed here, nor the role. -/
structure LockQueueNode where
  mode : BitVec 8
  clientId : BitVec 8
  txnId : BitVec 32
  ipSrc : BitVec 32
  payload : List (BitVec 8)
  deriving DecidableEq, Repr

/-- What a release names the request by. -/
structure Request where
  clientId : BitVec 8
  txnId : BitVec 32
  mode : BitVec 8
  deriving DecidableEq, Repr

def LockQueueNode.request (n : LockQueueNode) : Request := ⟨n.clientId, n.txnId, n.mode⟩

/-- `exclusive_counter` and `ticket_id` are not read.  The others are an `int` each, which wraps around
here; the source leaves it undefined. -/
structure NodeQueuePerLock where
  nodeQueue : List LockQueueNode
  sharedCounter : BitVec 32
  lockState : QueueState
  seqnum : BitVec 32
  deriving DecidableEq, Repr

def initLockQueue : NodeQueuePerLock := ⟨[], 0, .free, 0⟩

def enqueueRequest (nq : NodeQueuePerLock) (n : LockQueueNode) : NodeQueuePerLock :=
  { nq with nodeQueue := nq.nodeQueue ++ [n] }

def getHeadRequest (nq : NodeQueuePerLock) : Option LockQueueNode := nq.nodeQueue.head?

/-- The loop of `erase_lock_request` compares client, transaction and mode. -/
def LockQueueNode.hit (requester : BitVec 32) (host op : BitVec 8) (n : LockQueueNode) : Bool :=
  decide (n.clientId = host ∧ n.txnId = requester ∧ n.mode = op)

/-- Erase the first entry of the request; the result is its position, an `int`, or `0` if there is
none. -/
def eraseLockRequest (nq : NodeQueuePerLock) (requester : BitVec 32) (host op : BitVec 8) :
    NodeQueuePerLock × BitVec 32 :=
  match nq.nodeQueue.findIdx? (LockQueueNode.hit requester host op) with
  | some curCount =>
      ({ nq with nodeQueue := nq.nodeQueue.eraseIdx curCount }, BitVec.ofNat 32 curCount)
  | none => (nq, 0)

/-- A `GRANT_LOCK_FROM_SERVER` packet: the request with its payload, whether the lock comes from
another holder, and `ncnt`, which holds eight bits of `seqnum`. -/
structure GrantPacket where
  node : LockQueueNode
  transferred : Bool
  ncnt : BitVec 8
  deriving DecidableEq, Repr

def netSendGrant (n : LockQueueNode) (transferred : Bool) (seqnum : BitVec 32) : GrantPacket :=
  ⟨n, transferred, seqnum.setWidth 8⟩

/-! ## The handlers -/

def processPrimaryAcquire (nq : NodeQueuePerLock) (node : LockQueueNode) :
    NodeQueuePerLock × List GrantPacket :=
  let nq := enqueueRequest nq node
  if node.mode = SHARED then
    if nq.lockState = .free ∨ nq.lockState = .shared then
      ({ nq with lockState := .shared, sharedCounter := nq.sharedCounter + 1 },
        [netSendGrant node false nq.seqnum])
    else (nq, [])
  else if node.mode = EXCLUSIVE then
    if nq.lockState = .free then
      ({ nq with lockState := .exclusive }, [netSendGrant node false nq.seqnum])
    else (nq, [])
  else (nq, [])

/-- The payload of a release goes to the requests that are granted after it. -/
def LockQueueNode.withPayload (n node : LockQueueNode) : LockQueueNode :=
  { n with payload := node.payload }

/-- The first entry is granted the lock exclusively. -/
def grantHead (nq : NodeQueuePerLock) (curHead node : LockQueueNode) :
    NodeQueuePerLock × List GrantPacket :=
  ({ nq with
      lockState := .exclusive
      nodeQueue := curHead.withPayload node :: nq.nodeQueue.tail },
    [netSendGrant (curHead.withPayload node) true nq.seqnum])

/-- All shared entries, `get_shared_requests`, are granted the lock. -/
def grantShared (nq : NodeQueuePerLock) (node : LockQueueNode) :
    NodeQueuePerLock × List GrantPacket :=
  let sharedHead := nq.nodeQueue.filter (·.mode = SHARED)
  ({ nq with
      lockState := .shared
      sharedCounter := nq.sharedCounter + BitVec.ofNat 32 sharedHead.length
      nodeQueue := nq.nodeQueue.map fun n => if n.mode = SHARED then n.withPayload node else n },
    sharedHead.map fun n => netSendGrant (n.withPayload node) true nq.seqnum)

/-- The hand-over of a lock that nobody holds any more; `shared` is what is done if a shared request
is first in the queue. -/
def handOver (nq : NodeQueuePerLock) (node : LockQueueNode)
    (shared : NodeQueuePerLock × List GrantPacket) : NodeQueuePerLock × List GrantPacket :=
  match getHeadRequest nq with
  | some curHead =>
      if curHead.mode = EXCLUSIVE then grantHead nq curHead node
      else if curHead.mode = SHARED then shared
      else ({ nq with seqnum := nq.seqnum + 1 }, [])
  | none => ({ nq with seqnum := nq.seqnum + 1 }, [])

def processPrimaryRelease (nq : NodeQueuePerLock) (node : LockQueueNode) :
    NodeQueuePerLock × List GrantPacket :=
  let erased := eraseLockRequest nq node.txnId node.clientId node.mode
  let nq := erased.1
  let ret := erased.2
  if node.mode = SHARED then
    if nq.lockState = .shared then
      let nq := { nq with sharedCounter := nq.sharedCounter - 1 }
      if 0 < nq.sharedCounter.toInt then (nq, [])
      else
        let nq := { nq with lockState := .free }
        handOver nq node (nq, [])
    -- the release of a request that waits, an abort
    else (nq, [])
  else if node.mode = EXCLUSIVE then
    if nq.lockState = .exclusive ∧ ret = 0 then
      let nq := { nq with lockState := .free }
      handOver nq node (grantShared nq node)
    else (nq, [])
  else (nq, [])

/-! ## Runs -/

/-- The modes a client can ask for. -/
def Request.isLock (r : Request) : Prop := r.mode = SHARED ∨ r.mode = EXCLUSIVE

instance (r : Request) : Decidable r.isLock := inferInstanceAs (Decidable (_ ∨ _))

def Request.isExcl (r : Request) : Bool := decide (r.mode = EXCLUSIVE)

/-- The lock at its server, what its clients have seen of it, and the requests that were made and
not released yet, in the order in which they arrived. -/
structure Primary where
  nq : NodeQueuePerLock
  hist : History Request
  arrivals : List Request

def Primary.init : Primary := ⟨initLockQueue, .start, []⟩

/-- The packets that reach the server. -/
inductive Packet where
  | acquire (node : LockQueueNode)
  | release (node : LockQueueNode)
  deriving DecidableEq, Repr

/-- The requests that packets grant the lock to. -/
def grantees (ps : List GrantPacket) : List Request := ps.map fun p => p.node.request

/-- The step function. -/
def Primary.step (s : Primary) : Packet → Option Primary
  | .acquire node =>
      if node.request.isLock ∧ s.hist.request node.request = none then
        let r := processPrimaryAcquire s.nq node
        some ⟨r.1, s.hist.requested node.request node.request.isExcl (grantees r.2),
          s.arrivals ++ [node.request]⟩
      else none
  | .release node =>
      if s.hist.request node.request ≠ none then
        let r := processPrimaryRelease s.nq node
        some ⟨r.1, s.hist.ended node.request (grantees r.2), s.arrivals.erase node.request⟩
      else none

/-! ## The queue as a list of requests -/

def NodeQueuePerLock.requests (nq : NodeQueuePerLock) : List Request :=
  nq.nodeQueue.map LockQueueNode.request

/-- `shared_counter` has room for a shared request that is granted at once. -/
def AcquireFits (nq : NodeQueuePerLock) (r : Request) : Prop :=
  r.mode = SHARED → nq.lockState ≠ .exclusive → nq.sharedCounter.toInt < 2 ^ 31 - 1

/-- `cur_count` gets to the position of the request, and where the lock is handed over to the shared
requests in the queue there are fewer than `2 ^ 31` of them. -/
def ReleaseFits (nq : NodeQueuePerLock) (r : Request) : Prop :=
  nq.requests.idxOf r < 2 ^ 31
    ∧ (nq.lockState = .exclusive → (nq.requests.erase r).head?.map Request.mode = some SHARED →
        nq.requests.countP (·.mode = SHARED) < 2 ^ 31)

instance (nq : NodeQueuePerLock) (r : Request) : Decidable (AcquireFits nq r) :=
  inferInstanceAs (Decidable (_ → _ → _))

instance (nq : NodeQueuePerLock) (r : Request) : Decidable (ReleaseFits nq r) :=
  inferInstanceAs (Decidable (_ ∧ (_ → _ → _)))

def Primary.Fits (s : Primary) : Packet → Prop
  | .acquire node => AcquireFits s.nq node.request
  | .release node => ReleaseFits s.nq node.request

instance (s : Primary) : (c : Packet) → Decidable (s.Fits c)
  | .acquire node => inferInstanceAs (Decidable (AcquireFits s.nq node.request))
  | .release node => inferInstanceAs (Decidable (ReleaseFits s.nq node.request))

/-- The states of all runs in which no `int` overflows. -/
abbrev Primary.Reachable : Primary → Prop := Reach Primary.step Primary.Fits Primary.init

section Requests

variable {nq : NodeQueuePerLock} {n node : LockQueueNode}

lemma hit_iff : n.hit node.txnId node.clientId node.mode = true ↔ n.request = node.request := by
  simp [LockQueueNode.hit, LockQueueNode.request]

@[simp]
lemma request_withPayload : (n.withPayload node).request = n.request := rfl

lemma findIdx?_hit (ns : List LockQueueNode) (node : LockQueueNode) :
    ns.findIdx? (LockQueueNode.hit node.txnId node.clientId node.mode)
      = (ns.map LockQueueNode.request).idxOf? node.request := by
  rw [List.idxOf?, List.findIdx?_map]
  congr 1
  funext n
  rw [Bool.eq_iff_iff, hit_iff]
  simp

/-- What is erased, said about requests. -/
lemma requests_eraseLockRequest (nq : NodeQueuePerLock) (node : LockQueueNode) :
    (eraseLockRequest nq node.txnId node.clientId node.mode).1.requests
      = nq.requests.erase node.request := by
  simp only [eraseLockRequest, findIdx?_hit, List.erase_eq_eraseIdx, NodeQueuePerLock.requests]
  cases (nq.nodeQueue.map LockQueueNode.request).idxOf? node.request with
  | none => rfl
  | some i => exact (List.eraseIdx_map _ _ _).symm

/-- The result of `erase_lock_request`. -/
lemma eraseLockRequest_snd (nq : NodeQueuePerLock) (node : LockQueueNode) :
    (eraseLockRequest nq node.txnId node.clientId node.mode).2
      = BitVec.ofNat 32 ((nq.requests.idxOf? node.request).getD 0) := by
  simp only [eraseLockRequest, findIdx?_hit, NodeQueuePerLock.requests]
  cases (nq.nodeQueue.map LockQueueNode.request).idxOf? node.request <;> rfl

@[simp]
lemma lockState_eraseLockRequest (r : BitVec 32) (h op : BitVec 8) :
    (eraseLockRequest nq r h op).1.lockState = nq.lockState := by
  simp only [eraseLockRequest]
  split <;> rfl

@[simp]
lemma sharedCounter_eraseLockRequest (r : BitVec 32) (h op : BitVec 8) :
    (eraseLockRequest nq r h op).1.sharedCounter = nq.sharedCounter := by
  simp only [eraseLockRequest]
  split <;> rfl

lemma requests_grantHead {head : LockQueueNode} (h : getHeadRequest nq = some head) :
    (grantHead nq head node).1.requests = nq.requests := by
  obtain ⟨rest, hq⟩ : ∃ rest, nq.nodeQueue = head :: rest := by
    simpa [getHeadRequest, List.head?_eq_some_iff] using h
  simp [grantHead, NodeQueuePerLock.requests, hq]

lemma requests_grantShared (nq : NodeQueuePerLock) (node : LockQueueNode) :
    (grantShared nq node).1.requests = nq.requests := by
  simp only [grantShared, NodeQueuePerLock.requests, List.map_map]
  refine List.map_congr_left fun n _ => ?_
  simp only [Function.comp_apply]
  split <;> rfl

lemma grantees_grantShared (nq : NodeQueuePerLock) (node : LockQueueNode) :
    grantees (grantShared nq node).2 = nq.requests.filter (·.mode = SHARED) := by
  simp only [grantees, grantShared, NodeQueuePerLock.requests, List.filter_map, List.map_map]
  rfl

/-- What an operation does, as far as the abstract lock is concerned. -/
structure Outcome (o : NodeQueuePerLock × List GrantPacket) (st : QueueState) (counter : BitVec 32)
    (rs gs : List Request) : Prop where
  lockState : o.1.lockState = st
  sharedCounter : o.1.sharedCounter = counter
  requests : o.1.requests = rs
  grantees : grantees o.2 = gs

@[simp]
lemma lockState_enqueueRequest : (enqueueRequest nq node).lockState = nq.lockState := rfl

lemma requests_enqueueRequest :
    (enqueueRequest nq node).requests = nq.requests ++ [node.request] := by
  simp [enqueueRequest, NodeQueuePerLock.requests]

lemma acquire_shared (hm : node.mode = SHARED) (hs : nq.lockState = .free ∨ nq.lockState = .shared) :
    Outcome (processPrimaryAcquire nq node) .shared (nq.sharedCounter + 1)
      (nq.requests ++ [node.request]) [node.request] := by
  rw [processPrimaryAcquire, if_pos hm, if_pos (by simpa using hs)]
  exact ⟨rfl, rfl, requests_enqueueRequest, rfl⟩

lemma acquire_excl (hm : node.mode = EXCLUSIVE) (hs : nq.lockState = .free) :
    Outcome (processPrimaryAcquire nq node) .exclusive nq.sharedCounter
      (nq.requests ++ [node.request]) [node.request] := by
  rw [processPrimaryAcquire, if_neg (by simp [hm]), if_pos hm, if_pos (by simpa using hs)]
  exact ⟨rfl, rfl, requests_enqueueRequest, rfl⟩

lemma acquire_waits (node : LockQueueNode)
    (h : nq.lockState = .exclusive ∨ nq.lockState = .shared ∧ node.mode = EXCLUSIVE) :
    Outcome (processPrimaryAcquire nq node) nq.lockState nq.sharedCounter
      (nq.requests ++ [node.request]) [] := by
  have ho : processPrimaryAcquire nq node = (enqueueRequest nq node, []) := by
    rcases h with h | ⟨h, hm⟩
    · simp [processPrimaryAcquire, h]
    · simp [processPrimaryAcquire, h, hm]
  rw [ho]
  exact ⟨rfl, rfl, requests_enqueueRequest, rfl⟩

/-- The release of a request that waits. -/
lemma release_abort
    (h : node.mode = SHARED ∧ nq.lockState ≠ .shared ∨
      node.mode = EXCLUSIVE ∧
        (nq.lockState ≠ .exclusive
          ∨ BitVec.ofNat 32 ((nq.requests.idxOf? node.request).getD 0) ≠ 0)) :
    Outcome (processPrimaryRelease nq node) nq.lockState nq.sharedCounter
      (nq.requests.erase node.request) [] := by
  have ho : processPrimaryRelease nq node
      = ((eraseLockRequest nq node.txnId node.clientId node.mode).1, []) := by
    rcases h with ⟨hm, h⟩ | ⟨hm, h | h⟩
    · simp [processPrimaryRelease, hm, h]
    · simp [processPrimaryRelease, hm, h]
    · rw [processPrimaryRelease, eraseLockRequest_snd, if_neg (by simp [hm]), if_pos hm,
        if_neg fun hret => h hret.2]
  rw [ho]
  exact ⟨lockState_eraseLockRequest _ _ _, sharedCounter_eraseLockRequest _ _ _,
    requests_eraseLockRequest _ _, rfl⟩

/-- A shared holder leaves others behind. -/
lemma release_shared_more (hm : node.mode = SHARED) (hs : nq.lockState = .shared)
    (hc : 0 < (nq.sharedCounter - 1).toInt) :
    Outcome (processPrimaryRelease nq node) .shared (nq.sharedCounter - 1)
      (nq.requests.erase node.request) [] := by
  have ho : processPrimaryRelease nq node
      = ({ (eraseLockRequest nq node.txnId node.clientId node.mode).1 with
            sharedCounter := nq.sharedCounter - 1 }, []) := by
    rw [processPrimaryRelease, if_pos hm, if_pos (by simp [hs])]
    simp only [sharedCounter_eraseLockRequest, if_pos hc]
  rw [ho]
  exact ⟨by simp [hs], rfl, requests_eraseLockRequest _ _, rfl⟩

/-- The first request of a queue is that of its first node. -/
lemma requests_eq (nq : NodeQueuePerLock) :
    nq.requests = match getHeadRequest nq with
      | some head => head.request :: nq.nodeQueue.tail.map LockQueueNode.request
      | none => [] := by
  cases h : nq.nodeQueue <;> simp [NodeQueuePerLock.requests, getHeadRequest, h]

lemma grantHead_outcome (node : LockQueueNode) {head : LockQueueNode} (h : getHeadRequest nq = some head) :
    Outcome (grantHead nq head node) .exclusive nq.sharedCounter nq.requests [head.request] :=
  ⟨rfl, rfl, requests_grantHead h, rfl⟩

/-- A hand-over of a queue that is empty or has an exclusive request first. -/
lemma handOver_excl (nq : NodeQueuePerLock) (node : LockQueueNode) (hs : nq.lockState = .free)
    (hx : ∀ r ∈ nq.requests.head?, r.mode = EXCLUSIVE)
    (shared : NodeQueuePerLock × List GrantPacket) :
    Outcome (handOver nq node shared) (if nq.requests = [] then .free else .exclusive)
      nq.sharedCounter nq.requests nq.requests.head?.toList := by
  have hreq := requests_eq nq
  rw [handOver]
  cases hh : getHeadRequest nq with
  | none =>
      rw [hh] at hreq
      exact ⟨by simp [hreq, hs], rfl, rfl, by rw [hreq]; rfl⟩
  | some head =>
      rw [hh] at hreq
      have hmode : head.mode = EXCLUSIVE := hx head.request (by rw [hreq]; rfl)
      have ho := grantHead_outcome node hh
      simp only [hmode, if_true]
      exact ⟨by simp [ho.lockState, hreq], ho.sharedCounter, ho.requests,
        by simp [ho.grantees, hreq]⟩

/-- The last shared holder leaves, and nobody else shares the lock. -/
lemma release_shared_last (hm : node.mode = SHARED) (hs : nq.lockState = .shared)
    (hc : nq.sharedCounter - 1 = 0)
    (hx : ∀ r ∈ nq.requests.erase node.request, r.mode = EXCLUSIVE) :
    Outcome (processPrimaryRelease nq node)
      (if nq.requests.erase node.request = [] then .free else .exclusive) 0
      (nq.requests.erase node.request) (nq.requests.erase node.request).head?.toList := by
  have hreq := requests_eraseLockRequest nq node
  rw [processPrimaryRelease, if_pos hm, if_pos (by simp [hs]), hm]
  simp only [sharedCounter_eraseLockRequest, hc]
  rw [hm] at hreq
  rw [← hreq] at hx ⊢
  exact handOver_excl ⟨_, 0, .free, _⟩ node rfl (fun r hr => hx r (List.mem_of_mem_head? hr)) _

/-- The exclusive holder leaves. -/
lemma release_excl (hm : node.mode = EXCLUSIVE) (hs : nq.lockState = .exclusive)
    (hr : (nq.requests.idxOf? node.request).getD 0 = 0) :
    ∃ nq' : NodeQueuePerLock, nq'.lockState = .free ∧ nq'.sharedCounter = nq.sharedCounter
      ∧ nq'.requests = nq.requests.erase node.request
      ∧ processPrimaryRelease nq node = handOver nq' node (grantShared nq' node) := by
  refine ⟨{ (eraseLockRequest nq node.txnId node.clientId node.mode).1 with lockState := .free },
    rfl, sharedCounter_eraseLockRequest _ _ _, requests_eraseLockRequest nq node, ?_⟩
  rw [processPrimaryRelease, if_neg (by simp [hm]), if_pos hm,
    if_pos ⟨by simp [hs], by rw [eraseLockRequest_snd, hr]; rfl⟩]

/-- All shared requests are granted if one is first in the queue. -/
lemma handOver_shared (node : LockQueueNode) {r : Request} (hh : nq.requests.head? = some r)
    (hm : r.mode = SHARED) :
    Outcome (handOver nq node (grantShared nq node)) .shared
      (nq.sharedCounter + BitVec.ofNat 32 (nq.requests.filter (·.mode = SHARED)).length) nq.requests
      (nq.requests.filter (·.mode = SHARED)) := by
  have hreq := requests_eq nq
  rw [handOver]
  cases hg : getHeadRequest nq with
  | none =>
      rw [hg] at hreq
      simp [hreq] at hh
  | some head =>
      rw [hg] at hreq
      obtain rfl : head.request = r := by simpa [hreq] using hh
      have hmode : head.mode = SHARED := hm
      simp only [hmode, if_true]
      refine ⟨rfl, ?_, requests_grantShared _ _, grantees_grantShared _ _⟩
      rw [← grantees_grantShared nq node, grantees, List.length_map]
      simp [grantShared]

end Requests

/-! ## The server implements a readers-writer lock -/

/-- A request as the abstract queue has it. -/
def Request.entry (r : Request) : Request × Bool := (r, r.isExcl)

/-- The queue and the counter `nq` stand for a lock in phase `p` with queue `q`. -/
structure Represents (nq : NodeQueuePerLock) (p : Phase Request) (q : List (Request × Bool)) :
    Prop where
  locks : ∀ r ∈ nq.requests, r.isLock
  nodup : nq.requests.Nodup
  phase : match p with
    | .free => nq.lockState = .free ∧ nq.sharedCounter = 0 ∧ nq.requests = [] ∧ q = []
    | .shared S => nq.lockState = .shared ∧ nq.sharedCounter.toInt = S.card
        ∧ S = (nq.requests.filter (·.isExcl = false)).toFinset
        ∧ q = (nq.requests.filter (·.isExcl = true)).map Request.entry
    | .excl a => nq.lockState = .exclusive ∧ nq.sharedCounter = 0
        ∧ ∃ rest, nq.requests = a :: rest ∧ a.isExcl = true ∧ q = rest.map Request.entry

section Simulation

variable {nq : NodeQueuePerLock} {p : Phase Request} {q : List (Request × Bool)}
  {node : LockQueueNode}

lemma Request.isLock.isExcl_iff {r : Request} (h : r.isLock) :
    (r.isExcl = false ↔ r.mode = SHARED) ∧ (r.isExcl = true ↔ r.mode = EXCLUSIVE) := by
  rcases h with h | h <;> simp [Request.isExcl, h]

/-- A request does what the abstract lock does. -/
lemma Represents.acquire (hr : Represents nq p q) (hl : node.request.isLock)
    (hn : node.request ∉ nq.requests) (hfits : AcquireFits nq node.request) :
    let o := processPrimaryAcquire nq node
    let g := ReadersWriter.acquire p q node.request node.request.isExcl
    Represents o.1 g.phase g.queue ∧ grantees o.2 = g.grantees
      ∧ o.1.requests = nq.requests ++ [node.request] := by
  have hlocks : ∀ r ∈ nq.requests ++ [node.request], r.isLock := by
    simpa [or_imp, forall_and] using ⟨hr.locks, hl⟩
  have hnd : (nq.requests ++ [node.request]).Nodup := by
    refine List.nodup_append.2 ⟨hr.nodup, List.nodup_singleton _, ?_⟩
    rintro r hr' _ hs rfl
    exact hn (List.mem_singleton.1 hs ▸ hr')
  have hph := hr.phase
  cases p with
  | free =>
      obtain ⟨hs, hc, hnil, rfl⟩ := hph
      rcases hl with hm | hm
      · have hx : node.request.isExcl = false := by simp [Request.isExcl, hm]
        have ho := acquire_shared hm (.inl hs)
        rw [hx]
        refine ⟨⟨ho.requests ▸ hlocks, ho.requests ▸ hnd, ho.lockState, ?_, ?_, ?_⟩, ho.grantees,
          ho.requests⟩
        · simp [ho.sharedCounter, hc, BitVec.toInt]
        · simp [ho.requests, hnil, hx]
        · simp [ho.requests, hnil, hx, ReadersWriter.acquire]
      · have hx : node.request.isExcl = true := by simp [Request.isExcl, hm]
        have ho := acquire_excl hm hs
        rw [hx]
        refine ⟨⟨ho.requests ▸ hlocks, ho.requests ▸ hnd, ho.lockState, ho.sharedCounter.trans hc,
          [], ?_, hx, rfl⟩, ho.grantees, ho.requests⟩
        simp [ho.requests, hnil]
  | shared S =>
      obtain ⟨hs, hc, hS, rfl⟩ := hph
      rcases hl with hm | hm
      · have hx : node.request.isExcl = false := by simp [Request.isExcl, hm]
        have ho := acquire_shared hm (.inr hs)
        rw [hx]
        refine ⟨⟨ho.requests ▸ hlocks, ho.requests ▸ hnd, ho.lockState, ?_, ?_, ?_⟩, ho.grantees,
          ho.requests⟩
        · have hcard : (insert node.request S).card = S.card + 1 :=
            Finset.card_insert_of_notMem (by simp [hS, hn])
          rw [ho.sharedCounter, toInt_add_one (hfits hm (by simp [hs])), hc, hcard, Nat.cast_succ]
        · simp [ho.requests, hS, hx, List.filter_append, Finset.union_comm]
        · simp [ho.requests, hx, ReadersWriter.acquire, List.filter_append]
      · have hx : node.request.isExcl = true := by simp [Request.isExcl, hm]
        have ho := acquire_waits node (.inr ⟨hs, hm⟩)
        rw [hx]
        refine ⟨⟨ho.requests ▸ hlocks, ho.requests ▸ hnd, ho.lockState.trans hs,
          (congrArg BitVec.toInt ho.sharedCounter).trans hc, ?_, ?_⟩, ho.grantees, ho.requests⟩
        · simp [ho.requests, hS, hx, List.filter_append]
        · simp [ho.requests, hx, ReadersWriter.acquire, List.filter_append, Request.entry]
  | excl a =>
      obtain ⟨hs, hc, rest, hrest, ha, rfl⟩ := hph
      have ho := acquire_waits node (.inl hs)
      refine ⟨⟨ho.requests ▸ hlocks, ho.requests ▸ hnd, ho.lockState.trans hs,
        ho.sharedCounter.trans hc, rest ++ [node.request], ?_, ha, ?_⟩, ho.grantees, ho.requests⟩
      · simp [ho.requests, hrest]
      · simp [ReadersWriter.acquire, Request.entry]

/-! ### Releases -/

lemma Represents.locks_erase (hr : Represents nq p q) (r : Request) :
    ∀ c ∈ nq.requests.erase r, c.isLock := fun c hc => hr.locks c (List.mem_of_mem_erase hc)

lemma withdraw_entry (rs : List Request) (r : Request) :
    withdraw (rs.map Request.entry) r = (rs.filter (· ≠ r)).map Request.entry := by
  rw [withdraw, List.filter_map]
  rfl

lemma erase_eq_filter_ne {rs : List Request} (h : rs.Nodup) (r : Request) :
    rs.erase r = rs.filter (· ≠ r) := by
  rw [h.erase_eq_filter]
  exact List.filter_congr fun c _ => by by_cases hc : c = r <;> simp [hc]

/-- What the exclusive holder leaves behind is scheduled as the abstract lock does. -/
lemma Represents.release_excl {a : Request} (hr : Represents nq (.excl a) q)
    (hn : node.request = a) (hfits : ReleaseFits nq node.request) :
    let o := processPrimaryRelease nq node
    Represents o.1 (schedule q).phase (schedule q).queue ∧ grantees o.2 = (schedule q).grantees
      ∧ o.1.requests = nq.requests.erase node.request := by
  obtain ⟨hs, hc, rest, hrest, ha, rfl⟩ := hr.phase
  subst hn
  have hmode : node.mode = EXCLUSIVE := (hr.locks _ (by simp [hrest])).isExcl_iff.2.1 ha
  have hers : nq.requests.erase node.request = rest := by simp [hrest]
  have hlocks : ∀ r ∈ rest, r.isLock := hers ▸ hr.locks_erase node.request
  have hnd : rest.Nodup := hers ▸ hr.nodup.erase _
  obtain ⟨nq', hs', hc', hreq', ho⟩ :=
    NetLock.release_excl hmode hs (by simp [hrest, List.idxOf?_cons])
  rw [hers] at hreq'
  rw [hers, ho]
  cases hq : rest with
  | nil =>
      rw [hq] at hreq'
      have ho' := handOver_excl nq' node hs' (by simp [hreq']) (grantShared nq' node)
      rw [hreq'] at ho'
      refine ⟨⟨?_, ?_, ho'.lockState, ?_, ho'.requests, rfl⟩, ho'.grantees, ho'.requests⟩
      · simp [ho'.requests]
      · simp [ho'.requests]
      · rw [ho'.sharedCounter, hc', hc]
  | cons b bs =>
      rw [hq] at hreq' hlocks hnd
      rcases hlocks b List.mem_cons_self with hb | hb
      · have hsched : schedule ((b :: bs).map Request.entry) = _ :=
          schedule_map_shared id Request.isExcl bs (by simp [Request.isExcl, hb])
        have hread : (b :: bs).filter (·.mode = SHARED) = (b :: bs).filter (·.isExcl = false) :=
          List.filter_congr fun c hc => by simp [(hlocks c hc).isExcl_iff.1]
        have ho' := handOver_shared node (by rw [hreq']; rfl) hb
        rw [hreq', hread] at ho'
        rw [hsched]
        refine ⟨⟨ho'.requests ▸ hlocks, ho'.requests ▸ hnd, ho'.lockState, ?_, ?_, ?_⟩, ?_,
          ho'.requests⟩
        · have hlt := hfits.2 hs (by rw [hers, hq, List.head?_cons, Option.map_some, hb])
          rw [hrest, List.countP_cons_of_neg (by simp [show node.request.mode = _ from hmode]), hq,
            List.countP_eq_length_filter, hread] at hlt
          rw [ho'.sharedCounter, hc', hc, List.map_id, List.toFinset_card_of_nodup (hnd.filter _),
            zero_add, toInt_ofNat hlt]
        · rw [ho'.requests, List.map_id]
        · rw [ho'.requests]
          rfl
        · rw [ho'.grantees, List.map_id]
      · have hx : b.isExcl = true := by simp [Request.isExcl, hb]
        have hsched : schedule ((b :: bs).map Request.entry) = _ :=
          schedule_map_excl id Request.isExcl bs hx
        have ho' := handOver_excl nq' node hs' (by simpa [hreq'] using hb)
          (grantShared nq' node)
        rw [hreq'] at ho'
        rw [hsched]
        refine ⟨⟨ho'.requests ▸ hlocks, ho'.requests ▸ hnd, ho'.lockState, ?_, bs, ho'.requests, hx,
          rfl⟩, ho'.grantees, ho'.requests⟩
        rw [ho'.sharedCounter, hc', hc]

/-- A shared holder leaves. -/
lemma Represents.release_shared {S : Finset Request} (hr : Represents nq (.shared S) q)
    (hn : node.request ∈ S) :
    let o := processPrimaryRelease nq node
    let g := ReadersWriter.release (.shared S) q node.request
    Represents o.1 g.phase g.queue ∧ grantees o.2 = g.grantees
      ∧ o.1.requests = nq.requests.erase node.request := by
  obtain ⟨hs, hc, hS, rfl⟩ := hr.phase
  have hmem : node.request ∈ nq.requests ∧ node.request.isExcl = false := by simpa [hS] using hn
  have hmode : node.mode = SHARED := (hr.locks _ hmem.1).isExcl_iff.1.1 hmem.2
  have hlocks := hr.locks_erase node.request
  have hnd := hr.nodup.erase node.request
  have hcard : (nq.sharedCounter - 1).toInt = (S.erase node.request).card := by
    have : 0 < S.card := Finset.card_pos.2 ⟨_, hn⟩
    rw [toInt_sub_one (by rw [hc]; exact_mod_cast this), hc, Finset.card_erase_of_mem hn]
    omega
  have hSers : S.erase node.request
      = ((nq.requests.erase node.request).filter (·.isExcl = false)).toFinset := by
    ext c
    simp [hS, erase_eq_filter_ne hr.nodup]
    tauto
  -- the exclusive requests stay where they are
  have hexcl : (nq.requests.erase node.request).filter (·.isExcl = true)
      = nq.requests.filter (·.isExcl = true) := by
    rw [erase_eq_filter_ne hr.nodup, List.filter_filter]
    refine List.filter_congr fun c _ => ?_
    by_cases hcn : c = node.request <;> simp [hcn, hmem.2]
  by_cases hne : S.erase node.request = ∅
  · have hall : ∀ r ∈ nq.requests.erase node.request, r.isExcl = true := fun r hr' => by
      by_contra hx
      have : r ∈ S.erase node.request := by
        rw [hSers]
        simpa using ⟨hr', by simpa using hx⟩
      simp [hne] at this
    have ho := release_shared_last hmode hs (eq_zero_of_toInt (hcard.trans (by simp [hne])))
      fun r hr' => (hlocks r hr').isExcl_iff.2.1 (hall r hr')
    rw [release_last (p := .shared S) hne, ← hexcl, List.filter_eq_self.2 (by simpa using hall)]
    generalize nq.requests.erase node.request = rs at *
    cases rs with
    | nil =>
        refine ⟨⟨?_, ?_, ho.lockState, ho.sharedCounter, ho.requests, rfl⟩, ho.grantees, ho.requests⟩
        · simp [ho.requests]
        · simp [ho.requests]
    | cons b bs =>
        have hx : b.isExcl = true := hall b List.mem_cons_self
        have hsched : schedule ((b :: bs).map Request.entry) = _ :=
          schedule_map_excl id Request.isExcl bs hx
        rw [hsched]
        exact ⟨⟨ho.requests ▸ hlocks, ho.requests ▸ hnd, ho.lockState, ho.sharedCounter, bs,
          ho.requests, hx, rfl⟩, ho.grantees, ho.requests⟩
  · have hpos : 0 < (nq.sharedCounter - 1).toInt := by
      rw [hcard, Nat.cast_pos, Finset.card_pos]
      exact Finset.nonempty_iff_ne_empty.2 hne
    have ho := release_shared_more hmode hs hpos
    rw [release_more (p := .shared S) hne]
    refine ⟨⟨ho.requests ▸ hlocks, ho.requests ▸ hnd, ho.lockState, ?_, ?_, ?_⟩, ho.grantees,
      ho.requests⟩
    · exact (congrArg BitVec.toInt ho.sharedCounter).trans hcard
    · rw [ho.requests]
      exact hSers
    · rw [ho.requests, hexcl]

/-- A request that waits is given up. -/
lemma Represents.release_abort (hr : Represents nq p q)
    (hn : (node.request, node.request.isExcl) ∈ q) (hfits : ReleaseFits nq node.request) :
    let o := processPrimaryRelease nq node
    Represents o.1 p (withdraw q node.request) ∧ grantees o.2 = []
      ∧ o.1.requests = nq.requests.erase node.request := by
  have hlocks := hr.locks_erase node.request
  have hnd := hr.nodup.erase node.request
  have hph := hr.phase
  cases p with
  | free =>
      obtain ⟨-, -, -, rfl⟩ := hph
      cases hn
  | shared S =>
      obtain ⟨hs, hc, hS, rfl⟩ := hph
      obtain ⟨hmem, hx⟩ : node.request ∈ nq.requests ∧ node.request.isExcl = true := by
        simpa [Request.entry] using hn
      have hst : nq.lockState ≠ .exclusive := by simp [hs]
      have ho := NetLock.release_abort (.inr ⟨(hr.locks _ hmem).isExcl_iff.2.1 hx, .inl hst⟩)
      refine ⟨⟨ho.requests ▸ hlocks, ho.requests ▸ hnd, ho.lockState.trans hs,
        (congrArg BitVec.toInt ho.sharedCounter).trans hc, ?_, ?_⟩, ho.grantees, ho.requests⟩
      · rw [ho.requests, hS, erase_eq_filter_ne hr.nodup, List.filter_filter]
        congr 1
        refine List.filter_congr fun c _ => ?_
        by_cases hcn : c = node.request <;> simp [hcn, hx]
      · rw [ho.requests, withdraw_entry, erase_eq_filter_ne hr.nodup, List.filter_filter,
          List.filter_filter]
        simp only [Bool.and_comm]
  | excl a =>
      obtain ⟨hs, hc, rest, hrest, ha, rfl⟩ := hph
      have hmem : node.request ∈ rest := by simpa [Request.entry] using hn
      have hnd' := hr.nodup
      rw [hrest, List.nodup_cons] at hnd'
      have hne : a ≠ node.request := fun h => hnd'.1 (h ▸ hmem)
      have ho : Outcome (processPrimaryRelease nq node) nq.lockState nq.sharedCounter
          (nq.requests.erase node.request) [] := by
        refine NetLock.release_abort ?_
        rcases hr.locks node.request (by simp [hrest, hmem]) with hm | hm
        · exact .inl ⟨hm, by simp [hs]⟩
        · refine .inr ⟨hm, .inr ?_⟩
          obtain ⟨i, hi⟩ := Option.isSome_iff_exists.1 (List.isSome_idxOf?.2 hmem)
          have hlt := hfits.1
          rw [hrest, List.idxOf_cons_ne _ hne, List.idxOf_eq_getD_idxOf?, hi, Option.getD_some] at hlt
          simp only [hrest, List.idxOf?_cons, beq_iff_eq, hne, if_false, hi, Option.map_some,
            Option.getD_some]
          intro h0
          have := congrArg BitVec.toNat h0
          rw [BitVec.toNat_ofNat, Nat.mod_eq_of_lt (by omega)] at this
          cases this
      refine ⟨⟨ho.requests ▸ hlocks, ho.requests ▸ hnd, ho.lockState.trans hs,
        ho.sharedCounter.trans hc, rest.erase node.request, ?_, ha, ?_⟩, ho.grantees, ho.requests⟩
      · rw [ho.requests, hrest, List.erase_cons_tail (by simpa using hne)]
      · rw [withdraw_entry, erase_eq_filter_ne hnd'.2]

variable {t : Service Request}

/-- The release of a request does what the abstract lock does when the request leaves. -/
lemma Represents.release (hi : ReadersWriter.Inv t) (hr : Represents nq t.phase t.queue)
    (hfits : ReleaseFits nq node.request) (he : t.hist.request node.request = some node.request.isExcl) :
    let o := processPrimaryRelease nq node
    let g := leave t node.request
    Represents o.1 g.phase g.queue ∧ grantees o.2 = g.grantees
      ∧ o.1.requests = nq.requests.erase node.request := by
  by_cases hg : 0 < t.hist.grants node.request
  · have hown := hi.mem_owners ⟨by simp [he], hg⟩
    simp only [leave, if_pos hg]
    cases hp : t.phase with
    | free => simp [hp, Phase.owners] at hown
    | shared S =>
        rw [hp] at hr hown
        exact hr.release_shared hown
    | excl a =>
        rw [hp] at hr hown
        have ha : node.request = a := by simpa [Phase.owners] using hown
        rw [release_last (p := .excl a) (by simp [Phase.owners, ha])]
        exact hr.release_excl ha hfits
  · simp only [leave, if_neg hg]
    exact hr.release_abort ((hi.waiting.mem_iff _ _).2 ⟨he, Nat.eq_zero_of_not_pos hg⟩) hfits

end Simulation

/-- The server is in the state of the abstract lock `t`. -/
structure Simulates (s : Primary) (t : Service Request) : Prop where
  hist : t.hist = s.hist
  represents : Represents s.nq t.phase t.queue
  arrivals : s.nq.requests = s.arrivals
  open_iff : ∀ r, r ∈ s.arrivals ↔ s.hist.request r ≠ none
  modes : ∀ r x, s.hist.request r = some x → x = r.isExcl

lemma simulates_init : Simulates .init .start where
  hist := rfl
  represents := ⟨by simp [Primary.init, initLockQueue, NodeQueuePerLock.requests],
    List.nodup_nil, rfl, rfl, rfl, rfl⟩
  arrivals := rfl
  open_iff := by simp [Primary.init, History.start]
  modes := by simp [Primary.init, History.start]

variable {s s' : Primary} {t : Service Request}

/-- **Every step of the server is a step of a readers-writer lock**, unless an `int` overflows. -/
lemma step_simulated {c : Packet} (hs : Simulates s t) (hi : ReadersWriter.Inv t) (hf : s.Fits c)
    (h : s.step c = some s') : ∃ c' t', t.stepOrLeave c' = some t' ∧ Simulates s' t' := by
  cases c with
  | acquire node =>
      simp only [Primary.step] at h
      split at h
      · next hpre =>
          have hreq : t.hist.request node.request = none := hs.hist ▸ hpre.2
          have hn : node.request ∉ s.nq.requests := by simp [hs.arrivals, hs.open_iff, hpre.2]
          obtain ⟨hrep, hgr, hrs⟩ := hs.represents.acquire hpre.1 hn hf
          obtain rfl := Option.some.inj h
          refine ⟨.acquire node.request node.request.isExcl, _, if_pos hreq,
            by rw [hs.hist, hgr], hrep, by simp only [hrs, hs.arrivals], fun r => ?_, fun r x hx => ?_⟩
          · by_cases hrn : r = node.request <;> simp [History.requested, hrn, hs.open_iff r]
          · by_cases hrn : r = node.request
            · subst hrn
              simp only [History.requested, Function.update_self, Option.some.injEq] at hx
              exact hx.symm
            · simp only [History.requested, Function.update_of_ne hrn] at hx
              exact hs.modes r x hx
      · cases h
  | release node =>
      simp only [Primary.step] at h
      split at h
      · next hpre =>
          have hreq : t.hist.request node.request ≠ none := hs.hist ▸ hpre
          obtain ⟨x, hx⟩ := Option.ne_none_iff_exists'.1 hpre
          obtain rfl := hs.modes _ x hx
          obtain ⟨hrep, hgr, hrs⟩ := hs.represents.release hi hf (hs.hist ▸ hx)
          have hnd : s.arrivals.Nodup := hs.arrivals ▸ hs.represents.nodup
          obtain rfl := Option.some.inj h
          refine ⟨.release node.request, _, if_pos hreq, by rw [hs.hist, hgr], hrep,
            by simp only [hrs, hs.arrivals], fun r => ?_, fun r x hx => ?_⟩
          · simp only [History.request_ended, hnd.mem_erase_iff, hs.open_iff r]
            by_cases hrn : r = node.request <;> simp [hrn]
          · simp only [History.request_ended] at hx
            by_cases hrn : r = node.request
            · simp [hrn] at hx
            · rw [Function.update_of_ne hrn] at hx
              exact hs.modes r x hx
      · cases h

lemma simulated_of_reachable (h : Primary.Reachable s) : ∃ t, ReaderFirst t ∧ Simulates s t := by
  obtain ⟨t, ht, hs⟩ := Reach.simulation simulates_init
    (fun _ _ _ _ hR ht hf hstep => step_simulated hR (readerFirst_of_reachable ht).toInv hf hstep) h
  exact ⟨t, readerFirst_of_reachable ht, hs⟩

/-! ## What the server keeps -/

/-- The server's data agree with who holds the lock and who waits for it. -/
structure Consistent (s : Primary) : Prop where
  /-- The queue holds the unreleased requests in the order of their arrival. -/
  queue : s.nq.requests = s.arrivals
  open_iff : ∀ r, r ∈ s.arrivals ↔ s.hist.request r ≠ none
  nodup : s.arrivals.Nodup
  /-- The lock is exclusive exactly if the first request alone is granted, and is exclusive. -/
  exclusive_iff : s.nq.lockState = .exclusive ↔
    ∃ r, s.nq.requests.head? = some r ∧ r.mode = EXCLUSIVE ∧ ∀ c, s.hist.granted c ↔ c = r
  /-- It is shared exactly if the shared requests are granted, there are some, and the counter says
  how many. -/
  shared_iff : s.nq.lockState = .shared ↔
    (∀ c, s.hist.granted c ↔ c ∈ s.nq.requests ∧ c.mode = SHARED)
      ∧ s.nq.sharedCounter.toInt = (s.nq.requests.filter (·.mode = SHARED)).length
      ∧ 0 < s.nq.sharedCounter.toInt
  /-- It is free exactly if the queue is empty. -/
  free_iff : s.nq.lockState = .free ↔ s.nq.requests = []
  /-- A request is sent at most one grant. -/
  once : ∀ r, s.hist.grants r ≤ 1

lemma Simulates.consistent (hi : ReaderFirst t) (hs : Simulates s t) : Consistent s := by
  have hgr : ∀ r, s.hist.granted r ↔ r ∈ t.phase.owners := fun r => by
    rw [← hs.hist]
    exact hi.toInv.granted_iff r
  have hlocks := hs.represents.locks
  have hnd := hs.represents.nodup
  have hph := hs.represents.phase
  have hread : s.nq.requests.filter (·.mode = SHARED) = s.nq.requests.filter (·.isExcl = false) :=
    List.filter_congr fun c hc => by simp [(hlocks c hc).isExcl_iff.1]
  have honce : ∀ r, s.hist.grants r ≤ 1 := fun r => by
    rw [← hs.hist, hi.toInv.owners r]
    split <;> omega
  cases hp : t.phase with
  | free =>
      rw [hp] at hph
      obtain ⟨hst, hc, hnil, -⟩ := hph
      refine ⟨hs.arrivals, hs.open_iff, hs.arrivals ▸ hnd, ?_, ?_, ?_, honce⟩
      · simp [hst, hnil]
      · simp [hst, hc]
      · simp [hst, hnil]
  | shared S =>
      rw [hp] at hph
      obtain ⟨hst, hc, hS, -⟩ := hph
      have hmem : ∀ c, s.hist.granted c ↔ c ∈ s.nq.requests ∧ c.mode = SHARED := fun c => by
        rw [hgr, hp, Phase.owners, hS, ← hread]
        simp
      have hcard : s.nq.sharedCounter.toInt = (s.nq.requests.filter (·.mode = SHARED)).length := by
        rw [hc, hS, List.toFinset_card_of_nodup (hnd.filter _), hread]
      have hpos : 0 < s.nq.sharedCounter.toInt := by
        have hne : S ≠ ∅ := by simpa [hp, Phase.owners] using hi.toInv.held
        rw [hc, Nat.cast_pos, Finset.card_pos]
        exact Finset.nonempty_iff_ne_empty.2 hne
      refine ⟨hs.arrivals, hs.open_iff, hs.arrivals ▸ hnd, ?_, ?_, ?_, honce⟩
      · simp only [hst, reduceCtorEq, false_iff]
        rintro ⟨r, -, hx, hg⟩
        have := ((hmem r).1 ((hg r).2 rfl)).2
        simp [hx] at this
      · simpa only [hst, true_iff] using ⟨hmem, hcard, hpos⟩
      · simp only [hst, reduceCtorEq, false_iff]
        intro hnil
        simp [hcard, hnil] at hpos
  | excl a =>
      rw [hp] at hph
      obtain ⟨hst, hc, rest, hrest, ha, -⟩ := hph
      have hmem : ∀ c, s.hist.granted c ↔ c = a := fun c => by
        rw [hgr, hp, Phase.owners, Finset.mem_singleton]
      have hm : a.mode = EXCLUSIVE := (hlocks a (by simp [hrest])).isExcl_iff.2.1 ha
      refine ⟨hs.arrivals, hs.open_iff, hs.arrivals ▸ hnd, ?_, ?_, ?_, honce⟩
      · simpa only [hst, true_iff] using ⟨a, by simp [hrest], hm, hmem⟩
      · simp [hst, hc]
      · simp [hst, hrest]

/-- **The server's data agree with its clients in every run** in which no `int` overflows, whoever asks
and releases and whenever requests are aborted. -/
theorem netlock_consistent {s : Primary} (h : Primary.Reachable s) : Consistent s := by
  obtain ⟨t, hi, hs⟩ := simulated_of_reachable h
  exact hs.consistent hi

/-- Two readers share the lock with a writer between them in the queue, a second writer aborts, and
the first reader leaves. -/
theorem netlock_consistent_between_readers :
    ∃ s, Primary.Reachable s ∧ Consistent s ∧
      s.nq.requests = [⟨2, 7, EXCLUSIVE⟩, ⟨3, 7, SHARED⟩] ∧ s.nq.lockState = .shared := by
  have hex : ∃ s, Primary.Reachable s ∧
      s.nq.requests = [⟨2, 7, EXCLUSIVE⟩, ⟨3, 7, SHARED⟩] ∧ s.nq.lockState = .shared :=
    Reach.exists_of_runFrom [.acquire ⟨SHARED, 1, 7, 0, []⟩, .acquire ⟨EXCLUSIVE, 2, 7, 0, []⟩,
      .acquire ⟨SHARED, 3, 7, 0, []⟩, .acquire ⟨EXCLUSIVE, 1, 8, 0, []⟩,
      .release ⟨EXCLUSIVE, 1, 8, 0, []⟩, .release ⟨SHARED, 1, 7, 0, []⟩] (by decide +kernel)
  obtain ⟨s, hs, hq⟩ := hex
  exact ⟨s, hs, netlock_consistent hs, hq⟩

/-- The reader `n` of host 1. -/
def reader (n : ℕ) : LockQueueNode := ⟨SHARED, 1, BitVec.ofNat 32 n, 0, []⟩

/-- One reader after the other is granted the lock, and the counter wraps around. -/
lemma exists_readers (n : ℕ) (hn : n < 2 ^ 32) :
    ∃ s, Reach Primary.step (fun _ _ => True) .init s
      ∧ s.nq.sharedCounter = BitVec.ofNat 32 n ∧ s.nq.lockState = (if n = 0 then .free else .shared)
      ∧ ∀ k < 2 ^ 32, n ≤ k → s.hist.request (reader k).request = none := by
  induction n with
  | zero => exact ⟨.init, .start, rfl, rfl, fun _ _ _ => rfl⟩
  | succ n ih =>
      obtain ⟨s, hs, hcount, hstate, hnone⟩ := ih (by omega)
      have hopen : s.nq.lockState = .free ∨ s.nq.lockState = .shared := by
        by_cases h0 : n = 0
        · exact .inl (by rw [hstate, if_pos h0])
        · exact .inr (by rw [hstate, if_neg h0])
      have ho := acquire_shared (rfl : (reader n).mode = SHARED) hopen
      have hreq : (reader n).request.isLock ∧ s.hist.request (reader n).request = none :=
        ⟨.inl rfl, hnone n (by omega) le_rfl⟩
      refine ⟨_, .next (e := .acquire (reader n)) hs trivial (if_pos hreq), ?_, ?_, fun k hk hnk => ?_⟩
      · rw [ho.sharedCounter, hcount, BitVec.ofNat_add]
        rfl
      · rw [ho.lockState, if_neg (Nat.succ_ne_zero n)]
      · have hne : (reader k).request ≠ (reader n).request := by
          intro h
          have := congrArg (fun r : Request => r.txnId.toNat) h
          simp only [reader, LockQueueNode.request, BitVec.toNat_ofNat] at this
          omega
        simp only [History.requested, Function.update_of_ne hne]
        exact hnone k hk (by omega)

/-- `2 ^ 31` readers hold the lock, and the counter is `-2 ^ 31`. -/
theorem netlock_consistent_fails :
    ¬ ∀ s : Primary, Reach Primary.step (fun _ _ => True) .init s → Consistent s := by
  intro hall
  obtain ⟨s, hs, hcount, hstate, -⟩ := exists_readers (2 ^ 31) (by norm_num)
  have hpos := ((hall s hs).shared_iff.1 (by simp [hstate])).2.2
  rw [hcount, toInt_ofNat_overflow] at hpos
  exact absurd hpos (by norm_num)

end FissLock.NetLock
