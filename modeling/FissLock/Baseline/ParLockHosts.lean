import FissLock.Baseline.GrantFlags
import FissLock.Baseline.ParLock
import FissLock.Library.RemoteClients
import FissLock.Wire.Post

/-!
# ParLock on all its hosts

Every host runs the client of `lock.cc` and is the server of some locks.  `get_lock_server` says of
which: a request goes to the server in a packet, or to `acquire_lock_local` if the server is the host
itself, and the grant comes back in a packet, or by `coroutine_wait_queue_signal`, and sets a flag.

Besides packets, threads are under way as well: one that is about to call `acquire_lock_local` or
`release_lock_local`, and one that has granted a lock and is about to signal.  What is under way
overtakes each other as it likes, but is neither lost nor doubled.  A requester asks for a lock again
only when nothing of its last request is under way and its flag is not set; flags are the subject of
`GrantFlags.lean`.

`Shows` says how a request looks on its way, stage by stage, and `Sim` relates the hosts to the lock
with remote clients of the library.
-/

namespace FissLock.ParLock.Hosts

open GrantFlags

/-! ## Where a lock is kept -/

/-- How locks are spread over the hosts: the default, `PARLOCK_TPCC_SHUFFLE` and
`PARLOCK_ZIPF_LOAD_BALANCE`. -/
inductive Placement where
  | ranges
  | shuffle
  | zipf
  deriving DecidableEq, Repr

/-- The first and the last lock of every host. -/
def lockMap : List (ℕ × ℕ) :=
  [(0, 13), (14, 182), (183, 1415), (1416, 7757), (7758, 33169), (33170, 117911), (117912, 363525),
    (363526, 999999)]

/-- The build and the environment. -/
structure Config where
  placement : Placement
  /-- `MAX_LOCK_NUM`. -/
  maxLockNum : ℕ
  /-- `LOCK_WAIT_MECHANISM`. -/
  mechanism : WaitMechanism
  deriving DecidableEq, Repr

/-- `none` where a division by zero, an index that is negative as an `int` or a missing `return` leaves
the result open. -/
def getLockServer (c : Config) (lockId : BitVec 32) : Option (BitVec 8) :=
  match c.placement with
  | .shuffle => some (BitVec.ofNat 8 (lockId.toNat % HOST_NUM + 1))
  | .zipf =>
      (lockMap.findIdx? fun r => decide (r.1 ≤ lockId.toNat ∧ lockId.toNat ≤ r.2)).map fun i =>
        BitVec.ofNat 8 (i + 1)
  | .ranges =>
      let lockPerHost := c.maxLockNum / HOST_NUM
      let serverListIndex := lockId.toNat / lockPerHost
      if lockPerHost = 0 ∨ 2 ^ 31 ≤ serverListIndex then none
      else some (BitVec.ofNat 8 (min serverListIndex (HOST_NUM - 1) + 1))

/-! ## What is under way -/

inductive Kind where
  /-- The three post types. -/
  | lockReq
  | unlockReq
  | lockReply
  /-- A thread that is about to call `acquire_lock_local`. -/
  | acquireLocal
  | releaseLocal
  /-- A thread that has granted the lock and is about to call `coroutine_wait_queue_signal`. -/
  | signal
  deriving DecidableEq, Repr

structure Flight where
  dest : BitVec 8
  kind : Kind
  lockId : BitVec 32
  hd : LockPostHeader
  deriving DecidableEq, Repr

/-- A requester of a host, and the lock it asks for. -/
structure Client where
  lockId : BitVec 32
  host : BitVec 8
  requester : BitVec 32
  deriving DecidableEq, Repr

def Flight.client (x : Flight) : Client := ⟨x.lockId, x.hd.machineId, x.hd.lhId⟩

/-- The request that the server takes the message for. -/
def Flight.entry (x : Flight) : LockQueueEntry :=
  ⟨x.hd.op, x.hd.lhId,
    if x.kind = .acquireLocal ∨ x.kind = .releaseLocal then x.dest else x.hd.machineId⟩

/-- What a requester is doing with a lock. -/
inductive TaskState where
  | idle
  | waiting (op : LockOp)
  /-- Within `lock_req_granted`, in `wait_for`. -/
  | sleeping (op : LockOp)
  | holding (op : LockOp)
  deriving DecidableEq, Repr

def TaskState.op : TaskState → Option LockOp
  | .idle => none
  | .waiting op => some op
  | .sleeping op => some op
  | .holding op => some op

/-- The request for a lock: `acquire_lock_remote`, or the thread that calls `acquire_lock_local`. -/
def request (srv : BitVec 8) (a : Client) (op : LockOp) : Flight :=
  ⟨srv, if srv = a.host then .acquireLocal else .lockReq, a.lockId, ⟨op, a.host, a.requester⟩⟩

/-- Its release. -/
def giveBack (srv : BitVec 8) (a : Client) (op : LockOp) : Flight :=
  ⟨srv, if srv = a.host then .releaseLocal else .unlockReq, a.lockId, ⟨op, a.host, a.requester⟩⟩

/-- A grant that host `h` makes. -/
def told (h : BitVec 8) (lockId : BitVec 32) : Notice → Flight
  | .signal e => ⟨h, .signal, lockId, ⟨e.op, e.host, e.requester⟩⟩
  | .reply e => ⟨e.host, .lockReply, lockId, ⟨e.op, e.host, e.requester⟩⟩

/-! ## The hosts -/

/-- The lock table and the wait table of every host, what is under way, and what the requesters are
doing. -/
structure State where
  queue : BitVec 8 → BitVec 32 → LockQueue
  table : BitVec 8 → LockWaitTable
  net : List Flight
  task : Client → TaskState

/-- Every host has called `lock_local_init` for all locks below `MAX_LOCK_NUM`. -/
def State.init (c : Config) : State where
  queue := fun _ _ => initLock
  table := fun _ lockId => if lockId.toNat < c.maxLockNum then some fun _ => none else none
  net := []
  task := fun _ => .idle

inductive Event where
  /-- A requester calls `lock_acquire_async`. -/
  | acquire (a : Client) (op : LockOp)
  /-- It calls `lock_req_granted`, which returns true or waits. -/
  | poll (a : Client)
  /-- It comes out of `wait_for`. -/
  | wake (a : Client)
  /-- It calls `lock_release`. -/
  | release (a : Client)
  /-- A packet arrives, or a thread goes on. -/
  | deliver (i : ℕ)
  deriving DecidableEq, Repr

namespace State

/-- The flag of a requester. -/
def flag (s : State) (a : Client) : Option Bool := flagOf (s.table a.host) a.lockId a.requester

/-- Host `h` has done `o` to a lock. -/
def after (s : State) (h : BitVec 8) (lockId : BitVec 32) (o : Effect) (rest : List Flight) :
    State :=
  { s with
    queue := Function.update s.queue h (Function.update (s.queue h) lockId o.lq)
    net := o.grants.map (told h lockId) ++ rest }

/-- `ERROR` ends the process. -/
def processed (s : State) (h : BitVec 8) (lockId : BitVec 32) (o : Effect) (rest : List Flight) :
    Option State :=
  if o.errors = [] then some (s.after h lockId o rest) else none

/-- A requester, with the wait table of its host. -/
def setTask (s : State) (a : Client) (table : LockWaitTable) (st : TaskState) : State :=
  { s with table := Function.update s.table a.host table, task := Function.update s.task a st }

/-- `rest` is what else is under way. -/
def deliver (s : State) (x : Flight) (rest : List Flight) : Option State :=
  let lq := s.queue x.dest x.lockId
  match x.kind with
  | .lockReq => s.processed x.dest x.lockId (processLockReq lq x.hd) rest
  | .unlockReq => s.processed x.dest x.lockId (processUnlockReq x.dest lq x.hd) rest
  | .acquireLocal => s.processed x.dest x.lockId (acquireLockLocal x.dest lq x.hd.lhId x.hd.op) rest
  | .releaseLocal => s.processed x.dest x.lockId (releaseLockLocal x.dest lq x.hd.lhId x.hd.op) rest
  | .lockReply | .signal =>
      (coroutineWaitQueueSignal (s.table x.dest) x.lockId x.hd.lhId).map fun table =>
        { s with table := Function.update s.table x.dest table, net := rest }

/-- The step function; `none` if the process ends or the event cannot happen. -/
def step (c : Config) (s : State) : Event → Option State
  | .acquire a op =>
      match getLockServer c a.lockId with
      | none => none
      | some srv =>
          if (op = .lockShared ∨ op = .lockExcl) ∧ s.task a = .idle
              ∧ s.net.all (fun x => x.client ≠ a) ∧ s.flag a ≠ some true then
            (addToWaitQueue (s.table a.host) a.lockId a.requester).map fun table =>
              { s.setTask a table (.waiting op) with net := request srv a op :: s.net }
          else none
  | .poll a =>
      match s.task a with
      | .waiting op =>
          let req := lockReq a.lockId a.requester
          match coroutineWaitQueueWait c.mechanism (s.table a.host) (lockIdOf req)
              (requesterOf req) with
          | some (.returns true) => some (s.setTask a (s.table a.host) (.holding op))
          | some .waits => some (s.setTask a (s.table a.host) (.sleeping op))
          | _ => none
      | _ => none
  | .wake a =>
      match s.task a with
      | .sleeping op =>
          (waitForEnd (s.table a.host) a.lockId a.requester).map fun r =>
            s.setTask a r.2 (if r.1 then .holding op else .waiting op)
      | _ => none
  | .release a =>
      match s.task a, getLockServer c a.lockId with
      | .holding op, some srv =>
          some { s with
            net := giveBack srv a op :: s.net
            task := Function.update s.task a .idle }
      | _, _ => none
  | .deliver i =>
      match s.net[i]? with
      | some x => s.deliver x (s.net.eraseIdx i)
      | none => none

/-- No `int` overflows at the server when the message is delivered. -/
def FlightFits (s : State) (x : Flight) : Prop :=
  (x.kind = .lockReq ∨ x.kind = .acquireLocal → AcquireFits (s.queue x.dest x.lockId) x.entry)
    ∧ (x.kind = .unlockReq ∨ x.kind = .releaseLocal →
        ReleaseFits (s.queue x.dest x.lockId) x.entry)

instance (s : State) (x : Flight) : Decidable (s.FlightFits x) :=
  inferInstanceAs (Decidable (_ ∧ _))

def Fits (s : State) : Event → Prop
  | .deliver i => ∀ x ∈ s.net[i]?, s.FlightFits x
  | _ => True

instance (s : State) : (e : Event) → Decidable (s.Fits e)
  | .deliver i => inferInstanceAs (Decidable (∀ x ∈ s.net[i]?, s.FlightFits x))
  | .acquire _ _ => inferInstanceAs (Decidable True)
  | .poll _ => inferInstanceAs (Decidable True)
  | .wake _ => inferInstanceAs (Decidable True)
  | .release _ => inferInstanceAs (Decidable True)

/-- The states of all runs in which no `int` overflows. -/
abbrev Reachable (c : Config) : State → Prop := Runs.Reach (step c) Fits (init c)

/-- The requester has been granted the lock and has not released it: it has seen the grant, or its
flag is set and it will. -/
def holds (s : State) (a : Client) (op : LockOp) : Prop :=
  s.task a = .holding op
    ∨ (s.task a = .waiting op ∨ s.task a = .sleeping op) ∧ s.flag a = some true

instance (s : State) (a : Client) (op : LockOp) : Decidable (s.holds a op) :=
  inferInstanceAs (Decidable (_ ∨ _))

end State
end FissLock.ParLock.Hosts
