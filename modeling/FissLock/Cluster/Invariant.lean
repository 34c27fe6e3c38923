import FissLock.Library.Accounting
import FissLock.Cluster.System

/-!
# The cluster invariant

The right to decide about a taken lock is one **token**.  It is at the switch while the lock is
free; otherwise it is in one of four places (`Token`): in a `GRANT_WITH_AGENT` on its way to the
new agent, at the agent, in a `FREE` or `TRANSFER` on its way to the switch, or in such a packet
that the switch pushed back.  `Held s k` is what a state looks like when the token is at `k`, and
`Unheld s` when the lock is free.

The second half of the invariant follows every request.  For a task `lh` the eight numbers
`pend`, `notif`, `wo`, `rel`, `held`, `early` and `flag` count where it is represented, and
`RequestOk` relates them to what the task is doing:

* a request that was not granted is *pending* in exactly one place — a packet or a wait queue;
* a granted one is known to the agent exactly once, as a recorded holder or by a notification
  still in flight, and the task has exactly one of a `GRANT_WO_AGENT` in flight (in shared mode
  only), its flag up, the lock, or a `RELEASE` in flight;
* a mark for an early release stands for a notification that is still to come.

In shared mode the notification counter of the switch is the sum of what the agent counted, what
the token carries and what is in flight (`Held.count`).  This is what makes a `FREE` that is
accepted prove that nobody holds the lock any more.
-/

namespace FissLock

open Runs Tofino Accounting

/-! ## Where a request is represented -/

/-- A wait-queue entry for this request. -/
def Wqe.isFor (lh : LockHolder) (b : Bool) (e : Wqe) : Bool := decide (e.holder = lh ∧ e.op.bit = b)

/-- The header names this request. -/
def LockHdr.isFor (lh : LockHolder) (b : Bool) (p : LockHdr) : Bool :=
  decide (p.holder = lh ∧ p.mode = b)

/-- How often a packet represents a pending request of `lh` in mode `b`. -/
def pendPkt (lh : LockHolder) (b : Bool) (x : Flight) : ℕ :=
  match x.1, x.2.type with
  | .switch, .acquire => (x.2.isFor lh b).toNat
  | .host _, .acquire => if x.2.granted then 0 else (x.2.isFor lh b).toNat
  | _, .grantWithAgent => (x.2.isFor lh b).toNat + x.2.wq.countP (Wqe.isFor lh b)
  | _, .transfer => (x.2.isFor lh b).toNat + x.2.wq.countP (Wqe.isFor lh b)
  | _, _ => 0

/-- A granted `ACQUIRE` on its way to an agent: a notification. -/
def isNotif (x : Flight) : Bool :=
  match x.1, x.2.type with
  | .host _, .acquire => x.2.granted
  | _, _ => false

/-- A notification about `lh`. -/
def notifPkt (lh : LockHolder) (x : Flight) : ℕ := (isNotif x && decide (x.2.holder = lh)).toNat

/-- A packet of type `t` about `lh`. -/
def typedPkt (t : PostType) (lh : LockHolder) (x : Flight) : ℕ :=
  (decide (x.2.type = t ∧ x.2.holder = lh)).toNat

/-- A packet that carries the token. -/
def isToken (x : Flight) : Bool :=
  match x.2.type with
  | .grantWithAgent => true
  | .transfer => true
  | .free => true
  | _ => false

namespace Cluster

/-- The packets in flight, as a multiset. -/
def flights (s : Cluster) : Multiset Flight := (s.net : Multiset Flight)

/-- The host that the switch takes for the agent. -/
def agentHost (s : Cluster) : InnetLock := s.host s.cell.agent

/-- How often a request of `lh` in mode `b` is pending: in packets and in wait queues. -/
def pend (s : Cluster) (lh : LockHolder) (b : Bool) : ℕ :=
  inFlight (pendPkt lh b) s.flights
    + stored (fun l : InnetLock => l.wqueue.countP (Wqe.isFor lh b)) s.host

/-- Notifications about `lh` in flight. -/
def notif (s : Cluster) (lh : LockHolder) : ℕ := inFlight (notifPkt lh) s.flights

/-- `GRANT_WO_AGENT` packets for `lh` in flight. -/
def wo (s : Cluster) (lh : LockHolder) : ℕ := inFlight (typedPkt .grantWoAgent lh) s.flights

/-- `RELEASE` packets of `lh` in flight. -/
def rel (s : Cluster) (lh : LockHolder) : ℕ := inFlight (typedPkt .release lh) s.flights

/-- Whether the agent has recorded `lh` as a holder. -/
def held (s : Cluster) (lh : LockHolder) : ℕ := if lh ∈ s.agentHost.holders then 1 else 0

/-- Whether the agent has an early-release mark for `lh`. -/
def early (s : Cluster) (lh : LockHolder) : ℕ := (s.agentHost.earlyRelease lh).toNat

/-- Whether the grant flag of `lh` is up. -/
def flag (s : Cluster) (lh : LockHolder) : ℕ := ((s.host lh.1).taskGranted lh.2).toNat

/-- All notifications in flight. -/
def notifs (s : Cluster) : ℕ := inFlight (fun x => (isNotif x).toNat) s.flights

/-- All token packets in flight. -/
def tokens (s : Cluster) : Multiset Flight := s.flights.filter (fun x => isToken x = true)

end Cluster

/-- How the counts of a request must stand, by what its task is doing: pending in shared and in
exclusive mode, notifications, grants, releases, recorded, marked, flag. -/
def RequestOk (pS pX N W R H E F : ℕ) (rw : Bool) : TaskState → Prop
  | .idle => pS = 0 ∧ pX = 0 ∧ W = 0 ∧ F = 0 ∧
      (R = 1 ∧ N + H = 1 ∧ E = 0 ∧ rw = false ∨ R = 0 ∧ H = 0 ∧ N = E)
  | .waiting op => R = 0 ∧ E = 0 ∧
      ((op = .shared ∧ pS = 1 ∧ pX = 0 ∨ op = .excl ∧ pS = 0 ∧ pX = 1)
          ∧ W = 0 ∧ F = 0 ∧ N = 0 ∧ H = 0
        ∨ pS = 0 ∧ pX = 0 ∧ W + F = 1 ∧ N + H = 1 ∧ op = LockState.ofBit rw ∧ (rw = true → W = 0))
  | .holding op => R = 0 ∧ E = 0 ∧ pS = 0 ∧ pX = 0 ∧ W = 0 ∧ F = 0 ∧ N + H = 1
      ∧ op = LockState.ofBit rw

/-- The invariant of one task: its counts stand right, and only tasks of the cluster are active. -/
structure TaskOk (s : Cluster) (lh : LockHolder) : Prop where
  counts : RequestOk (s.pend lh false) (s.pend lh true) (s.notif lh) (s.wo lh)
    (s.rel lh) (s.held lh) (s.early lh) (s.flag lh) s.cell.rw (s.task lh)
  valid : s.task lh ≠ .idle → isHost lh.1 = true ∧ lh.2.toNat < 2 ^ 30

/-! ## Where the token is -/

/-- The place of the token while the lock is taken. -/
inductive Token where
  /-- In a `GRANT_WITH_AGENT` on its way to the agent. -/
  | grant (p : LockHdr)
  /-- At the agent. -/
  | agent
  /-- In a `FREE` or `TRANSFER` on its way to the switch. -/
  | out (p : LockHdr)
  /-- In a `FREE` or `TRANSFER` that was pushed back. -/
  | back (p : LockHdr)

namespace Token

/-- The packets in flight that carry the token. -/
def flights (a : HostId) : Token → Multiset Flight
  | grant p => {(.host a, p)}
  | agent => 0
  | out p => {(.switch, p)}
  | back p => {(.host a, p)}

/-- Whether the agent host acts as the agent. -/
def isAgent : Token → Bool
  | agent => true
  | _ => false

/-- The notifications that the token accounts for: a `FREE` or `TRANSFER` carries the count of its
sender, and a grant by the switch will be counted on arrival. -/
def ncnt : Token → BitVec 8
  | grant p => if p.transferred then 0 else 1
  | agent => 0
  | out p => p.ncnt
  | back p => p.ncnt

/-- The packet that carries the token agrees with the registers. -/
def Ok (c : Cell) : Token → Prop
  | grant p => p.type = .grantWithAgent ∧ p.machineId = c.agent ∧ p.agent = c.agent
      ∧ p.mode = c.rw ∧ (p.transferred = false → p.wq = [])
  | agent => True
  | out p => (p.type = .transfer ∨ p.type = .free) ∧ p.agent = c.agent ∧ p.oldMode = c.rw
  | back p => (p.type = .transfer ∨ p.type = .free) ∧ p.agent = c.agent ∧ p.oldMode = c.rw
      ∧ c.rw = LOCK_SHARED

end Token

/-- A host that has no part in the lock, except perhaps requests it queued. -/
structure Quiet (l : InnetLock) : Prop where
  isAgent : l.isAgent = false
  mode : l.mode = .free
  ncnt : l.ncnt = 0
  holders : l.holders = ∅
  early : ∀ lh, l.earlyRelease lh = false

/-- The lock is free. -/
structure Unheld (s : Cluster) : Prop where
  free : s.cell.free = LOCK_FREE
  count : s.cell.ncnt = 0
  tokens : s.tokens = 0
  notifs : s.notifs = 0
  quiet : ∀ h, Quiet (s.host h)

/-- The lock is taken and the token is at `k`. -/
structure Held (s : Cluster) (k : Token) : Prop where
  acquired : s.cell.free = LOCK_ACQUIRED
  isHost : isHost s.cell.agent = true
  tokens : s.tokens = k.flights s.cell.agent
  token : k.Ok s.cell
  agent : s.agentHost.isAgent = k.isAgent
  mode : s.agentHost.mode = if k.isAgent then LockState.ofBit s.cell.rw else .free
  others : ∀ h, h ≠ s.cell.agent → Quiet (s.host h)
  /-- In exclusive mode there are no notifications, and at most one holder, of the agent's own. -/
  excl : s.cell.rw = LOCK_EXCL → s.notifs = 0
    ∧ (∀ lh ∈ s.agentHost.holders, k.isAgent = true ∧ lh.1 = s.cell.agent)
    ∧ s.agentHost.holders.card ≤ 1
    ∧ (k.isAgent = false → s.agentHost.ncnt = 0)
  /-- In shared mode every grant that the switch counted is accounted for. -/
  count : s.cell.rw = LOCK_SHARED →
    s.cell.ncnt = s.agentHost.ncnt.setWidth 8 + k.ncnt + BitVec.ofNat 8 s.notifs
  /-- Whoever was recorded while the packet is on its way was also counted. -/
  counted : s.cell.rw = LOCK_SHARED → ∀ p, k = .out p → s.agentHost.ncnt = 0 →
    s.agentHost.holders = ∅

/-- A packet that the protocol can have in flight, given the registers. -/
def FlightOk (c : Cell) (x : Flight) : Prop :=
  (∀ e ∈ x.2.wq, e.op = .shared ∨ e.op = .excl) ∧
  match x.1, x.2.type with
  | .switch, .acquire => x.2.wq = []
  | .switch, .grantWoAgent => x.2.wq = []
  | .switch, .release => x.2.wq = [] ∧ x.2.mode = false
  | .switch, .transfer => True
  | .switch, .free => True
  | .host h, .acquire => x.2.wq = []
      ∧ (x.2.granted = true → x.2.mode = LOCK_SHARED ∧ h = c.agent ∧ c.rw = LOCK_SHARED)
  | .host h, .grantWoAgent => x.2.wq = [] ∧ x.2.machineId = h
  | .host h, .release => x.2.wq = [] ∧ h = c.agent
  | .host _, .grantWithAgent => True
  | .host _, .transfer => True
  | .host _, .free => True
  | _, _ => False

/-- **The cluster invariant** for the lock `lid`. -/
structure Inv (lid : LockId) (s : Cluster) : Prop where
  id : ∀ h, (s.host h).id = lid
  wqueue : ∀ h, ∀ e ∈ (s.host h).wqueue, e.op = .shared ∨ e.op = .excl
  flight : ∀ x ∈ s.flights, FlightOk s.cell x
  task : ∀ lh, TaskOk s lh
  token : Unheld s ∨ ∃ k, Held s k

end FissLock
