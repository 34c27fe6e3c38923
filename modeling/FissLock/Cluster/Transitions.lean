import FissLock.Cluster.Accounts

/-!
# The protocol, transition by transition

What one step of the cluster can do, said once.  Each structure below describes one kind of
transition by its `Effect` and by the facts about the state before it that the code has tested or
that the invariant guarantees; `Change s e s'` collects them.  Invariants are proved kept along
`Change` and never look at the code; that every step of the code is a `Change` is proved separately,
in `Cluster/Inversion.lean`.

Most steps are `Plain`: a request, grant or release of one task moves on, and nobody's role changes.
The others each have a structure of their own.  A release at the agent comes in two parts, since
dropping the holder and handing the lock over are two things: `Drop`, and `HandOver` if nobody is
left.

## The conditions on a run

* `Guarded` — a `RELEASE` is processed by a host only if this host is the agent or has recorded the
  holder, and the two counters have not run full: fewer than 256 grants are unaccounted for when a
  shared `FREE` or `TRANSFER` reaches the switch, and the 32-bit counter of a host does not wrap.
* `KeepsAgent` — a mark for an early release is not consumed at a host that then knows neither a
  holder nor another notification on its way.
* `KeepsWaiters` — a host that is not the agent queues a request ahead of time only if a
  `GRANT_WITH_AGENT` for it is on its way.
-/

namespace FissLock

open Runs Tofino Accounting

/-! ## Conditions -/

/-- The packet that an event delivers, if it is a delivery. -/
def Cluster.delivered (s : Cluster) : Event → Option Flight
  | .deliver i => s.net[i]?
  | _ => none

/-- Releases reach hosts that can place them, and no counter has run full. -/
def Guarded (s : Cluster) (e : Event) : Prop :=
  match s.delivered e with
  | some (.host h, p) =>
      (p.type = .release → (s.host h).isAgent = true ∨ p.holder ∈ (s.host h).holders)
        ∧ (p.type = .acquire → p.granted = true → (s.host h).ncnt.toNat + 1 < 2 ^ 32)
  | some (.switch, p) =>
      p.type = .transfer ∨ p.type = .free → p.oldMode = LOCK_SHARED →
        (s.host p.agent).ncnt.toNat + s.notifs < 256
  | none => True

/-- A mark for an early release is consumed only where a holder is recorded or another notification
is on its way. -/
def KeepsAgent (s : Cluster) (e : Event) : Prop :=
  match s.delivered e with
  | some (.host h, p) =>
      p.type = .acquire → (s.host h).earlyRelease p.holder = true →
        (s.host h).holders ≠ ∅ ∨ 2 ≤ s.notifs
  | _ => True

instance (s : Cluster) (e : Event) : Decidable (Guarded s e) :=
  match h : s.delivered e with
  | some (.host h', p) => decidable_of_iff
      ((p.type = .release → (s.host h').isAgent = true ∨ p.holder ∈ (s.host h').holders)
        ∧ (p.type = .acquire → p.granted = true → (s.host h').ncnt.toNat + 1 < 2 ^ 32))
      (by simp only [Guarded, h])
  | some (.switch, p) => decidable_of_iff
      (p.type = .transfer ∨ p.type = .free → p.oldMode = LOCK_SHARED →
        (s.host p.agent).ncnt.toNat + s.notifs < 256)
      (by simp only [Guarded, h])
  | none => isTrue (by simp only [Guarded, h])

instance (s : Cluster) (e : Event) : Decidable (KeepsAgent s e) :=
  match h : s.delivered e with
  | some (.host h', p) => decidable_of_iff
      (p.type = .acquire → (s.host h').earlyRelease p.holder = true →
        (s.host h').holders ≠ ∅ ∨ 2 ≤ s.notifs)
      (by simp only [KeepsAgent, h])
  | some (.switch, p) => isTrue (by simp only [KeepsAgent, h])
  | none => isTrue (by simp only [KeepsAgent, h])

/-- Some `GRANT_WITH_AGENT` for the host is in flight. -/
def Cluster.granting (s : Cluster) (h : HostId) : Prop :=
  ∃ p, p.type = .grantWithAgent ∧ (Dst.host h, p) ∈ s.flights

instance (s : Cluster) (h : HostId) : Decidable (s.granting h) :=
  decidable_of_iff (∃ x ∈ s.net, x.2.type = .grantWithAgent ∧ x.1 = .host h) (by
    constructor
    · rintro ⟨⟨d, p⟩, hx, ht, rfl⟩
      exact ⟨p, ht, Multiset.mem_coe.2 hx⟩
    · rintro ⟨p, ht, hx⟩
      exact ⟨_, Multiset.mem_coe.1 hx, ht, rfl⟩)

/-- An exclusive request that has been bounced three times is queued at a host that is not the agent
only if the host is about to become the agent. -/
def KeepsWaiters (s : Cluster) (e : Event) : Prop :=
  match s.delivered e with
  | some (.host h, p) =>
      p.type = .acquire → p.mode = LOCK_EXCL → (s.host h).isAgent = false →
        2 < (s.host h).fwdBackCnt p.holder → s.granting h
  | _ => True

instance (s : Cluster) (e : Event) : Decidable (KeepsWaiters s e) :=
  match h : s.delivered e with
  | some (.host h', p) => decidable_of_iff
      (p.type = .acquire → p.mode = LOCK_EXCL → (s.host h').isAgent = false →
        2 < (s.host h').fwdBackCnt p.holder → s.granting h')
      (by simp only [KeepsWaiters, h])
  | some (.switch, p) => isTrue (by simp only [KeepsWaiters, h])
  | none => isTrue (by simp only [KeepsWaiters, h])

/-! ## Plain transitions -/

/-- The part of the metadata that makes up a host's role is the same. -/
structure SameRole (l l' : InnetLock) : Prop where
  id : l.id = l'.id
  isAgent : l.isAgent = l'.isAgent
  mode : l.mode = l'.mode
  ncnt : l.ncnt = l'.ncnt
  holders : l.holders = l'.holders
  early : l.earlyRelease = l'.earlyRelease
  delayedFree : l.delayedFree = l'.delayedFree

lemma SameRole.refl (l : InnetLock) : SameRole l l := ⟨rfl, rfl, rfl, rfl, rfl, rfl, rfl⟩

/-- The registers agree, up to the counter of a lock that is held exclusively. -/
structure SameCell (c c' : Cell) : Prop where
  free : c'.free = c.free
  rw : c'.rw = c.rw
  agent : c'.agent = c.agent
  ncnt : c.free = LOCK_FREE ∨ c.rw = LOCK_SHARED → c'.ncnt = c.ncnt

lemma SameCell.refl (c : Cell) : SameCell c c := ⟨rfl, rfl, rfl, fun _ => rfl⟩

/-- A packet that concerns `lh` alone and is neither token nor notification. -/
structure PlainPkt (lh : LockHolder) (x : Flight) : Prop where
  token : isToken x = false
  notif : isNotif x = false
  holder : x.2.holder = lh
  wq : x.2.wq = []

/-- Something of the task `lh` moves on and nobody's role changes. -/
structure Plain (s : Cluster) (e : Event) (s' : Cluster) (used made : Multiset Flight) (h : HostId)
    (l : InnetLock) (lh : LockHolder) : Prop where
  effect : Effect s s' used made h l
  role : SameRole l (s.host h)
  cell : SameCell s.cell s'.cell
  used : ∀ x ∈ used, PlainPkt lh x
  made : ∀ x ∈ made, PlainPkt lh x ∧ FlightOk s'.cell x
  /-- Queue entries are added for `lh` only, and elsewhere than at the agent only ahead of a
  grant. -/
  wqueue : l.wqueue = (s.host h).wqueue
    ∨ (∃ op, (op = .shared ∨ op = .excl) ∧ (Wqe.ofReq op lh.2 lh.1).holder = lh
        ∧ l.wqueue = (s.host h).wqueue ++ [Wqe.ofReq op lh.2 lh.1])
      ∧ (KeepsWaiters s e → (s.host h).isAgent = true ∨ s.granting h)
  flag : ∀ t, (h, t) ≠ lh → l.taskGranted t = (s.host h).taskGranted t
  others : ∀ lh', lh' ≠ lh → s'.task lh' = s.task lh'
  self : TaskOk s' lh

/-! ## Client calls at the agent -/

/-- `lock_acquire_async` at the agent of a shared lock. -/
structure LocalGrant (s s' : Cluster) (h : HostId) (t : TaskId) : Prop where
  effect : Effect s s' 0 0 h (lockAddHolder (s.host h) (h, t))
  cell : s'.cell = s.cell
  task : s'.task = Function.update s.task (h, t) (.holding .shared)
  idle : s.task (h, t) = .idle
  notif : s.notif (h, t) = 0
  rel : s.rel (h, t) = 0
  valid : isHost h = true ∧ t.toNat < 2 ^ 30
  isAgent : (s.host h).isAgent = true
  mode : (s.host h).mode = .shared

/-- Where a release at the agent comes from: a call of `lock_release`, or a `RELEASE` packet. -/
inductive ReleaseSource (s s' : Cluster) (lh : LockHolder) : Multiset Flight → Prop where
  | call {op : LockState} (holding : s.task lh = .holding op) (own : lh.1 = s.cell.agent)
      (task : s'.task = Function.update s.task lh .idle) : ReleaseSource s s' lh 0
  | packet {p : LockHdr} (type : p.type = .release) (holder : p.holder = lh) (wq : p.wq = [])
      (mem : (Dst.host s.cell.agent, p) ∈ s.flights) (task : s'.task = s.task) :
      ReleaseSource s s' lh {(Dst.host s.cell.agent, p)}

/-- The metadata with other holders and marks. -/
def dropped (l : InnetLock) (hs : Finset LockHolder) (er : LockHolder → Bool)
    (lc : Finset TaskId) : InnetLock :=
  { l with holders := hs, earlyRelease := er, localHolders := lc }

/-- The agent drops a holder, or marks it when its notification is still to come. -/
structure Drop (s s' : Cluster) (lh : LockHolder) : Prop where
  isAgent : s.agentHost.isAgent = true
  cell : s'.cell = s.cell
  effect : ∃ used hs er lc, ReleaseSource s s' lh used
    ∧ Effect s s' used 0 s.cell.agent (dropped s.agentHost hs er lc)
    ∧ (lh ∈ s.agentHost.holders ∧ hs = s.agentHost.holders.erase lh
          ∧ er = s.agentHost.earlyRelease
        ∨ lh ∉ s.agentHost.holders ∧ hs = s.agentHost.holders
          ∧ er = Function.update s.agentHost.earlyRelease lh true)

/-- What the agent puts into a `FREE` or `TRANSFER`. -/
structure HandOverPkt (a : HostId) (l : InnetLock) (p : LockHdr) : Prop where
  agent : p.agent = a
  oldMode : p.oldMode = l.mode.bit
  ncnt : p.ncnt = l.ncnt.setWidth 8
  body : l.wqueue = [] ∧ p.type = .free ∧ p.wq = []
    ∨ ∃ e rest, l.wqueue = e :: rest ∧ p.type = .transfer ∧ p.holder = e.holder
        ∧ p.mode = e.op.bit ∧ p.wq = rest

/-- The metadata of an agent that has given the lock up. -/
def handedOver (l : InnetLock) : InnetLock :=
  { l with isAgent := false, mode := .free, ncnt := 0, wqueue := [] }

/-- An agent without holders gives the lock up. -/
structure HandOver (s s' : Cluster) (p : LockHdr) : Prop where
  effect : Effect s s' 0 {(Dst.switch, p)} s.cell.agent (handedOver s.agentHost)
  cell : s'.cell = s.cell
  task : s'.task = s.task
  isAgent : s.agentHost.isAgent = true
  holders : s.agentHost.holders = ∅
  pkt : HandOverPkt s.cell.agent s.agentHost p

/-! ## At the switch -/

/-- A step of the switch: one packet in, some out, no host changes. -/
structure SwitchEffect (s s' : Cluster) (p : LockHdr) (made : Multiset Flight) : Prop where
  mem : (Dst.switch, p) ∈ s.flights
  effect : Effect s s' {(Dst.switch, p)} made s.cell.agent s.agentHost
  task : s'.task = s.task

/-- A request for a free lock. -/
structure AcquireFree (s s' : Cluster) (p : LockHdr) : Prop extends
    SwitchEffect s s' p {(Dst.host p.machineId, { cleared p with
      type := .grantWithAgent, agent := p.machineId, transferred := false })} where
  type : p.type = .acquire
  free : s.cell.free = LOCK_FREE
  isHost : isHost p.machineId = true
  cell : s'.cell = { free := LOCK_ACQUIRED, rw := p.mode, agent := p.machineId
                     ncnt := countAcquire s.cell p }

/-- A shared request for a lock held in shared mode. -/
structure AcquireShared (s s' : Cluster) (p : LockHdr) : Prop extends
    SwitchEffect s s' p
      {(Dst.host s.cell.agent,
          { p with multicasted := false, granted := true, agent := s.cell.agent }),
       (Dst.host p.machineId,
          { cleared p with type := .grantWoAgent, agent := s.cell.agent })} where
  type : p.type = .acquire
  taken : s.cell.free = LOCK_ACQUIRED
  mode : p.mode = LOCK_SHARED
  rw : s.cell.rw = LOCK_SHARED
  cell : s'.cell = { s.cell with ncnt := s.cell.ncnt + 1 }

/-- A `FREE` or `TRANSFER` whose count is behind. -/
structure PushBack (s s' : Cluster) (p : LockHdr) : Prop extends
    SwitchEffect s s' p {(Dst.host p.agent, cleared p)} where
  type : p.type = .transfer ∨ p.type = .free
  pushed : pushedBack s.cell p = true
  cell : s'.cell = s.cell

/-- A `TRANSFER` that is accepted. -/
structure AcceptTransfer (s s' : Cluster) (p : LockHdr) : Prop extends
    SwitchEffect s s' p {(Dst.host p.machineId, { cleared p with
      type := .grantWithAgent, agent := p.machineId, transferred := true })} where
  type : p.type = .transfer
  accepted : pushedBack s.cell p = false
  room : p.oldMode = LOCK_SHARED → (s.host p.agent).ncnt.toNat + s.notifs < 256
  isHost : isHost p.machineId = true
  cell : s'.cell = { free := LOCK_ACQUIRED, rw := p.mode, agent := p.machineId, ncnt := 0 }

/-- A `FREE` that is accepted. -/
structure AcceptFree (s s' : Cluster) (p : LockHdr) : Prop extends SwitchEffect s s' p 0 where
  type : p.type = .free
  accepted : pushedBack s.cell p = false
  room : p.oldMode = LOCK_SHARED → (s.host p.agent).ncnt.toNat + s.notifs < 256
  cell : s'.cell = { free := LOCK_FREE, rw := p.mode, agent := 0, ncnt := 0 }

/-! ## Packets at the agent's host -/

/-- A step of the agent's host: one packet in, some out. -/
structure AgentEffect (s s' : Cluster) (p : LockHdr) (made : Multiset Flight) (l : InnetLock) :
    Prop where
  mem : (Dst.host s.cell.agent, p) ∈ s.flights
  effect : Effect s s' {(Dst.host s.cell.agent, p)} made s.cell.agent l
  cell : s'.cell = s.cell
  task : s'.task = s.task

/-- What counting a notification does to the metadata of the agent's host. -/
def notified (l : InnetLock) (lh : LockHolder) : InnetLock :=
  if l.earlyRelease lh then
    { l with ncnt := l.ncnt + 1, earlyRelease := Function.update l.earlyRelease lh false }
  else { l with ncnt := l.ncnt + 1, holders := insert lh l.holders }

/-- A notification arrives. -/
structure Notification (s : Cluster) (e : Event) (s' : Cluster) (p : LockHdr) : Prop extends
    AgentEffect s s' p 0 (notified s.agentHost p.holder) where
  type : p.type = .acquire
  granted : p.granted = true
  wq : p.wq = []
  rw : s.cell.rw = LOCK_SHARED
  room : s.agentHost.ncnt.toNat + 1 < 2 ^ 32
  keeps : KeepsAgent s e → s.agentHost.earlyRelease p.holder = true →
    s.agentHost.holders ≠ ∅ ∨ 2 ≤ s.notifs

/-- The metadata with a holder removed for which the lock cannot be handed over yet. -/
def delayed (l : InnetLock) (lh : LockHolder) : InnetLock :=
  { l with holders := l.holders.erase lh, delayedFree := true }

/-- A `RELEASE` arrives while the host's own `FREE` or `TRANSFER`, or the grant, is on its way. -/
structure DelayedRelease (s s' : Cluster) (p : LockHdr) : Prop extends
    AgentEffect s s' p 0 (delayed s.agentHost p.holder) where
  type : p.type = .release
  wq : p.wq = []
  isAgent : s.agentHost.isAgent = false
  holder : p.holder ∈ s.agentHost.holders

/-- The metadata after the count has gone into a packet. -/
def resent (l : InnetLock) : InnetLock := { l with ncnt := 0, delayedFree := false }

/-- A pushed-back packet is sent again, with what was counted meanwhile. -/
structure Resend (s s' : Cluster) (p : LockHdr) : Prop extends
    AgentEffect s s' p
      {(Dst.switch, { p with ncnt := p.ncnt + s.agentHost.ncnt.setWidth 8 })}
      (resent s.agentHost) where
  type : p.type = .transfer ∨ p.type = .free
  holders : s.agentHost.holders = ∅

/-- The metadata after a packet came back: what was given away is taken back. -/
def restored (l : InnetLock) (p : LockHdr) : InnetLock :=
  { l with
    mode := p.oldModeState
    isAgent := true
    ncnt := l.ncnt + p.ncnt.setWidth 32
    wqueue := if p.type = .transfer then
        l.wqueue ++ Wqe.ofReq p.modeState p.taskId p.machineId :: p.wq
      else l.wqueue }

/-- A pushed-back packet makes its sender the agent again. -/
structure Restore (s s' : Cluster) (p : LockHdr) : Prop extends
    AgentEffect s s' p 0 (restored s.agentHost p) where
  type : p.type = .transfer ∨ p.type = .free
  busy : s.agentHost.delayedFree = true → s.agentHost.holders ≠ ∅

/-- What a `GRANT_WITH_AGENT` does to the metadata, apart from the wait queue that comes along. -/
def becomeAgent (l : InnetLock) (p : LockHdr) (hs : Finset LockHolder) (wq : List Wqe) : InnetLock :=
  { l with
    isAgent := true
    mode := p.modeState
    holders := hs
    wqueue := wq
    ncnt := if p.transferred then l.ncnt else if p.mode then 0 else l.ncnt + 1
    localHolders := insert p.taskId l.localHolders
    taskGranted := Function.update l.taskGranted p.taskId true }

/-- The shared entries of a wait queue. -/
def sharedEntries (wq : List Wqe) : List Wqe := wq.filter (·.op = .shared)

/-- The other entries of a wait queue. -/
def otherEntries (wq : List Wqe) : List Wqe := wq.filter (·.op ≠ .shared)

/-- The grants that an agent sends for the shared entries of its wait queue. -/
def grantsFor (lid : LockId) (gr : List Wqe) : List Flight :=
  gr.map fun w => (Dst.switch, sendPostGrant lid w.host w.taskId)

/-- The agency arrives.  Of the wait queue that comes along, the entries `gr` are granted at once
and the entries `kept` are queued: in shared mode these are the shared entries and the others, in
exclusive mode the queue is kept whole. -/
structure TakeOver (s s' : Cluster) (p : LockHdr) (gr kept : List Wqe) : Prop extends
    AgentEffect s s' p (grantsFor s.agentHost.id gr)
      (becomeAgent s.agentHost p
        (insert p.holder s.agentHost.holders ∪ (gr.map Wqe.holder).toFinset)
        (s.agentHost.wqueue ++ kept)) where
  type : p.type = .grantWithAgent
  split : gr = [] ∧ kept = p.wq
    ∨ p.mode = LOCK_SHARED ∧ gr = sharedEntries p.wq ∧ kept = otherEntries p.wq

/-! ## All together -/

/-- **What one step can do.** -/
inductive Change (s : Cluster) (e : Event) (s' : Cluster) : Prop where
  | plain {used made : Multiset Flight} {h : HostId} {l : InnetLock} {a : LockHolder}
      (x : Plain s e s' used made h l a)
  | localGrant {h : HostId} {t : TaskId} (x : LocalGrant s s' h t)
  | drop {a : LockHolder} (x : Drop s s' a) (left : s'.agentHost.holders ≠ ∅)
  | dropAndHandOver {m : Cluster} {a : LockHolder} {p : LockHdr} (x : Drop s m a)
      (y : HandOver m s' p)
  | acquireFree {p : LockHdr} (x : AcquireFree s s' p)
  | acquireShared {p : LockHdr} (x : AcquireShared s s' p)
  | pushBack {p : LockHdr} (x : PushBack s s' p)
  | acceptTransfer {p : LockHdr} (x : AcceptTransfer s s' p)
  | acceptFree {p : LockHdr} (x : AcceptFree s s' p)
  | notification {p : LockHdr} (x : Notification s e s' p)
  | delayedRelease {p : LockHdr} (x : DelayedRelease s s' p)
  | resend {p : LockHdr} (x : Resend s s' p)
  | restore {p : LockHdr} (x : Restore s s' p)
  | takeOver {p : LockHdr} {gr kept : List Wqe} (x : TakeOver s s' p gr kept)

end FissLock
