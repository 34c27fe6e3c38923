import FissLock.Cluster.System
import FissLock.Recovery.Coordinator

/-!
# A recovery round

`integrity_check` of `lib/lock.cc` at all machines that are alive, the coordinator they call, the
restarted switch and the packets between them.  `Outage` is what a round starts from: the fault
code, the lock tables of the hosts, and whatever the coordinator still knows from earlier rounds.

A host goes through its lock table twice.  In the first loop it submits its local holders and,
where it is the agent, what is left of the wait queue without the failed machines.  After the
barrier, the second loop asks the coordinator about each lock, and may make the host an agent.  At
the end it sends an `ACQUIRE` for each lock of which it is the agent, in the name of
`TASK_FOR_RESTORE`.

The tables are unordered, so a host submits in any order here.  The barrier itself is taken for
granted: a host passes it when every live machine has called `recovery_ready`.

Three things that happen in a round are undefined in the source: a holder is erased from the set
that the loop iterates over; `check_holder` leaves its array; and `rpc` returns a pointer into a
string that it destroys, through which the host reads the reply.  `Undefined` is what comes of them,
and may be anything.
-/

namespace FissLock

open Runs Tofino

/-! ## `integrity_check`, the parts -/

/-- The loop over the wait queue that erases the entries of host `i`.  The iterator is advanced
after `erase`, too, so that **the entry behind an erased one is not looked at**. -/
def eraseWaitersOf (i : ℕ) : List Wqe → List Wqe
  | [] => []
  | [w] => if w.host.toNat = i then [] else [w]
  | w :: w' :: wq =>
      if w.host.toNat = i then w' :: eraseWaitersOf i wq else w :: eraseWaitersOf i (w' :: wq)

/-- The loop over `holders` for machine `i`, as far as it is defined: where it erases nothing. -/
def DefinedLoop (er : ℕ → Finset LockHolder → Finset LockHolder) : Prop :=
  ∀ i H, (∀ lh ∈ H, lh.1.toNat ≠ i) → er i H = H

/-- "Remove holders and waiters on the failed machine", whatever the loop over `holders` does.  The
machines are those from 0 to `HOST_NUM - 1`. -/
def removeFailedWith (er : ℕ → Finset LockHolder → Finset LockHolder) (code : BitVec 64)
    (l : InnetLock) : InnetLock :=
  (List.range HOST_NUM).foldl
    (fun l i => if serverFailed code (BitVec.ofNat 32 i) then
        { l with holders := er i l.holders, wqueue := eraseWaitersOf i l.wqueue }
      else l) l

/-- The machine is failed, and the loop over the failed machines comes to it. -/
def sweptHost (code : BitVec 64) (i : ℕ) : Prop :=
  i < HOST_NUM ∧ serverFailed code (BitVec.ofNat 32 i) = true

/-- What comes of the undefined parts of `integrity_check` and of the daemon. -/
structure Undefined where
  /-- The loop over `holders` for a failed machine. -/
  erase : ℕ → Finset LockHolder → Finset LockHolder
  erase_defined : DefinedLoop erase
  /-- A call of `check_holder` that leaves the array of the reply. -/
  overrun : Coordinator → Coordinator × CheckHolderReply
  /-- What is found where a reply was, after `rpc` has freed it. -/
  freed : CheckHolderReply → CheckHolderReply

/-- Erasing the holders of the machine, as it is meant. -/
lemma definedLoop_filter : DefinedLoop fun i H => H.filter (·.1.toNat ≠ i) := by
  intro i H hne
  exact Finset.filter_true_of_mem hne

/-- The case in which no harm is done. -/
def Undefined.harmless : Undefined where
  erase := fun i H => H.filter (·.1.toNat ≠ i)
  erase_defined := definedLoop_filter
  overrun := fun c => (c, ⟨0, ∅⟩)
  freed := id

/-- A call of `collect_holders` or `collect_waiters`. -/
inductive Submission where
  | holder (lid : LockId) (lh : LockHolder)
  | waiter (lid : LockId) (lh : LockHolder)
  deriving DecidableEq, Repr

/-- What host `h` submits for one lock, whose metadata are `l` after the failed machines are
removed. -/
def submissionsOf (h : HostId) (l : InnetLock) : Finset Submission :=
  l.localHolders.image (fun t => .holder l.id (h, t))
    ∪ if l.isAgent then (l.wqueue.map fun w => .waiter l.id w.holder).toFinset else ∅

/-- A call of `check_holder`, with the reply that `integrity_check` finds. -/
def askHolder (u : Undefined) (c : Coordinator) (isAgent : Bool) (lid : LockId) (holderNum : ℕ) :
    Coordinator × CheckHolderReply :=
  match c.checkHolder isAgent lid holderNum with
  | (c', some reply) => (c', u.freed reply)
  | (c', none) => u.overrun c'

/-- The body of the second loop: `true` if the lock is put into `lks_w_agt`. -/
def checkLock (u : Undefined) (c : Coordinator) (l : InnetLock) : Coordinator × InnetLock × Bool :=
  if l.isAgent then
    let r := askHolder u c true l.id l.holders.card
    (r.1, if 0 < r.2.extraNum then { l with holders := l.holders ∪ r.2.extraHolders } else l, true)
  else if l.localHolders ≠ ∅ then
    let r := askHolder u c false l.id 0
    if 0 < r.2.extraNum then
      (r.1,
        { l with
          isAgent := true
          mode := if 1 < r.2.extraNum then .shared else .excl
          holders := l.holders ∪ r.2.extraHolders },
        true)
    else (r.1, l, false)
  else (c, l, false)

/-! ## The system -/

/-- What a recovery round starts from. -/
structure Outage where
  code : BitVec 64
  /-- The locks of `lock_tbl` at each host, in the order in which the host goes through them. -/
  table : HostId → List LockId
  host : HostId → LockId → InnetLock
  /-- `lm_state`, which is never reset. -/
  lmState : LockId → LockData
  /-- A host asks about a lock at most once in a round. -/
  undef : HostId → LockId → Undefined
  table_nodup : ∀ h, (table h).Nodup
  host_id : ∀ h lid, (host h lid).id = lid

namespace Outage

variable (x : Outage)

/-- The machine takes part. -/
abbrev live (h : HostId) : Prop := liveMachine x.code h

/-- The metadata after the failed machines were removed. -/
def purged (h : HostId) (lid : LockId) : InnetLock :=
  if lid ∈ x.table h ∧ (x.host h lid).isAgent then
    removeFailedWith (x.undef h lid).erase x.code (x.host h lid)
  else x.host h lid

/-- All that a host submits. -/
def submissions (h : HostId) : Finset Submission :=
  (x.table h).toFinset.biUnion fun lid => submissionsOf h (x.purged h lid)

/-- The host is agent of the lock when the round starts. -/
def agent (h : HostId) (lid : LockId) : Prop := (x.host h lid).isAgent = true

/-- A host that could become agent of the lock: it is not, and holds the lock itself. -/
def Candidate (h : HostId) (lid : LockId) : Prop :=
  x.live h ∧ lid ∈ x.table h ∧ ¬ x.agent h lid ∧ (x.host h lid).localHolders ≠ ∅

/-- A waiter of the lock is submitted. -/
def Waited (lid : LockId) : Prop := ∃ h, x.live h ∧ ∃ lh, .waiter lid lh ∈ x.submissions h

/-- The holders that the coordinator knows behind the barrier. -/
def collected (lid : LockId) : Finset LockHolder :=
  (x.lmState lid).holders
    ∪ (allHosts.toFinset.filter fun h => x.live h ∧ lid ∈ x.table h).biUnion fun h =>
        (x.host h lid).localHolders.image fun t => (h, t)

/-- The coordinator sends the holders of the lock: to an agent that knows of fewer, or to the first
host that asks whether there is an agent. -/
def Sent (lid : LockId) : Prop :=
  (∃ h, x.live h ∧ lid ∈ x.table h ∧ x.agent h lid
      ∧ (x.host h lid).holders.card < (x.collected lid).card)
    ∨ (x.lmState lid).hasAgent = false ∧ ¬ x.Waited lid ∧ ∃ h, x.Candidate h lid

/-- **Nothing that is undefined happens in the round.**  No surviving agent has a holder to remove,
the holders that are sent fit into the reply, and each reply is still there when it is read. -/
structure Defined : Prop where
  holders : ∀ h, x.live h → ∀ lid ∈ x.table h, x.agent h lid →
    ∀ lh ∈ (x.host h lid).holders, ¬ sweptHost x.code lh.1.toNat
  room : ∀ lid, x.Sent lid → (x.collected lid).card ≤ MAX_HOLDERS
  replies : ∀ h, x.live h → ∀ lid ∈ x.table h, ∀ r, (x.undef h lid).freed r = r

end Outage

/-- A state of a round. -/
structure Recovery where
  coord : Coordinator
  host : HostId → LockId → InnetLock
  /-- What a host has not submitted yet. -/
  pending : HostId → Finset Submission
  /-- Whether a host has called `recovery_ready`. -/
  called : HostId → Bool
  /-- The locks that the second loop still has to look at. -/
  checks : HostId → List LockId
  /-- `lks_w_agt`, without the locks whose restoring `ACQUIRE` was sent. -/
  agents : HostId → List LockId
  regs : Regs
  net : List Flight

/-- What can happen next. -/
inductive RecoveryEvent where
  /-- Host `h` submits a holder or a waiter. -/
  | submit (h : HostId) (sub : Submission)
  /-- Host `h` calls `recovery_ready`. -/
  | ready (h : HostId)
  /-- Host `h` goes on with the second loop. -/
  | check (h : HostId)
  /-- Host `h` sends a restoring `ACQUIRE`. -/
  | restore (h : HostId)
  /-- The `i`-th packet in flight arrives. -/
  | deliver (i : ℕ)
  deriving DecidableEq, Repr

namespace Recovery

/-- The start of the round: the switch has been restarted and nothing is in flight. -/
def start (x : Outage) : Recovery where
  coord := { Coordinator.init with lmState := x.lmState }
  host := x.purged
  pending := x.submissions
  called := fun _ => false
  checks := x.table
  agents := fun _ => []
  regs := Regs.init
  net := []

/-- Replace the metadata of one lock at one host. -/
def setLock (s : Recovery) (h : HostId) (lid : LockId) (l : InnetLock) :
    HostId → LockId → InnetLock :=
  Function.update s.host h (Function.update (s.host h) lid l)

/-- The call that a submission makes. -/
def collect (c : Coordinator) : Submission → Coordinator
  | .holder lid lh => c.collectHolders lid lh
  | .waiter lid lh => c.collectWaiters lid lh

/-- Host `h` looks at the lock `lid`. -/
def checkStep (u : Undefined) (s : Recovery) (h : HostId) (lid : LockId) (rest : List LockId) :
    Recovery :=
  let r := checkLock u s.coord (s.host h lid)
  { s with
    coord := r.1
    host := s.setLock h lid r.2.1
    checks := Function.update s.checks h rest
    agents := if r.2.2 then Function.update s.agents h (s.agents h ++ [lid]) else s.agents }

/-- Host `h` sends the restoring `ACQUIRE` of the lock `lid`. -/
def restoreStep (s : Recovery) (h : HostId) (lid : LockId) (rest : List LockId) : Recovery :=
  { s with
    agents := Function.update s.agents h rest
    net := (.switch, sendPostAcquire (conf h) (s.host h lid).mode lid h TASK_FOR_RESTORE) :: s.net }

/-- The switch processes a packet; `rest` is what else is in flight. -/
def switchStep (s : Recovery) (hdr : LockHdr) (rest : List Flight) : Recovery :=
  let r := ingressPipe s.regs hdr
  { s with regs := r.1, net := toHosts (replicate r.2.1 r.2.2) ++ rest }

/-- A host processes a packet; `rest` is what else is in flight. -/
def hostStep (s : Recovery) (h : HostId) (hdr : LockHdr) (rest : List Flight) : Recovery :=
  let o := lockPacketProcess (conf h) (s.host h hdr.id) hdr
  { s with
    host := s.setLock h hdr.id o.lock
    net := toSwitch o.toSwitch ++ rest }

/-- The step function for the live machines. -/
def step (x : Outage) (s : Recovery) : RecoveryEvent → Option Recovery
  | .submit h sub =>
      if x.live h ∧ sub ∈ s.pending h then
        some { s with
          coord := collect s.coord sub
          pending := Function.update s.pending h ((s.pending h).erase sub) }
      else none
  | .ready h =>
      if x.live h ∧ s.pending h = ∅ then
        some { s with
          coord := (s.coord.recoveryReady (h.setWidth 32) x.code).1
          called := Function.update s.called h true }
      else none
  | .check h =>
      match s.checks h with
      | lid :: rest =>
          -- the barrier
          if x.live h ∧ ∀ h' ∈ allHosts, x.live h' → s.called h' then
            some (s.checkStep (x.undef h lid) h lid rest)
          else none
      | [] => none
  | .restore h =>
      match s.checks h, s.agents h with
      | [], lid :: rest => if x.live h then some (s.restoreStep h lid rest) else none
      | _, _ => none
  | .deliver i =>
      match s.net[i]? with
      | some (.switch, hdr) => some (s.switchStep hdr (s.net.eraseIdx i))
      | some (.host h, hdr) => some (s.hostStep h hdr (s.net.eraseIdx i))
      | none => none

/-- The states of all runs of a round. -/
abbrev Reachable (x : Outage) : Recovery → Prop := Reach (step x) (fun _ _ => True) (start x)

/-- All live hosts have finished `integrity_check`. -/
def Finished (x : Outage) (s : Recovery) : Prop :=
  ∀ h, x.live h → s.pending h = ∅ ∧ s.called h ∧ s.checks h = [] ∧ s.agents h = []

end Recovery

end FissLock
