import FissLock.Library.Runs
import FissLock.Host.ClientApi
import FissLock.Switch.Tofino

/-!
# The cluster: hosts, the Tofino switch and the packets between them

One in-range lock, the hosts `1 .. HOST_NUM` running `lock.cc`, the switch, and the packets in
flight.  A step is one call of the client interface, or the delivery of **any** packet in flight
to the switch or to the host it is addressed to: packets are delayed and reordered arbitrarily, but
neither lost nor duplicated.

The applications are part of the system.  `Cluster.task` records for every task whether it is idle,
waits for a grant it has asked for, or has observed the grant.  A task acquires when it is idle and
none of its packets is in flight any more, and releases once after it observed its grant; the
guards of `step` say exactly this.

`lock_acquire_async` and `lock_release` drop the metadata mutex before they send.  Sending at once
loses no behaviour here, since the packet is fixed when the mutex is dropped and a packet may stay
in flight for as long as it likes.
-/

namespace FissLock

open Runs Tofino

/-- Where a packet is going. -/
inductive Dst where
  | switch
  | host (h : HostId)
  deriving DecidableEq, Repr

/-- A packet in flight. -/
abbrev Flight := Dst × LockHdr

/-- What a task is doing with the lock. -/
inductive TaskState where
  | idle
  /-- It called `lock_acquire_async` and has not observed a grant. -/
  | waiting (op : LockState)
  /-- It observed its grant and has not called `lock_release`. -/
  | holding (op : LockState)
  deriving DecidableEq, Repr

/-- A state of the whole system, for one lock. -/
structure Cluster where
  cell : Cell
  host : HostId → InnetLock
  net : List Flight
  task : LockHolder → TaskState

/-- The configuration of a host: local grants enabled, not the BMv2 build. -/
def conf (h : HostId) : Conf := { localhostId := h, enbLocalGrants := true, bmv2 := false }

@[simp] lemma conf_localhostId (h : HostId) : (conf h).localhostId = h := rfl

@[simp] lemma conf_enbLocalGrants (h : HostId) : (conf h).enbLocalGrants = true := rfl

@[simp] lemma conf_bmv2 (h : HostId) : (conf h).bmv2 = false := rfl

/-- The start: all registers zero, the lock registered at every host, nothing in flight. -/
def Cluster.init (lid : LockId) : Cluster where
  cell := Cell.init
  host := fun _ => InnetLock.init lid
  net := []
  task := fun _ => .idle

/-- What can happen next. -/
inductive Event where
  /-- Task `t` of host `h` calls `lock_acquire_async`. -/
  | acquire (h : HostId) (t : TaskId) (op : LockState)
  /-- Task `t` of host `h` calls `lock_req_granted` and it returns 1. -/
  | poll (h : HostId) (t : TaskId)
  /-- Task `t` of host `h` calls `lock_release`. -/
  | release (h : HostId) (t : TaskId)
  /-- The `i`-th packet in flight arrives. -/
  | deliver (i : ℕ)
  deriving DecidableEq, Repr

/-- The task that makes a call. -/
def Event.caller : Event → Option LockHolder
  | .acquire h t _ => some (h, t)
  | .poll h t => some (h, t)
  | .release h t => some (h, t)
  | .deliver _ => none

/-- A packet of this task.  The task id of a `FREE` is always zero and stands for no task. -/
def ownPacket (lh : LockHolder) (x : Flight) : Bool :=
  decide (x.2.type ≠ .free ∧ x.2.holder = lh)

/-- Packets on their way to the switch. -/
def toSwitch (ps : List LockHdr) : List Flight := ps.map fun p => (.switch, p)

/-- Packets on their way to hosts. -/
def toHosts (ps : List (HostId × LockHdr)) : List Flight := ps.map fun p => (.host p.1, p.2)

namespace Cluster

/-- A task asks for the lock. -/
def acquireStep (s : Cluster) (h : HostId) (t : TaskId) (op : LockState) : Cluster :=
  let r := lockAcquireAsync (conf h) (s.host h) t op
  { s with
    host := Function.update s.host h r.1.lock
    net := toSwitch r.1.sent ++ s.net
    task := Function.update s.task (h, t)
      (if r.2 = .granted then .holding op else .waiting op) }

/-- A task releases the lock. -/
def releaseStep (s : Cluster) (h : HostId) (t : TaskId) : Cluster :=
  let r := lockRelease (conf h) (s.host h) t
  { s with
    host := Function.update s.host h r.lock
    net := toSwitch r.sent ++ s.net
    task := Function.update s.task (h, t) .idle }

/-- The switch processes a packet; `rest` is what else is in flight. -/
def switchStep (s : Cluster) (hdr : LockHdr) (rest : List Flight) : Cluster :=
  let r := process s.cell hdr
  { s with cell := r.1, net := toHosts r.2 ++ rest }

/-- A host processes a packet; `rest` is what else is in flight. -/
def hostStep (s : Cluster) (h : HostId) (hdr : LockHdr) (rest : List Flight) : Cluster :=
  let o := lockPacketProcess (conf h) (s.host h) hdr
  { s with
    host := Function.update s.host h o.lock
    net := toSwitch o.toSwitch ++ rest }

/-- The step function. -/
def step (s : Cluster) : Event → Option Cluster
  | .acquire h t op =>
      if isHost h ∧ t.toNat < 2 ^ 30 ∧ (op = .shared ∨ op = .excl) ∧ s.task (h, t) = .idle
          ∧ s.net.any (ownPacket (h, t)) = false then
        some (s.acquireStep h t op)
      else none
  | .poll h t =>
      match s.task (h, t) with
      | .waiting op =>
          let r := lockReqGranted (s.host h) t
          if r.2 then
            some { s with
              host := Function.update s.host h r.1
              task := Function.update s.task (h, t) (.holding op) }
          else none
      | _ => none
  | .release h t =>
      match s.task (h, t) with
      | .holding _ => some (s.releaseStep h t)
      | _ => none
  | .deliver i =>
      match s.net[i]? with
      | some (.switch, hdr) => some (s.switchStep hdr (s.net.eraseIdx i))
      | some (.host h, hdr) => some (s.hostStep h hdr (s.net.eraseIdx i))
      | none => none

/-- The assertions that a step makes fire. -/
def failures (s : Cluster) : Event → List Assertion
  | .acquire h t op => (lockAcquireAsync (conf h) (s.host h) t op).1.failed
  | .poll _ _ => []
  | .release h t => (lockRelease (conf h) (s.host h) t).failed
  | .deliver i =>
      match s.net[i]? with
      | some (.host h, hdr) => (lockPacketProcess (conf h) (s.host h) hdr).failed
      | _ => []

/-- The states of all runs of the lock `lid` whose steps meet `ok`. -/
abbrev Reachable (lid : LockId) (ok : Cluster → Event → Prop) : Cluster → Prop :=
  Reach step ok (init lid)

/-- A step changes what a task is doing only if the task makes a call. -/
lemma step_task {s s' : Cluster} {e : Event} {lh : LockHolder} (h : s.step e = some s')
    (hne : e.caller ≠ some lh) : s'.task lh = s.task lh := by
  have hupd : ∀ {h t st}, some (h, t) ≠ some lh → Function.update s.task (h, t) st lh = s.task lh :=
    fun hne => Function.update_of_ne (fun h => hne (by rw [h])) _ _
  cases e with
  | acquire h' t op =>
      simp only [step] at h
      split at h
      · rw [← Option.some.inj h]
        exact hupd hne
      · cases h
  | poll h' t =>
      simp only [step] at h
      split at h
      · split at h
        · rw [← Option.some.inj h]
          exact hupd hne
        · cases h
      · cases h
  | release h' t =>
      simp only [step] at h
      split at h
      · rw [← Option.some.inj h]
        exact hupd hne
      · cases h
  | deliver i =>
      simp only [step] at h
      split at h
      · rw [← Option.some.inj h]
        rfl
      · rw [← Option.some.inj h]
        rfl
      · cases h

/-- What holds at the end of a concrete run holds in some reachable state, in which all tasks that
made no call are idle. -/
theorem exists_of_run (lid : LockId) (ok : Cluster → Event → Prop) [∀ s e, Decidable (ok s e)]
    (es : List Event) (P : Cluster → Prop) [DecidablePred P]
    (h : (runFrom step ok (init lid) es).any (fun s => decide (P s)) = true) :
    ∃ s, Reachable lid ok s ∧ P s
      ∧ ∀ lh, (∀ e ∈ es, e.caller ≠ some lh) → s.task lh = .idle := by
  obtain ⟨s, hs, hP⟩ := (Option.any_eq_true _ _).1 h
  exact ⟨s, .of_runFrom .start hs, of_decide_eq_true hP, fun lh hlh =>
    runFrom_preserves (fun s => s.task lh = .idle) (fun _ _ _ he hidle ht =>
      (step_task ht (hlh _ he)).trans hidle) rfl hs⟩

/-- The task has been granted the lock in mode `op` and has not released it: either it has observed
the grant, or its grant flag is up and it will. -/
def holds (s : Cluster) (lh : LockHolder) (op : LockState) : Prop :=
  s.task lh = .holding op ∨ s.task lh = .waiting op ∧ (s.host lh.1).taskGranted lh.2 = true

instance (s : Cluster) (lh : LockHolder) (op : LockState) : Decidable (s.holds lh op) :=
  inferInstanceAs (Decidable (_ ∨ _))

end Cluster
end FissLock
