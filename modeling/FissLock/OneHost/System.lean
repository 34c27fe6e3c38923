import FissLock.Library.Runs
import FissLock.Host.ClientApi
import FissLock.Switch.Delivery

/-!
# One host on the BMv2 switch

The set-up of the contention demo: one lock, one host whose library is built with `FISSLOCK_BMV2`,
and the BMv2 plane.  Packets are delivered in order and exactly once in each direction.

* `lock_acquire_async` and `lock_release` drop the metadata mutex before they send a packet or
  notify the next task.  What a thread has left to do is a `Gap`; it does it in a step of its own,
  and its task makes no other call before.
* `bmv2_net.cc` ignores what a packet handler returns.  A packet that `lock.cc` wants to send back
  to the switch is therefore dropped; only what the handler sends itself goes out.
* It polls the capture files of the ports 0, 1 and 2, and so it processes what is for the other of
  the hosts 1 and 2 as well.
* All requests are exclusive.  A task releases once, after it has observed its grant.

`queued` and `served` are the history that fairness is about: the tasks whose request was appended
to the wait queue, and those of them that were granted, each in order.
-/

namespace FissLock

open Runs

/-- What a thread still does after it dropped the mutex. -/
inductive Gap where
  | send (hdr : LockHdr)
  | notify (t : TaskId)
  deriving DecidableEq, Repr

/-- What a task is doing with the lock. -/
inductive ClientState where
  | idle
  /-- It called `lock_acquire_async` and has not observed a grant. -/
  | waiting
  /-- It observed its grant and has not called `lock_release`. -/
  | holding
  deriving DecidableEq, Repr

/-- A state of the host and the switch, for one lock. -/
structure OneHost where
  cell : Cell
  lock : InnetLock
  /-- Packets to the switch, oldest first. -/
  up : List LockHdr
  /-- Packets to the host, oldest first. -/
  down : List LockHdr
  /-- What threads have left to do, each with its task. -/
  gaps : List (TaskId × Gap)
  task : TaskId → ClientState
  /-- The tasks that were appended to the wait queue, in this order. -/
  queued : List TaskId
  /-- The tasks among them that were granted, in this order. -/
  served : List TaskId

/-- The host: local grants enabled, built with `FISSLOCK_BMV2`. -/
def bmv2Conf (h : HostId) : Conf := { localhostId := h, enbLocalGrants := true, bmv2 := true }

/-- All registers zero, the lock registered, nothing going on. -/
def OneHost.init (lid : LockId) : OneHost where
  cell := Cell.init
  lock := InnetLock.init lid
  up := []
  down := []
  gaps := []
  task := fun _ => .idle
  queued := []
  served := []

/-- What can happen next. -/
inductive HostEvent where
  /-- Task `t` calls `lock_acquire_async` for exclusive access. -/
  | acquire (t : TaskId)
  /-- Task `t` calls `lock_req_granted` and it returns 1. -/
  | poll (t : TaskId)
  /-- Task `t` calls `lock_release`. -/
  | release (t : TaskId)
  /-- A thread does what it has left to do. -/
  | resume (i : ℕ)
  /-- The switch processes the next packet. -/
  | switch
  /-- The host processes the next packet. -/
  | receive
  deriving DecidableEq, Repr

namespace OneHost

/-- The metadata become `l` on behalf of task `t`; the history takes down whether `t` was appended
to the wait queue, and whether it was granted after it had been. -/
def observe (s : OneHost) (l : InnetLock) (t : TaskId) : OneHost :=
  { s with
    lock := l
    queued := if s.lock.wqueue.length < l.wqueue.length then s.queued ++ [t] else s.queued
    served :=
      if s.lock.taskGranted t = false ∧ l.taskGranted t = true
          ∧ s.served.count t < s.queued.count t then
        s.served ++ [t]
      else s.served }

/-- No call of the task is unfinished. -/
def ready (s : OneHost) (t : TaskId) : Bool := s.gaps.all fun g => g.1 ≠ t

/-- What is left to do after a call of task `t`. -/
def gapsOf (t : TaskId) (r : CallOutcome) : List (TaskId × Gap) :=
  (r.sent.map fun p => (t, .send p)) ++ (r.notify.toList.map fun t' => (t, .notify t'))

/-- A host reads the ports that have a file, whoever the packets are for.  A host that is not in the
demo is given a port with a file besides, its own; without one it would not even see its grants. -/
def reads (h : HostId) (q : BitVec 9) : Bool := decide (q = Bmv2.portOf h) || Bmv2.hasFile q

/-- One packet through the switch, on the wire format of the host: what comes back to host `h`. -/
def exchange (h : HostId) (c : Cell) (p : LockHdr) : Cell × List LockHdr :=
  let r := Bmv2.process c (Bmv2.Hdr.ofPost p)
  (r.1, (r.2.filter (reads h ·.1)).map fun x => x.2.parse)

/-- A task asks for the lock. -/
def acquireStep (h : HostId) (s : OneHost) (t : TaskId) : OneHost :=
  let r := lockAcquireAsync (bmv2Conf h) s.lock t .excl
  { s.observe r.1.lock t with
    gaps := gapsOf t r.1 ++ s.gaps
    task := Function.update s.task t (if r.2 = .granted then .holding else .waiting) }

/-- A task releases the lock. -/
def releaseStep (h : HostId) (s : OneHost) (t : TaskId) : OneHost :=
  let r := lockRelease (bmv2Conf h) s.lock t
  { s with
    lock := r.lock
    gaps := gapsOf t r ++ s.gaps
    task := Function.update s.task t .idle }

/-- The host processes a packet.  The value that the handler returns is ignored. -/
def receiveStep (h : HostId) (s : OneHost) (p : LockHdr) (rest : List LockHdr) : OneHost :=
  let o := lockPacketProcess (bmv2Conf h) s.lock p
  { s.observe o.lock p.taskId with up := s.up ++ o.sent, down := rest }

/-- The step function. -/
def step (h : HostId) (s : OneHost) : HostEvent → Option OneHost
  | .acquire t =>
      if s.task t = .idle ∧ s.ready t = true then some (s.acquireStep h t) else none
  | .poll t =>
      if s.task t = .waiting ∧ s.ready t = true ∧ (lockReqGranted s.lock t).2 = true then
        some { s with
          lock := (lockReqGranted s.lock t).1
          task := Function.update s.task t .holding }
      else none
  | .release t =>
      if s.task t = .holding ∧ s.ready t = true then some (s.releaseStep h t) else none
  | .resume i =>
      match s.gaps[i]? with
      | some (_, .send p) => some { s with gaps := s.gaps.eraseIdx i, up := s.up ++ [p] }
      | some (_, .notify t) =>
          some { s.observe (lockLocalNotify s.lock t) t with gaps := s.gaps.eraseIdx i }
      | none => none
  | .switch =>
      match s.up with
      | [] => none
      | p :: rest =>
          let r := exchange h s.cell p
          some { s with cell := r.1, up := rest, down := s.down ++ r.2 }
  | .receive =>
      match s.down with
      | [] => none
      | p :: rest => some (s.receiveStep h p rest)

/-- The states of all runs of the lock `lid` on host `h` whose steps meet `ok`. -/
abbrev Reachable (h : HostId) (lid : LockId) (ok : OneHost → HostEvent → Prop) : OneHost → Prop :=
  Reach (step h) ok (init lid)

/-- What holds at the end of a concrete run holds in some reachable state. -/
theorem exists_of_run (h : HostId) (lid : LockId) (ok : OneHost → HostEvent → Prop)
    [∀ s e, Decidable (ok s e)] (es : List HostEvent) (P : OneHost → Prop) [DecidablePred P]
    (hrun : (runFrom (step h) ok (init lid) es).any (fun s => decide (P s)) = true) :
    ∃ s, Reachable h lid ok s ∧ P s := by
  obtain ⟨s, hs, hP⟩ := (Option.any_eq_true _ _).1 hrun
  exact ⟨s, .of_runFrom .start hs, of_decide_eq_true hP⟩

/-- The task has been granted the lock and has not released it: either it has observed the grant, or
its grant flag is up and it will. -/
def granted (s : OneHost) (t : TaskId) : Prop :=
  s.task t = .holding ∨ s.task t = .waiting ∧ s.lock.taskGranted t = true

instance (s : OneHost) (t : TaskId) : Decidable (s.granted t) :=
  inferInstanceAs (Decidable (_ ∨ _))

lemma exists_split {α : Type*} {l : List α} {i : ℕ} {x : α} (hx : l[i]? = some x) :
    ∃ a b, l = a ++ x :: b ∧ l.eraseIdx i = a ++ b := by
  obtain ⟨hi, rfl⟩ := List.getElem?_eq_some_iff.1 hx
  exact ⟨l.take i, l.drop (i + 1), by simp, List.eraseIdx_eq_take_drop_succ _ _⟩

/-- The task id of a request fits into a queue entry. -/
def Fits (_ : OneHost) : HostEvent → Prop
  | .acquire t => t.toNat < 2 ^ 30
  | _ => True

instance (s : OneHost) : (e : HostEvent) → Decidable (Fits s e)
  | .acquire t => inferInstanceAs (Decidable (t.toNat < 2 ^ 30))
  | .poll _ | .release _ | .resume _ | .switch | .receive => isTrue trivial

/-- **What a step can do.**  The guards that no proof needs are left out. -/
theorem step_cases {h : HostId} {s s' : OneHost} {e : HostEvent} (hs : step h s e = some s') :
    (∃ t, e = .acquire t ∧ s.task t = .idle ∧ s' = s.acquireStep h t)
      ∨ (∃ t, s.task t = .waiting ∧ s.lock.taskGranted t = true
        ∧ s' = { s with
            lock := { s.lock with taskGranted := Function.update s.lock.taskGranted t false }
            task := Function.update s.task t .holding })
      ∨ (∃ t, s.task t = .holding ∧ s' = s.releaseStep h t)
      ∨ (∃ a b c p, s.gaps = a ++ (c, .send p) :: b
        ∧ s' = { s with gaps := a ++ b, up := s.up ++ [p] })
      ∨ (∃ a b c t, s.gaps = a ++ (c, .notify t) :: b
        ∧ s' = { s.observe (lockLocalNotify s.lock t) t with gaps := a ++ b })
      ∨ (∃ p rest, s.up = p :: rest ∧ s' = { s with
          cell := (exchange h s.cell p).1
          up := rest
          down := s.down ++ (exchange h s.cell p).2 })
      ∨ (∃ p rest, e = .receive ∧ s.down = p :: rest ∧ s' = s.receiveStep h p rest) := by
  cases e with
  | acquire t =>
      simp only [step] at hs
      split at hs
      · next hg => exact .inl ⟨t, rfl, hg.1, (Option.some.inj hs).symm⟩
      · cases hs
  | poll t =>
      simp only [step] at hs
      split at hs
      · next hg =>
          have hf : s.lock.taskGranted t = true := by
            by_contra hn
            simp [lockReqGranted, hn] at hg
          rw [lockReqGranted, if_pos hf] at hs
          exact .inr (.inl ⟨t, hg.1, hf, (Option.some.inj hs).symm⟩)
      · cases hs
  | release t =>
      simp only [step] at hs
      split at hs
      · next hg => exact .inr (.inr (.inl ⟨t, hg.1, (Option.some.inj hs).symm⟩))
      · cases hs
  | resume i =>
      simp only [step] at hs
      split at hs
      · next c p hx =>
          obtain ⟨a, b, hg, he⟩ := exists_split hx
          rw [he] at hs
          exact .inr (.inr (.inr (.inl ⟨a, b, c, p, hg, (Option.some.inj hs).symm⟩)))
      · next c t hx =>
          obtain ⟨a, b, hg, he⟩ := exists_split hx
          rw [he] at hs
          exact .inr (.inr (.inr (.inr (.inl ⟨a, b, c, t, hg, (Option.some.inj hs).symm⟩))))
      · cases hs
  | switch =>
      simp only [step] at hs
      split at hs
      · cases hs
      · next p rest hup =>
          exact .inr (.inr (.inr (.inr (.inr (.inl ⟨p, rest, hup, (Option.some.inj hs).symm⟩)))))
  | receive =>
      simp only [step] at hs
      split at hs
      · cases hs
      · next p rest hdown =>
          exact .inr (.inr (.inr (.inr (.inr (.inr ⟨p, rest, rfl, hdown, (Option.some.inj hs).symm⟩)))))

/-! ## Taking down the history -/

section Observe

variable {s : OneHost} {t : TaskId}

lemma observe_keep {l : InnetLock} (hw : l.wqueue = s.lock.wqueue)
    (hf : l.taskGranted = s.lock.taskGranted) : s.observe l t = { s with lock := l } := by
  simp +contextual [observe, hw, hf]

lemma observe_append {l : InnetLock} {e : Wqe} (hw : l.wqueue = s.lock.wqueue ++ [e])
    (hf : l.taskGranted = s.lock.taskGranted) :
    s.observe l t = { s with lock := l, queued := s.queued ++ [t] } := by
  simp +contextual [observe, hw, hf]

lemma observe_grant {l : InnetLock} (hw : l.wqueue = s.lock.wqueue)
    (h0 : s.lock.taskGranted t = false) (h1 : l.taskGranted t = true) :
    s.observe l t = { s with
      lock := l
      served := if s.served.count t < s.queued.count t then s.served ++ [t] else s.served } := by
  simp [observe, hw, h0, h1]

end Observe

end OneHost

end FissLock
