import FissLock.OneHost.System

/-!
# `fl_bmv2_try_acquire_excl`

`lib/bmv2/fisslock_host_api.cc` on one host and the BMv2 plane.  A call asks for exclusive access,
polls its grant flag until a deadline, and calls `lock_release` if it has seen no grant by then.

A request outlives the call that made it: as a packet, as an entry of the wait queue, as a holder.
To say on whose account something happens, everything that a request turns into carries the
`CallId` of the call; the code does not know it.  `Return` takes down what a call returned, and
whether its task was then recorded as a holder on account of this very call.

`Contract` is what a caller may rely on, and `Guarded` says in which states the steps do no harm.
What breaks it otherwise is that a call gives up by `lock_release`, which knows holders: it leaves
the grant flag of a holder up, an entry of the wait queue where it is, and a grant that is on its
way to arrive.
-/

namespace FissLock
namespace TryAcquire

open Runs OneHost

/-- The task and the number of a call among the calls of its task, from 1 on. -/
abbrev CallId := TaskId × ℕ

/-- A call has returned. -/
structure Return where
  call : CallId
  /-- It returned 1. -/
  result : Bool
  /-- At that moment its task was a recorded holder, because of a grant to this call. -/
  recorded : Bool
  deriving DecidableEq, Repr

/-- One lock on one host and the switch, as in `OneHost`, with the calls behind everything. -/
structure State where
  cell : Cell
  lock : InnetLock
  up : List (LockHdr × CallId)
  down : List (LockHdr × CallId)
  gaps : List ((TaskId × Gap) × CallId)
  task : TaskId → ClientState
  /-- How many calls a task has begun. -/
  calls : TaskId → ℕ
  /-- The calls whose requests are the entries of the wait queue. -/
  wqCalls : List CallId
  /-- The call on whose account a task was recorded as a holder last. -/
  holderCall : TaskId → CallId
  returns : List Return

def State.init (lid : LockId) : State where
  cell := Cell.init
  lock := InnetLock.init lid
  up := []
  down := []
  gaps := []
  task := fun _ => .idle
  calls := fun _ => 0
  wqCalls := []
  holderCall := fun t => (t, 0)
  returns := []

inductive Event where
  /-- `fl_bmv2_try_acquire_excl` is called: `lock_acquire_async`. -/
  | acquire (t : TaskId)
  /-- `lock_req_granted` returns 1, and so does the call. -/
  | poll (t : TaskId)
  /-- The deadline has passed: `lock_release`, and the call returns 0. -/
  | timeout (t : TaskId)
  /-- `fl_bmv2_release_excl`. -/
  | release (t : TaskId)
  /-- A thread does what it has left to do. -/
  | resume (i : ℕ)
  /-- The switch processes the next packet. -/
  | switch
  /-- The poll thread processes the next packet. -/
  | receive
  deriving DecidableEq, Repr

/-- The call that a task is in, or was in last. -/
def State.current (s : State) (t : TaskId) : CallId := (t, s.calls t)

/-- No call of the task is unfinished. -/
def State.ready (s : State) (t : TaskId) : Bool := s.gaps.all fun g => g.1.1 ≠ t

/-- The call of task `t` returns. -/
def State.answer (h : HostId) (s : State) (t : TaskId) (result : Bool) : State :=
  { s with
    returns := s.returns ++
      [{ call := s.current t
         result := result
         recorded := decide ((h, t) ∈ s.lock.holders ∧ s.holderCall t = s.current t) }] }

/-- What a call of task `t` leaves to do. -/
def State.pushGaps (s : State) (t : TaskId) (r : CallOutcome) : State :=
  { s with gaps := ((gapsOf t r).map fun g => (g, s.current t)) ++ s.gaps }

/-- `fl_bmv2_try_acquire_excl`, up to the loop.  If the lock was granted on the spot the call
returns. -/
def acquireStep (h : HostId) (s : State) (t : TaskId) : State :=
  let r := lockAcquireAsync (bmv2Conf h) s.lock t .excl
  let s := { s with calls := Function.update s.calls t (s.calls t + 1) }
  let wq := if s.lock.wqueue.length < r.1.lock.wqueue.length then s.wqCalls ++ [s.current t]
    else s.wqCalls
  let s := State.pushGaps { s with lock := r.1.lock, wqCalls := wq } t r.1
  if r.2 = .granted then
    State.answer h { s with
      task := Function.update s.task t .holding
      holderCall := Function.update s.holderCall t (s.current t) } t true
  else { s with task := Function.update s.task t .waiting }

/-- `lock_release`.  What it takes off the wait queue it takes off at the front; the task it will
notify has become a holder. -/
def releaseStep (h : HostId) (s : State) (t : TaskId) : State :=
  let r := lockRelease (bmv2Conf h) s.lock t
  let s := s.pushGaps t r
  { s with
    lock := r.lock
    wqCalls := s.wqCalls.drop (s.lock.wqueue.length - r.lock.wqueue.length)
    holderCall := match r.notify with
      | some t' => Function.update s.holderCall t' (s.wqCalls.headD (t', 0))
      | none => s.holderCall
    task := Function.update s.task t .idle }

/-- The calls behind the wait queue after a packet of call `c`, by what happened to the queue: a
request was appended; nothing; it was given away whole; a release took its entry out. -/
def wqCallsAfter (l l' : InnetLock) (p : LockHdr) (c : CallId) (calls : List CallId) : List CallId :=
  if l.wqueue.length < l'.wqueue.length then calls ++ [c]
  else if l'.wqueue.length = l.wqueue.length then calls
  else if l'.wqueue = [] then []
  else calls.eraseIdx (l.wqueue.findIdx fun e => e.host = p.machineId ∧ e.taskId = p.taskId)

/-- The poll thread processes a packet; the value that the handler returns is ignored.  A grant makes
its task a holder, and so does a request that the host grants as the manager. -/
def receiveStep (h : HostId) (s : State) (x : LockHdr × CallId) (rest : List (LockHdr × CallId)) :
    State :=
  let o := lockPacketProcess (bmv2Conf h) s.lock x.1
  { s with
    lock := o.lock
    up := s.up ++ o.sent.map fun p => (p, x.2)
    down := rest
    wqCalls := wqCallsAfter s.lock o.lock x.1 x.2 s.wqCalls
    holderCall :=
      if x.1.type = .grantWithAgent ∨ x.1.holder ∉ s.lock.holders ∧ x.1.holder ∈ o.lock.holders then
        Function.update s.holderCall x.1.taskId x.2
      else s.holderCall }

def step (h : HostId) (s : State) : Event → Option State
  | .acquire t => if s.task t = .idle ∧ s.ready t = true then some (acquireStep h s t) else none
  | .poll t =>
      if s.task t = .waiting ∧ s.ready t = true ∧ (lockReqGranted s.lock t).2 = true then
        some (State.answer h { s with
          lock := (lockReqGranted s.lock t).1
          task := Function.update s.task t .holding } t true)
      else none
  | .timeout t =>
      if s.task t = .waiting ∧ s.ready t = true then some ((releaseStep h s t).answer h t false)
      else none
  | .release t =>
      if s.task t = .holding ∧ s.ready t = true then some (releaseStep h s t) else none
  | .resume i =>
      match s.gaps[i]? with
      | some ((_, .send p), c) => some { s with gaps := s.gaps.eraseIdx i, up := s.up ++ [(p, c)] }
      | some ((_, .notify t), _) =>
          some { s with gaps := s.gaps.eraseIdx i, lock := lockLocalNotify s.lock t }
      | none => none
  | .switch =>
      match s.up with
      | [] => none
      | x :: rest =>
          let r := exchange h s.cell x.1
          some { s with cell := r.1, up := rest, down := s.down ++ r.2.map fun p => (p, x.2) }
  | .receive =>
      match s.down with
      | [] => none
      | x :: rest => some (receiveStep h s x rest)

/-! ## The contract -/

/-- Nothing of the call is on its way. -/
def State.Drained (s : State) (c : CallId) : Prop :=
  (∀ x ∈ s.up ++ s.down, x.2 ≠ c) ∧ ∀ x ∈ s.gaps, x.2 ≠ c

/-- A call that returned 0. -/
def State.Failed (s : State) (c : CallId) : Prop := ∃ r ∈ s.returns, r.call = c ∧ r.result = false

/-- What a caller may rely on. -/
structure Contract (h : HostId) (s : State) : Prop where
  /-- A call that returned 1 left its task a recorded holder, because of a grant to this call. -/
  success : ∀ r ∈ s.returns, r.result = true → r.recorded = true
  /-- When the packets of a call that returned 0 have drained, the host has forgotten the task, until
  it calls again. -/
  failure : ∀ t, s.Failed (s.current t) → s.Drained (s.current t) →
    (h, t) ∉ s.lock.holders ∧ (∀ e ∈ s.lock.wqueue, e.holder ≠ (h, t))
      ∧ s.lock.taskGranted t = false
  /-- Nor is a task a holder on account of such a call any more, then or later. -/
  never : ∀ c t, s.Failed c → s.Drained c → (h, t) ∈ s.lock.holders → s.holderCall t ≠ c
  /-- Nor does one wait. -/
  noWaiter : ∀ c, s.Failed c → s.Drained c → c ∉ s.wqCalls

/-- The lock is one that the switch serves. -/
def Served (lid : LockId) : Prop := lid.toNat < 1024

/-- The steps that do no harm.  The task ids of a lock that the switch serves fit into a queue
entry, and a call for it gives up only while another task is the holder and its own request has not
yet reached the wait queue.  A lock that the host manages is asked for only while it is free; and a
request for a lock that is managed elsewhere, if the host reads it, finds the lock free. -/
def Guarded (h : HostId) (s : State) : Event → Prop
  | .acquire t => (Served s.lock.id → t.toNat < 2 ^ 30)
      ∧ (SWITCH_LOCK_NUM ≤ s.lock.id.toNat → lockToLm s.lock = h → s.lock.mode = .free)
  | .timeout t => Served s.lock.id → (∃ lh ∈ s.lock.holders, lh ≠ (h, t))
      ∧ (h, t) ∉ s.lock.holders ∧ ∀ e ∈ s.lock.wqueue, e.holder ≠ (h, t)
  | .receive => SWITCH_LOCK_NUM ≤ s.lock.id.toNat → lockToLm s.lock ≠ h →
      ∀ x ∈ s.down.head?, x.1.type = .acquire → s.lock.mode = .free
  | _ => True

instance (lid : LockId) : Decidable (Served lid) := inferInstanceAs (Decidable (_ < _))

instance (h : HostId) (s : State) : (e : Event) → Decidable (Guarded h s e)
  | .acquire _ => inferInstanceAs (Decidable (_ ∧ _))
  | .timeout _ => inferInstanceAs (Decidable (_ → _))
  | .poll _ => inferInstanceAs (Decidable True)
  | .release _ => inferInstanceAs (Decidable True)
  | .resume _ => inferInstanceAs (Decidable True)
  | .switch => inferInstanceAs (Decidable True)
  | .receive => inferInstanceAs (Decidable (_ → _ → _))

/-! ## The packets -/

/-- The packet that a thread is about to send. -/
def sendOf : (TaskId × Gap) × CallId → Option (LockHdr × CallId)
  | ((_, .send p), c) => some (p, c)
  | ((_, .notify _), _) => none

/-- All packets between host and switch, the first to arrive first, and those about to be sent. -/
def State.flight (s : State) : List (LockHdr × CallId) :=
  s.down ++ s.up ++ s.gaps.filterMap sendOf

variable {h : HostId} {s s' : State} {e : Event} {x : LockHdr × CallId}
  {rest : List (LockHdr × CallId)}

lemma mem_flight :
    x ∈ s.flight ↔ (x ∈ s.down ∨ x ∈ s.up) ∨ ∃ t, ((t, Gap.send x.1), x.2) ∈ s.gaps := by
  have hgap : x ∈ s.gaps.filterMap sendOf ↔ ∃ t, ((t, Gap.send x.1), x.2) ∈ s.gaps := by
    rw [List.mem_filterMap]
    constructor
    · rintro ⟨⟨⟨t, g⟩, c⟩, hg, he⟩
      cases g with
      | send p =>
          cases he
          exact ⟨t, hg⟩
      | notify t' => cases he
    · rintro ⟨t, ht⟩
      exact ⟨_, ht, rfl⟩
  rw [State.flight, List.mem_append, List.mem_append, hgap]

/-! ## What a step can do -/

/-- The host does not answer, and leaves the wait queue alone. -/
lemma receiveStep_keep {l : InnetLock} (hng : x.1.type ≠ .grantWithAgent)
    (hsent : (lockPacketProcess (bmv2Conf h) s.lock x.1).sent = [])
    (hlock : (lockPacketProcess (bmv2Conf h) s.lock x.1).lock = l) (hw : l.wqueue = s.lock.wqueue)
    (hh : l.holders ⊆ s.lock.holders) :
    receiveStep h s x rest = { s with lock := l, down := rest } := by
  have hno : ¬ (x.1.holder ∉ s.lock.holders ∧ x.1.holder ∈ l.holders) := fun hx => hx.1 (hh hx.2)
  simp [receiveStep, hsent, hlock, wqCallsAfter, hw, hng, hno]

theorem step_cases (hs : step h s e = some s') :
    (∃ t, e = .acquire t ∧ s.task t = .idle ∧ s.ready t = true ∧ s' = acquireStep h s t)
      ∨ (∃ t, s.task t = .waiting ∧ s.lock.taskGranted t = true
        ∧ s' = State.answer h { s with
            lock := { s.lock with taskGranted := Function.update s.lock.taskGranted t false }
            task := Function.update s.task t .holding } t true)
      ∨ (∃ t, e = .timeout t ∧ s.task t = .waiting ∧ s.ready t = true
        ∧ s' = (releaseStep h s t).answer h t false)
      ∨ (∃ t, s.task t = .holding ∧ s.ready t = true ∧ s' = releaseStep h s t)
      ∨ (∃ a b t p c, s.gaps = a ++ ((t, .send p), c) :: b
        ∧ s' = { s with gaps := a ++ b, up := s.up ++ [(p, c)] })
      ∨ (∃ a b t t' c, s.gaps = a ++ ((t, .notify t'), c) :: b
        ∧ s' = { s with gaps := a ++ b, lock := lockLocalNotify s.lock t' })
      ∨ (∃ x rest, s.up = x :: rest ∧ s' = { s with
          cell := (exchange h s.cell x.1).1
          up := rest
          down := s.down ++ (exchange h s.cell x.1).2.map fun p => (p, x.2) })
      ∨ (∃ x rest, e = .receive ∧ s.down = x :: rest ∧ s' = receiveStep h s x rest) := by
  cases e with
  | acquire t =>
      simp only [step] at hs
      split at hs
      · next hg => exact .inl ⟨t, rfl, hg.1, hg.2, (Option.some.inj hs).symm⟩
      · cases hs
  | poll t =>
      simp only [step] at hs
      split at hs
      · next hg =>
          have hf : s.lock.taskGranted t = true := by
            by_contra hn
            simp [lockReqGranted, hn] at hg
          rw [lockReqGranted, if_pos hf] at hs
          exact .inr (.inl ⟨t, hg.1, hf, (Option.some.inj hs).symm⟩)
      · cases hs
  | timeout t =>
      simp only [step] at hs
      split at hs
      · next hg => exact .inr (.inr (.inl ⟨t, rfl, hg.1, hg.2, (Option.some.inj hs).symm⟩))
      · cases hs
  | release t =>
      simp only [step] at hs
      split at hs
      · next hg => exact .inr (.inr (.inr (.inl ⟨t, hg.1, hg.2, (Option.some.inj hs).symm⟩)))
      · cases hs
  | resume i =>
      simp only [step] at hs
      split at hs
      · next t p c hx =>
          obtain ⟨a, b, hg, he⟩ := exists_split hx
          rw [he] at hs
          exact .inr (.inr (.inr (.inr (.inl ⟨a, b, t, p, c, hg, (Option.some.inj hs).symm⟩))))
      · next t t' c hx =>
          obtain ⟨a, b, hg, he⟩ := exists_split hx
          rw [he] at hs
          exact .inr (.inr (.inr (.inr (.inr (.inl
            ⟨a, b, t, t', c, hg, (Option.some.inj hs).symm⟩)))))
      · cases hs
  | switch =>
      simp only [step] at hs
      split at hs
      · cases hs
      · next x rest hup =>
          exact .inr (.inr (.inr (.inr (.inr (.inr (.inl
            ⟨x, rest, hup, (Option.some.inj hs).symm⟩))))))
  | receive =>
      simp only [step] at hs
      split at hs
      · cases hs
      · next x rest hdown =>
          exact .inr (.inr (.inr (.inr (.inr (.inr (.inr
            ⟨x, rest, rfl, hdown, (Option.some.inj hs).symm⟩))))))

end TryAcquire
end FissLock
