import FissLock.Baseline.ParLockRemote

/-!
# ParLock is a lock across its hosts

`step_good` relates a step of the hosts to the lock that it is about, and says that all other locks
stay as they are.  From this, over all runs:

* `hosts_exclusive` — who holds a lock exclusively is the only one that holds it, and whatever is
  under way can be delivered: no signal finds its requester missing;
* `hosts_all_served` — when nothing of a lock is under way and nobody holds it, nobody waits for it
  and it is as new;
* `hosts_run_bound` — deliveries and releases are at most five times the requests.
-/

namespace FissLock.ParLock.Hosts

open Runs ReadersWriter GrantFlags

/-! ## All locks together -/

/-- A step of a request that was made before, polls apart. -/
def Event.goesOn : Event → Bool
  | .release _ => true
  | .deliver _ => true
  | _ => false

def Event.isRequest : Event → Bool
  | .acquire _ _ => true
  | _ => false

def Event.takes (e : Event) : ℕ := if e.goesOn then 1 else 0

/-- A request needs five more steps at most. -/
def Event.brings (e : Event) : ℕ := if e.isRequest then 5 else 0

section Simulation

variable {c : Config} {s s' : State} {t : BitVec 32 → RemoteLock.State LockQueueEntry} {e : Event}

/-- What a step does to the lock of a requester, and to the others. -/
lemma good_update (hg : ∀ lockId, Good c lockId s (t lockId)) {a : Client} {k b : ℕ}
    (hturn : ∃ used made, Turn s s' a used made)
    (hm : Matched c a.lockId s' (t a.lockId) k b) :
    ∃ t₁, RemoteLock.Advance 0 1 (t a.lockId) t₁ k b
      ∧ ∀ lockId, Good c lockId s' (Function.update t a.lockId t₁ lockId) := by
  obtain ⟨used, made, hturn⟩ := hturn
  obtain ⟨t₁, hadv, hsim⟩ := hm
  refine ⟨t₁, hadv, fun lockId => ?_⟩
  by_cases hl : lockId = a.lockId
  · subst hl
    rw [Function.update_self]
    exact ⟨hsim, hadv.inv (hg _).inv, hadv.readerFirst (hg _).inv (hg _).readers⟩
  · rw [Function.update_of_ne hl]
    exact ⟨(hg lockId).sim.other hturn hl, (hg lockId).inv, (hg lockId).readers⟩

/-- **Every step of the hosts is a few steps of one lock and its clients.** -/
theorem step_good (hg : ∀ lockId, Good c lockId s (t lockId)) (hfits : s.Fits e)
    (h : s.step c e = some s') :
    ∃ l t₁, RemoteLock.Advance 0 1 (t l) t₁ e.takes e.brings
      ∧ ∀ lockId, Good c lockId s' (Function.update t l t₁ lockId) := by
  cases e with
  | acquire a op =>
      obtain ⟨hturn, hm⟩ := step_acquire (t := t a.lockId) h
      exact ⟨a.lockId, good_update hg hturn (hm (hg _).sim)⟩
  | poll a =>
      obtain ⟨hturn, hm⟩ := step_poll (t := t a.lockId) h
      exact ⟨a.lockId, good_update hg hturn (hm (hg _).sim)⟩
  | wake a =>
      obtain ⟨hturn, hm⟩ := step_wake (t := t a.lockId) h
      exact ⟨a.lockId, good_update hg hturn (hm (hg _).sim)⟩
  | release a =>
      obtain ⟨hturn, hm⟩ := step_release (t := t a.lockId) h
      exact ⟨a.lockId, good_update hg hturn (hm (hg _).sim)⟩
  | deliver i =>
      simp only [State.step] at h
      split at h
      · next x hx =>
          obtain ⟨hturn, hm⟩ := (hg x.lockId).deliver hx (hfits x hx) h
          exact ⟨x.lockId, good_update hg hturn hm⟩
      · cases h

lemma good_init (c : Config) (lockId : BitVec 32) : Good c lockId (.init c) .start where
  sim :=
    { lock := ⟨rfl, by simp [State.init, initLock], rfl, rfl⟩
      shown := fun _ => ⟨rfl, by simp [State.init, TaskState.op]⟩ }
  inv := RemoteLock.inv_start
  readers := ⟨inv_start, fun _ h => nomatch h⟩

/-- Every state reached stands for a state of each lock and its clients. -/
theorem exists_good (h : State.Reachable c s) :
    ∃ t : BitVec 32 → RemoteLock.State LockQueueEntry, ∀ lockId, Good c lockId s (t lockId) := by
  refine h.invariant (I := fun s => ∃ t : BitVec 32 → RemoteLock.State LockQueueEntry,
    ∀ lockId, Good c lockId s (t lockId)) ⟨fun _ => .start, good_init c⟩ ?_
  rintro s e s' ⟨t, hg⟩ hfits hstep
  obtain ⟨l, t₁, -, hg'⟩ := step_good hg hfits hstep
  exact ⟨_, hg'⟩

end Simulation

/-! ## The results -/

section Results

variable {c : Config} {s : State}

/-- A requester that holds a lock has been granted it. -/
lemma Sim.grant_of_holds {t : RemoteLock.State LockQueueEntry} {a : Client} {op : LockOp}
    (hs : Sim c a.lockId s t) (h : s.holds a op) :
    ∃ x, (t.stage (entryOf a op)).grant = some x ∧ Asks (entryOf a op) x := by
  rcases h with h | ⟨hw, hf⟩
  · obtain ⟨x, hst, hask, -⟩ := (hs.shown (entryOf a op)).holding_of_task h
    exact ⟨x, by rw [hst]; rfl, hask⟩
  · obtain ⟨x, hst, hask, -⟩ := (hs.shown (entryOf a op)).granted_of_flag hw hf
    exact ⟨x, by rw [hst]; rfl, hask⟩

/-- A pair that is in the wait table can be signalled. -/
lemma isSome_coroutineWaitQueueSignal {table : LockWaitTable} {lockId requester : BitVec 32}
    {b : Bool} (h : flagOf table lockId requester = some b) :
    (coroutineWaitQueueSignal table lockId requester).isSome = true := by
  obtain ⟨waitFlag, hl, hr⟩ := Option.bind_eq_some_iff.1 h
  simp [coroutineWaitQueueSignal, hl, hr]

/-- Whatever is under way can be delivered: nothing ends the process. -/
lemma Good.isSome_deliver {t : RemoteLock.State LockQueueEntry} {x : Flight}
    (hg : Good c x.lockId s t) (hx : x ∈ s.net) (rest : List Flight) :
    (s.deliver x rest).isSome = true := by
  obtain ⟨-, b, ⟨hst, hreq⟩ | ⟨hst, hkind, hdest⟩ | ⟨hst, hreq⟩⟩ := hg.sim.of_mem hx
  · have hshow := hg.sim.shown x.hd.entry
    rw [hst] at hshow
    obtain ⟨o, hdel, -, -, herr⟩ :=
      Hosts.deliver_request s rest (server c x.lockId) x.lockId hshow.1.1
    rw [← hreq] at hdel
    rw [hdel, State.processed, if_pos herr]
    rfl
  · have hshow := hg.sim.shown x.hd.entry
    rw [hst] at hshow
    have hf : flagOf (s.table x.dest) x.lockId x.hd.lhId = some false := by
      rw [hdest]
      exact hshow.2.2.2.1
    have hsig := isSome_coroutineWaitQueueSignal hf
    rcases hkind with hk | hk <;> simpa only [State.deliver, hk, Option.isSome_map] using hsig
  · have hshow := hg.sim.shown x.hd.entry
    rw [hst] at hshow
    obtain ⟨o, hdel, hrel, -, herr⟩ :=
      Hosts.deliver_giveBack s rest (server c x.lockId) x.lockId hshow.1.1
    have hnone : o.errors = [] := by
      by_cases hop : x.hd.entry.op = .lockExcl
      · exact herr hop
      · -- the counter of readers does not matter here
        obtain ⟨hask, rfl⟩ := hshow.1
        have hk := hg.inv.known x.hd.entry
        rw [hst] at hk
        exact (hrel _ (fun h => absurd h hop) hg.readers hg.sim.lock hk.1).2.2
    rw [← hreq] at hdel
    rw [hdel, State.processed, if_pos hnone]
    rfl

/-- **Mutual exclusion across the hosts**, and no message that ends a process. -/
theorem hosts_exclusive (h : State.Reachable c s) :
    (∀ a b op, a.lockId = b.lockId → s.holds a .lockExcl → s.holds b op → b = a)
      ∧ ∀ i < s.net.length, (s.step c (.deliver i)).isSome = true := by
  obtain ⟨t, hg⟩ := exists_good h
  refine ⟨fun a b op hab ha hb => ?_, fun i hi => ?_⟩
  · obtain ⟨x, hga, hx⟩ := (hg a.lockId).sim.grant_of_holds ha
    obtain ⟨y, hgb, -⟩ := (hg b.lockId).sim.grant_of_holds hb
    obtain rfl : x = true := hx.2
    rw [← hab] at hgb
    have hentry := (hg a.lockId).inv.exclusive hga hgb
    simp only [entryOf, LockQueueEntry.mk.injEq] at hentry
    obtain ⟨la, ha', ra⟩ := a
    obtain ⟨lb, hb', rb⟩ := b
    simp only [Client.mk.injEq] at hab hentry ⊢
    exact ⟨hab.symm, hentry.2.2, hentry.2.1⟩
  · have hx : s.net[i]? = some s.net[i] := List.getElem?_eq_getElem hi
    simp only [State.step, hx]
    exact (hg s.net[i].lockId).isSome_deliver (List.getElem_mem hi) _

/-- Two locks for each host. -/
def twoEach : Config := ⟨.ranges, 16, .busyLoop⟩

/-- Host 2 is the server of lock 3.  A requester of host 1 has its turn, and then one of host 2. -/
def takeTurns : List Event :=
  [.acquire ⟨3, 1, 7⟩ .lockExcl, .deliver 0, .acquire ⟨3, 2, 9⟩ .lockExcl, .deliver 0, .deliver 0,
    .poll ⟨3, 1, 7⟩, .release ⟨3, 1, 7⟩, .deliver 0, .deliver 0]

/-- The second one is done, too. -/
def tookTurns : List Event := takeTurns ++ [.poll ⟨3, 2, 9⟩, .release ⟨3, 2, 9⟩, .deliver 0]

/-- The second one has its grant. -/
theorem hosts_exclusive_second :
    ∃ s, State.Reachable twoEach s ∧ s.holds ⟨3, 2, 9⟩ .lockExcl
      ∧ ∀ b op, b.lockId = 3 → s.holds b op → b = ⟨3, 2, 9⟩ := by
  obtain ⟨s, hrun, hh⟩ : ∃ s, State.Reachable twoEach s ∧ s.holds ⟨3, 2, 9⟩ .lockExcl :=
    Reach.exists_of_runFrom takeTurns (by decide +kernel)
  exact ⟨s, hrun, hh, fun b op hb hbh => (hosts_exclusive hrun).1 _ b op hb.symm hh hbh⟩

/-- A request that holds nothing, and of which nothing is under way, waits at the server or is
none. -/
lemma Shows.rests {lockId : BitVec 32} {e : LockQueueEntry} {st : RemoteLock.Stage}
    (h : Shows c lockId s e 0 st) (hfree : ¬ s.holds (clientOf lockId e) e.op) :
    st = .idle ∨ ∃ x, st = .queued x := by
  cases st with
  | idle => exact .inl rfl
  | queued x => exact .inr ⟨x, rfl⟩
  | asking x n => exact absurd h.2.2.2.2.symm (Multiset.singleton_ne_zero _)
  | leaving x n => exact absurd h.2.2.2.symm (Multiset.singleton_ne_zero _)
  | holding x => exact absurd (.inl h.2.1) hfree
  | granted x n =>
      cases n with
      | zero => exact absurd (.inr ⟨h.2.1, h.2.2.1⟩) hfree
      | succ n =>
          obtain ⟨-, -, -, -, k, -, hk⟩ := h
          exact absurd hk.symm (Multiset.singleton_ne_zero _)

/-- Whatever a requester were doing would show in one of its requests. -/
lemma Sim.task_eq_idle {t : RemoteLock.State LockQueueEntry} {a : Client}
    (hs : Sim c a.lockId s t) (hidle : ∀ e, t.stage e = .idle) : s.task a = .idle := by
  by_contra hne
  obtain ⟨op, hop⟩ : ∃ op, (s.task a).op = some op := by
    cases ht : s.task a with
    | idle => exact absurd ht hne
    | waiting op => exact ⟨op, rfl⟩
    | sleeping op => exact ⟨op, rfl⟩
    | holding op => exact ⟨op, rfl⟩
  have hshow := hs.shown (entryOf a op)
  rw [hidle] at hshow
  exact hshow.2 hop

/-- A lock that is free, with nobody in its queue, is as new. -/
lemma eq_initLock {lq : LockQueue} (h : Represents lq .free []) : lq = initLock := by
  have hnil := List.map_eq_nil_iff.1 h.queue.symm
  cases lq with
  | mk q n st =>
      rw [initLock, LockQueue.mk.injEq]
      exact ⟨hnil, h.phase.2, h.phase.1⟩

/-- The requester that makes a call. -/
def Event.caller : Event → Option Client
  | .acquire a _ => some a
  | .poll a => some a
  | .wake a => some a
  | .release a => some a
  | .deliver _ => none

/-- A step changes what a requester is doing only if it makes a call. -/
lemma step_task {s' : State} {e : Event} {b : Client} (h : s.step c e = some s')
    (hne : e.caller ≠ some b) : s'.task b = s.task b := by
  have hupd : ∀ {a st}, some a ≠ some b → Function.update s.task a st b = s.task b := fun hab =>
    Function.update_of_ne (fun hba => hab (congrArg some hba.symm)) _ _
  cases e with
  | acquire a op =>
      simp only [State.step] at h
      split at h
      · cases h
      · split at h
        · obtain ⟨table, -, rfl⟩ := Option.map_eq_some_iff.1 h
          exact hupd hne
        · cases h
  | poll a =>
      simp only [State.step] at h
      split at h
      · split at h
        · rw [← Option.some.inj h]
          exact hupd hne
        · rw [← Option.some.inj h]
          exact hupd hne
        · cases h
      · cases h
  | wake a =>
      simp only [State.step] at h
      split at h
      · obtain ⟨r, -, rfl⟩ := Option.map_eq_some_iff.1 h
        exact hupd hne
      · cases h
  | release a =>
      simp only [State.step] at h
      split at h
      · rw [← Option.some.inj h]
        exact hupd hne
      · cases h
  | deliver i =>
      simp only [State.step] at h
      split at h
      · next x hx =>
          have hproc : ∀ {o rest}, s.processed x.dest x.lockId o rest = some s' →
              s'.task b = s.task b := by
            intro o rest ho
            obtain ⟨-, ho⟩ := Option.ite_none_right_eq_some.1 ho
            rw [← Option.some.inj ho]
            rfl
          simp only [State.deliver] at h
          split at h
          · exact hproc h
          · exact hproc h
          · exact hproc h
          · exact hproc h
          · obtain ⟨table, -, rfl⟩ := Option.map_eq_some_iff.1 h
            rfl
          · obtain ⟨table, -, rfl⟩ := Option.map_eq_some_iff.1 h
            rfl
      · cases h

/-- **Nobody is forgotten.**  When nothing of a lock is under way and nobody holds it, its
requesters are idle and the lock is as `init_lock` made it. -/
theorem hosts_all_served (h : State.Reachable c s) {lockId : BitVec 32}
    (hnet : ∀ x ∈ s.net, x.lockId ≠ lockId)
    (hfree : ∀ a op, a.lockId = lockId → ¬ s.holds a op) :
    (∀ a, a.lockId = lockId → s.task a = .idle) ∧ s.queue (server c lockId) lockId = initLock := by
  obtain ⟨t, hg⟩ := exists_good h
  have hsim := (hg lockId).sim
  have hown : ∀ e, RemoteLock.own (owner lockId) s.net e = 0 := by
    intro e
    refine RemoteLock.own_eq_zero fun x hx hox => ?_
    rw [owner, if_neg (hnet x hx)] at hox
    cases hox
  have hstage : ∀ e, (t lockId).stage e = .idle ∨ ∃ x, (t lockId).stage e = .queued x := by
    intro e
    have hshow := hsim.shown e
    rw [hown] at hshow
    exact hshow.rests (hfree (clientOf lockId e) e.op rfl)
  obtain ⟨hidle, hphase, hqueue⟩ := (hg lockId).inv.quiet hstage
  refine ⟨fun a ha => ?_, ?_⟩
  · subst ha
    exact hsim.task_eq_idle hidle
  · have hrep := hsim.lock
    rw [hphase, hqueue] at hrep
    exact eq_initLock hrep

/-- After both have had their turn. -/
theorem hosts_all_served_turns :
    ∃ s, State.Reachable twoEach s ∧ (∀ a, a.lockId = 3 → s.task a = .idle)
      ∧ s.queue (server twoEach 3) 3 = initLock := by
  obtain ⟨s, hs, hP⟩ := (Option.any_eq_true (p := fun s : State =>
      decide (s.net = [] ∧ s.task ⟨3, 1, 7⟩ = .idle ∧ s.task ⟨3, 2, 9⟩ = .idle))
    (x := runFrom (State.step twoEach) State.Fits (.init twoEach) tookTurns)).1
      (by decide +kernel)
  obtain ⟨hnet, h1, h2⟩ := of_decide_eq_true hP
  have hrun : State.Reachable twoEach s := .of_runFrom .start hs
  have hidle : ∀ a, s.task a = .idle := by
    intro a
    by_cases ha : a = ⟨3, 1, 7⟩ ∨ a = ⟨3, 2, 9⟩
    · rcases ha with rfl | rfl
      · exact h1
      · exact h2
    · have hne := not_or.1 ha
      refine runFrom_preserves (fun s => s.task a = .idle) (fun s₀ e s₁ he hidle ht => ?_) rfl hs
      refine (step_task ht ?_).trans hidle
      revert e
      simp only [tookTurns, takeTurns, List.cons_append, List.nil_append, List.forall_mem_cons,
        Event.caller, ne_eq, Option.some.injEq, eq_comm (b := a), hne, not_false_eq_true]
      simp
  refine ⟨s, hrun, hosts_all_served hrun (by simp [hnet]) fun a op _ hh => ?_⟩
  rcases hh with hh | ⟨hh | hh, -⟩ <;> rw [hidle a] at hh <;> cases hh

/-! ## How long a run can be -/

deriving instance Fintype for Client

/-- The steps that a message still causes. -/
def Flight.work (x : Flight) : ℕ :=
  if x.kind = .lockReq ∨ x.kind = .acquireLocal then 2 else 1

/-- A requester that has asked for the lock will release it. -/
def TaskState.work (st : TaskState) : ℕ := if st = .idle then 0 else 2

/-- What is left to do. -/
def State.work (s : State) : ℕ :=
  Accounting.inFlight Flight.work s.net
    + Accounting.stored (Accounting.stored fun lq : LockQueue => lq.requestQueue.length) s.queue
    + Accounting.stored TaskState.work s.task

section Work

variable {s' : State} {lq : LockQueue} {e : LockQueueEntry} {h : BitVec 8}

/-- How many are granted or wait after a request. -/
def effectSize (o : Effect) : ℕ := o.grants.length + o.lq.requestQueue.length

lemma size_exclusiveLock {n : Notice} :
    effectSize (exclusiveLock lq e n) = lq.requestQueue.length + 1 := by
  rw [exclusiveLock]
  split
  · simp [effectSize, add_comm]
  · simp [effectSize, enqueueRequest]

lemma size_sharedLock {n : Notice} :
    effectSize (sharedLock lq e n) = lq.requestQueue.length + 1 := by
  rw [sharedLock]
  split
  · simp [effectSize, add_comm]
  · simp [effectSize, enqueueRequest]

lemma length_eraseLockRequest_le (lq : LockQueue) (requester : BitVec 32) (host : BitVec 8)
    (op : LockOp) :
    (eraseLockRequest lq requester host op).1.requestQueue.length ≤ lq.requestQueue.length := by
  rw [eraseLockRequest]
  split
  · exact List.length_eraseP_le
  · exact le_rfl

lemma size_exclusiveUnlock_le : effectSize (exclusiveUnlock h lq e) ≤ lq.requestQueue.length := by
  have hlen := length_eraseLockRequest_le lq e.requester e.host e.op
  simp only [exclusiveUnlock]
  generalize eraseLockRequest lq e.requester e.host e.op = r at hlen ⊢
  refine le_trans ?_ hlen
  split
  · split
    · next head hhead =>
        have hpos : 0 < r.1.requestQueue.length := by
          rw [List.length_pos_iff_exists_mem]
          exact ⟨head, List.mem_of_head? hhead⟩
        split
        · simp only [effectSize, dequeueRequest, List.length_singleton, List.length_tail]
          omega
        · split
          · -- who waits for a shared grant gets one, the others go on waiting
            have hsplit : r.1.requestQueue.length
                = (r.1.requestQueue.filter (·.op = .lockShared)).length
                  + (r.1.requestQueue.filter (·.op ≠ .lockShared)).length := by
              rw [List.length_eq_length_filter_add fun e => decide (e.op = .lockShared)]
              simp
            simp only [effectSize, dequeueSharedRequests_eq, List.length_map]
            omega
          · simp [effectSize]
    · simp [effectSize]
  · simp [effectSize]

lemma size_sharedUnlock_le : effectSize (sharedUnlock h lq e) ≤ lq.requestQueue.length := by
  have hlen := length_eraseLockRequest_le lq e.requester e.host e.op
  simp only [sharedUnlock]
  generalize eraseLockRequest lq e.requester e.host e.op = r at hlen ⊢
  refine le_trans ?_ hlen
  split
  · split
    · simp [effectSize]
    · split
      · next head hhead =>
          have hpos : 0 < r.1.requestQueue.length := by
            rw [List.length_pos_iff_exists_mem]
            exact ⟨head, List.mem_of_head? hhead⟩
          split
          · simp only [effectSize, dequeueRequest, List.length_singleton, List.length_tail]
            omega
          · split <;> simp [effectSize]
      · simp [effectSize]
  · split <;> simp [effectSize]

/-- A message about a lock is worth what its server makes of it, and the step. -/
lemma size_le_work {x : Flight} (hx : x.kind ≠ .lockReply ∧ x.kind ≠ .signal) {rest : List Flight}
    (hd : s.deliver x rest = some s') :
    ∃ o, s' = s.after x.dest x.lockId o rest
      ∧ effectSize o + 1 ≤ (s.queue x.dest x.lockId).requestQueue.length + x.work := by
  have hproc : ∀ {o}, s.processed x.dest x.lockId o rest = some s' →
      s' = s.after x.dest x.lockId o rest := fun ho =>
    (Option.some.inj (Option.ite_none_right_eq_some.1 ho).2).symm
  cases hk : x.kind with
  | lockReq =>
      simp only [State.deliver, hk] at hd
      refine ⟨_, hproc hd, ?_⟩
      simp only [Flight.work, hk, true_or, if_true, processLockReq]
      split
      · exact (congrArg (· + 1) size_exclusiveLock).le
      · split
        · exact (congrArg (· + 1) size_sharedLock).le
        · simp [effectSize]
  | acquireLocal =>
      simp only [State.deliver, hk] at hd
      refine ⟨_, hproc hd, ?_⟩
      simp only [Flight.work, hk, or_true, if_true, acquireLockLocal]
      split
      · exact (congrArg (· + 1) size_exclusiveLock).le
      · split
        · exact (congrArg (· + 1) size_sharedLock).le
        · simp [effectSize]
  | unlockReq =>
      simp only [State.deliver, hk] at hd
      refine ⟨_, hproc hd, ?_⟩
      simp only [Flight.work, hk, reduceCtorEq, or_self, if_false, processUnlockReq]
      split
      · exact Nat.succ_le_succ size_exclusiveUnlock_le
      · split
        · exact Nat.succ_le_succ size_sharedUnlock_le
        · simp [effectSize]
  | releaseLocal =>
      simp only [State.deliver, hk] at hd
      refine ⟨_, hproc hd, ?_⟩
      simp only [Flight.work, hk, reduceCtorEq, or_self, if_false, releaseLockLocal]
      split
      · exact Nat.succ_le_succ size_exclusiveUnlock_le
      · split
        · exact Nat.succ_le_succ size_sharedUnlock_le
        · simpa [effectSize] using length_eraseLockRequest_le _ _ _ _
  | lockReply => exact absurd hk hx.1
  | signal => exact absurd hk hx.2

/-- What a server makes of a message. -/
lemma work_after {x : Flight} {i : ℕ} (hx : s.net[i]? = some x) (h : BitVec 8) (lockId : BitVec 32)
    (o : Effect) :
    (s.after h lockId o (s.net.eraseIdx i)).work + (s.queue h lockId).requestQueue.length + x.work
      = s.work + effectSize o := by
  have hnet : Accounting.inFlight Flight.work s.net
      = x.work + Accounting.inFlight Flight.work (s.net.eraseIdx i : List Flight) := by
    rw [RemoteLock.coe_eq_singleton_add hx, Accounting.inFlight_add, Accounting.inFlight_singleton]
  have hgrants : Accounting.inFlight Flight.work
      ((o.grants.map (told h lockId) ++ s.net.eraseIdx i : List Flight) : Multiset Flight)
      = o.grants.length + Accounting.inFlight Flight.work (s.net.eraseIdx i : List Flight) := by
    rw [← Multiset.coe_add, Accounting.inFlight_add]
    congr 1
    have hone : ∀ n ∈ o.grants, (told h lockId n).work = 1 := by
      intro n _
      cases n <;> simp [told, Flight.work]
    simp [Accounting.inFlight, List.map_congr_left hone, Function.comp_def]
  have hhost := Accounting.stored_update
    (Accounting.stored fun lq : LockQueue => lq.requestQueue.length) s.queue h
    (Function.update (s.queue h) lockId o.lq)
  have hlock := Accounting.stored_update (fun lq : LockQueue => lq.requestQueue.length)
    (s.queue h) lockId o.lq
  simp only [State.work, State.after, hgrants, hnet, effectSize]
  omega

/-- A task changes its state. -/
lemma work_setTask (s : State) (a : Client) (table : LockWaitTable) (st : TaskState) :
    (s.setTask a table st).work + (s.task a).work = s.work + st.work := by
  have htask := Accounting.stored_update TaskState.work s.task a st
  simp only [State.work, State.setTask]
  omega

lemma work_of_ne_idle {st : TaskState} (h : st ≠ .idle) : st.work = 2 := if_neg h

/-- A request brings its message, and what its task has left to do. -/
lemma work_acquire {a : Client} {op : LockOp} (hs : s.step c (.acquire a op) = some s') :
    s'.work ≤ s.work + 5 := by
  simp only [State.step] at hs
  split at hs
  · cases hs
  · split at hs
    · next srv _ hidle =>
        obtain ⟨table, -, rfl⟩ := Option.map_eq_some_iff.1 hs
        have hnew := work_setTask s a table (.waiting op)
        have hmsg : (request srv a op).work ≤ 2 := by
          rw [Flight.work]
          split <;> omega
        rw [work_of_ne_idle (show TaskState.waiting op ≠ .idle by simp)] at hnew
        simp only [State.work, State.setTask, ← Multiset.cons_coe, Accounting.inFlight_cons]
          at hnew ⊢
        omega
    · cases hs

/-- A task that goes on waiting, or sees its grant, has as much left to do. -/
lemma work_setTask_busy {a : Client} {st : TaskState} (hold : s.task a ≠ .idle) (hst : st ≠ .idle)
    (table : LockWaitTable) : (s.setTask a table st).work = s.work := by
  have hnew := work_setTask s a table st
  rw [work_of_ne_idle hold, work_of_ne_idle hst] at hnew
  omega

lemma work_poll {a : Client} (hs : s.step c (.poll a) = some s') : s'.work = s.work := by
  simp only [State.step] at hs
  split at hs
  · next op hwait =>
      have hold : s.task a ≠ .idle := by simp [hwait]
      split at hs
      · exact Option.some.inj hs ▸ work_setTask_busy hold (by simp) _
      · exact Option.some.inj hs ▸ work_setTask_busy hold (by simp) _
      · cases hs
  · cases hs

lemma work_wake {a : Client} (hs : s.step c (.wake a) = some s') : s'.work = s.work := by
  simp only [State.step] at hs
  split at hs
  · next op hwait =>
      obtain ⟨r, -, rfl⟩ := Option.map_eq_some_iff.1 hs
      refine work_setTask_busy (by simp [hwait]) ?_ _
      split <;> simp
  · cases hs

/-- A release is done with its task, and has its message left. -/
lemma work_release {a : Client} (hs : s.step c (.release a) = some s') :
    s'.work + 1 = s.work := by
  simp only [State.step] at hs
  split at hs
  · next op srv hhold _ =>
      rw [← Option.some.inj hs]
      have hnew := work_setTask s a (s.table a.host) .idle
      have hmsg : (giveBack srv a op).work = 1 := by
        rw [Flight.work, giveBack]
        split <;> split <;> simp_all
      rw [work_of_ne_idle (by simp [hhold]), show TaskState.idle.work = 0 from rfl] at hnew
      simp only [State.work, State.setTask, ← Multiset.cons_coe, Accounting.inFlight_cons, hmsg]
        at hnew ⊢
      omega
  · cases hs

/-- A message that arrives is worth more than what comes of it. -/
lemma work_deliver {i : ℕ} (hs : s.step c (.deliver i) = some s') : s'.work + 1 ≤ s.work := by
  simp only [State.step] at hs
  split at hs
  · next x hx =>
      by_cases hkind : x.kind ≠ .lockReply ∧ x.kind ≠ .signal
      · obtain ⟨o, rfl, hsize⟩ := size_le_work hkind hs
        have hwork := work_after hx x.dest x.lockId o
        omega
      · -- a grant sets a flag
        have hgrant : x.kind = .lockReply ∨ x.kind = .signal := by
          tauto
        have hone : x.work = 1 := by
          rcases hgrant with hk | hk <;> simp [Flight.work, hk]
        obtain ⟨table, -, rfl⟩ : ∃ table, coroutineWaitQueueSignal (s.table x.dest) x.lockId
              x.hd.lhId = some table
            ∧ { s with
                table := Function.update s.table x.dest table
                net := s.net.eraseIdx i } = s' := by
          rcases hgrant with hk | hk <;> simp only [State.deliver, hk] at hs <;>
            exact Option.map_eq_some_iff.1 hs
        have hnet : Accounting.inFlight Flight.work s.net
            = 1 + Accounting.inFlight Flight.work (s.net.eraseIdx i : List Flight) := by
          rw [RemoteLock.coe_eq_singleton_add hx, Accounting.inFlight_add,
            Accounting.inFlight_singleton, hone]
        simp only [State.work, hnet]
        omega
  · cases hs

/-- **Every step does some of the work.** -/
theorem step_work {e : Event} (hs : s.step c e = some s') :
    s'.work + e.takes ≤ s.work + e.brings := by
  cases e with
  | acquire a op =>
      show s'.work + 0 ≤ s.work + 5
      simpa using work_acquire hs
  | poll a =>
      show s'.work + 0 ≤ s.work + 0
      simpa using (work_poll hs).le
  | wake a =>
      show s'.work + 0 ≤ s.work + 0
      simpa using (work_wake hs).le
  | release a =>
      show s'.work + 1 ≤ s.work + 0
      simpa using (work_release hs).le
  | deliver i =>
      show s'.work + 1 ≤ s.work + 0
      simpa using work_deliver hs

end Work

/-- **Every request comes to an end.**  However messages are delivered, a run has at most five
deliveries and releases for each `lock_acquire_async` in it, whether its counters overflow or not. -/
theorem hosts_run_bound {es : List Event}
    (h : runFrom (State.step c) (fun _ _ => True) (.init c) es = some s) :
    es.countP Event.goesOn ≤ 5 * es.countP Event.isRequest := by
  have hstep : ∀ {s t : State} {e : Event} {s' : State}, s = t → True →
      State.step c s e = some s' → ∃ t', t'.work + e.takes ≤ t.work + e.brings ∧ s' = t' := by
    rintro s _ e s' rfl - hs
    exact ⟨s', step_work hs, rfl⟩
  have hbound := RemoteLock.run_bound hstep rfl h
  have hzero : (State.init c).work = 0 := by
    have hqueue : Accounting.stored
        (Accounting.stored fun lq : LockQueue => lq.requestQueue.length) (State.init c).queue = 0 :=
      Accounting.stored_eq_zero.2 fun _ => Accounting.stored_eq_zero.2 fun _ => rfl
    have htask : Accounting.stored TaskState.work (State.init c).task = 0 :=
      Accounting.stored_eq_zero.2 fun _ => rfl
    rw [State.work, hqueue, htask]
    rfl
  have htakes : (es.map Event.takes).sum = 1 * es.countP Event.goesOn :=
    RemoteLock.sum_map_ite Event.goesOn 1 es
  have hbrings : (es.map Event.brings).sum = 5 * es.countP Event.isRequest :=
    RemoteLock.sum_map_ite Event.isRequest 5 es
  rwa [hzero, zero_add, htakes, hbrings, one_mul] at hbound

/-- Two requests and seven deliveries and releases. -/
theorem hosts_run_bound_turns :
    tookTurns.countP Event.goesOn ≤ 5 * tookTurns.countP Event.isRequest := by
  obtain ⟨s, hs⟩ : ∃ s, runFrom (State.step twoEach) (fun _ _ => True) (.init twoEach) tookTurns
      = some s := Option.isSome_iff_exists.1 (by decide +kernel)
  exact hosts_run_bound hs

end Results

end FissLock.ParLock.Hosts
