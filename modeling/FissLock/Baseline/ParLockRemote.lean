import FissLock.Baseline.ParLockHosts

/-!
# Every step of the ParLock hosts is a step of the lock and its clients

The clients of a lock are its requests.  `Shows` is how a request looks at a stage of its way:
which message of its own is under way, what its requester is doing, and whether the flag is set.
`Sim` says that all requests of a lock look like their stages, and that the queue of its server stands
for the lock.  `step_matched` says what a step does to the lock that it is about, and `Sim.other` that
it does nothing to all others.
-/

namespace FissLock.ParLock.Hosts

open Runs ReadersWriter GrantFlags

/-! ## How requests look -/

/-- The server of a lock. -/
def server (c : Config) (lockId : BitVec 32) : BitVec 8 := (getLockServer c lockId).getD 0

/-- Who makes a request. -/
def clientOf (lockId : BitVec 32) (e : LockQueueEntry) : Client := ⟨lockId, e.host, e.requester⟩

/-- The request of a lock that a message is about. -/
def owner (lockId : BitVec 32) (x : Flight) : Option LockQueueEntry :=
  if x.lockId = lockId then some x.hd.entry else none

/-- `x` is the mode that the request asks for. -/
def Asks (e : LockQueueEntry) (x : Bool) : Prop := e.isRequest ∧ x = e.isExcl

namespace State

/-- The requester has asked for the lock, and waits. -/
def wants (s : State) (a : Client) (op : LockOp) : Prop :=
  s.task a = .waiting op ∨ s.task a = .sleeping op

lemma op_of_wants {s : State} {a : Client} {op : LockOp} (h : s.wants a op) :
    (s.task a).op = some op := by
  rcases h with h | h <;> rw [h] <;> rfl

end State

/-- How a request looks at a stage, with `ms` its messages. -/
def Shows (c : Config) (lockId : BitVec 32) (s : State) (e : LockQueueEntry)
    (ms : Multiset Flight) : RemoteLock.Stage → Prop
  | .idle => ms = 0 ∧ (s.task (clientOf lockId e)).op ≠ some e.op
  | .asking x n => Asks e x ∧ n = 0 ∧ s.wants (clientOf lockId e) e.op
      ∧ s.flag (clientOf lockId e) = some false
      ∧ ms = {request (server c lockId) (clientOf lockId e) e.op}
  | .queued x => Asks e x ∧ s.wants (clientOf lockId e) e.op
      ∧ s.flag (clientOf lockId e) = some false ∧ ms = 0
  | .granted x 0 => Asks e x ∧ s.wants (clientOf lockId e) e.op
      ∧ s.flag (clientOf lockId e) = some true ∧ ms = 0
  | .granted x (n + 1) => Asks e x ∧ n = 0 ∧ s.wants (clientOf lockId e) e.op
      ∧ s.flag (clientOf lockId e) = some false
      ∧ ∃ k, (k = .lockReply ∨ k = .signal)
        ∧ ms = {⟨e.host, k, lockId, ⟨e.op, e.host, e.requester⟩⟩}
  | .holding x => Asks e x ∧ s.task (clientOf lockId e) = .holding e.op ∧ ms = 0
  | .leaving x n => Asks e x ∧ n = 0 ∧ s.task (clientOf lockId e) = .idle
      ∧ ms = {giveBack (server c lockId) (clientOf lockId e) e.op}

/-- The hosts, and the lock with its clients. -/
structure Sim (c : Config) (lockId : BitVec 32) (s : State) (t : RemoteLock.State LockQueueEntry) :
    Prop where
  lock : Represents (s.queue (server c lockId) lockId) t.lock.phase t.lock.queue
  shown : RemoteLock.Shown (owner lockId) (Shows c lockId s) s.net t.stage

section Looks

variable {c : Config} {lockId : BitVec 32} {s s' : State} {e : LockQueueEntry}
  {ms : Multiset Flight} {st : RemoteLock.Stage} {op : LockOp}

/-- A request looks the same if its requester does the same and has the same flag. -/
lemma Shows.congr (h : Shows c lockId s e ms st)
    (htask : s'.task (clientOf lockId e) = s.task (clientOf lockId e))
    (hflag : s'.flag (clientOf lockId e) = s.flag (clientOf lockId e)) :
    Shows c lockId s' e ms st := by
  cases st with
  | granted x n => cases n <;> simpa only [Shows, State.wants, htask, hflag] using h
  | _ => simpa only [Shows, State.wants, htask, hflag] using h

/-- A requester makes one request at a time. -/
lemma Shows.idle_of_op_ne (h : Shows c lockId s e ms st)
    (ho : (s.task (clientOf lockId e)).op = some op) (hne : e.op ≠ op) : st = .idle := by
  have hwants : ¬ s.wants (clientOf lockId e) e.op := fun hw =>
    hne (Option.some.inj ((State.op_of_wants hw).symm.trans ho))
  cases st with
  | idle => rfl
  | asking x n => exact absurd h.2.2.1 hwants
  | queued x => exact absurd h.2.1 hwants
  | granted x n =>
      cases n with
      | zero => exact absurd h.2.1 hwants
      | succ n => exact absurd h.2.2.1 hwants
  | holding x =>
      rw [h.2.1] at ho
      exact absurd (Option.some.inj ho) hne
  | leaving x n =>
      rw [h.2.2.1] at ho
      cases ho

/-- A requester that does nothing and has no message under way has no request, either. -/
lemma Shows.idle_of_idle (h : Shows c lockId s e 0 st)
    (ht : s.task (clientOf lockId e) = .idle) : st = .idle := by
  have hwants : ¬ s.wants (clientOf lockId e) e.op := by
    rw [State.wants, ht]
    simp
  cases st with
  | idle => rfl
  | asking x n => exact absurd h.2.2.1 hwants
  | queued x => exact absurd h.2.1 hwants
  | granted x n =>
      cases n with
      | zero => exact absurd h.2.1 hwants
      | succ n => exact absurd h.2.2.1 hwants
  | holding x => exact absurd (ht.symm.trans h.2.1) (by simp)
  | leaving x n => exact absurd h.2.2.2.symm (Multiset.singleton_ne_zero _)

/-- A request whose requester waits, with the flag set. -/
lemma Shows.granted_of_flag (h : Shows c lockId s e ms st)
    (hw : s.wants (clientOf lockId e) e.op) (hf : s.flag (clientOf lockId e) = some true) :
    ∃ x, st = .granted x 0 ∧ Asks e x ∧ ms = 0 := by
  have hno : ¬ s.flag (clientOf lockId e) = some false := by simp [hf]
  cases st with
  | idle => exact absurd (State.op_of_wants hw) h.2
  | asking x n => exact absurd h.2.2.2.1 hno
  | queued x => exact absurd h.2.2.1 hno
  | granted x n =>
      cases n with
      | zero => exact ⟨x, rfl, h.1, h.2.2.2⟩
      | succ n => exact absurd h.2.2.2.1 hno
  | holding x => rcases hw with hw | hw <;> cases hw.symm.trans h.2.1
  | leaving x n => rcases hw with hw | hw <;> cases hw.symm.trans h.2.2.1

/-- A request whose requester holds the lock. -/
lemma Shows.holding_of_task (h : Shows c lockId s e ms st)
    (ht : s.task (clientOf lockId e) = .holding e.op) : ∃ x, st = .holding x ∧ Asks e x ∧ ms = 0 := by
  have hwants : ¬ s.wants (clientOf lockId e) e.op := by
    rw [State.wants, ht]
    simp
  cases st with
  | idle => exact absurd (congrArg TaskState.op ht) h.2
  | asking x n => exact absurd h.2.2.1 hwants
  | queued x => exact absurd h.2.1 hwants
  | granted x n =>
      cases n with
      | zero => exact absurd h.2.1 hwants
      | succ n => exact absurd h.2.2.1 hwants
  | holding x => exact ⟨x, rfl, h.1, h.2.2⟩
  | leaving x n => cases ht.symm.trans h.2.2.1

end Looks

/-! ## What a step changes -/

/-- From `s` to `s'` the requester `a` moves on: nobody else notices, and the messages that are used
and made are about its lock, whose queues alone may change. -/
structure Turn (s s' : State) (a : Client) (used made : Multiset Flight) : Prop where
  task : ∀ b, b ≠ a → s'.task b = s.task b
  flag : ∀ b, b ≠ a → s'.flag b = s.flag b
  queue : ∀ h lockId, lockId ≠ a.lockId → s'.queue h lockId = s.queue h lockId
  net : ∃ rest, (s.net : Multiset Flight) = used + rest ∧ (s'.net : Multiset Flight) = made + rest
  lock : ∀ x ∈ used + made, x.lockId = a.lockId

section Turns

variable {c : Config} {lockId : BitVec 32} {s s' : State} {t : RemoteLock.State LockQueueEntry}
  {a : Client} {e : LockQueueEntry} {used made : Multiset Flight} {st : RemoteLock.Stage}
  {l : Service LockQueueEntry}

lemma owner_eq_some {x : Flight} (hl : x.lockId = lockId) (he : x.hd.entry = e) :
    owner lockId x = some e := by
  rw [owner, if_pos hl, he]

lemma clientOf_inj {e' : LockQueueEntry} (h : clientOf lockId e' = clientOf lockId e)
    (hop : e'.op = e.op) : e' = e := by
  cases e
  cases e'
  simp only [clientOf, Client.mk.injEq] at h
  simp only at hop
  rw [hop, h.2.1, h.2.2]

/-- The other locks do not notice. -/
lemma Sim.other (hs : Sim c lockId s t) (ht : Turn s s' a used made) (hne : lockId ≠ a.lockId) :
    Sim c lockId s' t := by
  obtain ⟨rest, h1, h2⟩ := ht.net
  have hnone : ∀ x ∈ used + made, owner lockId x = none := by
    intro x hx
    rw [owner, if_neg]
    exact fun hx' => hne (hx'.symm.trans (ht.lock x hx))
  have hcl : ∀ e, clientOf lockId e ≠ a := fun e he => hne (congrArg Client.lockId he)
  have hshown := hs.shown
  rw [h1] at hshown
  refine ⟨by rw [ht.queue _ _ hne]; exact hs.lock, ?_⟩
  rw [h2]
  refine hshown.foreign (fun x hx => hnone x (Multiset.mem_add.2 (.inl hx)))
    (fun x hx => hnone x (Multiset.mem_add.2 (.inr hx))) fun e ms hm => ?_
  exact hm.congr (ht.task _ (hcl e)) (ht.flag _ (hcl e))

/-- A request of the requester moves on. -/
lemma Sim.turn (hs : Sim c lockId s t) (ht : Turn s s' (clientOf lockId e) used made)
    (hown : RemoteLock.own (owner lockId) s.net e = used) (hmade : ∀ x ∈ made, x.hd.entry = e)
    (hlock : Represents (s'.queue (server c lockId) lockId) l.phase l.queue)
    (hself : Shows c lockId s' e made st)
    (hothers : ∀ e', e' ≠ e → clientOf lockId e' = clientOf lockId e → ∀ ms,
      Shows c lockId s e' ms (t.stage e') → Shows c lockId s' e' ms (t.stage e')) :
    Sim c lockId s' ⟨l, Function.update t.stage e st⟩ := by
  obtain ⟨rest, h1, h2⟩ := ht.net
  have hshown := hs.shown
  rw [h1] at hshown hown
  refine ⟨hlock, ?_⟩
  rw [h2]
  refine hshown.turn hown (fun x hx => owner_eq_some ?_ (hmade x hx)) hself fun b hb ms hm => ?_
  · exact ht.lock x (Multiset.mem_add.2 (.inr hx))
  · by_cases hcl : clientOf lockId b = clientOf lockId e
    · exact hothers b hb hcl ms hm
    · exact hm.congr (ht.task _ hcl) (ht.flag _ hcl)

/-- The requester moves on without its requests. -/
lemma Sim.still (hs : Sim c lockId s t) (ht : Turn s s' (clientOf lockId e) 0 0)
    (hlock : s'.queue (server c lockId) lockId = s.queue (server c lockId) lockId)
    (hall : ∀ e', clientOf lockId e' = clientOf lockId e → ∀ ms,
      Shows c lockId s e' ms (t.stage e') → Shows c lockId s' e' ms (t.stage e')) :
    Sim c lockId s' t := by
  obtain ⟨rest, h1, h2⟩ := ht.net
  have hshown := hs.shown
  rw [h1] at hshown
  refine ⟨by rw [hlock]; exact hs.lock, ?_⟩
  rw [h2]
  refine hshown.foreign (by simp) (by simp) fun b ms hm => ?_
  by_cases hcl : clientOf lockId b = clientOf lockId e
  · exact hall b hcl ms hm
  · exact hm.congr (ht.task _ hcl) (ht.flag _ hcl)

/-- While a requester is busy with one request, its others look idle. -/
lemma Sim.others_idle (hs : Sim c lockId s t) {op : LockOp}
    (ho : (s.task (clientOf lockId e)).op = some op) (hop : e.op = op)
    (hop' : ∀ op', (s'.task (clientOf lockId e)).op = some op' → op' = op) :
    ∀ e', e' ≠ e → clientOf lockId e' = clientOf lockId e → ∀ ms,
      Shows c lockId s e' ms (t.stage e') → Shows c lockId s' e' ms (t.stage e') := by
  intro e' hne hcl ms hm
  have hope : e'.op ≠ op := fun h => hne (clientOf_inj hcl (h.trans hop.symm))
  have hidle : t.stage e' = .idle := (hs.shown e').idle_of_op_ne (hcl ▸ ho) hope
  rw [hidle] at hm ⊢
  refine ⟨hm.1, fun h => hope ?_⟩
  rw [hcl] at h
  exact hop' _ h

/-! ## What the server does -/

/-- Grants are told by what `grantWaiter` says. -/
def Tells (h : BitVec 8) (o : Effect) : Prop := ∀ n ∈ o.grants, n = grantWaiter h n.entry

variable {h : BitVec 8} {lq : LockQueue} {o : Effect} {x : Bool}

lemma tells_grantWaiter (e : LockQueueEntry) :
    grantWaiter h e = grantWaiter h (grantWaiter h e).entry := by
  rw [grantWaiter_entry]

lemma tells_exclusiveLock {n : Notice} (hn : n = grantWaiter h n.entry) :
    Tells h (exclusiveLock lq e n) := by
  intro n' hn'
  rw [exclusiveLock] at hn'
  split at hn'
  · rw [List.mem_singleton.1 hn']
    exact hn
  · cases hn'

lemma tells_sharedLock {n : Notice} (hn : n = grantWaiter h n.entry) :
    Tells h (sharedLock lq e n) := by
  intro n' hn'
  rw [sharedLock] at hn'
  split at hn'
  · rw [List.mem_singleton.1 hn']
    exact hn
  · cases hn'

lemma tells_exclusiveUnlock : Tells h (exclusiveUnlock h lq e) := by
  intro n hn
  obtain ⟨e', rfl⟩ : ∃ e', n = grantWaiter h e' := by
    simp only [exclusiveUnlock] at hn
    split at hn
    · split at hn
      · split at hn
        · exact ⟨_, List.mem_singleton.1 hn⟩
        · split at hn
          · obtain ⟨e', -, rfl⟩ := List.mem_map.1 hn
            exact ⟨e', rfl⟩
          · cases hn
      · cases hn
    · cases hn
  exact tells_grantWaiter e'

lemma tells_sharedUnlock : Tells h (sharedUnlock h lq e) := by
  intro n hn
  obtain ⟨e', rfl⟩ : ∃ e', n = grantWaiter h e' := by
    simp only [sharedUnlock] at hn
    split at hn
    · split at hn
      · cases hn
      · split at hn
        · split at hn
          · exact ⟨_, List.mem_singleton.1 hn⟩
          · split at hn <;> cases hn
        · cases hn
    · split at hn <;> cases hn
  exact tells_grantWaiter e'

lemma flightFits_request {srv : BitVec 8} :
    s.FlightFits (request srv (clientOf lockId e) e.op) ↔ AcquireFits (s.queue srv lockId) e := by
  by_cases hsrv : srv = e.host
  · subst hsrv
    simp [State.FlightFits, request, clientOf, Flight.entry]
  · simp [State.FlightFits, request, clientOf, Flight.entry, hsrv]

lemma flightFits_giveBack {srv : BitVec 8} :
    s.FlightFits (giveBack srv (clientOf lockId e) e.op) ↔ ReleaseFits (s.queue srv lockId) e := by
  by_cases hsrv : srv = e.host
  · subst hsrv
    simp [State.FlightFits, giveBack, clientOf, Flight.entry]
  · simp [State.FlightFits, giveBack, clientOf, Flight.entry, hsrv]

lemma errors_exclusiveLock {n : Notice} : (exclusiveLock lq e n).errors = [] := by
  rw [exclusiveLock]
  split <;> rfl

lemma errors_sharedLock {n : Notice} : (sharedLock lq e n).errors = [] := by
  rw [sharedLock]
  split <;> rfl

lemma errors_exclusiveUnlock : (exclusiveUnlock h lq e).errors = [] := by
  simp only [exclusiveUnlock]
  split
  · split
    · split
      · rfl
      · split <;> rfl
    · rfl
  · rfl

/-- A request reaches the server, in a packet or as a call. -/
lemma deliver_request (s : State) (rest : List Flight) (srv : BitVec 8) (lockId : BitVec 32)
    (he : e.isRequest) :
    ∃ o, s.deliver (request srv (clientOf lockId e) e.op) rest = s.processed srv lockId o rest
      ∧ AcquireMatches (s.queue srv lockId) e o ∧ Tells srv o ∧ o.errors = [] := by
  by_cases hsrv : srv = e.host
  · subst hsrv
    refine ⟨acquireLockLocal e.host (s.queue e.host lockId) e.requester e.op, ?_,
      acquireLockLocal_matches he, ?_⟩
    · simp [request, clientOf, State.deliver]
    · have hn : Notice.signal e = grantWaiter e.host (Notice.signal e).entry := by
        simp [grantWaiter, Notice.entry]
      rw [acquireLockLocal]
      rcases he with he | he
      · rw [if_neg (by simp [he]), if_pos he]
        exact ⟨tells_sharedLock hn, errors_sharedLock⟩
      · rw [if_pos he]
        exact ⟨tells_exclusiveLock hn, errors_exclusiveLock⟩
  · refine ⟨processLockReq (s.queue srv lockId) ⟨e.op, e.host, e.requester⟩, ?_,
      ?_, ?_⟩
    · simp [request, clientOf, State.deliver, hsrv]
    · exact @processLockReq_matches _ ⟨e.op, e.host, e.requester⟩ he
    · have hn : Notice.reply e = grantWaiter srv (Notice.reply e).entry := by
        simp [grantWaiter, Notice.entry, Ne.symm hsrv]
      rcases he with he | he
      · simp only [processLockReq, he, reduceCtorEq, if_false, if_true]
        exact ⟨tells_sharedLock (by simpa [LockPostHeader.entry, ← he] using hn), errors_sharedLock⟩
      · simp only [processLockReq, he, if_true]
        exact ⟨tells_exclusiveLock (by simpa [LockPostHeader.entry, ← he] using hn),
          errors_exclusiveLock⟩

/-- A release reaches the server. -/
lemma deliver_giveBack (s : State) (rest : List Flight) (srv : BitVec 8) (lockId : BitVec 32)
    (he : e.isRequest) :
    ∃ o, s.deliver (giveBack srv (clientOf lockId e) e.op) rest = s.processed srv lockId o rest
      ∧ ReleaseMatches (s.queue srv lockId) e o ∧ Tells srv o
      ∧ (e.op = .lockExcl → o.errors = []) := by
  by_cases hsrv : srv = e.host
  · subst hsrv
    refine ⟨releaseLockLocal e.host (s.queue e.host lockId) e.requester e.op, ?_,
      releaseLockLocal_matches he, ?_⟩
    · simp [giveBack, clientOf, State.deliver]
    · rw [releaseLockLocal]
      rcases he with he | he
      · rw [if_neg (by simp [he]), if_pos he]
        exact ⟨tells_sharedUnlock, fun hx => by cases he.symm.trans hx⟩
      · rw [if_pos he]
        exact ⟨tells_exclusiveUnlock, fun _ => errors_exclusiveUnlock⟩
  · refine ⟨processUnlockReq srv (s.queue srv lockId) ⟨e.op, e.host, e.requester⟩, ?_,
      ?_, ?_⟩
    · simp [giveBack, clientOf, State.deliver, hsrv]
    · exact @processUnlockReq_matches _ _ ⟨e.op, e.host, e.requester⟩ he
    · rcases he with he | he
      · simp only [processUnlockReq, he, reduceCtorEq, if_false, if_true]
        exact ⟨tells_sharedUnlock, fun hx => by cases hx⟩
      · simp only [processUnlockReq, he, if_true]
        exact ⟨tells_exclusiveUnlock, fun _ => errors_exclusiveUnlock⟩

end Turns

/-! ## What the requesters do -/

instance : Fintype LockOp where
  elems := {.free, .release, .lockShared, .lockExcl}
  complete op := by cases op <;> decide

deriving instance Fintype for LockQueueEntry

/-- What a step of the hosts does to its lock: some steps of the lock and its clients. -/
def Matched (c : Config) (lockId : BitVec 32) (s' : State) (t : RemoteLock.State LockQueueEntry)
    (k b : ℕ) : Prop :=
  ∃ t', RemoteLock.Advance 0 1 t t' k b ∧ Sim c lockId s' t'

section Tables

variable {table table' : LockWaitTable} {lockId requester : BitVec 32} {b : Bool}

lemma flag_of_returns {m : WaitMechanism}
    (h : coroutineWaitQueueWait m table lockId requester = some (.returns true)) :
    flagOf table lockId requester = some true := by
  cases hl : table lockId with
  | none => simp [coroutineWaitQueueWait, hl] at h
  | some waitFlag =>
      cases hr : waitFlag requester with
      | none => simp [coroutineWaitQueueWait, hl, hr] at h
      | some flag =>
          have hf : flagOf table lockId requester = some flag := by simp [flagOf, hl, hr]
          cases m with
          | busyLoop =>
              simp only [coroutineWaitQueueWait, hl, hr, Option.some.injEq, Poll.returns.injEq] at h
              rw [hf, h]
          | condVar =>
              cases flag with
              | true => exact hf
              | false => simp [coroutineWaitQueueWait, hl, hr] at h

/-- The end of a wait reports the flag, unsets it and leaves all others. -/
lemma waitForEnd_cases (h : waitForEnd table lockId requester = some (b, table')) :
    flagOf table lockId requester = some b
      ∧ ∀ l r, ¬ (l = lockId ∧ r = requester) → flagOf table' l r = flagOf table l r := by
  cases hl : table lockId with
  | none => simp [waitForEnd, hl] at h
  | some waitFlag =>
      rcases hr : waitFlag requester with _ | _ | _
      · simp [waitForEnd, hl, hr] at h
      · simp only [waitForEnd, hl, hr, Option.some.injEq, Prod.mk.injEq] at h
        obtain ⟨rfl, rfl⟩ := h
        exact ⟨by simp [flagOf, hl, hr], fun _ _ _ => rfl⟩
      · simp only [waitForEnd, hl, hr, Option.some.injEq, Prod.mk.injEq] at h
        obtain ⟨rfl, rfl⟩ := h
        refine ⟨by simp [flagOf, hl, hr], fun l r hlr => ?_⟩
        rw [flagOf_update hl, if_neg hlr]

/-- A wait that ends without a grant leaves the table as it is. -/
lemma waitForEnd_false (h : waitForEnd table lockId requester = some (false, table')) :
    table' = table := by
  simp only [waitForEnd] at h
  split at h
  · cases h
  · split at h
    · cases h
    · cases h
    · exact (Prod.mk.inj (Option.some.inj h)).2.symm

end Tables

section Calls

variable {c : Config} {s s' : State} {t : RemoteLock.State LockQueueEntry} {a : Client}
  {op : LockOp} {table : LockWaitTable} {st : TaskState}

/-- The request that `a` makes with the operator `op`. -/
def entryOf (a : Client) (op : LockOp) : LockQueueEntry := ⟨op, a.requester, a.host⟩

lemma client_of_owner {x : Flight} {lockId : BitVec 32} {e : LockQueueEntry}
    (h : owner lockId x = some e) : x.client = clientOf lockId e := by
  rw [owner] at h
  split at h
  · next hl =>
      rw [← Option.some.inj h, ← hl]
      rfl
  · cases h

/-- Only the flag of `a` is another one. -/
lemma flag_update (ht : ∀ l r, ¬ (l = a.lockId ∧ r = a.requester) →
      flagOf table l r = flagOf (s.table a.host) l r) (b : Client) (hb : b ≠ a) :
    flagOf (Function.update s.table a.host table b.host) b.lockId b.requester = s.flag b := by
  by_cases hh : b.host = a.host
  · rw [hh, Function.update_self, ht, State.flag, hh]
    rintro ⟨hl, hr⟩
    cases a
    cases b
    exact hb (by simp_all)
  · rw [Function.update_of_ne hh]
    rfl

/-- The requester makes a call. -/
lemma turn_setTask (ht : ∀ l r, ¬ (l = a.lockId ∧ r = a.requester) →
      flagOf table l r = flagOf (s.table a.host) l r) : Turn s (s.setTask a table st) a 0 0 where
  task _ hb := Function.update_of_ne hb _ _
  flag := flag_update ht
  queue _ _ _ := rfl
  net := ⟨s.net, by simp, by simp [State.setTask]⟩
  lock := by simp

/-- What a call sends. -/
lemma Turn.send (ht : Turn s s' a 0 0) {x : Flight} (hx : x.lockId = a.lockId) :
    Turn s { s' with net := x :: s'.net } a 0 {x} where
  task := ht.task
  flag := ht.flag
  queue := ht.queue
  net := by
    obtain ⟨rest, h1, h2⟩ := ht.net
    refine ⟨rest, h1, ?_⟩
    rw [zero_add] at h2
    rw [← h2, Multiset.singleton_add]
    rfl
  lock y hy := by
    rw [zero_add, Multiset.mem_singleton] at hy
    rw [hy, hx]

/-- `lock_acquire_async`. -/
lemma step_acquire (h : s.step c (.acquire a op) = some s') :
    (∃ used made, Turn s s' a used made)
      ∧ (Sim c a.lockId s t → Matched c a.lockId s' t 0 5) := by
  simp only [State.step] at h
  split at h
  · cases h
  · next srv hsrv =>
      split at h
      · next hpre =>
          obtain ⟨hop, hidle, hnet, hflag⟩ := hpre
          obtain ⟨table, hadd, rfl⟩ := Option.map_eq_some_iff.1 h
          have hf := fun l r => flagOf_addToWaitQueue hadd l r
          have hturn : Turn s { s.setTask a table (.waiting op) with net := request srv a op :: s.net }
              a 0 {request srv a op} := (turn_setTask fun l r hlr => by rw [hf, if_neg hlr]).send rfl
          refine ⟨⟨_, _, hturn⟩, fun hs => ?_⟩
          -- nothing of this requester is under way
          have hown : ∀ e, clientOf a.lockId e = a → RemoteLock.own (owner a.lockId) s.net e = 0 := by
            intro e he
            refine RemoteLock.own_eq_zero fun x hx hox => ?_
            have := List.all_eq_true.1 hnet x hx
            rw [client_of_owner hox, he] at this
            simp at this
          have hstage : ∀ e, clientOf a.lockId e = a → t.stage e = .idle := fun e he =>
            Shows.idle_of_idle (hown e he ▸ hs.shown e) (he ▸ hidle)
          refine ⟨t.setStage (entryOf a op) (.asking (entryOf a op).isExcl 0),
            .ask (hstage (entryOf a op) rfl) (Nat.le_refl 0), ?_⟩
          refine hs.turn hturn (hown _ rfl) (fun x hx => ?_) hs.lock ?_ fun e' hne hcl ms hm => ?_
          · rw [Multiset.mem_singleton.1 hx]
            rfl
          · refine ⟨⟨hop, rfl⟩, rfl, .inl (Function.update_self ..), ?_, ?_⟩
            · show flagOf (Function.update s.table a.host table a.host) a.lockId a.requester = some false
              rw [Function.update_self, hf, if_pos ⟨rfl, rfl⟩]
              cases hb : flagOf (s.table a.host) a.lockId a.requester with
              | none => rfl
              | some b =>
                  cases b with
                  | false => rfl
                  | true => exact absurd hb hflag
            · rw [server, hsrv]
              rfl
          · rw [hstage e' hcl] at hm ⊢
            have hcl' : clientOf a.lockId e' = clientOf a.lockId (entryOf a op) := hcl
            refine ⟨hm.1, fun ho => hne (clientOf_inj hcl' ?_)⟩
            rw [hcl] at ho
            have htask : (s.setTask a table (.waiting op)).task a = .waiting op :=
              Function.update_self ..
            exact (Option.some.inj ((congrArg TaskState.op htask).symm.trans ho)).symm
      · cases h

/-- Between the two ways to wait. -/
lemma Shows.of_waits {lockId : BitVec 32} {e : LockQueueEntry} {ms : Multiset Flight}
    {st : RemoteLock.Stage} (h : Shows c lockId s e ms st) (op : LockOp)
    (hw : s.wants (clientOf lockId e) op) (hw' : s'.wants (clientOf lockId e) op)
    (hflag : s'.flag (clientOf lockId e) = s.flag (clientOf lockId e)) :
    Shows c lockId s' e ms st := by
  have hkeep : s.wants (clientOf lockId e) e.op → s'.wants (clientOf lockId e) e.op := fun h' =>
    Option.some.inj ((State.op_of_wants hw).symm.trans (State.op_of_wants h')) ▸ hw'
  cases st with
  | idle =>
      refine ⟨h.1, ?_⟩
      rw [State.op_of_wants hw', ← State.op_of_wants hw]
      exact h.2
  | asking x n => exact ⟨h.1, h.2.1, hkeep h.2.2.1, hflag.trans h.2.2.2.1, h.2.2.2.2⟩
  | queued x => exact ⟨h.1, hkeep h.2.1, hflag.trans h.2.2.1, h.2.2.2⟩
  | granted x n =>
      cases n with
      | zero => exact ⟨h.1, hkeep h.2.1, hflag.trans h.2.2.1, h.2.2.2⟩
      | succ n => exact ⟨h.1, h.2.1, hkeep h.2.2.1, hflag.trans h.2.2.2.1, h.2.2.2.2⟩
  | holding x => rcases hw with hw | hw <;> cases hw.symm.trans h.2.1
  | leaving x n => rcases hw with hw | hw <;> cases hw.symm.trans h.2.2.1

/-- The requester has seen its grant. -/
lemma Sim.notice (hs : Sim c a.lockId s t) (hw : s.wants a op) (hf : s.flag a = some true)
    (hturn : Turn s (s.setTask a table (.holding op)) a 0 0) :
    Matched c a.lockId (s.setTask a table (.holding op)) t 0 0 := by
  obtain ⟨x, hst, hask, hown⟩ := (hs.shown (entryOf a op)).granted_of_flag hw hf
  have htask : (s.setTask a table (.holding op)).task a = .holding op := Function.update_self ..
  refine ⟨t.setStage (entryOf a op) (.holding x), (RemoteLock.Advance.notice hst).mono
    (Nat.zero_le 1) le_rfl, ?_⟩
  refine hs.turn hturn hown (by simp) hs.lock ⟨hask, htask, rfl⟩
    (hs.others_idle (State.op_of_wants hw) rfl fun op' h => ?_)
  exact (Option.some.inj ((congrArg TaskState.op htask).symm.trans h)).symm

/-- `lock_req_granted`, until it returns true or waits. -/
lemma step_poll (h : s.step c (.poll a) = some s') :
    (∃ used made, Turn s s' a used made)
      ∧ (Sim c a.lockId s t → Matched c a.lockId s' t 0 0) := by
  have hturn : ∀ st, Turn s (s.setTask a (s.table a.host) st) a 0 0 := fun st =>
    turn_setTask fun _ _ _ => rfl
  simp only [State.step, lockIdOf_lockReq, requesterOf_lockReq] at h
  split at h
  · next op htask =>
      split at h
      · next hret =>
          rw [← Option.some.inj h]
          exact ⟨⟨_, _, hturn _⟩, fun hs => hs.notice (.inl htask) (flag_of_returns hret) (hturn _)⟩
      · rw [← Option.some.inj h]
        refine ⟨⟨_, _, hturn _⟩, fun hs => ⟨t, ⟨.start, le_rfl⟩, ?_⟩⟩
        refine hs.still (e := entryOf a op) (hturn _) rfl fun e' hcl ms hm => ?_
        refine hm.of_waits op ?_ ?_ ?_
        · rw [hcl]
          exact .inl htask
        · rw [hcl]
          exact .inr (Function.update_self ..)
        · rw [hcl]
          exact congrArg (fun table => flagOf table a.lockId a.requester) (Function.update_self ..)
      · cases h
  · cases h

/-- The end of its wait. -/
lemma step_wake (h : s.step c (.wake a) = some s') :
    (∃ used made, Turn s s' a used made)
      ∧ (Sim c a.lockId s t → Matched c a.lockId s' t 0 0) := by
  simp only [State.step] at h
  split at h
  · next op htask =>
      obtain ⟨⟨b, table⟩, hend, rfl⟩ := Option.map_eq_some_iff.1 h
      obtain ⟨hflag, hothers⟩ := waitForEnd_cases hend
      have hturn : ∀ st, Turn s (s.setTask a table st) a 0 0 := fun st => turn_setTask hothers
      refine ⟨⟨_, _, hturn _⟩, fun hs => ?_⟩
      cases b with
      | true => exact hs.notice (.inr htask) hflag (hturn _)
      | false =>
          refine ⟨t, ⟨.start, le_rfl⟩, ?_⟩
          refine hs.still (e := entryOf a op) (hturn _) rfl fun e' hcl ms hm => ?_
          refine hm.of_waits op ?_ ?_ ?_
          · rw [hcl]
            exact .inr htask
          · rw [hcl]
            exact .inl (Function.update_self ..)
          · rw [hcl]
            show flagOf (Function.update s.table a.host table a.host) a.lockId a.requester = _
            rw [Function.update_self, waitForEnd_false hend]
            rfl
  · cases h

/-- `lock_release`. -/
lemma step_release (h : s.step c (.release a) = some s') :
    (∃ used made, Turn s s' a used made)
      ∧ (Sim c a.lockId s t → Matched c a.lockId s' t 1 0) := by
  simp only [State.step] at h
  split at h
  · next op srv htask hsrv =>
      rw [← Option.some.inj h]
      have hturn : Turn s { s with
          net := giveBack srv a op :: s.net
          task := Function.update s.task a .idle } a 0 {giveBack srv a op} := by
        refine ⟨fun b hb => Function.update_of_ne hb _ _, fun _ _ => rfl, fun _ _ _ => rfl,
          ⟨s.net, by simp, ?_⟩, fun x hx => ?_⟩
        · rw [Multiset.singleton_add]
          rfl
        · rw [zero_add, Multiset.mem_singleton] at hx
          rw [hx]
          rfl
      refine ⟨⟨_, _, hturn⟩, fun hs => ?_⟩
      obtain ⟨x, hst, hask, hown⟩ := (hs.shown (entryOf a op)).holding_of_task htask
      refine ⟨t.setStage (entryOf a op) (.leaving x 0), .leave hst le_rfl, ?_⟩
      refine hs.turn hturn hown (fun y hy => ?_) hs.lock ⟨hask, rfl, Function.update_self .., ?_⟩
        (hs.others_idle (congrArg TaskState.op htask) rfl fun op' ho => ?_)
      · rw [Multiset.mem_singleton.1 hy]
        rfl
      · rw [server, hsrv]
        rfl
      · have hidle : Function.update s.task a .idle a = .idle := Function.update_self ..
        cases (congrArg TaskState.op hidle).symm.trans ho
  · cases h

end Calls

/-! ## What is delivered -/

/-- The hosts and a lock that lets no reader wait for readers. -/
structure Good (c : Config) (lockId : BitVec 32) (s : State) (t : RemoteLock.State LockQueueEntry) :
    Prop where
  sim : Sim c lockId s t
  inv : RemoteLock.Inv t
  readers : ReaderFirst t.lock

section Deliveries

variable {c : Config} {s s' : State} {t : RemoteLock.State LockQueueEntry} {x : Flight} {i : ℕ}
  {lockId : BitVec 32} {e : LockQueueEntry} {b : Bool}

/-- Notices are sent to requests that wait. -/
lemma Sim.grants {ns : List Notice} {l : Service LockQueueEntry} {stage : LockQueueEntry → _}
    (hlock : Represents (s.queue (server c lockId) lockId) l.phase l.queue)
    (htells : ∀ n ∈ ns, n = grantWaiter (server c lockId) n.entry)
    (hshown : RemoteLock.Shown (owner lockId) (Shows c lockId s)
      (((ns.map Notice.entry).map fun e =>
        told (server c lockId) lockId (grantWaiter (server c lockId) e) : List Flight) + s.net) stage) :
    Sim c lockId { s with net := ns.map (told (server c lockId) lockId) ++ s.net } ⟨l, stage⟩ := by
  refine ⟨hlock, ?_⟩
  have hns : (ns.map Notice.entry).map (fun e =>
      told (server c lockId) lockId (grantWaiter (server c lockId) e))
      = ns.map (told (server c lockId) lockId) := by
    rw [List.map_map]
    exact List.map_congr_left fun n hn => by rw [Function.comp_apply, ← htells n hn]
  rw [hns, Multiset.coe_add] at hshown
  exact hshown

lemma owner_told (e : LockQueueEntry) (h : BitVec 8) :
    owner lockId (told h lockId (grantWaiter h e)) = some e := by
  rw [grantWaiter]
  split <;> exact if_pos rfl

/-- A request that is sent its grant. -/
lemma shows_told {y : Bool} {ms : Multiset Flight} (h : Shows c lockId s e ms (.queued y)) :
    Shows c lockId s e
      ({told (server c lockId) lockId (grantWaiter (server c lockId) e)} + ms) (.granted y 1) := by
  obtain ⟨hask, hw, hf, rfl⟩ := h
  rw [add_zero, grantWaiter]
  split
  · next hh =>
      refine ⟨hask, rfl, hw, hf, .signal, .inr rfl, ?_⟩
      rw [told, ← hh]
  · exact ⟨hask, rfl, hw, hf, .lockReply, .inl rfl, rfl⟩

/-- What the server does when a message of `x` has arrived: it changes its queue and sends grants. -/
lemma turn_after (hx : s.net[i]? = some x) (srv : BitVec 8) (o : Effect) :
    Turn s (s.after srv x.lockId o (s.net.eraseIdx i)) x.client {x}
      (o.grants.map (told srv x.lockId) : List Flight) := by
  refine ⟨fun _ _ => rfl, fun _ _ => rfl, fun h l hl => ?_,
    ⟨s.net.eraseIdx i, RemoteLock.coe_eq_singleton_add hx, by simp [State.after]⟩, fun y hy => ?_⟩
  · show Function.update s.queue srv (Function.update (s.queue srv) x.lockId o.lq) h l = _
    by_cases hh : h = srv
    · rw [hh, Function.update_self]
      exact Function.update_of_ne hl _ _
    · rw [Function.update_of_ne hh]
  · rcases Multiset.mem_add.1 hy with hy | hy
    · rw [Multiset.mem_singleton.1 hy]
      rfl
    · obtain ⟨n, -, rfl⟩ := List.mem_map.1 (Multiset.mem_coe.1 hy)
      cases n <;> rfl

/-- The lock has changed at the server, the message is used up, and the grants are not yet sent. -/
lemma Sim.reached (hs : Sim c lockId s t) (hx : s.net[i]? = some x) (hl : x.lockId = lockId)
    (hown : RemoteLock.own (owner lockId) s.net x.hd.entry = {x}) {lq : LockQueue}
    {l : Service LockQueueEntry} (hlock : Represents lq l.phase l.queue) {st : RemoteLock.Stage}
    (hself : Shows c lockId s x.hd.entry 0 st) :
    Sim c lockId { s with
        queue := Function.update s.queue (server c lockId)
          (Function.update (s.queue (server c lockId)) lockId lq)
        net := s.net.eraseIdx i }
      ⟨l, Function.update t.stage x.hd.entry st⟩ := by
  subst hl
  have hturn := turn_after hx (server c x.lockId) ⟨lq, [], []⟩
  refine hs.turn hturn hown (by simp) ?_ hself fun e' _ _ ms hm => hm.congr rfl rfl
  show Represents (Function.update s.queue _ (Function.update _ x.lockId lq) _ _) _ _
  rw [Function.update_self, Function.update_self]
  exact hlock

/-- A request arrives at its server. -/
lemma Good.deliver_request (hg : Good c x.lockId s t) (hx : s.net[i]? = some x)
    (hfits : s.FlightFits x) (h : s.deliver x (s.net.eraseIdx i) = some s')
    (hown : RemoteLock.own (owner x.lockId) s.net x.hd.entry = {x})
    (hst : t.stage x.hd.entry = .asking b 0)
    (hreq : x = request (server c x.lockId) (clientOf x.lockId x.hd.entry) x.hd.entry.op) :
    (∃ used made, Turn s s' x.client used made) ∧ Matched c x.lockId s' t 1 0 := by
  have hshow := hg.sim.shown x.hd.entry
  rw [hst] at hshow
  obtain ⟨⟨hask, rfl⟩, -, hw, hf, -⟩ := hshow
  obtain ⟨o, hdel, hacq, htells, herr⟩ := Hosts.deliver_request s (s.net.eraseIdx i)
    (server c x.lockId) x.lockId hask
  rw [← hreq, h, State.processed, if_pos herr, Option.some.injEq] at hdel
  rw [hreq] at hfits
  refine ⟨⟨_, _, hdel ▸ turn_after hx _ o⟩, ?_⟩
  have hk := hg.inv.known x.hd.entry
  rw [hst] at hk
  have hfree : x.hd.entry ∉ t.lock.phase.owners := fun hmem => by
    have hmode := hg.inv.lock.mode _ hmem
    rw [show t.lock.hist.request x.hd.entry = none from hk] at hmode
    cases hmode
  obtain ⟨hrep, hgr, -⟩ := hacq _ _ (flightFits_request.1 hfits) hg.sim.lock hfree
  have hqueued : Shows c x.lockId s x.hd.entry 0 (.queued x.hd.entry.isExcl) :=
    ⟨⟨hask, rfl⟩, hw, hf, rfl⟩
  have hreached := hg.sim.reached hx rfl hown (l := (t.arrive 1 x.hd.entry x.hd.entry.isExcl).lock)
    hrep hqueued
  refine ⟨t.arrive 1 x.hd.entry x.hd.entry.isExcl, .arrive hst, ?_⟩
  rw [hdel]
  refine Sim.grants hreached.lock htells ?_
  rw [hgr]
  exact hreached.shown.arrive hg.inv hst (fun e => owner_told e _) fun e y ms => shows_told

/-- A release arrives at its server. -/
lemma Good.deliver_giveBack (hg : Good c x.lockId s t) (hx : s.net[i]? = some x)
    (hfits : s.FlightFits x) (h : s.deliver x (s.net.eraseIdx i) = some s')
    (hown : RemoteLock.own (owner x.lockId) s.net x.hd.entry = {x})
    (hst : t.stage x.hd.entry = .leaving b 0)
    (hreq : x = giveBack (server c x.lockId) (clientOf x.lockId x.hd.entry) x.hd.entry.op) :
    (∃ used made, Turn s s' x.client used made) ∧ Matched c x.lockId s' t 1 0 := by
  have hshow := hg.sim.shown x.hd.entry
  rw [hst] at hshow
  obtain ⟨⟨hask, rfl⟩, -, htask, -⟩ := hshow
  obtain ⟨o, hdel, hrel, htells, -⟩ := Hosts.deliver_giveBack s (s.net.eraseIdx i)
    (server c x.lockId) x.lockId hask
  rw [← hreq, h, State.processed] at hdel
  obtain ⟨-, hdel⟩ := Option.ite_none_right_eq_some.1 hdel.symm
  rw [Option.some.injEq, eq_comm] at hdel
  rw [hreq] at hfits
  refine ⟨⟨_, _, hdel ▸ turn_after hx _ o⟩, ?_⟩
  have hk := hg.inv.known x.hd.entry
  rw [hst] at hk
  have hleave : leave t.lock x.hd.entry = release t.lock.phase t.lock.queue x.hd.entry := by
    rw [leave, if_pos (by rw [hk.2]; exact Nat.one_pos)]
  obtain ⟨hrep, hgr, -⟩ := hrel _ (flightFits_giveBack.1 hfits) hg.readers hg.sim.lock hk.1
  rw [hleave] at hrep hgr
  have hidle : Shows c x.lockId s x.hd.entry 0 .idle := by
    refine ⟨rfl, ?_⟩
    rw [htask]
    rintro ⟨⟩
  have hreached := hg.sim.reached hx rfl hown (l := (t.left 1 x.hd.entry).lock) hrep hidle
  refine ⟨t.left 1 x.hd.entry, .left hst, ?_⟩
  rw [hdel]
  refine Sim.grants hreached.lock htells ?_
  rw [hgr]
  exact hreached.shown.left hg.inv hst (fun e => owner_told e _) fun e y ms => shows_told

/-- A grant sets the flag of its requester. -/
lemma Sim.deliver_grant (hs : Sim c x.lockId s t) (hx : s.net[i]? = some x)
    (h : s.deliver x (s.net.eraseIdx i) = some s')
    (hown : RemoteLock.own (owner x.lockId) s.net x.hd.entry = {x})
    (hst : t.stage x.hd.entry = .granted b 1) (hkind : x.kind = .lockReply ∨ x.kind = .signal)
    (hdest : x.dest = x.hd.machineId) :
    (∃ used made, Turn s s' x.client used made) ∧ Matched c x.lockId s' t 1 0 := by
  have hshow := hs.shown x.hd.entry
  rw [hst] at hshow
  obtain ⟨hask, -, hw, -⟩ := hshow
  obtain ⟨table, hsig, rfl⟩ : ∃ table, coroutineWaitQueueSignal (s.table x.hd.machineId) x.lockId
        x.hd.lhId = some table
      ∧ s' = { s with
        table := Function.update s.table x.hd.machineId table
        net := s.net.eraseIdx i } := by
    rw [← hdest]
    rcases hkind with hk | hk <;> simp only [State.deliver, hk] at h <;>
      obtain ⟨table, hsig, hs'⟩ := Option.map_eq_some_iff.1 h <;> exact ⟨table, hsig, hs'.symm⟩
  have hf := fun l r => flagOf_coroutineWaitQueueSignal hsig l r
  have hturn : Turn s { s with
      table := Function.update s.table x.hd.machineId table
      net := s.net.eraseIdx i } x.client {x} 0 := by
    refine ⟨fun _ _ => rfl, flag_update (a := x.client) fun l r hlr => ?_, fun _ _ _ => rfl,
      ⟨s.net.eraseIdx i, RemoteLock.coe_eq_singleton_add hx, by simp⟩, by simp [Flight.client]⟩
    rw [hf]
    exact if_neg hlr
  refine ⟨⟨_, _, hturn⟩, t.setStage x.hd.entry (.granted b 0), .hop (by rw [hst]; rfl), ?_⟩
  refine hs.turn hturn hown (by simp) hs.lock ⟨hask, hw, ?_, rfl⟩
    (hs.others_idle (State.op_of_wants hw) rfl fun op' ho => ?_)
  · show flagOf (Function.update s.table x.hd.machineId table x.hd.machineId) x.lockId x.hd.lhId = _
    rw [Function.update_self, hf]
    exact if_pos ⟨rfl, rfl⟩
  · exact (Option.some.inj ((State.op_of_wants hw).symm.trans ho)).symm

/-- Whatever arrives is the one message of a request, or of its grant or release. -/
lemma Sim.of_mem (hs : Sim c x.lockId s t) (hx : x ∈ s.net) :
    RemoteLock.own (owner x.lockId) s.net x.hd.entry = {x} ∧ ∃ b,
      (t.stage x.hd.entry = .asking b 0
          ∧ x = request (server c x.lockId) (clientOf x.lockId x.hd.entry) x.hd.entry.op)
        ∨ (t.stage x.hd.entry = .granted b 1 ∧ (x.kind = .lockReply ∨ x.kind = .signal)
          ∧ x.dest = x.hd.machineId)
        ∨ (t.stage x.hd.entry = .leaving b 0
          ∧ x = giveBack (server c x.lockId) (clientOf x.lockId x.hd.entry) x.hd.entry.op) := by
  have hmem : x ∈ RemoteLock.own (owner x.lockId) s.net x.hd.entry :=
    RemoteLock.mem_own.2 ⟨hx, if_pos rfl⟩
  have hnone : RemoteLock.own (owner x.lockId) (s.net : Multiset Flight) x.hd.entry ≠ 0 := fun h0 => by
    rw [h0] at hmem
    cases hmem
  have hone : ∀ {y}, RemoteLock.own (owner x.lockId) (s.net : Multiset Flight) x.hd.entry = {y} →
      x = y := fun hy => Multiset.mem_singleton.1 (hy ▸ hmem)
  have hshow := hs.shown x.hd.entry
  cases hst : t.stage x.hd.entry with
  | idle =>
      rw [hst] at hshow
      exact absurd hshow.1 hnone
  | asking b n =>
      rw [hst] at hshow
      obtain ⟨-, rfl, -, -, hown⟩ := hshow
      have hxy := hone hown
      exact ⟨by rw [hown, ← hxy], b, .inl ⟨rfl, hxy⟩⟩
  | queued b =>
      rw [hst] at hshow
      exact absurd hshow.2.2.2 hnone
  | granted b n =>
      rw [hst] at hshow
      cases n with
      | zero => exact absurd hshow.2.2.2 hnone
      | succ n =>
          obtain ⟨-, rfl, -, -, k, hk, hown⟩ := hshow
          have hxy := hone hown
          refine ⟨by rw [hown, ← hxy], b, .inr (.inl ⟨rfl, ?_, ?_⟩)⟩
          · rw [hxy]
            exact hk
          · rw [hxy]
  | holding b =>
      rw [hst] at hshow
      exact absurd hshow.2.2 hnone
  | leaving b n =>
      rw [hst] at hshow
      obtain ⟨-, rfl, -, hown⟩ := hshow
      have hxy := hone hown
      exact ⟨by rw [hown, ← hxy], b, .inr (.inr ⟨rfl, hxy⟩)⟩

/-- Whatever is delivered. -/
lemma Good.deliver (hg : Good c x.lockId s t) (hx : s.net[i]? = some x)
    (hfits : s.FlightFits x) (h : s.deliver x (s.net.eraseIdx i) = some s') :
    (∃ used made, Turn s s' x.client used made) ∧ Matched c x.lockId s' t 1 0 := by
  obtain ⟨hown, b, ⟨hst, hreq⟩ | ⟨hst, hkind, hdest⟩ | ⟨hst, hreq⟩⟩ :=
    hg.sim.of_mem (List.mem_of_getElem? hx)
  · exact hg.deliver_request hx hfits h hown hst hreq
  · exact hg.sim.deliver_grant hx h hown hst hkind hdest
  · exact hg.deliver_giveBack hx hfits h hown hst hreq

end Deliveries

end FissLock.ParLock.Hosts
