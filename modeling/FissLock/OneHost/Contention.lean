import FissLock.OneHost.Managed

/-!
# Exclusive contention on one BMv2 host

A task gets the lock in one of three ways: a grant of the switch, a request that the switch
forwarded and the host queued, or a request that the host queued itself; queued requests are
granted by `lock_release`.  Two things make this less simple than it looks.  A host is sent its own
accepted `FREE` again, takes it for a rejection and considers itself the agent of a lock that the
switch has freed; and packets leave after the mutex was dropped.

Neither breaks the invariant: that a host believes to be the agent creates no second right to the
lock, since only a holder that leaves makes it hand the lock on.  `contention_safe_and_fair` is the
result, for task ids that fit into a queue entry; `contention_safe_and_fair_fails` is a run with a
larger one, in which the queue forgets a task.
-/

namespace FissLock

open Runs

namespace OneHost

variable {h : HostId} {lid : LockId} {s : OneHost} {t : TaskId} {p : LockHdr} {rest : List LockHdr}

/-- A task that a step does not touch. -/
lemma Inv.task_frame (hi : Inv h lid s) {s' : OneHost} (hst : s'.task t = s.task t)
    (ho : s'.openAt t = s.openAt t) (hn : s'.notifying.count t = s.notifying.count t)
    (hf : s'.flagAt t = s.flagAt t) (hh : s'.heldAt h t = s.heldAt h t) :
    TaskOk (s'.task t) (s'.openAt t) (s'.notifying.count t) (s'.flagAt t) (s'.heldAt h t) := by
  rw [hst, ho, hn, hf, hh]
  exact hi.task t

/-! ## Calls -/

/-- The metadata after a request was appended to the wait queue. -/
lemma LockOk.append {l : InnetLock} (hl : LockOk h lid l) (t : TaskId) :
    LockOk h lid (lockAppendToWq l (Wqe.ofReq .excl t h)) where
  id := hl.id
  noMark := hl.noMark
  noDelay := hl.noDelay
  holders := hl.holders
  agent := hl.agent
  entries e he := by
    rcases List.mem_append.1 he with he | he
    · exact hl.entries e he
    · rw [List.mem_singleton.1 he]
      exact ⟨rfl, rfl⟩

/-- A request that is queued at once. -/
lemma Inv.acquire_queue (hi : Inv h lid s) (ht : s.task t = .idle) (hb : t.toNat < 2 ^ 30) :
    Inv h lid { s with
      lock := lockAppendToWq s.lock (Wqe.ofReq .excl t h)
      queued := s.queued ++ [t]
      task := Function.update s.task t .waiting } where
  lock := hi.lock.append t
  up := hi.up
  gaps := hi.gaps
  down := hi.down
  range := hi.range
  token := hi.token
  task t' := by
    by_cases htt : t' = t
    · subst htt
      have hc := hi.task t'
      rw [ht] at hc
      obtain ⟨h1, h2, h3, h4⟩ := hc
      simp only [Function.update_self]
      refine .inl ⟨?_, h2, h3, h4⟩
      simp only [openAt, lockAppendToWq, List.countP_append] at h1 ⊢
      simp only [List.countP_singleton, Wqe.taskId_ofReq hb, decide_true, if_true]
      omega
    · refine hi.task_frame (Function.update_of_ne htt _ _) ?_ rfl rfl rfl
      simp [openAt, lockAppendToWq, Wqe.taskId_ofReq hb, Ne.symm htt]
  order := by
    rw [hi.order]
    simp [notifying, lockAppendToWq, Wqe.taskId_ofReq hb]

/-- A request that is to be sent to the switch. -/
lemma Inv.acquire_send (hi : Inv h lid s) (ht : s.task t = .idle) (hb : t.toNat < 2 ^ 30) :
    Inv h lid { s with
      gaps := (t, .send (sendPostAcquire (bmv2Conf h) .excl s.lock.id h t)) :: s.gaps
      task := Function.update s.task t .waiting } where
  lock := hi.lock
  up := hi.up
  gaps x hx p hp := by
    rcases List.mem_cons.1 hx with rfl | hx
    · cases hp
      exact ⟨hi.lock.id, rfl, .inl ⟨rfl, rfl, rfl, hb⟩⟩
    · exact hi.gaps x hx p hp
  down := hi.down
  range := hi.range
  token := by
    rw [List.countP_cons_of_neg (by simp [sends, isFree, sendPostAcquire, sendPostLockGeneric])]
    exact hi.token
  task t' := by
    by_cases htt : t' = t
    · subst htt
      have hc := hi.task t'
      rw [ht] at hc
      obtain ⟨h1, h2, h3, h4⟩ := hc
      simp only [Function.update_self]
      refine .inl ⟨?_, h2, h3, h4⟩
      simp only [openAt] at h1 ⊢
      rw [List.countP_cons_of_pos
        (by simp [sends, carries, sendPostAcquire, sendPostLockGeneric])]
      omega
    · refine hi.task_frame (Function.update_of_ne htt _ _) ?_ rfl rfl rfl
      simp only [openAt]
      rw [List.countP_cons_of_neg
        (by simp [sends, carries, sendPostAcquire, sendPostLockGeneric, Ne.symm htt])]
  order := hi.order

/-- The grant is observed. -/
lemma Inv.poll (hi : Inv h lid s) (ht : s.task t = .waiting)
    (hf : s.lock.taskGranted t = true) :
    Inv h lid { s with
      lock := { s.lock with taskGranted := Function.update s.lock.taskGranted t false }
      task := Function.update s.task t .holding } where
  lock := ⟨hi.lock.id, hi.lock.noMark, hi.lock.noDelay, hi.lock.holders, hi.lock.agent,
    hi.lock.entries⟩
  up := hi.up
  gaps := hi.gaps
  down := hi.down
  range := hi.range
  token := hi.token
  task t' := by
    by_cases htt : t' = t
    · subst htt
      have hc := hi.task t'
      have hF : s.flagAt t' = 1 := by simp [flagAt, hf]
      rw [ht, hF] at hc
      simp only [Function.update_self]
      rcases hc with ⟨-, -, h3, -⟩ | ⟨h1, h2, h3⟩
      · omega
      · exact ⟨h1, show s.notifying.count t' = 0 by omega, by simp [flagAt], h3⟩
    · refine hi.task_frame (Function.update_of_ne htt _ _) rfl rfl ?_ rfl
      simp [flagAt, Function.update_of_ne htt]
  order := hi.order

/-- The last task leaves, and a `FREE` is to be sent. -/
lemma Inv.release_free (hi : Inv h lid s) (ht : s.task t = .holding) {L : Finset TaskId} :
    Inv h lid { s with
      lock := { s.lock with
        localHolders := L, holders := ∅, isAgent := false, mode := .free, ncnt := 0 }
      gaps := (t, .send (sendPostFree (bmv2Conf h) s.lock.id (s.lock.ncnt.setWidth 8) s.lock.mode))
        :: s.gaps
      task := Function.update s.task t .idle } where
  lock := ⟨hi.lock.id, hi.lock.noMark, hi.lock.noDelay, by simp, fun hne => absurd rfl hne,
    hi.lock.entries⟩
  up := hi.up
  gaps x hx p hp := by
    rcases List.mem_cons.1 hx with rfl | hx
    · cases hp
      have hc := hi.task t
      rw [ht] at hc
      have hm := (hi.lock.agent (Finset.ne_empty_of_mem (heldAt_eq_one.1 hc.2.2.2))).2
      exact ⟨hi.lock.id, rfl, .inr ⟨rfl, by rw [hm]; rfl⟩⟩
    · exact hi.gaps x hx p hp
  down := hi.down
  range := hi.range
  token := by
    have hc := hi.task t
    rw [ht] at hc
    have htok := hi.token
    rw [hi.holders_eq hc.2.2.2, Finset.card_singleton] at htok
    dsimp only
    rw [List.countP_cons_of_pos (by rfl), Finset.card_empty]
    omega
  task t' := by
    have hopen : openAt { s with
        gaps := (t, .send (sendPostFree (bmv2Conf h) s.lock.id (s.lock.ncnt.setWidth 8)
          s.lock.mode)) :: s.gaps } t' = s.openAt t' := by
      simp only [openAt]
      rw [List.countP_cons_of_neg (by simp [sends, carries, sendPostFree, sendPostLockGeneric])]
    have hc := hi.task t
    rw [ht] at hc
    by_cases htt : t' = t
    · subst htt
      simp only [Function.update_self]
      exact ⟨hopen.trans hc.1, hc.2.1, hc.2.2.1, by simp [heldAt]⟩
    · refine hi.task_frame (Function.update_of_ne htt _ _) hopen rfl rfl ?_
      simp [heldAt, hi.holders_eq hc.2.2.2, htt]
  order := hi.order

/-- The last task leaves, and the first waiter gets the lock. -/
lemma Inv.release_handOver (hi : Inv h lid s) (ht : s.task t = .holding) {e : Wqe}
    {rest : List Wqe} (hq : s.lock.wqueue = e :: rest) {L : Finset TaskId} :
    Inv h lid { s with
      lock := { s.lock with
        localHolders := L, holders := {(h, e.taskId)}, wqueue := rest, mode := e.op }
      gaps := (t, .notify e.taskId) :: s.gaps
      task := Function.update s.task t .idle } := by
  have hc := hi.task t
  rw [ht] at hc
  have hholders := hi.holders_eq hc.2.2.2
  have hagent := hi.lock.agent (by rw [hholders]; exact Finset.singleton_ne_empty _)
  have hent := hi.lock.entries e (hq ▸ List.mem_cons_self)
  have hnil := hi.notifying_nil ht
  have hopen : ∀ t', s.openAt t' = openAt { s with
      lock := { s.lock with wqueue := rest }
      gaps := (t, .notify e.taskId) :: s.gaps } t' + if e.taskId = t' then 1 else 0 := by
    intro t'
    simp only [openAt, hq, List.countP_cons, sends, decide_eq_true_eq, Bool.false_eq_true, if_false]
    omega
  -- the first waiter waits, and its one request is this entry
  have hwait : s.task e.taskId = .waiting ∧ s.openAt e.taskId = 1 ∧ s.flagAt e.taskId = 0 := by
    have h1 := hopen e.taskId
    rw [if_pos rfl] at h1
    obtain ⟨hw, ho, -, hf, -⟩ := hi.waiting_of_open (by rw [h1]; exact Nat.succ_pos _)
    exact ⟨hw, ho, hf⟩
  have hne : e.taskId ≠ t := fun heq => by
    rw [heq, ht] at hwait
    cases hwait.1
  have hnotif : ((t, Gap.notify e.taskId) :: s.gaps).filterMap notified = [e.taskId] := by
    show e.taskId :: s.notifying = _
    rw [hnil]
  refine ⟨⟨hi.lock.id, hi.lock.noMark, hi.lock.noDelay, by simp, fun _ => ⟨hagent.1, hent.1⟩,
    fun e' he' => hi.lock.entries e' (hq ▸ List.mem_cons_of_mem _ he')⟩, hi.up,
    fun x hx p hp => ?_, hi.down, hi.range, ?_, fun t' => ?_, ?_⟩
  · rcases List.mem_cons.1 hx with rfl | hx
    · cases hp
    · exact hi.gaps x hx p hp
  · have htok := hi.token
    rw [hholders, Finset.card_singleton] at htok
    dsimp only
    rw [List.countP_cons_of_neg (by simp [sends]), Finset.card_singleton]
    exact htok
  · have h1 := hopen t'
    by_cases htt : t' = t
    · subst htt
      rw [if_neg hne] at h1
      simp only [Function.update_self]
      refine ⟨h1.symm.trans hc.1, ?_, hc.2.2.1, by simp [heldAt, Ne.symm hne]⟩
      rw [notifying, hnotif]
      exact List.count_eq_zero.2 (by simpa using Ne.symm hne)
    · by_cases hte : t' = e.taskId
      · subst hte
        rw [if_pos rfl, hwait.2.1] at h1
        simp only [Function.update_of_ne htt, hwait.1]
        refine .inr ⟨(Nat.succ.inj h1).symm, ?_, by simp [heldAt]⟩
        rw [notifying, hnotif, List.count_singleton_self]
        exact congrArg (1 + ·) hwait.2.2
      · rw [if_neg (Ne.symm hte)] at h1
        refine hi.task_frame (Function.update_of_ne htt _ _) h1.symm ?_ rfl ?_
        · rw [hnil, notifying, hnotif]
          exact List.count_eq_zero.2 (by simpa using hte)
        · simp [heldAt, hholders, htt, hte]
  · have hord := hi.order
    rw [hnil, hq] at hord
    rw [hord, notifying, hnotif]
    simp

/-! ## Threads that go on -/

lemma countP_sends_cons (q : LockHdr → Bool) (c : TaskId) (p : LockHdr) (b : List (TaskId × Gap)) :
    ((c, Gap.send p) :: b).countP (sends q) = b.countP (sends q) + if q p then 1 else 0 :=
  List.countP_cons

/-- A thread sends its packet. -/
lemma Inv.resume_send (hi : Inv h lid s) {c : TaskId} {a b : List (TaskId × Gap)}
    (hg : s.gaps = a ++ (c, .send p) :: b) :
    Inv h lid { s with gaps := a ++ b, up := s.up ++ [p] } := by
  have hmem : (c, Gap.send p) ∈ s.gaps := by simp [hg]
  have hnotif : (a ++ b).filterMap notified = s.notifying := by
    rw [notifying, hg, List.filterMap_append, List.filterMap_append]
    rfl
  refine ⟨hi.lock, fun q hq => ?_, fun x hx q hxq => ?_, hi.down, hi.range, ?_, fun t' => ?_, ?_⟩
  · rcases List.mem_append.1 hq with hq | hq
    · exact hi.up q hq
    · rw [List.mem_singleton.1 hq]
      exact hi.gaps _ hmem p rfl
  · refine hi.gaps x ?_ q hxq
    rw [hg]
    rcases List.mem_append.1 hx with hx | hx <;> simp [hx]
  · have htok := hi.token
    rw [hg] at htok
    simp only [List.countP_append, countP_sends_cons, List.countP_singleton] at htok ⊢
    omega
  · refine hi.task_frame rfl ?_ (by rw [notifying, hnotif]) rfl rfl
    simp only [openAt, hg, List.countP_append, countP_sends_cons, List.countP_singleton]
    omega
  · rw [notifying, hnotif]
    exact hi.order

/-- A thread notifies the task it has handed the lock to. -/
lemma Inv.resume_notify (hi : Inv h lid s) {c : TaskId} {a b : List (TaskId × Gap)}
    (hg : s.gaps = a ++ (c, .notify t) :: b) :
    Inv h lid { s.observe (lockLocalNotify s.lock t) t with gaps := a ++ b } := by
  have hmem : t ∈ s.notifying := by simp [notifying, hg, notified]
  have hone := hi.notifying_eq hmem
  have hab : (a ++ b).filterMap notified = [] := by
    have hlen := congrArg List.length hone
    rw [notifying, hg] at hlen
    simp only [List.filterMap_append, List.filterMap_cons, notified, List.length_append,
      List.length_cons, List.length_nil] at hlen
    refine List.length_eq_zero_iff.1 ?_
    rw [List.filterMap_append, List.length_append]
    omega
  have hc := hi.task t
  rw [hone, List.count_singleton_self] at hc
  have hwait : s.task t = .waiting ∧ s.openAt t = 0 ∧ s.flagAt t = 0 ∧ s.heldAt h t = 1 := by
    cases hs : s.task t <;> rw [hs] at hc <;> simp only [TaskOk] at hc
    · omega
    · exact ⟨rfl, by omega, by omega, by omega⟩
    · omega
  have hflag : s.lock.taskGranted t = false := by
    by_contra hf
    simp [flagAt, hf] at hwait
  have hopen : ∀ t', openAt { s with gaps := a ++ b } t' = s.openAt t' := fun t' => by
    simp [openAt, hg, sends]
  have hcount : s.served.count t < s.queued.count t := by
    rw [hi.order, hone]
    simp only [List.count_append, List.count_singleton_self]
    omega
  rw [observe_grant (l := lockLocalNotify s.lock t) rfl hflag
    (by simp [lockLocalNotify]), if_pos hcount]
  refine ⟨⟨hi.lock.id, hi.lock.noMark, hi.lock.noDelay, hi.lock.holders, hi.lock.agent,
    hi.lock.entries⟩, hi.up, fun x hx q hxq => ?_, hi.down, hi.range, ?_, fun t' => ?_, ?_⟩
  · refine hi.gaps x ?_ q hxq
    rw [hg]
    rcases List.mem_append.1 hx with hx | hx <;> simp [hx]
  · have htok := hi.token
    rw [hg] at htok
    simp only [List.countP_append, List.countP_cons, sends] at htok ⊢
    exact htok
  · by_cases htt : t' = t
    · subst htt
      simp only [hwait.1]
      refine .inr ⟨(hopen t').trans hwait.2.1, ?_, hwait.2.2.2⟩
      rw [notifying, hab]
      simp [flagAt, lockLocalNotify]
    · refine hi.task_frame rfl (hopen t') ?_ ?_ rfl
      · rw [notifying, hab, hone, List.count_nil]
        exact (List.count_eq_zero.2 (by simpa using htt)).symm
      · simp [flagAt, lockLocalNotify, htt]
  · rw [notifying, hab, hi.order, hone, List.append_nil]
    rfl

/-! ## The switch -/

lemma TaskOk.mono {st : ClientState} {o o' n f k : ℕ} (hle : o' ≤ o) (h : TaskOk st o n f k) :
    TaskOk st o' n f k := by
  cases st <;> simp only [TaskOk] at h ⊢ <;> omega

/-- A request that the switch grants. -/
lemma Inv.switch_grant (hi : Inv h lid s) (hup : s.up = p :: rest) (ht : p.type = .acquire)
    (hf : s.cell.free = LOCK_FREE) (hr : lid.toNat < 1024) {c : Cell}
    (hc : c.free = LOCK_ACQUIRED) :
    Inv h lid { s with
      cell := c
      up := rest
      down := s.down ++ [{ p with type := .grantWithAgent, agent := h, transferred := false }] } := by
  have hp := hi.up p (hup ▸ List.mem_cons_self)
  have hkind := hp.kind.resolve_right fun h => by simp [ht] at h
  refine ⟨hi.lock, fun q hq => hi.up q (hup ▸ List.mem_cons_of_mem _ hq), hi.gaps, fun q hq => ?_,
    fun _ => hr, ?_, fun t' => ?_, hi.order⟩
  · rcases List.mem_append.1 hq with hq | hq
    · exact hi.down q hq
    · rw [List.mem_singleton.1 hq]
      exact .inr (.inl ⟨rfl, hkind.2.1, rfl, hkind.2.2.2⟩)
  · have htok := hi.token
    rw [hf, hup] at htok
    simp only [List.countP_append, List.countP_cons, List.countP_nil, isGrant, isFree, ht, hc,
      decide_true, if_true] at htok ⊢
    simp only [reduceCtorEq, decide_false, Bool.false_eq_true, if_false, add_zero] at htok
    omega
  · refine hi.task_frame rfl ?_ rfl rfl rfl
    simp only [openAt, hup, List.countP_append, List.countP_cons, List.countP_nil, carries, ht,
      true_or, or_true, true_and, decide_eq_true_eq]
    omega

/-- A request that the switch passes on; it may come back. -/
lemma Inv.switch_forward (hi : Inv h lid s) (hup : s.up = p :: rest) (ht : p.type = .acquire)
    {ps : List LockHdr} (hps : ps = [] ∨ ∃ a, ps = [{ p with agent := a }]) :
    Inv h lid { s with up := rest, down := s.down ++ ps } := by
  have hp := hi.up p (hup ▸ List.mem_cons_self)
  have hkind := hp.kind.resolve_right fun h => by simp [ht] at h
  refine ⟨hi.lock, fun q hq => hi.up q (hup ▸ List.mem_cons_of_mem _ hq), hi.gaps, fun q hq => ?_,
    hi.range, ?_, fun t' => ?_, hi.order⟩
  · rcases List.mem_append.1 hq with hq | hq
    · exact hi.down q hq
    · rcases hps with rfl | ⟨a, rfl⟩
      · cases hq
      · rw [List.mem_singleton.1 hq]
        exact .inl ⟨ht, hkind.2.1, hkind.2.2.1, hp.machineId, hkind.2.2.2⟩
  · have htok := hi.token
    rw [hup] at htok
    rcases hps with rfl | ⟨a, rfl⟩ <;>
      simpa [List.countP_cons, isGrant, isFree, ht] using htok
  · refine TaskOk.mono ?_ (hi.task t')
    have hle : ps.countP (carries t') ≤ [p].countP (carries t') := by
      rcases hps with rfl | ⟨a, rfl⟩
      · exact Nat.zero_le _
      · exact le_rfl
    rw [List.countP_singleton] at hle
    simp only [openAt, hup, List.countP_append, List.countP_cons]
    omega

/-- The switch frees the lock and echoes the packet. -/
lemma Inv.switch_free (hi : Inv h lid s) (hup : s.up = p :: rest) (ht : p.type = .free) {c : Cell}
    (hc : c.free = LOCK_FREE) :
    Inv h lid { s with
      cell := c, up := rest, down := s.down ++ [{ p with agent := 0 }] } := by
  have hp := hi.up p (hup ▸ List.mem_cons_self)
  have hkind := hp.kind.resolve_left fun h => by simp [ht] at h
  refine ⟨hi.lock, fun q hq => hi.up q (hup ▸ List.mem_cons_of_mem _ hq), hi.gaps, fun q hq => ?_,
    fun h => (by rw [hc] at h; cases h), ?_, fun t' => ?_, hi.order⟩
  · rcases List.mem_append.1 hq with hq | hq
    · exact hi.down q hq
    · rw [List.mem_singleton.1 hq]
      exact .inr (.inr ⟨ht, hkind.2⟩)
  · have htok := hi.token
    rw [hup] at htok
    simp only [List.countP_append, List.countP_cons, List.countP_nil, isGrant, isFree, ht, hc,
      decide_true, if_true] at htok ⊢
    simp only [reduceCtorEq, decide_false, Bool.false_eq_true, if_false, add_zero]
    split at htok <;> omega
  · refine hi.task_frame rfl ?_ rfl rfl rfl
    simp [openAt, hup, carries, ht]

/-! ## The host receives -/

/-- A request that came back is queued. -/
lemma Inv.receive_queue (hi : Inv h lid s) (hdown : s.down = p :: rest) (ht : p.type = .acquire)
    (hm : p.machineId = h) (hb : p.taskId.toNat < 2 ^ 30) {fb : LockHolder → ℕ} :
    Inv h lid { s with
      lock := { s.lock with
        fwdBackCnt := fb
        wqueue := s.lock.wqueue ++ [Wqe.ofReq .excl p.taskId p.machineId] }
      queued := s.queued ++ [p.taskId]
      down := rest } := by
  subst hm
  have hl := hi.lock.append p.taskId
  refine ⟨⟨hl.id, hl.noMark, hl.noDelay, hl.holders, hl.agent, hl.entries⟩, hi.up, hi.gaps,
    fun q hq => hi.down q (hdown ▸ List.mem_cons_of_mem _ hq), hi.range, ?_, fun t' => ?_, ?_⟩
  · have htok := hi.token
    rw [hdown] at htok
    simpa [isGrant, ht] using htok
  · refine hi.task_frame rfl ?_ rfl rfl rfl
    simp only [openAt, hdown, List.countP_append, List.countP_cons, List.countP_nil, carries, ht,
      true_or, true_and, Wqe.taskId_ofReq hb]
    omega
  · rw [hi.order]
    simp [notifying, Wqe.taskId_ofReq hb]

/-- A request that came back is dropped. -/
lemma Inv.receive_drop (hi : Inv h lid s) (hdown : s.down = p :: rest) (ht : p.type = .acquire)
    {fb : LockHolder → ℕ} :
    Inv h lid { s with lock := { s.lock with fwdBackCnt := fb }, down := rest } := by
  have hl := hi.lock
  refine ⟨⟨hl.id, hl.noMark, hl.noDelay, hl.holders, hl.agent, hl.entries⟩, hi.up, hi.gaps,
    fun q hq => hi.down q (hdown ▸ List.mem_cons_of_mem _ hq), hi.range, ?_, fun t' => ?_, hi.order⟩
  · have htok := hi.token
    rw [hdown] at htok
    simpa [isGrant, ht] using htok
  · refine TaskOk.mono ?_ (hi.task t')
    simp only [openAt, hdown, List.countP_cons]
    omega

/-- The echo of our own `FREE`: the host believes to be the agent. -/
lemma Inv.receive_echo (hi : Inv h lid s) (hdown : s.down = p :: rest) (ht : p.type = .free)
    (ho : p.oldMode = LOCK_EXCL) {n : BitVec 32} :
    Inv h lid { s with
      lock := { s.lock with mode := p.oldModeState, isAgent := true, ncnt := n }
      down := rest } := by
  have hl := hi.lock
  have hx : p.oldModeState = .excl := by rw [LockHdr.oldModeState, ho]; rfl
  refine ⟨⟨hl.id, hl.noMark, hl.noDelay, hl.holders, fun _ => ⟨rfl, hx⟩, hl.entries⟩, hi.up, hi.gaps,
    fun q hq => hi.down q (hdown ▸ List.mem_cons_of_mem _ hq), hi.range, ?_, fun t' => ?_, hi.order⟩
  · have htok := hi.token
    rw [hdown] at htok
    simpa [isGrant, ht] using htok
  · refine hi.task_frame rfl ?_ rfl rfl rfl
    simp [openAt, hdown, carries, ht]

/-- A grant arrives: its task becomes the holder. -/
lemma Inv.receive_grant (hi : Inv h lid s) (hdown : s.down = p :: rest)
    (ht : p.type = .grantWithAgent) :
    Inv h lid { s.observe (grantedLock h s.lock p.taskId) p.taskId with down := rest } := by
  have hl := hi.lock
  -- the grant was the token, so nobody is a holder yet
  have htok := hi.token
  rw [hdown, List.countP_cons_of_pos (by simp [isGrant, ht])] at htok
  have hcard : s.lock.holders.card = 0 := by split at htok <;> omega
  have hempty : s.lock.holders = ∅ := Finset.card_eq_zero.1 hcard
  have hopen : ∀ t', s.openAt t' = openAt { s with down := rest } t'
      + if p.taskId = t' then 1 else 0 := fun t' => by
    simp only [openAt, hdown, List.countP_cons, carries, ht, or_true, true_and, decide_eq_true_eq]
    omega
  have hone := hopen p.taskId
  rw [if_pos rfl] at hone
  have hwait : s.task p.taskId = .waiting ∧ s.openAt p.taskId = 1
      ∧ s.notifying.count p.taskId = 0 ∧ s.flagAt p.taskId = 0 := by
    obtain ⟨hw, ho, hn, hf, -⟩ := hi.waiting_of_open (by rw [hone]; exact Nat.succ_pos _)
    exact ⟨hw, ho, hn, hf⟩
  have hflag : s.lock.taskGranted p.taskId = false := by
    by_contra hf
    simp [flagAt, hf] at hwait
  -- its request was not in the queue
  have hserved : ¬ s.served.count p.taskId < s.queued.count p.taskId := by
    have hwq : s.lock.wqueue.countP (·.taskId = p.taskId) = 0 := by
      have h1 := hwait.2.1
      rw [hone, openAt] at h1
      dsimp only at h1
      omega
    have hmap : (s.lock.wqueue.map Wqe.taskId).count p.taskId = 0 := by
      rw [List.count_eq_zero]
      intro hm
      obtain ⟨e, he, heq⟩ := List.mem_map.1 hm
      exact absurd (decide_eq_true heq) (List.countP_eq_zero.1 hwq e he)
    rw [hi.order, List.count_append, List.count_append, hwait.2.2.1, hmap]
    omega
  rw [observe_grant (l := grantedLock h s.lock p.taskId) rfl hflag
    (by simp [grantedLock, lockLocalNotify]), if_neg hserved]
  refine ⟨⟨hl.id, hl.noMark, hl.noDelay, ?_, fun _ => ⟨rfl, rfl⟩, hl.entries⟩, hi.up, hi.gaps,
    fun q hq => hi.down q (hdown ▸ List.mem_cons_of_mem _ hq), hi.range, ?_, fun t' => ?_, hi.order⟩
  · simp [grantedLock, lockLocalNotify, hempty]
  · simp only [grantedLock, lockLocalNotify, hempty, insert_empty_eq, Finset.card_singleton]
    rw [hcard] at htok
    omega
  · have h1 := hopen t'
    by_cases htt : t' = p.taskId
    · subst htt
      rw [if_pos rfl, hwait.2.1] at h1
      simp only [hwait.1]
      refine .inr ⟨(Nat.succ.inj h1).symm, ?_, by simp [heldAt, grantedLock, lockLocalNotify]⟩
      show s.notifying.count p.taskId
        + (if (grantedLock h s.lock p.taskId).taskGranted p.taskId then 1 else 0) = 1
      rw [hwait.2.2.1]
      simp [grantedLock, lockLocalNotify]
    · rw [if_neg (Ne.symm htt)] at h1
      refine hi.task_frame rfl h1.symm rfl ?_ ?_
      · simp [flagAt, grantedLock, lockLocalNotify, htt]
      · simp [heldAt, grantedLock, lockLocalNotify, hempty, htt]

/-! ## Every step keeps the invariant -/

lemma inv_init (h : HostId) (lid : LockId) : Inv h lid (init lid) where
  lock := ⟨rfl, fun _ => rfl, rfl, by simp [init, InnetLock.init], fun hne => absurd rfl hne,
    by simp [init, InnetLock.init]⟩
  up := by simp [init]
  gaps := by simp [init]
  down := by simp [init]
  range h := nomatch h
  token := rfl
  task _ := ⟨rfl, rfl, rfl, rfl⟩
  order := rfl

lemma Inv.acquire (hi : Inv h lid s) (hlid : lid.toNat < SWITCH_LOCK_NUM)
    (ht : s.task t = .idle) (hb : t.toNat < 2 ^ 30) : Inv h lid (s.acquireStep h t) := by
  rcases lockAcquireAsync_excl (h := h) (t := t) (hi.inRange hlid) with ⟨-, f, hcode⟩ | hcode
  · have hobs := observe_append (s := s) (t := t) (e := Wqe.ofReq .excl t h)
      (l := lockAppendToWq s.lock (Wqe.ofReq .excl t h)) rfl rfl
    rw [acquireStep, hcode, hobs]
    exact hi.acquire_queue ht hb
  · have hobs := observe_keep (s := s) (t := t) (l := s.lock) rfl rfl
    rw [acquireStep, hcode, hobs]
    exact hi.acquire_send ht hb

lemma Inv.release (hi : Inv h lid s) (hlid : lid.toNat < SWITCH_LOCK_NUM)
    (ht : s.task t = .holding) : Inv h lid (s.releaseStep h t) := by
  have hc := hi.task t
  rw [ht] at hc
  have hholders := hi.holders_eq hc.2.2.2
  have hagent := (hi.lock.agent (by rw [hholders]; exact Finset.singleton_ne_empty _)).1
  rcases lockRelease_excl (hi.inRange hlid) hagent hholders
    (fun e he => (hi.lock.entries e he).2) with ⟨-, L, f, hcode⟩ | ⟨e, rest, hq, L, f, hcode⟩
  · rw [releaseStep, hcode]
    exact hi.release_free ht
  · rw [releaseStep, hcode]
    exact hi.release_handOver ht hq

/-- A `FREE` is the token, so the lock is taken. -/
lemma Inv.acquired_of_free (hi : Inv h lid s) (hup : s.up = p :: rest) (ht : p.type = .free) :
    s.cell.free = LOCK_ACQUIRED := by
  have htok := hi.token
  rw [hup, List.countP_cons_of_pos (by simp [isFree, ht])] at htok
  by_contra hne
  rw [if_neg hne] at htok
  omega

lemma Inv.switch (hi : Inv h lid s) (hup : s.up = p :: rest) :
    Inv h lid { s with
      cell := (exchange h s.cell p).1
      up := rest
      down := s.down ++ (exchange h s.cell p).2 } := by
  have hp := hi.up p (hup ▸ List.mem_cons_self)
  rcases hp.kind with ⟨ht, hm, -, -⟩ | ⟨ht, ho⟩
  · by_cases hf : lid.toNat < 1024 ∧ s.cell.free = LOCK_FREE
    · rw [exchange_request_free (hp.id ▸ hf.1) ht hm hf.2 hp.machineId]
      exact hi.switch_grant hup ht hf.2 hf.1 rfl
    · have htaken : p.id.toNat < 1024 → s.cell.free = LOCK_ACQUIRED := fun hr => by
        by_contra hne
        exact hf ⟨hp.id ▸ hr, by simpa using hne⟩
      rw [exchange_request_taken ht hm htaken]
      exact hi.switch_forward hup ht ((ite_eq_or_eq _ _ _).symm.imp id fun e => ⟨_, e⟩)
  · have hacq := hi.acquired_of_free hup ht
    rw [exchange_free (hp.id ▸ hi.range hacq) ht ho hacq hp.machineId]
    exact hi.switch_free hup ht rfl

lemma Inv.receive (hi : Inv h lid s) (hlid : lid.toNat < SWITCH_LOCK_NUM)
    (hdown : s.down = p :: rest) : Inv h lid (s.receiveStep h p rest) := by
  rcases hi.down p (hdown ▸ List.mem_cons_self) with ⟨ht, hm, hg, hmid, hb⟩ | ⟨ht, hm, htr, hb⟩ |
    ⟨ht, ho⟩
  · obtain ⟨hsent, fb, ⟨-, hlock⟩ | hlock⟩ := receive_request (h := h) (hi.inRange hlid) ht hm hg
      (hi.lock.noMark p.holder)
    · have hobs := observe_keep (s := s) (t := p.taskId)
        (l := (lockPacketProcess (bmv2Conf h) s.lock p).lock) (by rw [hlock]) (by rw [hlock])
      rw [receiveStep, hsent, hobs, hlock, List.append_nil]
      exact hi.receive_drop hdown ht
    · have hobs := observe_append (s := s) (t := p.taskId)
        (e := Wqe.ofReq .excl p.taskId p.machineId)
        (l := (lockPacketProcess (bmv2Conf h) s.lock p).lock) (by rw [hlock]) (by rw [hlock])
      rw [receiveStep, hsent, hobs, hlock, List.append_nil]
      exact hi.receive_queue hdown ht hmid hb
  · have hid : p.taskId ≠ TASK_FOR_RESTORE := by
      intro he
      rw [he] at hb
      exact absurd hb (by decide)
    obtain ⟨hsent, hlock⟩ := OneHost.receive_grant (h := h) (l := s.lock) ht hm htr hid
    rw [receiveStep, hsent, hlock, List.append_nil]
    exact hi.receive_grant hdown ht
  · obtain ⟨hsent, n, hlock⟩ := OneHost.receive_echo (h := h) ht hi.lock.noDelay
    have hobs := observe_keep (s := s) (t := p.taskId)
      (l := (lockPacketProcess (bmv2Conf h) s.lock p).lock) (by rw [hlock]) (by rw [hlock])
    rw [receiveStep, hsent, hobs, hlock, List.append_nil]
    exact hi.receive_echo hdown ht ho

theorem inv_step (hlid : lid.toNat < SWITCH_LOCK_NUM) {e : HostEvent} {s' : OneHost}
    (hi : Inv h lid s) (hfit : Fits s e) (hs : step h s e = some s') : Inv h lid s' := by
  rcases step_cases hs with ⟨t, rfl, ht, rfl⟩ | ⟨t, ht, hf, rfl⟩ | ⟨t, ht, rfl⟩ |
    ⟨a, b, c, p, hg, rfl⟩ | ⟨a, b, c, t, hg, rfl⟩ | ⟨p, rest, hup, rfl⟩ | ⟨p, rest, rfl, hdown, rfl⟩
  · exact hi.acquire hlid ht hfit
  · exact hi.poll ht hf
  · exact hi.release hlid ht
  · exact hi.resume_send hg
  · exact hi.resume_notify hg
  · exact hi.switch hup
  · exact hi.receive hlid hdown

theorem inv_of_reachable (hlid : lid.toNat < SWITCH_LOCK_NUM) (hrun : Reachable h lid Fits s) :
    Inv h lid s :=
  hrun.invariant (inv_init h lid) fun _ _ _ hi hf hs => inv_step hlid hi hf hs

/-- **Exclusive contention is safe and fair.**  In every run whose task ids fit into a queue entry,
at most one task is between grant and release, and the tasks appended to the wait queue are granted
in the order in which they were appended. -/
theorem contention_safe_and_fair (hrun : Reachable h lid Fits s) :
    (∀ t t', s.granted t → s.granted t' → t = t') ∧ s.served <+: s.queued := by
  rcases Nat.lt_or_ge lid.toNat SWITCH_LOCK_NUM with hlid | hlid
  · have hi := inv_of_reachable hlid hrun
    refine ⟨fun t t' ht ht' => hi.held_unique (hi.held_of_granted ht) (hi.held_of_granted ht'), ?_⟩
    rw [hi.order, List.append_assoc]
    exact List.prefix_append _ _
  · exact managed_safe_and_fair hlid hrun

/-- Task 5 has the lock from the switch, tasks 1 and 2 queue up, and task 1 is served. -/
theorem contention_safe_and_fair_handed_over :
    ∃ s, Reachable 1 7 Fits s ∧ s.granted 1 ∧ ¬ s.granted 2 ∧ s.served = [1] ∧ s.queued = [1, 2] := by
  obtain ⟨s, hrun, ⟨hg, hs⟩, hq⟩ := exists_of_run 1 7 Fits
    [.acquire 5, .resume 0, .switch, .receive, .poll 5, .acquire 1, .acquire 2, .release 5,
      .resume 0]
    (fun s => (s.granted 1 ∧ s.served = [1]) ∧ s.queued = [1, 2]) (by decide +kernel)
  obtain ⟨hone, -⟩ := contention_safe_and_fair hrun
  exact ⟨s, hrun, hg, fun h2 => absurd (hone 1 2 hg h2) (by decide), hs, hq⟩

/-- **The queue forgets large task ids.**  Task `2 ^ 30 + 1` is queued as task 1 and never served;
task 2, queued after it, is. -/
theorem contention_safe_and_fair_fails :
    ¬ ∀ s, Reachable 1 7 (fun _ _ => True) s →
      (∀ t t', s.granted t → s.granted t' → t = t') ∧ s.served <+: s.queued := by
  intro hall
  obtain ⟨s, hrun, hs, hq⟩ := exists_of_run 1 7 (fun _ _ => True)
    [.acquire 5, .resume 0, .switch, .receive, .poll 5, .acquire (2 ^ 30 + 1), .acquire 2,
      .release 5, .resume 0, .acquire 1, .poll 1, .release 1, .resume 0]
    (fun s => s.served = [2] ∧ s.queued = [2 ^ 30 + 1, 2, 1]) (by decide +kernel)
  have := (hall s hrun).2
  rw [hs, hq] at this
  exact absurd this (by decide)

end OneHost
end FissLock
