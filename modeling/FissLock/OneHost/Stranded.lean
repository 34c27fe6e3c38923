import FissLock.OneHost.Contention

/-!
# Stranded tasks on one BMv2 host

When nothing is in flight and no task has the lock, nobody should be waiting and the lock should be
free everywhere: the queue empty, the host not the agent, the register of the switch `FREE`.

For a lock that the host manages itself this is so (`TendedLm`).  For any other lock it never is,
from the first request on.

* The switch echoes an accepted `FREE`, the host takes it for a rejection, and stays the agent of a
  lock that nobody holds (`Lingers`).  Every later request is queued behind a holder that does not
  exist.
* A request that the switch forwards reaches a host that is not the agent.  `lock.cc` returns 1, so
  that the request is sent back to the switch, and `bmv2_net.cc` ignores it.
* A request for a manager elsewhere is never answered.

`no_stranded_task` puts this together.
-/

namespace FissLock

open Runs

namespace OneHost

variable {h : HostId} {lid : LockId} {s : OneHost} {t : TaskId} {p : LockHdr} {rest : List LockHdr}

/-- Nothing is in flight, and no task is between grant and release. -/
structure Quiet (s : OneHost) : Prop where
  gaps : s.gaps = []
  up : s.up = []
  down : s.down = []
  nobody : ∀ t, ¬ s.granted t

/-- Nobody is left behind, and the lock can be acquired again. -/
structure Settled (s : OneHost) : Prop where
  answered : ∀ t, s.task t ≠ .waiting
  wqueue : s.lock.wqueue = []
  agent : s.lock.isAgent = false
  free : s.cell.free = LOCK_FREE

/-! ## A lock that the host manages -/

/-- The invariant of a lock that the host manages, with no request lost. -/
structure TendedLm (h : HostId) (lid : LockId) (s : OneHost) (o : Option TaskId) : Prop where
  inv : Managed h lid s o
  cell : s.cell.free = LOCK_FREE
  agent : s.lock.isAgent = false
  waits : ∀ t, s.task t = .waiting →
    0 < s.lock.wqueue.countP (·.taskId = t) + if o = some t then 1 else 0

lemma TendedLm.settled {o : Option TaskId} (hi : TendedLm h lid s o) (hq : Quiet s) :
    Settled s := by
  have hnil : s.told = [] := by rw [told, hq.gaps, hq.up, hq.down]; rfl
  -- the owner would have been told
  obtain rfl : o = none := by
    cases o with
    | none => rfl
    | some a =>
        have hc := hi.inv.task a
        rw [hnil, List.count_nil, if_pos rfl] at hc
        cases hs : s.task a <;> rw [hs] at hc <;> simp only [TaskOk] at hc
        · omega
        · have hf : s.lock.taskGranted a = true := by
            by_contra hf
            simp [flagAt, hf] at hc
          exact absurd (.inr ⟨hs, hf⟩) (hq.nobody a)
        · exact absurd (.inl hs) (hq.nobody a)
  have hwq : s.lock.wqueue = [] := hi.inv.phase.2.2
  refine ⟨fun t ht => ?_, hwq, hi.agent, hi.cell⟩
  have hw := hi.waits t ht
  rw [hwq] at hw
  simp at hw

section Managed

variable {o : Option TaskId}

lemma TendedLm.acquire (hi : TendedLm h lid s o) (hlid : SWITCH_LOCK_NUM ≤ lid.toNat)
    (ht : s.task t = .idle) (hb : t.toNat < 2 ^ 30) :
    ∃ o', TendedLm h lid (s.acquireStep h t) o' := by
  rcases lockAcquireAsync_managed (h := h) (t := t) (hi.inv.outOfRange hlid) with
    ⟨-, hf, hcode⟩ | ⟨-, hf, hcode⟩ | ⟨hne, -⟩
  · have hobs := observe_keep (s := s) (t := t)
      (l := lockAddHolder { s.lock with mode := .excl } (h, t)) rfl rfl
    rw [acquireStep, hcode, hobs]
    refine ⟨_, hi.inv.acquire_free ht hf, hi.cell, hi.agent, fun t' ht' => ?_⟩
    have hph := hi.inv.phase
    obtain rfl : o = none := by
      cases o with
      | none => rfl
      | some a => exact absurd (hf.symm.trans hph.1) (by decide)
    have htt : t' ≠ t := fun e => by
      simp [e] at ht'
    have hw := hi.waits t' (by simpa [Function.update_of_ne htt] using ht')
    rw [if_neg (by rintro ⟨⟩)] at hw
    exact Nat.lt_of_lt_of_le hw (Nat.le_add_right _ _)
  · have hobs := observe_append (s := s) (t := t) (e := Wqe.ofReq .excl t h)
      (l := lockAppendToWq s.lock (Wqe.ofReq .excl t h)) rfl rfl
    rw [acquireStep, hcode, hobs]
    refine ⟨_, hi.inv.acquire_queue ht hb hf, hi.cell, hi.agent, fun t' ht' => ?_⟩
    simp only [lockAppendToWq, List.countP_append, List.countP_singleton, Wqe.taskId_ofReq hb,
      decide_eq_true_eq]
    by_cases htt : t' = t
    · rw [if_pos htt.symm]
      omega
    · have hw := hi.waits t' (by simpa [Function.update_of_ne htt] using ht')
      omega
  · exact absurd hi.inv.manager hne

lemma TendedLm.poll (hi : TendedLm h lid s o) (ht : s.task t = .waiting)
    (hf : s.lock.taskGranted t = true) :
    TendedLm h lid { s with
      lock := { s.lock with taskGranted := Function.update s.lock.taskGranted t false }
      task := Function.update s.task t .holding } o := by
  refine ⟨hi.inv.poll ht hf, hi.cell, hi.agent, fun t' ht' => ?_⟩
  have htt : t' ≠ t := fun e => by
    simp [e] at ht'
  exact hi.waits t' (by simpa [Function.update_of_ne htt] using ht')

lemma TendedLm.release (hi : TendedLm h lid s o) (hlid : SWITCH_LOCK_NUM ≤ lid.toNat)
    (ht : s.task t = .holding) : ∃ o', TendedLm h lid (s.releaseStep h t) o' := by
  obtain rfl := hi.inv.owner_of_granted (.inl ht)
  -- whoever waits is in the queue
  have hwait : ∀ t', Function.update s.task t .idle t' = .waiting →
      0 < s.lock.wqueue.countP (·.taskId = t') := fun t' ht' => by
    have htt : t' ≠ t := fun e => by
      simp [e] at ht'
    have hw := hi.waits t' (by simpa [Function.update_of_ne htt] using ht')
    rwa [if_neg (fun e => htt (Option.some.inj e).symm), add_zero] at hw
  rcases lockRelease_managed (hi.inv.outOfRange hlid) hi.inv.manager hi.inv.phase.2
    (fun e he => (hi.inv.entries e he).1) with ⟨hq, L, hcode⟩ | ⟨e, rest, hq, L, hcode⟩
  · rw [releaseStep, hcode]
    exact ⟨_, hi.inv.release_free ht hq, hi.cell, hi.agent,
      fun t' ht' => Nat.lt_of_lt_of_le (hwait t' ht') (Nat.le_add_right _ _)⟩
  · rw [releaseStep, hcode]
    refine ⟨_, hi.inv.release_handOver ht hq, hi.cell, hi.agent, fun t' ht' => ?_⟩
    have hw := hwait t' ht'
    rw [hq, List.countP_cons] at hw
    simp only [decide_eq_true_eq, Option.some.injEq] at hw ⊢
    exact hw

lemma TendedLm.receive (hi : TendedLm h lid s o) (hdown : s.down = p :: rest) :
    TendedLm h lid (s.receiveStep h p rest) o := by
  have hinv := hi.inv.receive hdown
  have ht := hi.inv.down p (hdown ▸ List.mem_cons_self)
  have hlock : (lockPacketProcess (bmv2Conf h) s.lock p).lock = lockLocalNotify s.lock p.taskId := by
    rw [lockPacketProcess, ht]
    rfl
  refine ⟨hinv, hi.cell, ?_, fun t' ht' => ?_⟩
  · show (lockPacketProcess (bmv2Conf h) s.lock p).lock.isAgent = false
    rw [hlock]
    exact hi.agent
  · show 0 < (lockPacketProcess (bmv2Conf h) s.lock p).lock.wqueue.countP _ + _
    rw [hlock]
    exact hi.waits t' ht'

theorem tendedLm_step (hlid : SWITCH_LOCK_NUM ≤ lid.toNat) {e : HostEvent} {s' : OneHost}
    (hi : TendedLm h lid s o) (hfit : Fits s e) (hs : step h s e = some s') :
    ∃ o', TendedLm h lid s' o' := by
  rcases step_cases hs with ⟨t, rfl, ht, rfl⟩ | ⟨t, ht, hf, rfl⟩ | ⟨t, ht, rfl⟩ |
    ⟨a, b, c, p, hg, rfl⟩ | ⟨a, b, c, t, hg, rfl⟩ | ⟨p, rest, hup, rfl⟩ | ⟨p, rest, rfl, hdown, rfl⟩
  · exact hi.acquire hlid ht hfit
  · exact ⟨o, hi.poll ht hf⟩
  · exact hi.release hlid ht
  · exact ⟨o, hi.inv.resume_send hg, hi.cell, hi.agent, hi.waits⟩
  · obtain ⟨p, hp, -⟩ := hi.inv.gaps (c, .notify t) (by simp [hg])
    cases hp
  · have hinv := hi.inv.switch hlid hup
    have hr : ¬ p.id.toNat < 1024 := by
      rw [(hi.inv.up p (hup ▸ List.mem_cons_self)).id]
      have : 1024 ≤ SWITCH_LOCK_NUM := by decide
      omega
    rw [exchange_outOfRange hr] at hinv ⊢
    exact ⟨o, hinv, hi.cell, hi.agent, hi.waits⟩
  · exact ⟨o, hi.receive hdown⟩

end Managed

/-! ## A lock in range -/

/-- The host is the agent, or one of its `FREE`s will make it the agent again. -/
def Lingers (s : OneHost) : Prop :=
  s.lock.isAgent = true
    ∨ 0 < s.gaps.countP (sends isFree) + s.up.countP isFree + s.down.countP isFree

lemma Lingers.release (hi : Inv h lid s) (hlid : lid.toNat < SWITCH_LOCK_NUM)
    (ht : s.task t = .holding) : Lingers (s.releaseStep h t) := by
  have hc := hi.task t
  rw [ht] at hc
  have hholders := hi.holders_eq hc.2.2.2
  have hagent := (hi.lock.agent (by rw [hholders]; exact Finset.singleton_ne_empty _)).1
  rcases lockRelease_excl (hi.inRange hlid) hagent hholders
    (fun e he => (hi.lock.entries e he).2) with ⟨-, L, f, hcode⟩ | ⟨e, rest, hq, L, f, hcode⟩
  · rw [releaseStep, hcode]
    right
    show 0 < List.countP _ ((t, .send (sendPostFree (bmv2Conf h) s.lock.id
      (s.lock.ncnt.setWidth 8) s.lock.mode)) :: s.gaps) + _ + _
    rw [List.countP_cons_of_pos (by rfl)]
    omega
  · rw [releaseStep, hcode]
    exact .inl hagent

lemma Lingers.acquire (hl : Lingers s) (hi : Inv h lid s) (hlid : lid.toNat < SWITCH_LOCK_NUM) :
    Lingers (s.acquireStep h t) := by
  rcases lockAcquireAsync_excl (h := h) (t := t) (hi.inRange hlid) with ⟨-, f, hcode⟩ | hcode
  · rw [acquireStep, hcode]
    exact hl
  · rw [acquireStep, hcode]
    refine hl.imp id fun hpos => ?_
    show 0 < List.countP _ ((t, .send (sendPostAcquire (bmv2Conf h) .excl s.lock.id h t)) :: s.gaps)
      + _ + _
    rw [countP_sends_cons]
    simp only [observe]
    omega

lemma Lingers.switch (hl : Lingers s) (hi : Inv h lid s) (hup : s.up = p :: rest) :
    Lingers { s with
      cell := (exchange h s.cell p).1
      up := rest
      down := s.down ++ (exchange h s.cell p).2 } := by
  refine hl.imp id fun hpos => ?_
  rw [hup, List.countP_cons] at hpos
  simp only [List.countP_append]
  have hp := hi.up p (hup ▸ List.mem_cons_self)
  rcases hp.kind with ⟨ht, -⟩ | ⟨ht, ho⟩
  · rw [if_neg (by simp [isFree, ht])] at hpos
    omega
  · have hacq : s.cell.free = LOCK_ACQUIRED := hi.acquired_of_free hup ht
    rw [exchange_free (hp.id ▸ hi.range hacq) ht ho hacq hp.machineId]
    simp [isFree, ht]

lemma Lingers.receive (hl : Lingers s) (hi : Inv h lid s) (hlid : lid.toNat < SWITCH_LOCK_NUM)
    (hdown : s.down = p :: rest) : Lingers (s.receiveStep h p rest) := by
  rcases hi.down p (hdown ▸ List.mem_cons_self) with ⟨ht, hm, hg, -, -⟩ | ⟨ht, hm, htr, hb⟩ | ⟨ht, -⟩
  · obtain ⟨hsent, fb, hlock⟩ := receive_request (h := h) (hi.inRange hlid) ht hm hg
      (hi.lock.noMark p.holder)
    refine hl.imp (fun hag => ?_) fun hpos => ?_
    · show (lockPacketProcess (bmv2Conf h) s.lock p).lock.isAgent = true
      rcases hlock with ⟨-, hlock⟩ | hlock <;> rw [hlock] <;> exact hag
    · rw [hdown, List.countP_cons_of_neg (by simp [isFree, ht])] at hpos
      rw [receiveStep, hsent, List.append_nil]
      exact hpos
  · have hid : p.taskId ≠ TASK_FOR_RESTORE := by
      intro he
      rw [he] at hb
      exact absurd hb (by decide)
    left
    show (lockPacketProcess (bmv2Conf h) s.lock p).lock.isAgent = true
    rw [(OneHost.receive_grant (h := h) (l := s.lock) ht hm htr hid).2]
    rfl
  · left
    obtain ⟨-, n, hlock⟩ := OneHost.receive_echo (h := h) ht hi.lock.noDelay
    show (lockPacketProcess (bmv2Conf h) s.lock p).lock.isAgent = true
    rw [hlock]

lemma Lingers.step (hl : Lingers s) (hi : Inv h lid s) (hlid : lid.toNat < SWITCH_LOCK_NUM)
    {e : HostEvent} {s' : OneHost} (hs : step h s e = some s') : Lingers s' := by
  rcases step_cases hs with ⟨t, rfl, ht, rfl⟩ | ⟨t, ht, hf, rfl⟩ | ⟨t, ht, rfl⟩ |
    ⟨a, b, c, p, hg, rfl⟩ | ⟨a, b, c, t, hg, rfl⟩ | ⟨p, rest, hup, rfl⟩ | ⟨p, rest, rfl, hdown, rfl⟩
  · exact hl.acquire hi hlid
  · exact hl
  · exact Lingers.release hi hlid ht
  · refine hl.imp id fun hpos => ?_
    simp only [hg, List.countP_append, countP_sends_cons, List.countP_singleton] at hpos ⊢
    omega
  · refine hl.imp id fun hpos => ?_
    simpa [hg, sends, observe] using hpos
  · exact hl.switch hi hup
  · exact hl.receive hi hlid hdown

/-- Some task is busy with the lock, or the host is left with its agency. -/
def Touched (s : OneHost) : Prop := (∃ t, s.task t ≠ .idle) ∨ Lingers s

lemma touched_acquireStep : Touched (s.acquireStep h t) := by
  refine .inl ⟨t, ?_⟩
  simp only [acquireStep, Function.update_self]
  split <;> simp

lemma Touched.step (ht : Touched s) (hi : Inv h lid s) (hlid : lid.toNat < SWITCH_LOCK_NUM)
    {e : HostEvent} {s' : OneHost} (hs : step h s e = some s') : Touched s' := by
  rcases ht with ⟨b, hb⟩ | hl
  · rcases step_cases hs with ⟨t, rfl, ht, rfl⟩ | ⟨t, ht, hf, rfl⟩ | ⟨t, ht, rfl⟩ |
      ⟨a, b', c, p, hg, rfl⟩ | ⟨a, b', c, t, hg, rfl⟩ | ⟨p, rest, hup, rfl⟩ |
      ⟨p, rest, rfl, hdown, rfl⟩
    · exact touched_acquireStep
    · exact .inl ⟨t, by simp⟩
    · exact .inr (Lingers.release hi hlid ht)
    · exact .inl ⟨b, hb⟩
    · exact .inl ⟨b, hb⟩
    · exact .inl ⟨b, hb⟩
    · exact .inl ⟨b, hb⟩
  · exact .inr (hl.step hi hlid hs)

/-- A busy task is not answered when all is quiet. -/
lemma Quiet.not_settled_of_busy (hq : Quiet s) (hb : ∃ t, s.task t ≠ .idle) : ¬ Settled s := by
  intro hset
  obtain ⟨t, ht⟩ := hb
  cases hs : s.task t with
  | idle => exact ht hs
  | waiting => exact hset.answered t hs
  | holding => exact hq.nobody t (.inl hs)

lemma Quiet.not_settled (hq : Quiet s) (ht : Touched s) : ¬ Settled s := by
  rcases ht with hb | hag | hpos
  · exact hq.not_settled_of_busy hb
  · intro hset
    exact absurd (hag.symm.trans hset.agent) (by decide)
  · rw [hq.gaps, hq.up, hq.down] at hpos
    simp at hpos

/-! ## The result -/

lemma settled_init (lid : LockId) : Settled (init lid) := ⟨nofun, rfl, rfl, rfl⟩

/-- Without a request nothing happens. -/
lemma eq_init_of_no_request {es : List HostEvent} (hno : ∀ t, HostEvent.acquire t ∉ es)
    (hrun : runFrom (step h) Fits (init lid) es = some s) : s = init lid := by
  refine runFrom_preserves (fun s => s = init lid) ?_ rfl hrun
  rintro _ e s' he rfl hs
  cases e with
  | acquire t => exact absurd he (hno t)
  | poll t => simp [step, init] at hs
  | release t => simp [step, init] at hs
  | resume i => simp [step, init] at hs
  | switch => simp [step, init] at hs
  | receive => simp [step, init] at hs

/-- From the first request on, a lock that the host does not manage is never settled again. -/
lemma not_settled_of_request (hnot : ¬ (SWITCH_LOCK_NUM ≤ lid.toNat ∧ lockToLm (.init lid) = h))
    {es : List HostEvent} (hask : HostEvent.acquire t ∈ es)
    (hrun : runFrom (step h) Fits (init lid) es = some s) (hq : Quiet s) : ¬ Settled s := by
  have hmake : ∀ {s s' : OneHost}, step h s (.acquire t) = some s' → s' = s.acquireStep h t := by
    intro s s' hs
    simp only [step] at hs
    split at hs
    · exact (Option.some.inj hs).symm
    · cases hs
  rcases Nat.lt_or_ge lid.toNat SWITCH_LOCK_NUM with hlid | hlid
  · refine hq.not_settled (runFrom_since (I := Inv h lid) (J := Touched) ?_ ?_ (inv_init h lid) hask
      hrun)
    · exact fun _ _ _ hi hfit hs => ⟨inv_step hlid hi hfit hs, fun ht => ht.step hi hlid hs⟩
    · exact fun _ _ _ hs => hmake hs ▸ touched_acquireStep
  · have hm : lockToLm (.init lid) ≠ h := fun hm => hnot ⟨hlid, hm⟩
    refine hq.not_settled_of_busy (runFrom_since (I := Unmanaged h lid)
      (J := fun s => ∃ t, s.task t ≠ .idle) ?_ ?_ (unmanaged_init hm) hask hrun)
    · refine fun s e s' hi _ hs => ⟨unmanaged_step hlid hi hs, ?_⟩
      rintro ⟨b, hb⟩
      rcases step_cases hs with ⟨t, rfl, ht, rfl⟩ | ⟨t, ht, hf, rfl⟩ | ⟨t, ht, rfl⟩ |
        ⟨a, b', c, p, hg, rfl⟩ | ⟨a, b', c, t, hg, rfl⟩ | ⟨p, rest, hup, rfl⟩ |
        ⟨p, rest, rfl, hdown, rfl⟩
      · exact ⟨t, by simp only [acquireStep, Function.update_self]; split <;> simp⟩
      · exact ⟨t, by simp⟩
      · exact absurd ht (hi.task t)
      · exact ⟨b, hb⟩
      · exact ⟨b, hb⟩
      · exact ⟨b, hb⟩
      · exact ⟨b, hb⟩
    · intro s s' _ hs
      rw [hmake hs]
      exact ⟨t, by simp only [acquireStep, Function.update_self]; split <;> simp⟩

/-- **No stranded task, exactly.**  Take any run with task ids that fit into a queue entry, at whose
end nothing is in flight and no task has the lock.  Then nobody is left behind and the lock can be
acquired again if the host manages the lock itself, or if nobody has asked for it yet; and in no
other case. -/
theorem no_stranded_task {es : List HostEvent}
    (hrun : runFrom (step h) Fits (init lid) es = some s) (hq : Quiet s) :
    Settled s ↔ (∀ t, HostEvent.acquire t ∉ es)
      ∨ SWITCH_LOCK_NUM ≤ lid.toNat ∧ lockToLm (.init lid) = h := by
  constructor
  · intro hset
    by_contra hnot
    obtain ⟨hask, hm⟩ := not_or.1 hnot
    obtain ⟨t, ht⟩ := not_forall_not.1 hask
    exact not_settled_of_request hm ht hrun hq hset
  · rintro (hno | ⟨hlid, hm⟩)
    · rw [eq_init_of_no_request hno hrun]
      exact settled_init lid
    · have hreach : Reachable h lid Fits s := .of_runFrom .start hrun
      obtain ⟨o, hi⟩ : ∃ o, TendedLm h lid s o :=
        hreach.invariant (I := fun s => ∃ o, TendedLm h lid s o)
          ⟨none, managed_init hm, rfl, rfl, fun _ => nofun⟩
          fun _ _ _ ⟨_, hi⟩ hfit hs => tendedLm_step hlid hi hfit hs
      exact hi.settled hq

/-- Nobody has the lock if nobody is a holder and, for a lock out of range, its mode is `FREE`. -/
lemma nobody_granted (hrun : Reachable h lid Fits s) (hh : s.lock.holders = ∅)
    (hf : SWITCH_LOCK_NUM ≤ lid.toNat → s.lock.mode = .free) : ∀ t, ¬ s.granted t := by
  intro t hg
  rcases Nat.lt_or_ge lid.toNat SWITCH_LOCK_NUM with hlid | hlid
  · have hi := inv_of_reachable hlid hrun
    have hheld := hi.held_of_granted hg
    rw [heldAt, hh] at hheld
    simp at hheld
  · by_cases hm : lockToLm (.init lid) = h
    · obtain ⟨o, hi⟩ := managed_of_reachable hlid hm hrun
      obtain rfl := hi.owner_of_granted hg
      exact absurd ((hf hlid).symm.trans hi.phase.1) (by decide)
    · exact (unmanaged_of_reachable hlid hm hrun).not_granted hg

/-- The end of a concrete run, when nothing is in flight and nobody has the lock there. -/
lemma exists_quiet (h : HostId) (lid : LockId) (es : List HostEvent) (P : OneHost → Prop)
    [DecidablePred P]
    (hrun : (runFrom (step h) Fits (init lid) es).any (fun s => decide
      (((s.gaps = [] ∧ s.up = []) ∧ s.down = []) ∧ (s.lock.holders = ∅
        ∧ (SWITCH_LOCK_NUM ≤ lid.toNat → s.lock.mode = .free)) ∧ P s)) = true) :
    ∃ s, runFrom (step h) Fits (init lid) es = some s ∧ Quiet s ∧ P s := by
  obtain ⟨s, hs, hP⟩ := (Option.any_eq_true _ _).1 hrun
  obtain ⟨⟨⟨hg, hu⟩, hd⟩, ⟨hh, hf⟩, hP⟩ := of_decide_eq_true hP
  exact ⟨s, hs, ⟨hg, hu, hd, nobody_granted (.of_runFrom .start hs) hh hf⟩, hP⟩

/-- Two tasks acquire, the second one is queued, and both release: of the lock `SWITCH_LOCK_NUM`,
which host 1 manages, nothing is left; of the lock 7 the host is still the agent. -/
theorem no_stranded_task_both_released :
    (∃ s, runFrom (step 1) Fits (init (BitVec.ofNat 32 SWITCH_LOCK_NUM))
        [.acquire 1, .acquire 2, .release 1, .resume 0, .switch, .receive, .poll 2, .release 2]
          = some s ∧ s.served = [2] ∧ Settled s)
      ∧ ∃ s, runFrom (step 1) Fits (init 7)
        [.acquire 1, .resume 0, .switch, .receive, .poll 1, .acquire 2, .release 1, .resume 0,
          .poll 2, .release 2, .resume 0, .switch, .receive] = some s
          ∧ s.served = [2] ∧ ¬ Settled s := by
  constructor
  · obtain ⟨s, hrun, hq, hserved⟩ := exists_quiet 1 (BitVec.ofNat 32 SWITCH_LOCK_NUM)
      [.acquire 1, .acquire 2, .release 1, .resume 0, .switch, .receive, .poll 2, .release 2]
      (fun s => s.served = [2]) (by decide +kernel)
    exact ⟨s, hrun, hserved, (no_stranded_task hrun hq).2 (.inr (by decide +kernel))⟩
  · obtain ⟨s, hrun, hq, hserved⟩ := exists_quiet 1 7
      [.acquire 1, .resume 0, .switch, .receive, .poll 1, .acquire 2, .release 1, .resume 0,
        .poll 2, .release 2, .resume 0, .switch, .receive]
      (fun s => s.served = [2]) (by decide +kernel)
    refine ⟨s, hrun, hserved, fun hset => ?_⟩
    rcases (no_stranded_task hrun hq).1 hset with hno | ⟨hlid, -⟩
    · exact hno 1 List.mem_cons_self
    · exact absurd hlid (by decide)

/-- **A released lock cannot be acquired again.**  Task 1 acquires and releases; the switch echoes
the `FREE`, the host remains the agent, and the request of task 2 waits for nobody. -/
theorem no_stranded_task_fails :
    ¬ ∀ s, Reachable 1 7 (fun _ _ => True) s → Quiet s → Settled s := by
  intro hall
  obtain ⟨s, hrun, hq, hw⟩ := exists_quiet 1 7
    [.acquire 1, .resume 0, .switch, .receive, .poll 1, .release 1, .resume 0, .switch, .receive,
      .acquire 2] (fun s => s.task 2 = .waiting) (by decide +kernel)
  have hreach : Reachable 1 7 Fits s := .of_runFrom .start hrun
  exact (hall s (hreach.mono fun _ _ _ => trivial) hq).answered 2 hw

end OneHost
end FissLock
