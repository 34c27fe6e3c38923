import FissLock.OneHost.Invariant

/-!
# Exclusive contention for a lock that the host manages itself

The switch does not know lock ids from `SWITCH_LOCK_NUM` on, and passes their packets on.  If the
host is the manager of such a lock, `lock_acquire_async` grants a free lock on the spot and queues
every other request, and `lock_release` sends the first waiter a `GRANT_WO_AGENT` through the
switch.  The metadata do not say who owns the lock: an owner that was scheduled from the queue is no
holder.  The invariant `Managed` therefore names the owner.

If it is not, its requests leave for a manager that does not exist in this set-up.  If that is the
other one of the hosts 1 and 2, the host finds them in the capture file of its port and manages the
lock itself; but the answer is the return value of the handler, which `bmv2_net.cc` ignores.  Either
way nobody is granted anything (`Unmanaged`).
-/

namespace FissLock

namespace OneHost

/-! ## What the code does -/

section Code

variable {h : HostId} {l : InnetLock} {t : TaskId}

/-- `lock_acquire_async`: granted at once, queued, or sent to the manager. -/
lemma lockAcquireAsync_managed (hr : lockOutOfRange l = true) :
    (lockToLm l = h ∧ l.mode = .free ∧ lockAcquireAsync (bmv2Conf h) l t .excl
        = ({ lock := lockAddHolder { l with mode := .excl } (h, t) }, .granted))
      ∨ (lockToLm l = h ∧ l.mode ≠ .free ∧ lockAcquireAsync (bmv2Conf h) l t .excl
        = ({ lock := lockAppendToWq l (Wqe.ofReq .excl t h) }, .flag t))
      ∨ (lockToLm l ≠ h ∧ lockAcquireAsync (bmv2Conf h) l t .excl
        = ({ lock := l, sent := [sendPostAcquireLm (bmv2Conf h) .excl l.id (lockToLm l) t] },
          .flag t)) := by
  rw [lockAcquireAsync, if_neg (by decide), if_pos hr]
  by_cases hm : lockToLm l = (bmv2Conf h).localhostId
  · rw [if_pos hm]
    by_cases hf : l.mode = .free
    · exact .inl ⟨hm, hf, by simp [handleAcquireLm, hf, bmv2Conf]⟩
    · refine .inr (.inl ⟨hm, hf, ?_⟩)
      by_cases hs : l.mode = .shared <;>
        simp [handleAcquireLm, hf, hs, bmv2Conf, lockPrepareWait]
  · rw [if_neg hm]
    exact .inr (.inr ⟨hm, rfl⟩)

/-- `lock_release` by the owner of a lock with exclusive requests only. -/
lemma lockRelease_managed (hr : lockOutOfRange l = true) (hm : lockToLm l = h)
    (hh : l.holders ⊆ {(h, t)}) (hw : ∀ e ∈ l.wqueue, e.op = .excl) :
    (l.wqueue = [] ∧ ∃ L, lockRelease (bmv2Conf h) l t
        = { lock := { l with localHolders := L, holders := ∅, mode := .free } })
      ∨ ∃ e rest, l.wqueue = e :: rest ∧ ∃ L, lockRelease (bmv2Conf h) l t
        = { lock := { l with localHolders := L, holders := ∅, wqueue := rest, mode := .excl }
            sent := [sendPostGrant l.id e.host e.taskId] } := by
  have hempty : l.holders.erase (h, t) = ∅ :=
    Finset.subset_empty.1 ((Finset.erase_subset_erase _ hh).trans (by simp))
  have hr' : lockOutOfRange { l with localHolders := l.localHolders.erase t } = true := hr
  have hm' : lockToLm { l with localHolders := l.localHolders.erase t }
      = (bmv2Conf h).localhostId := hm
  have hno : lockNoHolders (lockRemoveHolder
      { l with localHolders := l.localHolders.erase t } (h, t)) = true := decide_eq_true hempty
  rw [lockRelease, if_pos hr', if_pos hm', handleReleaseLm, show (bmv2Conf h).localhostId = h from rfl,
    if_pos hno]
  cases hq : l.wqueue with
  | nil =>
      refine .inl ⟨rfl, l.localHolders.erase t, ?_⟩
      simp [lockRemoveHolder, hempty]
  | cons e rest =>
      have hx := hw e (hq ▸ List.mem_cons_self)
      refine .inr ⟨e, rest, rfl, l.localHolders.erase t, ?_⟩
      simp [lockRemoveHolder, hempty, hx]

/-- A request that the host gets to see for a lock managed elsewhere: its answer is dropped. -/
lemma receive_acquire_outOfRange {p : LockHdr} (hr : lockOutOfRange l = true)
    (ht : p.type = .acquire) :
    (lockPacketProcess (bmv2Conf h) l p).sent = []
      ∧ (lockPacketProcess (bmv2Conf h) l p).lock
        = (handleAcquireLm l p.machineId p.taskId p.modeState).1 := by
  simp only [lockPacketProcess, ht, processAcquire, if_pos hr]
  split <;> exact ⟨rfl, rfl⟩

/-- `handle_acquire_lm` notifies nobody. -/
lemma handleAcquireLm_flags {i : HostId} {op : LockState} :
    (handleAcquireLm l i t op).1.id = l.id
      ∧ (handleAcquireLm l i t op).1.taskGranted = l.taskGranted := by
  rw [handleAcquireLm]
  split_ifs <;> exact ⟨rfl, rfl⟩

end Code

/-! ## The invariant -/

/-- The task that a packet tells of its grant. -/
def grantIn (p : LockHdr) : Option TaskId :=
  if p.type = .grantWoAgent then some p.taskId else none

def gapGrant : TaskId × Gap → Option TaskId
  | (_, .send p) => grantIn p
  | (_, .notify _) => none

/-- The tasks whose grant is on its way. -/
def told (s : OneHost) : List TaskId :=
  s.gaps.filterMap gapGrant ++ s.up.filterMap grantIn ++ s.down.filterMap grantIn

/-- A packet as this manager sends it: a grant to one of its own tasks. -/
structure SentLm (h : HostId) (lid : LockId) (p : LockHdr) : Prop where
  id : p.id = lid
  type : p.type = .grantWoAgent
  machineId : p.machineId = h
  agent : p.agent = h

/-- The invariant of a lock that the host manages, with the given owner. -/
structure Managed (h : HostId) (lid : LockId) (s : OneHost) (owner : Option TaskId) : Prop where
  id : s.lock.id = lid
  manager : lockToLm s.lock = h
  entries : ∀ e ∈ s.lock.wqueue, e.op = .excl ∧ e.host = h
  up : ∀ p ∈ s.up, SentLm h lid p
  gaps : ∀ x ∈ s.gaps, ∃ p, x.2 = .send p ∧ SentLm h lid p
  down : ∀ p ∈ s.down, p.type = .grantWoAgent
  phase : match owner with
    | none => s.lock.mode = .free ∧ s.lock.holders = ∅ ∧ s.lock.wqueue = []
    | some a => s.lock.mode = .excl ∧ s.lock.holders ⊆ {(h, a)}
  task : ∀ t, TaskOk (s.task t) (s.lock.wqueue.countP (·.taskId = t)) (s.told.count t) (s.flagAt t)
    (if owner = some t then 1 else 0)
  order : s.queued = s.served ++ s.told ++ s.lock.wqueue.map Wqe.taskId

section Facts

variable {h : HostId} {lid : LockId} {s : OneHost} {o : Option TaskId} {t : TaskId}

lemma Managed.owner_of_granted (hi : Managed h lid s o) (hg : s.granted t) : o = some t := by
  have hc := hi.task t
  by_contra hn
  rw [if_neg hn] at hc
  rcases hg with ht | ⟨ht, hf⟩
  · rw [ht] at hc
    exact absurd hc.2.2.2 (by decide)
  · have hF : s.flagAt t = 1 := by simp [flagAt, hf]
    rw [ht, hF] at hc
    simp only [TaskOk] at hc
    omega

lemma Managed.owner_of_told (hi : Managed h lid s o) (ht : t ∈ s.told) : o = some t := by
  have hc := hi.task t
  by_contra hn
  rw [if_neg hn] at hc
  have := List.count_pos_iff.2 ht
  cases hs : s.task t <;> rw [hs] at hc <;> simp only [TaskOk] at hc <;> omega

/-- At most one grant is on its way. -/
lemma Managed.told_eq (hi : Managed h lid s o) (ht : t ∈ s.told) : s.told = [t] := by
  have ho := hi.owner_of_told ht
  refine eq_singleton (fun t' ht' => ?_) ?_ ht
  · exact Option.some.inj ((hi.owner_of_told ht').symm.trans ho)
  · have hc := hi.task t
    cases hs : s.task t <;> rw [hs] at hc <;> simp only [TaskOk] at hc <;> omega

/-- So its place does not matter for the order. -/
lemma Managed.told_perm (hi : Managed h lid s o) {ts : List TaskId} (hp : ts.Perm s.told) :
    ts = s.told := by
  cases hl : s.told with
  | nil => exact (hl ▸ hp).eq_nil
  | cons t l =>
      have ht := hi.told_eq (hl ▸ List.mem_cons_self)
      rw [← hl, ht]
      exact (ht ▸ hp).eq_singleton

/-- While the owner holds the lock, no grant is on its way. -/
lemma Managed.told_nil (hi : Managed h lid s o) (ht : s.task t = .holding) : s.told = [] := by
  by_contra hne
  obtain ⟨t', ht'⟩ := List.exists_mem_of_ne_nil _ hne
  obtain rfl : t = t' :=
    Option.some.inj ((hi.owner_of_granted (.inl ht)).symm.trans (hi.owner_of_told ht'))
  have hc := hi.task t
  rw [ht] at hc
  exact List.count_eq_zero.1 hc.2.1 ht'

lemma Managed.outOfRange (hi : Managed h lid s o) (hlid : SWITCH_LOCK_NUM ≤ lid.toNat) :
    lockOutOfRange s.lock = true := by
  rw [lockOutOfRange, hi.id]
  exact decide_eq_true hlid

/-- A step that only moves packets. -/
lemma Managed.move (hi : Managed h lid s o) {gaps : List (TaskId × Gap)} {up down : List LockHdr}
    (hg : ∀ x ∈ gaps, ∃ p, x.2 = .send p ∧ SentLm h lid p) (hu : ∀ p ∈ up, SentLm h lid p)
    (hd : ∀ p ∈ down, p.type = .grantWoAgent)
    (hp : (told { s with gaps := gaps, up := up, down := down }).Perm s.told) :
    Managed h lid { s with gaps := gaps, up := up, down := down } o := by
  have htold := hi.told_perm hp
  refine ⟨hi.id, hi.manager, hi.entries, hu, hg, hd, hi.phase, fun t' => ?_, ?_⟩
  · rw [htold]
    exact hi.task t'
  · rw [htold]
    exact hi.order

/-! ## Every step keeps the invariant -/

/-- The lock is free, and granted at once. -/
lemma Managed.acquire_free (hi : Managed h lid s o) (ht : s.task t = .idle)
    (hf : s.lock.mode = .free) :
    Managed h lid { s with
      lock := lockAddHolder { s.lock with mode := .excl } (h, t)
      task := Function.update s.task t .holding } (some t) := by
  have hph := hi.phase
  obtain rfl : o = none := by
    cases o with
    | none => rfl
    | some a => exact absurd (hf.symm.trans hph.1) (by decide)
  refine ⟨hi.id, hi.manager, hi.entries, hi.up, hi.gaps, hi.down, ⟨rfl, ?_⟩, fun t' => ?_, hi.order⟩
  · simp [lockAddHolder, hph.2.1]
  · have hc := hi.task t'
    by_cases htt : t' = t
    · subst htt
      rw [ht] at hc
      simp only [Function.update_self, if_true]
      exact ⟨hc.1, hc.2.1, hc.2.2.1, rfl⟩
    · simp only [Function.update_of_ne htt, if_neg (fun e => htt (Option.some.inj e).symm)]
      exact hc

/-- The lock is owned, and the request is queued. -/
lemma Managed.acquire_queue (hi : Managed h lid s o) (ht : s.task t = .idle)
    (hb : t.toNat < 2 ^ 30) (hf : s.lock.mode ≠ .free) :
    Managed h lid { s with
      lock := lockAppendToWq s.lock (Wqe.ofReq .excl t h)
      queued := s.queued ++ [t]
      task := Function.update s.task t .waiting } o := by
  have hph := hi.phase
  refine ⟨hi.id, hi.manager, fun e he => ?_, hi.up, hi.gaps, hi.down, ?_, fun t' => ?_, ?_⟩
  · rcases List.mem_append.1 he with he | he
    · exact hi.entries e he
    · rw [List.mem_singleton.1 he]
      exact ⟨rfl, rfl⟩
  · cases o with
    | none => exact absurd hph.1 hf
    | some a => exact hph
  · have hc := hi.task t'
    simp only [lockAppendToWq, List.countP_append, List.countP_singleton, Wqe.taskId_ofReq hb,
      decide_eq_true_eq]
    by_cases htt : t' = t
    · subst htt
      rw [ht] at hc
      simp only [Function.update_self, if_true]
      exact .inl ⟨by rw [hc.1], hc.2.1, hc.2.2.1, hc.2.2.2⟩
    · simp only [Function.update_of_ne htt, if_neg (Ne.symm htt), add_zero]
      exact hc
  · rw [hi.order]
    simp [told, lockAppendToWq, Wqe.taskId_ofReq hb]

/-- The grant is observed. -/
lemma Managed.poll (hi : Managed h lid s o) (ht : s.task t = .waiting)
    (hf : s.lock.taskGranted t = true) :
    Managed h lid { s with
      lock := { s.lock with taskGranted := Function.update s.lock.taskGranted t false }
      task := Function.update s.task t .holding } o := by
  refine ⟨hi.id, hi.manager, hi.entries, hi.up, hi.gaps, hi.down, hi.phase, fun t' => ?_, hi.order⟩
  have hc := hi.task t'
  by_cases htt : t' = t
  · subst htt
    have hF : s.flagAt t' = 1 := by simp [flagAt, hf]
    rw [ht, hF] at hc
    simp only [Function.update_self]
    rcases hc with ⟨-, -, h3, -⟩ | ⟨h1, h2, h3⟩
    · omega
    · exact ⟨h1, show s.told.count t' = 0 by omega, by simp [flagAt], h3⟩
  · simp only [Function.update_of_ne htt, flagAt]
    exact hc

/-- The owner leaves and nobody waits. -/
lemma Managed.release_free (hi : Managed h lid s o) (ht : s.task t = .holding)
    (hq : s.lock.wqueue = []) {L : Finset TaskId} :
    Managed h lid { s with
      lock := { s.lock with localHolders := L, holders := ∅, mode := .free }
      task := Function.update s.task t .idle } none := by
  obtain rfl := hi.owner_of_granted (.inl ht)
  refine ⟨hi.id, hi.manager, hi.entries, hi.up, hi.gaps, hi.down, ⟨rfl, rfl, hq⟩, fun t' => ?_,
    hi.order⟩
  have hc := hi.task t'
  by_cases htt : t' = t
  · subst htt
    rw [ht] at hc
    simp only [Function.update_self]
    exact ⟨hc.1, hc.2.1, hc.2.2.1, rfl⟩
  · rw [if_neg (fun e => htt (Option.some.inj e).symm)] at hc
    simp only [Function.update_of_ne htt]
    exact hc

/-- The owner leaves and the first waiter is to be sent a grant. -/
lemma Managed.release_handOver (hi : Managed h lid s o) (ht : s.task t = .holding) {e : Wqe}
    {rest : List Wqe} (hq : s.lock.wqueue = e :: rest) {L : Finset TaskId} :
    Managed h lid { s with
      lock := { s.lock with localHolders := L, holders := ∅, wqueue := rest, mode := .excl }
      gaps := (t, .send (sendPostGrant s.lock.id e.host e.taskId)) :: s.gaps
      task := Function.update s.task t .idle } (some e.taskId) := by
  obtain rfl := hi.owner_of_granted (.inl ht)
  have hent := hi.entries e (hq ▸ List.mem_cons_self)
  have hnil := hi.told_nil ht
  have htold : told { s with
      gaps := (t, .send (sendPostGrant s.lock.id e.host e.taskId)) :: s.gaps } = [e.taskId] := by
    show e.taskId :: s.told = _
    rw [hnil]
  have hcount : ∀ t', s.lock.wqueue.countP (·.taskId = t')
      = rest.countP (·.taskId = t') + if e.taskId = t' then 1 else 0 := fun t' => by
    rw [hq, List.countP_cons]
    simp only [decide_eq_true_eq]
  -- the first waiter waits, and is not the owner yet
  have hwait : s.task e.taskId = .waiting ∧ rest.countP (·.taskId = e.taskId) = 0
      ∧ s.flagAt e.taskId = 0 := by
    have hce := hi.task e.taskId
    have h1 := hcount e.taskId
    rw [if_pos rfl] at h1
    cases hs : s.task e.taskId <;> rw [hs] at hce <;> simp only [TaskOk] at hce
    · omega
    · exact ⟨rfl, by omega, by omega⟩
    · omega
  have hne : e.taskId ≠ t := fun heq => by
    rw [heq, ht] at hwait
    cases hwait.1
  refine ⟨hi.id, hi.manager, fun e' he' => hi.entries e' (hq ▸ List.mem_cons_of_mem _ he'), hi.up,
    fun x hx => ?_, hi.down, ⟨rfl, Finset.empty_subset _⟩, fun t' => ?_, ?_⟩
  · rcases List.mem_cons.1 hx with rfl | hx
    · exact ⟨_, rfl, hi.id, rfl, hent.2, hent.2⟩
    · exact hi.gaps x hx
  · have hc := hi.task t'
    rw [hcount, hnil, List.count_nil] at hc
    show TaskOk _ _ (told { s with
      gaps := (t, .send (sendPostGrant s.lock.id e.host e.taskId)) :: s.gaps } |>.count t') _ _
    rw [htold]
    by_cases htt : t' = t
    · subst htt
      rw [ht, if_neg hne] at hc
      simp only [Function.update_self]
      refine ⟨hc.1, ?_, hc.2.2.1, if_neg fun e => hne (Option.some.inj e)⟩
      exact List.count_eq_zero.2 (by simpa using Ne.symm hne)
    · simp only [Function.update_of_ne htt]
      by_cases hte : t' = e.taskId
      · subst hte
        rw [hwait.1, if_pos rfl, List.count_singleton_self]
        exact .inr ⟨hwait.2.1, congrArg (1 + ·) hwait.2.2, rfl⟩
      · have ho : ¬ some e.taskId = some t' := fun e => hte (Option.some.inj e).symm
        have ho' : ¬ some t = some t' := fun e => htt (Option.some.inj e).symm
        rw [if_neg ho', if_neg (Ne.symm hte)] at hc
        rw [if_neg ho, List.count_eq_zero.2 (by simpa using hte)]
        exact hc
  · have hord := hi.order
    rw [hnil, hq] at hord
    show s.queued = s.served ++ told { s with
      gaps := (t, .send (sendPostGrant s.lock.id e.host e.taskId)) :: s.gaps } ++ _
    rw [htold, hord]
    simp

/-- A thread sends its packet. -/
lemma Managed.resume_send (hi : Managed h lid s o) {c : TaskId} {p : LockHdr}
    {a b : List (TaskId × Gap)} (hg : s.gaps = a ++ (c, .send p) :: b) :
    Managed h lid { s with gaps := a ++ b, up := s.up ++ [p] } o := by
  have hmem : (c, Gap.send p) ∈ s.gaps := by simp [hg]
  refine hi.move (fun x hx => hi.gaps x ?_) (fun q hq => ?_) hi.down ?_
  · rw [hg]
    rcases List.mem_append.1 hx with hx | hx <;> simp [hx]
  · rcases List.mem_append.1 hq with hq | hq
    · exact hi.up q hq
    · obtain ⟨p', hp', hsent⟩ := hi.gaps _ hmem
      cases hp'
      rw [List.mem_singleton.1 hq]
      exact hsent
  · rw [List.perm_iff_count]
    intro t'
    have hx : List.count t' (List.filterMap gapGrant ((c, .send p) :: b))
        = List.count t' (List.filterMap grantIn [p]) + List.count t' (List.filterMap gapGrant b) := by
      cases hgr : grantIn p <;>
        simp [gapGrant, hgr, List.count_cons, Nat.add_comm]
    simp only [told, hg, List.filterMap_append, List.count_append, hx]
    omega

/-- A packet passes the switch, which does not know the lock. -/
lemma Managed.switch (hi : Managed h lid s o) (hlid : SWITCH_LOCK_NUM ≤ lid.toNat) {p : LockHdr}
    {rest : List LockHdr} (hup : s.up = p :: rest) :
    Managed h lid { s with
      cell := (exchange h s.cell p).1
      up := rest
      down := s.down ++ (exchange h s.cell p).2 } o := by
  have hp := hi.up p (hup ▸ List.mem_cons_self)
  have hrest : ∀ q ∈ rest, SentLm h lid q := fun q hq => hi.up q (hup ▸ List.mem_cons_of_mem _ hq)
  have hr : ¬ p.id.toNat < 1024 := by
    rw [hp.id]
    have : 1024 ≤ SWITCH_LOCK_NUM := by decide
    omega
  rw [exchange_outOfRange hr]
  have hport : (if p.agent = 0 then p.machineId else p.agent) = h := by
    rw [hp.machineId, hp.agent, ite_self]
  rw [hport, if_pos (reads_portOf h)]
  refine hi.move hi.gaps hrest (fun q hq => ?_) ?_
  · rcases List.mem_append.1 hq with hq | hq
    · exact hi.down q hq
    · rw [List.mem_singleton.1 hq]
      exact hp.type
  · rw [List.perm_iff_count]
    intro t'
    simp only [told, hup, List.filterMap_append, List.filterMap_cons, List.filterMap_nil, grantIn,
      hp.type, if_true, List.count_append, List.count_cons, List.count_nil]
    omega

/-- A grant arrives. -/
lemma Managed.receive (hi : Managed h lid s o) {p : LockHdr} {rest : List LockHdr}
    (hdown : s.down = p :: rest) : Managed h lid (s.receiveStep h p rest) o := by
  have ht := hi.down p (hdown ▸ List.mem_cons_self)
  have hcode : (lockPacketProcess (bmv2Conf h) s.lock p).sent = []
      ∧ (lockPacketProcess (bmv2Conf h) s.lock p).lock = lockLocalNotify s.lock p.taskId := by
    rw [lockPacketProcess, ht]
    exact ⟨rfl, rfl⟩
  have hmem : p.taskId ∈ s.told := by
    simp [told, hdown, grantIn, ht]
  have hone := hi.told_eq hmem
  have ho := hi.owner_of_told hmem
  have hnil : told { s with down := rest } = [] := by
    have hlen := congrArg List.length hone
    simp only [told, hdown, List.length_append, List.filterMap_cons, grantIn, ht, if_true,
      List.length_cons, List.length_nil] at hlen
    refine List.length_eq_zero_iff.1 ?_
    simp only [told, grantIn, List.length_append]
    omega
  have hwait : s.task p.taskId = .waiting ∧ s.lock.wqueue.countP (·.taskId = p.taskId) = 0
      ∧ s.flagAt p.taskId = 0 := by
    have hc := hi.task p.taskId
    rw [hone, List.count_singleton_self] at hc
    cases hs : s.task p.taskId <;> rw [hs] at hc <;> simp only [TaskOk] at hc
    · omega
    · exact ⟨rfl, by omega, by omega⟩
    · omega
  have hflag : s.lock.taskGranted p.taskId = false := by
    by_contra hf
    simp [flagAt, hf] at hwait
  have hcount : s.served.count p.taskId < s.queued.count p.taskId := by
    rw [hi.order, hone]
    simp only [List.count_append, List.count_singleton_self]
    omega
  rw [receiveStep, hcode.1, hcode.2, List.append_nil,
    observe_grant (l := lockLocalNotify s.lock p.taskId) rfl hflag (by simp [lockLocalNotify]),
    if_pos hcount]
  refine ⟨hi.id, hi.manager, hi.entries, hi.up, hi.gaps,
    fun q hq => hi.down q (hdown ▸ List.mem_cons_of_mem _ hq), ?_, fun t' => ?_, ?_⟩
  · subst ho
    exact hi.phase
  · have hc := hi.task t'
    show TaskOk _ _ (told { s with down := rest } |>.count t') _ _
    rw [hnil, List.count_nil]
    rw [hone] at hc
    by_cases htt : t' = p.taskId
    · subst htt
      rw [if_pos ho]
      simp only [hwait.1]
      exact .inr ⟨hwait.2.1, by simp [flagAt, lockLocalNotify], rfl⟩
    · rw [List.count_eq_zero.2 (by simpa using htt)] at hc
      have hf : flagAt { s with lock := lockLocalNotify s.lock p.taskId } t' = s.flagAt t' := by
        simp [flagAt, lockLocalNotify, htt]
      exact hf.symm ▸ hc
  · show s.queued = s.served ++ [p.taskId] ++ told { s with down := rest } ++ _
    rw [hnil, hi.order, hone, List.append_nil]
    rfl

end Facts

lemma managed_init {h : HostId} {lid : LockId} (hm : lockToLm (.init lid) = h) :
    Managed h lid (init lid) none where
  id := rfl
  manager := hm
  entries := by simp [init, InnetLock.init]
  up := by simp [init]
  gaps := by simp [init]
  down := by simp [init]
  phase := ⟨rfl, rfl, rfl⟩
  task _ := ⟨rfl, rfl, rfl, rfl⟩
  order := rfl

section Step

variable {h : HostId} {lid : LockId} {s s' : OneHost} {o : Option TaskId} {t : TaskId}

lemma Managed.acquire (hi : Managed h lid s o) (hlid : SWITCH_LOCK_NUM ≤ lid.toNat)
    (ht : s.task t = .idle) (hb : t.toNat < 2 ^ 30) : ∃ o', Managed h lid (s.acquireStep h t) o' := by
  rcases lockAcquireAsync_managed (h := h) (t := t) (hi.outOfRange hlid) with
    ⟨-, hf, hcode⟩ | ⟨-, hf, hcode⟩ | ⟨hm, -⟩
  · have hobs := observe_keep (s := s) (t := t)
      (l := lockAddHolder { s.lock with mode := .excl } (h, t)) rfl rfl
    rw [acquireStep, hcode, hobs]
    exact ⟨_, hi.acquire_free ht hf⟩
  · have hobs := observe_append (s := s) (t := t) (e := Wqe.ofReq .excl t h)
      (l := lockAppendToWq s.lock (Wqe.ofReq .excl t h)) rfl rfl
    rw [acquireStep, hcode, hobs]
    exact ⟨_, hi.acquire_queue ht hb hf⟩
  · exact absurd hi.manager hm

lemma Managed.release (hi : Managed h lid s o) (hlid : SWITCH_LOCK_NUM ≤ lid.toNat)
    (ht : s.task t = .holding) : ∃ o', Managed h lid (s.releaseStep h t) o' := by
  obtain rfl := hi.owner_of_granted (.inl ht)
  rcases lockRelease_managed (hi.outOfRange hlid) hi.manager hi.phase.2
    (fun e he => (hi.entries e he).1) with ⟨hq, L, hcode⟩ | ⟨e, rest, hq, L, hcode⟩
  · rw [releaseStep, hcode]
    exact ⟨_, hi.release_free ht hq⟩
  · rw [releaseStep, hcode]
    exact ⟨_, hi.release_handOver ht hq⟩

theorem managed_step (hlid : SWITCH_LOCK_NUM ≤ lid.toNat) {e : HostEvent}
    (hi : Managed h lid s o) (hfit : Fits s e) (hs : step h s e = some s') :
    ∃ o', Managed h lid s' o' := by
  rcases step_cases hs with ⟨t, rfl, ht, rfl⟩ | ⟨t, ht, hf, rfl⟩ | ⟨t, ht, rfl⟩ |
    ⟨a, b, c, p, hg, rfl⟩ | ⟨a, b, c, t, hg, rfl⟩ | ⟨p, rest, hup, rfl⟩ | ⟨p, rest, rfl, hdown, rfl⟩
  · exact hi.acquire hlid ht hfit
  · exact ⟨o, hi.poll ht hf⟩
  · exact hi.release hlid ht
  · exact ⟨o, hi.resume_send hg⟩
  · -- a manager notifies nobody directly
    obtain ⟨p, hp, -⟩ := hi.gaps (c, .notify t) (by simp [hg])
    cases hp
  · exact ⟨o, hi.switch hlid hup⟩
  · exact ⟨o, hi.receive hdown⟩

theorem managed_of_reachable (hlid : SWITCH_LOCK_NUM ≤ lid.toNat) (hm : lockToLm (.init lid) = h)
    (hrun : Reachable h lid Fits s) : ∃ o, Managed h lid s o :=
  hrun.invariant (I := fun s => ∃ o, Managed h lid s o) ⟨none, managed_init hm⟩
    fun _ _ _ ⟨_, hi⟩ hf hs => managed_step hlid hi hf hs

end Step

/-! ## A manager elsewhere -/

/-- A request for the lock. -/
def Asks (lid : LockId) (p : LockHdr) : Prop := p.type = .acquire ∧ p.id = lid

/-- The invariant of a lock that is managed elsewhere: nothing but requests is ever sent, and nobody
is granted anything. -/
structure Unmanaged (h : HostId) (lid : LockId) (s : OneHost) : Prop where
  id : s.lock.id = lid
  manager : lockToLm s.lock ≠ h
  up : ∀ p ∈ s.up, Asks lid p
  gaps : ∀ x ∈ s.gaps, ∃ p, x.2 = .send p ∧ Asks lid p
  down : ∀ p ∈ s.down, Asks lid p
  flag : ∀ t, s.lock.taskGranted t = false
  task : ∀ t, s.task t ≠ .holding
  served : s.served = []

lemma unmanaged_init {h : HostId} {lid : LockId} (hm : lockToLm (.init lid) ≠ h) :
    Unmanaged h lid (init lid) where
  id := rfl
  manager := hm
  up := by simp [init]
  gaps := by simp [init]
  down := by simp [init]
  flag _ := rfl
  task _ := nofun
  served := rfl

section Unmanaged

variable {h : HostId} {lid : LockId} {s s' : OneHost} {t : TaskId}

lemma Unmanaged.outOfRange (hi : Unmanaged h lid s) (hlid : SWITCH_LOCK_NUM ≤ lid.toNat) :
    lockOutOfRange s.lock = true := by
  rw [lockOutOfRange, hi.id]
  exact decide_eq_true hlid

lemma Unmanaged.not_granted (hi : Unmanaged h lid s) : ¬ s.granted t := by
  rintro (ht | ⟨-, hf⟩)
  · exact hi.task t ht
  · rw [hi.flag t] at hf
    cases hf

/-- The request leaves for the manager. -/
lemma Unmanaged.acquire (hi : Unmanaged h lid s) (hlid : SWITCH_LOCK_NUM ≤ lid.toNat) :
    Unmanaged h lid (s.acquireStep h t) := by
  rcases lockAcquireAsync_managed (h := h) (t := t) (hi.outOfRange hlid) with
    ⟨hm, -⟩ | ⟨hm, -⟩ | ⟨-, hcode⟩
  · exact absurd hm hi.manager
  · exact absurd hm hi.manager
  · have hobs := observe_keep (s := s) (t := t) (l := s.lock) rfl rfl
    rw [acquireStep, hcode, hobs]
    refine ⟨hi.id, hi.manager, hi.up, fun x hx => ?_, hi.down, hi.flag, fun t' => ?_, hi.served⟩
    · rcases List.mem_cons.1 hx with rfl | hx
      · exact ⟨_, rfl, rfl, hi.id⟩
      · exact hi.gaps x hx
    · by_cases htt : t' = t
      · subst htt
        simp
      · simpa [Function.update_of_ne htt] using hi.task t'

lemma Unmanaged.resume_send (hi : Unmanaged h lid s) {c : TaskId} {p : LockHdr}
    {a b : List (TaskId × Gap)} (hg : s.gaps = a ++ (c, .send p) :: b) :
    Unmanaged h lid { s with gaps := a ++ b, up := s.up ++ [p] } := by
  refine ⟨hi.id, hi.manager, fun q hq => ?_, fun x hx => hi.gaps x ?_, hi.down, hi.flag, hi.task,
    hi.served⟩
  · rcases List.mem_append.1 hq with hq | hq
    · exact hi.up q hq
    · obtain ⟨p', hp', hasks⟩ := hi.gaps (c, .send p) (by simp [hg])
      cases hp'
      rw [List.mem_singleton.1 hq]
      exact hasks
  · rw [hg]
    rcases List.mem_append.1 hx with hx | hx <;> simp [hx]

lemma Unmanaged.switch (hi : Unmanaged h lid s) (hlid : SWITCH_LOCK_NUM ≤ lid.toNat) {p : LockHdr}
    {rest : List LockHdr} (hup : s.up = p :: rest) :
    Unmanaged h lid { s with
      cell := (exchange h s.cell p).1
      up := rest
      down := s.down ++ (exchange h s.cell p).2 } := by
  have hp := hi.up p (hup ▸ List.mem_cons_self)
  have hr : ¬ p.id.toNat < 1024 := by
    rw [hp.2]
    have : 1024 ≤ SWITCH_LOCK_NUM := by decide
    omega
  rw [exchange_outOfRange hr]
  refine ⟨hi.id, hi.manager, fun q hq => hi.up q (hup ▸ List.mem_cons_of_mem p hq), hi.gaps,
    fun q hq => ?_, hi.flag, hi.task, hi.served⟩
  rcases List.mem_append.1 hq with hq | hq
  · exact hi.down q hq
  · rw [List.mem_ite_nil_right, List.mem_singleton] at hq
    rw [hq.2]
    exact hp

/-- The host takes a request for the manager that it is not. -/
lemma Unmanaged.receive (hi : Unmanaged h lid s) (hlid : SWITCH_LOCK_NUM ≤ lid.toNat) {p : LockHdr}
    {rest : List LockHdr} (hdown : s.down = p :: rest) : Unmanaged h lid (s.receiveStep h p rest) := by
  have ht := (hi.down p (hdown ▸ List.mem_cons_self)).1
  obtain ⟨hsent, hlock⟩ := receive_acquire_outOfRange (h := h) (hi.outOfRange hlid) ht
  obtain ⟨hid, hflag⟩ : (handleAcquireLm s.lock p.machineId p.taskId p.modeState).1.id = s.lock.id
      ∧ (handleAcquireLm s.lock p.machineId p.taskId p.modeState).1.taskGranted
        = s.lock.taskGranted := handleAcquireLm_flags
  rw [receiveStep, hsent, hlock, List.append_nil]
  refine ⟨hid.trans hi.id, ?_, hi.up, hi.gaps,
    fun q hq => hi.down q (hdown ▸ List.mem_cons_of_mem p hq), fun t' => ?_, hi.task, ?_⟩
  · show lockToLm (handleAcquireLm s.lock p.machineId p.taskId p.modeState).1 ≠ h
    rw [lockToLm, hid]
    exact hi.manager
  · show (handleAcquireLm s.lock p.machineId p.taskId p.modeState).1.taskGranted t' = false
    rw [hflag]
    exact hi.flag t'
  · simp only [observe, hflag]
    rw [if_neg fun hg => by simp [hi.flag] at hg]
    exact hi.served

theorem unmanaged_step (hlid : SWITCH_LOCK_NUM ≤ lid.toNat) {e : HostEvent}
    (hi : Unmanaged h lid s) (hs : step h s e = some s') : Unmanaged h lid s' := by
  rcases step_cases hs with ⟨t, rfl, ht, rfl⟩ | ⟨t, ht, hf, rfl⟩ | ⟨t, ht, rfl⟩ |
    ⟨a, b, c, p, hg, rfl⟩ | ⟨a, b, c, t, hg, rfl⟩ | ⟨p, rest, hup, rfl⟩ | ⟨p, rest, rfl, hdown, rfl⟩
  · exact hi.acquire hlid
  · exact absurd (.inr ⟨ht, hf⟩) hi.not_granted
  · exact absurd (.inl ht) hi.not_granted
  · exact hi.resume_send hg
  · obtain ⟨p, hp, -⟩ := hi.gaps (c, .notify t) (by simp [hg])
    cases hp
  · exact hi.switch hlid hup
  · exact hi.receive hlid hdown

theorem unmanaged_of_reachable (hlid : SWITCH_LOCK_NUM ≤ lid.toNat)
    (hm : lockToLm (.init lid) ≠ h) {ok : OneHost → HostEvent → Prop}
    (hrun : Reachable h lid ok s) : Unmanaged h lid s :=
  hrun.invariant (unmanaged_init hm) fun _ _ _ hi _ hs => unmanaged_step hlid hi hs

/-- **Safe and fair**, for a lock that the switch does not know. -/
theorem managed_safe_and_fair (hlid : SWITCH_LOCK_NUM ≤ lid.toNat)
    (hrun : Reachable h lid Fits s) :
    (∀ t t', s.granted t → s.granted t' → t = t') ∧ s.served <+: s.queued := by
  by_cases hm : lockToLm (.init lid) = h
  · obtain ⟨o, hi⟩ := managed_of_reachable hlid hm hrun
    refine ⟨fun t t' ht ht' => ?_, ?_⟩
    · exact Option.some.inj ((hi.owner_of_granted ht).symm.trans (hi.owner_of_granted ht'))
    · rw [hi.order, List.append_assoc]
      exact List.prefix_append _ _
  · have hi := unmanaged_of_reachable hlid hm hrun
    refine ⟨fun t _ ht _ => absurd ht hi.not_granted, ?_⟩
    rw [hi.served]
    exact List.nil_prefix

end Unmanaged

end OneHost
end FissLock
