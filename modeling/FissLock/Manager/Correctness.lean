import FissLock.Host.PacketBuffers
import FissLock.Manager.System

/-!
# The lock manager implements a readers-writer lock

`Represents` relates the manager's metadata to the abstract lock of `Library/ReadersWriter.lean`.
The only subtle case is an exclusively owned lock: its owner is in `holders` if it got the lock when
it was free, and is **nowhere** in the metadata if it was scheduled from the queue.

As long as every task id fits into the 30 bits of a queue entry, and every queue that is digested
into the arrays of `lock_digest_wq`, each packet and each call at the manager is matched by one
operation of the abstract lock (`step_simulated`), so every run of the manager is a run of a
readers-writer lock and `manager_correct` follows.  With larger ids it is not: the entry names
another task, and that one is sent the grant (`manager_correct_fails`).

`abort_never_safe` is about releasing a request that still waits.  `handle_release_lm` does not look
for it in the queue; it either leaves the request where it is or hands the lock on, although it is
held.
-/

namespace FissLock

open Runs ReadersWriter

/-- The metadata `l` stand for a lock in phase `p` with queue `q`. -/
structure Represents (l : InnetLock) (p : Phase LockHolder) (q : List (LockHolder × Bool)) :
    Prop where
  queue : q = l.wqueue.map fun e => (e.holder, e.op.bit)
  ops : ∀ e ∈ l.wqueue, e.op = .shared ∨ e.op = .excl
  phase : match p with
    | .free => l.mode = .free ∧ l.holders = ∅
    | .shared S => l.mode = .shared ∧ l.holders = S
    | .excl a => l.mode = .excl ∧ l.holders ⊆ {a}

variable {l : InnetLock} {p : Phase LockHolder} {q : List (LockHolder × Bool)}

/-- Appending a request whose task id fits into an entry. -/
lemma Represents.append (hr : Represents l p q) {h : HostId} {t : TaskId} {op : LockState}
    (ht : t.toNat < 2 ^ 30) (hop : op = .shared ∨ op = .excl) :
    Represents (lockAppendToWq l (Wqe.ofReq op t h)) p (q ++ [((h, t), op.bit)]) where
  queue := by simp [lockAppendToWq, hr.queue, Wqe.holder_ofReq ht]
  ops e he := by
    rcases List.mem_append.1 he with he | he
    · exact hr.ops e he
    · rw [List.mem_singleton.1 he]
      exact hop
  phase := hr.phase

/-- `handle_acquire_lm` is the abstract acquire. -/
lemma Represents.acquire (hr : Represents l p q) {h : HostId} {t : TaskId} {op : LockState}
    (ht : t.toNat < 2 ^ 30) (hop : op = .shared ∨ op = .excl) :
    let r := handleAcquireLm l h t op
    let g := ReadersWriter.acquire p q (h, t) op.bit
    Represents r.1 g.phase g.queue ∧ r.1.id = l.id ∧ (if r.2 then [(h, t)] else []) = g.grantees := by
  have hph := hr.phase
  cases p with
  | free =>
      obtain ⟨hm, hh⟩ := hph
      simp only [handleAcquireLm, if_pos hm]
      rcases hop with rfl | rfl
      · exact ⟨⟨hr.queue, hr.ops, rfl, by simp [lockAddHolder, hh]⟩, rfl, rfl⟩
      · exact ⟨⟨hr.queue, hr.ops, rfl, by simp [lockAddHolder, hh]⟩, rfl, rfl⟩
  | shared S =>
      obtain ⟨hm, hh⟩ := hph
      have hf : ¬ l.mode = .free := by rw [hm]; decide
      simp only [handleAcquireLm, if_neg hf, if_pos hm]
      rcases hop with rfl | rfl
      · exact ⟨⟨hr.queue, hr.ops, hm, by simp [lockAddHolder, hh]⟩, rfl, rfl⟩
      · exact ⟨hr.append ht (.inr rfl), rfl, rfl⟩
  | excl a =>
      obtain ⟨hm, hh⟩ := hph
      have hf : ¬ l.mode = .free := by rw [hm]; decide
      have hs : ¬ l.mode = .shared := by rw [hm]; decide
      simp only [handleAcquireLm, if_neg hf, if_neg hs]
      exact ⟨hr.append ht hop, rfl, rfl⟩

/-- With nobody left in `holders`, what the manager does with its queue is the abstract
scheduling. -/
lemma Represents.schedule (hr : Represents l p q) {lh : LockHolder}
    (he : (lockRemoveHolder l lh).holders = ∅) :
    Represents (lmReleased l lh).1 (ReadersWriter.schedule q).phase (ReadersWriter.schedule q).queue
      ∧ (lmReleased l lh).1.id = l.id
      ∧ (lmReleased l lh).2 = (ReadersWriter.schedule q).grantees := by
  have hq := hr.queue
  have hops := hr.ops
  cases hw : l.wqueue with
  | nil =>
      rw [lmReleased_nil he hw, hq, hw]
      exact ⟨⟨by simp [lockRemoveHolder, hw]; rfl, hops, rfl, he⟩, rfl, rfl⟩
  | cons w rest =>
      have hbit : ∀ e ∈ l.wqueue, e.op.bit = decide (e.op ≠ .shared) := fun e he => by
        rcases hops e he with h | h <;> rw [h] <;> rfl
      have hwm : w ∈ l.wqueue := hw ▸ List.mem_cons_self
      by_cases hs : w.op = .shared
      · -- all readers become owners
        have hread : (l.wqueue.filter (·.op = .shared)).map Wqe.holder = readers q := by
          rw [readers, hq, List.filter_map, List.map_map]
          refine congrArg₂ List.map rfl (List.filter_congr fun e he => ?_)
          simp [hbit e he]
        have hwrite : (l.wqueue.filter (·.op ≠ .shared)).map (fun e => (e.holder, e.op.bit))
            = q.filter (·.2 = true) := by
          rw [hq, List.filter_map]
          refine congrArg₂ List.map rfl (List.filter_congr fun e he => ?_)
          simp [hbit e he]
        have hsched : ReadersWriter.schedule q
            = ⟨.shared (readers q).toFinset, q.filter (·.2 = true), readers q⟩ := by
          rw [hq, hw, List.map_cons, hs]
          rfl
        rw [lmReleased_shared he hw hs, hsched, hread]
        exact ⟨⟨hwrite.symm, fun e he => hops e (List.mem_of_mem_filter he), rfl, rfl⟩, rfl, rfl⟩
      · have hx : w.op = .excl := (hops w hwm).resolve_left hs
        have hsched : ReadersWriter.schedule q
            = ⟨.excl w.holder, rest.map fun e => (e.holder, e.op.bit), [w.holder]⟩ := by
          rw [hq, hw, List.map_cons, hx]
          rfl
        rw [lmReleased_excl he hw hs, hsched]
        refine ⟨⟨rfl, fun e he => hops e (hw ▸ List.mem_cons_of_mem _ he), hx, ?_⟩, rfl, rfl⟩
        rw [he]
        exact Finset.empty_subset _

/-- A release at the manager, by a client that owns the lock, is the abstract release. -/
lemma Represents.release (hr : Represents l p q) {lh : LockHolder} (ha : lh ∈ p.owners) :
    Represents (lmReleased l lh).1 (ReadersWriter.release p q lh).phase
        (ReadersWriter.release p q lh).queue
      ∧ (lmReleased l lh).1.id = l.id
      ∧ (lmReleased l lh).2 = (ReadersWriter.release p q lh).grantees := by
  have hph := hr.phase
  by_cases he : p.owners.erase lh = ∅
  · rw [ReadersWriter.release, if_pos he]
    refine hr.schedule ?_
    cases p with
    | free => cases ha
    | shared S => exact (congrArg (Finset.erase · lh) hph.2).trans he
    | excl a =>
        obtain rfl := Finset.mem_singleton.1 ha
        exact Finset.subset_empty.1 ((Finset.erase_subset_erase lh hph.2).trans (by simp))
  · rw [ReadersWriter.release, if_neg he]
    cases p with
    | free => cases ha
    | shared S =>
        have hh : (lockRemoveHolder l lh).holders = S.erase lh := congrArg (Finset.erase · lh) hph.2
        rw [lmReleased_held (hh ▸ he)]
        exact ⟨⟨hr.queue, hr.ops, hph.1, hh⟩, rfl, rfl⟩
    | excl a =>
        obtain rfl := Finset.mem_singleton.1 ha
        exact absurd (Finset.erase_singleton lh) he

/-! ## Simulation -/

/-- The manager in the state of an abstract lock, with the same history. -/
structure Simulated (lid : LockId) (s : Manager) (t : Service LockHolder) : Prop where
  id : s.lock.id = lid
  lock : Represents s.lock t.phase t.queue
  hist : s.hist = t.hist

/-- The task id of a request fits into a queue entry. -/
def ManagerCall.Fits : ManagerCall → Prop
  | .acquirePacket hdr => hdr.taskId.toNat < 2 ^ 30
  | .acquire t _ => t.toNat < 2 ^ 30
  | _ => True

instance : DecidablePred ManagerCall.Fits
  | .acquirePacket hdr => inferInstanceAs (Decidable (hdr.taskId.toNat < 2 ^ 30))
  | .acquire t _ => inferInstanceAs (Decidable (t.toNat < 2 ^ 30))
  | .releasePacket _ => isTrue trivial
  | .release _ => isTrue trivial

/-- What the packet or call is for the host, when it is about the lock `lid`. -/
def ManagerCall.input (lid : LockId) : ManagerCall → HostInput
  | .acquirePacket hdr => .packet hdr
  | .acquire t op => .acquire lid t op
  | .releasePacket hdr => .packet hdr
  | .release t => .release lid t

/-- The queue that is digested, if there is one, fits into the arrays of `lock_digest_wq`.  A longer
one is written past their end. -/
def DigestFits (cf : Conf) (l : InnetLock) (ev : HostInput) : Prop :=
  ∀ wq ∈ digestedBy cf l ev, wq.length ≤ DPDK_TX_BURST_SIZE

instance (cf : Conf) (l : InnetLock) (ev : HostInput) : Decidable (DigestFits cf l ev) :=
  inferInstanceAs (Decidable (∀ wq ∈ digestedBy cf l ev, wq.length ≤ DPDK_TX_BURST_SIZE))

/-- The manager has room for what it is asked to do. -/
def Manager.Fits (cf : Conf) (s : Manager) (c : ManagerCall) : Prop :=
  c.Fits ∧ DigestFits cf s.lock (c.input s.lock.id)

instance (cf : Conf) (s : Manager) (c : ManagerCall) : Decidable (s.Fits cf c) :=
  inferInstanceAs (Decidable (_ ∧ _))

variable {cf : Conf} {lid : LockId} {s s' : Manager} {t : Service LockHolder}

lemma Simulated.init (lid : LockId) : Simulated lid (.init lid) .start where
  id := rfl
  lock := ⟨rfl, by simp [Manager.init, InnetLock.init], rfl, rfl⟩
  hist := rfl

lemma Simulated.acquired (hs : Simulated lid s t) {h : HostId} {tid : TaskId} {o : LockState}
    (ht : tid.toNat < 2 ^ 30) (hop : o = .shared ∨ o = .excl)
    (hreq : s.hist.request (h, tid) = none) {r : InnetLock × List LockHolder}
    (h1 : r.1 = (handleAcquireLm s.lock h tid o).1)
    (h2 : r.2 = if (handleAcquireLm s.lock h tid o).2 then [(h, tid)] else []) :
    ∃ e' t', t.step e' = some t'
      ∧ Simulated lid ⟨r.1, s.hist.requested (h, tid) o.bit r.2⟩ t' := by
  obtain ⟨hrep, hid, hg⟩ := hs.lock.acquire (h := h) ht hop
  refine ⟨.acquire (h, tid) o.bit, _, if_pos (hs.hist ▸ hreq), ?_⟩
  rw [h1, h2]
  exact ⟨hid.trans hs.id, hrep, by rw [hs.hist, hg]⟩

lemma Simulated.released (hs : Simulated lid s t) (hi : ReadersWriter.Inv t) {lh : LockHolder}
    (hgr : s.hist.granted lh) {r : InnetLock × List LockHolder} {L : Finset TaskId}
    (h1 : r = lmReleased { s.lock with localHolders := L } lh) :
    ∃ e' t', t.step e' = some t' ∧ Simulated lid ⟨r.1, s.hist.released lh r.2⟩ t' := by
  have hgr' : t.hist.granted lh := hs.hist ▸ hgr
  have hrep : Represents { s.lock with localHolders := L } t.phase t.queue :=
    ⟨hs.lock.queue, hs.lock.ops, hs.lock.phase⟩
  obtain ⟨hrep', hid, hg⟩ := hrep.release (hi.mem_owners hgr')
  refine ⟨.release lh, _, if_pos hgr', ?_⟩
  rw [h1]
  exact ⟨hid.trans hs.id, hrep', by rw [hs.hist, hg]⟩

/-- **Every step of the manager is an operation of a readers-writer lock.** -/
theorem step_simulated (hlid : SWITCH_LOCK_NUM ≤ lid.toNat)
    (hcf : cf.localhostId = lockToLm (.init lid)) (hs : Simulated lid s t)
    (hi : ReadersWriter.Inv t) {c : ManagerCall} (hc : c.Fits)
    (h : Manager.step cf false s c = some s') :
    ∃ e' t', t.step e' = some t' ∧ Simulated lid s' t' := by
  have hr : lockOutOfRange s.lock = true := by
    rw [lockOutOfRange, hs.id]
    exact decide_eq_true hlid
  have hm : lockToLm s.lock = cf.localhostId := by
    rw [hcf, lockToLm, lockToLm, hs.id]
    rfl
  cases c with
  | acquirePacket hdr =>
      simp only [Manager.step] at h
      split at h
      · next hg =>
          obtain ⟨h1, h2⟩ := processAcquire_outOfRange cf hr hg.1
          have := hs.acquired (o := hdr.modeState) (r := (_, _)) hc
            (by cases hdr.mode <;> simp [LockHdr.modeState]) hg.2 h1 h2
          rw [LockHdr.modeState, LockState.bit_ofBit] at this
          exact Option.some.inj h ▸ this
      · cases h
  | acquire tid op =>
      simp only [Manager.step] at h
      split at h
      · next hg =>
          obtain ⟨h1, h2⟩ := lockAcquireAsync_outOfRange (t := tid) hr hm hg.1
          exact Option.some.inj h ▸ hs.acquired (r := (_, _)) hc hg.1 hg.2 h1 h2
      · cases h
  | releasePacket hdr =>
      simp only [Manager.step, Manager.mayRelease, Bool.false_eq_true, false_and, or_false] at h
      split at h
      · next hg =>
          obtain ⟨h1, h2⟩ := processRelease_outOfRange cf hr hg.1
          exact Option.some.inj h ▸ hs.released hi hg.2 (r := (_, _)) (Prod.ext h1 h2)
      · cases h
  | release tid =>
      simp only [Manager.step, Manager.mayRelease, Bool.false_eq_true, false_and, or_false] at h
      split at h
      · next hg =>
          obtain ⟨h1, h2⟩ := lockRelease_outOfRange (t := tid) hr hm
          exact Option.some.inj h ▸ hs.released hi hg (r := (_, _)) (Prod.ext h1 h2)
      · cases h

/-- **The manager is a correct lock.**  In every run in which all task ids fit into a queue entry
and all queues that are digested into the arrays, an exclusive owner is alone, the mode is `FREE`
exactly if nobody owns the lock, nobody waits for a lock that nobody owns, no request is granted
twice, and exclusive requests that waited are granted in the order of their arrival. -/
theorem manager_correct (hlid : SWITCH_LOCK_NUM ≤ lid.toNat)
    (hcf : cf.localhostId = lockToLm (.init lid))
    (h : Manager.Reachable cf false lid (Manager.Fits cf) s) :
    s.hist.Correct (s.lock.mode = .free) (s.lock.wqueue = []) := by
  obtain ⟨t, ht, hs⟩ := h.simulation (R := Simulated lid) (Simulated.init lid)
    fun s t c s' hs ht hc hstep => step_simulated hlid hcf hs (inv_of_reachable ht) hc.1 hstep
  have hcorrect := (inv_of_reachable ht).correct
  have hfree : s.lock.mode = .free ↔ t.phase = .free := by
    have hph := hs.lock.phase
    cases hp : t.phase <;> rw [hp] at hph <;> simp [hph.1]
  have hempty : s.lock.wqueue = [] ↔ t.queue = [] := by simp [hs.lock.queue]
  rw [hs.hist, hfree, hempty]
  exact hcorrect

/-- Host 1, which manages the lock `SWITCH_LOCK_NUM`. -/
def managerConf : Conf := { localhostId := 1, enbLocalGrants := true, bmv2 := false }

/-- An `ACQUIRE` packet of a task of host 2. -/
def remoteAcquire (t : TaskId) (op : LockState) : ManagerCall :=
  .acquirePacket (sendPostLockGeneric .acquire op (BitVec.ofNat 32 SWITCH_LOCK_NUM) 2 t [] 0 .free 1)

/-- A `RELEASE` packet of a task of host 2. -/
def remoteRelease (t : TaskId) : ManagerCall :=
  .releasePacket (sendPostReleaseLm (BitVec.ofNat 32 SWITCH_LOCK_NUM) 2 t 1)

/-- Two readers of host 2 wait for an exclusive request, and so does a task of the manager.  The
readers are granted the lock together, and when both have released it the task of the manager owns
it without being a holder. -/
theorem manager_correct_scheduled :
    ∃ s, Manager.Reachable managerConf false (BitVec.ofNat 32 SWITCH_LOCK_NUM)
        (Manager.Fits managerConf) s
      ∧ s.hist.granted (1, 4) ∧ s.lock.holders = ∅
      ∧ s.hist.Correct (s.lock.mode = .free) (s.lock.wqueue = []) := by
  obtain ⟨s, hrun, hg, hh⟩ := Manager.exists_of_run managerConf false
    (BitVec.ofNat 32 SWITCH_LOCK_NUM) (Manager.Fits managerConf)
    [remoteAcquire 1 .excl, remoteAcquire 2 .shared, .acquire 4 .excl, remoteAcquire 3 .shared,
      remoteRelease 1, remoteRelease 2, remoteRelease 3]
    (fun s => s.hist.granted (1, 4) ∧ s.lock.holders = ∅) (by decide +kernel)
  exact ⟨s, hrun, hg, hh, manager_correct (by decide +kernel) (by decide +kernel) hrun⟩

/-- **With large task ids it is not.**  Task `2 ^ 30 + 1` is queued as task 1, which is then sent
two grants for its one request. -/
theorem manager_correct_fails :
    ¬ ∀ s, Manager.Reachable managerConf false (BitVec.ofNat 32 SWITCH_LOCK_NUM)
        (fun _ _ => True) s →
      s.hist.Correct (s.lock.mode = .free) (s.lock.wqueue = []) := by
  intro hall
  obtain ⟨s, hrun, htwice⟩ := Manager.exists_of_run managerConf false
    (BitVec.ofNat 32 SWITCH_LOCK_NUM) (fun _ _ => True)
    [remoteAcquire 5 .excl, remoteAcquire 1 .shared, remoteAcquire (2 ^ 30 + 1) .shared,
      remoteRelease 5]
    (fun s => s.hist.grants (2, 1) = 2) (by decide +kernel)
  have := (hall s hrun).once (2, 1)
  omega

/-! ## Aborts -/

/-- What the release of a request that still waits as entry `e` should do: take this entry out of
the queue, and nothing else. -/
structure AbortSafe (l l' : InnetLock) (e : Wqe) (gs : List LockHolder) : Prop where
  removed : l'.wqueue = l.wqueue.erase e
  nobody : gs = []
  mode : l'.mode = l.mode
  holders : l'.holders = l.holders

/-- A release at the manager grants the lock to somebody, or leaves the queue alone. -/
lemma lmReleased_wqueue (lh : LockHolder) (hq : l.wqueue ≠ []) :
    (lmReleased l lh).2 ≠ [] ∨ (lmReleased l lh).1.wqueue = l.wqueue := by
  by_cases he : (lockRemoveHolder l lh).holders = ∅
  · left
    cases hw : l.wqueue with
    | nil => exact absurd hw hq
    | cons w rest =>
        by_cases hs : w.op = .shared
        · rw [lmReleased_shared he hw hs, hw]
          simp [hs]
        · rw [lmReleased_excl he hw hs]
          exact List.cons_ne_nil _ _
  · rw [lmReleased_held he]
    exact .inr rfl

lemma not_abortSafe_lmReleased {l₀ : InnetLock} {e : Wqe} {lh : LockHolder} (he : e ∈ l.wqueue)
    (hq : l₀.wqueue = l.wqueue) :
    ¬ AbortSafe l (lmReleased l₀ lh).1 e (lmReleased l₀ lh).2 := by
  rintro ⟨hrem, hnobody, -, -⟩
  rcases lmReleased_wqueue lh (hq ▸ List.ne_nil_of_mem he) with h | h
  · exact h hnobody
  · have hlen := List.length_erase_of_mem he
    have hpos := List.length_pos_of_mem he
    rw [← hrem, h, hq] at hlen
    omega

/-- **Aborting a waiting request is never safe.**  Whatever the state of the lock, whoever waits in
its queue and whichever way the release comes in: it hands the lock to somebody, or leaves the
aborted request in the queue. -/
theorem abort_never_safe (hr : lockOutOfRange l = true) {h : HostId} {t : TaskId} {op : LockState}
    (hq : Wqe.ofReq op t h ∈ l.wqueue) :
    (∀ hdr : LockHdr, hdr.type = .release → hdr.holder = (h, t) →
        ¬ AbortSafe l (lockPacketProcess cf l hdr).lock (Wqe.ofReq op t h)
          (grantees (lockPacketProcess cf l hdr).toSwitch))
      ∧ (lockToLm l = cf.localhostId → h = cf.localhostId →
        ¬ AbortSafe l (lockRelease cf l t).lock (Wqe.ofReq op t h)
          (grantees (lockRelease cf l t).sent)) := by
  refine ⟨fun hdr ht _ => ?_, fun hm _ => ?_⟩
  · obtain ⟨h1, h2⟩ := processRelease_outOfRange cf hr ht
    rw [h1, h2]
    exact not_abortSafe_lmReleased hq rfl
  · obtain ⟨h1, h2⟩ := lockRelease_outOfRange (t := t) hr hm
    rw [h1, h2]
    exact not_abortSafe_lmReleased hq rfl

/-- Tasks 2 and 3 of host 2 and task 4 of the manager wait for a lock that task 1 has. -/
def contended : List ManagerCall :=
  [remoteAcquire 1 .excl, remoteAcquire 2 .excl, remoteAcquire 3 .excl, .acquire 4 .excl]

theorem abort_never_safe_contended :
    ∃ s, Manager.Reachable managerConf true (BitVec.ofNat 32 SWITCH_LOCK_NUM) (fun _ _ => True) s
      ∧ ¬ AbortSafe s.lock (lockRelease managerConf s.lock 4).lock (Wqe.ofReq .excl 4 1)
          (grantees (lockRelease managerConf s.lock 4).sent) := by
  obtain ⟨s, hrun, ⟨hr, hq⟩, hm⟩ := Manager.exists_of_run managerConf true
    (BitVec.ofNat 32 SWITCH_LOCK_NUM) (fun _ _ => True) contended
    (fun s => (lockOutOfRange s.lock = true ∧ Wqe.ofReq .excl 4 1 ∈ s.lock.wqueue)
      ∧ lockToLm s.lock = managerConf.localhostId) (by decide +kernel)
  exact ⟨s, hrun, (abort_never_safe hr hq).2 hm rfl⟩

/-- **An abort breaks mutual exclusion.**  Task 2 was scheduled from the queue and is not among the
holders; when task 4, still waiting, gives up, the lock is handed on to task 3. -/
theorem abort_safe_fails :
    ¬ (∀ s, Manager.Reachable managerConf true (BitVec.ofNat 32 SWITCH_LOCK_NUM)
        (fun _ _ => True) s → ∀ t op hdr, hdr.type = .release → hdr.holder = (2, t) →
        Wqe.ofReq op t 2 ∈ s.lock.wqueue → ¬ s.hist.granted (2, t) →
        AbortSafe s.lock (lockPacketProcess managerConf s.lock hdr).lock (Wqe.ofReq op t 2)
          (grantees (lockPacketProcess managerConf s.lock hdr).toSwitch))
    ∧ ¬ (∀ s, Manager.Reachable managerConf true (BitVec.ofNat 32 SWITCH_LOCK_NUM)
        (fun _ _ => True) s → ∀ a b, s.hist.granted a → s.hist.request a = some true →
        s.hist.granted b → b = a) := by
  constructor
  · intro hall
    obtain ⟨s, hrun, ⟨hq, hg⟩, hgr⟩ := Manager.exists_of_run managerConf true
      (BitVec.ofNat 32 SWITCH_LOCK_NUM) (fun _ _ => True) contended
      (fun s => (Wqe.ofReq .excl 3 2 ∈ s.lock.wqueue ∧ ¬ s.hist.granted (2, 3))
        ∧ (lockPacketProcess managerConf s.lock (sendPostReleaseLm s.lock.id 2 3 1)).lock.wqueue
          = s.lock.wqueue) (by decide +kernel)
    have hsafe := (hall s hrun 3 .excl (sendPostReleaseLm s.lock.id 2 3 1) rfl rfl hq hg).removed
    have hlen := List.length_erase_of_mem hq
    have hpos := List.length_pos_of_mem hq
    rw [← hsafe, hgr] at hlen
    omega
  · intro hall
    obtain ⟨s, hrun, ⟨h2, hx⟩, h3⟩ := Manager.exists_of_run managerConf true
      (BitVec.ofNat 32 SWITCH_LOCK_NUM) (fun _ _ => True)
      (contended ++ [remoteRelease 1, .release 4])
      (fun s => (s.hist.granted (2, 2) ∧ s.hist.request (2, 2) = some true)
        ∧ s.hist.granted (2, 3)) (by decide +kernel)
    exact absurd (hall s hrun (2, 2) (2, 3) h2 hx h3) (by decide)

end FissLock
