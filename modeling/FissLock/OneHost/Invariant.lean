import FissLock.OneHost.System

/-!
# What holds on one BMv2 host

The code of host and switch, specialised to exclusive requests of one host, and the invariant of the
system.

* `exchange_*` — what the switch does with a packet of this host and what comes back;
* `lockAcquireAsync_excl`, `lockRelease_excl`, `receive_*` — what the host does with its metadata;
* `Inv` — the invariant.  Its heart is `Inv.token`: the **right to the lock is in one place**, which
  is the switch's free register, a grant on its way to the host, the holder that the host has
  recorded, or a `FREE` on its way to the switch.  `Inv.task` says how a task and its request fit
  together, and `Inv.order` where the tasks are that were ever appended to the wait queue.
-/

namespace FissLock

open Runs

namespace OneHost

/-! ## What the switch does with the packets of this host -/

section Exchange

variable {h : HostId} {c : Cell} {p : LockHdr}

@[simp] lemma reads_portOf (h : HostId) : reads h (Bmv2.portOf h) = true := by simp [reads]

/-- A request for a free lock is granted. -/
lemma exchange_request_free (hr : p.id.toNat < 1024) (ht : p.type = .acquire)
    (hm : p.mode = LOCK_EXCL) (hf : c.free = LOCK_FREE) (hh : p.machineId = h) :
    exchange h c p
      = ({ c with free := LOCK_ACQUIRED, rw := LOCK_EXCL, agent := h },
         [{ p with type := .grantWithAgent, agent := h, transferred := false }]) := by
  subst hh
  have hproc := Bmv2.process_acquire_free (c := c) (p := .ofPost p) hr ht hf
  have hcnt : Tofino.countAcquire c p = c.ncnt := by rw [Tofino.countAcquire, hm]; rfl
  have hgrant : ({ Bmv2.Hdr.ofPost p with
      type := .grantWithAgent
      agent := (Bmv2.Hdr.ofPost p).machineId
      modeOldMode := (Bmv2.Hdr.ofPost p).modeOldMode &&& 0xDF#8 } : Bmv2.Hdr)
      = .ofPost { p with type := .grantWithAgent, agent := p.machineId, transferred := false } := by
    simp only [Bmv2.Hdr.ofPost, Bmv2.modeByte_and]
  rw [hgrant, Bmv2.parse_ofPost, hcnt] at hproc
  rw [exchange, hproc, hm, show (Bmv2.Hdr.ofPost p).machineId = p.machineId from rfl]
  simp [Bmv2.parse_ofPost]

/-- A packet on port `q` comes to a host that reads this port. -/
lemma delivered_ofPost (h : HostId) (q : BitVec 9) (p : LockHdr) :
    ([(q, Bmv2.Hdr.ofPost p)].filter (reads h ·.1)).map (fun x => x.2.parse)
      = if reads h q = true then [p] else [] := by
  by_cases hq : reads h q = true
  · simp [hq, Bmv2.parse_ofPost]
  · simp [hq]

/-- The plane passes on what it does not know. -/
lemma exchange_outOfRange (hr : ¬ p.id.toNat < 1024) :
    exchange h c p
      = (c, if reads h (Bmv2.portOf (if p.agent = 0 then p.machineId else p.agent)) = true
          then [p] else []) := by
  rw [exchange, Bmv2.process_outOfRange (p := .ofPost p) hr, delivered_ofPost]
  rfl

/-- Whom the plane forwards a request to: the agent of a lock it serves, else whom it is addressed
to. -/
def forwardedTo (c : Cell) (p : LockHdr) : HostId := if p.id.toNat < 1024 then c.agent else p.agent

/-- Any other exclusive request is forwarded; only its `agent` has changed then. -/
lemma exchange_request_taken (ht : p.type = .acquire) (hm : p.mode = LOCK_EXCL)
    (hf : p.id.toNat < 1024 → c.free = LOCK_ACQUIRED) :
    exchange h c p
      = (c, if reads h
            (Bmv2.portOf (if forwardedTo c p = 0 then p.machineId else forwardedTo c p)) = true
          then [{ p with agent := forwardedTo c p }] else []) := by
  by_cases hr : p.id.toNat < 1024
  · have hproc := Bmv2.process_acquire_fwd (c := c) (p := .ofPost p) hr ht (hf hr)
      (.inl (by rw [Bmv2.parse_ofPost]; exact hm))
    have hcnt : Tofino.countAcquire c p = c.ncnt := by rw [Tofino.countAcquire, hm]; rfl
    rw [Bmv2.parse_ofPost, hcnt, show ({ Bmv2.Hdr.ofPost p with agent := c.agent } : Bmv2.Hdr)
      = .ofPost { p with agent := c.agent } from rfl] at hproc
    rw [exchange, hproc, delivered_ofPost, forwardedTo, if_pos hr]
    rfl
  · rw [exchange_outOfRange hr, forwardedTo, if_neg hr]

/-- The `FREE` of an exclusive holder frees the lock, and comes back. -/
lemma exchange_free (hr : p.id.toNat < 1024) (ht : p.type = .free) (ho : p.oldMode = LOCK_EXCL)
    (hf : c.free = LOCK_ACQUIRED) (hh : p.machineId = h) :
    exchange h c p
      = ({ free := LOCK_FREE, rw := p.mode, agent := 0, ncnt := 0 }, [{ p with agent := 0 }]) := by
  have hp : Tofino.pushedBack c (Bmv2.Hdr.ofPost p).parse = false := by
    rw [Bmv2.parse_ofPost, Tofino.pushedBack, ho]
    refine decide_eq_false fun h => ?_
    cases h.1
  have hproc : Bmv2.process c (.ofPost p)
      = ({ free := LOCK_FREE, rw := (Bmv2.Hdr.ofPost p).parse.mode, agent := 0, ncnt := 0 },
         [(Bmv2.portOf p.machineId, .ofPost { p with agent := 0 })]) :=
    Bmv2.process_free hr ht hp hf
  rw [exchange, hproc, Bmv2.parse_ofPost, hh]
  simp [Bmv2.parse_ofPost]

end Exchange

/-! ## What the host does -/

section Host

variable {h : HostId} {l : InnetLock} {t : TaskId} {p : LockHdr}

/-- `lock_acquire_async`: the request is queued, or is to be sent to the switch. -/
lemma lockAcquireAsync_excl (hr : lockOutOfRange l = false) :
    ((l.isAgent = true ∨ l.holders ≠ ∅) ∧ ∃ f, lockAcquireAsync (bmv2Conf h) l t .excl
        = ({ lock := lockAppendToWq l (Wqe.ofReq .excl t h), failed := f }, .flag t))
      ∨ lockAcquireAsync (bmv2Conf h) l t .excl
        = ({ lock := l, sent := [sendPostAcquire (bmv2Conf h) .excl l.id h t] }, .flag t) := by
  have hr' : ¬ lockOutOfRange l = true := by rw [hr]; decide
  have hen : (bmv2Conf h).enbLocalGrants = true := rfl
  rw [lockAcquireAsync, if_neg (by decide), if_neg hr', if_pos hen]
  split
  · next hc => exact .inl ⟨.inr (by simpa [lockNoHolders] using hc.2.2.2.1), _, rfl⟩
  · split
    · next hag =>
        rw [if_neg (by simp)]
        exact .inl ⟨.inl hag, _, rfl⟩
    · exact .inr rfl

/-- `lock_release` by the one holder: free the lock, or hand it to the first waiter, which is a task
of this host. -/
lemma lockRelease_excl (hr : lockOutOfRange l = false) (hag : l.isAgent = true)
    (hh : l.holders = {(h, t)}) (hw : ∀ e ∈ l.wqueue, e.host = h) :
    (l.wqueue = [] ∧ ∃ L f, lockRelease (bmv2Conf h) l t
        = { lock := { l with
              localHolders := L, holders := ∅, isAgent := false, mode := .free, ncnt := 0 }
            sent := [sendPostFree (bmv2Conf h) l.id (l.ncnt.setWidth 8) l.mode]
            failed := f })
      ∨ ∃ e rest, l.wqueue = e :: rest ∧ ∃ L f, lockRelease (bmv2Conf h) l t
        = { lock := { l with
              localHolders := L, holders := {(h, e.taskId)}, wqueue := rest, mode := e.op }
            notify := some e.taskId
            failed := f } := by
  have hr' : ¬ lockOutOfRange { l with localHolders := l.localHolders.erase t } = true := by
    rw [show lockOutOfRange { l with localHolders := l.localHolders.erase t } = false from hr]
    decide
  have hhas : lockHasHolder { l with localHolders := l.localHolders.erase t } (h, t) = true := by
    simp [lockHasHolder, hh]
  have hempty : l.holders.erase (h, t) = ∅ := by rw [hh]; exact Finset.erase_singleton _
  have hcode : lockRelease (bmv2Conf h) l t = lockReleaseHandOver (bmv2Conf h)
      { l with localHolders := l.localHolders.erase t, holders := ∅ }
      (assertThat (l.mode ≠ .free) .releasingFreeLock) := by
    rw [lockRelease, if_neg hr', if_pos hag, if_neg (by simpa [bmv2Conf] using hhas)]
    simp only [handleRelease, lockRemoveHolder, bmv2Conf, hempty]
  have hno : lockNoHolders { l with localHolders := l.localHolders.erase t, holders := ∅ } = true :=
    decide_eq_true rfl
  rw [hcode, lockReleaseHandOver, if_pos hno]
  cases hq : l.wqueue with
  | nil =>
      refine .inl ⟨rfl, l.localHolders.erase t, assertThat (l.mode ≠ .free) .releasingFreeLock, ?_⟩
      rfl
  | cons e rest =>
      refine .inr ⟨e, rest, rfl, l.localHolders.erase t,
        assertThat (l.mode ≠ .free) .releasingFreeLock, ?_⟩
      have hcond : (bmv2Conf h).bmv2 ∧ e.host = (bmv2Conf h).localhostId :=
        ⟨rfl, hw e (hq ▸ List.mem_cons_self)⟩
      simp only [if_pos hcond, lockAddHolder]
      rfl

/-- A request that the switch sent back: queued, or dropped if the host is not the agent. -/
lemma receive_request (hr : lockOutOfRange l = false) (ht : p.type = .acquire)
    (hm : p.mode = LOCK_EXCL) (hg : p.granted = false) (he : l.earlyRelease p.holder = false) :
    (lockPacketProcess (bmv2Conf h) l p).sent = []
      ∧ ∃ fb, (l.isAgent = false
          ∧ (lockPacketProcess (bmv2Conf h) l p).lock = { l with fwdBackCnt := fb })
        ∨ (lockPacketProcess (bmv2Conf h) l p).lock
          = { l with
              fwdBackCnt := fb
              wqueue := l.wqueue ++ [Wqe.ofReq .excl p.taskId p.machineId] } := by
  have hms : p.modeState = .excl := by rw [LockHdr.modeState, hm]; rfl
  have hcode : lockPacketProcess (bmv2Conf h) l p = processAcquire l p := by
    rw [lockPacketProcess, ht]
  rw [hcode]
  simp only [processAcquire, hr, hms, hg, he, Bool.false_eq_true, if_false, reduceCtorEq, false_and]
  split
  · next hag =>
      split
      · exact ⟨rfl, Function.update l.fwdBackCnt p.holder 0, .inr rfl⟩
      · exact ⟨rfl, Function.update l.fwdBackCnt p.holder (l.fwdBackCnt p.holder + 1),
          .inl ⟨by simpa using hag, rfl⟩⟩
  · exact ⟨rfl, l.fwdBackCnt, .inr rfl⟩

/-- Our own `FREE`, echoed by the switch. -/
lemma receive_echo (ht : p.type = .free) (hd : l.delayedFree = false) :
    (lockPacketProcess (bmv2Conf h) l p).sent = []
      ∧ ∃ n, (lockPacketProcess (bmv2Conf h) l p).lock
        = { l with mode := p.oldModeState, isAgent := true, ncnt := n } := by
  rw [lockPacketProcess, ht]
  simp only [processPushedBack, hd, Bool.false_eq_true, false_and, if_false]
  refine ⟨trivial, l.ncnt + p.ncnt.setWidth 32, ?_⟩
  rw [if_neg (by rw [ht]; decide)]

/-- The metadata after the switch granted the lock to task `t`. -/
def grantedLock (h : HostId) (l : InnetLock) (t : TaskId) : InnetLock :=
  lockLocalNotify
    { l with isAgent := true, holders := insert (h, t) l.holders, mode := .excl, ncnt := 0 } t

/-- A grant of the switch. -/
lemma receive_grant (ht : p.type = .grantWithAgent) (hm : p.mode = LOCK_EXCL)
    (htr : p.transferred = false) (hid : p.taskId ≠ TASK_FOR_RESTORE) :
    (lockPacketProcess (bmv2Conf h) l p).sent = []
      ∧ (lockPacketProcess (bmv2Conf h) l p).lock = grantedLock h l p.taskId := by
  have hms : p.modeState = .excl := by rw [LockHdr.modeState, hm]; rfl
  rw [lockPacketProcess, ht]
  simp only [processGrantWithAgent, if_neg hid, htr, hms, lockAddHolder]
  exact ⟨rfl, rfl⟩

end Host

/-! ## The invariant -/

/-- The packet carries the request of task `t`, granted or not. -/
def carries (t : TaskId) (p : LockHdr) : Bool :=
  decide ((p.type = .acquire ∨ p.type = .grantWithAgent) ∧ p.taskId = t)

def isGrant (p : LockHdr) : Bool := decide (p.type = .grantWithAgent)

def isFree (p : LockHdr) : Bool := decide (p.type = .free)

/-- A thread is about to send a packet of which `q` is true. -/
def sends (q : LockHdr → Bool) : TaskId × Gap → Bool
  | (_, .send p) => q p
  | (_, .notify _) => false

/-- The task that a thread is about to notify. -/
def notified : TaskId × Gap → Option TaskId
  | (_, .send _) => none
  | (_, .notify t) => some t

/-- The tasks that have the lock and are about to be told. -/
def notifying (s : OneHost) : List TaskId := s.gaps.filterMap notified

/-- In how many places the request of task `t` is. -/
def openAt (s : OneHost) (t : TaskId) : ℕ :=
  s.gaps.countP (sends (carries t)) + s.up.countP (carries t) + s.down.countP (carries t)
    + s.lock.wqueue.countP (·.taskId = t)

def flagAt (s : OneHost) (t : TaskId) : ℕ := if s.lock.taskGranted t then 1 else 0

def heldAt (s : OneHost) (h : HostId) (t : TaskId) : ℕ := if (h, t) ∈ s.lock.holders then 1 else 0

/-- What is known about a task, from the number of places of its request, of pending notifications,
of grant flags and of holder entries. -/
def TaskOk (st : ClientState) (openN notifN flagN heldN : ℕ) : Prop :=
  match st with
  | .idle => openN = 0 ∧ notifN = 0 ∧ flagN = 0 ∧ heldN = 0
  | .waiting =>
      openN ≤ 1 ∧ notifN = 0 ∧ flagN = 0 ∧ heldN = 0 ∨ openN = 0 ∧ notifN + flagN = 1 ∧ heldN = 1
  | .holding => openN = 0 ∧ notifN = 0 ∧ flagN = 0 ∧ heldN = 1

/-- A packet as this host sends it. -/
structure Sent (h : HostId) (lid : LockId) (p : LockHdr) : Prop where
  id : p.id = lid
  machineId : p.machineId = h
  kind : (p.type = .acquire ∧ p.mode = LOCK_EXCL ∧ p.granted = false ∧ p.taskId.toNat < 2 ^ 30)
    ∨ (p.type = .free ∧ p.oldMode = LOCK_EXCL)

/-- A packet as this host receives it: a request that came back, a grant, or its own `FREE`. -/
def Received (h : HostId) (p : LockHdr) : Prop :=
  (p.type = .acquire ∧ p.mode = LOCK_EXCL ∧ p.granted = false ∧ p.machineId = h
      ∧ p.taskId.toNat < 2 ^ 30)
    ∨ (p.type = .grantWithAgent ∧ p.mode = LOCK_EXCL ∧ p.transferred = false
      ∧ p.taskId.toNat < 2 ^ 30)
    ∨ (p.type = .free ∧ p.oldMode = LOCK_EXCL)

/-- What is known about the metadata. -/
structure LockOk (h : HostId) (lid : LockId) (l : InnetLock) : Prop where
  id : l.id = lid
  noMark : ∀ lh, l.earlyRelease lh = false
  noDelay : l.delayedFree = false
  holders : ∀ lh ∈ l.holders, lh.1 = h
  agent : l.holders ≠ ∅ → l.isAgent = true ∧ l.mode = .excl
  entries : ∀ e ∈ l.wqueue, e.op = .excl ∧ e.host = h

/-- The invariant. -/
structure Inv (h : HostId) (lid : LockId) (s : OneHost) : Prop where
  lock : LockOk h lid s.lock
  up : ∀ p ∈ s.up, Sent h lid p
  gaps : ∀ x ∈ s.gaps, ∀ p, x.2 = .send p → Sent h lid p
  down : ∀ p ∈ s.down, Received h p
  range : s.cell.free = LOCK_ACQUIRED → lid.toNat < 1024
  /-- The right to the lock is in exactly one place. -/
  token : s.gaps.countP (sends isFree) + s.up.countP isFree + s.down.countP isGrant
    + s.lock.holders.card = if s.cell.free then 1 else 0
  task : ∀ t, TaskOk (s.task t) (s.openAt t) (s.notifying.count t) (s.flagAt t) (s.heldAt h t)
  /-- Nobody overtakes in the wait queue. -/
  order : s.queued = s.served ++ s.notifying ++ s.lock.wqueue.map Wqe.taskId

/-- A list in which nothing but `a` occurs, and `a` once. -/
lemma eq_singleton {α : Type*} [DecidableEq α] {l : List α} {a : α} (hall : ∀ b ∈ l, b = a)
    (hle : l.count a ≤ 1) (hm : a ∈ l) : l = [a] := by
  obtain ⟨n, hn⟩ : ∃ n, l = List.replicate n a := ⟨_, List.eq_replicate_iff.2 ⟨rfl, hall⟩⟩
  rw [hn, List.count_replicate_self] at hle
  rw [hn] at hm ⊢
  obtain rfl : n = 1 := by
    have := List.mem_replicate.1 hm
    omega
  rfl

/-! ## Facts about an invariant state -/

section Facts

variable {h : HostId} {lid : LockId} {s : OneHost} {t t' : TaskId}

lemma Inv.card_le (hi : Inv h lid s) : s.lock.holders.card ≤ 1 := by
  have := hi.token
  split at this <;> omega

/-- Two tasks that hold the lock are one. -/
lemma Inv.held_unique (hi : Inv h lid s) (h1 : s.heldAt h t = 1) (h2 : s.heldAt h t' = 1) :
    t = t' := by
  have hm : ∀ t, s.heldAt h t = 1 → (h, t) ∈ s.lock.holders := fun t ht => by
    by_contra hn
    simp [heldAt, hn] at ht
  have := Finset.card_le_one.1 hi.card_le _ (hm t h1) _ (hm t' h2)
  exact congrArg Prod.snd this

lemma Inv.held_of_granted (hi : Inv h lid s) (hg : s.granted t) : s.heldAt h t = 1 := by
  have hc := hi.task t
  rcases hg with ht | ⟨ht, hf⟩
  · rw [ht] at hc
    exact hc.2.2.2
  · have hF : s.flagAt t = 1 := by simp [flagAt, hf]
    rw [ht] at hc
    rcases hc with ⟨-, -, h3, -⟩ | ⟨-, -, h3⟩ <;> omega

lemma Inv.held_of_notifying (hi : Inv h lid s) (ht : t ∈ s.notifying) : s.heldAt h t = 1 := by
  have hc := hi.task t
  have hn : 0 < s.notifying.count t := List.count_pos_iff.2 ht
  cases hs : s.task t <;> rw [hs] at hc <;> simp only [TaskOk] at hc <;> omega

/-- At most one task is about to be told. -/
lemma Inv.notifying_le (hi : Inv h lid s) (t : TaskId) : s.notifying.count t ≤ 1 := by
  have hc := hi.task t
  cases hs : s.task t <;> rw [hs] at hc <;> simp only [TaskOk] at hc <;> omega

lemma Inv.notifying_eq (hi : Inv h lid s) (ht : t ∈ s.notifying) : s.notifying = [t] := by
  have hall : ∀ t' ∈ s.notifying, t' = t := fun t' ht' =>
    hi.held_unique (hi.held_of_notifying ht') (hi.held_of_notifying ht)
  exact eq_singleton hall (hi.notifying_le t) ht

/-- While a task holds the lock nobody is about to be told. -/
lemma Inv.notifying_nil (hi : Inv h lid s) (ht : s.task t = .holding) : s.notifying = [] := by
  have hc := hi.task t
  rw [ht] at hc
  by_contra hne
  obtain ⟨t', ht'⟩ := List.exists_mem_of_ne_nil _ hne
  obtain rfl := hi.held_unique (hi.held_of_notifying ht') hc.2.2.2
  have := List.count_pos_iff.2 ht'
  have := hc.2.1
  omega

lemma heldAt_eq_one : s.heldAt h t = 1 ↔ (h, t) ∈ s.lock.holders := by
  by_cases hm : (h, t) ∈ s.lock.holders <;> simp [heldAt, hm]

/-- The holder of a task that has the lock is the only one. -/
lemma Inv.holders_eq (hi : Inv h lid s) (ht : s.heldAt h t = 1) : s.lock.holders = {(h, t)} := by
  have hm := heldAt_eq_one.1 ht
  refine Finset.eq_singleton_iff_unique_mem.2 ⟨hm, fun lh hlh => ?_⟩
  exact Finset.card_le_one.1 hi.card_le _ hlh _ hm

/-- A task whose request is somewhere waits, and that is all there is of it. -/
lemma Inv.waiting_of_open (hi : Inv h lid s) (ho : 0 < s.openAt t) :
    s.task t = .waiting ∧ s.openAt t = 1 ∧ s.notifying.count t = 0 ∧ s.flagAt t = 0
      ∧ s.heldAt h t = 0 := by
  have hc := hi.task t
  cases hs : s.task t with
  | idle =>
      rw [hs] at hc
      have := hc.1
      omega
  | waiting =>
      rw [hs] at hc
      rcases hc with ⟨h1, h2, h3, h4⟩ | ⟨h1, -, -⟩
      · exact ⟨rfl, by omega, h2, h3, h4⟩
      · omega
  | holding =>
      rw [hs] at hc
      have := hc.1
      omega

lemma Inv.inRange (hi : Inv h lid s) (hlid : lid.toNat < SWITCH_LOCK_NUM) :
    lockOutOfRange s.lock = false := by
  rw [lockOutOfRange, hi.lock.id]
  exact decide_eq_false (by omega)

end Facts

end OneHost
end FissLock
