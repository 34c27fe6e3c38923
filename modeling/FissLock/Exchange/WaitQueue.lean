import FissLock.Host.ClientApi
import FissLock.Switch.Delivery

/-!
# A wait queue on its way to the next agent

Requests that an agent suspends become entries of `wqueue`.  When the last holder leaves, the first
entry is spread over the fields of a `TRANSFER` and the others follow behind the header; the switch
makes it a `GRANT_WITH_AGENT` for the first waiter's host, which adopts the queue, or digests it if
the lock is now shared.

Order and number of the requests survive all of this.  What does not always is the task id: an entry
has 30 bits for it.  `wait_queue_faithful` says that the hand-over is faithful exactly if every
suspended task id fits.
-/

namespace FissLock

/-- A request as it reaches the agent; `mode` is `LOCK_SHARED` or `LOCK_EXCL`. -/
structure WaitReq where
  mode : Bool
  host : HostId
  task : TaskId
  deriving DecidableEq, Repr

namespace WaitReq

def op (r : WaitReq) : LockState := LockState.ofBit r.mode

def holder (r : WaitReq) : LockHolder := (r.host, r.task)

/-- The entry that `handle_suspend_acquire` makes of it. -/
def entry (r : WaitReq) : Wqe := Wqe.ofReq r.op r.task r.host

/-- The task id fits into an entry. -/
def fits (r : WaitReq) : Prop := r.task.toNat < 2 ^ 30

instance (r : WaitReq) : Decidable r.fits := inferInstanceAs (Decidable (_ < _))

end WaitReq

/-- What can be read of an entry: operator, host and task. -/
def Wqe.read (e : Wqe) : LockState × LockHolder := (e.op, e.holder)

/-- The agent suspends the requests, one after another. -/
def suspendAll (l : InnetLock) (rs : List WaitReq) : InnetLock :=
  rs.foldl (fun l r => (handleSuspendAcquire l r.host r.task r.op).1) l

/-- `p` is a `TRANSFER` that the agent sends because a task released the lock, with a packet or with
a call. -/
def HandsOver (cf : Conf) (l : InnetLock) (p : LockHdr) : Prop :=
  p.type = .transfer ∧
    ((∃ hdr, hdr.type = .release ∧ hdr.id = l.id ∧ p ∈ (lockPacketProcess cf l hdr).toSwitch)
      ∨ ∃ t, p ∈ (lockRelease cf l t).sent)

/-- The switch, in some state in which it accepts `p`, sends `g` to host `h`. -/
def Accepts (p : LockHdr) (h : HostId) (g : LockHdr) : Prop :=
  ∃ c : Cell, c.free = LOCK_ACQUIRED ∧ Tofino.pushedBack c p = false ∧
    ((h, g) ∈ (Tofino.process c p).2
      ∨ Bmv2.outOfRange p.id = false
        ∧ ∃ b, (h.setWidth 9, b) ∈ (Bmv2.process c (.ofPost p)).2 ∧ g = b.parse)

/-- The hand-over of `head`, with `rest` behind it, to a host that had the metadata `l` and has
handled the grant `g` with outcome `o`. -/
structure FaithfulHandOver (head : WaitReq) (rest : List WaitReq) (l : InnetLock) (g : LockHdr)
    (o : Outcome) : Prop where
  /-- The grant is for the first request, -/
  granted : g.type = .grantWithAgent ∧ g.holder = head.holder ∧ g.modeState = head.op
  /-- which becomes a holder of a lock that is in its mode now. -/
  mode : o.lock.isAgent = true ∧ o.lock.mode = head.op
  /-- An exclusive holder is alone and the others queue behind those that were here before. -/
  excl : head.mode = LOCK_EXCL →
    o.lock.holders = insert head.holder l.holders ∧ o.toSwitch = []
      ∧ o.lock.wqueue.map Wqe.read
        = l.wqueue.map Wqe.read ++ rest.map fun r => (r.op, r.holder)
  /-- A shared one shares it with all other shared requests, each of which is sent a grant. -/
  shared : head.mode = LOCK_SHARED →
    o.lock.holders = insert head.holder l.holders
        ∪ ((rest.filter (·.mode = LOCK_SHARED)).map WaitReq.holder).toFinset
      ∧ o.toSwitch = (rest.filter (·.mode = LOCK_SHARED)).map
          (fun r => sendPostGrant l.id r.host r.task)
      ∧ o.lock.wqueue.map Wqe.read
        = l.wqueue.map Wqe.read
          ++ (rest.filter (·.mode = LOCK_EXCL)).map fun r => (r.op, r.holder)

/-! ## The packet and the grant -/

lemma suspendAll_wqueue (rs : List WaitReq) (l : InnetLock) :
    suspendAll l rs = { l with wqueue := l.wqueue ++ rs.map WaitReq.entry } := by
  induction rs generalizing l with
  | nil => simp [suspendAll]
  | cons r rs ih =>
      have := ih (handleSuspendAcquire l r.host r.task r.op).1
      simp only [suspendAll, List.foldl_cons] at this ⊢
      rw [this]
      simp [handleSuspendAcquire, lockAppendToWq, WaitReq.entry]

section HandOver

variable {cf : Conf} {l : InnetLock} {p : LockHdr} {e : Wqe} {rest : List Wqe}

/-- The fields of the `TRANSFER`. -/
structure IsTransferOf (p : LockHdr) (e : Wqe) (rest : List Wqe) : Prop where
  type : p.type = .transfer
  mode : p.mode = e.op.bit
  holder : p.holder = e.holder
  wq : p.wq = rest

lemma transfer_of_releaseHandOver {hdr : LockHdr} {fs : List Assertion} (hq : l.wqueue = e :: rest)
    (hp : p ∈ (releaseHandOver cf l hdr fs).toSwitch) : IsTransferOf p e rest := by
  by_cases hh : l.holders = ∅
  · simp only [releaseHandOver, lockNoHolders, lockNoWaiters, hh, hq, decide_true, if_true,
      List.isEmpty_cons, Bool.false_eq_true, if_false, Outcome.toSwitch, List.nil_append] at hp
    simp only [lockTransferHelper, hq, List.mem_ite_nil_right, List.mem_singleton] at hp
    obtain ⟨-, rfl⟩ := hp
    exact ⟨rfl, rfl, rfl, rfl⟩
  · simp [releaseHandOver, lockNoHolders, hh, Outcome.toSwitch] at hp

lemma transfer_of_lockReleaseHandOver {fs : List Assertion} (hq : l.wqueue = e :: rest)
    (hp : p ∈ (lockReleaseHandOver cf l fs).sent) : IsTransferOf p e rest := by
  by_cases hh : l.holders = ∅
  · simp only [lockReleaseHandOver, lockNoHolders, hh, hq, decide_true, if_true] at hp
    split at hp
    · cases hp
    · obtain rfl := List.mem_singleton.1 hp
      exact ⟨rfl, rfl, rfl, rfl⟩
  · simp [lockReleaseHandOver, lockNoHolders, hh] at hp

/-- Whatever release makes the agent hand over the lock, the `TRANSFER` has the first entry in its
header and the others behind it. -/
lemma HandsOver.isTransferOf (hr : lockOutOfRange l = false) (ha : l.isAgent = true)
    (hq : l.wqueue = e :: rest) (h : HandsOver cf l p) : IsTransferOf p e rest := by
  obtain ⟨-, ⟨hdr, ht, -, hp⟩ | ⟨t, hp⟩⟩ := h
  · rw [lockPacketProcess, ht] at hp
    simp only [processRelease, hr, ha, Bool.false_eq_true, Bool.not_true, if_false] at hp
    split at hp
    · split at hp
      · simp [Outcome.toSwitch] at hp
      · refine transfer_of_releaseHandOver ?_ hp
        exact hq
    · refine transfer_of_releaseHandOver ?_ hp
      exact hq
  · have hr' : ¬ lockOutOfRange { l with localHolders := l.localHolders.erase t } = true :=
      Bool.eq_false_iff.1 hr
    simp only [lockRelease] at hp
    rw [if_neg hr', if_pos ha] at hp
    split at hp
    · refine transfer_of_lockReleaseHandOver ?_ hp
      exact hq
    · refine transfer_of_lockReleaseHandOver ?_ hp
      exact hq

end HandOver

/-- What the switch makes of a `TRANSFER` that it accepts. -/
structure IsGrantOf (g p : LockHdr) : Prop where
  type : g.type = .grantWithAgent
  transferred : g.transferred = true
  mode : g.mode = p.mode
  holder : g.holder = p.holder
  wq : g.wq = p.wq

section Switch

variable {c : Cell} {p g : LockHdr} {h : HostId}

lemma Tofino.ingress_transfer (ht : p.type = .transfer) (hf : c.free = LOCK_ACQUIRED)
    (hp : Tofino.pushedBack c p = false) :
    (Tofino.ingressCell c p).hdr
        = { Tofino.cleared p with
            type := .grantWithAgent, agent := p.machineId, transferred := true }
      ∧ (Tofino.ingressCell c p).md.dest2 = 0 := by
  obtain ⟨free, rw, agent, ncnt⟩ := c
  obtain ⟨type, mc, gr, tr, old, mode, id, mid, tid, ag, wq, n⟩ := p
  simp only [Tofino.pushedBack, decide_eq_false_iff_not, not_and, not_not] at ht hp hf
  subst ht hf
  cases old <;> cases mode <;> cases rw <;>
    simp_all [Tofino.ingressCell, Tofino.counterTable, Tofino.initPacket,
      Tofino.getNotificationCnt, Tofino.resetNotificationCnt, Tofino.lockStages, Tofino.rwTable,
      Tofino.lockOperation, Tofino.acquireLock, Tofino.lockShared, Tofino.lockExcl,
      Tofino.transferAgent, Tofino.setLockAgent, Tofino.cleared]

/-- Every copy that leaves the Tofino switch is the grant. -/
lemma Tofino.grant_of_transfer (ht : p.type = .transfer) (hf : c.free = LOCK_ACQUIRED)
    (hp : Tofino.pushedBack c p = false) (hg : (h, g) ∈ (Tofino.process c p).2) :
    IsGrantOf g p := by
  obtain ⟨hhdr, hdest⟩ := Tofino.ingress_transfer ht hf hp
  simp only [Tofino.process, Tofino.replicate, hhdr, hdest, List.mem_map] at hg
  obtain ⟨m, -, hm⟩ := hg
  obtain rfl : g = _ := (Prod.ext_iff.1 hm).2.symm
  exact ⟨rfl, rfl, rfl, rfl, rfl⟩

/-- The packet that leaves the BMv2 switch is the grant. -/
lemma Bmv2.grant_of_transfer {q : BitVec 9} {b : Bmv2.Hdr} (hr : p.id.toNat < 1024)
    (ht : p.type = .transfer) (hf : c.free = LOCK_ACQUIRED) (hp : Tofino.pushedBack c p = false)
    (hb : (q, b) ∈ (Bmv2.process c (.ofPost p)).2) : IsGrantOf b.parse p := by
  rw [Bmv2.process_transfer (p := .ofPost p) hr ht (by rw [Bmv2.parse_ofPost]; exact hp) hf,
    List.mem_singleton, Prod.mk.injEq] at hb
  obtain ⟨-, rfl⟩ := hb
  obtain ⟨-, -, h5, -, h0⟩ := Bmv2.modeByte_bits p.multicasted p.granted true p.oldMode p.mode
  simp only [Bmv2.Hdr.ofPost, Bmv2.modeByte_or]
  exact ⟨rfl, h5, h0, rfl, rfl⟩

lemma Accepts.isGrantOf (ht : p.type = .transfer) (h : Accepts p h g) : IsGrantOf g p := by
  obtain ⟨c, hf, hp, hg | ⟨hr, b, hb, rfl⟩⟩ := h
  · exact Tofino.grant_of_transfer ht hf hp hg
  · exact Bmv2.grant_of_transfer (Bmv2.outOfRange_eq_false.1 hr) ht hf hp hb

end Switch

/-! ## The receiver -/

section Receiver

variable {g : LockHdr}

/-- What the next agent makes of an exclusive grant: it adopts the queue. -/
lemma receive_excl (cf : Conf) (l : InnetLock) (ht : g.type = .grantWithAgent) (htr : g.transferred = true)
    (hm : g.mode = LOCK_EXCL) (hk : g.taskId ≠ TASK_FOR_RESTORE) :
    let o := lockPacketProcess cf l g
    o.lock.isAgent = true ∧ o.lock.mode = .excl
      ∧ o.lock.holders = insert (cf.localhostId, g.taskId) l.holders ∧ o.toSwitch = []
      ∧ o.lock.wqueue = l.wqueue ++ g.wq := by
  have hms : g.modeState = .excl := by simp [LockHdr.modeState, hm]
  by_cases hw : g.wq = []
  · simp [lockPacketProcess, ht, processGrantWithAgent, hk, htr, hms, hw, lockLocalNotify,
      lockAddHolder, Outcome.toSwitch]
  · simp [lockPacketProcess, ht, processGrantWithAgent, hk, htr, hms, hw, lockLocalNotify,
      lockAddHolder, lockUnmarshalWq, Outcome.toSwitch]

/-- What it makes of a shared one: it digests the queue. -/
lemma receive_shared (cf : Conf) (l : InnetLock) (ht : g.type = .grantWithAgent) (htr : g.transferred = true)
    (hm : g.mode = LOCK_SHARED) (hk : g.taskId ≠ TASK_FOR_RESTORE) :
    let o := lockPacketProcess cf l g
    o.lock.isAgent = true ∧ o.lock.mode = .shared
      ∧ o.lock.holders = insert (cf.localhostId, g.taskId) l.holders
          ∪ ((g.wq.filter (·.op = .shared)).map Wqe.holder).toFinset
      ∧ o.toSwitch = (g.wq.filter (·.op = .shared)).map (fun w => sendPostGrant l.id w.host w.taskId)
      ∧ o.lock.wqueue = l.wqueue ++ g.wq.filter (·.op ≠ .shared) := by
  have hms : g.modeState = .shared := by simp [LockHdr.modeState, hm]
  by_cases hw : g.wq = []
  · simp [lockPacketProcess, ht, processGrantWithAgent, hk, htr, hms, hw, lockLocalNotify,
      lockAddHolder, Outcome.toSwitch]
  · simp [lockPacketProcess, ht, processGrantWithAgent, hk, htr, hms, hw, lockLocalNotify,
      lockAddHolder, lockDigestWq_eq, Outcome.toSwitch]

end Receiver

/-! ## Entries and requests -/

namespace WaitReq

variable {r : WaitReq}

/-- An entry has the task id it was made from exactly if that fits. -/
lemma taskId_entry_iff : r.entry.taskId = r.task ↔ r.fits := by
  refine ⟨fun h => ?_, Wqe.taskId_ofReq⟩
  have hlt := r.entry.taskId_lt
  rwa [h] at hlt

lemma holder_entry_iff : r.entry.holder = r.holder ↔ r.fits := by
  rw [← taskId_entry_iff]
  simp [Wqe.holder, WaitReq.holder, WaitReq.entry]

lemma read_entry_iff : r.entry.read = (r.op, r.holder) ↔ r.fits := by
  rw [← holder_entry_iff]
  simp [Wqe.read, WaitReq.entry]

lemma op_entry : r.entry.op = .shared ↔ r.mode = LOCK_SHARED := by
  simp [WaitReq.entry, WaitReq.op]

end WaitReq

lemma filter_shared_entry (rs : List WaitReq) :
    (rs.map WaitReq.entry).filter (·.op = .shared)
      = (rs.filter (·.mode = LOCK_SHARED)).map WaitReq.entry := by
  rw [List.filter_map]
  refine congrArg _ (List.filter_congr fun r _ => ?_)
  simp [WaitReq.op_entry]

lemma filter_excl_entry (rs : List WaitReq) :
    (rs.map WaitReq.entry).filter (·.op ≠ .shared)
      = (rs.filter (·.mode = LOCK_EXCL)).map WaitReq.entry := by
  rw [List.filter_map]
  refine congrArg _ (List.filter_congr fun r _ => ?_)
  simp [WaitReq.op_entry]

lemma map_read_iff (rs : List WaitReq) :
    (rs.map WaitReq.entry).map Wqe.read = rs.map (fun r => (r.op, r.holder)) ↔ ∀ r ∈ rs, r.fits := by
  rw [List.map_map, List.map_inj_left]
  exact forall₂_congr fun r _ => WaitReq.read_entry_iff

lemma map_grant_iff (lid : LockId) (rs : List WaitReq) :
    (rs.map WaitReq.entry).map (fun w => sendPostGrant lid w.host w.taskId)
        = rs.map (fun r => sendPostGrant lid r.host r.task) ↔ ∀ r ∈ rs, r.fits := by
  rw [List.map_map, List.map_inj_left]
  refine forall₂_congr fun r _ => ?_
  rw [← WaitReq.taskId_entry_iff]
  simp [sendPostGrant, sendPostLockGeneric, WaitReq.entry]

section Grant

variable {cf : Conf} {l : InnetLock} {head : WaitReq} {rest : List WaitReq} {g : LockHdr}
  (ht : g.type = .grantWithAgent) (htr : g.transferred = true) (hm : g.mode = head.mode)
  (hhd : g.holder = head.entry.holder) (hwq : g.wq = rest.map WaitReq.entry)
  (hh : cf.localhostId = head.host)

include hhd

lemma taskId_ne_restore : g.taskId ≠ TASK_FOR_RESTORE := by
  have hgt : g.taskId = head.entry.taskId := (Prod.ext_iff.1 hhd).2
  rw [hgt]
  intro h
  have hlt := head.entry.taskId_lt
  rw [h] at hlt
  exact absurd hlt (by decide)

include hh

/-- The receiver takes the first request for its own. -/
lemma self_eq_holder : (cf.localhostId, g.taskId) = head.entry.holder := by
  have hgt : g.taskId = head.entry.taskId := (Prod.ext_iff.1 hhd).2
  rw [hh, hgt]
  rfl

include ht htr hm hwq

/-- A queue with an exclusive request at its head. -/
lemma faithful_excl_iff (hx : head.mode = LOCK_EXCL) :
    FaithfulHandOver head rest l g (lockPacketProcess cf l g)
      ↔ head.fits ∧ ∀ r ∈ rest, r.fits := by
  have hop : head.op = .excl := by simp [WaitReq.op, hx]
  obtain ⟨hagent, hmode, hhold, hsent, hque⟩ :=
    receive_excl cf l ht htr (hm.trans hx) (taskId_ne_restore hhd)
  rw [self_eq_holder hhd hh] at hhold
  rw [hwq] at hque
  constructor
  · intro hf
    refine ⟨WaitReq.holder_entry_iff.1 (hhd.symm.trans hf.granted.2.1), ?_⟩
    have hread := (hf.excl hx).2.2
    rw [hque, List.map_append, List.append_cancel_left_eq] at hread
    exact (map_read_iff rest).1 hread
  · rintro ⟨hhead, hrest⟩
    rw [WaitReq.holder_entry_iff.2 hhead] at hhold hhd
    refine ⟨⟨ht, hhd, by simp [LockHdr.modeState, WaitReq.op, hm]⟩, ⟨hagent, ?_⟩,
      fun _ => ⟨hhold, hsent, ?_⟩, fun h => by simp [hx] at h⟩
    · rw [hmode, hop]
    · rw [hque, List.map_append, (map_read_iff rest).2 hrest]

/-- A queue with a shared request at its head: the other shared ones are granted with it. -/
lemma faithful_shared_iff (hx : head.mode = LOCK_SHARED) :
    FaithfulHandOver head rest l g (lockPacketProcess cf l g)
      ↔ head.fits ∧ ∀ r ∈ rest, r.fits := by
  have hop : head.op = .shared := by simp [WaitReq.op, hx]
  obtain ⟨hagent, hmode, hhold, hsent, hque⟩ :=
    receive_shared cf l ht htr (hm.trans hx) (taskId_ne_restore hhd)
  rw [self_eq_holder hhd hh, hwq, filter_shared_entry] at hhold
  rw [hwq, filter_shared_entry] at hsent
  rw [hwq, filter_excl_entry] at hque
  constructor
  · intro hf
    refine ⟨WaitReq.holder_entry_iff.1 (hhd.symm.trans hf.granted.2.1), fun r hrm => ?_⟩
    obtain ⟨-, hgrants, hread⟩ := hf.shared hx
    rw [hque, List.map_append, List.append_cancel_left_eq] at hread
    rw [hsent] at hgrants
    cases hrm' : r.mode with
    | false => exact (map_grant_iff l.id _).1 hgrants r (by simp [hrm, hrm'])
    | true => exact (map_read_iff _).1 hread r (by simp [hrm, hrm'])
  · rintro ⟨hhead, hrest⟩
    have hfits : ∀ b : Bool, ∀ r ∈ rest.filter (·.mode = b), r.fits := fun b r hrm =>
      hrest r (List.mem_of_mem_filter hrm)
    rw [WaitReq.holder_entry_iff.2 hhead] at hhold hhd
    refine ⟨⟨ht, hhd, by simp [LockHdr.modeState, WaitReq.op, hm]⟩, ⟨hagent, ?_⟩,
      fun h => by simp [hx] at h, fun _ => ⟨?_, ?_, ?_⟩⟩
    · rw [hmode, hop]
    · have hholders : ((rest.filter (·.mode = LOCK_SHARED)).map WaitReq.entry).map Wqe.holder
          = (rest.filter (·.mode = LOCK_SHARED)).map WaitReq.holder := by
        rw [List.map_map]
        exact List.map_congr_left fun r hrm => WaitReq.holder_entry_iff.2 (hfits _ r hrm)
      rw [hhold, hholders]
    · rw [hsent, (map_grant_iff l.id _).2 (hfits _)]
    · rw [hque, List.map_append, (map_read_iff _).2 (hfits _)]

end Grant

/-- **The hand-over is faithful exactly if every task id fits into an entry.** -/
theorem wait_queue_faithful (cf cf' : Conf) (l l' : InnetLock) (head : WaitReq)
    (rest : List WaitReq) (p g : LockHdr) (hr : lockOutOfRange l = false) (ha : l.isAgent = true)
    (hq : l.wqueue = []) (hp : HandsOver cf (suspendAll l (head :: rest)) p)
    (hg : Accepts p head.host g) (hh : cf'.localhostId = head.host) :
    FaithfulHandOver head rest l' g (lockPacketProcess cf' l' g)
      ↔ ∀ r ∈ head :: rest, r.fits := by
  have hw : (suspendAll l (head :: rest)).wqueue = head.entry :: rest.map WaitReq.entry := by
    simp [suspendAll_wqueue, hq]
  have hpt : IsTransferOf p head.entry (rest.map WaitReq.entry) :=
    hp.isTransferOf (by simpa [suspendAll_wqueue, lockOutOfRange] using hr)
      (by simpa [suspendAll_wqueue] using ha) hw
  have hgp := hg.isGrantOf hpt.type
  have hghd : g.holder = head.entry.holder := hgp.holder.trans hpt.holder
  have hgwq : g.wq = rest.map WaitReq.entry := hgp.wq.trans hpt.wq
  have hgm : g.mode = head.mode := by
    rw [hgp.mode, hpt.mode]
    simp [WaitReq.entry, WaitReq.op]
  rw [List.forall_mem_cons]
  cases hm : head.mode with
  | true => exact faithful_excl_iff hgp.type hgp.transferred hgm hghd hgwq hh hm
  | false => exact faithful_shared_iff hgp.type hgp.transferred hgm hghd hgwq hh hm

/-- Task 5 of host 1, the agent of lock 9, holds it exclusively. -/
def heldAtAgent : InnetLock :=
  { InnetLock.init 9 with mode := .excl, isAgent := true, holders := {(1, 5)} }

/-- The `TRANSFER` that its release causes, with this first waiter and the others behind it. -/
def transferTo (e : Wqe) (wq : List Wqe) : LockHdr :=
  sendPostTransfer ⟨1, true, false⟩ e.op 9 e.host e.taskId wq 0 .excl

/-- What the switch makes of it. -/
def grantTo (e : Wqe) (wq : List Wqe) : LockHdr :=
  { transferTo e wq with type := .grantWithAgent, agent := e.host, transferred := true }

/-- A task id with 31 bits: the lock is granted to another task. -/
theorem wait_queue_faithful_fails :
    let r : WaitReq := ⟨LOCK_EXCL, 2, 0x40000007⟩
    HandsOver ⟨1, true, false⟩ (suspendAll heldAtAgent [r]) (transferTo r.entry [])
      ∧ Accepts (transferTo r.entry []) 2 (grantTo r.entry [])
      ∧ ¬ FaithfulHandOver r [] (.init 9) (grantTo r.entry [])
          (lockPacketProcess ⟨2, true, false⟩ (.init 9) (grantTo r.entry [])) := by
  refine ⟨⟨rfl, .inr ⟨5, ?_⟩⟩, ⟨⟨LOCK_ACQUIRED, LOCK_EXCL, 1, 0⟩, rfl, rfl, .inl ?_⟩, fun h => ?_⟩
  · decide +kernel
  · decide +kernel
  · have := h.granted.2.1
    revert this
    decide +kernel

/-- A shared request with an exclusive and a shared one behind it. -/
theorem wait_queue_faithful_mixed :
    let r : WaitReq := ⟨LOCK_SHARED, 2, 7⟩
    let rest : List WaitReq := [⟨LOCK_EXCL, 3, 8⟩, ⟨LOCK_SHARED, 1, 9⟩]
    let g := grantTo r.entry (rest.map WaitReq.entry)
    FaithfulHandOver r rest (.init 9) g (lockPacketProcess ⟨2, true, false⟩ (.init 9) g) := by
  intro r rest g
  have hp : HandsOver ⟨1, true, false⟩ (suspendAll heldAtAgent (r :: rest))
      (transferTo r.entry (rest.map WaitReq.entry)) := ⟨rfl, .inr ⟨5, by decide +kernel⟩⟩
  have hg : Accepts (transferTo r.entry (rest.map WaitReq.entry)) r.host g :=
    ⟨⟨LOCK_ACQUIRED, LOCK_EXCL, 1, 0⟩, rfl, rfl, .inl (by decide +kernel)⟩
  exact (wait_queue_faithful _ ⟨2, true, false⟩ heldAtAgent (.init 9) r rest _ g rfl rfl rfl hp hg
    rfl).2 (by decide +kernel)

end FissLock
