import FissLock.Host.ClientApi
import FissLock.Switch.Delivery
import FissLock.Switch.Isolation

/-!
# Who manages a lock

The ids that the switch serves are written down three times: `SWITCH_LOCK_NUM` on the host, the
slices of the Tofino pipeline, the masks of the BMv2 program.  A host sends the request for an id
that it takes to be out of range to the lock manager `lock_to_lm`, and any other request to the
switch; the data plane forwards what it takes to be out of range and decides the rest.

`deciders` lists who decides on a request that has been sent: the state machine of the switch, if
the plane takes the id to be in range, and every host that receives a copy and takes the id to be
out of range.  `agreement_iff` says for which ids host and plane draw the same line, so that every
request has one decider.  The Tofino plane agrees with the host everywhere.

The BMv2 plane serves 1024 ids and the host that is built for it still expects it to serve
`SWITCH_LOCK_NUM`.  And what it sends does not go to one host: it has the ports 0, 1 and 2 only,
which are captured to files, and every host that polls reads all of the files.  So a request to the
lock manager is decided on by all polling hosts, or by nobody.
-/

namespace FissLock

/-- A data plane with the content of its registers, and for BMv2 the hosts that poll the capture
files. -/
inductive Plane where
  | tofino (r : Tofino.Regs)
  | bmv2 (r : Bmv2.Regs) (polling : List HostId)

namespace Plane

/-- Which of the two planes it is. -/
def isBmv2 : Plane → Bool
  | tofino _ => false
  | bmv2 _ _ => true

/-- `lock_out_of_range` of the ingress. -/
def outOfRange : Plane → LockId → Bool
  | tofino _, id => (Tofino.slice id).isNone
  | bmv2 _ _, id => Bmv2.outOfRange id

/-- What becomes of a packet: the copies that leave, each with a host that receives it.  What BMv2
sends to a port with a capture file is received by every host that polls, and the rest by nobody. -/
def copies : Plane → LockHdr → List (HostId × LockHdr)
  | tofino r, p => Tofino.replicate (Tofino.ingressPipe r p).2.1 (Tofino.ingressPipe r p).2.2
  | bmv2 r polling, p =>
      (Bmv2.emit (Bmv2.fissIngress r (Bmv2.Hdr.ofPost p)).2).flatMap fun q =>
        if Bmv2.hasFile q.1 then polling.map fun h => (h, q.2.parse) else []

/-- The hosts that receive a packet that the plane forwards to host `h`. -/
def receivers : Plane → HostId → List HostId
  | tofino _, h => [h]
  | bmv2 _ polling, h => if Bmv2.hasFile (Bmv2.portOf h) then polling else []

end Plane

/-- The settings of a host that is built for the plane. -/
def Plane.conf (pl : Plane) (localhostId : HostId) (enbLocalGrants : Bool) : Conf where
  localhostId := localhostId
  enbLocalGrants := enbLocalGrants
  bmv2 := pl.isBmv2

/-- Who decides on a request. -/
inductive Decider where
  | switch
  | manager (h : HostId)
  deriving DecidableEq, Repr

/-- A host that receives this packet decides on it as a lock manager. -/
def managedHere (p : LockHdr) : Bool :=
  decide (p.type = .acquire) && lockOutOfRange (InnetLock.init p.id)

/-- Everyone who decides on an `ACQUIRE` that has been sent. -/
def deciders (pl : Plane) (p : LockHdr) : List Decider :=
  (if pl.outOfRange p.id then [] else [.switch])
    ++ (pl.copies p).filterMap fun c => if managedHere c.2 then some (.manager c.1) else none

/-- The packets that a host sends to the switch about a lock: in a call of the client interface, or
when it has processed a packet. -/
inductive Sends (cf : Conf) (l : InnetLock) (p : LockHdr) : Prop where
  | acquire (task : TaskId) (op : LockState) (h : p ∈ (lockAcquireAsync cf l task op).1.sent)
  | release (task : TaskId) (h : p ∈ (lockRelease cf l task).sent)
  | packet (hdr : LockHdr) (hid : hdr.id = l.id) (h : p ∈ (lockPacketProcess cf l hdr).toSwitch)

/-- Host and plane agree on who manages the lock. -/
structure Agreement (pl : Plane) (localhostId : HostId) (enbLocalGrants : Bool) (id : LockId) :
    Prop where
  range : ∀ l : InnetLock, l.id = id → (lockOutOfRange l = true ↔ pl.outOfRange id = true)
  decided : ∀ l : InnetLock, l.id = id →
    ∀ p, Sends (pl.conf localhostId enbLocalGrants) l p → p.type = .acquire →
      deciders pl p = if lockOutOfRange l then [.manager (lockToLm l)] else [.switch]
  manager : ∀ l : InnetLock, l.id = id → 1 ≤ (lockToLm l).toNat ∧ (lockToLm l).toNat ≤ HOST_NUM

/-! ## The packets that a host sends -/

lemma lockReleaseHandOver_not_acquire {cf : Conf} {l : InnetLock} {failed : List Assertion}
    {p : LockHdr} (hp : p ∈ (lockReleaseHandOver cf l failed).sent) : p.type ≠ .acquire := by
  rw [lockReleaseHandOver] at hp
  split at hp
  · cases hq : l.wqueue with
    | nil =>
        simp only [hq, List.mem_singleton] at hp
        subst hp
        simp [sendPostFree, sendPostLockGeneric]
    | cons e rest =>
        simp only [hq] at hp
        split at hp
        · simp at hp
        · rw [List.mem_singleton.1 hp]
          simp [sendPostTransfer, sendPostLockGeneric]
  · simp at hp

lemma lockRelease_not_acquire {cf : Conf} {l : InnetLock} {task : TaskId} {p : LockHdr}
    (hp : p ∈ (lockRelease cf l task).sent) : p.type ≠ .acquire := by
  have hgrant : ∀ {l' : InnetLock}, p ∈ (handleReleaseLm l' cf.localhostId task).2.1 →
      p.type ≠ .acquire := by
    intro l' h
    simp [handleReleaseLm_type h]
  simp only [lockRelease] at hp
  split at hp
  · split at hp
    · split at hp
      · split at hp
        · exact hgrant hp
        · rcases List.mem_append.1 hp with hp | hp
          · exact hgrant hp
          · rw [List.mem_singleton.1 hp]
            simp [sendPostGrant, sendPostLockGeneric]
      · exact hgrant hp
    · rw [List.mem_singleton.1 hp]
      simp [sendPostReleaseLm, sendPostLockGeneric]
  · split at hp
    · split at hp
      · exact lockReleaseHandOver_not_acquire hp
      · exact lockReleaseHandOver_not_acquire hp
    · rw [List.mem_singleton.1 hp]
      simp [sendPostRelease, sendPostLockGeneric]

/-- A handler that sends nothing on the way leaves at most its own packet to be sent. -/
lemma Outcome.of_mem_toSwitch {o : Outcome} {p : LockHdr} (hs : o.sent = []) (hp : p ∈ o.toSwitch) :
    p = o.hdr ∧ o.ret ≠ 0 := by
  rw [toSwitch, hs, List.nil_append] at hp
  split at hp
  · exact ⟨List.mem_singleton.1 hp, by assumption⟩
  · simp at hp

/-- What `releaseHandOver` leaves to be sent is a `FREE` or a `TRANSFER`. -/
lemma releaseHandOver_not_acquire {cf : Conf} {l : InnetLock} {hdr p : LockHdr}
    {failed : List Assertion} (hp : p ∈ (releaseHandOver cf l hdr failed).toSwitch) :
    p.type ≠ .acquire := by
  have hsent : (releaseHandOver cf l hdr failed).sent = [] := by
    rw [releaseHandOver]
    split_ifs <;> rfl
  obtain ⟨rfl, hret⟩ := Outcome.of_mem_toSwitch hsent hp
  revert hret
  rw [releaseHandOver]
  split
  · cases hq : l.wqueue with
    | nil => simp [lockNoWaiters, hq, lockFreeHelper]
    | cons e rest => simp [lockNoWaiters, hq, lockTransferHelper]
  · simp

lemma processRelease_not_acquire {cf : Conf} {l : InnetLock} {hdr p : LockHdr}
    (hp : p ∈ (processRelease cf l hdr).toSwitch) : p.type ≠ .acquire := by
  have hgrant : p ∈ (handleReleaseLm l hdr.machineId hdr.taskId).2.1 → p.type ≠ .acquire := by
    intro h
    simp [handleReleaseLm_type h]
  simp only [processRelease] at hp
  split at hp
  · split at hp
    · split at hp
      · exact hgrant (by simpa [Outcome.toSwitch] using hp)
      · rcases List.mem_append.1 hp with hp | hp
        · exact hgrant hp
        · simp only [ne_eq, one_ne_zero, not_false_eq_true, if_true, List.mem_singleton] at hp
          simp [hp]
    · exact hgrant (by simpa [Outcome.toSwitch] using hp)
  · split at hp
    · split at hp
      · simp [Outcome.toSwitch] at hp
      · exact releaseHandOver_not_acquire hp
    · split at hp
      · simp [Outcome.toSwitch] at hp
      · exact releaseHandOver_not_acquire hp

/-- A host sends an `ACQUIRE` back only if it takes the id to be in range. -/
lemma processAcquire_acquire {l : InnetLock} {hdr p : LockHdr}
    (hp : p ∈ (processAcquire l hdr).toSwitch) (ht : p.type = .acquire) :
    lockOutOfRange l = false ∧ p.id = hdr.id := by
  have hsent : (processAcquire l hdr).sent = [] := by
    simp only [processAcquire]
    split_ifs <;> rfl
  have hhdr : lockOutOfRange l = false → (processAcquire l hdr).hdr = hdr := by
    intro hr
    simp only [processAcquire, hr, Bool.false_eq_true, if_false]
    split_ifs <;> rfl
  have hmem := Outcome.of_mem_toSwitch hsent hp
  cases hr : lockOutOfRange l with
  | false =>
      rw [hmem.1, hhdr hr]
      exact ⟨rfl, rfl⟩
  | true =>
      exfalso
      obtain ⟨rfl, hret⟩ := hmem
      revert ht hret
      simp only [processAcquire, hr, if_true]
      split <;> simp

lemma processGrantWithAgent_not_acquire {cf : Conf} {l : InnetLock} {hdr p : LockHdr}
    (hp : p ∈ (processGrantWithAgent cf l hdr).toSwitch) : p.type ≠ .acquire := by
  have hret : (processGrantWithAgent cf l hdr).ret = 0 := by
    simp only [processGrantWithAgent]
    split_ifs <;> rfl
  have hsent : p ∈ (processGrantWithAgent cf l hdr).sent := by
    simpa [Outcome.toSwitch, hret] using hp
  simp only [processGrantWithAgent] at hsent
  split at hsent
  · simp at hsent
  · split at hsent
    · split at hsent
      · split at hsent
        · simp [lockDigestWq_type hsent]
        · simp at hsent
      · simp at hsent
    · simp at hsent

lemma processPushedBack_type {l : InnetLock} {hdr p : LockHdr}
    (hp : p ∈ (processPushedBack l hdr).toSwitch) : p.type = hdr.type := by
  have hsent : (processPushedBack l hdr).sent = [] := by
    rw [processPushedBack]
    split_ifs <;> rfl
  rw [(Outcome.of_mem_toSwitch hsent hp).1, processPushedBack]
  split_ifs <;> rfl

lemma lockPacketProcess_acquire {cf : Conf} {l : InnetLock} {hdr p : LockHdr}
    (hp : p ∈ (lockPacketProcess cf l hdr).toSwitch) (ht : p.type = .acquire) :
    lockOutOfRange l = false ∧ p.id = hdr.id := by
  cases hh : hdr.type with
  | acquire => exact processAcquire_acquire (by simpa only [lockPacketProcess, hh] using hp) ht
  | grantWithAgent =>
      have hgrant : p ∈ (processGrantWithAgent cf l hdr).toSwitch := by
        simpa only [lockPacketProcess, hh] using hp
      exact absurd ht (processGrantWithAgent_not_acquire hgrant)
  | grantWoAgent => simp [lockPacketProcess, hh, processGrantWoAgent, Outcome.toSwitch] at hp
  | release =>
      exact absurd ht (processRelease_not_acquire (by simpa only [lockPacketProcess, hh] using hp))
  | transfer | free =>
      have hback := processPushedBack_type (by simpa only [lockPacketProcess, hh] using hp)
      simp [hback, hh] at ht
  | other b => simp [lockPacketProcess, hh, Outcome.toSwitch] at hp

/-- **Every `ACQUIRE` of a host.**  It is about the lock; if the host takes the lock to be out of
range, it is addressed to the lock manager. -/
lemma Sends.acquire_cases {cf : Conf} {l : InnetLock} {p : LockHdr} (h : Sends cf l p)
    (ht : p.type = .acquire) :
    p.id = l.id ∧ (lockOutOfRange l = true → p.agent = lockToLm l) := by
  cases h with
  | acquire task op h =>
      simp only [lockAcquireAsync] at h
      split_ifs at h
      all_goals simp_all [sendPostAcquire, sendPostAcquireLm, sendPostLockGeneric]
  | release task h => exact absurd ht (lockRelease_not_acquire h)
  | packet hdr hid h =>
      have hp := lockPacketProcess_acquire h ht
      exact ⟨hp.2.trans hid, fun hr => absurd hr (by simp [hp.1])⟩

/-- A host asks nobody for a lock that it manages itself. -/
lemma Sends.not_manager {cf : Conf} {l : InnetLock} {p : LockHdr} (h : Sends cf l p)
    (hr : lockOutOfRange l = true) (ht : p.type = .acquire) : lockToLm l ≠ cf.localhostId := by
  intro hlm
  cases h with
  | acquire task op h =>
      simp only [lockAcquireAsync, hr, hlm, if_true] at h
      split_ifs at h <;> simp at h
  | release task h => exact lockRelease_not_acquire h ht
  | packet hdr hid h =>
      have hin := (lockPacketProcess_acquire h ht).1
      rw [hr] at hin
      cases hin

/-- The manager of a lock is a host of the cluster. -/
lemma lockToLm_toNat (l : InnetLock) : (lockToLm l).toNat = l.id.toNat % HOST_NUM + 1 := by
  rw [lockToLm, BitVec.toNat_ofNat, HOST_NUM, Nat.mod_eq_of_lt (by omega)]

/-! ## What the planes do with them -/

/-- The ingress of Tofino keeps the id of a packet. -/
lemma Tofino.ingressPipe_id (r : Tofino.Regs) (p : LockHdr) :
    (Tofino.ingressPipe r p).2.1.id = p.id := by
  have hcnt : ∀ c, (Tofino.counterTable (Tofino.initPacket c p)).hdr.id = p.id := by
    intro c
    rw [Tofino.counterTable_hdr]
    rfl
  have hop : ∀ x : Tofino.Ctx, (Tofino.lockOperation x).hdr.id = x.hdr.id := by
    intro x
    rw [Tofino.lockOperation]
    split <;> rfl
  have hstages : ∀ x : Tofino.Ctx, (Tofino.lockStages x).hdr.id = x.hdr.id := by
    intro x
    simp only [Tofino.lockStages, hop, Tofino.rwTable_hdr]
    split <;> rfl
  rw [Tofino.ingressPipe]
  split
  · rfl
  · simp only [Tofino.ingressCell]
    split_ifs
    · exact hcnt _
    · exact hcnt _
    · exact (hstages _).trans (hcnt _)

lemma Tofino.egressPipe_id (rid : ℕ) (p : LockHdr) : (Tofino.egressPipe rid p).id = p.id := by
  rw [Tofino.egressPipe]
  split_ifs <;> rfl

/-- The ingress of BMv2 keeps the id of a packet. -/
lemma Bmv2.fissIngress_id (r : Bmv2.Regs) (p : Bmv2.Hdr) :
    (Bmv2.fissIngress r p).2.hdr.id = p.id := by
  have hcnt : ∀ c,
      (Bmv2.counterClearTable (Bmv2.counterTable (Bmv2.initPacket c p))).hdr.id = p.id := by
    intro c
    rw [Bmv2.counterClearTable_hdr, Bmv2.counterTable_hdr]
    rfl
  have hop : ∀ x : Bmv2.Ctx, (Bmv2.lockOpTable x).hdr.id = x.hdr.id := by
    intro x
    rw [Bmv2.lockOpTable]
    split <;> rfl
  have hstages : ∀ x : Bmv2.Ctx, (Bmv2.lockStages x).hdr.id = x.hdr.id := by
    intro x
    simp only [Bmv2.lockStages, hop, Bmv2.rwTable_hdr]
    split <;> rfl
  rw [Bmv2.fissIngress]
  split
  · rfl
  · simp only [Bmv2.ingressCell]
    split_ifs
    · exact hcnt _
    · exact hcnt _
    · exact (hstages _).trans (hcnt _)

lemma Bmv2.fissEgress_id (rid : ℕ) (x : Bmv2.Ctx) : (Bmv2.fissEgress rid x).id = x.hdr.id := by
  rw [Bmv2.fissEgress]
  split_ifs <;> rfl

namespace Plane

/-- A copy carries the id of the packet. -/
lemma copies_id {pl : Plane} {p : LockHdr} {c : HostId × LockHdr} (hc : c ∈ pl.copies p) :
    c.2.id = p.id := by
  cases pl with
  | tofino r =>
      simp only [copies, Tofino.replicate, List.mem_map] at hc
      obtain ⟨m, -, rfl⟩ := hc
      rw [Tofino.egressPipe_id, Tofino.ingressPipe_id]
  | bmv2 r polling =>
      simp only [copies, List.mem_flatMap] at hc
      obtain ⟨q, hq, hc⟩ := hc
      obtain ⟨h, -, rfl⟩ : ∃ h ∈ polling, (h, q.2.parse) = c := by
        split at hc
        · exact List.mem_map.1 hc
        · cases hc
      have hid := Bmv2.fissIngress_id r (Bmv2.Hdr.ofPost p)
      rw [Bmv2.emit] at hq
      split at hq
      · obtain ⟨m, -, rfl⟩ := List.mem_map.1 hq
        exact (Bmv2.fissEgress_id _ _).trans hid
      · rw [List.mem_singleton.1 hq]
        exact (Bmv2.fissEgress_id _ _).trans hid

/-- A packet out of range is forwarded to the host it is addressed to. -/
lemma copies_of_outOfRange {pl : Plane} {p : LockHdr} (hr : pl.outOfRange p.id = true)
    (ha : 1 ≤ p.agent.toNat ∧ p.agent.toNat ≤ HOST_NUM) :
    ∃ q, pl.copies p = (pl.receivers p.agent).map (fun h => (h, q)) ∧ q.type = p.type
      ∧ q.id = p.id := by
  cases pl with
  | tofino r =>
      have hs : Tofino.slice p.id = none := by simpa [outOfRange] using hr
      refine ⟨{ p with multicasted := false, granted := false }, ?_, rfl, rfl⟩
      simp only [copies, Tofino.ingressPipe, hs]
      exact Tofino.replicate_agent rfl rfl (Tofino.isHost_iff.2 ha)
  | bmv2 r polling =>
      have hs : Bmv2.outOfRange (Bmv2.Hdr.ofPost p).id = true := hr
      refine ⟨(Bmv2.Hdr.ofPost p).parse, ?_, rfl, rfl⟩
      have hne : p.agent ≠ 0 := by
        rintro h
        simp [h] at ha
      have hagent : (Bmv2.Hdr.ofPost p).agent = p.agent := rfl
      simp only [copies, receivers, Bmv2.fissIngress, hs, if_true, Bmv2.emit, Bmv2.initPacket,
        Bmv2.fissEgress, Bool.false_eq_true, if_false, hagent, hne, List.flatMap_cons,
        List.flatMap_nil, List.append_nil]
      change (if Bmv2.hasFile (Bmv2.portOf p.agent) = true then _ else _) = _
      split <;> rfl

end Plane

/-! ## Who decides -/

section Deciders

variable {pl : Plane} {l : InnetLock} {p : LockHdr}

/-- No copy of a request is decided on by a host that takes the id to be in range. -/
lemma deciders_of_inRange (hid : p.id = l.id) (hr : lockOutOfRange l = false) :
    deciders pl p = if pl.outOfRange p.id then [] else [.switch] := by
  have hnone : (pl.copies p).filterMap
      (fun c => if managedHere c.2 then some (Decider.manager c.1) else none) = [] := by
    rw [List.filterMap_eq_nil_iff]
    intro c hc
    have hm : managedHere c.2 = false := by
      have hc' : lockOutOfRange (InnetLock.init c.2.id) = lockOutOfRange l := by
        simp only [lockOutOfRange, InnetLock.init, Plane.copies_id hc, hid]
      simp [managedHere, hc', hr]
    simp [hm]
  rw [deciders, hnone, List.append_nil]

/-- A request that is addressed to the lock manager is decided on by those who receive it. -/
lemma deciders_of_outOfRange (hid : p.id = l.id) (hr : lockOutOfRange l = true)
    (hpl : pl.outOfRange p.id = true) (ht : p.type = .acquire) (ha : p.agent = lockToLm l) :
    deciders pl p = (pl.receivers (lockToLm l)).map .manager := by
  have hlm : 1 ≤ p.agent.toNat ∧ p.agent.toNat ≤ HOST_NUM := by
    rw [ha, lockToLm_toNat]
    have := Nat.mod_lt l.id.toNat (show 0 < HOST_NUM by decide)
    omega
  obtain ⟨q, hq, hqt, hqid⟩ := Plane.copies_of_outOfRange hpl hlm
  have hm : managedHere q = true := by
    have hl : lockOutOfRange (InnetLock.init q.id) = lockOutOfRange l := by
      simp only [lockOutOfRange, InnetLock.init, hqid, hid]
    simp [managedHere, hqt, ht, hl, hr]
  rw [deciders, hq, hpl, if_pos rfl, List.nil_append, List.filterMap_map, ha]
  simp [hm]

end Deciders

/-- The id is out of range for host and plane alike, or for neither. -/
def SameRange (pl : Plane) (id : LockId) : Prop :=
  pl.isBmv2 = true → id.toNat < 1024 ∨ SWITCH_LOCK_NUM ≤ id.toNat

/-- The host is the manager of the id itself, or what is sent to the manager reaches it, and nobody
else. -/
def ReachesManager (pl : Plane) (localhostId : HostId) (id : LockId) : Prop :=
  SWITCH_LOCK_NUM ≤ id.toNat → lockToLm (.init id) = localhostId ∨
    match pl with
    | .tofino _ => True
    | .bmv2 _ polling =>
        (lockToLm (.init id) = 1 ∨ lockToLm (.init id) = 2) ∧ polling = [lockToLm (.init id)]

/-- The host and the plane draw the same line but for the ids that are disputed. -/
lemma range_iff (pl : Plane) (l : InnetLock) :
    (lockOutOfRange l = true ↔ pl.outOfRange l.id = true) ↔ SameRange pl l.id := by
  cases pl with
  | tofino r =>
      have hs : (Tofino.slice l.id).isNone = true ↔ SWITCH_LOCK_NUM ≤ l.id.toNat := by
        rw [Option.isNone_iff_eq_none, Tofino.slice_eq_none_iff]
        rfl
      simp [SameRange, Plane.isBmv2, lockOutOfRange, Plane.outOfRange, hs]
  | bmv2 r polling =>
      have hs : Bmv2.outOfRange l.id = true ↔ 1024 ≤ l.id.toNat := by
        rw [← not_iff_not, Bool.not_eq_true, Bmv2.outOfRange_eq_false, not_le]
      have hl : lockOutOfRange l = true ↔ SWITCH_LOCK_NUM ≤ l.id.toNat := decide_eq_true_iff
      simp only [SameRange, Plane.isBmv2, Plane.outOfRange, hl, hs, true_implies, SWITCH_LOCK_NUM]
      omega

/-- The two hosts with a capture file of their own are 1 and 2; the third file is of port 0. -/
lemma hasFile_portOf_iff {h : HostId} (hpos : 1 ≤ h.toNat) :
    Bmv2.hasFile (Bmv2.portOf h) = true ↔ h = 1 ∨ h = 2 := by
  have hall : ∀ h : HostId, h ≠ 0 → (Bmv2.hasFile (Bmv2.portOf h) = true ↔ h = 1 ∨ h = 2) := by
    decide +kernel
  refine hall h ?_
  rintro rfl
  simp at hpos

lemma reachesManager_iff {pl : Plane} {localhostId : HostId} {id : LockId} :
    ReachesManager pl localhostId id ↔ (SWITCH_LOCK_NUM ≤ id.toNat →
      lockToLm (.init id) = localhostId
        ∨ pl.receivers (lockToLm (.init id)) = [lockToLm (.init id)]) := by
  have hpos : 1 ≤ (lockToLm (.init id)).toNat := by
    rw [lockToLm_toNat]
    omega
  cases pl with
  | tofino r => simp [ReachesManager, Plane.receivers]
  | bmv2 r polling =>
      simp only [ReachesManager, Plane.receivers, ← hasFile_portOf_iff hpos]
      refine imp_congr_right fun _ => or_congr_right ?_
      split
      · next hf => simp [hf]
      · next hf => simp [hf]

/-- A host sends the requests for ids that others manage to the manager. -/
lemma sends_acquireLm {cf : Conf} {id : LockId} (hr : SWITCH_LOCK_NUM ≤ id.toNat)
    (hlm : lockToLm (.init id) ≠ cf.localhostId) :
    Sends cf (.init id) (sendPostAcquireLm cf .excl id (lockToLm (.init id)) 0) := by
  have hout : lockOutOfRange (.init id) = true := decide_eq_true hr
  refine .acquire 0 .excl ?_
  rw [lockAcquireAsync, if_neg (by simp), if_pos hout, if_neg hlm]
  exact List.mem_singleton_self _

/-- **Who manages a lock.**  Host and plane agree on who manages an id, and every request for it is
decided on by the switch or else by its lock manager alone, exactly if they draw the same line and
what is sent to the manager reaches it alone. -/
theorem agreement_iff (pl : Plane) (localhostId : HostId) (enbLocalGrants : Bool) (id : LockId) :
    Agreement pl localhostId enbLocalGrants id
      ↔ SameRange pl id ∧ ReachesManager pl localhostId id := by
  rw [reachesManager_iff]
  constructor
  · intro h
    have hsame := (range_iff pl (InnetLock.init id)).1 (h.range _ rfl)
    refine ⟨hsame, fun hr => or_iff_not_imp_left.2 fun hlm => ?_⟩
    -- the host asks the manager
    have hout : lockOutOfRange (InnetLock.init id) = true := decide_eq_true hr
    have hsent : Sends (pl.conf localhostId enbLocalGrants) (.init id)
        (sendPostAcquireLm (pl.conf localhostId enbLocalGrants) .excl id (lockToLm (.init id)) 0) :=
      sends_acquireLm hr hlm
    have hdec := h.decided _ rfl _ hsent rfl
    rw [if_pos hout, deciders_of_outOfRange (l := .init id) rfl hout
      ((h.range _ rfl).1 hout) rfl rfl] at hdec
    have hinj : Function.Injective Decider.manager := fun _ _ heq => Decider.manager.inj heq
    exact (List.map_injective_iff.2 hinj) (hdec.trans (List.map_singleton ..).symm)
  · rintro ⟨hsame, hreach⟩
    constructor
    · rintro l rfl
      exact (range_iff pl l).2 hsame
    · rintro l rfl p hp ht
      have hrange := (range_iff pl l).2 hsame
      obtain ⟨hid, hagent⟩ := hp.acquire_cases ht
      cases hr : lockOutOfRange l with
      | false =>
          have hpl : pl.outOfRange p.id = false := by
            rw [hid, ← Bool.not_eq_true, ← hrange, hr]
            simp
          simp [deciders_of_inRange hid hr, hpl]
      | true =>
          have hpl : pl.outOfRange p.id = true := by
            rw [hid]
            exact hrange.1 hr
          have hlm : pl.receivers (lockToLm l) = [lockToLm l] :=
            (hreach (of_decide_eq_true hr)).resolve_left (hp.not_manager hr ht)
          simp [deciders_of_outOfRange hid hr hpl ht (hagent hr), hlm]
    · rintro l rfl
      rw [lockToLm_toNat]
      have := Nat.mod_lt l.id.toNat (show 0 < HOST_NUM by decide)
      omega

/-- The request of a task of host 1 for lock 1024 on BMv2 comes back to host 1, and nobody
decides. -/
theorem agreement_fails :
    ¬ ∀ (pl : Plane) (localhostId : HostId) (enbLocalGrants : Bool) (id : LockId),
      Agreement pl localhostId enbLocalGrants id := by
  intro hall
  let pl : Plane := .bmv2 Bmv2.Regs.init [1]
  let p : LockHdr := sendPostAcquire (pl.conf 1 true) .excl 1024 1 5
  have hsent : Sends (pl.conf 1 true) (InnetLock.init 1024) p :=
    .acquire 5 .excl (by decide +kernel)
  have h := (hall pl 1 true 1024).decided _ rfl p hsent rfl
  have hnobody : deciders pl p = [] := by decide +kernel
  rw [hnobody] at h
  exact absurd h (by decide +kernel)

end FissLock
