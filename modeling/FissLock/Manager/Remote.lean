import FissLock.Cluster.Inversion
import FissLock.Host.Handle
import FissLock.Library.RemoteLock
import FissLock.Manager.Correctness
import FissLock.Switch.Isolation

/-!
# An out-of-range lock in the cluster

The hosts, the tasks and the packets of `Cluster/System.lean` with a lock that the switch does not
know.  The switch only forwards its packets, to the host that the sender has put into `agent`, and
one of the hosts is the manager: it answers the calls of its own tasks at once and those of the
others with packets, which all go through the switch, also when they are for itself.

`stepOutOfRange` is this system.  Its runs are those in which `lock_digest_wq` is never given more
than the `DPDK_TX_BURST_SIZE` entries that it has room for.  `Sim` relates its states to those of a
readers-writer lock at the far end of a network (`Library/RemoteLock.lean`) with one node between a
client and the lock; a grant counts one more, because a task sees it only when it asks for it after
the packet has come.
-/

namespace FissLock

open Runs Tofino ReadersWriter

/-! ## The system -/

/-- The manager of the lock. -/
def lockManager (lid : LockId) : HostId := lockToLm (.init lid)

namespace Cluster

/-- The switch processes a packet when its registers are `regs`; `rest` is what else is in
flight. -/
def forwardStep (regs : Regs) (s : Cluster) (hdr : LockHdr) (rest : List Flight) : Cluster :=
  let r := ingressPipe regs hdr
  { s with net := toHosts (replicate r.2.1 r.2.2) ++ rest }

/-- The step function of an out-of-range lock: the switch does not use a cell of the lock, but its
whole register file, and everything else is as for an in-range lock. -/
def stepOutOfRange (regs : Regs) (s : Cluster) : Event → Option Cluster
  | .deliver i =>
      match s.net[i]? with
      | some (.switch, hdr) => some (s.forwardStep regs hdr (s.net.eraseIdx i))
      | _ => s.step (.deliver i)
  | e => s.step e

/-- The queue that a host digests in a step. -/
def digested (s : Cluster) : Event → Option (List Wqe)
  | .deliver i =>
      match s.net[i]? with
      | some (.host h, hdr) => digestedBy (conf h) (s.host h) (.packet hdr)
      | _ => none
  | .acquire _ _ _ => none
  | .poll _ _ => none
  | .release h t => digestedBy (conf h) (s.host h) (.release (s.host h).id t)

/-- The queue that is digested, if there is one, fits into the arrays of `lock_digest_wq`. -/
def DigestFits (s : Cluster) (e : Event) : Prop :=
  ∀ wq ∈ s.digested e, wq.length ≤ DPDK_TX_BURST_SIZE

instance (s : Cluster) (e : Event) : Decidable (s.DigestFits e) :=
  inferInstanceAs (Decidable (∀ wq ∈ s.digested e, wq.length ≤ DPDK_TX_BURST_SIZE))

/-- The states of all runs of the lock in which no host digests too long a queue. -/
abbrev ReachableOutOfRange (regs : Regs) (lid : LockId) : Cluster → Prop :=
  Reach (stepOutOfRange regs) DigestFits (init lid)

/-- The packets of a task that are in flight. -/
def own (s : Cluster) (lh : LockHolder) : Multiset Flight :=
  (s.net : Multiset Flight).filter fun x => ownPacket lh x = true

/-- What can be seen of a task: what it does, whether its grant flag is up, and its packets. -/
def looks (s : Cluster) (lh : LockHolder) : TaskState × Bool × Multiset Flight :=
  (s.task lh, (s.host lh.1).taskGranted lh.2, s.own lh)

end Cluster

/-! ## Packets -/

section Packets

variable {lid : LockId} {ty : PostType} {lh : LockHolder} {d : HostId} {p : LockHdr}

/-- A packet of this type, of the task `lh`, for the host `d`. -/
structure Concerns (lid : LockId) (ty : PostType) (lh : LockHolder) (d : HostId) (p : LockHdr) :
    Prop where
  id : p.id = lid
  type : p.type = ty
  holder : p.holder = lh
  agent : p.agent = d

lemma Concerns.cleared (hp : Concerns lid ty lh d p) : Concerns lid ty lh d (cleared p) :=
  ⟨hp.id, hp.type, hp.holder, hp.agent⟩

lemma concerns_acquire (cf : Conf) (op : LockState) (lm : HostId) (t : TaskId) :
    Concerns lid .acquire (cf.localhostId, t) lm (sendPostAcquireLm cf op lid lm t) :=
  ⟨rfl, rfl, rfl, rfl⟩

lemma concerns_release (h : HostId) (t : TaskId) (lm : HostId) :
    Concerns lid .release (h, t) lm (sendPostReleaseLm lid h t lm) :=
  ⟨rfl, rfl, rfl, rfl⟩

/-- A grant, addressed to the host of its task. -/
def IsGrant (lid : LockId) (p : LockHdr) : Prop := Concerns lid .grantWoAgent p.holder p.machineId p

lemma isGrant_sendPostGrant (h : HostId) (t : TaskId) : IsGrant lid (sendPostGrant lid h t) :=
  ⟨rfl, rfl, rfl, rfl⟩

/-- All packets are grants. -/
lemma map_holder_grants {ps : List LockHdr} (h : ∀ p ∈ ps, IsGrant lid p) :
    ps.map LockHdr.holder = grantees ps := by
  rw [grantees, List.filter_eq_self.2]
  intro p hp
  simpa using (h p hp).type

variable {cf : Conf} {l : InnetLock} {hdr : LockHdr}

lemma isGrant_lockDigestWq {wq : List Wqe} (hp : p ∈ (lockDigestWq l wq).2) : IsGrant l.id p := by
  rw [lockDigestWq_eq] at hp
  obtain ⟨w, -, rfl⟩ := List.mem_map.1 hp
  exact isGrant_sendPostGrant w.host w.taskId

lemma isGrant_handleReleaseLm {h : HostId} {t : TaskId} (hp : p ∈ (handleReleaseLm l h t).2.1) :
    IsGrant l.id p := by
  simp only [handleReleaseLm] at hp
  split at hp
  · split at hp
    · simp at hp
    · split at hp
      · have hg := isGrant_lockDigestWq hp
        exact hg
      · simp at hp
  · simp at hp

/-- Out of range, only grants leave the manager. -/
lemma isGrant_processAcquire (hr : lockOutOfRange l = true) (ht : hdr.type = .acquire)
    (hid : hdr.id = lid) (hp : p ∈ (lockPacketProcess cf l hdr).toSwitch) : IsGrant lid p := by
  simp only [lockPacketProcess, ht, processAcquire, if_pos hr] at hp
  split at hp
  · obtain rfl : p = _ := by simpa [Outcome.toSwitch] using hp
    exact ⟨hid, rfl, rfl, rfl⟩
  · simp [Outcome.toSwitch] at hp

lemma isGrant_processRelease (hr : lockOutOfRange l = true) (ht : hdr.type = .release)
    (hid : hdr.id = l.id) (hp : p ∈ (lockPacketProcess cf l hdr).toSwitch) : IsGrant l.id p := by
  simp only [lockPacketProcess, ht, processRelease, if_pos hr] at hp
  split at hp
  · split at hp
    · exact isGrant_handleReleaseLm (by simpa [Outcome.toSwitch] using hp)
    · rcases List.mem_append.1 hp with hp | hp
      · exact isGrant_handleReleaseLm hp
      · obtain rfl : p = _ := by simpa using hp
        exact ⟨hid, rfl, rfl, rfl⟩
  · exact isGrant_handleReleaseLm (by simpa [Outcome.toSwitch] using hp)

lemma isGrant_lockRelease {t : TaskId} (hr : lockOutOfRange l = true)
    (hm : lockToLm l = cf.localhostId) (hp : p ∈ (lockRelease cf l t).sent) : IsGrant l.id p := by
  set l' := { l with localHolders := l.localHolders.erase t } with hl
  have hr' : lockOutOfRange l' = true := hr
  have hm' : lockToLm l' = cf.localhostId := hm
  have hgrants : ∀ q ∈ (handleReleaseLm l' cf.localhostId t).2.1, IsGrant l.id q :=
    fun q hq => isGrant_handleReleaseLm (l := l') hq
  rw [lockRelease, ← hl, if_pos hr', if_pos hm'] at hp
  dsimp only at hp
  split at hp
  · split at hp
    · exact hgrants p hp
    · rcases List.mem_append.1 hp with hp | hp
      · exact hgrants p hp
      · rw [List.mem_singleton.1 hp]
        exact isGrant_sendPostGrant _ _
  · exact hgrants p hp

/-- The switch hands a packet out of range to the host it is addressed to, and writes nothing. -/
lemma forward_outOfRange (regs : Regs) (hs : slice p.id = none) (ha : isHost p.agent = true) :
    (ingressPipe regs p).1 = regs
      ∧ replicate (ingressPipe regs p).2.1 (ingressPipe regs p).2.2 = [(p.agent, cleared p)] := by
  have hcopy : replicate (initPacket Cell.init p).hdr {} = [(p.agent, cleared p)] :=
    replicate_agent rfl rfl ha
  simp only [ingressPipe, hs]
  exact ⟨trivial, hcopy⟩

end Packets

/-! ## The stages of a task -/

/-- Where a packet for the host `d` is that has `n` nodes to go through. -/
def Dst.before (n : ℕ) (d : HostId) : Dst := if n = 0 then .host d else .switch

/-- How a task looks at a stage of its request. -/
def Shows (lid : LockId) (lh : LockHolder) (v : TaskState × Bool × Multiset Flight) :
    RemoteLock.Stage → Prop
  | .idle => v = (.idle, false, 0)
  | .asking x n => n ≤ 1 ∧ ∃ p, Concerns lid .acquire lh (lockManager lid) p ∧ p.mode = x
      ∧ v = (.waiting (.ofBit x), false, {(.before n (lockManager lid), p)})
  | .queued x => v = (.waiting (.ofBit x), false, 0)
  | .granted x 0 => v = (.waiting (.ofBit x), true, 0)
  | .granted x (n + 1) => n ≤ 1 ∧ ∃ p, Concerns lid .grantWoAgent lh lh.1 p
      ∧ v = (.waiting (.ofBit x), false, {(.before n lh.1, p)})
  | .holding x => v = (.holding (.ofBit x), false, 0)
  | .leaving _ n => n ≤ 1 ∧ ∃ p, Concerns lid .release lh (lockManager lid) p
      ∧ v = (.idle, false, {(.before n (lockManager lid), p)})

/-- A state of the cluster and one of the lock with its clients. -/
structure Sim (lid : LockId) (s : Cluster) (t : RemoteLock.State LockHolder) : Prop where
  ids : ∀ h, (s.host h).id = lid
  lock : Represents (s.host (lockManager lid)) t.lock.phase t.lock.queue
  shows : ∀ lh, Shows lid lh (s.looks lh) (t.stage lh)
  client : ∀ lh, t.stage lh ≠ .idle → isHost lh.1 = true ∧ lh.2.toNat < 2 ^ 30
  types : ∀ x ∈ s.net, x.2.type ≠ .free

/-! ## What a step changes -/

/-- Going from `s` to `s'` consumes the packets `used` and produces the packets `made`, all of the
task `lh`, and no other task notices. -/
structure Turn (s s' : Cluster) (lh : LockHolder) (used made : Multiset Flight) : Prop where
  task : ∀ b, b ≠ lh → s'.task b = s.task b
  flag : ∀ b, b ≠ lh → (s'.host b.1).taskGranted b.2 = (s.host b.1).taskGranted b.2
  net : ∃ rest, (s.net : Multiset Flight) = used + rest ∧ (s'.net : Multiset Flight) = made + rest
  own : ∀ x ∈ used + made, ownPacket lh x = true

lemma ownPacket_iff {lh : LockHolder} {x : Flight} :
    ownPacket lh x = true ↔ x.2.type ≠ .free ∧ x.2.holder = lh := decide_eq_true_iff

lemma Concerns.ownPacket {lid : LockId} {ty : PostType} {lh : LockHolder} {d : HostId}
    {p : LockHdr} (hp : Concerns lid ty lh d p) (hty : ty ≠ .free) (x : Dst) :
    ownPacket lh (x, p) = true :=
  ownPacket_iff.2 ⟨by rw [hp.type]; exact hty, hp.holder⟩

section Turns

variable {lid : LockId} {s s' : Cluster} {t : RemoteLock.State LockHolder} {lh : LockHolder}
  {used made : Multiset Flight}

lemma filter_own_of_ne {b : LockHolder} {m : Multiset Flight} (hne : b ≠ lh)
    (h : ∀ x ∈ m, ownPacket lh x = true) : m.filter (fun x => ownPacket b x = true) = 0 := by
  rw [Multiset.filter_eq_nil]
  intro x hx hb
  exact hne ((ownPacket_iff.1 hb).2.symm.trans (ownPacket_iff.1 (h x hx)).2)

lemma filter_own_self {m : Multiset Flight} (h : ∀ x ∈ m, ownPacket lh x = true) :
    m.filter (fun x => ownPacket lh x = true) = m := Multiset.filter_eq_self.2 h

namespace Turn

lemma looks_of_ne (ht : Turn s s' lh used made) {b : LockHolder} (hne : b ≠ lh) :
    s'.looks b = s.looks b := by
  obtain ⟨rest, h1, h2⟩ := ht.net
  have hu := filter_own_of_ne hne fun x hx => ht.own x (Multiset.mem_add.2 (.inl hx))
  have hm := filter_own_of_ne hne fun x hx => ht.own x (Multiset.mem_add.2 (.inr hx))
  have hown : s'.own b = s.own b := by
    rw [Cluster.own, Cluster.own, h1, h2, Multiset.filter_add, Multiset.filter_add, hu, hm]
  rw [Cluster.looks, Cluster.looks, ht.task b hne, ht.flag b hne, hown]

lemma own_eq (ht : Turn s s' lh used made) (hs : s.own lh = used) : s'.own lh = made := by
  obtain ⟨rest, h1, h2⟩ := ht.net
  have hu := filter_own_self fun x hx => ht.own x (Multiset.mem_add.2 (.inl hx))
  have hm := filter_own_self fun x hx => ht.own x (Multiset.mem_add.2 (.inr hx))
  rw [Cluster.own, h1, Multiset.filter_add, hu] at hs
  rw [Cluster.own, h2, Multiset.filter_add, hm, add_eq_left.1 hs, add_zero]

lemma types (ht : Turn s s' lh used made) (hs : ∀ x ∈ s.net, x.2.type ≠ .free) :
    ∀ x ∈ s'.net, x.2.type ≠ .free := by
  obtain ⟨rest, h1, h2⟩ := ht.net
  intro x hx
  rw [← Multiset.mem_coe, h2, Multiset.mem_add] at hx
  rcases hx with hx | hx
  · exact (ownPacket_iff.1 (ht.own x (Multiset.mem_add.2 (.inr hx)))).1
  · apply hs x
    rw [← Multiset.mem_coe, h1, Multiset.mem_add]
    exact .inr hx

end Turn

/-- A step for one task, which takes it to the stage `st` and the lock to `l`. -/
lemma Sim.turn (hs : Sim lid s t) (ht : Turn s s' lh used made) (hown : s.own lh = used)
    (hids : ∀ h, (s'.host h).id = lid) {l : Service LockHolder}
    (hlock : Represents (s'.host (lockManager lid)) l.phase l.queue) {st : RemoteLock.Stage}
    (hst : Shows lid lh (s'.task lh, (s'.host lh.1).taskGranted lh.2, made) st)
    (hcl : st ≠ .idle → isHost lh.1 = true ∧ lh.2.toNat < 2 ^ 30) :
    Sim lid s' ⟨l, Function.update t.stage lh st⟩ := by
  refine ⟨hids, hlock, fun b => ?_, fun b hb => ?_, ht.types hs.types⟩
  · show Shows lid b (s'.looks b) (Function.update t.stage lh st b)
    by_cases hne : b = lh
    · subst hne
      rw [Function.update_self, Cluster.looks, ht.own_eq hown]
      exact hst
    · rw [Function.update_of_ne hne, ht.looks_of_ne hne]
      exact hs.shows b
  · by_cases hne : b = lh
    · subst hne
      exact hcl (by simpa using hb)
    · exact hs.client b (by simpa [hne] using hb)

/-- Of packets for different tasks, one is for the task of `p`. -/
lemma filter_holder_eq {ps : List LockHdr} (h : (ps.map LockHdr.holder).Nodup) {p : LockHdr}
    (hp : p ∈ ps) : (ps.filter fun q => q.holder = p.holder) = [p] := by
  induction ps with
  | nil => cases hp
  | cons q ps ih =>
      rw [List.map_cons, List.nodup_cons] at h
      by_cases hq : q.holder = p.holder
      · have hnone : (ps.filter fun r => r.holder = p.holder) = [] := by
          rw [List.filter_eq_nil_iff]
          intro r hr hrp
          exact h.1 (List.mem_map.2 ⟨r, hr, (of_decide_eq_true hrp).trans hq.symm⟩)
        have hpq : p = q := by
          refine (List.mem_cons.1 hp).resolve_right fun hp' => ?_
          exact h.1 (List.mem_map.2 ⟨p, hp', hq.symm⟩)
        rw [List.filter_cons_of_pos (by simpa using hq), hnone, hpq]
      · have hp' : p ∈ ps := (List.mem_cons.1 hp).resolve_left fun hpq => hq (hpq ▸ rfl)
        rw [List.filter_cons_of_neg (by simpa using hq), ih h.2 hp']

/-- The packets of a task after grants were sent. -/
lemma own_grants {ps : List LockHdr} (hps : ∀ p ∈ ps, IsGrant lid p) (b : LockHolder) :
    Cluster.own { s with net := toSwitch ps ++ s.net } b
      = (toSwitch (ps.filter fun p => p.holder = b) : Multiset Flight) + s.own b := by
  have hsw : ((toSwitch ps : List Flight) : Multiset Flight).filter (fun x => ownPacket b x = true)
      = (toSwitch (ps.filter fun p => p.holder = b) : List Flight) := by
    rw [Multiset.filter_coe, toSwitch, toSwitch, List.filter_map]
    refine congrArg _ (congrArg _ (List.filter_congr fun p hp => ?_))
    have := (hps p hp).type
    simp [ownPacket, this]
  show ((toSwitch ps ++ s.net : List Flight) : Multiset Flight).filter _ = _
  rw [← Multiset.coe_add, Multiset.filter_add, hsw]
  rfl

/-- The manager sends grants, to tasks that wait. -/
lemma Sim.grants (hs : Sim lid s t) {ps : List LockHdr} (hps : ∀ p ∈ ps, IsGrant lid p)
    (hnodup : (grantees ps).Nodup) (hq : ∀ b ∈ grantees ps, ∃ x, t.stage b = .queued x) :
    Sim lid { s with net := toSwitch ps ++ s.net }
      ⟨t.lock, RemoteLock.served 2 t.stage (grantees ps)⟩ := by
  have hmap := map_holder_grants hps
  refine ⟨hs.ids, hs.lock, fun b => ?_, fun b hb => hs.client b fun hidle => hb ?_, fun x hx => ?_⟩
  · have hshow := hs.shows b
    show Shows lid b (s.task b, (s.host b.1).taskGranted b.2, Cluster.own _ b)
      (RemoteLock.served 2 t.stage (grantees ps) b)
    rw [own_grants hps]
    by_cases hb : b ∈ grantees ps
    · obtain ⟨x, hx⟩ := hq b hb
      rw [hx] at hshow
      rw [RemoteLock.served_of_mem hb, hx]
      -- the grants name every task at most once, and this task has no other packet
      obtain ⟨p, hp, rfl⟩ : ∃ p ∈ ps, p.holder = b := List.mem_map.1 (hmap ▸ hb)
      rw [filter_holder_eq (hmap ▸ hnodup) hp]
      simp only [Shows, Cluster.looks, Prod.mk.injEq] at hshow
      refine ⟨Nat.le_refl 1, p, hps p hp, ?_⟩
      rw [hshow.1, hshow.2.1, hshow.2.2]
      rfl
    · have hnone : (ps.filter fun q => q.holder = b) = [] := by
        rw [List.filter_eq_nil_iff]
        intro p hp hpb
        exact hb (hmap ▸ List.mem_map.2 ⟨p, hp, of_decide_eq_true hpb⟩)
      rw [RemoteLock.served_of_not_mem hb, hnone]
      simpa [toSwitch, Cluster.looks] using hshow
  · show RemoteLock.served 2 t.stage (grantees ps) b = .idle
    rw [RemoteLock.served, hidle]
    split <;> rfl
  · rcases List.mem_append.1 hx with hx | hx
    · obtain ⟨p, hp, rfl⟩ := List.mem_map.1 hx
      rw [(hps p hp).type]
      rintro ⟨⟩
    · exact hs.types x hx

end Turns

/-! ## What the hosts do -/

section Code

variable {lid : LockId} {l : InnetLock} {lh : LockHolder}

lemma lockToLm_eq (hl : l.id = lid) : lockToLm l = lockManager lid := by
  rw [lockToLm, lockManager, lockToLm, hl]
  rfl

lemma lockOutOfRange_eq (hlid : SWITCH_LOCK_NUM ≤ lid.toNat) (hl : l.id = lid) :
    lockOutOfRange l = true := by
  rw [lockOutOfRange, hl]
  exact decide_eq_true hlid

/-- `lock_acquire_async` at the manager. -/
lemma lockAcquireAsync_manager (cf : Conf) (t : TaskId) {op : LockState}
    (hr : lockOutOfRange l = true) (hm : lockToLm l = cf.localhostId)
    (hop : op = .shared ∨ op = .excl) :
    lockAcquireAsync cf l t op
      = ({ lock := (handleAcquireLm l cf.localhostId t op).1 },
        if (handleAcquireLm l cf.localhostId t op).2 then .granted else .flag t) := by
  have hop' : ¬ (op ≠ .excl ∧ op ≠ .shared) := by tauto
  rw [lockAcquireAsync, if_neg hop', if_pos hr, if_pos hm]
  dsimp only
  split <;> rfl

/-- `lock_acquire_async` at another host. -/
lemma lockAcquireAsync_toManager (cf : Conf) (t : TaskId) {op : LockState}
    (hr : lockOutOfRange l = true) (hm : lockToLm l ≠ cf.localhostId)
    (hop : op = .shared ∨ op = .excl) :
    lockAcquireAsync cf l t op
      = ({ lock := l, sent := [sendPostAcquireLm cf op l.id (lockToLm l) t] }, .flag t) := by
  have hop' : ¬ (op ≠ .excl ∧ op ≠ .shared) := by tauto
  rw [lockAcquireAsync, if_neg hop', if_pos hr, if_neg hm]
  rfl

/-- `lock_release` at another host. -/
lemma lockRelease_toManager (cf : Conf) (t : TaskId) (hr : lockOutOfRange l = true)
    (hm : lockToLm l ≠ cf.localhostId) :
    lockRelease cf l t
      = { lock := { l with localHolders := l.localHolders.erase t }
          sent := [sendPostReleaseLm l.id cf.localhostId t (lockToLm l)] } := by
  have hr' : lockOutOfRange { l with localHolders := l.localHolders.erase t } = true := hr
  have hm' : ¬ lockToLm { l with localHolders := l.localHolders.erase t } = cf.localhostId := hm
  rw [lockRelease, if_pos hr', if_neg hm']
  rfl

/-- The manager leaves the grant flags to the packets. -/
lemma lmReleased_taskGranted : (lmReleased l lh).1.taskGranted = l.taskGranted := by
  by_cases he : (lockRemoveHolder l lh).holders = ∅
  · cases hw : l.wqueue with
    | nil => rw [lmReleased_nil he hw]; rfl
    | cons w rest =>
        by_cases hs : w.op = .shared
        · rw [lmReleased_shared he hw hs]; rfl
        · rw [lmReleased_excl he hw hs]; rfl
  · rw [lmReleased_held he]; rfl

lemma isHost_lockManager (lid : LockId) : isHost (lockManager lid) = true := by
  rw [isHost_iff, lockManager, lockToLm, BitVec.toNat_ofNat]
  simp only [HOST_NUM]
  omega

end Code

end FissLock
