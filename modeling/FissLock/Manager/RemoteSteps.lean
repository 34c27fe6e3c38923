import FissLock.Library.RemoteClients
import FissLock.Manager.Remote

/-!
# Out-of-range locks are correct in the whole cluster

`sim_step` says that every step of the cluster is one or a few steps of the lock and its clients,
and takes as much work off.  What is known of those is then known of the tasks, in every run in which
no queue of more than `DPDK_TX_BURST_SIZE` entries is digested:

* `out_of_range_exclusive` — a task that holds the lock exclusively is the only one that holds it;
* `out_of_range_all_served` — when no packet is in flight and no task holds the lock, no task waits
  and the lock is free;
* `out_of_range_run_bound` — after each `lock_acquire_async` there are at most eight more steps.
-/

namespace FissLock

open Runs Tofino ReadersWriter

/-! ## Every step is matched -/

section Simulation

variable {lid : LockId} {regs : Regs} {s s' : Cluster} {t : RemoteLock.State LockHolder}
  {lh : LockHolder} {h : HostId} {tid : TaskId} {op : LockState}

/-- The steps that a step of the cluster is matched by: all but an `acquire` take work off, and an
`acquire` brings what a request needs. -/
def Matched (lid : LockId) (s' : Cluster) (t : RemoteLock.State LockHolder) (k b : ℕ) : Prop :=
  ∃ t', RemoteLock.Advance 1 2 t t' k b ∧ Sim lid s' t'

/-- A task that does nothing and has no packet in flight. -/
lemma Sim.idle (hs : Sim lid s t) (htask : s.task lh = .idle)
    (hnet : s.net.any (ownPacket lh) = false) :
    t.stage lh = .idle ∧ s.looks lh = (.idle, false, 0) := by
  have hown : s.own lh = 0 := by
    rw [Cluster.own, Multiset.filter_eq_nil]
    intro x hx hox
    exact absurd (List.any_eq_true.2 ⟨x, hx, hox⟩) (by simp [hnet])
  have hshow := hs.shows lh
  simp only [Cluster.looks, htask, hown] at hshow ⊢
  cases hst : t.stage lh with
  | idle =>
      rw [hst] at hshow
      exact ⟨rfl, hshow⟩
  | granted x n => cases n <;> simp [hst, Shows] at hshow
  | _ => simp [hst, Shows] at hshow

/-- A task that waits and whose flag is up. -/
lemma Sim.flagged (hs : Sim lid s t) (htask : s.task lh = .waiting op)
    (hflag : (s.host lh.1).taskGranted lh.2 = true) :
    ∃ x, t.stage lh = .granted x 0 ∧ op = .ofBit x ∧ s.own lh = 0 := by
  have hshow := hs.shows lh
  simp only [Cluster.looks, htask, hflag] at hshow
  cases hst : t.stage lh with
  | granted x n =>
      cases n with
      | zero => exact ⟨x, rfl, by simpa [hst, Shows] using hshow⟩
      | succ n => simp [hst, Shows] at hshow
  | _ => simp [hst, Shows] at hshow

/-- A task that holds the lock. -/
lemma Sim.holding (hs : Sim lid s t) (htask : s.task lh = .holding op) :
    ∃ x, t.stage lh = .holding x ∧ op = .ofBit x ∧ (s.host lh.1).taskGranted lh.2 = false
      ∧ s.own lh = 0 := by
  have hshow := hs.shows lh
  simp only [Cluster.looks, htask] at hshow
  cases hst : t.stage lh with
  | holding x => exact ⟨x, rfl, by simpa [hst, Shows] using hshow⟩
  | granted x n => cases n <;> simp [hst, Shows] at hshow
  | _ => simp [hst, Shows] at hshow

/-- A client that asks, waits or holds may make calls. -/
lemma Sim.client_of (hs : Sim lid s t) {st : RemoteLock.Stage} (hst : t.stage lh = st)
    (hne : st ≠ .idle) : isHost lh.1 = true ∧ lh.2.toNat < 2 ^ 30 :=
  hs.client lh (hst ▸ hne)

/-- The metadata of a host changes in fields that say nothing about the lock. -/
lemma Represents.congr {l l' : InnetLock} {p : Phase LockHolder} {q : List (LockHolder × Bool)}
    (hr : Represents l p q) (hq : l'.wqueue = l.wqueue) (hm : l'.mode = l.mode)
    (hh : l'.holders = l.holders) : Represents l' p q where
  queue := by rw [hq]; exact hr.queue
  ops := by rw [hq]; exact hr.ops
  phase := by
    rw [hm, hh]
    exact hr.phase

/-- The metadata of host `h` become `l'`, which has the same lock in it. -/
lemma Sim.represents_update (hs : Sim lid s t) {l' : InnetLock}
    (hq : l'.wqueue = (s.host h).wqueue) (hm : l'.mode = (s.host h).mode)
    (hh : l'.holders = (s.host h).holders) :
    Represents (Function.update s.host h l' (lockManager lid)) t.lock.phase t.lock.queue := by
  by_cases hl : lockManager lid = h
  · subst hl
    rw [Function.update_self]
    exact hs.lock.congr hq hm hh
  · rw [Function.update_of_ne hl]
    exact hs.lock

lemma Sim.ids_update (hs : Sim lid s t) {l' : InnetLock} (hl : l'.id = (s.host h).id)
    (h' : HostId) :
    (Function.update s.host h l' h').id = lid := by
  by_cases hh : h' = h
  · subst hh
    rw [Function.update_self, hl, hs.ids]
  · rw [Function.update_of_ne hh, hs.ids]

/-- A call changes the flags of its own host only for its own task. -/
lemma flag_update {l' : InnetLock} (hl : ∀ u, u ≠ tid → l'.taskGranted u = (s.host h).taskGranted u)
    (b : LockHolder) (hb : b ≠ (h, tid)) :
    (Function.update s.host h l' b.1).taskGranted b.2 = (s.host b.1).taskGranted b.2 := by
  by_cases hh : b.1 = h
  · rw [hh, Function.update_self]
    exact hl b.2 fun ht => hb (Prod.ext hh ht)
  · rw [Function.update_of_ne hh]

/-- Metadata with the same flags. -/
lemma flag_update_eq {l' : InnetLock} (hl : l'.taskGranted = (s.host h).taskGranted)
    (b : LockHolder) :
    (Function.update s.host h l' b.1).taskGranted b.2 = (s.host b.1).taskGranted b.2 := by
  by_cases hh : b.1 = h
  · rw [hh, Function.update_self, hl]
  · rw [Function.update_of_ne hh]

/-- `lock_acquire_async` at a host that is not the manager. -/
lemma Sim.acquire_remote (hlid : SWITCH_LOCK_NUM ≤ lid.toNat) (hs : Sim lid s t)
    (hh : isHost h = true) (ht : tid.toNat < 2 ^ 30) (hop : op = .shared ∨ op = .excl)
    (htask : s.task (h, tid) = .idle) (hnet : s.net.any (ownPacket (h, tid)) = false)
    (hne : lockManager lid ≠ h) : Matched lid (s.acquireStep h tid op) t 0 8 := by
  obtain ⟨hst, hlooks⟩ := hs.idle htask hnet
  simp only [Cluster.looks, Prod.mk.injEq] at hlooks
  have hcall := lockAcquireAsync_toManager (conf h) tid
    (lockOutOfRange_eq hlid (hs.ids h)) (by rw [lockToLm_eq (hs.ids h)]; exact hne) hop
  set p := sendPostAcquireLm (conf h) op (s.host h).id (lockToLm (s.host h)) tid with hp
  have hcon : Concerns lid .acquire (h, tid) (lockManager lid) p := by
    rw [hp, lockToLm_eq (hs.ids h), hs.ids h]
    exact concerns_acquire (conf h) op (lockManager lid) tid
  refine ⟨t.setStage (h, tid) (.asking op.bit 1), .ask hst (Nat.le_refl 1), ?_⟩
  have hturn : Turn s (s.acquireStep h tid op) (h, tid) 0 {(.switch, p)} := by
    refine ⟨fun b hb => Function.update_of_ne hb _ _, fun b hb => ?_, ⟨s.net, by simp, ?_⟩,
      fun x hx => ?_⟩
    · simp only [Cluster.acquireStep, hcall, Function.update_eq_self]
    · simp [Cluster.acquireStep, hcall, toSwitch]
    · obtain rfl : x = (.switch, p) := by simpa using hx
      exact hcon.ownPacket (by rintro ⟨⟩) _
  refine hs.turn hturn hlooks.2.2 (fun h' => ?_) ?_ ?_ fun _ => ⟨hh, ht⟩
  · simp only [Cluster.acquireStep, hcall, Function.update_eq_self]
    exact hs.ids h'
  · simp only [Cluster.acquireStep, hcall, Function.update_eq_self]
    exact hs.lock
  · refine ⟨Nat.le_refl 1, p, hcon, ?_, ?_⟩
    · rw [hp]
      rfl
    · have hbit : LockState.ofBit op.bit = op := by rcases hop with rfl | rfl <;> rfl
      simp only [Cluster.acquireStep, hcall, Function.update_eq_self, Function.update_self, hbit,
        hlooks.2.1]
      rfl

/-- `lock_acquire_async` at the manager. -/
lemma Sim.acquire_manager (hlid : SWITCH_LOCK_NUM ≤ lid.toNat) (hs : Sim lid s t)
    (hh : isHost h = true) (ht : tid.toNat < 2 ^ 30) (hop : op = .shared ∨ op = .excl)
    (htask : s.task (h, tid) = .idle) (hnet : s.net.any (ownPacket (h, tid)) = false)
    (hm : lockManager lid = h) : Matched lid (s.acquireStep h tid op) t 0 8 := by
  obtain ⟨hst, hlooks⟩ := hs.idle htask hnet
  simp only [Cluster.looks, Prod.mk.injEq] at hlooks
  have hbit : LockState.ofBit op.bit = op := by rcases hop with rfl | rfl <;> rfl
  have hcall := lockAcquireAsync_manager (conf h) tid
    (lockOutOfRange_eq hlid (hs.ids h)) (by rw [lockToLm_eq (hs.ids h)]; exact hm) hop
  obtain ⟨hrep, hid, hgr⟩ := (hm ▸ hs.lock).acquire (h := h) ht hop
  rw [conf_localhostId] at hcall
  set r := handleAcquireLm (s.host h) h tid op with hr
  set st : RemoteLock.Stage := if r.2 then .holding op.bit else .queued op.bit with hstage
  set t₁ := t.setStage (h, tid) (.asking op.bit 0) with ht₁
  have hask : RemoteLock.Advance 1 2 t t₁ 0 8 := .ask hst (Nat.zero_le 1)
  have hat : t₁.stage (h, tid) = .asking op.bit 0 := Function.update_self ..
  have harrive : RemoteLock.Advance 1 2 t₁ (t₁.arrive 2 (h, tid) op.bit) 1 0 := .arrive hat
  -- the arrival takes the task to `queued` and the grant, if there is one, to `granted`
  have hstage₂ : (t₁.arrive 2 (h, tid) op.bit).stage
      = RemoteLock.served 2 (Function.update t.stage (h, tid) (.queued op.bit))
          (if r.2 then [(h, tid)] else []) := by
    rw [hgr]
    simp only [RemoteLock.State.arrive, ht₁, RemoteLock.State.setStage, Function.update_idem]
  -- a granted task sees its grant at once
  have hadv : RemoteLock.Advance 1 2 t
      ⟨(t₁.arrive 2 (h, tid) op.bit).lock, Function.update t.stage (h, tid) st⟩ 0 8 := by
    cases hg : r.2 with
    | false =>
        have heq : Function.update t.stage (h, tid) st = (t₁.arrive 2 (h, tid) op.bit).stage := by
          rw [hstage₂, hstage, hg]
          funext b
          exact (RemoteLock.served_of_not_mem List.not_mem_nil).symm
        rw [heq]
        exact (hask.trans harrive).mono (Nat.zero_le _) (Nat.le_refl _)
    | true =>
        have hgranted : (t₁.arrive 2 (h, tid) op.bit).stage (h, tid) = .granted op.bit 2 := by
          rw [hstage₂, hg, if_pos rfl, RemoteLock.served_of_mem List.mem_cons_self,
            Function.update_self]
          rfl
        have heq : Function.update t.stage (h, tid) st
            = Function.update (t₁.arrive 2 (h, tid) op.bit).stage (h, tid) (.holding op.bit) := by
          rw [hstage₂, hstage, hg, if_pos rfl, if_pos rfl]
          funext b
          by_cases hb : b = (h, tid)
          · rw [hb, Function.update_self, Function.update_self]
          · rw [Function.update_of_ne hb, Function.update_of_ne hb,
              RemoteLock.served_of_not_mem (by simpa using hb), Function.update_of_ne hb]
        rw [heq]
        exact ((hask.trans harrive).trans (.notice hgranted)).mono (Nat.zero_le _) (Nat.le_refl _)
  refine ⟨_, hadv, ?_⟩
  have hturn : Turn s (s.acquireStep h tid op) (h, tid) 0 0 := by
    refine ⟨fun b hb => Function.update_of_ne hb _ _, flag_update fun u _ => ?_, ⟨s.net, ?_, ?_⟩,
      by simp⟩
    · rw [hcall, hr, handleAcquireLm_taskGranted]
    · simp
    · simp [Cluster.acquireStep, hcall, toSwitch]
  refine hs.turn hturn hlooks.2.2 (hs.ids_update ?_) ?_ ?_ fun _ => ⟨hh, ht⟩
  · rw [hcall]
    exact hid
  · rw [hm]
    simp only [Cluster.acquireStep, hcall, Function.update_self]
    exact hrep
  · simp only [Cluster.acquireStep, hcall, Function.update_self, hr, handleAcquireLm_taskGranted,
      hlooks.2.1]
    rw [← hr, hstage]
    cases r.2 with
    | false => simp [Shows, hbit]
    | true => simp [Shows, hbit]

/-- `lock_req_granted`, when it returns 1. -/
lemma Sim.poll (hs : Sim lid s t) (htask : s.task (h, tid) = .waiting op)
    (hflag : (lockReqGranted (s.host h) tid).2 = true) :
    Matched lid { s with
      host := Function.update s.host h (lockReqGranted (s.host h) tid).1
      task := Function.update s.task (h, tid) (.holding op) } t 1 0 := by
  have hup : (s.host h).taskGranted tid = true := by
    simp only [lockReqGranted] at hflag
    split at hflag
    · assumption
    · cases hflag
  obtain ⟨x, hst, rfl, hown⟩ := hs.flagged htask hup
  have hread : (lockReqGranted (s.host h) tid).1
      = { s.host h with taskGranted := Function.update (s.host h).taskGranted tid false } := by
    rw [lockReqGranted, if_pos hup]
  rw [hread]
  refine ⟨t.setStage (h, tid) (.holding x), .notice hst, ?_⟩
  have hturn : Turn s { s with
      host := Function.update s.host h
        { s.host h with taskGranted := Function.update (s.host h).taskGranted tid false }
      task := Function.update s.task (h, tid) (.holding (.ofBit x)) } (h, tid) 0 0 :=
    ⟨fun b hb => Function.update_of_ne hb _ _,
      flag_update fun u hu => Function.update_of_ne hu _ _, ⟨s.net, by simp, by simp⟩, by simp⟩
  refine hs.turn hturn hown (hs.ids_update rfl) (hs.represents_update rfl rfl rfl) ?_
    fun _ => hs.client_of hst (by simp)
  simp [Shows]

/-- `lock_release` at a host that is not the manager. -/
lemma Sim.release_remote (hlid : SWITCH_LOCK_NUM ≤ lid.toNat) (hs : Sim lid s t)
    (htask : s.task (h, tid) = .holding op) (hne : lockManager lid ≠ h) :
    Matched lid (s.releaseStep h tid) t 1 0 := by
  obtain ⟨x, hst, -, hflag, hown⟩ := hs.holding htask
  have hcall := lockRelease_toManager (conf h) tid
    (lockOutOfRange_eq hlid (hs.ids h)) (by rw [lockToLm_eq (hs.ids h)]; exact hne)
  set p := sendPostReleaseLm (s.host h).id h tid (lockToLm (s.host h)) with hp
  have hcon : Concerns lid .release (h, tid) (lockManager lid) p := by
    rw [hp, lockToLm_eq (hs.ids h), hs.ids h]
    exact concerns_release h tid (lockManager lid)
  refine ⟨t.setStage (h, tid) (.leaving x 1), .leave hst (Nat.le_refl 1), ?_⟩
  have hturn : Turn s (s.releaseStep h tid) (h, tid) 0 {(.switch, p)} := by
    refine ⟨fun b hb => Function.update_of_ne hb _ _, flag_update fun u _ => ?_,
      ⟨s.net, by simp, ?_⟩, fun x hx => ?_⟩
    · rw [hcall]
    · simp [Cluster.releaseStep, hcall, toSwitch, hp]
    · obtain rfl : x = (.switch, p) := by simpa using hx
      exact hcon.ownPacket (by rintro ⟨⟩) _
  refine hs.turn hturn hown (hs.ids_update ?_) (hs.represents_update ?_ ?_ ?_) ?_
    fun _ => hs.client_of hst (by simp)
  · rw [hcall]
  · rw [hcall]
  · rw [hcall]
  · rw [hcall]
  · refine ⟨Nat.le_refl 1, p, hcon, ?_⟩
    simp only [Cluster.releaseStep, hcall, Function.update_self]
    rw [show (s.host h).taskGranted tid = false from hflag]
    rfl

/-- The manager has released the lock and sends the grants. -/
lemma Sim.left (hi : RemoteLock.Inv t) {x : Bool} (hst : t.stage lh = .leaving x 0)
    (hs : Sim lid s ⟨(t.left 2 lh).lock, Function.update t.stage lh .idle⟩) {ps : List LockHdr}
    (hps : ∀ p ∈ ps, IsGrant lid p)
    (hgr : grantees ps = (release t.lock.phase t.lock.queue lh).grantees) :
    Sim lid { s with net := toSwitch ps ++ s.net } (t.left 2 lh) := by
  have hands := hi.hands_left 2 hst
  have hsent := hs.grants hps (hgr ▸ hands.nodup) fun b hb => hands.queued hi (hgr ▸ hb)
  rw [hgr] at hsent
  exact hsent

/-- The manager has taken a request and sends the grant, if there is one. -/
lemma Sim.arrived (hi : RemoteLock.Inv t) {x : Bool} (hst : t.stage lh = .asking x 0)
    (hs : Sim lid s ⟨(t.arrive 2 lh x).lock, Function.update t.stage lh (.queued x)⟩)
    {ps : List LockHdr} (hps : ∀ p ∈ ps, IsGrant lid p)
    (hgr : grantees ps = (acquire t.lock.phase t.lock.queue lh x).grantees) :
    Sim lid { s with net := toSwitch ps ++ s.net } (t.arrive 2 lh x) := by
  have hands := hi.hands_arrive 2 hst
  have hsent := hs.grants hps (hgr ▸ hands.nodup) fun b hb => hands.queued hi (hgr ▸ hb)
  rw [hgr] at hsent
  exact hsent

/-- A task that leaves owns the lock. -/
lemma mem_owners_of_leaving (hi : RemoteLock.Inv t) {x : Bool} {n : ℕ}
    (hst : t.stage lh = .leaving x n) : lh ∈ t.lock.phase.owners :=
  hi.lock.mem_owners (hi.granted_iff.2 ⟨x, by rw [hst]; rfl⟩)

/-- `lock_release` at the manager. -/
lemma Sim.release_manager (hlid : SWITCH_LOCK_NUM ≤ lid.toNat) (hs : Sim lid s t)
    (hi : RemoteLock.Inv t) (htask : s.task (h, tid) = .holding op) (hm : lockManager lid = h) :
    Matched lid (s.releaseStep h tid) t 1 0 := by
  obtain ⟨x, hst, -, hflag, hown⟩ := hs.holding htask
  have hr := lockOutOfRange_eq hlid (hs.ids h)
  have hm' : lockToLm (s.host h) = (conf h).localhostId := (lockToLm_eq (hs.ids h)).trans hm
  obtain ⟨hlock, hsent⟩ := lockRelease_outOfRange (t := tid) hr hm'
  set t₁ := t.setStage (h, tid) (.leaving x 0) with ht₁
  have hleave : RemoteLock.Advance 1 2 t t₁ 1 0 := .leave hst (Nat.zero_le 1)
  have hat : t₁.stage (h, tid) = .leaving x 0 := Function.update_self ..
  have hi₁ := hleave.inv hi
  refine ⟨t₁.left 2 (h, tid), (hleave.trans (.left hat)).mono (by omega) (Nat.le_refl _), ?_⟩
  -- the metadata after the release
  set l' : InnetLock := { s.host h with localHolders := (s.host h).localHolders.erase tid } with hl'
  have hrep' : Represents l' t.lock.phase t.lock.queue := (hm ▸ hs.lock).congr rfl rfl rfl
  have hmem : (h, tid) ∈ t.lock.phase.owners := mem_owners_of_leaving (t := t₁) hi₁ hat
  obtain ⟨hrep, hid, hgr⟩ := hrep'.release hmem
  rw [conf_localhostId] at hlock hsent
  set s₁ : Cluster := { s with
    host := Function.update s.host h (lockRelease (conf h) (s.host h) tid).lock
    task := Function.update s.task (h, tid) .idle } with hs₁
  have hturn : Turn s s₁ (h, tid) 0 0 := by
    refine ⟨fun b hb => Function.update_of_ne hb _ _, flag_update fun u _ => ?_,
      ⟨s.net, by simp, by simp [hs₁]⟩, by simp⟩
    rw [hlock, lmReleased_taskGranted]
  have hsim₁ : Sim lid s₁
      ⟨(t₁.left 2 (h, tid)).lock, Function.update t.stage (h, tid) .idle⟩ := by
    refine hs.turn hturn hown (hs.ids_update ?_) ?_ ?_ fun hne => absurd rfl hne
    · rw [hlock]
      exact hid
    · rw [hm, hs₁]
      simp only [Function.update_self]
      rw [hlock]
      exact hrep
    · simp only [hs₁, Function.update_self, hlock, lmReleased_taskGranted]
      rw [show (s.host h).taskGranted tid = false from hflag]
      rfl
  have hstage : Function.update t₁.stage (h, tid) .idle
      = Function.update t.stage (h, tid) .idle := Function.update_idem ..
  rw [← hstage] at hsim₁
  refine hsim₁.left hi₁ hat (fun p hp => ?_) (hsent.trans hgr)
  rw [← hs.ids h]
  exact isGrant_lockRelease hr hm' hp

/-- A packet in flight is the only one of its task and tells its stage. -/
lemma Sim.of_mem (hs : Sim lid s t) {d : Dst} {p : LockHdr} (hx : (d, p) ∈ s.net) :
    s.own p.holder = {(d, p)}
      ∧ ((∃ n, n ≤ 1 ∧ d = .before n (lockManager lid)
            ∧ Concerns lid .acquire p.holder (lockManager lid) p
            ∧ t.stage p.holder = .asking p.mode n
            ∧ s.looks p.holder = (.waiting (.ofBit p.mode), false, {(d, p)}))
        ∨ (∃ x n, n ≤ 1 ∧ d = .before n p.holder.1
            ∧ Concerns lid .grantWoAgent p.holder p.holder.1 p
            ∧ t.stage p.holder = .granted x (n + 1)
            ∧ s.looks p.holder = (.waiting (.ofBit x), false, {(d, p)}))
        ∨ ∃ x n, n ≤ 1 ∧ d = .before n (lockManager lid)
            ∧ Concerns lid .release p.holder (lockManager lid) p
            ∧ t.stage p.holder = .leaving x n
            ∧ s.looks p.holder = (.idle, false, {(d, p)})) := by
  have hmem : (d, p) ∈ s.own p.holder := by
    rw [Cluster.own, Multiset.mem_filter]
    exact ⟨hx, ownPacket_iff.2 ⟨hs.types _ hx, rfl⟩⟩
  have hshow := hs.shows p.holder
  have hempty : ∀ {v w}, s.looks p.holder = (v, w, 0) → False := by
    intro v w hv
    simp only [Cluster.looks, Prod.mk.injEq] at hv
    rw [hv.2.2] at hmem
    exact Multiset.notMem_zero _ hmem
  have hone : ∀ {v w y}, s.looks p.holder = (v, w, {y}) → y = (d, p) ∧ s.own p.holder = {y} := by
    intro v w y hv
    simp only [Cluster.looks, Prod.mk.injEq] at hv
    rw [hv.2.2] at hmem
    exact ⟨(Multiset.mem_singleton.1 hmem).symm, hv.2.2⟩
  cases hst : t.stage p.holder with
  | idle =>
      rw [hst] at hshow
      exact (hempty hshow).elim
  | queued x =>
      rw [hst] at hshow
      exact (hempty hshow).elim
  | holding x =>
      rw [hst] at hshow
      exact (hempty hshow).elim
  | asking x n =>
      rw [hst] at hshow
      obtain ⟨hn, q, hq, hmode, hv⟩ := hshow
      obtain ⟨heq, hown⟩ := hone hv
      obtain ⟨hd, rfl⟩ := Prod.mk.inj heq
      subst hmode
      rw [heq] at hown hv
      exact ⟨hown, .inl ⟨n, hn, hd.symm, hq, rfl, hv⟩⟩
  | granted x n =>
      rw [hst] at hshow
      cases n with
      | zero => exact (hempty hshow).elim
      | succ n =>
          obtain ⟨hn, q, hq, hv⟩ := hshow
          obtain ⟨heq, hown⟩ := hone hv
          obtain ⟨hd, rfl⟩ := Prod.mk.inj heq
          rw [heq] at hown hv
          exact ⟨hown, .inr (.inl ⟨x, n, hn, hd.symm, hq, rfl, hv⟩)⟩
  | leaving x n =>
      rw [hst] at hshow
      obtain ⟨hn, q, hq, hv⟩ := hshow
      obtain ⟨heq, hown⟩ := hone hv
      obtain ⟨hd, rfl⟩ := Prod.mk.inj heq
      rw [heq] at hown hv
      exact ⟨hown, .inr (.inr ⟨x, n, hn, hd.symm, hq, rfl, hv⟩)⟩

/-- The switch passes a packet on. -/
lemma Sim.forwarded (hs : Sim lid s t) {i : ℕ} {p : LockHdr} (hx : s.net[i]? = some (.switch, p))
    (hlid : SWITCH_LOCK_NUM ≤ lid.toNat) (hid : p.id = lid) (ha : isHost p.agent = true)
    (hown : s.own p.holder = {(.switch, p)}) (hnf : p.type ≠ .free) {st : RemoteLock.Stage}
    (hst : Shows lid p.holder (s.task p.holder, (s.host p.holder.1).taskGranted p.holder.2,
      {(.host p.agent, cleared p)}) st)
    (hcl : isHost p.holder.1 = true ∧ p.holder.2.toNat < 2 ^ 30) :
    Sim lid (s.forwardStep regs p (s.net.eraseIdx i)) (t.setStage p.holder st) := by
  have hslice : slice p.id = none := by
    rw [hid]
    exact slice_eq_none_iff.2 hlid
  obtain ⟨-, hcopy⟩ := forward_outOfRange regs hslice ha
  have hturn : Turn s (s.forwardStep regs p (s.net.eraseIdx i)) p.holder {(.switch, p)}
      {(.host p.agent, cleared p)} := by
    refine ⟨fun _ _ => rfl, fun _ _ => rfl,
      ⟨s.net.eraseIdx i, Cluster.flights_of_getElem? hx, ?_⟩, fun y hy => ?_⟩
    · simp [Cluster.forwardStep, hcopy, toHosts]
    · rcases Multiset.mem_add.1 hy with hy | hy
      · rw [Multiset.mem_singleton.1 hy]
        exact ownPacket_iff.2 ⟨hnf, rfl⟩
      · rw [Multiset.mem_singleton.1 hy]
        exact ownPacket_iff.2 ⟨hnf, rfl⟩
  exact hs.turn hturn hown hs.ids hs.lock hst fun _ => hcl

/-- A packet arrives at the switch. -/
lemma Sim.deliver_switch (hlid : SWITCH_LOCK_NUM ≤ lid.toNat) (hs : Sim lid s t) {i : ℕ}
    {p : LockHdr} (hx : s.net[i]? = some (.switch, p)) :
    Matched lid (s.forwardStep regs p (s.net.eraseIdx i)) t 1 0 := by
  have hbefore : ∀ {n d}, n ≤ 1 → Dst.switch = Dst.before n d → n = 1 := by
    intro n d hn heq
    rcases Nat.le_one_iff_eq_zero_or_eq_one.1 hn with rfl | rfl
    · cases heq
    · rfl
  obtain ⟨hown, hcase⟩ := hs.of_mem (List.mem_of_getElem? hx)
  rcases hcase with ⟨n, hn, hd, hp, hst, hv⟩ | ⟨x, n, hn, hd, hp, hst, hv⟩ |
    ⟨x, n, hn, hd, hp, hst, hv⟩
  · obtain rfl := hbefore hn hd
    simp only [Cluster.looks, Prod.mk.injEq] at hv
    refine ⟨t.setStage p.holder (.asking p.mode 0), .hop (by rw [hst]; rfl), ?_⟩
    refine hs.forwarded hx hlid hp.id (hp.agent ▸ isHost_lockManager lid) hown
      (by rw [hp.type]; rintro ⟨⟩) ⟨Nat.zero_le 1, cleared p, hp.cleared, rfl, ?_⟩
      (hs.client_of hst (by rintro ⟨⟩))
    rw [hv.1, hv.2.1, hp.agent]
    rfl
  · obtain rfl := hbefore hn hd
    simp only [Cluster.looks, Prod.mk.injEq] at hv
    have hcl := hs.client_of hst (by rintro ⟨⟩)
    refine ⟨t.setStage p.holder (.granted x 1), .hop (by rw [hst]; rfl), ?_⟩
    refine hs.forwarded hx hlid hp.id (hp.agent ▸ hcl.1) hown (by rw [hp.type]; rintro ⟨⟩)
      ⟨Nat.zero_le 1, cleared p, hp.cleared, ?_⟩ hcl
    rw [hv.1, hv.2.1, hp.agent]
    rfl
  · obtain rfl := hbefore hn hd
    simp only [Cluster.looks, Prod.mk.injEq] at hv
    refine ⟨t.setStage p.holder (.leaving x 0), .hop (by rw [hst]; rfl), ?_⟩
    refine hs.forwarded hx hlid hp.id (hp.agent ▸ isHost_lockManager lid) hown
      (by rw [hp.type]; rintro ⟨⟩) ⟨Nat.zero_le 1, cleared p, hp.cleared, ?_⟩
      (hs.client_of hst (by rintro ⟨⟩))
    rw [hv.1, hv.2.1, hp.agent]
    rfl

/-- A host processes a packet of the task, without an answer. -/
lemma Sim.processed (hs : Sim lid s t) {i : ℕ} {d : Dst} {p : LockHdr}
    (hx : s.net[i]? = some (d, p)) (hown : s.own p.holder = {(d, p)}) (hnf : p.type ≠ .free)
    {l' : InnetLock} (hid : l'.id = (s.host h).id)
    (hflag : ∀ b, b ≠ p.holder → (Function.update s.host h l' b.1).taskGranted b.2
      = (s.host b.1).taskGranted b.2) {l : Service LockHolder}
    (hlock : Represents (Function.update s.host h l' (lockManager lid)) l.phase l.queue)
    {st : RemoteLock.Stage}
    (hst : Shows lid p.holder (s.task p.holder,
      (Function.update s.host h l' p.holder.1).taskGranted p.holder.2, 0) st)
    (hcl : st ≠ .idle → isHost p.holder.1 = true ∧ p.holder.2.toNat < 2 ^ 30) :
    Sim lid { s with host := Function.update s.host h l', net := s.net.eraseIdx i }
      ⟨l, Function.update t.stage p.holder st⟩ := by
  have hturn : Turn s { s with host := Function.update s.host h l', net := s.net.eraseIdx i }
      p.holder {(d, p)} 0 := by
    refine ⟨fun _ _ => rfl, hflag, ⟨s.net.eraseIdx i, Cluster.flights_of_getElem? hx, by simp⟩,
      fun y hy => ?_⟩
    obtain rfl : y = (d, p) := by simpa using hy
    exact ownPacket_iff.2 ⟨hnf, rfl⟩
  exact hs.turn hturn hown (hs.ids_update hid) hlock hst hcl

/-- A request arrives at the manager. -/
lemma Sim.deliver_request (hlid : SWITCH_LOCK_NUM ≤ lid.toNat) (hs : Sim lid s t)
    (hi : RemoteLock.Inv t) {i : ℕ} {d : Dst} {p : LockHdr} (hx : s.net[i]? = some (d, p))
    (hown : s.own p.holder = {(d, p)})
    (hp : Concerns lid .acquire p.holder (lockManager lid) p)
    (hst : t.stage p.holder = .asking p.mode 0)
    (hv : s.looks p.holder = (.waiting (.ofBit p.mode), false, {(d, p)})) :
    Matched lid (s.hostStep (lockManager lid) p (s.net.eraseIdx i)) t 1 0 := by
  set h := lockManager lid with hh
  simp only [Cluster.looks, Prod.mk.injEq] at hv
  have hr := lockOutOfRange_eq hlid (hs.ids h)
  have hcl := hs.client_of hst (by rintro ⟨⟩)
  have hop : p.modeState = .shared ∨ p.modeState = .excl := by
    cases hm : p.mode <;> simp [LockHdr.modeState, hm, LockState.ofBit]
  obtain ⟨hlock, hsent⟩ := processAcquire_outOfRange (conf h) hr hp.type
  obtain ⟨hrep, hid, hgr⟩ := hs.lock.acquire (h := p.machineId) (t := p.taskId) hcl.2 hop
  rw [LockHdr.modeState, LockState.bit_ofBit] at hrep hgr
  refine ⟨t.arrive 2 p.holder p.mode, .arrive hst, ?_⟩
  set o := lockPacketProcess (conf h) (s.host h) p with ho
  have hsim : Sim lid { s with host := Function.update s.host h o.lock, net := s.net.eraseIdx i }
      ⟨(t.arrive 2 p.holder p.mode).lock, Function.update t.stage p.holder (.queued p.mode)⟩ := by
    have hflags : o.lock.taskGranted = (s.host h).taskGranted := by
      rw [hlock, handleAcquireLm_taskGranted]
    have hall := flag_update_eq hflags
    refine hs.processed hx hown (by rw [hp.type]; rintro ⟨⟩) ?_ (fun b _ => hall b) ?_ ?_
      fun _ => hcl
    · rw [hlock]
      exact hid
    · rw [← hh, Function.update_self, hlock]
      exact hrep
    · rw [hall, hv.1, hv.2.1]
      rfl
  exact hsim.arrived hi hst (fun q hq => isGrant_processAcquire hr hp.type hp.id hq)
    (hsent.trans hgr)

/-- A release arrives at the manager. -/
lemma Sim.deliver_release (hlid : SWITCH_LOCK_NUM ≤ lid.toNat) (hs : Sim lid s t)
    (hi : RemoteLock.Inv t) {i : ℕ} {d : Dst} {p : LockHdr} {x : Bool}
    (hx : s.net[i]? = some (d, p)) (hown : s.own p.holder = {(d, p)})
    (hp : Concerns lid .release p.holder (lockManager lid) p)
    (hst : t.stage p.holder = .leaving x 0)
    (hv : s.looks p.holder = (.idle, false, {(d, p)})) :
    Matched lid (s.hostStep (lockManager lid) p (s.net.eraseIdx i)) t 1 0 := by
  set h := lockManager lid with hh
  simp only [Cluster.looks, Prod.mk.injEq] at hv
  have hr := lockOutOfRange_eq hlid (hs.ids h)
  obtain ⟨hlock, hsent⟩ := processRelease_outOfRange (conf h) hr hp.type
  obtain ⟨hrep, hid, hgr⟩ := hs.lock.release (mem_owners_of_leaving hi hst)
  refine ⟨t.left 2 p.holder, .left hst, ?_⟩
  set o := lockPacketProcess (conf h) (s.host h) p with ho
  have hsim : Sim lid { s with host := Function.update s.host h o.lock, net := s.net.eraseIdx i }
      ⟨(t.left 2 p.holder).lock, Function.update t.stage p.holder .idle⟩ := by
    have hflags : o.lock.taskGranted = (s.host h).taskGranted := by
      rw [hlock, lmReleased_taskGranted]
    have hall := flag_update_eq hflags
    refine hs.processed hx hown (by rw [hp.type]; rintro ⟨⟩) ?_ (fun b _ => hall b) ?_ ?_
      fun hne => absurd rfl hne
    · rw [hlock]
      exact hid
    · rw [← hh, Function.update_self, hlock]
      exact hrep
    · rw [hall, hv.1, hv.2.1]
      rfl
  have hgrants : ∀ q ∈ o.toSwitch, IsGrant lid q := by
    intro q hq
    rw [← hs.ids h]
    exact isGrant_processRelease hr hp.type (hp.id.trans (hs.ids h).symm) hq
  exact hsim.left hi hst hgrants (hsent.trans hgr)

/-- A grant arrives at the host of its task. -/
lemma Sim.deliver_grant (hs : Sim lid s t) {i : ℕ} {d : Dst} {p : LockHdr} {x : Bool}
    (hx : s.net[i]? = some (d, p)) (hown : s.own p.holder = {(d, p)})
    (hp : Concerns lid .grantWoAgent p.holder p.holder.1 p)
    (hst : t.stage p.holder = .granted x 1)
    (hv : s.looks p.holder = (.waiting (.ofBit x), false, {(d, p)})) :
    Matched lid (s.hostStep p.machineId p (s.net.eraseIdx i)) t 1 0 := by
  simp only [Cluster.looks, Prod.mk.injEq] at hv
  have hcall : lockPacketProcess (conf p.machineId) (s.host p.machineId) p
      = { lock := lockLocalNotify (s.host p.machineId) p.taskId, hdr := p } := by
    simp [lockPacketProcess, hp.type, processGrantWoAgent]
  have hstep : s.hostStep p.machineId p (s.net.eraseIdx i)
      = { s with
          host := Function.update s.host p.machineId
            (lockLocalNotify (s.host p.machineId) p.taskId)
          net := s.net.eraseIdx i } := by
    rw [Cluster.hostStep, hcall]
    simp [Outcome.toSwitch, toSwitch]
  refine ⟨t.setStage p.holder (.granted x 0), .hop (by rw [hst]; rfl), ?_⟩
  rw [hstep]
  refine hs.processed hx hown (by rw [hp.type]; rintro ⟨⟩) ?_
    (flag_update fun u hu => Function.update_of_ne hu _ _) (hs.represents_update ?_ ?_ ?_) ?_
    fun _ => hs.client_of hst (by rintro ⟨⟩)
  · rfl
  · rfl
  · rfl
  · rfl
  · have hup : (Function.update s.host p.machineId
        (lockLocalNotify (s.host p.machineId) p.taskId) p.holder.1).taskGranted p.holder.2
        = true := by
      simp [LockHdr.holder, lockLocalNotify]
    rw [hup, hv.1]
    rfl

/-- A packet arrives at a host. -/
lemma Sim.deliver_host (hlid : SWITCH_LOCK_NUM ≤ lid.toNat) (hs : Sim lid s t)
    (hi : RemoteLock.Inv t) {i : ℕ} {p : LockHdr} (hx : s.net[i]? = some (.host h, p)) :
    Matched lid (s.hostStep h p (s.net.eraseIdx i)) t 1 0 := by
  have hbefore : ∀ {n d}, Dst.host h = Dst.before n d → n = 0 ∧ d = h := by
    intro n d heq
    cases n with
    | zero => exact ⟨rfl, (Dst.host.inj heq).symm⟩
    | succ n => cases heq
  obtain ⟨hown, hcase⟩ := hs.of_mem (List.mem_of_getElem? hx)
  rcases hcase with ⟨n, -, hd, hp, hst, hv⟩ | ⟨x, n, -, hd, hp, hst, hv⟩ |
    ⟨x, n, -, hd, hp, hst, hv⟩
  · obtain ⟨rfl, rfl⟩ := hbefore hd
    exact hs.deliver_request hlid hi hx hown hp hst hv
  · obtain ⟨rfl, rfl⟩ := hbefore hd
    exact hs.deliver_grant hx hown hp hst hv
  · obtain ⟨rfl, rfl⟩ := hbefore hd
    exact hs.deliver_release hlid hi hx hown hp hst hv

/-- Whether the event is a new request. -/
def Event.isRequest : Event → Bool
  | .acquire _ _ _ => true
  | _ => false

/-- What an event brings: a request needs eight more steps at most. -/
def Event.brings (e : Event) : ℕ := 8 * if e.isRequest then 1 else 0

/-- Whether an event is a step of a request that was made before. -/
def Event.takes (e : Event) : ℕ := if !e.isRequest then 1 else 0

/-- **Every step of the cluster is a few steps of the lock and its clients.** -/
theorem sim_step (hlid : SWITCH_LOCK_NUM ≤ lid.toNat) (hs : Sim lid s t) (hi : RemoteLock.Inv t)
    {e : Event} (h : s.stepOutOfRange regs e = some s') : Matched lid s' t e.takes e.brings := by
  cases e with
  | acquire h' tid op =>
      simp only [Cluster.stepOutOfRange, Cluster.step] at h
      split at h
      · next hg =>
          obtain ⟨hh, ht, hop, htask, hnet⟩ := hg
          rw [← Option.some.inj h]
          by_cases hm : lockManager lid = h'
          · exact hs.acquire_manager hlid hh ht hop htask hnet hm
          · exact hs.acquire_remote hlid hh ht hop htask hnet hm
      · cases h
  | poll h' tid =>
      simp only [Cluster.stepOutOfRange, Cluster.step] at h
      split at h
      · next htask =>
          split at h
          · next hflag => exact Option.some.inj h ▸ hs.poll htask hflag
          · cases h
      · cases h
  | release h' tid =>
      simp only [Cluster.stepOutOfRange, Cluster.step] at h
      split at h
      · next htask =>
          rw [← Option.some.inj h]
          by_cases hm : lockManager lid = h'
          · exact hs.release_manager hlid hi htask hm
          · exact hs.release_remote hlid htask hm
      · cases h
  | deliver i =>
      simp only [Cluster.stepOutOfRange, Cluster.step] at h
      split at h
      · next hx => exact Option.some.inj h ▸ hs.deliver_switch hlid hx
      · next hne =>
          split at h
          · next hx => exact absurd hx (hne _)
          · next hx => exact Option.some.inj h ▸ hs.deliver_host hlid hi hx
          · cases h

lemma Sim.init (lid : LockId) : Sim lid (.init lid) .start where
  ids _ := rfl
  lock := ⟨rfl, by simp [Cluster.init, InnetLock.init], rfl, rfl⟩
  shows _ := rfl
  client _ hne := absurd rfl hne
  types := by
    rintro x ⟨⟩

/-- Every state reached stands for a state of the lock and its clients. -/
theorem exists_sim (hlid : SWITCH_LOCK_NUM ≤ lid.toNat)
    (h : Cluster.ReachableOutOfRange regs lid s) : ∃ t, RemoteLock.Inv t ∧ Sim lid s t := by
  refine h.invariant (I := fun s => ∃ t, RemoteLock.Inv t ∧ Sim lid s t)
    ⟨.start, RemoteLock.inv_start, .init lid⟩ ?_
  rintro s e s' ⟨t, hi, hs⟩ - hstep
  obtain ⟨t', hadv, hs'⟩ := sim_step hlid hs hi hstep
  exact ⟨t', hadv.inv hi, hs'⟩

end Simulation

/-! ## The results -/

section Results

variable {lid : LockId} {regs : Regs} {s s' : Cluster} {t : RemoteLock.State LockHolder}

/-- A task that holds the lock has been granted it. -/
lemma Sim.grant_of_holds (hs : Sim lid s t) {lh : LockHolder} {op : LockState}
    (h : s.holds lh op) : ∃ x, op = .ofBit x ∧ (t.stage lh).grant = some x := by
  rcases h with h | ⟨h, hflag⟩
  · obtain ⟨x, hst, hop, -⟩ := hs.holding h
    exact ⟨x, hop, by rw [hst]; rfl⟩
  · obtain ⟨x, hst, hop, -⟩ := hs.flagged h hflag
    exact ⟨x, hop, by rw [hst]; rfl⟩

/-- No assertion fails for a packet that is in flight. -/
lemma Sim.no_failures (hlid : SWITCH_LOCK_NUM ≤ lid.toNat) (hs : Sim lid s t) (e : Event) :
    s.failures e = [] := by
  cases e with
  | acquire h tid op =>
      have hr := lockOutOfRange_eq hlid (hs.ids h)
      simp only [Cluster.failures, lockAcquireAsync, if_pos hr]
      split_ifs <;> rfl
  | poll h tid => rfl
  | release h tid =>
      have hr := lockOutOfRange_eq hlid (hs.ids h)
      have hr' : lockOutOfRange { s.host h with localHolders := (s.host h).localHolders.erase tid }
          = true := hr
      simp only [Cluster.failures, lockRelease, if_pos hr']
      split_ifs
      · split <;> rfl
      · rfl
      · rfl
  | deliver i =>
      simp only [Cluster.failures]
      split
      · next h p hx =>
          have hr := lockOutOfRange_eq hlid (hs.ids h)
          obtain ⟨-, hcase⟩ := hs.of_mem (List.mem_of_getElem? hx)
          rcases hcase with ⟨n, -, hd, hp, -⟩ | ⟨x, n, -, hd, hp, -⟩ | ⟨x, n, -, hd, hp, -⟩
          · simp only [lockPacketProcess, hp.type, processAcquire, if_pos hr]
            split <;> rfl
          · obtain rfl : h = p.machineId := by
              cases n with
              | zero => exact Dst.host.inj hd
              | succ n => cases hd
            simp [lockPacketProcess, hp.type, processGrantWoAgent]
          · simp only [lockPacketProcess, hp.type, processRelease, if_pos hr]
            split
            · split <;> rfl
            · rfl
      · rfl

/-- **Mutual exclusion of out-of-range locks**, over all runs of the cluster: a task that holds the
lock exclusively is the only one that holds it, and no step makes an assertion fail. -/
theorem out_of_range_exclusive (hlid : SWITCH_LOCK_NUM ≤ lid.toNat)
    (h : Cluster.ReachableOutOfRange regs lid s) :
    (∀ a b op, s.holds a .excl → s.holds b op → b = a) ∧ ∀ e, s.failures e = [] := by
  obtain ⟨t, hi, hs⟩ := exists_sim hlid h
  refine ⟨fun a b op ha hb => ?_, hs.no_failures hlid⟩
  obtain ⟨x, hx, hga⟩ := hs.grant_of_holds ha
  obtain ⟨y, -, hgb⟩ := hs.grant_of_holds hb
  obtain rfl : x = true := by
    cases x with
    | false => cases hx
    | true => rfl
  exact hi.exclusive hga hgb

/-- A step changes what a task is doing only if the task makes a call. -/
lemma stepOutOfRange_task {e : Event} {lh : LockHolder} (h : s.stepOutOfRange regs e = some s')
    (hne : e.caller ≠ some lh) : s'.task lh = s.task lh := by
  cases e with
  | deliver i =>
      simp only [Cluster.stepOutOfRange] at h
      split at h
      · rw [← Option.some.inj h]
        rfl
      · exact Cluster.step_task h hne
  | acquire h' t op => exact Cluster.step_task (e := .acquire h' t op) h hne
  | poll h' t => exact Cluster.step_task (e := .poll h' t) h hne
  | release h' t => exact Cluster.step_task (e := .release h' t) h hne

/-- What holds at the end of a concrete run holds in some reachable state, in which all tasks that
made no call are idle. -/
lemma exists_of_runOutOfRange (regs : Regs) (lid : LockId) (es : List Event) (P : Cluster → Prop)
    [DecidablePred P]
    (h : (runFrom (Cluster.stepOutOfRange regs) Cluster.DigestFits (.init lid) es).any
      (fun s => decide (P s)) = true) :
    ∃ s, Cluster.ReachableOutOfRange regs lid s ∧ P s
      ∧ ∀ lh, (∀ e ∈ es, e.caller ≠ some lh) → s.task lh = .idle := by
  obtain ⟨s, hs, hP⟩ := (Option.any_eq_true _ _).1 h
  exact ⟨s, .of_runFrom .start hs, of_decide_eq_true hP, fun lh hlh =>
    runFrom_preserves (fun s => s.task lh = .idle) (fun _ _ _ he hidle ht =>
      (stepOutOfRange_task ht (hlh _ he)).trans hidle) rfl hs⟩

/-- Host 1 is the manager.  A task of host 3 and one of the manager take turns; after this the
second one has its grant. -/
def takeTurns : List Event :=
  [.acquire 3 7 .excl, .deliver 0, .deliver 0, .acquire 1 5 .excl, .deliver 0, .deliver 0,
    .poll 3 7, .release 3 7, .deliver 0, .deliver 0, .deliver 0, .deliver 0]

/-- The second one is done, too. -/
def tookTurns : List Event := takeTurns ++ [.poll 1 5, .release 1 5]

/-- The second task has its grant. -/
theorem out_of_range_exclusive_second :
    ∃ s, Cluster.ReachableOutOfRange .init (BitVec.ofNat 32 SWITCH_LOCK_NUM) s
      ∧ s.holds (1, 5) .excl ∧ (∀ b op, s.holds b op → b = (1, 5)) ∧ ∀ e, s.failures e = [] := by
  obtain ⟨s, hrun, h15, -⟩ := exists_of_runOutOfRange .init (BitVec.ofNat 32 SWITCH_LOCK_NUM)
    takeTurns (fun s => s.holds (1, 5) .excl) (by decide +kernel)
  obtain ⟨hex, hfail⟩ := out_of_range_exclusive (by decide +kernel) hrun
  exact ⟨s, hrun, h15, fun b op hb => hex _ b op h15 hb, hfail⟩

/-- **Nobody is forgotten.**  When no packet is in flight and no task holds the lock, no task waits,
and the manager has a free lock with nobody in its queue. -/
theorem out_of_range_all_served (hlid : SWITCH_LOCK_NUM ≤ lid.toNat)
    (h : Cluster.ReachableOutOfRange regs lid s) (hnet : s.net = [])
    (hfree : ∀ lh op, ¬ s.holds lh op) :
    (∀ lh, s.task lh = .idle) ∧ (s.host (lockManager lid)).mode = .free
      ∧ (s.host (lockManager lid)).holders = ∅ ∧ (s.host (lockManager lid)).wqueue = [] := by
  obtain ⟨t, hi, hs⟩ := exists_sim hlid h
  have hown : ∀ lh, s.own lh = 0 := by
    intro lh
    rw [Cluster.own, hnet]
    rfl
  have hstage : ∀ lh, t.stage lh = .idle ∨ ∃ x, t.stage lh = .queued x := by
    intro lh
    have hshow := hs.shows lh
    simp only [Cluster.looks, hown] at hshow
    cases hst : t.stage lh with
    | idle => exact .inl rfl
    | queued x => exact .inr ⟨x, rfl⟩
    | asking x n => simp [hst, Shows] at hshow
    | leaving x n => simp [hst, Shows] at hshow
    | holding x =>
        rw [hst] at hshow
        exact absurd (.inl (Prod.mk.inj hshow).1) (hfree lh (.ofBit x))
    | granted x n =>
        rw [hst] at hshow
        cases n with
        | zero =>
            simp only [Shows, Prod.mk.injEq] at hshow
            exact absurd (.inr ⟨hshow.1, hshow.2.1⟩) (hfree lh (.ofBit x))
        | succ n => simp [Shows] at hshow
  obtain ⟨hidle, hphase, hqueue⟩ := hi.quiet hstage
  have hrep := hs.lock
  rw [hphase, hqueue] at hrep
  refine ⟨fun lh => ?_, hrep.phase.1, hrep.phase.2, List.map_eq_nil_iff.1 hrep.queue.symm⟩
  have hshow := hs.shows lh
  rw [hidle lh] at hshow
  exact (Prod.mk.inj hshow).1

/-- After both tasks have had their turn. -/
theorem out_of_range_all_served_turns :
    ∃ s, Cluster.ReachableOutOfRange .init (BitVec.ofNat 32 SWITCH_LOCK_NUM) s ∧ s.net = []
      ∧ (∀ lh, s.task lh = .idle) ∧ (s.host 1).mode = .free := by
  obtain ⟨s, hrun, ⟨hnet, h1, h3⟩, hidle⟩ := exists_of_runOutOfRange .init
    (BitVec.ofNat 32 SWITCH_LOCK_NUM) tookTurns
    (fun s => s.net = [] ∧ s.task (1, 5) = .idle ∧ s.task (3, 7) = .idle) (by decide +kernel)
  have hall : ∀ lh, s.task lh = .idle := by
    intro lh
    by_cases hlh : lh = (1, 5) ∨ lh = (3, 7)
    · rcases hlh with rfl | rfl
      · exact h1
      · exact h3
    · have hne := not_or.1 hlh
      refine hidle lh ?_
      simp only [tookTurns, takeTurns, List.cons_append, List.nil_append, List.forall_mem_cons,
        Event.caller, ne_eq, Option.some.injEq, eq_comm (b := lh), hne, not_false_eq_true]
      simp
  obtain ⟨h, hfree, -⟩ := out_of_range_all_served (by decide +kernel) hrun hnet fun lh op hh => by
    rcases hh with hh | ⟨hh, -⟩ <;> rw [hall lh] at hh <;> cases hh
  exact ⟨s, hrun, hnet, h, hfree⟩

/-- **Every request comes to an end.**  However the packets are delivered and whatever the tasks do,
a run has at most eight more steps for each `lock_acquire_async` in it. -/
theorem out_of_range_run_bound (hlid : SWITCH_LOCK_NUM ≤ lid.toNat) {es : List Event}
    (h : runFrom (Cluster.stepOutOfRange regs) Cluster.DigestFits (.init lid) es = some s) :
    es.countP (fun e => !e.isRequest) ≤ 8 * es.countP Event.isRequest := by
  have hstep : ∀ {s : Cluster} {t : RemoteLock.State LockHolder} {e : Event} {s' : Cluster},
      Sim lid s t ∧ RemoteLock.Inv t → s.DigestFits e → s.stepOutOfRange regs e = some s' →
      ∃ t', t'.work 1 2 + e.takes ≤ t.work 1 2 + e.brings ∧ Sim lid s' t' ∧ RemoteLock.Inv t' := by
    rintro s t e s' ⟨hs, hi⟩ - hstep
    obtain ⟨t', hadv, hs'⟩ := sim_step hlid hs hi hstep
    exact ⟨t', hadv.work, hs', hadv.inv hi⟩
  have hbound := RemoteLock.run_bound hstep ⟨.init lid, RemoteLock.inv_start⟩ h
  have hzero : (RemoteLock.State.start : RemoteLock.State LockHolder).work 1 2 = 0 :=
    Accounting.stored_eq_zero.2 fun _ => rfl
  have htakes : (es.map Event.takes).sum = 1 * es.countP (fun e => !e.isRequest) :=
    RemoteLock.sum_map_ite (fun e : Event => !e.isRequest) 1 es
  have hbrings : (es.map Event.brings).sum = 8 * es.countP Event.isRequest := by
    have hone := RemoteLock.sum_map_ite Event.isRequest 1 es
    rw [one_mul] at hone
    rw [← hone, ← List.sum_map_mul_left]
    rfl
  rwa [hzero, zero_add, htakes, hbrings, one_mul] at hbound

/-- Two requests take fourteen more steps. -/
theorem out_of_range_run_bound_turns :
    tookTurns.countP (fun e => !e.isRequest) ≤ 8 * tookTurns.countP Event.isRequest := by
  obtain ⟨s, hs⟩ : ∃ s, runFrom (Cluster.stepOutOfRange .init) Cluster.DigestFits
      (.init (BitVec.ofNat 32 SWITCH_LOCK_NUM)) tookTurns = some s :=
    Option.isSome_iff_exists.1 (by decide +kernel)
  exact out_of_range_run_bound (by decide +kernel) hs

end Results

end FissLock
