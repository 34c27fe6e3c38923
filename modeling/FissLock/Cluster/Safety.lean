import FissLock.Cluster.Inversion

/-!
# What the invariant gives: exclusion, one agent, a sound counter
-/

namespace FissLock

open Runs Tofino Accounting

variable {lid : LockId} {s : Cluster}

/-! ## Mutual exclusion -/

/-- A task that holds the lock is known to the agent, and holds it in the mode of the lock. -/
lemma Inv.of_holds (hi : Inv lid s) {lh : LockHolder} {op : LockState} (hh : s.holds lh op) :
    s.notif lh + s.held lh = 1 ∧ op = LockState.ofBit s.cell.rw := by
  have hc := (hi.task lh).counts
  rcases hh with ht | ⟨ht, hf⟩
  · rw [ht] at hc
    obtain ⟨-, -, -, -, -, -, h7, h8⟩ := hc
    exact ⟨h7, h8⟩
  · have hF : s.flag lh = 1 := by simp [Cluster.flag, hf]
    rw [ht, hF] at hc
    obtain ⟨-, -, ⟨-, -, h5, -⟩ | ⟨-, -, -, h6, h7, -⟩⟩ := hc
    · omega
    · exact ⟨h6, h7⟩

/-- In exclusive mode, whoever holds the lock is the one holder that the agent has recorded. -/
lemma Inv.holder_of_excl (hi : Inv lid s) (hx : s.cell.rw = LOCK_EXCL) {lh : LockHolder}
    {op : LockState} (hh : s.holds lh op) : s.agentHost.holders = {lh} := by
  obtain ⟨hNH, -⟩ := hi.of_holds hh
  rcases hi.token with hu | ⟨k, hk⟩
  · have h1 := hu.idle.notif lh
    have h2 := hu.idle.held lh
    omega
  · obtain ⟨h1, -, h3, -⟩ := hk.excl hx
    have hN : s.notif lh = 0 := Nat.le_zero.1 (h1 ▸ s.notif_le_notifs lh)
    have hm : lh ∈ s.agentHost.holders := by
      by_contra hm
      simp [Cluster.held, hm, hN] at hNH
    exact (Finset.card_eq_one.1 (le_antisymm h3 (Finset.card_pos.2 ⟨lh, hm⟩))).elim
      fun a ha => by rw [ha] at hm ⊢; rw [Finset.mem_singleton.1 hm]

/-- **Mutual exclusion.**  In every guarded run, while some task holds the lock exclusively no other
task holds it in any mode. -/
theorem mutual_exclusion (hlid : lid.toNat < SWITCH_LOCK_NUM)
    (h : Cluster.Reachable lid Guarded s) {lh lh' : LockHolder} {op : LockState}
    (hx : s.holds lh .excl) (hne : lh' ≠ lh) : ¬ s.holds lh' op := by
  intro hh
  have hi := inv_of_reachable hlid h
  have hrw : s.cell.rw = LOCK_EXCL := by simpa using (hi.of_holds hx).2.symm
  have h1 := hi.holder_of_excl hrw hx
  have h2 := hi.holder_of_excl hrw hh
  exact hne (Finset.singleton_inj.1 (h2.symm.trans h1))

/-- The lock went from one writer to another, and a reader is waiting. -/
theorem mutual_exclusion_handed_over :
    ∃ s, Cluster.Reachable 7 Guarded s ∧ s.holds (2, 2) .excl ∧ s.task (3, 3) = .waiting .shared
      ∧ ¬ s.holds (3, 3) .shared := by
  obtain ⟨s, hrun, ⟨hx, hw⟩, -⟩ := Cluster.exists_of_run 7 Guarded
    [.acquire 1 1 .excl, .deliver 0, .deliver 0, .poll 1 1, .acquire 2 2 .excl, .deliver 0,
      .deliver 0, .release 1 1, .deliver 0, .deliver 0, .poll 2 2, .acquire 3 3 .shared, .deliver 0,
      .deliver 0]
    (fun s => s.holds (2, 2) .excl ∧ s.task (3, 3) = .waiting .shared) (by decide +kernel)
  exact ⟨s, hrun, hx, hw, mutual_exclusion (by decide) hrun hx (by decide)⟩

/-- The run that breaks mutual exclusion.  Host 1 gives the lock up while it still owes a
notification; a `RELEASE` that it cannot place makes it send a second `FREE`, which counts nothing
and later frees a lock that somebody else has taken. -/
def strayFree : List Event :=
  [.acquire 1 1 .shared, .deliver 0, .deliver 0, .poll 1 1, .release 1 1,
   .acquire 2 2 .shared, .deliver 0, .deliver 1, .poll 2 2, .release 2 2,
   .deliver 0, .deliver 0, .deliver 1, .deliver 1, .deliver 0,
   .acquire 1 3 .shared, .release 1 3, .deliver 0,
   .acquire 3 4 .excl, .deliver 0, .deliver 0, .poll 3 4,
   .deliver 0, .acquire 2 5 .excl, .deliver 0, .deliver 0, .poll 2 5]

/-- **Without the guard, two tasks hold the lock exclusively.** -/
theorem mutual_exclusion_fails :
    ¬ ∀ s, Cluster.Reachable 7 (fun _ _ => True) s → ∀ lh lh' op, s.holds lh .excl → lh' ≠ lh →
      ¬ s.holds lh' op := by
  intro hall
  obtain ⟨s, hrun, ⟨h1, h2⟩, -⟩ := Cluster.exists_of_run 7 (fun _ _ => True) strayFree
    (fun s => s.holds (3, 4) .excl ∧ s.holds (2, 5) .excl) (by decide +kernel)
  exact hall s hrun (3, 4) (2, 5) .excl h1 (by decide) h2

/-! ## One agent, and assertions that never fire -/

/-- The assertions that state what the protocol relies on. -/
def protocolAssertions : List Assertion :=
  [.releasingFreeLock, .redundantAgent, .agentIsLocalhost, .machineIsLocalhost, .modeNotFree]

lemma lockReleaseHandOver_failed (cf : Conf) (l : InnetLock) (f : List Assertion) {a : Assertion}
    (ha : a ∈ (lockReleaseHandOver cf l f).failed) : a ∈ f ∨ a = .wqueueTooLong := by
  rw [lockReleaseHandOver] at ha
  split at ha
  · split at ha
    · exact .inl ha
    · split at ha
      · exact .inl ha
      · simp only [List.mem_append, mem_assertThat] at ha
        exact ha.imp id And.right
  · exact .inl ha

lemma releaseHandOver_failed (cf : Conf) (l : InnetLock) (p : LockHdr) (f : List Assertion) :
    (releaseHandOver cf l p f).failed = f := by
  rw [releaseHandOver]
  split
  · split <;> rfl
  · rfl

/-- An agent never finds its lock free. -/
lemma Inv.mode_ne_free (hi : Inv lid s) {h : HostId} (ha : (s.host h).isAgent = true) :
    (s.host h).mode ≠ .free := by
  obtain ⟨rfl, hk⟩ := hi.held_agent ha
  have := hk.mode
  rw [Cluster.agentHost] at this
  rw [this]
  simp [Token.isAgent]

lemma Inv.release_failed (hi : Inv lid s) (hlid : lid.toNat < SWITCH_LOCK_NUM) {h : HostId}
    {t : TaskId} {a : Assertion} (ha : a ∈ (lockRelease (conf h) (s.host h) t).failed) :
    a = .wqueueTooLong := by
  have hr := hi.inRange hlid h
  cases hag : (s.host h).isAgent with
  | false =>
      rw [lockRelease_remote hr hag] at ha
      cases ha
  | true =>
      have hm := hi.mode_ne_free hag
      have hr' : ¬ lockOutOfRange { s.host h with
          localHolders := (s.host h).localHolders.erase t } = true := by
        rw [show lockOutOfRange { s.host h with
          localHolders := (s.host h).localHolders.erase t } = false from hr]
        decide
      rw [lockRelease, if_neg hr', if_pos hag] at ha
      split at ha
      · exact (lockReleaseHandOver_failed _ _ _ ha).resolve_left (List.not_mem_nil)
      · refine (lockReleaseHandOver_failed _ _ _ ha).resolve_left ?_
        simp [handleRelease, hm]

lemma Inv.packet_failed (hi : Inv lid s) (hlid : lid.toNat < SWITCH_LOCK_NUM) {h : HostId}
    {p : LockHdr} (hx : (Dst.host h, p) ∈ s.flights) {a : Assertion}
    (ha : a ∈ (lockPacketProcess (conf h) (s.host h) p).failed) : a = .suspendOpNotFree := by
  have hr := hi.inRange hlid h
  have hok := (hi.flight _ hx).2
  cases ht : p.type with
  | acquire =>
      simp only [lockPacketProcess, ht, processAcquire, hr] at ha
      split_ifs at ha <;> simp_all [handleSuspendAcquire]
  | grantWithAgent =>
      obtain ⟨rfl, hk⟩ := hi.held_grant hx ht
      have h1 : (s.host s.cell.agent).isAgent = false := hk.agent
      have h2 : p.agent = s.cell.agent := hk.token.2.2.1
      simp only [lockPacketProcess, ht, processGrantWithAgent] at ha
      split_ifs at ha <;> simp_all
  | grantWoAgent =>
      have h1 : p.machineId = h := by
        simp only [ht] at hok
        exact hok.2
      simp [lockPacketProcess, ht, processGrantWoAgent, h1] at ha
  | release =>
      simp only [lockPacketProcess, ht, processRelease, hr, Bool.false_eq_true, if_false] at ha
      split_ifs at ha with h1 h2 h3
      · cases ha
      · rw [releaseHandOver_failed] at ha
        cases ha
      · cases ha
      · rw [releaseHandOver_failed] at ha
        have hm := hi.mode_ne_free (h := h) (by simpa using h3)
        simp [handleRelease, hm] at ha
  | transfer =>
      obtain ⟨rfl, hk⟩ := hi.held_back hx (.inl ht)
      have h1 : (s.host s.cell.agent).mode = .free := hk.mode
      simp only [lockPacketProcess, ht, processPushedBack] at ha
      split_ifs at ha <;> simp_all
  | free =>
      obtain ⟨rfl, hk⟩ := hi.held_back hx (.inr ht)
      have h1 : (s.host s.cell.agent).mode = .free := hk.mode
      simp only [lockPacketProcess, ht, processPushedBack] at ha
      split_ifs at ha <;> simp_all
  | other b => simp [ht] at hok

/-- **One agent, and no assertion fails.**  In every guarded run at most one host is the agent, and
whatever happens next makes none of the protocol's assertions fail. -/
theorem unique_agent_and_assertions (hlid : lid.toNat < SWITCH_LOCK_NUM)
    (h : Cluster.Reachable lid Guarded s) :
    (∀ h₁ h₂, (s.host h₁).isAgent = true → (s.host h₂).isAgent = true → h₁ = h₂)
      ∧ ∀ e, ∀ a ∈ protocolAssertions, a ∉ s.failures e := by
  have hi := inv_of_reachable hlid h
  refine ⟨fun h₁ h₂ ha₁ ha₂ => (hi.held_agent ha₁).1.trans (hi.held_agent ha₂).1.symm, ?_⟩
  intro e a hmem ha
  have hcase : a = .suspendOpNotFree ∨ a = .wqueueTooLong := by
    cases e with
    | acquire h t op =>
        left
        simp only [Cluster.failures, lockAcquireAsync, hi.inRange hlid h] at ha
        split_ifs at ha <;> simp_all [handleSuspendAcquire]
    | poll h t => cases ha
    | release h t => exact .inr (hi.release_failed hlid ha)
    | deliver i =>
        simp only [Cluster.failures] at ha
        split at ha
        · next h p hx =>
            refine .inl (hi.packet_failed hlid ?_ ha)
            rw [Cluster.flights_of_getElem? hx]
            exact Multiset.mem_add.2 (.inl (Multiset.mem_singleton_self _))
        · cases ha
  rcases hcase with rfl | rfl <;> simp [protocolAssertions] at hmem

/-- Two readers share the lock, and a writer waits for it.  Host 1 hears of the second reader, both
release, and the lock goes to the writer at host 3. -/
def readersThenWriter : List Event :=
  [.acquire 1 1 .shared, .deliver 0, .deliver 0, .poll 1 1, .acquire 2 2 .shared, .deliver 0,
    .deliver 1, .poll 2 2, .deliver 0, .acquire 3 3 .excl, .deliver 0, .deliver 0, .release 2 2,
    .deliver 0, .deliver 0, .release 1 1, .deliver 0, .deliver 0, .poll 3 3]

/-- Host 3 is the agent by a hand-over, and a request is about to reach it. -/
theorem unique_agent_and_assertions_handed_over :
    ∃ s, Cluster.Reachable 7 Guarded s ∧ (s.host 3).isAgent = true
      ∧ (s.step (.deliver 0)).isSome = true ∧ ¬ (s.host 1).isAgent = true
      ∧ ∀ e, ∀ a ∈ protocolAssertions, a ∉ s.failures e := by
  obtain ⟨s, hrun, ⟨hx, hstep⟩, -⟩ := Cluster.exists_of_run 7 Guarded
    (readersThenWriter ++ [.acquire 1 4 .shared, .deliver 0])
    (fun s => (s.host 3).isAgent = true ∧ (s.step (.deliver 0)).isSome = true) (by decide +kernel)
  obtain ⟨hone, hfail⟩ := unique_agent_and_assertions (by decide) hrun
  exact ⟨s, hrun, hx, hstep, fun h1 => absurd (hone 3 1 hx h1) (by decide), hfail⟩

/-- A run in which host 1 sends two `FREE`s for one agency and both are pushed back. -/
def twoFrees : List Event :=
  [.acquire 1 1 .shared, .deliver 0, .deliver 0, .poll 1 1,
   .acquire 2 2 .shared, .deliver 0, .deliver 1, .poll 2 2, .release 2 2, .release 1 1,
   .deliver 1, .deliver 0, .deliver 0, .deliver 1, .deliver 0]

/-- **Without the guard, "mode not free" fires.** -/
theorem unique_agent_and_assertions_fails :
    ¬ ∀ s, Cluster.Reachable 7 (fun _ _ => True) s →
      (∀ h₁ h₂, (s.host h₁).isAgent = true → (s.host h₂).isAgent = true → h₁ = h₂)
        ∧ ∀ e, s.step e ≠ none → ∀ a ∈ protocolAssertions, a ∉ s.failures e := by
  intro hall
  obtain ⟨s, hrun, ⟨h1, h2⟩, -⟩ := Cluster.exists_of_run 7 (fun _ _ => True) twoFrees
    (fun s => (s.step (.deliver 0)).isSome = true ∧ .modeNotFree ∈ s.failures (.deliver 0))
    (by decide +kernel)
  refine (hall s hrun).2 (.deliver 0) (fun h => ?_) .modeNotFree (by decide) h2
  rw [h] at h1
  cases h1

/-! ## The notification counter -/

/-- A notification of a shared grant on its way to host `h`. -/
def notifies (h : HostId) (x : Flight) : Prop :=
  x.1 = .host h ∧ x.2.type = .acquire ∧ x.2.granted = true

/-- **The counter is sound.**  In every guarded run, when the switch accepts a shared `FREE` or
`TRANSFER`, no notification is on its way to its sender any more, and the sender has counted none
since it built the packet. -/
theorem notification_counter_sound (hlid : lid.toNat < SWITCH_LOCK_NUM)
    (h : Cluster.Reachable lid Guarded s) {i : ℕ} {p : LockHdr} (hg : Guarded s (.deliver i))
    (hx : s.net[i]? = some (.switch, p)) (ht : p.type = .transfer ∨ p.type = .free)
    (ho : p.oldMode = LOCK_SHARED) (ha : (ingressCell s.cell p).md.agentChanged = true) :
    (∀ x ∈ s.net, ¬ notifies p.agent x) ∧ (s.host p.agent).ncnt = 0 := by
  have hi := inv_of_reachable hlid h
  have hdel : s.delivered (.deliver i) = some (.switch, p) := hx
  simp only [Guarded, hdel] at hg
  have hk : Held s (.out p) := hi.held_out (by
    rw [Cluster.flights_of_getElem? hx]
    exact Multiset.mem_add.2 (.inl (Multiset.mem_singleton_self _))) ht
  obtain ⟨hn, hc, -⟩ := hk.drained ((agentChanged_iff ht ho).1 ha) (hg ht)
  refine ⟨fun x hxm ⟨h1, h2, h3⟩ => ?_, ?_⟩
  · have := Accounting.inFlight_eq_zero.1 hn x (Multiset.mem_coe.2 hxm)
    simp [isNotif, h1, h2, h3] at this
  · rw [hk.token.2.1]
    exact hc

/-- Host 1 takes the lock in shared mode, host 2 gets a shared grant, both release, and the `FREE`
of host 1 is about to reach the switch. -/
theorem notification_counter_sound_one_grant :
    ∃ s p, Cluster.Reachable 7 Guarded s ∧ s.net[0]? = some (.switch, p) ∧ p.ncnt = 2
      ∧ (∀ x ∈ s.net, ¬ notifies p.agent x) ∧ (s.host p.agent).ncnt = 0 := by
  obtain ⟨s, hrun, hx, -⟩ := Cluster.exists_of_run 7 Guarded
    [.acquire 1 1 .shared, .deliver 0, .deliver 0, .poll 1 1, .acquire 2 2 .shared, .deliver 0,
      .deliver 1, .poll 2 2, .deliver 0, .release 2 2, .deliver 0, .deliver 0, .release 1 1]
    (fun s => Guarded s (.deliver 0) ∧ (s.net[0]?).any (fun x : Flight => decide (x.1 = .switch
      ∧ x.2.type = .free ∧ x.2.oldMode = LOCK_SHARED ∧ x.2.ncnt = 2
      ∧ (ingressCell s.cell x.2).md.agentChanged = true)) = true) (by decide +kernel)
  obtain ⟨hg, hany⟩ := hx
  obtain ⟨⟨d, p⟩, hp, hd⟩ := (Option.any_eq_true _ _).1 hany
  obtain ⟨rfl, ht, ho, hn, ha⟩ := of_decide_eq_true hd
  exact ⟨s, p, hrun, hp, hn, notification_counter_sound (by decide) hrun hg hp (.inr ht) ho ha⟩

/-! ### Two hundred and fifty-six grants -/

/-- Task 0 of host 1 holds the lock in shared mode, and the switch has granted it to the tasks below
`k` of host 2; none of these grants has arrived anywhere. -/
structure Flooded (k : ℕ) (s : Cluster) : Prop where
  cell : s.cell = { free := LOCK_ACQUIRED, rw := LOCK_SHARED, agent := 1
                    ncnt := 1 + BitVec.ofNat 8 k }
  agent : (s.host 1).id = 7 ∧ (s.host 1).isAgent = true ∧ (s.host 1).mode = .shared
    ∧ (s.host 1).ncnt = 1 ∧ (s.host 1).holders = {(1, 0)}
  remote : (s.host 2).id = 7 ∧ (s.host 2).isAgent = false
  holding : s.task (1, 0) = .holding .shared
  idle : ∀ t : TaskId, k ≤ t.toNat → s.task (2, t) = .idle
  fresh : ∀ t : TaskId, k ≤ t.toNat → s.net.any (ownPacket (2, t)) = false
  notified : 0 < k → ∃ x ∈ s.net, notifies 1 x

lemma flooded_zero : ∃ s, Cluster.Reachable 7 (fun _ _ => True) s ∧ Flooded 0 s :=
  ⟨_, Reach.of_runFrom .start (show runFrom Cluster.step (fun _ _ => True) (Cluster.init 7)
      [.acquire 1 0 .shared, .deliver 0, .deliver 0, .poll 1 0] = some _ from rfl),
    ⟨rfl, by decide +kernel, by decide +kernel, rfl, fun _ _ => rfl, fun _ _ => rfl,
      fun h => absurd h (by decide)⟩⟩

/-- One more request, which the switch grants at once. -/
lemma Flooded.next {k : ℕ} {s : Cluster} (hf : Flooded k s) (hk : k < 2 ^ 30)
    (hs : Cluster.Reachable 7 (fun _ _ => True) s) :
    ∃ s', Cluster.Reachable 7 (fun _ _ => True) s' ∧ Flooded (k + 1) s' := by
  have htoNat : (BitVec.ofNat 32 k).toNat = k := by
    simp only [BitVec.toNat_ofNat]
    omega
  have hcode : lockAcquireAsync (conf 2) (s.host 2) (BitVec.ofNat 32 k) .shared
      = ({ lock := s.host 2, sent := [sendPostAcquire (conf 2) .shared 7 2 (BitVec.ofNat 32 k)] },
         .flag (BitVec.ofNat 32 k)) := by
    rw [lockAcquireAsync_inRange (by rw [lockOutOfRange, hf.remote.1]; decide) (.inl rfl),
      if_neg (by rw [hf.remote.2]; decide), hf.remote.1]
  have h1 : s.step (.acquire 2 (BitVec.ofNat 32 k) .shared)
      = some { s with
          net := (.switch, sendPostAcquire (conf 2) .shared 7 2 (BitVec.ofNat 32 k)) :: s.net
          task := Function.update s.task (2, BitVec.ofNat 32 k) (.waiting .shared) } := by
    rw [Cluster.step, if_pos ⟨by decide, by omega, .inl rfl, hf.idle _ htoNat.ge,
      hf.fresh _ htoNat.ge⟩, Cluster.acquireStep, hcode, Function.update_eq_self]
    rfl
  have hproc : process s.cell (sendPostAcquire (conf 2) .shared 7 2 (BitVec.ofNat 32 k))
      = ({ s.cell with ncnt := s.cell.ncnt + 1 },
         [(1, { sendPostAcquire (conf 2) .shared 7 2 (BitVec.ofNat 32 k) with
            granted := true, agent := 1 }),
          (2, { sendPostAcquire (conf 2) .shared 7 2 (BitVec.ofNat 32 k) with
            type := .grantWoAgent, agent := 1 })]) := by
    rw [hf.cell]
    exact process_acquire_shared rfl rfl rfl rfl rfl rfl
  refine ⟨_, .next (.next hs trivial h1) trivial (e := .deliver 0) rfl, ?_⟩
  rw [Cluster.switchStep, hproc]
  refine ⟨?_, hf.agent, hf.remote, ?_, fun t ht => ?_, fun t ht => ?_, fun _ => ?_⟩
  · simp only [hf.cell, BitVec.ofNat_add, Cell.mk.injEq, true_and]
    rw [BitVec.add_assoc]
    rfl
  · exact hf.holding
  · have hne : ((2, t) : LockHolder) ≠ (2, BitVec.ofNat 32 k) := by
      intro heq
      have := congrArg (fun lh : LockHolder => lh.2.toNat) heq
      simp only [htoNat] at this
      omega
    simp only [Function.update_of_ne hne]
    exact hf.idle t (by omega)
  · have hne : BitVec.ofNat 32 k ≠ t := by
      rintro rfl
      omega
    have := hf.fresh t (by omega)
    simp [toHosts, ownPacket, LockHdr.holder, sendPostAcquire, sendPostLockGeneric, hne] at this ⊢
    exact this
  · exact ⟨_, List.mem_cons_self, rfl, rfl, rfl⟩

lemma flooded_reachable {k : ℕ} (hk : k < 2 ^ 30) :
    ∃ s, Cluster.Reachable 7 (fun _ _ => True) s ∧ Flooded k s := by
  induction k with
  | zero => exact flooded_zero
  | succ k ih =>
      obtain ⟨s, hs, hf⟩ := ih (by omega)
      exact hf.next (by omega) hs

/-- **Without the guard, the counter wraps.**  After 256 grants that host 1 has not heard of, its
`FREE` is accepted although all 256 notifications are still in flight. -/
theorem notification_counter_sound_fails :
    ¬ ∀ (s : Cluster) (i : ℕ) (p : LockHdr), Cluster.Reachable 7 (fun _ _ => True) s →
      s.net[i]? = some (.switch, p) → p.type = .transfer ∨ p.type = .free → p.oldMode = LOCK_SHARED →
      (ingressCell s.cell p).md.agentChanged = true → ∀ x ∈ s.net, ¬ notifies p.agent x := by
  intro hall
  obtain ⟨s, hs, hf⟩ := flooded_reachable (k := 256) (by decide)
  obtain ⟨hid, hag, hmode, hncnt, hhold⟩ := hf.agent
  -- the last task of host 1 releases, so the lock is handed over with the count of host 1
  obtain ⟨p, hsent, hpkt⟩ : ∃ p, (lockRelease (conf 1) (s.host 1) 0).sent = [p]
      ∧ HandOverPkt 1 (dropped (s.host 1) ∅ (s.host 1).earlyRelease
          ((s.host 1).localHolders.erase 0)) p := by
    have hr : lockOutOfRange (s.host 1) = false := by rw [lockOutOfRange, hid]; decide
    have hmem : ((1 : HostId), (0 : TaskId)) ∈ (s.host 1).holders := by rw [hhold]; decide
    rcases lockRelease_agent (h := 1) (t := 0) hr hag with ⟨-, f, hcode⟩ | ⟨hm, -⟩
    · have hempty : (s.host 1).holders.erase (1, 0) = ∅ := by rw [hhold]; decide
      rw [hempty] at hcode
      rcases lockReleaseHandOver_spec 1 (dropped (s.host 1) ∅ (s.host 1).earlyRelease
          ((s.host 1).localHolders.erase 0)) f with ⟨hne, -⟩ | ⟨-, -, p, hp, hpkt⟩
      · exact absurd rfl hne
      · exact ⟨p, by rw [hcode]; exact hp, hpkt⟩
    · exact absurd hmem hm
  have hstep : s.step (.release 1 0) = some (s.releaseStep 1 0) := by
    simp only [Cluster.step, hf.holding]
  have hnet : (s.releaseStep 1 0).net = (.switch, p) :: s.net := by
    rw [Cluster.releaseStep, hsent]
    rfl
  have hold : p.oldMode = LOCK_SHARED := by
    rw [hpkt.oldMode]
    exact congrArg LockState.bit hmode
  have hacc : (ingressCell (s.releaseStep 1 0).cell p).md.agentChanged = true := by
    rw [agentChanged_iff hpkt.type hold, pushedBack, hold, hpkt.ncnt]
    have hc : (s.releaseStep 1 0).cell.ncnt = 1 + BitVec.ofNat 8 256 := by
      have : (s.releaseStep 1 0).cell = s.cell := rfl
      rw [this, hf.cell]
    have hn : (dropped (s.host 1) ∅ (s.host 1).earlyRelease
        ((s.host 1).localHolders.erase 0)).ncnt = 1 := hncnt
    rw [hc, hn]
    decide
  obtain ⟨x, hx, hnot⟩ := hf.notified (by decide)
  refine hall _ 0 p (.next hs trivial hstep) (by rw [hnet]; rfl) hpkt.type hold hacc x
    (by rw [hnet]; exact List.mem_cons_of_mem _ hx) ?_
  rw [hpkt.agent]
  exact hnot

end FissLock
