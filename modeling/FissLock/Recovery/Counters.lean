import FissLock.Recovery.Agents

/-!
# The notification counters after a recovery round

The restoring `ACQUIRE` takes the ordinary path through the switch, which counts it if it is shared,
while the host ignores the grant that answers it.  So the switch has counted **one** for a restored
agent in shared mode, whatever the agent's own counter says; and if a lock has several agents, the
switch counts them all and tells only the first.

`counters_agree` gives the condition under which the two counters agree after every run of a round,
and `counters_agree_fails` a round after which they do not.
-/

namespace FissLock

open Runs Tofino

/-! ### What a round makes of a lock -/

namespace Outage

variable (x : Outage) (h : HostId) (lid : LockId)

/-- The mode of an agent after the round. -/
def finalMode : LockState :=
  if (x.host h lid).isAgent then (x.host h lid).mode
  else if 1 < (x.collected lid).card then .shared
  else .excl

/-- The host can be made agent of the lock, in shared mode. -/
def Revived : Prop :=
  x.Candidate h lid ∧ (x.lmState lid).hasAgent = false ∧ 1 < (x.collected lid).card
    ∧ ∀ a, x.live a → lid ∈ x.table a → x.agent a lid → Deserted x.code (x.host a lid).wqueue

/-- An agent that sends a restoring `ACQUIRE` whose mode bit says shared. -/
def Counts : Prop :=
  x.live h ∧ lid ∈ x.table h ∧ x.agent h lid ∧ (x.host h lid).mode.bit = LOCK_SHARED

/-- **When the counters agree.**  Every agent that is in shared mode, or can be restored in shared
mode, has a counter of 1 modulo 256, and no other agent of the lock is counted. -/
def CountReady : Prop :=
  ∀ h, x.Counts h lid ∧ (x.host h lid).mode = .shared ∨ x.Revived h lid →
    (x.host h lid).ncnt.setWidth 8 = 1#8 ∧ ∀ h', x.Counts h' lid → h' = h

variable {x h lid}

lemma finalMode_of_agent (hagent : x.agent h lid) : x.finalMode h lid = (x.host h lid).mode :=
  if_pos hagent

lemma finalMode_of_not_agent (hagent : ¬ x.agent h lid) :
    x.finalMode h lid = if 1 < (x.collected lid).card then .shared else .excl :=
  if_neg hagent

lemma not_waited_iff : ¬ x.Waited lid ↔
    ∀ a, x.live a → lid ∈ x.table a → x.agent a lid → Deserted x.code (x.host a lid).wqueue := by
  simp only [Waited, mem_submissions_waiter]
  constructor
  · intro hno a hlive htable hagent
    by_contra hleft
    exact hno ⟨a, hlive, htable, hagent, hleft⟩
  · rintro hall ⟨a, hlive, htable, hagent, hleft⟩
    exact hleft (hall a hlive htable hagent)

end Outage

namespace Recovery

variable {x : Outage} {s s' : Recovery} {lid : LockId} {sl : Fin 3}

/-- An agent that is counted was one before, or could be foreseen. -/
lemma Passed.counts {h : HostId} (hinv : Inv x s) (hpass : Passed x s h lid)
    (hbit : (x.finalMode h lid).bit = LOCK_SHARED) : x.Counts h lid ∨ x.Revived h lid := by
  by_cases hagent : x.agent h lid
  · rw [Outage.finalMode_of_agent hagent] at hbit
    exact .inl ⟨hpass.1, hpass.2.1, hagent, hbit⟩
  · obtain ⟨hcand, hunknown, hwaited⟩ := hinv.restored h lid ⟨hpass.2.2.2, hagent⟩
    rw [Outage.finalMode_of_not_agent hagent] at hbit
    refine .inr ⟨hcand, hunknown, ?_, Outage.not_waited_iff.1 hwaited⟩
    by_contra hfew
    rw [if_neg hfew] at hbit
    cases hbit

/-! ### The counting invariant -/

/-- A restoring `ACQUIRE` of host `h` on its way to the switch. -/
def restoreOf (h : HostId) (lid : LockId) (y : Flight) : Bool :=
  decide (y.1 = .switch ∧ y.2.type = .acquire ∧ y.2.machineId = h ∧ y.2.id = lid)

/-- The hosts of `D` whose `ACQUIRE` is counted. -/
def counting (x : Outage) (lid : LockId) (D : Finset HostId) : Finset HostId :=
  D.filter fun h => (x.finalMode h lid).bit = LOCK_SHARED

/-- The invariant for one lock in range, where `D` are the hosts whose restoring `ACQUIRE` the
switch has processed. -/
structure Counted (x : Outage) (lid : LockId) (sl : Fin 3) (D : Finset HostId) (s : Recovery) :
    Prop where
  ids : ∀ h, (s.host h lid).id = lid
  mode : ∀ h, Passed x s h lid → (s.host h lid).mode = x.finalMode h lid
  done : ∀ h ∈ D, Passed x s h lid
  /-- Each agent restores once. -/
  stage : ∀ h, Passed x s h lid →
    (s.agents h).count lid + s.net.countP (restoreOf h lid) + (if h ∈ D then 1 else 0) = 1
  up : ∀ p, (.switch, p) ∈ s.net → p.id = lid →
    p.type = .acquire ∧ p.mode = (x.finalMode p.machineId lid).bit
  count : (s.regs.cell sl lid).ncnt = BitVec.ofNat 8 (counting x lid D).card
  shared : (s.regs.cell sl lid).free = LOCK_ACQUIRED → (s.regs.cell sl lid).rw = LOCK_SHARED →
    (counting x lid D).Nonempty
  /-- The first one counted is not announced to anybody. -/
  quiet : (counting x lid D).card ≤ 1 →
    (∀ h p, (.host h, p) ∈ s.net → p.id = lid → p.type = .acquire → p.granted = false)
      ∧ ∀ h, (s.host h lid).ncnt = (x.host h lid).ncnt

namespace Counted

variable {D : Finset HostId}

lemma start (x : Outage) (lid : LockId) (sl : Fin 3) : Counted x lid sl ∅ (Recovery.start x) := by
  have hnone : ∀ h, ¬ Passed x (Recovery.start x) h lid := by
    rintro h ⟨-, hmem, hnot, -⟩
    exact hnot hmem
  constructor
  · intro h
    exact Outage.purged_fields.1
  · intro h hpass
    exact absurd hpass (hnone h)
  · intro h hmem
    exact absurd hmem (Finset.notMem_empty h)
  · intro h hpass
    exact absurd hpass (hnone h)
  · intro p hp
    exact absurd hp List.not_mem_nil
  · rfl
  · intro hf
    exact absurd hf Bool.false_ne_true
  · intro _
    refine ⟨fun h p hp => absurd hp List.not_mem_nil, fun h => ?_⟩
    exact Outage.purged_fields.2.2.2.2

/-! ### The second loop -/

/-- The mode that an agent has afterwards. -/
lemma checkLock_mode (hinv : Inv x s) (hdef : x.Defined) {h : HostId} (hlive : x.live h)
    {rest : List LockId} (hlist : s.checks h = lid :: rest)
    (hempty : ∀ h', x.live h' → s.pending h' = ∅)
    (hag : (checkLock (x.undef h lid) s.coord (s.host h lid)).2.1.isAgent = true) :
    (checkLock (x.undef h lid) s.coord (s.host h lid)).2.1.mode = x.finalMode h lid := by
  obtain ⟨htable, -, heq⟩ := hinv.head hlist
  have hid : (s.host h lid).id = lid := by
    rw [heq]
    exact Outage.purged_fields.1
  have hagent : (s.host h lid).isAgent = (x.host h lid).isAgent := by
    rw [heq]
    exact Outage.purged_fields.2.1
  have hholders : (s.coord.lmState lid).holders = x.collected lid :=
    hinv.holders_eq_collected hempty
  have hask := hinv.askable hdef hlive hlist hempty
  rw [Outage.finalMode]
  rcases checkLock_cases (hdef.replies h hlive lid htable) hask with ⟨hold, holders, hr⟩
    | ⟨hold, -, hr⟩ | ⟨hold, -, -, holders, hr⟩
  · rw [hr, if_pos (hagent ▸ hold)]
    exact heq ▸ Outage.purged_fields.2.2.2.1
  · rw [hr, hold] at hag
    cases hag
  · rw [hr, hagent.symm.trans hold, if_neg Bool.false_ne_true, ← hholders]
    simp only [hid]

/-- Nothing of an unchecked lock is under way. -/
lemma stage_zero (htr : Traffic x s) (hc : Counted x lid sl D s) {h : HostId}
    (hnot : ¬ Passed x s h lid) :
    (s.agents h).count lid = 0 ∧ s.net.countP (restoreOf h lid) = 0 ∧ h ∉ D := by
  refine ⟨?_, ?_, fun hmem => hnot (hc.done h hmem)⟩
  · rw [List.count_eq_zero]
    exact fun hmem => hnot (htr.agents h lid hmem)
  · rw [List.countP_eq_zero]
    rintro ⟨dst, p⟩ hmem hre
    obtain ⟨rfl, -, rfl, rfl⟩ := of_decide_eq_true hre
    exact hnot (htr.up p hmem).2.2.2

section Check

variable {h : HostId} {lid₀ : LockId} {rest : List LockId} {u : Undefined}

/-- Nothing changes but at the lock that the second loop has come to. -/
lemma checkStep_other (x : Outage) (u : Undefined) (hlist : s.checks h = lid₀ :: rest) (h' : HostId)
    (hne : h' ≠ h ∨ lid ≠ lid₀) :
    (s.checkStep u h lid₀ rest).host h' lid = s.host h' lid
      ∧ (Passed x (s.checkStep u h lid₀ rest) h' lid ↔ Passed x s h' lid)
      ∧ ((s.checkStep u h lid₀ rest).agents h').count lid = (s.agents h').count lid := by
  refine ⟨by simp only [checkStep, s.setLock_of_ne _ hne], ⟨?_, passed_check hlist⟩, ?_⟩
  · rintro ⟨h1, h2, h3, h4⟩
    refine ⟨h1, h2, fun hmem => ?_, ?_⟩
    · by_contra _
      obtain ⟨rfl, rfl⟩ := Inv.eq_of_finished hlist hmem h3
      exact hne.elim (fun hno => hno rfl) (fun hno => hno rfl)
    · simpa only [checkStep, s.setLock_of_ne _ hne] using h4
  · simp only [checkStep]
    split
    · by_cases hh : h' = h
      · subst hh
        have hlid := hne.resolve_left (fun hno => hno rfl)
        simp [List.count_append, hlid.symm]
      · rw [Function.update_of_ne hh]
    · rfl

/-- The second loop comes to another lock. -/
lemma check_other (hc : Counted x lid sl D s) (hlist : s.checks h = lid₀ :: rest)
    (hlid : lid ≠ lid₀) : Counted x lid sl D (s.checkStep u h lid₀ rest) := by
  have hother := fun h' => checkStep_other x u hlist h' (.inr hlid)
  constructor
  · intro h'
    rw [(hother h').1]
    exact hc.ids h'
  · intro h' hpass
    rw [(hother h').1]
    exact hc.mode h' ((hother h').2.1.1 hpass)
  · intro h' hmem
    exact passed_check hlist (hc.done h' hmem)
  · intro h' hpass
    rw [(hother h').2.2]
    exact hc.stage h' ((hother h').2.1.1 hpass)
  · exact hc.up
  · exact hc.count
  · exact hc.shared
  · intro hle
    refine ⟨(hc.quiet hle).1, fun h' => ?_⟩
    rw [(hother h').1]
    exact (hc.quiet hle).2 h'

/-- The second loop comes to the lock. -/
lemma check_self (hc : Counted x lid sl D s) (hdef : x.Defined) (hinv : Inv x s)
    (htr : Traffic x s) (hlive : x.live h) (hlist : s.checks h = lid :: rest)
    (hempty : ∀ h', x.live h' → s.pending h' = ∅) :
    Counted x lid sl D (s.checkStep (x.undef h lid) h lid rest) := by
  obtain ⟨hkid, hkncnt, hkput⟩ := checkLock_keeps (x.undef h lid) s.coord (s.host h lid)
  have hother := fun h' (hh : h' ≠ h) =>
    checkStep_other x (x.undef h lid) hlist h' (.inl (b := lid ≠ lid) hh)
  have hnot : ¬ Passed x s h lid := by
    rintro ⟨-, -, hno, -⟩
    rw [hlist] at hno
    exact hno List.mem_cons_self
  obtain ⟨hz1, hz2, hz3⟩ := hc.stage_zero htr hnot
  have hself : (s.checkStep (x.undef h lid) h lid rest).host h lid
      = (checkLock (x.undef h lid) s.coord (s.host h lid)).2.1 := by
    simp [checkStep]
  constructor
  · intro h'
    by_cases hh : h' = h
    · rw [hh, hself, hkid]
      exact hc.ids h
    · rw [(hother h' hh).1]
      exact hc.ids h'
  · intro h' hpass
    by_cases hh : h' = h
    · subst hh
      rw [hself]
      refine checkLock_mode hinv hdef hlive hlist hempty ?_
      rw [← hself]
      exact hpass.2.2.2
    · rw [(hother h' hh).1]
      exact hc.mode h' ((hother h' hh).2.1.1 hpass)
  · intro h' hmem
    exact passed_check hlist (hc.done h' hmem)
  · intro h' hpass
    by_cases hh : h' = h
    · subst hh
      have hput : (checkLock (x.undef h' lid) s.coord (s.host h' lid)).2.2 = true := by
        rw [hkput, ← hself]
        exact hpass.2.2.2
      have hagents : ((s.checkStep (x.undef h' lid) h' lid rest).agents h').count lid = 1 := by
        simp only [checkStep, hput, if_true, Function.update_self, List.count_append, hz1]
        simp
      rw [hagents, if_neg hz3]
      exact congrArg (1 + ·) hz2
    · rw [(hother h' hh).2.2]
      exact hc.stage h' ((hother h' hh).2.1.1 hpass)
  · exact hc.up
  · exact hc.count
  · exact hc.shared
  · intro hle
    refine ⟨(hc.quiet hle).1, fun h' => ?_⟩
    by_cases hh : h' = h
    · rw [hh, hself, hkncnt]
      exact (hc.quiet hle).2 h
    · rw [(hother h' hh).1]
      exact (hc.quiet hle).2 h'

/-- The second loop goes on. -/
lemma check (hc : Counted x lid sl D s) (hdef : x.Defined) (hinv : Inv x s) (htr : Traffic x s)
    (hlive : x.live h) (hlist : s.checks h = lid₀ :: rest)
    (hempty : ∀ h', x.live h' → s.pending h' = ∅) :
    Counted x lid sl D (s.checkStep (x.undef h lid₀) h lid₀ rest) := by
  by_cases hlid : lid = lid₀
  · subst hlid
    exact hc.check_self hdef hinv htr hlive hlist hempty
  · exact hc.check_other hlist hlid

end Check

/-! ### The packets -/

lemma lt_of_slice (hsl : slice lid = some sl) : lid.toNat < SWITCH_LOCK_NUM := by
  have hsh : (lid >>> 19).toNat = lid.toNat / 524288 := by
    simp [BitVec.toNat_ushiftRight, Nat.shiftRight_eq_div_pow]
  have hle : (lid >>> 19).toNat ≤ 2 := by
    unfold slice at hsl
    split_ifs at hsl with h0 h1 h2
    · simp [h0]
    · simp [h1]
    · simp [h2]
  rw [hsh] at hle
  simp only [SWITCH_LOCK_NUM]
  omega

/-- What the switch counts and announces. -/
lemma switch_counts {c : Cell} {p : LockHdr} (ht : p.type = .acquire)
    (hm : isHost p.machineId = true) (ha : c.free = LOCK_ACQUIRED → isHost c.agent = true) :
    (process c p).1.ncnt = countAcquire c p
      ∧ ((process c p).1.rw = LOCK_SHARED → p.mode = LOCK_SHARED
          ∨ c.free = LOCK_ACQUIRED ∧ c.rw = LOCK_SHARED)
      ∧ ∀ y ∈ (process c p).2, y.2.id = p.id ∧ (y.2.type = .acquire → y.2.granted = true →
          p.mode = LOCK_SHARED ∧ c.free = LOCK_ACQUIRED ∧ c.rw = LOCK_SHARED) := by
  by_cases hf : c.free = LOCK_FREE
  · rw [process_acquire_free ht hf hm]
    refine ⟨rfl, .inl, ?_⟩
    simp [cleared]
  · have hf' : c.free = LOCK_ACQUIRED := by
      cases hc : c.free
      · exact absurd hc hf
      · rfl
    by_cases hboth : p.mode = LOCK_SHARED ∧ c.rw = LOCK_SHARED
    · rw [process_acquire_shared ht hf' hboth.1 hboth.2 (ha hf') hm]
      refine ⟨by simp [countAcquire, hboth.1], fun _ => .inl hboth.1, ?_⟩
      simp [cleared, hboth, hf']
    · have hx : p.mode = LOCK_EXCL ∨ c.rw = LOCK_EXCL := by
        cases hp : p.mode <;> cases hc : c.rw <;> simp_all
      rw [process_acquire_fwd ht hf' hx (ha hf')]
      refine ⟨rfl, fun hrw => .inr ⟨hf', hrw⟩, ?_⟩
      simp [cleared]

/-- What a host makes of a restoring packet for a lock in range: it answers nothing, and counts a
granted request only. -/
lemma host_counts (cf : Conf) {l : InnetLock} {p : LockHdr} (hrange : l.id.toNat < SWITCH_LOCK_NUM)
    (htask : p.taskId = TASK_FOR_RESTORE) (htype : restoringType p.type)
    (hagent : l.isAgent = true) :
    (lockPacketProcess cf l p).toSwitch = [] ∧ (lockPacketProcess cf l p).lock.id = l.id
      ∧ (lockPacketProcess cf l p).lock.mode = l.mode
      ∧ ((p.type = .acquire → p.granted = false) → (lockPacketProcess cf l p).lock.ncnt = l.ncnt) := by
  have hin : lockOutOfRange l = false := by
    simp [lockOutOfRange, hrange]
  rcases htype with ht | ht | ht
  · simp only [lockPacketProcess, ht, processAcquire, hin]
    split_ifs <;> simp_all [Outcome.toSwitch, handleGrantedAcquire, handleSuspendAcquire,
      lockAddHolder, lockAppendToWq]
  · simp [lockPacketProcess, ht, processGrantWithAgent, htask, Outcome.toSwitch]
  · simp [lockPacketProcess, ht, processGrantWoAgent, Outcome.toSwitch, lockLocalNotify]

lemma perm_of_getElem? {net : List Flight} {i : ℕ} {y : Flight} (hy : net[i]? = some y) :
    net.Perm (y :: net.eraseIdx i) := by
  obtain ⟨hlt, rfl⟩ := List.getElem?_eq_some_iff.1 hy
  exact (List.getElem_cons_eraseIdx_perm hlt).symm

lemma countP_toHosts (h : HostId) (lid : LockId) (ps : List (HostId × LockHdr)) :
    (toHosts ps).countP (restoreOf h lid) = 0 := by
  rw [List.countP_eq_zero]
  intro y hy
  obtain ⟨q, -, rfl⟩ := List.mem_map.1 hy
  simp [restoreOf]

/-- A host sends a restoring `ACQUIRE`. -/
lemma restore (htr : Traffic x s) (hc : Counted x lid sl D s) {h : HostId} {lid₀ : LockId}
    {rest : List LockId} (hagents : s.agents h = lid₀ :: rest) :
    Counted x lid sl D (s.restoreStep h lid₀ rest) := by
  have hpass : Passed x s h lid₀ := by
    apply htr.agents h lid₀
    rw [hagents]
    exact List.mem_cons_self
  refine ⟨hc.ids, hc.mode, hc.done, fun h' hp => ?_, fun p hp hid => ?_, hc.count, hc.shared,
    fun hle => ⟨fun h' p hp => ?_, (hc.quiet hle).2⟩⟩
  · have hold := hc.stage h' hp
    rw [restoreStep, List.countP_cons]
    by_cases hh : h' = h
    · subst hh
      rw [hagents, List.count_cons] at hold
      simp only [Function.update_self, restoreOf, sendPostAcquire, sendPostLockGeneric, true_and,
        decide_eq_true_eq]
      simp only [beq_iff_eq] at hold
      omega
    · simp only [Function.update_of_ne hh, restoreOf, sendPostAcquire, sendPostLockGeneric,
        Ne.symm hh, false_and, and_false, decide_false, Bool.false_eq_true, if_false, add_zero]
      exact hold
  · rcases List.mem_cons.1 hp with heq | hp
    · cases heq
      refine ⟨rfl, ?_⟩
      obtain rfl : lid₀ = lid := hid
      exact congrArg LockState.bit (hc.mode h hpass)
    · exact hc.up p hp hid
  · exact (hc.quiet hle).1 h' p ((List.mem_cons.1 hp).resolve_left (by rintro ⟨⟩))

/-- The switch processes a packet of another lock. -/
lemma switch_other (htr : Traffic x s) (hc : Counted x lid sl D s) (hsl : slice lid = some sl)
    {p : LockHdr} {rest : List Flight} (hperm : s.net.Perm ((.switch, p) :: rest))
    (hid : p.id ≠ lid) : Counted x lid sl D (s.switchStep p rest) := by
  have hp : (.switch, p) ∈ s.net := hperm.mem_iff.2 List.mem_cons_self
  have hrest : ∀ y ∈ rest, y ∈ s.net := fun y hy => hperm.mem_iff.2 (List.mem_cons_of_mem _ hy)
  obtain ⟨-, htype, hagent, hpass⟩ := htr.up p hp
  have hm := isHost_of_live hpass.1
  -- neither the registers nor the packets of the lock change
  have hstep : ∃ regs ps, s.switchStep p rest = { s with regs := regs, net := toHosts ps ++ rest }
      ∧ regs.cell sl lid = s.regs.cell sl lid ∧ ∀ y ∈ ps, y.2.id = p.id := by
    cases hslp : slice p.id with
    | none =>
        refine ⟨s.regs, [(p.agent, cleared p)], ?_, rfl, ?_⟩
        · rw [s.switchStep_outOfRange rest hslp (by rw [hagent]; exact hm)]
          rfl
        · simp [cleared]
    | some sl' =>
        refine ⟨_, _, s.switchStep_inRange rest hslp, ?_, ?_⟩
        · exact s.regs.cell_setCell_ne _ hslp hsl (Ne.symm hid)
        · intro y hy
          have hout := switch_restoring (c := s.regs.cell sl' p.id) htype hm fun hf =>
            isHost_of_live (htr.cells sl' p.id hslp hf).1
          exact (hout.2 y hy).2.2.2.1
  obtain ⟨regs, ps, heq, hcell, hids⟩ := hstep
  rw [heq]
  have hdown : ∀ y ∈ toHosts ps, y.2.id ≠ lid := by
    intro y hy
    obtain ⟨q, hq, rfl⟩ := List.mem_map.1 hy
    exact fun hno => hid ((hids q hq).symm.trans hno)
  refine ⟨hc.ids, hc.mode, hc.done, fun h hp' => ?_, fun q hq hqid => ?_, hcell ▸ hc.count,
    hcell ▸ hc.shared, fun hle => ⟨fun h q hq hqid => ?_, (hc.quiet hle).2⟩⟩
  · have hold := hc.stage h hp'
    have hno : restoreOf h lid (.switch, p) = false := by
      simp [restoreOf, hid]
    rw [hperm.countP_eq, List.countP_cons, hno] at hold
    rw [List.countP_append, countP_toHosts]
    simpa using hold
  · rcases List.mem_append.1 hq with hq | hq
    · exact absurd hqid (hdown _ hq)
    · exact hc.up q (hrest _ hq) hqid
  · rcases List.mem_append.1 hq with hq | hq
    · exact absurd hqid (hdown _ hq)
    · exact (hc.quiet hle).1 h q (hrest _ hq) hqid

lemma counting_insert {h : HostId} (hnot : h ∉ D) :
    (counting x lid (insert h D)).card = (counting x lid D).card
      + if (x.finalMode h lid).bit = LOCK_SHARED then 1 else 0 := by
  rw [counting, Finset.filter_insert]
  split
  · rw [Finset.card_insert_of_notMem]
    · rfl
    · exact fun hmem => hnot (Finset.mem_filter.1 hmem).1
  · rfl

/-- The switch processes the restoring `ACQUIRE` of a host. -/
lemma switch_own (htr : Traffic x s) (hc : Counted x lid sl D s) (hsl : slice lid = some sl)
    {p : LockHdr} {rest : List Flight} (hperm : s.net.Perm ((.switch, p) :: rest))
    (hid : p.id = lid) : Counted x lid sl (insert p.machineId D) (s.switchStep p rest) := by
  subst hid
  have hp : (.switch, p) ∈ s.net := hperm.mem_iff.2 List.mem_cons_self
  have hrest : ∀ y ∈ rest, y ∈ s.net := fun y hy => hperm.mem_iff.2 (List.mem_cons_of_mem _ hy)
  obtain ⟨-, -, -, hpass⟩ := htr.up p hp
  obtain ⟨htype, hmode⟩ := hc.up p hp rfl
  obtain ⟨hncnt, hrw, hout⟩ := switch_counts (c := s.regs.cell sl p.id) htype
    (isHost_of_live hpass.1) fun hf => isHost_of_live (htr.cells sl p.id hsl hf).1
  -- the packet is the only one of its sender
  have hone : restoreOf p.machineId p.id (.switch, p) = true := by
    simp [restoreOf, htype]
  have hnew : p.machineId ∉ D := by
    intro hmem
    have hold := hc.stage p.machineId hpass
    rw [hperm.countP_eq, List.countP_cons, hone, if_pos hmem] at hold
    simp at hold
  have hcard : (counting x p.id (insert p.machineId D)).card = _ := counting_insert hnew
  rw [← hmode] at hcard
  rw [s.switchStep_inRange rest hsl]
  refine ⟨hc.ids, hc.mode, fun h hmem => ?_, fun h hp' => ?_, fun q hq hqid => ?_, ?_, ?_, ?_⟩
  · rcases Finset.mem_insert.1 hmem with rfl | hmem
    · exact hpass
    · exact hc.done h hmem
  · have hold := hc.stage h hp'
    rw [hperm.countP_eq, List.countP_cons] at hold
    rw [List.countP_append, countP_toHosts]
    by_cases hh : h = p.machineId
    · subst hh
      rw [hone, if_neg hnew, if_pos rfl] at hold
      rw [if_pos (Finset.mem_insert_self _ _)]
      change (s.agents p.machineId).count p.id + (0 + rest.countP _) + 1 = 1
      omega
    · have hno : restoreOf h p.id (.switch, p) = false := by
        simp [restoreOf, Ne.symm hh]
      rw [hno] at hold
      simpa [Finset.mem_insert, hh] using hold
  · rcases List.mem_append.1 hq with hq | hq
    · obtain ⟨y, -, heq⟩ := List.mem_map.1 hq
      cases heq
    · exact hc.up q (hrest _ hq) hqid
  · rw [Regs.cell_setCell, hncnt, countAcquire, hcard, hc.count]
    cases p.mode
    · simp [BitVec.ofNat_add]
    · simp
  · rw [Regs.cell_setCell]
    intro _ hshared
    rw [← Finset.card_pos, hcard]
    rcases hrw hshared with hm | ⟨hf, hold⟩
    · simp [hm]
    · have := Finset.card_pos.2 (hc.shared hf hold)
      omega
  · rw [hcard]
    intro hle
    refine ⟨fun h q hq hqid hqtype => ?_, (hc.quiet (by omega)).2⟩
    rcases List.mem_append.1 hq with hq | hq
    · obtain ⟨y, hy, heq⟩ := List.mem_map.1 hq
      cases heq
      by_contra hgranted
      obtain ⟨hm, hf, hold⟩ := (hout y hy).2 hqtype (by simpa using hgranted)
      have := Finset.card_pos.2 (hc.shared hf hold)
      rw [if_pos hm] at hle
      omega
    · exact (hc.quiet (by omega)).1 h q (hrest _ hq) hqid hqtype

/-- What a packet leaves of the metadata of the lock. -/
lemma hostStep_keeps (htr : Traffic x s) (hc : Counted x lid sl D s) (hsl : slice lid = some sl)
    {h : HostId} {p : LockHdr} (rest : List Flight) (hp : (.host h, p) ∈ s.net) (h' : HostId) :
    ((s.hostStep h p rest).host h' lid).id = (s.host h' lid).id
      ∧ ((s.hostStep h p rest).host h' lid).mode = (s.host h' lid).mode
      ∧ ((s.hostStep h p rest).host h' lid).isAgent = (s.host h' lid).isAgent
      ∧ ((p.id = lid → p.type = .acquire → p.granted = false) →
          ((s.hostStep h p rest).host h' lid).ncnt = (s.host h' lid).ncnt) := by
  obtain ⟨htask, htype, -, hpass⟩ := htr.down h p hp
  rcases same_or_other h h' p.id lid with ⟨rfl, rfl⟩ | hne
  · have hself : (s.hostStep h' p rest).host h' p.id
        = (lockPacketProcess (conf h') (s.host h' p.id) p).lock := by
      simp only [hostStep, setLock_self]
    obtain ⟨hkeep, -⟩ := process_restoring (conf h') htask htype hpass.2.2.2
    obtain ⟨-, h1, h2, h3⟩ := host_counts (conf h') (by rw [hc.ids]; exact lt_of_slice hsl) htask
      htype hpass.2.2.2
    rw [hself]
    exact ⟨h1, h2, hkeep.trans hpass.2.2.2.symm, fun hq => h3 (hq rfl)⟩
  · have hsame : (s.hostStep h p rest).host h' lid = s.host h' lid := by
      simp only [hostStep, s.setLock_of_ne _ hne]
    rw [hsame]
    exact ⟨rfl, rfl, rfl, fun _ => rfl⟩

/-- A host processes a packet. -/
lemma host (htr : Traffic x s) (hc : Counted x lid sl D s) (hsl : slice lid = some sl)
    {h : HostId} {p : LockHdr} {rest : List Flight} (hperm : s.net.Perm ((.host h, p) :: rest)) :
    Counted x lid sl D (s.hostStep h p rest) := by
  have hp : (.host h, p) ∈ s.net := hperm.mem_iff.2 List.mem_cons_self
  have hrest : ∀ y ∈ rest, y ∈ s.net := fun y hy => hperm.mem_iff.2 (List.mem_cons_of_mem _ hy)
  obtain ⟨htask, htype, -, hpass⟩ := htr.down h p hp
  obtain ⟨-, hout⟩ := process_restoring (conf h) htask htype hpass.2.2.2
  have hlock := hostStep_keeps htr hc hsl rest hp
  set o := lockPacketProcess (conf h) (s.host h p.id) p with ho
  have hsent : ∀ q ∈ o.toSwitch, q.id ≠ lid := by
    intro q hq hno
    have hqid := (hout q hq).2.2.2.2
    rw [ho, (host_counts (conf h) ?_ htask htype hpass.2.2.2).1] at hq
    · cases hq
    · rw [← hqid, hno, hc.ids]
      exact lt_of_slice hsl
  have hpassed : ∀ h', Passed x (s.hostStep h p rest) h' lid ↔ Passed x s h' lid := by
    intro h'
    rw [Passed, Passed, (hlock h').2.2.1]
    rfl
  constructor
  · intro h'
    rw [(hlock h').1]
    exact hc.ids h'
  · intro h' hp'
    rw [(hlock h').2.1]
    exact hc.mode h' ((hpassed h').1 hp')
  · intro h' hmem
    exact (hpassed h').2 (hc.done h' hmem)
  · intro h' hp'
    have hold := hc.stage h' ((hpassed h').1 hp')
    have hno : restoreOf h' lid (.host h, p) = false := by
      simp [restoreOf]
    have hzero : (toSwitch o.toSwitch).countP (restoreOf h' lid) = 0 := by
      rw [List.countP_eq_zero]
      intro y hy
      obtain ⟨q, hq, rfl⟩ := List.mem_map.1 hy
      simp [restoreOf, hsent q hq]
    rw [hperm.countP_eq, List.countP_cons, hno] at hold
    rw [hostStep, List.countP_append, ← ho, hzero]
    simpa using hold
  · intro q hq hqid
    rcases List.mem_append.1 hq with hq | hq
    · obtain ⟨q', hq', heq⟩ := List.mem_map.1 hq
      cases heq
      exact absurd hqid (hsent q hq')
    · exact hc.up q (hrest _ hq) hqid
  · exact hc.count
  · exact hc.shared
  · intro hle
    obtain ⟨hgranted, hncnt⟩ := hc.quiet hle
    refine ⟨fun h' q hq hqid hqtype => ?_, fun h' => ?_⟩
    · rcases List.mem_append.1 hq with hq | hq
      · obtain ⟨q', -, heq⟩ := List.mem_map.1 hq
        cases heq
      · exact hgranted h' q (hrest _ hq) hqid hqtype
    · rw [(hlock h').2.2.2 (hgranted h p hp)]
      exact hncnt h'

/-- **A step keeps the counting invariant.** -/
lemma step (hdef : x.Defined) (hinv : Inv x s) (htr : Traffic x s) (hc : Counted x lid sl D s)
    (hsl : slice lid = some sl) {e : RecoveryEvent} (hs : s.step x e = some s') :
    ∃ D', Counted x lid sl D' s' := by
  cases e with
  | submit h sub =>
      simp only [Recovery.step] at hs
      split at hs
      · cases hs
        exact ⟨D, hc.ids, hc.mode, hc.done, hc.stage, hc.up, hc.count, hc.shared, hc.quiet⟩
      · cases hs
  | ready h =>
      simp only [Recovery.step] at hs
      split at hs
      · cases hs
        exact ⟨D, hc.ids, hc.mode, hc.done, hc.stage, hc.up, hc.count, hc.shared, hc.quiet⟩
      · cases hs
  | check h =>
      simp only [Recovery.step] at hs
      split at hs
      · next lid₀ rest hlist =>
          split at hs
          · next hok =>
              cases hs
              exact ⟨D, hc.check hdef hinv htr hok.1 hlist (pending_of_barrier hinv hok.2)⟩
          · cases hs
      · cases hs
  | restore h =>
      simp only [Recovery.step] at hs
      split at hs
      · next lid₀ rest _ hagents =>
          split at hs
          · cases hs
            exact ⟨D, hc.restore htr hagents⟩
          · cases hs
      · cases hs
  | deliver i =>
      simp only [Recovery.step] at hs
      split at hs
      · next p hp =>
          cases hs
          have hperm := perm_of_getElem? hp
          by_cases hid : p.id = lid
          · exact ⟨_, hc.switch_own htr hsl hperm hid⟩
          · exact ⟨D, hc.switch_other htr hsl hperm hid⟩
      · next h p hp =>
          cases hs
          exact ⟨D, hc.host htr hsl (perm_of_getElem? hp)⟩
      · cases hs

lemma of_reachable (hdef : x.Defined) (hsl : slice lid = some sl) (hrun : Reachable x s) :
    ∃ D, Counted x lid sl D s := by
  suffices hall : (Inv x s ∧ Traffic x s) ∧ ∃ D, Counted x lid sl D s from hall.2
  refine Reach.invariant (I := fun s => (Inv x s ∧ Traffic x s) ∧ ∃ D, Counted x lid sl D s)
    ⟨⟨Inv.start x, Traffic.start x⟩, ∅, start x lid sl⟩ ?_ hrun
  rintro s e s' ⟨⟨hinv, htr⟩, D, hc⟩ - hs
  exact ⟨step_keeps hdef hinv htr hs, hc.step hdef hinv htr hsl hs⟩

end Counted

/-! ### The counters at the end -/

/-- The counters of the lock agree: every restored agent in shared mode counts modulo 256 as many
notifications as the switch does, and a `FREE` or `TRANSFER` with its count is accepted. -/
def CountsAgree (x : Outage) (s : Recovery) (lid : LockId) (sl : Fin 3) : Prop :=
  ∀ h, x.live h → lid ∈ x.table h → (s.host h lid).isAgent = true → (s.host h lid).mode = .shared →
    (s.host h lid).ncnt.setWidth 8 = (s.regs.cell sl lid).ncnt
      ∧ ∀ p : LockHdr, p.ncnt = (s.host h lid).ncnt.setWidth 8 →
          pushedBack (s.regs.cell sl lid) p = false

/-- **The counters agree after every run of a round that starts with the right counts**, as long as
nothing undefined happens. -/
theorem counters_agree {x : Outage} {s : Recovery} {lid : LockId} {sl : Fin 3}
    (hsl : slice lid = some sl) (hdef : x.Defined) (hready : x.CountReady lid) (hrun : Reachable x s)
    (hfin : Finished x s) (hnet : s.net = []) : CountsAgree x s lid sl := by
  intro g hlive htable hagent hmode
  obtain ⟨hinv, htr⟩ := reachable_keeps hdef hrun
  obtain ⟨D, hc⟩ := Counted.of_reachable hdef hsl hrun
  have hpass : ∀ h, x.live h → lid ∈ x.table h → (s.host h lid).isAgent = true →
      Passed x s h lid := by
    intro h hl ht ha
    refine ⟨hl, ht, ?_, ha⟩
    rw [(hfin h hl).2.2.1]
    exact List.not_mem_nil
  have hdone : ∀ h, Passed x s h lid → h ∈ D := by
    intro h hp
    have hstage := hc.stage h hp
    rw [(hfin h hp.1).2.2.2, hnet] at hstage
    by_contra hnot
    rw [if_neg hnot] at hstage
    simp at hstage
  have hg := hpass g hlive htable hagent
  have hgbit : (x.finalMode g lid).bit = LOCK_SHARED := by
    rw [← hc.mode g hg, hmode]
    rfl
  obtain ⟨hone, hothers⟩ := hready g (hg.counts hinv hgbit |>.imp_left fun hcg =>
    ⟨hcg, by rw [← hmode, hc.mode g hg, Outage.finalMode_of_agent hcg.2.2.1]⟩)
  -- it is the only one that the switch has counted
  have hsingle : counting x lid D = {g} := by
    ext h
    rw [counting, Finset.mem_filter, Finset.mem_singleton]
    constructor
    · rintro ⟨hmem, hbit⟩
      have hp := hc.done h hmem
      rcases hp.counts hinv hbit with hch | hrev
      · exact hothers h hch
      · rcases hg.counts hinv hgbit with hcg | hgrev
        · exact ((hready h (.inr hrev)).2 g hcg).symm
        · exact hinv.unique lid h g ⟨hp.2.2.2, hrev.1.2.2.1⟩ ⟨hagent, hgrev.1.2.2.1⟩
    · rintro rfl
      exact ⟨hdone h hg, hgbit⟩
  have hcount : (s.regs.cell sl lid).ncnt = 1#8 := by
    rw [hc.count, hsingle, Finset.card_singleton]
  have hncnt : (s.host g lid).ncnt.setWidth 8 = (s.regs.cell sl lid).ncnt := by
    rw [(hc.quiet (by rw [hsingle, Finset.card_singleton])).2 g, hone, hcount]
  refine ⟨hncnt, fun p hp => ?_⟩
  simp [pushedBack, hp, hncnt]

/-- Machines 1 and 2 are alive; machine 1 is the agent of the lock 5 in shared mode, with a task
that holds it and the given counter. -/
def loneAgent (ncnt : BitVec 32) : Outage where
  code := 0b110
  table := fun h => if h = 1 then [5] else []
  host := fun h lid =>
    if h = 1 then
      { InnetLock.init lid with
        isAgent := true
        mode := .shared
        ncnt := ncnt
        holders := {(1, 7)}
        localHolders := {7} }
    else InnetLock.init lid
  lmState := fun _ => { hasAgent := false, holders := ∅, waiters := ∅ }
  undef := fun _ _ => .harmless
  table_nodup h := by
    split <;> simp
  host_id h lid := by
    split <;> rfl

/-- A whole round: the answer to the restoring `ACQUIRE` arrives. -/
def loneRound : List RecoveryEvent :=
  [.submit 1 (.holder 5 (1, 7)), .ready 1, .ready 2, .check 1, .restore 1, .deliver 0, .deliver 0]

lemma defined_loneAgent (ncnt : BitVec 32) : (loneAgent ncnt).Defined where
  holders := by
    intro h _ lid _ _ lh hlh
    have hmem : lh = (1, 7) := by
      simp only [loneAgent] at hlh
      split at hlh
      · simpa using hlh
      · exact absurd hlh (Finset.notMem_empty lh)
    rintro ⟨-, hfail⟩
    rw [hmem] at hfail
    have hok : serverFailed 0b110 (BitVec.ofNat 32 1) = false := rfl
    exact Bool.false_ne_true (hok.symm.trans hfail)
  room := by
    intro lid _
    refine collected_two rfl rfl fun h => ?_
    simp only [loneAgent]
    split
    · exact Finset.Subset.refl _
    · exact Finset.empty_subset _
  replies := fun _ _ _ _ _ => rfl

lemma countReady_loneAgent : (loneAgent 1).CountReady 5 := by
  have hhost : ∀ h, h ≠ 1 → (loneAgent 1).host h 5 = InnetLock.init 5 := fun h hh => if_neg hh
  have honly : ∀ h, (loneAgent 1).agent h 5 → h = 1 := by
    intro h hagent
    by_contra hh
    rw [Outage.agent, hhost h hh] at hagent
    cases hagent
  have hlocal : ∀ h, ((loneAgent 1).host h 5).localHolders ≠ ∅ → (loneAgent 1).agent h 5 := by
    intro h hne
    by_cases hh : h = 1
    · rw [hh]
      rfl
    · rw [hhost h hh] at hne
      exact absurd rfl hne
  rintro h (⟨hc, -⟩ | hrev)
  · obtain rfl := honly h hc.2.2.1
    exact ⟨rfl, fun h' hc' => honly h' hc'.2.2.1⟩
  · exact absurd (hlocal h hrev.1.2.2.2) hrev.1.2.2.1

/-- An agent with one holder, which it was notified of. -/
theorem counters_agree_lone : ∃ s, Reachable (loneAgent 1) s ∧ Finished (loneAgent 1) s
    ∧ s.net = [] ∧ (s.host 1 5).isAgent = true ∧ CountsAgree (loneAgent 1) s 5 0 := by
  have hrun : ∃ s, Reachable (loneAgent 1) s
      ∧ (s.bothFinished ∧ s.net = [] ∧ (s.host 1 5).isAgent = true) :=
    Reach.exists_of_runFrom loneRound (by decide)
  obtain ⟨s, hs, hfin, hnet, hagent⟩ := hrun
  exact ⟨s, hs, hfin.finished rfl, hnet, hagent,
    counters_agree rfl (defined_loneAgent 1) countReady_loneAgent hs (hfin.finished rfl) hnet⟩

/-- An agent that has been notified of a second holder, which has released since: its counter is 2,
the switch's is 1. -/
theorem counters_agree_fails : ¬ ∀ x s lid sl, slice lid = some sl → Reachable x s →
    Finished x s → s.net = [] → CountsAgree x s lid sl := by
  intro hall
  have hrun : ∃ s, Reachable (loneAgent 2) s
      ∧ (s.bothFinished ∧ s.net = [] ∧ (s.host 1 5).isAgent = true ∧ (s.host 1 5).mode = .shared
        ∧ (s.host 1 5).ncnt.setWidth 8 ≠ (s.regs.cell 0 5).ncnt) :=
    Reach.exists_of_runFrom loneRound (by decide)
  obtain ⟨s, hs, hfin, hnet, hagent, hmode, hne⟩ := hrun
  have hagree := hall (loneAgent 2) s 5 0 rfl hs (hfin.finished rfl) hnet
  exact hne (hagree 1 (by decide) (by decide) hagent hmode).1

end Recovery

end FissLock
