import FissLock.Recovery.Calls

/-!
# The agents after a recovery round

Recovery takes the agency away from nobody.  A host that holds a lock without being its agent asks
the coordinator, which makes it the agent if it knows of none; and it knows of a surviving agent
only through the waiters that the agent submits.
-/

namespace FissLock

open Runs Tofino

namespace Recovery

variable {x : Outage} {s s' : Recovery}

/-! ### The restoring packets -/

/-- A host that the second loop has left as agent of the lock. -/
def Passed (x : Outage) (s : Recovery) (h : HostId) (lid : LockId) : Prop :=
  x.live h ∧ lid ∈ x.table h ∧ lid ∉ s.checks h ∧ (s.host h lid).isAgent = true

/-- The types that the restoring packets and the answers to them have. -/
def restoringType (t : PostType) : Prop :=
  t = .acquire ∨ t = .grantWithAgent ∨ t = .grantWoAgent

/-- All packets concern hosts that have become, or have been found to be, agents. -/
structure Traffic (x : Outage) (s : Recovery) : Prop where
  agents : ∀ h, ∀ lid ∈ s.agents h, Passed x s h lid
  up : ∀ p, (.switch, p) ∈ s.net → p.taskId = TASK_FOR_RESTORE
    ∧ (p.type = .acquire ∨ p.type = .grantWoAgent) ∧ p.agent = p.machineId
    ∧ Passed x s p.machineId p.id
  down : ∀ h p, (.host h, p) ∈ s.net → p.taskId = TASK_FOR_RESTORE ∧ restoringType p.type
    ∧ Passed x s p.machineId p.id ∧ Passed x s h p.id
  cells : ∀ sl lid, slice lid = some sl → (s.regs.cell sl lid).free = LOCK_ACQUIRED →
    Passed x s (s.regs.cell sl lid).agent lid

/-- What a host makes of a restoring packet: it stays agent, and if it answers, it grants the lock
to the restoring task. -/
lemma process_restoring (cf : Conf) {l : InnetLock} {p : LockHdr}
    (htask : p.taskId = TASK_FOR_RESTORE) (htype : restoringType p.type)
    (hagent : l.isAgent = true) :
    (lockPacketProcess cf l p).lock.isAgent = true
      ∧ ∀ q ∈ (lockPacketProcess cf l p).toSwitch, q.taskId = p.taskId ∧ q.type = .grantWoAgent
        ∧ q.agent = q.machineId ∧ q.machineId = p.machineId ∧ q.id = p.id := by
  rcases htype with ht | ht | ht
  · simp only [lockPacketProcess, ht, processAcquire]
    split
    · rw [handleAcquireLm]
      split_ifs <;> simp_all [Outcome.toSwitch, lockAddHolder, lockAppendToWq]
    · split_ifs <;> simp_all [Outcome.toSwitch, handleGrantedAcquire, handleSuspendAcquire,
        lockAddHolder, lockAppendToWq]
  · simp [lockPacketProcess, ht, processGrantWithAgent, htask, Outcome.toSwitch, hagent]
  · simp [lockPacketProcess, ht, processGrantWoAgent, Outcome.toSwitch, lockLocalNotify, hagent]

/-- What the switch makes of one: the copies go to the sender and to the agent that it knows. -/
lemma switch_restoring {c : Cell} {p : LockHdr} (htype : p.type = .acquire ∨ p.type = .grantWoAgent)
    (hm : isHost p.machineId = true) (ha : c.free = LOCK_ACQUIRED → isHost c.agent = true) :
    ((process c p).1.free = LOCK_ACQUIRED → (process c p).1.agent = p.machineId
        ∨ c.free = LOCK_ACQUIRED ∧ (process c p).1.agent = c.agent)
      ∧ ∀ y ∈ (process c p).2, y.2.taskId = p.taskId ∧ restoringType y.2.type
        ∧ y.2.machineId = p.machineId ∧ y.2.id = p.id
        ∧ (y.1 = p.machineId ∨ c.free = LOCK_ACQUIRED ∧ y.1 = c.agent) := by
  rcases htype with ht | ht
  · by_cases hf : c.free = LOCK_FREE
    · rw [process_acquire_free ht hf hm]
      simp [restoringType, cleared]
    · have hf' : c.free = LOCK_ACQUIRED := by
        cases hc : c.free
        · exact absurd hc hf
        · rfl
      by_cases hboth : p.mode = LOCK_SHARED ∧ c.rw = LOCK_SHARED
      · rw [process_acquire_shared ht hf' hboth.1 hboth.2 (ha hf') hm]
        simp [restoringType, cleared, ht, hf']
      · have hx : p.mode = LOCK_EXCL ∨ c.rw = LOCK_EXCL := by
          cases hp : p.mode <;> cases hc : c.rw <;> simp_all
        rw [process_acquire_fwd ht hf' hx (ha hf')]
        simp [restoringType, cleared, ht, hf']
  · rw [process_grantWoAgent ht hm]
    refine ⟨fun hf => .inr ⟨hf, rfl⟩, ?_⟩
    simp [restoringType, cleared, ht]

lemma isHost_of_live {h : HostId} (hlive : x.live h) : isHost h = true := isHost_iff.2 hlive.1

lemma switchStep_inRange (s : Recovery) {p : LockHdr} {sl : Fin 3} (rest : List Flight)
    (hsl : slice p.id = some sl) :
    s.switchStep p rest
      = { s with
          regs := s.regs.setCell sl p.id (process (s.regs.cell sl p.id) p).1
          net := toHosts (process (s.regs.cell sl p.id) p).2 ++ rest } := by
  simp only [switchStep, ingressPipe, hsl]
  rfl

/-- An id out of range passes through to the host that the sender named. -/
lemma switchStep_outOfRange (s : Recovery) {p : LockHdr} (rest : List Flight)
    (hsl : slice p.id = none) (ha : isHost p.agent = true) :
    s.switchStep p rest = { s with net := (.host p.agent, cleared p) :: rest } := by
  have hcopy : replicate (initPacket Cell.init p).hdr {} = [(p.agent, cleared p)] :=
    replicate_agent rfl rfl ha
  simp only [switchStep, ingressPipe, hsl, hcopy]
  rfl

namespace Traffic

lemma start (x : Outage) : Traffic x (Recovery.start x) where
  agents _ _ hmem := absurd hmem List.not_mem_nil
  up _ hmem := absurd hmem List.not_mem_nil
  down _ _ hmem := absurd hmem List.not_mem_nil
  cells _ _ _ hf := absurd hf Bool.false_ne_true

/-- Steps that neither send nor receive anything. -/
lemma frame (htr : Traffic x s) (hpass : ∀ h lid, Passed x s h lid → Passed x s' h lid)
    (hagents : ∀ h, ∀ lid ∈ s'.agents h, lid ∈ s.agents h ∨ Passed x s' h lid)
    (hregs : s'.regs = s.regs) (hnet : s'.net = s.net) : Traffic x s' where
  agents h lid hmem := (hagents h lid hmem).elim (fun hin => hpass h lid (htr.agents h lid hin)) id
  up p hmem := by
    obtain ⟨h1, h2, h3, h4⟩ := htr.up p (hnet ▸ hmem)
    exact ⟨h1, h2, h3, hpass _ _ h4⟩
  down h p hmem := by
    obtain ⟨h1, h2, h3, h4⟩ := htr.down h p (hnet ▸ hmem)
    exact ⟨h1, h2, hpass _ _ h3, hpass _ _ h4⟩
  cells sl lid hsl hf := by
    rw [hregs] at hf ⊢
    exact hpass _ _ (htr.cells sl lid hsl hf)

/-- A packet arrives at the switch. -/
lemma switch (htr : Traffic x s) {p : LockHdr} {rest : List Flight}
    (hp : (.switch, p) ∈ s.net) (hrest : rest ⊆ s.net) : Traffic x (s.switchStep p rest) := by
  obtain ⟨htask, htype, hagent, hpass⟩ := htr.up p hp
  have hm := isHost_of_live hpass.1
  cases hsl : slice p.id with
  | none =>
      rw [s.switchStep_outOfRange rest hsl (by rw [hagent]; exact hm)]
      refine ⟨htr.agents, fun q hq => ?_, fun h q hq => ?_, htr.cells⟩
      · exact htr.up q (hrest ((List.mem_cons.1 hq).resolve_left nofun))
      · rcases List.mem_cons.1 hq with heq | hq
        · cases heq
          refine ⟨htask, ?_, hpass, ?_⟩
          · exact htype.elim .inl fun ht => .inr (.inr ht)
          · rw [hagent]
            exact hpass
        · exact htr.down h q (hrest hq)
  | some sl =>
      rw [s.switchStep_inRange rest hsl]
      obtain ⟨hcell, hout⟩ := switch_restoring (c := s.regs.cell sl p.id) htype hm
        fun hf => isHost_of_live (htr.cells sl p.id hsl hf).1
      refine ⟨htr.agents, fun q hq => ?_, fun h q hq => ?_, fun sl' lid hsl' hf => ?_⟩
      · rcases List.mem_append.1 hq with hq | hq
        · obtain ⟨y, -, heq⟩ := List.mem_map.1 hq
          cases heq
        · exact htr.up q (hrest hq)
      · rcases List.mem_append.1 hq with hq | hq
        · obtain ⟨y, hy, heq⟩ := List.mem_map.1 hq
          cases heq
          obtain ⟨h1, h2, h3, h4, h5⟩ := hout y hy
          rw [h1, h3, h4]
          refine ⟨htask, h2, hpass, ?_⟩
          rcases h5 with h5 | ⟨hf, h5⟩
          · rw [h5]
            exact hpass
          · rw [h5]
            exact htr.cells sl p.id hsl hf
        · exact htr.down h q (hrest hq)
      · by_cases hlid : lid = p.id
        · subst hlid
          cases hsl.symm.trans hsl'
          simp only [Regs.cell_setCell] at hf ⊢
          rcases hcell hf with heq | ⟨hold, heq⟩
          · rw [heq]
            exact hpass
          · rw [heq]
            exact htr.cells sl p.id hsl hold
        · have hsame := s.regs.cell_setCell_ne (process (s.regs.cell sl p.id) p).1 hsl hsl' hlid
          simp only [hsame] at hf ⊢
          exact htr.cells sl' lid hsl' hf

/-- A packet arrives at a host. -/
lemma host (htr : Traffic x s) {h : HostId} {p : LockHdr} {rest : List Flight}
    (hp : (.host h, p) ∈ s.net) (hrest : rest ⊆ s.net) : Traffic x (s.hostStep h p rest) := by
  obtain ⟨htask, htype, hpass, hpassh⟩ := htr.down h p hp
  obtain ⟨hkeep, hout⟩ := process_restoring (conf h) htask htype hpassh.2.2.2
  have hmono : ∀ h' lid, Passed x s h' lid → Passed x (s.hostStep h p rest) h' lid := by
    rintro h' lid ⟨h1, h2, h3, h4⟩
    refine ⟨h1, h2, h3, ?_⟩
    rw [hostStep]
    rcases same_or_other h h' p.id lid with ⟨rfl, rfl⟩ | hne
    · simpa using hkeep
    · simp only [s.setLock_of_ne _ hne]
      exact h4
  refine ⟨fun h' lid hmem => hmono _ _ (htr.agents h' lid hmem), fun q hq => ?_, fun h' q hq => ?_,
    fun sl lid hsl hf => hmono _ _ (htr.cells sl lid hsl hf)⟩
  · rcases List.mem_append.1 hq with hq | hq
    · obtain ⟨q', hq', heq⟩ := List.mem_map.1 hq
      cases heq
      obtain ⟨h1, h2, h3, h4, h5⟩ := hout q hq'
      rw [h1, h3, h4, h5]
      exact ⟨htask, .inr h2, rfl, hmono _ _ hpass⟩
    · obtain ⟨h1, h2, h3, h4⟩ := htr.up q (hrest hq)
      exact ⟨h1, h2, h3, hmono _ _ h4⟩
  · rcases List.mem_append.1 hq with hq | hq
    · obtain ⟨q', -, heq⟩ := List.mem_map.1 hq
      cases heq
    · obtain ⟨h1, h2, h3, h4⟩ := htr.down h' q (hrest hq)
      exact ⟨h1, h2, hmono _ _ h3, hmono _ _ h4⟩

/-- A host sends the restoring `ACQUIRE` of a lock. -/
lemma restore (htr : Traffic x s) {h : HostId} {lid : LockId} {rest : List LockId}
    (hagents : s.agents h = lid :: rest) : Traffic x (s.restoreStep h lid rest) := by
  have hpass : Passed x s h lid := by
    apply htr.agents h lid
    rw [hagents]
    exact List.mem_cons_self
  refine ⟨?_, ?_, ?_, htr.cells⟩
  · intro h' lid' hmem
    refine htr.agents h' lid' ?_
    by_cases hh : h' = h
    · subst hh
      simp only [restoreStep, Function.update_self] at hmem
      rw [hagents]
      exact List.mem_cons_of_mem _ hmem
    · simpa only [restoreStep, Function.update_of_ne hh] using hmem
  · intro p hp
    rcases List.mem_cons.1 hp with heq | hp
    · cases heq
      exact ⟨rfl, .inl rfl, rfl, hpass⟩
    · exact htr.up p hp
  · intro h' p hp
    exact htr.down h' p ((List.mem_cons.1 hp).resolve_left nofun)

end Traffic

namespace Inv

/-- Steps after which only the registers, the packets and the locks to restore differ. -/
lemma of_same (hinv : Inv x s) (hcoord : s'.coord = s.coord) (hhost : s'.host = s.host)
    (hpending : s'.pending = s.pending) (hcalled : s'.called = s.called)
    (hchecks : s'.checks = s.checks) : Inv x s' := by
  refine hinv.frame ?_ ?_ hpending ?_ ?_ ?_ ?_ ?_
  · rw [hcoord]
  · intro h lid
    rw [hhost]
  · intro h hc
    exact .inl (hcalled ▸ hc)
  · intro h
    rw [hchecks]
  · intro h hne
    exact absurd (congrFun hchecks h) hne
  · intro h lid _
    rw [hhost]
  · intro h lid _ hmem hnot
    exact absurd (hchecks ▸ hmem) hnot

/-- A host that has passed the second loop processes a packet, and stays agent. -/
lemma host (hinv : Inv x s) {h : HostId} {p : LockHdr} {rest : List Flight}
    (hpass : Passed x s h p.id)
    (hkeep : (lockPacketProcess (conf h) (s.host h p.id) p).lock.isAgent = true) :
    Inv x (s.hostStep h p rest) := by
  refine hinv.frame rfl (fun h' lid' => ?_) rfl (fun _ hc => .inl hc)
    (fun _ => List.suffix_refl _) (fun _ hne => absurd rfl hne) (fun h' lid' hor => ?_)
    (fun _ _ _ hin hnot => absurd hin hnot)
  · rcases same_or_other h h' p.id lid' with ⟨rfl, rfl⟩ | hne
    · simp only [hostStep, setLock_self, hkeep, hpass.2.2.2]
    · simp only [hostStep, s.setLock_of_ne _ hne]
  · refine s.setLock_of_ne _ ((same_or_other h h' p.id lid').resolve_left ?_)
    rintro ⟨rfl, rfl⟩
    exact hor.elim hpass.2.2.1 (fun hnot => hnot hpass.2.1)

end Inv

/-! ### Every step -/

variable {e : RecoveryEvent} {u : Undefined}

/-- Nothing changes for locks of which the host was agent. -/
lemma passed_check {h : HostId} {lid : LockId} {rest : List LockId}
    (hlist : s.checks h = lid :: rest) {h' : HostId} {lid' : LockId} (hpass : Passed x s h' lid') :
    Passed x (s.checkStep u h lid rest) h' lid' := by
  obtain ⟨h1, h2, h3, h4⟩ := hpass
  have hne : h' ≠ h ∨ lid' ≠ lid := by
    refine (same_or_other h h' lid lid').resolve_left ?_
    rintro ⟨rfl, rfl⟩
    rw [hlist] at h3
    exact h3 List.mem_cons_self
  refine ⟨h1, h2, fun hmem => h3 ((Inv.suffix_update hlist h').subset hmem), ?_⟩
  simp only [checkStep, s.setLock_of_ne _ hne]
  exact h4

/-- A lock that is put into `lks_w_agt` has its host as agent. -/
lemma passed_of_agents {h : HostId} {lid : LockId} {rest : List LockId} (hinv : Inv x s)
    (hlive : x.live h) (hlist : s.checks h = lid :: rest) {h' : HostId} {lid' : LockId}
    (hmem : lid' ∈ (s.checkStep u h lid rest).agents h') :
    lid' ∈ s.agents h' ∨ Passed x (s.checkStep u h lid rest) h' lid' := by
  obtain ⟨htable, hrest, -⟩ := hinv.head hlist
  obtain ⟨-, -, hagent⟩ := checkLock_keeps u s.coord (s.host h lid)
  simp only [checkStep] at hmem
  split at hmem
  · next hput =>
      by_cases hh : h' = h
      · subst hh
        rw [Function.update_self, List.mem_append, List.mem_singleton] at hmem
        refine hmem.imp_right ?_
        rintro rfl
        refine ⟨hlive, htable, ?_, ?_⟩
        · simpa [checkStep] using hrest
        · simpa [checkStep] using hagent.symm.trans hput
      · rw [Function.update_of_ne hh] at hmem
        exact .inl hmem
  · exact .inl hmem

/-- The barrier says that everything was submitted. -/
lemma pending_of_barrier (hinv : Inv x s) (hall : ∀ h' ∈ allHosts, x.live h' → s.called h' = true) :
    ∀ h, x.live h → s.pending h = ∅ := by
  intro h hlive
  exact hinv.called h (hall h (Outage.mem_allHosts hlive) hlive)

/-- **A step keeps both invariants.** -/
lemma step_keeps (hdef : x.Defined) (hinv : Inv x s) (htr : Traffic x s)
    (hs : s.step x e = some s') : Inv x s' ∧ Traffic x s' := by
  cases e with
  | submit h sub =>
      simp only [step] at hs
      split at hs
      · next hok =>
          cases hs
          refine ⟨hinv.submit hok.1 hok.2, ?_⟩
          exact htr.frame (fun _ _ hpass => hpass) (fun _ _ hmem => .inl hmem) rfl rfl
      · cases hs
  | ready h =>
      simp only [step] at hs
      split at hs
      · next hok =>
          cases hs
          refine ⟨?_, htr.frame (fun _ _ hpass => hpass) (fun _ _ hmem => .inl hmem) rfl rfl⟩
          refine hinv.frame rfl (fun _ _ => rfl) rfl (fun h' hc => ?_)
            (fun _ => List.suffix_refl _) (fun _ hne => absurd rfl hne) (fun _ _ _ => rfl)
            (fun _ _ _ hmem hnot => absurd hmem hnot)
          by_cases hh : h' = h
          · exact .inr (hh ▸ hok.2)
          · exact .inl (by simpa only [Function.update_of_ne hh] using hc)
      · cases hs
  | check h =>
      simp only [step] at hs
      split at hs
      · next lid rest hlist =>
          split at hs
          · next hok =>
              cases hs
              refine ⟨hinv.check hdef hok.1 hlist (pending_of_barrier hinv hok.2), ?_⟩
              exact htr.frame (fun _ _ => passed_check hlist)
                (fun _ _ => passed_of_agents hinv hok.1 hlist) rfl rfl
          · cases hs
      · cases hs
  | restore h =>
      simp only [step] at hs
      split at hs
      · next lid rest hchecks hagents =>
          split at hs
          · cases hs
            exact ⟨hinv.of_same rfl rfl rfl rfl rfl, htr.restore hagents⟩
          · cases hs
      · cases hs
  | deliver i =>
      simp only [step] at hs
      split at hs
      · next p hp =>
          cases hs
          exact ⟨hinv.of_same rfl rfl rfl rfl rfl,
            htr.switch (List.mem_of_getElem? hp) (List.eraseIdx_subset)⟩
      · next h p hp =>
          cases hs
          have hmem := List.mem_of_getElem? hp
          obtain ⟨htask, htype, -, hpass⟩ := htr.down h p hmem
          obtain ⟨hkeep, -⟩ := process_restoring (conf h) htask htype hpass.2.2.2
          exact ⟨hinv.host hpass hkeep, htr.host hmem (List.eraseIdx_subset)⟩
      · cases hs

lemma reachable_keeps (hdef : x.Defined) (hrun : Reachable x s) : Inv x s ∧ Traffic x s :=
  Reach.invariant ⟨Inv.start x, Traffic.start x⟩
    (fun _ _ _ h _ hs => step_keeps hdef h.1 h.2 hs) hrun

/-! ### The agents at the end -/

/-- What recovery should do for a lock: there is at most one agent among the live hosts, and if one
survived, it is that one. -/
def AgentKept (x : Outage) (s : Recovery) (lid : LockId) : Prop :=
  (∀ h h', x.live h → x.live h' → (s.host h lid).isAgent = true → (s.host h' lid).isAgent = true →
      h = h')
    ∧ ∀ h, x.live h → x.agent h lid → (s.host h lid).isAgent = true

/-- **The agent stays unique unless the coordinator cannot know of it**, whatever the order of the
calls and of the packets, as long as nothing undefined happens. -/
theorem agent_kept_iff {x : Outage} {s : Recovery} {lid : LockId} (hdef : x.Defined)
    (hx : ∀ h h', x.live h → x.live h' → x.agent h lid → x.agent h' lid → h = h')
    (hrun : Reachable x s) (hfin : Finished x s) : AgentKept x s lid ↔ ¬ x.Clash lid := by
  obtain ⟨hinv, -⟩ := reachable_keeps hdef hrun
  have hempty : ∀ h, x.live h → s.pending h = ∅ := fun h hlive => (hfin h hlive).1
  constructor
  · rintro ⟨hunique, -⟩ ⟨hunknown, ⟨a, halive, hagent, hdeserted⟩, m, hm⟩
    have hchecked : lid ∉ s.checks m := by
      rw [(hfin m hm.1).2.2.1]
      exact List.not_mem_nil
    rcases (hinv.known lid).1 (hinv.answered m lid hm hchecked) with hold | ⟨lh, hsub⟩ | ⟨r, hr⟩
    · rw [hunknown] at hold
      cases hold
    · obtain ⟨h, hlive, hmem⟩ := (Inv.submitted_iff hempty).1 hsub
      obtain ⟨htable, hag, hleft⟩ := Outage.mem_submissions_waiter.1 ⟨lh, hmem⟩
      obtain rfl := hx h a hlive halive hag hagent
      exact hleft (hdeserted htable)
    · obtain rfl := hunique r a (hinv.restored r lid hr).1.1 halive hr.1 (hinv.keeps a lid hagent)
      exact hr.2 hagent
  · intro hclash
    have hlone : ∀ r a, Restored x s r lid → x.live a → ¬ x.agent a lid := by
      intro r a hr halive hagent
      obtain ⟨hcand, hunknown, hwaited⟩ := hinv.restored r lid hr
      refine hclash ⟨hunknown, ⟨a, halive, hagent, fun htable => ?_⟩, r, hcand⟩
      by_contra hleft
      exact hwaited ⟨a, halive, Outage.mem_submissions_waiter.2 ⟨htable, hagent, hleft⟩⟩
    refine ⟨fun h h' hlive hlive' hnow hnow' => ?_, fun h _ => hinv.keeps h lid⟩
    by_cases hag : x.agent h lid
    · by_cases hag' : x.agent h' lid
      · exact hx h h' hlive hlive' hag hag'
      · exact absurd hag (hlone h' h ⟨hnow', hag'⟩ hlive)
    · by_cases hag' : x.agent h' lid
      · exact absurd hag' (hlone h h' ⟨hnow, hag⟩ hlive')
      · exact hinv.unique lid h h' ⟨hnow, hag⟩ ⟨hnow', hag'⟩

/-- Machines 1 and 2 are alive and each has a task that holds the lock 5 in shared mode.  Its agent
is machine 1, or was a machine that has failed. -/
def twoHolders (agent : Bool) : Outage where
  code := 0b110
  table := fun h => if h = 1 ∨ h = 2 then [5] else []
  host := fun h lid =>
    { InnetLock.init lid with
      isAgent := decide (h = 1) && agent
      mode := if h = 1 ∧ agent then .shared else .free
      ncnt := if h = 1 ∧ agent then 2 else 0
      holders := if h = 1 ∧ agent then {(1, 7), (2, 7)} else ∅
      localHolders := if h = 1 ∨ h = 2 then {7} else ∅ }
  lmState := fun _ => { hasAgent := false, holders := ∅, waiters := ∅ }
  undef := fun _ _ => .harmless
  table_nodup h := by
    split <;> simp
  host_id _ _ := rfl

/-- Both machines submit their holder, pass the barrier, ask about the lock and restore. -/
def twoChecks : List RecoveryEvent :=
  [.submit 1 (.holder 5 (1, 7)), .submit 2 (.holder 5 (2, 7)), .ready 1, .ready 2, .check 1, .check 2,
    .restore 1]

/-- The fault code for which machines 1 and 2 take part. -/
lemma live_two (hcode : x.code = 0b110) {h : HostId} (hlive : x.live h) : h = 1 ∨ h = 2 := by
  have hcases : ∀ h : HostId, liveMachine 0b110 h → h = 1 ∨ h = 2 := by decide +kernel
  rw [Outage.live, hcode] at hlive
  exact hcases h hlive

/-- Task 7 of each of them is all that can be collected. -/
lemma collected_two (hcode : x.code = 0b110) {lid : LockId} (hold : (x.lmState lid).holders = ∅)
    (hlocal : ∀ h, (x.host h lid).localHolders ⊆ {7}) :
    (x.collected lid).card ≤ MAX_HOLDERS := by
  have hsub : x.collected lid ⊆ {(1, 7), (2, 7)} := by
    intro lh hlh
    rcases Outage.mem_collected.1 hlh with hl | ⟨h, hlive, hmem⟩
    · rw [hold] at hl
      exact absurd hl (Finset.notMem_empty lh)
    · obtain ⟨-, t, ht, rfl⟩ := Outage.mem_submissions_holder.1 hmem
      rw [Finset.mem_singleton.1 (hlocal h ht)]
      rcases live_two hcode hlive with rfl | rfl <;> simp
  exact (Finset.card_le_card hsub).trans (by decide)

/-- `Finished`, for the two machines. -/
def bothFinished (s : Recovery) : Prop :=
  ∀ h ∈ ([1, 2] : List HostId),
    s.pending h = ∅ ∧ s.called h = true ∧ s.checks h = [] ∧ s.agents h = []

instance (s : Recovery) : Decidable s.bothFinished := by
  unfold bothFinished
  infer_instance

lemma bothFinished.finished (hfin : s.bothFinished) (hcode : x.code = 0b110) : Finished x s := by
  intro h hlive
  apply hfin
  rcases live_two hcode hlive with rfl | rfl
  · exact List.mem_cons_self
  · exact List.mem_cons_of_mem _ List.mem_cons_self

lemma defined_twoHolders (agent : Bool) : (twoHolders agent).Defined where
  holders := by
    intro h _ lid _ _ lh hlh
    have hmem : lh = (1, 7) ∨ lh = (2, 7) := by
      simp only [twoHolders] at hlh
      split at hlh
      · simpa using hlh
      · exact absurd hlh (Finset.notMem_empty lh)
    have hok : ∀ m : ℕ, m = 1 ∨ m = 2 → serverFailed 0b110 (BitVec.ofNat 32 m) = false := by
      rintro m (rfl | rfl) <;> rfl
    rintro ⟨-, hfail⟩
    have hno := hok lh.1.toNat (by rcases hmem with rfl | rfl <;> simp)
    exact Bool.false_ne_true (hno.symm.trans hfail)
  room := by
    intro lid _
    refine collected_two rfl rfl fun h => ?_
    simp only [twoHolders]
    split <;> simp
  replies := fun _ _ _ _ _ => rfl

/-- If the agent has failed, the machine that asks first is the new agent. -/
theorem agent_kept_after_failure : ∃ s, Reachable (twoHolders false) s
    ∧ Finished (twoHolders false) s ∧ (s.host 1 5).isAgent = true
    ∧ AgentKept (twoHolders false) s 5 := by
  have hrun : ∃ s, Reachable (twoHolders false) s ∧ s.bothFinished ∧ (s.host 1 5).isAgent = true :=
    Reach.exists_of_runFrom twoChecks (by decide)
  have hnone : ∀ h, ¬ (twoHolders false).agent h 5 := by
    intro h hagent
    simp [Outage.agent, twoHolders] at hagent
  obtain ⟨s, hs, hfin, hagent⟩ := hrun
  refine ⟨s, hs, hfin.finished rfl, hagent, ?_⟩
  refine (agent_kept_iff (defined_twoHolders false) (fun h _ _ _ hag => absurd hag (hnone h)) hs
    (hfin.finished rfl)).2 ?_
  rintro ⟨-, ⟨a, -, hag, -⟩, -⟩
  exact hnone a hag

/-- Machine 1 is the agent and nobody waits; machine 2 asks about its holder and becomes an agent,
too. -/
theorem agent_kept_fails : ¬ ∀ x s lid,
    (∀ h h', x.live h → x.live h' → x.agent h lid → x.agent h' lid → h = h') →
    Reachable x s → Finished x s → AgentKept x s lid := by
  intro hall
  have hrun : ∃ s, Reachable (twoHolders true) s
      ∧ (s.bothFinished ∧ (s.host 1 5).isAgent = true ∧ (s.host 2 5).isAgent = true) :=
    Reach.exists_of_runFrom (twoChecks ++ [.restore 2]) (by decide)
  obtain ⟨s, hs, hfin, hone, htwo⟩ := hrun
  have honly : ∀ h, (twoHolders true).agent h 5 → h = 1 := by
    intro h hagent
    simpa [Outage.agent, twoHolders] using hagent
  have hkept := hall (twoHolders true) s 5
    (fun h h' _ _ hag hag' => (honly h hag).trans (honly h' hag').symm) hs (hfin.finished rfl)
  exact absurd (hkept.1 1 2 (by decide) (by decide) hone htwo) (by decide)

end Recovery

end FissLock
