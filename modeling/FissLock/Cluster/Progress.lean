import FissLock.Cluster.Safety

/-!
# Nobody is forgotten: no lost lock and no stranded waiter

Two further invariants, each with a condition of its own on the steps of a run.

* `Busy` — an agent without holders is waiting for a notification, and so is the sender of a
  `FREE` or `TRANSFER` that will come back; unless the late release that makes it try again has
  already arrived (`delayedFree`).  A notification that finds its mark breaks this when it is the
  last one, because consuming the mark does not look at the lock again; `KeepsAgent` excludes it.
* `Queued` — requests wait only at the agent, or at a host that a `GRANT_WITH_AGENT` is on its way
  to.  Queueing ahead of time breaks it; `KeepsWaiters` excludes it.

In a state where nothing is in flight these leave no room for a lock that is taken and held by
nobody.
-/

namespace FissLock

open Runs Tofino Accounting

variable {lid : LockId} {s s' : Cluster} {e : Event}

/-! ## Where the lock is -/

/-- What is to hold at the agent, while a hand-over is on its way, and while it is on its way
back. -/
structure AtDisposal (s : Cluster) (atAgent whileOut whileBack : Prop) : Prop where
  agent : s.agentHost.isAgent = true → atAgent
  out : ∀ p, (Dst.switch, p) ∈ s.tokens → whileOut
  back : ∀ h p, (Dst.host h, p) ∈ s.tokens → p.type ≠ .grantWithAgent → whileBack

namespace AtDisposal

variable {atAgent whileOut whileBack : Prop} {p : LockHdr}

/-- A lock that is free. -/
lemma of_unheld (hu : Unheld s) : AtDisposal s atAgent whileOut whileBack where
  agent h := by
    rw [Cluster.agentHost, (hu.quiet _).isAgent] at h
    cases h
  out p hp := by
    rw [hu.tokens] at hp
    exact absurd hp (Multiset.notMem_zero _)
  back h p hp := by
    rw [hu.tokens] at hp
    exact absurd hp (Multiset.notMem_zero _)

/-- A grant on its way. -/
lemma of_grant (hk : Held s (.grant p)) : AtDisposal s atAgent whileOut whileBack where
  agent h := by
    rw [hk.agent] at h
    cases h
  out q hq := by
    rw [hk.tokens] at hq
    simp [Token.flights] at hq
  back h q hq hne := by
    rw [hk.tokens] at hq
    simp only [Token.flights, Multiset.mem_singleton, Prod.mk.injEq] at hq
    exact absurd (hq.2 ▸ hk.token.1) hne

/-- A hand-over on its way. -/
lemma of_out (hk : Held s (.out p)) (h : whileOut) : AtDisposal s atAgent whileOut whileBack where
  agent h := by
    rw [hk.agent] at h
    cases h
  out _ _ := h
  back h q hq := by
    rw [hk.tokens] at hq
    simp [Token.flights] at hq

/-- A hand-over that was pushed back. -/
lemma of_back (hk : Held s (.back p)) (h : whileBack) :
    AtDisposal s atAgent whileOut whileBack where
  agent h := by
    rw [hk.agent] at h
    cases h
  out q hq := by
    rw [hk.tokens] at hq
    simp [Token.flights] at hq
  back _ _ _ _ := h

/-- The agent itself. -/
lemma of_agent (hk : Held s .agent) (h : atAgent) : AtDisposal s atAgent whileOut whileBack where
  agent _ := h
  out q hq := by
    rw [hk.tokens] at hq
    exact absurd hq (Multiset.notMem_zero _)
  back h q hq := by
    rw [hk.tokens] at hq
    exact absurd hq (Multiset.notMem_zero _)

end AtDisposal

section After

variable {p : LockHdr}

lemma LocalGrant.holders {h : HostId} {t : TaskId} (x : LocalGrant s s' h t) (hi : Inv lid s) :
    s'.agentHost.holders ≠ ∅ := by
  obtain ⟨rfl, -⟩ := hi.held_agent x.isAgent
  rw [x.effect.agentHost_self (by rw [x.cell])]
  exact Finset.insert_ne_empty _ _

lemma TakeOver.holders {gr kept : List Wqe} (x : TakeOver s s' p gr kept) :
    s'.agentHost.holders ≠ ∅ := by
  rw [x.effect.agentHost_self (by rw [x.cell])]
  exact Finset.ne_empty_of_mem (Finset.mem_union_left _ (Finset.mem_insert_self _ _))

lemma AcquireFree.held (x : AcquireFree s s' p) (hi' : Inv lid s') : ∃ q, Held s' (.grant q) :=
  ⟨_, (hi'.held_grant (x.effect.moves.mem_made (Multiset.mem_singleton_self _)) rfl).2⟩

lemma AcceptTransfer.held (x : AcceptTransfer s s' p) (hi' : Inv lid s') :
    ∃ q, Held s' (.grant q) :=
  ⟨_, (hi'.held_grant (x.effect.moves.mem_made (Multiset.mem_singleton_self _)) rfl).2⟩

lemma AcceptFree.unheld (x : AcceptFree s s' p) (hi' : Inv lid s') : Unheld s' := by
  rcases hi'.token with hu | ⟨k, hk⟩
  · exact hu
  · have hfree := hk.acquired
    rw [x.cell] at hfree
    cases hfree

lemma HandOver.held (x : HandOver s s' p) (hi' : Inv lid s') : Held s' (.out p) :=
  hi'.held_out (x.effect.moves.mem_made (Multiset.mem_singleton_self _)) x.pkt.type

lemma Resend.held (x : Resend s s' p) (hi' : Inv lid s') :
    Held s' (.out { p with ncnt := p.ncnt + s.agentHost.ncnt.setWidth 8 }) :=
  hi'.held_out (x.effect.moves.mem_made (Multiset.mem_singleton_self _)) x.type

lemma PushBack.held (x : PushBack s s' p) (hi' : Inv lid s') : Held s' (.back (cleared p)) :=
  (hi'.held_back (x.effect.moves.mem_made (Multiset.mem_singleton_self _)) x.type).2

end After

/-! ## The agent is busy -/

/-- Whoever has the lock at its disposal has a reason to keep it. -/
structure Busy (s : Cluster) : Prop where
  agent : s.agentHost.isAgent = true → s.agentHost.holders = ∅ → 0 < s.notifs
  out : ∀ p, (Dst.switch, p) ∈ s.tokens → s.agentHost.holders = ∅ → s.agentHost.ncnt ≠ 0 →
    s.agentHost.delayedFree = true ∨ 0 < s.notifs
  back : ∀ h p, (Dst.host h, p) ∈ s.tokens → p.type ≠ .grantWithAgent →
    s.agentHost.holders = ∅ → s.agentHost.delayedFree = true ∨ 0 < s.notifs

namespace Busy

/-- Nothing to show while somebody is recorded. -/
lemma of_holders (h : s.agentHost.holders ≠ ∅) : Busy s :=
  ⟨fun _ h' => absurd h' h, fun _ _ h' => absurd h' h, fun _ _ _ _ h' => absurd h' h⟩

/-- Nothing to show while a notification is in flight. -/
lemma of_notifs (h : 0 < s.notifs) : Busy s :=
  ⟨fun _ _ => h, fun _ _ _ _ => .inr h, fun _ _ _ _ _ => .inr h⟩

/-- In general it depends on where the lock is. -/
lemma of_disposal (x : AtDisposal s (s.agentHost.holders = ∅ → 0 < s.notifs)
    (s.agentHost.holders = ∅ → s.agentHost.ncnt ≠ 0 →
      s.agentHost.delayedFree = true ∨ 0 < s.notifs)
    (s.agentHost.holders = ∅ → s.agentHost.delayedFree = true ∨ 0 < s.notifs)) : Busy s :=
  ⟨x.agent, x.out, x.back⟩

end Busy

/-- **Every transition that keeps the agent keeps it busy.** -/
theorem Change.busy (x : Change s e s') (hi : Inv lid s) (hk : KeepsAgent s e) (hb : Busy s) :
    Busy s' := by
  have hi' := x.inv hi
  cases x with
  | plain x =>
      have hr := x.agentHost
      exact
        { agent := by rw [hr.isAgent, hr.holders, x.notifs]; exact hb.agent
          out := by rw [x.tokens, hr.holders, hr.ncnt, hr.delayedFree, x.notifs]; exact hb.out
          back := by rw [x.tokens, hr.holders, hr.delayedFree, x.notifs]; exact hb.back }
  | localGrant x => exact .of_holders (x.holders hi)
  | drop x left => exact .of_holders left
  | dropAndHandOver x y =>
      refine .of_disposal (.of_out (y.held hi') fun _ hne => absurd ?_ hne)
      rw [y.effect.agentHost_self (by rw [y.cell])]
      rfl
  | acquireFree x =>
      obtain ⟨q, hq⟩ := x.held hi'
      exact .of_disposal (.of_grant hq)
  | acquireShared x => exact .of_notifs (by rw [x.notifs]; omega)
  | @pushBack p x =>
      have hko := hi.held_out x.mem x.type
      refine .of_disposal (.of_back (x.held hi') ?_)
      rw [x.effect.agentHost_self (by rw [x.cell]), x.notifs]
      intro hh
      by_cases hc : s.agentHost.ncnt = 0
      · right
        obtain ⟨-, -, hold⟩ := hko.token
        have hp := x.pushed
        simp only [pushedBack, decide_eq_true_eq] at hp
        have hcount := hko.count (hold.symm.trans hp.1)
        by_contra hz
        have hn : s.notifs = 0 := by omega
        rw [hc, hn] at hcount
        exact hp.2 (by simpa [Token.ncnt] using hcount)
      · exact hb.out p (Multiset.mem_filter.2 ⟨x.mem, by
          rcases x.type with h | h <;> simp [isToken, h]⟩) hh hc
  | acceptTransfer x =>
      obtain ⟨q, hq⟩ := x.held hi'
      exact .of_disposal (.of_grant hq)
  | acceptFree x => exact .of_disposal (.of_unheld (x.unheld hi'))
  | @notification p x =>
      have ha := x.effect.agentHost_self (by rw [x.cell])
      cases hear : s.agentHost.earlyRelease p.holder with
      | false =>
          refine .of_holders ?_
          rw [ha]
          exact Finset.ne_empty_of_mem (mem_notified_holders.2 (.inr ⟨rfl, hear⟩))
      | true =>
          rcases x.keeps hk hear with hh | hn
          · refine .of_holders ?_
            rw [ha]
            obtain ⟨lh, hlh⟩ := Finset.nonempty_iff_ne_empty.2 hh
            exact Finset.ne_empty_of_mem (mem_notified_holders.2 (.inl hlh))
          · have := x.notifs
            exact .of_notifs (by omega)
  | delayedRelease x =>
      have ha := x.effect.agentHost_self (by rw [x.cell])
      refine ⟨fun h => ?_, fun _ _ _ _ => .inl ?_, fun _ _ _ _ _ => .inl ?_⟩
      · rw [ha] at h
        exact absurd (x.isAgent.symm.trans h) (by decide)
      · rw [ha]
        rfl
      · rw [ha]
        rfl
  | resend x =>
      refine .of_disposal (.of_out (x.held hi') fun _ hne => absurd ?_ hne)
      rw [x.effect.agentHost_self (by rw [x.cell])]
      rfl
  | @restore p x =>
      have ha := x.effect.agentHost_self (by rw [x.cell])
      have hag : s'.agentHost.isAgent = true := by rw [ha]; rfl
      refine .of_disposal (.of_agent (hi'.held_agent hag).2 ?_)
      rw [ha, x.notifs]
      intro hh
      have hne : p.type ≠ .grantWithAgent := by
        rcases x.type with h | h <;> rw [h] <;> decide
      have htok : (Dst.host s.cell.agent, p) ∈ s.tokens :=
        Multiset.mem_filter.2 ⟨x.mem, isToken_of_handOver x.type _⟩
      refine (hb.back _ p htok hne hh).resolve_left fun hd => x.busy hd hh
  | takeOver x => exact .of_holders x.holders

/-! ## Requests wait where somebody will see them -/

/-- Wait queues are found at the agent and at hosts that are about to become the agent. -/
def Queued (s : Cluster) : Prop :=
  ∀ h, (s.host h).wqueue ≠ [] → (s.host h).isAgent = true ∨ s.granting h

lemma granting_iff {h : HostId} :
    s.granting h ↔ ∃ p, p.type = .grantWithAgent ∧ (Dst.host h, p) ∈ s.tokens := by
  refine exists_congr fun p => and_congr_right fun ht => ?_
  rw [Cluster.tokens, Multiset.mem_filter]
  simp [isToken, ht]

lemma granting_of_tokens (ht : s'.tokens = s.tokens) {h : HostId} (hg : s.granting h) :
    s'.granting h := by
  rw [granting_iff] at hg ⊢
  rwa [ht]

namespace Queued

/-- Only the agent's host can have a wait queue. -/
lemma eq_agent (hq : Queued s) (hi : Inv lid s) {h : HostId} (hw : (s.host h).wqueue ≠ []) :
    h = s.cell.agent := by
  rcases hq h hw with ha | ⟨p, ht, hp⟩
  · exact (hi.held_agent ha).1
  · exact (hi.held_grant hp ht).1

/-- While the token is on its way back or forth, nobody has. -/
lemma empty (hq : Queued s) (hno : s.agentHost.isAgent = false)
    (htok : ∀ h p, (Dst.host h, p) ∈ s.tokens → p.type ≠ .grantWithAgent) (hi : Inv lid s)
    (h : HostId) : (s.host h).wqueue = [] := by
  by_contra hw
  have hh := hq.eq_agent hi hw
  rcases hq h hw with ha | hg
  · rw [hh] at ha
    exact absurd (hno.symm.trans ha) (by decide)
  · obtain ⟨p, ht, hp⟩ := granting_iff.1 hg
    exact htok h p hp ht

lemma empty_of_out (hq : Queued s) (hi : Inv lid s) {p : LockHdr} (hk : Held s (.out p))
    (h : HostId) : (s.host h).wqueue = [] := by
  refine hq.empty hk.agent (fun h' q hx => ?_) hi h
  rw [hk.tokens] at hx
  simp [Token.flights] at hx

lemma empty_of_back (hq : Queued s) (hi : Inv lid s) {p : LockHdr} (hk : Held s (.back p))
    (h : HostId) : (s.host h).wqueue = [] := by
  refine hq.empty hk.agent (fun h' q hx => ?_) hi h
  rw [hk.tokens] at hx
  simp only [Token.flights, Multiset.mem_singleton, Prod.mk.injEq] at hx
  rw [hx.2]
  rcases hk.token.1 with h | h <;> rw [h] <;> decide

lemma empty_of_unheld (hq : Queued s) (hi : Inv lid s) (hu : Unheld s) (h : HostId) :
    (s.host h).wqueue = [] := by
  refine hq.empty (hu.quiet _).isAgent (fun h' q hx => ?_) hi h
  rw [hu.tokens] at hx
  exact absurd hx (Multiset.notMem_zero _)

/-- After a step that changes the agent's host, only this one is to be looked at. -/
lemma of_agent_step (hq : Queued s) (hi : Inv lid s) {used made : Multiset Flight} {l : InnetLock}
    (ef : Effect s s' used made s.cell.agent l)
    (hl : l.wqueue ≠ [] → l.isAgent = true ∨ s'.granting s.cell.agent) : Queued s' := by
  intro h hw
  by_cases hh : h = s.cell.agent
  · subst hh
    rw [ef.host_self] at hw ⊢
    exact hl hw
  · rw [ef.host_ne hh] at hw
    exact absurd (hq.eq_agent hi hw) hh

/-- All wait queues are empty, and stay so. -/
lemma of_empty (h : ∀ h, (s'.host h).wqueue = []) : Queued s' := fun h' hw => absurd (h h') hw

end Queued

lemma SwitchEffect.host {p : LockHdr} {made : Multiset Flight} (x : SwitchEffect s s' p made) :
    s'.host = s.host := by
  rw [x.effect.host, Cluster.agentHost, Function.update_eq_self]

lemma Plain.queued {used made : Multiset Flight} {h : HostId} {l : InnetLock} {lh : LockHolder}
    (x : Plain s e s' used made h l lh) (hk : KeepsWaiters s e) (hq : Queued s) : Queued s' := by
  intro h' hw
  have hgr : ∀ {h}, s.granting h → s'.granting h := granting_of_tokens x.tokens
  by_cases hh : h' = h
  · subst hh
    rw [x.effect.host_self] at hw ⊢
    rw [x.role.isAgent]
    rcases x.wqueue with hsame | ⟨-, hwhy⟩
    · rw [hsame] at hw
      exact (hq h' hw).imp id hgr
    · exact (hwhy hk).imp id hgr
  · rw [x.effect.host_ne hh] at hw ⊢
    exact (hq h' hw).imp id hgr

lemma Drop.queued {lh : LockHolder} (x : Drop s s' lh) (hi : Inv lid s) (hq : Queued s) :
    Queued s' := by
  obtain ⟨used, hs, er, lc, -, ef, -⟩ := x.effect
  exact hq.of_agent_step hi ef fun _ => .inl x.isAgent

/-- **Every transition that keeps the waiters keeps them in sight.** -/
theorem Change.queued (x : Change s e s') (hi : Inv lid s) (hk : KeepsWaiters s e)
    (hq : Queued s) : Queued s' := by
  cases x with
  | plain x => exact x.queued hk hq
  | @localGrant h t x =>
      obtain ⟨rfl, -⟩ := hi.held_agent x.isAgent
      exact hq.of_agent_step hi x.effect fun _ => .inl x.isAgent
  | drop x _ => exact x.queued hi hq
  | dropAndHandOver x y =>
      exact (x.queued hi hq).of_agent_step (x.inv hi) y.effect fun hw => absurd rfl hw
  | acquireFree x =>
      refine .of_empty fun h => ?_
      rw [x.host]
      rcases hi.token with hu | ⟨k, hk'⟩
      · exact hq.empty_of_unheld hi hu h
      · exact absurd (hk'.acquired.symm.trans x.free) (by decide)
  | acquireShared x =>
      intro h hw
      rw [x.host] at hw ⊢
      exact (hq h hw).imp id (granting_of_tokens x.tokens)
  | pushBack x =>
      refine .of_empty fun h => ?_
      rw [x.host]
      exact hq.empty_of_out hi (hi.held_out x.mem x.type) h
  | acceptTransfer x =>
      refine .of_empty fun h => ?_
      rw [x.host]
      exact hq.empty_of_out hi (hi.held_out x.mem (.inl x.type)) h
  | acceptFree x =>
      refine .of_empty fun h => ?_
      rw [x.host]
      exact hq.empty_of_out hi (hi.held_out x.mem (.inr x.type)) h
  | @notification p x =>
      obtain ⟨-, hag, -, hwq, -⟩ := notified_frame s.agentHost p.holder
      refine hq.of_agent_step hi x.effect fun hw => ?_
      rw [hwq] at hw
      rw [hag]
      exact (hq _ hw).imp id (granting_of_tokens x.tokens)
  | delayedRelease x =>
      exact hq.of_agent_step hi x.effect fun hw =>
        (hq _ hw).imp id (granting_of_tokens x.tokens)
  | resend x =>
      refine hq.of_agent_step hi x.effect fun hw => absurd ?_ hw
      exact hq.empty_of_back hi (hi.held_back x.mem x.type).2 _
  | restore x => exact hq.of_agent_step hi x.effect fun _ => .inl rfl
  | takeOver x => exact hq.of_agent_step hi x.effect fun _ => .inl rfl

/-! ## Quiescence -/

/-- The condition on a step under which neither the lock nor a waiter is forgotten. -/
def Attentive (s : Cluster) (e : Event) : Prop := Guarded s e ∧ KeepsAgent s e ∧ KeepsWaiters s e

instance (s : Cluster) (e : Event) : Decidable (Attentive s e) :=
  inferInstanceAs (Decidable (_ ∧ _))

/-- All invariants together hold along every attentive run. -/
theorem invariants_of_attentive (hlid : lid.toNat < SWITCH_LOCK_NUM)
    (h : Cluster.Reachable lid Attentive s) : Inv lid s ∧ Busy s ∧ Queued s := by
  refine Reach.invariant (I := fun s => Inv lid s ∧ Busy s ∧ Queued s) ?_ ?_ h
  · have hi := inv_init lid
    refine ⟨hi, ?_, .of_empty fun _ => rfl⟩
    rcases hi.token with hu | ⟨k, hk⟩
    · exact .of_disposal (.of_unheld hu)
    · cases hk.acquired
  · rintro s e s' ⟨hi, hb, hq⟩ ⟨hg, hka, hkw⟩ hs
    have x := step_change hlid hi hg hs
    exact ⟨x.inv hi, x.busy hi hka hb, x.queued hi hkw hq⟩

/-- Nothing in flight and nobody holding the lock: then it is free. -/
lemma unheld_of_quiescent (hi : Inv lid s) (hb : Busy s) (hnet : s.net = [])
    (hno : ∀ lh op, ¬ s.holds lh op) : Unheld s := by
  have hfl : s.flights = 0 := by simp [Cluster.flights, hnet]
  have hz : ∀ f : Flight → ℕ, inFlight f s.flights = 0 := fun f => by rw [hfl, inFlight_zero]
  rcases hi.token with hu | ⟨k, hk⟩
  · exact hu
  · have htok : k.flights s.cell.agent = 0 := by
      rw [← hk.tokens, Cluster.tokens, hfl, Multiset.filter_zero]
    cases k with
    | grant p => exact absurd htok (Multiset.singleton_ne_zero _)
    | out p => exact absurd htok (Multiset.singleton_ne_zero _)
    | back p => exact absurd htok (Multiset.singleton_ne_zero _)
    | agent =>
        -- the agent has a holder, and a holder without packets holds the lock
        have hne : s.agentHost.holders ≠ ∅ := fun hh => by
          have := hb.agent hk.agent hh
          rw [Cluster.notifs, hz] at this
          omega
        obtain ⟨lh, hlh⟩ := Finset.nonempty_iff_ne_empty.2 hne
        have hH : s.held lh = 1 := if_pos hlh
        have hN : s.notif lh = 0 := hz _
        have hW : s.wo lh = 0 := hz _
        have hR : s.rel lh = 0 := hz _
        have hc := (hi.task lh).counts
        cases ht : s.task lh with
        | idle =>
            rw [ht] at hc
            obtain ⟨-, -, -, -, ⟨h5, -⟩ | ⟨-, h6, -⟩⟩ := hc <;> omega
        | holding op => exact absurd (.inl ht) (hno lh op)
        | waiting op =>
            rw [ht] at hc
            obtain ⟨-, -, ⟨-, -, -, -, h7⟩ | ⟨-, -, h5, -, -⟩⟩ := hc
            · omega
            · have hF : s.flag lh = 1 := by omega
              exact absurd (.inr ⟨ht, by simpa [Cluster.flag] using hF⟩) (hno lh op)

/-- **No lost lock and no stranded waiter.**  In every attentive run, whenever nothing is in flight
and no task holds the lock, the lock is free, no host is the agent or remembers a holder or a
waiter, and no task is waiting for a grant. -/
theorem nothing_lost_at_quiescence (hlid : lid.toNat < SWITCH_LOCK_NUM)
    (h : Cluster.Reachable lid Attentive s) (hnet : s.net = [])
    (hno : ∀ lh op, ¬ s.holds lh op) :
    (∀ h, (s.host h).holders = ∅ ∧ (s.host h).wqueue = [] ∧ (s.host h).isAgent = false)
      ∧ s.cell.free = LOCK_FREE ∧ ∀ lh op, s.task lh ≠ .waiting op := by
  obtain ⟨hi, hb, hq⟩ := invariants_of_attentive hlid h
  have hu := unheld_of_quiescent hi hb hnet hno
  have hw : ∀ h, (s.host h).wqueue = [] := hq.empty_of_unheld hi hu
  refine ⟨fun h => ⟨(hu.quiet h).holders, hw h, (hu.quiet h).isAgent⟩, hu.free, fun lh op ht => ?_⟩
  have hpend : ∀ b, s.pend lh b = 0 := fun b => by
    have hst : stored (fun l : InnetLock => l.wqueue.countP (Wqe.isFor lh b)) s.host = 0 :=
      stored_eq_zero.2 fun h => by rw [hw h]; rfl
    rw [Cluster.pend, hst, Cluster.flights, hnet, Multiset.coe_nil, inFlight_zero]
  have hc := (hi.task lh).counts
  rw [ht, hpend, hpend, hu.idle.notif, hu.idle.held] at hc
  obtain ⟨-, -, ⟨hop, -⟩ | ⟨-, -, -, h6, -⟩⟩ := hc <;> omega

/-- Two readers and a writer that waited for them have come and gone. -/
theorem nothing_lost_at_quiescence_handed_over :
    ∃ s, Cluster.Reachable 7 Attentive s ∧ s.net = []
      ∧ (∀ h, (s.host h).holders = ∅ ∧ (s.host h).wqueue = [] ∧ (s.host h).isAgent = false)
      ∧ s.cell.free = LOCK_FREE := by
  obtain ⟨s, hrun, ⟨hnet, h1, h2, h3⟩, hidle⟩ := Cluster.exists_of_run 7 Attentive
    (readersThenWriter ++ [.release 3 3, .deliver 0])
    (fun s => s.net = [] ∧ s.task (1, 1) = .idle ∧ s.task (2, 2) = .idle ∧ s.task (3, 3) = .idle)
    (by decide +kernel)
  have hall : ∀ lh, s.task lh = .idle := fun lh => by
    by_cases hlh : lh = (1, 1) ∨ lh = (2, 2) ∨ lh = (3, 3)
    · rcases hlh with rfl | rfl | rfl
      · exact h1
      · exact h2
      · exact h3
    · refine hidle lh ?_
      obtain ⟨hn1, hn23⟩ := not_or.1 hlh
      obtain ⟨hn2, hn3⟩ := not_or.1 hn23
      simpa [readersThenWriter, Event.caller, eq_comm] using ⟨hn1, hn2, hn3, hn2, hn1, hn3⟩
  obtain ⟨hq, hf, -⟩ := nothing_lost_at_quiescence (by decide) hrun hnet fun lh op hh => by
    rcases hh with hh | ⟨hh, -⟩ <;> rw [hall lh] at hh <;> cases hh
  exact ⟨s, hrun, hnet, hq, hf⟩

/-- The run that loses a lock.  A `RELEASE` overtakes the notification of its grant and leaves a
mark; by the time the notification arrives and the mark is consumed, host 1 is the agent of a lock
that nobody holds, and nothing will happen to it any more. -/
def lostLock : List Event :=
  [.acquire 1 1 .shared, .deliver 0, .deliver 0, .poll 1 1,
   .acquire 2 2 .shared, .deliver 0, .deliver 1, .poll 2 2, .release 2 2,
   .deliver 0, .deliver 0, .release 1 1, .deliver 0, .deliver 0, .deliver 0]

/-- **In general, a lock can be lost.** -/
theorem nothing_lost_at_quiescence_fails :
    ¬ ∀ s, Cluster.Reachable 7 (fun _ _ => True) s → s.net = [] → (∀ lh op, ¬ s.holds lh op) →
      (∀ h, (s.host h).holders = ∅ ∧ (s.host h).wqueue = [] ∧ (s.host h).isAgent = false)
        ∧ s.cell.free = LOCK_FREE := by
  intro hall
  obtain ⟨s, hrun, ⟨hnet, h1, h2, hag⟩, hidle⟩ := Cluster.exists_of_run 7 (fun _ _ => True) lostLock
    (fun s => s.net = [] ∧ s.task (1, 1) = .idle ∧ s.task (2, 2) = .idle
      ∧ (s.host 1).isAgent = true) (by decide +kernel)
  have htask : ∀ lh, s.task lh = .idle := fun lh => by
    by_cases hlh : lh = (1, 1)
    · rw [hlh, h1]
    · by_cases hlh' : lh = (2, 2)
      · rw [hlh', h2]
      · exact hidle lh (by simpa [lostLock, Event.caller, eq_comm] using ⟨hlh, hlh', hlh⟩)
  obtain ⟨hq, -⟩ := hall s hrun hnet fun lh op hh => by
    rcases hh with hh | ⟨hh, -⟩ <;> rw [htask lh] at hh <;> cases hh
  exact absurd (hag.symm.trans (hq 1).2.2) (by decide)

end FissLock
