import FissLock.Cluster.Preservation

/-!
# The invariant at the switch

The transitions of `Cluster/Transitions.lean` in which the switch processes a packet, except for
the plain ones.

The one argument that is more than bookkeeping is `Held.drained`: a `FREE` or `TRANSFER` that the
switch **accepts** proves that no notification is in flight and that the agent has recorded nobody.
In exclusive mode the invariant says so outright.  In shared mode the counts agree, so that the
grants which the packet does not account for are a multiple of 256, and fewer than 256.

With that, a lock that is free and a lock whose hand-over was accepted look the same to everybody
(`Idle`), and `Idle.grant` covers the two transitions that appoint an agent.
-/

namespace FissLock

open Runs Tofino Accounting

variable {lid : LockId} {s s' : Cluster} {p : LockHdr}

/-! ## Nobody has a part in the lock -/

/-- No host has a role, and no notification is in flight. -/
structure Idle (s : Cluster) : Prop where
  quiet : ∀ h, Quiet (s.host h)
  notifs : s.notifs = 0

namespace Idle

lemma notif (hd : Idle s) (lh : LockHolder) : s.notif lh = 0 :=
  Nat.le_zero.1 (hd.notifs ▸ s.notif_le_notifs lh)

lemma held (hd : Idle s) (lh : LockHolder) : s.held lh = 0 := by
  rw [Cluster.held, Cluster.agentHost, (hd.quiet _).holders, if_neg (Finset.notMem_empty lh)]

lemma early (hd : Idle s) (lh : LockHolder) : s.early lh = 0 := by
  rw [Cluster.early, Cluster.agentHost, (hd.quiet _).early lh]
  rfl

/-- Then no release is under way either. -/
lemma rel (hd : Idle s) (hi : Inv lid s) (lh : LockHolder) : s.rel lh = 0 := by
  by_contra hne
  obtain ⟨-, -, hNH, -⟩ := (hi.task lh).of_rel (Nat.one_le_iff_ne_zero.2 hne)
  rw [hd.notif, hd.held] at hNH
  omega

/-- The accounts of a task do not mention the registers. -/
lemma task (hd : Idle s) {lh : LockHolder} (h : TaskOk s lh) (hd' : Idle s')
    (hp : ∀ b, s'.pend lh b = s.pend lh b) (hw : s'.wo lh = s.wo lh) (hr : s'.rel lh = s.rel lh)
    (hf : s'.flag lh = s.flag lh) (ht : s'.task lh = s.task lh) : TaskOk s' lh := by
  have hc := h.counts
  rw [hd.notif, hd.held, hd.early] at hc
  refine ⟨?_, by rw [ht]; exact h.valid⟩
  rw [hp, hp, hd'.notif, hw, hr, hd'.held, hd'.early, hf, ht]
  cases hs : s.task lh with
  | idle =>
      rw [hs] at hc
      obtain ⟨h1, h2, h3, h4, ⟨-, h6, -⟩ | h5⟩ := hc
      · omega
      · exact ⟨h1, h2, h3, h4, .inr h5⟩
  | waiting op =>
      rw [hs] at hc
      obtain ⟨h1, h2, h3 | ⟨-, -, -, h6, -⟩⟩ := hc
      · exact ⟨h1, h2, .inl h3⟩
      · omega
  | holding op =>
      rw [hs] at hc
      obtain ⟨-, -, -, -, -, -, h7, -⟩ := hc
      omega

/-- Packets in flight do not mention the registers. -/
lemma flight (hd : Idle s) (hi : Inv lid s) (c : Cell) {x : Flight} (hx : x ∈ s.flights) :
    FlightOk c x := by
  have hn : isNotif x = false := by
    have := Accounting.inFlight_eq_zero.1 hd.notifs x hx
    simpa using this
  have hr : x.2.type ≠ .release := by
    intro ht
    have := Cluster.rel_le x.2.holder hx
    rw [hd.rel hi] at this
    simp [typedPkt, ht] at this
  obtain ⟨d, q⟩ := x
  have hf := hi.flight _ hx
  cases d <;> cases ht : q.type <;> simp_all [FlightOk, isNotif]

end Idle

lemma Unheld.idle (hu : Unheld s) : Idle s := ⟨hu.quiet, hu.notifs⟩

/-! ## An accepted hand-over -/

/-- **Acceptance proves that the lock is drained.** -/
theorem Held.drained (hk : Held s (.out p)) (hp : pushedBack s.cell p = false)
    (room : p.oldMode = LOCK_SHARED → (s.host p.agent).ncnt.toNat + s.notifs < 256) :
    s.notifs = 0 ∧ s.agentHost.ncnt = 0 ∧ s.agentHost.holders = ∅ := by
  obtain ⟨-, hag, hold⟩ := hk.token
  cases hrw : s.cell.rw with
  | true =>
      obtain ⟨h1, h2, -, h4⟩ := hk.excl hrw
      refine ⟨h1, h4 rfl, Finset.eq_empty_of_forall_notMem fun lh hlh => ?_⟩
      exact absurd (h2 lh hlh).1 (by simp [Token.isAgent])
  | false =>
      have hroom : s.agentHost.ncnt.toNat + s.notifs < 256 := by
        rw [Cluster.agentHost, ← hag]
        exact room (hold.trans hrw)
      have heq : s.cell.ncnt = p.ncnt := by
        by_contra hne
        simp [pushedBack, hold, hrw, hne] at hp
      have hcount := hk.count hrw
      rw [Token.ncnt, heq] at hcount
      have hnat := congrArg BitVec.toNat hcount
      have hlt := p.ncnt.isLt
      simp only [BitVec.toNat_add, BitVec.toNat_setWidth, BitVec.toNat_ofNat] at hnat
      have h1 : s.agentHost.ncnt.toNat = 0 := by omega
      have h2 : s.agentHost.ncnt = 0 := BitVec.eq_of_toNat_eq h1
      exact ⟨by omega, h2, hk.counted hrw p rfl h2⟩

lemma Held.idle (hk : Held s (.out p)) (hi : Inv lid s) (hp : pushedBack s.cell p = false)
    (room : p.oldMode = LOCK_SHARED → (s.host p.agent).ncnt.toNat + s.notifs < 256) : Idle s := by
  obtain ⟨hn, hc, hh⟩ := hk.drained hp room
  refine ⟨fun h => ?_, hn⟩
  by_cases hne : h = s.cell.agent
  · subst hne
    refine ⟨hk.agent, hk.mode, hc, hh, fun lh => ?_⟩
    have hN : s.notif lh = 0 := Nat.le_zero.1 (hn ▸ s.notif_le_notifs lh)
    have hH : s.held lh = 0 := by
      rw [Cluster.held, hh, if_neg (Finset.notMem_empty lh)]
    have hE : s.early lh = 0 := (hi.task lh).early_of_unknown hN hH
    simpa [Cluster.early, Cluster.agentHost] using hE
  · exact hk.others h hne

/-! ## Appointing an agent -/

/-- A packet from which an agent is appointed: a request, or the `TRANSFER` of a wait queue. -/
lemma pendPkt_appoint (ht : p.type = .acquire ∧ p.wq = [] ∨ p.type = .transfer) (h : HostId)
    (tr : Bool) (lh : LockHolder) (b : Bool) :
    pendPkt lh b (Dst.host h, { cleared p with
        type := .grantWithAgent, agent := p.machineId, transferred := tr })
      = pendPkt lh b (Dst.switch, p) := by
  rcases ht with ⟨ht, hw⟩ | ht
  · simp only [pendPkt, cleared, ht, hw, List.countP_nil, add_zero]
    rfl
  · simp only [pendPkt, cleared, ht]
    rfl

/-- **An agent is appointed** when nobody has a part in the lock. -/
theorem Idle.grant (hd : Idle s) (hi : Inv lid s) {tr : Bool} {n : BitVec 8}
    (x : SwitchEffect s s' p {(Dst.host p.machineId, { cleared p with
      type := .grantWithAgent, agent := p.machineId, transferred := tr })})
    (ht : p.type = .acquire ∧ p.wq = [] ∨ p.type = .transfer)
    (htr : tr = false → p.wq = [])
    (htok : s.tokens = ({(Dst.switch, p)} : Multiset Flight).filter (fun x => isToken x = true))
    (hm : isHost p.machineId = true)
    (hc : s'.cell = { free := LOCK_ACQUIRED, rw := p.mode, agent := p.machineId, ncnt := n })
    (hn : p.mode = LOCK_SHARED → n = if tr then 0 else 1) : Inv lid s' := by
  have ef := x.effect
  have hhost : s'.host = s.host := by
    rw [ef.host, Cluster.agentHost, Function.update_eq_self]
  have hpk : ∀ lh, notifPkt lh (Dst.switch, p) = 0 ∧ typedPkt .grantWoAgent lh (Dst.switch, p) = 0
      ∧ typedPkt .release lh (Dst.switch, p) = 0 := by
    intro lh
    rcases ht with ⟨ht, -⟩ | ht <;> simp [notifPkt, isNotif, typedPkt, ht]
  have hnot : s'.notifs = 0 := by
    have := ef.moves.notifs
    rw [hd.notifs] at this
    simpa [isNotif] using this
  have hd' : Idle s' := ⟨fun h => by rw [hhost]; exact hd.quiet h, hnot⟩
  refine hi.of_effect ef rfl (hi.wqueue _) ?_ ?_ (.inr ⟨.grant { cleared p with
      type := .grantWithAgent, agent := p.machineId, transferred := tr }, ?_⟩)
  · intro y hy
    rcases ef.moves.mem hy with hy | hy
    · rw [Multiset.mem_singleton.1 hy]
      exact ⟨(hi.flight _ x.mem).1, trivial⟩
    · exact hd.flight hi _ hy
  · intro lh
    refine hd.task (hi.task lh) hd' (fun b => ?_) ?_ ?_ (by simp only [Cluster.flag, hhost])
      (by rw [x.task])
    · have := ef.pend_eq rfl lh b
      rw [inFlight_singleton, inFlight_singleton, pendPkt_appoint ht] at this
      omega
    · have := ef.moves.wo lh
      rw [inFlight_singleton, inFlight_singleton, (hpk lh).2.1] at this
      simpa [typedPkt] using this
    · have := ef.moves.rel lh
      rw [inFlight_singleton, inFlight_singleton, (hpk lh).2.2] at this
      simpa [typedPkt] using this
  · have hq : Quiet s'.agentHost := hd'.quiet _
    refine ⟨by rw [hc], by rw [hc]; exact hm, ?_, ?_, hq.isAgent, hq.mode,
      fun h _ => hd'.quiet h, fun _ => ?_, fun hsh => ?_, fun _ q hk => by cases hk⟩
    · rw [ef.moves.tokens_replace htok, hc]
      rfl
    · rw [hc]
      exact ⟨rfl, rfl, rfl, rfl, htr⟩
    · rw [hq.holders, hq.ncnt, hnot]
      simp
    · rw [hc] at hsh ⊢
      rw [hq.ncnt, hnot, hn hsh, Token.ncnt]
      cases tr <;> rfl

theorem AcquireFree.inv (x : AcquireFree s s' p) (hi : Inv lid s) : Inv lid s' := by
  have hu : Unheld s := by
    rcases hi.token with hu | ⟨k, hk⟩
    · exact hu
    · exact absurd (hk.acquired.symm.trans x.free) (by decide)
  have hw : p.wq = [] := by
    have := (hi.flight _ x.mem).2
    simpa [x.type] using this
  refine hu.idle.grant hi x.toSwitchEffect (.inl ⟨x.type, hw⟩) (fun _ => hw) ?_ x.isHost x.cell ?_
  · rw [hu.tokens]
    exact (filter_token_eq_zero (by simp [isToken, x.type])).symm
  · intro hsh
    simp [countAcquire, hsh, hu.count]

theorem AcceptTransfer.inv (x : AcceptTransfer s s' p) (hi : Inv lid s) : Inv lid s' := by
  have hk : Held s (.out p) := hi.held_out x.mem (.inl x.type)
  refine (hk.idle hi x.accepted x.room).grant hi x.toSwitchEffect (.inr x.type)
    (fun h => by cases h) ?_ x.isHost x.cell (fun _ => rfl)
  rw [hk.tokens, Multiset.filter_singleton, if_pos (by simp [isToken, x.type])]
  rfl

/-! ## The other transitions at the switch -/

theorem AcceptFree.inv (x : AcceptFree s s' p) (hi : Inv lid s) : Inv lid s' := by
  have hk : Held s (.out p) := hi.held_out x.mem (.inr x.type)
  have hd : Idle s := hk.idle hi x.accepted x.room
  have ef := x.effect
  have hhost : s'.host = s.host := by
    rw [ef.host, Cluster.agentHost, Function.update_eq_self]
  have htp : ∀ y ∈ ({(Dst.switch, p)} : Multiset Flight), isToken y = true := by
    simp [isToken, x.type]
  obtain ⟨hnot, hpk⟩ := silent_of_tokens ef.moves htp (by simp)
  have hd' : Idle s' := ⟨fun h => by rw [hhost]; exact hd.quiet h, hnot.trans hd.notifs⟩
  refine hi.of_effect ef rfl (hi.wqueue _) ?_ ?_ (.inl ⟨by rw [x.cell], by rw [x.cell], ?_,
    hd'.notifs, hd'.quiet⟩)
  · intro y hy
    rcases ef.moves.mem hy with hy | hy
    · exact absurd hy (Multiset.notMem_zero y)
    · exact hd.flight hi _ hy
  · intro lh
    obtain ⟨-, hw, hr⟩ := hpk lh
    refine hd.task (hi.task lh) hd' (fun b => ?_) hw hr (by simp only [Cluster.flag, hhost])
      (by rw [x.task])
    have := ef.pend_eq rfl lh b
    simpa [pendPkt, x.type] using this
  · refine ef.moves.tokens_replace ?_
    rw [hk.tokens, Multiset.filter_singleton, if_pos (htp _ (Multiset.mem_singleton_self _))]
    rfl

lemma PushBack.notifs (x : PushBack s s' p) : s'.notifs = s.notifs := by
  have htp : ∀ d, isToken (d, p) = true := fun d => by
    rcases x.type with h | h <;> simp [isToken, h]
  have htc : isToken (Dst.host p.agent, cleared p) = true := htp (Dst.host p.agent)
  exact (silent_of_tokens x.effect.moves (by simpa using htp _) (by simpa using htc)).1

theorem PushBack.inv (x : PushBack s s' p) (hi : Inv lid s) : Inv lid s' := by
  have hk : Held s (.out p) := hi.held_out x.mem x.type
  obtain ⟨-, hag, hold⟩ := hk.token
  have ef := x.effect
  have ha : s'.cell.agent = s.cell.agent := by rw [x.cell]
  have htp : ∀ d, isToken (d, p) = true := fun d => by
    rcases x.type with h | h <;> simp [isToken, h]
  have htc : isToken (Dst.host p.agent, cleared p) = true := htp (Dst.host p.agent)
  obtain ⟨hnot, hpk⟩ := silent_of_tokens ef.moves (by simpa using htp _) (by simpa using htc)
  have htok : s'.tokens = {(Dst.host s.cell.agent, cleared p)} := by
    rw [ef.moves.tokens_replace (by
      rw [hk.tokens, Multiset.filter_singleton, if_pos (htp _)]
      rfl), Multiset.filter_singleton, if_pos htc, hag]
  refine hi.of_effect ef rfl (hi.wqueue _) (hi.flight_step ef.moves ha (by rw [x.cell]) ?_) ?_
    (.inr ⟨.back (cleared p), hk.at_agent ef (by rw [x.cell]) (by rw [x.cell]) ha htok
      ⟨x.type, hag, hold, ?_⟩ hk.agent hk.mode (fun hx => ?_) (fun hsh => ?_)
      (fun _ q hq => by cases hq)⟩)
  · intro y hy
    rw [Multiset.mem_singleton.1 hy]
    refine ⟨(hi.flight _ x.mem).1, ?_⟩
    rcases x.type with h | h <;> simp [cleared, h]
  · intro lh
    obtain ⟨hn, hw, hr⟩ := hpk lh
    refine (hi.task lh).of_eq (fun b => ?_) hn hw hr (ef.held_eq ha rfl lh)
      (ef.early_eq ha rfl lh) (ef.flag_eq fun _ => rfl) (by rw [x.cell]) (by rw [x.task])
    have h1 := ef.pend_eq rfl lh b
    have h2 : pendPkt lh b (Dst.host p.agent, cleared p) = pendPkt lh b (Dst.switch, p) := by
      rcases x.type with h | h
      · simp only [pendPkt, cleared, h]
        rfl
      · simp only [pendPkt, cleared, h]
    rw [inFlight_singleton, inFlight_singleton, h2] at h1
    omega
  · have := x.pushed
    simp only [pushedBack, decide_eq_true_eq] at this
    rw [← hold]
    exact this.1
  · rw [hnot]
    exact hk.excl hx
  · rw [x.cell, hnot]
    exact hk.count hsh

lemma AcquireShared.tokens (x : AcquireShared s s' p) : s'.tokens = s.tokens :=
  x.effect.moves.tokens_keep (filter_token_eq_zero (by simp [isToken, x.type]))
    (filter_token_eq_zero (by simp [isToken, x.type]))

lemma AcquireShared.notifs (x : AcquireShared s s' p) : s'.notifs = s.notifs + 1 := by
  have := x.effect.moves.notifs
  simpa [isNotif, x.type] using this

theorem AcquireShared.inv (x : AcquireShared s s' p) (hi : Inv lid s) : Inv lid s' := by
  obtain ⟨k, hk⟩ : ∃ k, Held s k := by
    rcases hi.token with hu | hk
    · exact absurd (hu.free.symm.trans x.taken) (by decide)
    · exact hk
  have hwq : p.wq = [] := by
    have := (hi.flight _ x.mem).2
    simpa [x.type] using this
  have ef := x.effect
  have ha : s'.cell.agent = s.cell.agent := by rw [x.cell]
  have hrw : s'.cell.rw = s.cell.rw := by rw [x.cell]
  refine hi.of_effect ef rfl (hi.wqueue _) (hi.flight_step ef.moves ha hrw ?_) ?_
    (.inr ⟨k, hk.at_agent ef (by rw [x.cell]) hrw ha (x.tokens.trans hk.tokens) hk.token
      hk.agent hk.mode (fun hx => ?_) (fun hsh => ?_) hk.counted⟩)
  · intro y hy
    rw [Multiset.insert_eq_cons, Multiset.mem_cons, Multiset.mem_singleton] at hy
    rcases hy with rfl | rfl
    · refine ⟨by simp [hwq], ?_⟩
      simp [x.type, hwq, x.mode, ha, hrw, x.rw]
    · exact ⟨by simp [cleared, hwq], hwq, rfl⟩
  · intro lh
    by_cases hne : lh = p.holder
    · subst hne
      have hone : pendPkt p.holder false (Dst.switch, p) = 1 := by
        simp [pendPkt, x.type, LockHdr.isFor, x.mode]
      obtain ⟨ht, h1, h2, h3, h4, h5, h6, h7, h8⟩ :=
        (hi.task p.holder).of_pend (hone ▸ Cluster.pendPkt_le p.holder false x.mem)
      rw [Bool.not_false] at h2
      have hp0 : s'.pend p.holder false = 0 := by
        have := ef.pend_eq rfl p.holder false
        simp only [inFlight_singleton, hone, h1] at this
        simpa [pendPkt, x.type, cleared] using this
      have hp1 : s'.pend p.holder true = 0 := by
        have := ef.pend_eq rfl p.holder true
        simpa [pendPkt, x.type, cleared, LockHdr.isFor, x.mode, h2] using this
      have hn : s'.notif p.holder = 1 := by
        have := ef.moves.notif p.holder
        rw [h5] at this
        simpa [notifPkt, isNotif, x.type, LockHdr.holder] using this
      have hw : s'.wo p.holder = 1 := by
        have := ef.moves.wo p.holder
        rw [h3] at this
        simpa [typedPkt, x.type, LockHdr.holder, cleared] using this
      have hr : s'.rel p.holder = 0 := by
        have := ef.moves.rel p.holder
        simpa [typedPkt, x.type, h7] using this
      refine ⟨?_, by rw [x.task]; exact (hi.task p.holder).valid⟩
      rw [x.task, ht, hp0, hp1, hn, hw, hr, ef.held_eq ha rfl, ef.early_eq ha rfl,
        ef.flag_eq fun _ => rfl, h4, h6, h8, hrw, x.rw]
      exact ⟨rfl, rfl, .inr ⟨rfl, rfl, rfl, rfl, rfl, fun h => by cases h⟩⟩
    · refine (hi.task lh).untouched ef ?_ ?_ (fun _ => rfl) (ef.held_eq ha rfl lh)
        (ef.early_eq ha rfl lh) (ef.flag_eq fun _ => rfl) hrw (by rw [x.task])
      · intro y hy
        rw [Multiset.mem_singleton.1 hy]
        exact silent_of_ne hne hwq
      · intro y hy
        rw [Multiset.insert_eq_cons, Multiset.mem_cons, Multiset.mem_singleton] at hy
        rcases hy with rfl | rfl
        · exact silent_of_ne hne hwq
        · exact silent_of_ne hne hwq
  · exact absurd (x.rw.symm.trans hx) (by decide)
  · rw [x.cell, x.notifs, BitVec.ofNat_add]
    change s.cell.ncnt + 1#8 = _
    rw [hk.count hsh]
    ac_rfl

end FissLock
