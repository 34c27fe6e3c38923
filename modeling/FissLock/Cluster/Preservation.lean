import FissLock.Cluster.Transitions

/-!
# Every transition keeps the invariant
-/

namespace FissLock

open Runs Tofino Accounting

variable {lid : LockId} {s s' : Cluster} {e : Event}

/-! ## Roles -/

lemma Quiet.of_same {l l' : InnetLock} (hs : SameRole l l') (hq : Quiet l') : Quiet l where
  isAgent := hs.isAgent.trans hq.isAgent
  mode := hs.mode.trans hq.mode
  ncnt := hs.ncnt.trans hq.ncnt
  holders := hs.holders.trans hq.holders
  early := by rw [hs.early]; exact hq.early

lemma filter_token_eq_zero {ms : Multiset Flight} (h : ∀ x ∈ ms, isToken x = false) :
    ms.filter (fun x => isToken x = true) = 0 := by
  rw [Multiset.filter_eq_nil]
  intro x hx
  simp [h x hx]

lemma inFlight_notif_eq_zero {ms : Multiset Flight} (h : ∀ x ∈ ms, isNotif x = false) :
    inFlight (fun x => (isNotif x).toNat) ms = 0 := by
  rw [Accounting.inFlight_eq_zero]
  intro x hx
  simp [h x hx]

/-- What `FlightOk` reads of the registers. -/
lemma FlightOk.congr {c c' : Cell} {x : Flight} (h : FlightOk c x) (ha : c'.agent = c.agent)
    (hrw : c'.rw = c.rw) : FlightOk c' x := by
  obtain ⟨d, p⟩ := x
  simpa only [FlightOk, ha, hrw] using h

lemma Token.Ok.congr {c c' : Cell} {k : Token} (h : k.Ok c) (ha : c'.agent = c.agent)
    (hrw : c'.rw = c.rw) : k.Ok c' := by
  cases k with
  | agent => trivial
  | grant p => simpa only [Token.Ok, ha, hrw] using h
  | out p => simpa only [Token.Ok, ha, hrw] using h
  | back p => simpa only [Token.Ok, ha, hrw] using h

/-- The state after a step that changes the agent's host and keeps the lock taken by the same agent
in the same mode.  `k'` is where the token is afterwards. -/
lemma Held.at_agent {k k' : Token} {used made : Multiset Flight} {l : InnetLock} (hk : Held s k)
    (ef : Effect s s' used made s.cell.agent l) (hf : s'.cell.free = s.cell.free)
    (hrw : s'.cell.rw = s.cell.rw) (ha : s'.cell.agent = s.cell.agent)
    (tokens : s'.tokens = k'.flights s.cell.agent) (token : k'.Ok s.cell)
    (agent : l.isAgent = k'.isAgent)
    (mode : l.mode = if k'.isAgent then LockState.ofBit s.cell.rw else .free)
    (excl : s.cell.rw = LOCK_EXCL → s'.notifs = 0
      ∧ (∀ lh ∈ l.holders, k'.isAgent = true ∧ lh.1 = s.cell.agent) ∧ l.holders.card ≤ 1
      ∧ (k'.isAgent = false → l.ncnt = 0))
    (count : s.cell.rw = LOCK_SHARED →
      s'.cell.ncnt = l.ncnt.setWidth 8 + k'.ncnt + BitVec.ofNat 8 s'.notifs)
    (counted : s.cell.rw = LOCK_SHARED → ∀ p, k' = .out p → l.ncnt = 0 → l.holders = ∅) :
    Held s' k' := by
  have hl : s'.agentHost = l := by rw [Cluster.agentHost, ha, ef.host_self]
  exact
    { acquired := hf.trans hk.acquired
      isHost := by rw [ha]; exact hk.isHost
      tokens := by rw [tokens, ha]
      token := token.congr ha hrw
      agent := by rw [hl, agent]
      mode := by rw [hl, mode, hrw]
      others := by
        intro h hne
        rw [ha] at hne
        rw [ef.host_ne hne]
        exact hk.others h hne
      excl := by rw [hrw, hl, ha]; exact excl
      count := by rw [hrw, hl]; exact count
      counted := by rw [hrw, hl]; exact counted }

namespace Inv

/-- Only the agent that the switch knows acts as the agent, and then the token is with it. -/
lemma held_agent (hi : Inv lid s) {h : HostId} (hag : (s.host h).isAgent = true) :
    h = s.cell.agent ∧ Held s .agent := by
  rcases hi.token with hu | ⟨k, hk⟩
  · rw [(hu.quiet h).isAgent] at hag
    cases hag
  · have hh : h = s.cell.agent := by
      by_contra hne
      rw [(hk.others h hne).isAgent] at hag
      cases hag
    subst hh
    refine ⟨rfl, ?_⟩
    have hka : k.isAgent = true := hk.agent.symm.trans hag
    cases k with
    | agent => exact hk
    | grant p => cases hka
    | out p => cases hka
    | back p => cases hka

/-- A token packet in flight is where the token is. -/
lemma held_of_token (hi : Inv lid s) {x : Flight} (hx : x ∈ s.flights) (ht : isToken x = true) :
    ∃ k, Held s k ∧ k.flights s.cell.agent = {x} := by
  have hm : x ∈ s.tokens := Multiset.mem_filter.2 ⟨hx, ht⟩
  rcases hi.token with hu | ⟨k, hk⟩
  · rw [hu.tokens] at hm
    exact absurd hm (Multiset.notMem_zero x)
  · rw [hk.tokens] at hm
    refine ⟨k, hk, ?_⟩
    cases k with
    | agent => exact absurd hm (Multiset.notMem_zero x)
    | grant p => rw [Multiset.mem_singleton.1 hm]; rfl
    | out p => rw [Multiset.mem_singleton.1 hm]; rfl
    | back p => rw [Multiset.mem_singleton.1 hm]; rfl

lemma held_out (hi : Inv lid s) {p : LockHdr} (hx : (Dst.switch, p) ∈ s.flights)
    (ht : p.type = .transfer ∨ p.type = .free) : Held s (.out p) := by
  obtain ⟨k, hk, hf⟩ := hi.held_of_token hx (by rcases ht with h | h <;> simp [isToken, h])
  cases k with
  | agent => exact absurd hf.symm (Multiset.singleton_ne_zero _)
  | grant q => simp [Token.flights] at hf
  | out q =>
      simp only [Token.flights, Multiset.singleton_inj, Prod.mk.injEq, true_and] at hf
      exact hf ▸ hk
  | back q => simp [Token.flights] at hf

lemma held_back (hi : Inv lid s) {h : HostId} {p : LockHdr} (hx : (Dst.host h, p) ∈ s.flights)
    (ht : p.type = .transfer ∨ p.type = .free) : h = s.cell.agent ∧ Held s (.back p) := by
  obtain ⟨k, hk, hf⟩ := hi.held_of_token hx (by rcases ht with h | h <;> simp [isToken, h])
  cases k with
  | agent => exact absurd hf.symm (Multiset.singleton_ne_zero _)
  | grant q =>
      simp only [Token.flights, Multiset.singleton_inj, Prod.mk.injEq] at hf
      have hty := hk.token.1
      rw [hf.2] at hty
      rcases ht with h | h <;> rw [h] at hty <;> cases hty
  | out q => simp [Token.flights] at hf
  | back q =>
      simp only [Token.flights, Multiset.singleton_inj, Prod.mk.injEq, Dst.host.injEq] at hf
      exact ⟨hf.1.symm, hf.2 ▸ hk⟩

lemma held_grant (hi : Inv lid s) {h : HostId} {p : LockHdr} (hx : (Dst.host h, p) ∈ s.flights)
    (ht : p.type = .grantWithAgent) : h = s.cell.agent ∧ Held s (.grant p) := by
  obtain ⟨k, hk, hf⟩ := hi.held_of_token hx (by simp [isToken, ht])
  cases k with
  | agent => exact absurd hf.symm (Multiset.singleton_ne_zero _)
  | grant q =>
      simp only [Token.flights, Multiset.singleton_inj, Prod.mk.injEq, Dst.host.injEq] at hf
      exact ⟨hf.1.symm, hf.2 ▸ hk⟩
  | out q => simp [Token.flights] at hf
  | back q =>
      simp only [Token.flights, Multiset.singleton_inj, Prod.mk.injEq] at hf
      have hty := hk.token.1
      rw [hf.2, ht] at hty
      rcases hty with h | h <;> cases h

/-- The invariant after a step, from its parts. -/
lemma of_effect (hi : Inv lid s) {used made : Multiset Flight} {h : HostId} {l : InnetLock}
    (ef : Effect s s' used made h l) (hid : l.id = (s.host h).id)
    (hwq : ∀ e ∈ l.wqueue, e.op = .shared ∨ e.op = .excl)
    (hfl : ∀ x ∈ s'.flights, FlightOk s'.cell x) (htask : ∀ lh, TaskOk s' lh)
    (htok : Unheld s' ∨ ∃ k, Held s' k) : Inv lid s' where
  id := ef.forall_host (P := fun _ l => l.id = lid) hi.id (hid.trans (hi.id h))
  wqueue := ef.forall_host (P := fun _ l => ∀ e ∈ l.wqueue, e.op = .shared ∨ e.op = .excl)
    hi.wqueue hwq
  flight := hfl
  task := htask
  token := htok

/-- Packets in flight stay legal when the agent and the mode stay and the new ones are legal. -/
lemma flight_step (hi : Inv lid s) {used made : Multiset Flight} (m : Moves s s' used made)
    (ha : s'.cell.agent = s.cell.agent) (hrw : s'.cell.rw = s.cell.rw)
    (hm : ∀ x ∈ made, FlightOk s'.cell x) : ∀ x ∈ s'.flights, FlightOk s'.cell x := by
  intro x hx
  rcases m.mem hx with h | h
  · exact hm x h
  · exact (hi.flight x h).congr ha hrw

end Inv

/-! ## Plain transitions -/

namespace Plain

variable {used made : Multiset Flight} {h : HostId} {l : InnetLock} {lh : LockHolder}

lemma tokens (x : Plain s e s' used made h l lh) : s'.tokens = s.tokens :=
  x.effect.moves.tokens_keep (filter_token_eq_zero fun y hy => (x.used y hy).token)
    (filter_token_eq_zero fun y hy => (x.made y hy).1.token)

lemma notifs (x : Plain s e s' used made h l lh) : s'.notifs = s.notifs := by
  have hm := x.effect.moves.notifs
  rw [inFlight_notif_eq_zero fun y hy => (x.used y hy).notif,
    inFlight_notif_eq_zero fun y hy => (x.made y hy).1.notif] at hm
  omega

lemma agentHost (x : Plain s e s' used made h l lh) : SameRole s'.agentHost s.agentHost := by
  have hc := x.cell.agent
  have hr := x.role
  exact ⟨x.effect.agentHost_field InnetLock.id hc hr.id,
    x.effect.agentHost_field InnetLock.isAgent hc hr.isAgent,
    x.effect.agentHost_field InnetLock.mode hc hr.mode,
    x.effect.agentHost_field InnetLock.ncnt hc hr.ncnt,
    x.effect.agentHost_field InnetLock.holders hc hr.holders,
    x.effect.agentHost_field InnetLock.earlyRelease hc hr.early,
    x.effect.agentHost_field InnetLock.delayedFree hc hr.delayedFree⟩

lemma quiet (x : Plain s e s' used made h l lh) {h' : HostId} (hq : Quiet (s.host h')) :
    Quiet (s'.host h') := by
  by_cases hh : h' = h
  · subst hh
    rw [x.effect.host_self]
    exact hq.of_same x.role
  · rw [x.effect.host_ne hh]
    exact hq

lemma unheld (x : Plain s e s' used made h l lh) (hu : Unheld s) : Unheld s' where
  free := x.cell.free.trans hu.free
  count := (x.cell.ncnt (.inl hu.free)).trans hu.count
  tokens := x.tokens.trans hu.tokens
  notifs := x.notifs.trans hu.notifs
  quiet h := x.quiet (hu.quiet h)

lemma held {k : Token} (x : Plain s e s' used made h l lh) (hk : Held s k) : Held s' k := by
  have hr := x.agentHost
  have hrw := x.cell.rw
  have ha := x.cell.agent
  refine
    { acquired := x.cell.free.trans hk.acquired
      isHost := by rw [ha]; exact hk.isHost
      tokens := by rw [x.tokens, hk.tokens, ha]
      token := ?_
      agent := hr.isAgent.trans hk.agent
      mode := by rw [hr.mode, hrw]; exact hk.mode
      others := fun h' hne => x.quiet (hk.others h' (ha ▸ hne))
      excl := ?_
      count := ?_
      counted := ?_ }
  · exact hk.token.congr ha hrw
  · rw [hrw, x.notifs, hr.holders, hr.ncnt, ha]
    exact hk.excl
  · intro hsh
    rw [hrw] at hsh
    rw [x.cell.ncnt (.inr hsh), hr.ncnt, x.notifs]
    exact hk.count hsh
  · rw [hrw, hr.ncnt, hr.holders]
    exact hk.counted

lemma countP_wqueue (x : Plain s e s' used made h l lh) {lh' : LockHolder} (hne : lh' ≠ lh)
    (b : Bool) :
    l.wqueue.countP (Wqe.isFor lh' b) = (s.host h).wqueue.countP (Wqe.isFor lh' b) := by
  rcases x.wqueue with hw | ⟨⟨op, -, hh, hw⟩, -⟩
  · rw [hw]
  · simp [hw, Wqe.isFor, hh, hne.symm]

/-- **A plain transition keeps the invariant.** -/
theorem inv (x : Plain s e s' used made h l lh) (hi : Inv lid s) : Inv lid s' := by
  refine hi.of_effect x.effect x.role.id ?_
    (hi.flight_step x.effect.moves x.cell.agent x.cell.rw fun y hy => (x.made y hy).2) ?_ ?_
  · rcases x.wqueue with hw | ⟨⟨op, hop, -, hw⟩, -⟩
    · rw [hw]
      exact hi.wqueue h
    · rw [hw]
      intro e he
      rcases List.mem_append.1 he with he | he
      · exact hi.wqueue h e he
      · rw [List.mem_singleton.1 he]
        exact hop
  · intro lh'
    by_cases hne : lh' = lh
    · rw [hne]
      exact x.self
    · refine (hi.task lh').untouched x.effect (fun y hy => ?_) (fun y hy => ?_)
        (x.countP_wqueue hne) (x.effect.held_eq x.cell.agent x.role.holders lh')
        (x.effect.early_eq x.cell.agent x.role.early lh')
        (x.effect.flag_eq fun hh => x.flag lh'.2 ?_) x.cell.rw (x.others lh' hne)
      · exact silent_of_ne (by rw [(x.used y hy).holder]; exact hne) (x.used y hy).wq
      · exact silent_of_ne (by rw [(x.made y hy).1.holder]; exact hne) (x.made y hy).1.wq
      · rw [← hh]
        exact hne
  · rcases hi.token with hu | ⟨k, hk⟩
    · exact .inl (x.unheld hu)
    · exact .inr ⟨k, x.held hk⟩

end Plain

/-! ## Client calls at the agent -/

namespace Effect

variable {used made : Multiset Flight} {l : InnetLock}

lemma agentHost_self (ef : Effect s s' used made s.cell.agent l)
    (ha : s'.cell.agent = s.cell.agent) : s'.agentHost = l := by
  rw [Cluster.agentHost, ha, ef.host_self]

lemma held_self (ef : Effect s s' used made s.cell.agent l) (ha : s'.cell.agent = s.cell.agent)
    (lh : LockHolder) : s'.held lh = if lh ∈ l.holders then 1 else 0 := by
  rw [Cluster.held, ef.agentHost_self ha]

lemma held_of_iff (ef : Effect s s' used made s.cell.agent l) (ha : s'.cell.agent = s.cell.agent)
    {lh : LockHolder} (h : lh ∈ l.holders ↔ lh ∈ s.agentHost.holders) :
    s'.held lh = s.held lh := by
  rw [ef.held_self ha, Cluster.held]
  exact if_congr h rfl rfl

lemma early_self (ef : Effect s s' used made s.cell.agent l) (ha : s'.cell.agent = s.cell.agent)
    (lh : LockHolder) : s'.early lh = (l.earlyRelease lh).toNat := by
  rw [Cluster.early, ef.agentHost_self ha]

end Effect

lemma LocalGrant.tokens {h : HostId} {t : TaskId} (x : LocalGrant s s' h t) :
    s'.tokens = s.tokens :=
  x.effect.moves.tokens_keep rfl rfl

theorem LocalGrant.inv {h : HostId} {t : TaskId} (x : LocalGrant s s' h t) (hi : Inv lid s) :
    Inv lid s' := by
  obtain ⟨rfl, hk⟩ := hi.held_agent x.isAgent
  have ef := x.effect
  have ha : s'.cell.agent = s.cell.agent := by rw [x.cell]
  have hrw : s.cell.rw = LOCK_SHARED := by
    have h1 := hk.mode
    rw [Cluster.agentHost, x.mode] at h1
    simpa [Token.isAgent] using h1.symm
  have hnot : s'.notifs = s.notifs := by simpa using ef.moves.notifs
  refine hi.of_effect ef rfl (hi.wqueue _)
    (hi.flight_step ef.moves ha (by rw [x.cell]) fun y hy => absurd hy (Multiset.notMem_zero y)) ?_
    (.inr ⟨.agent, hk.at_agent ef (by rw [x.cell]) (by rw [x.cell]) ha (x.tokens.trans hk.tokens)
      trivial x.isAgent hk.mode (fun hx => ?_) (fun hsh => ?_) (fun _ p hp => by cases hp)⟩)
  · intro lh
    by_cases hne : lh = (s.cell.agent, t)
    · subst hne
      have hc := (hi.task (s.cell.agent, t)).counts
      rw [x.idle] at hc
      obtain ⟨h1, h2, h3, h4, h5⟩ := hc
      have hE : s.early (s.cell.agent, t) = 0 := by
        have hn := x.notif
        have hr := x.rel
        omega
      have hp : ∀ b, s'.pend (s.cell.agent, t) b = s.pend (s.cell.agent, t) b := fun b => by
        simpa using ef.pend_eq rfl (s.cell.agent, t) b
      have hn : s'.notif (s.cell.agent, t) = 0 := by
        simpa [x.notif] using ef.moves.notif (s.cell.agent, t)
      have hw : s'.wo (s.cell.agent, t) = 0 := by simpa [h3] using ef.moves.wo (s.cell.agent, t)
      have hr : s'.rel (s.cell.agent, t) = 0 := by
        simpa [x.rel] using ef.moves.rel (s.cell.agent, t)
      have hh : s'.held (s.cell.agent, t) = 1 := by
        rw [ef.held_self ha]
        simp [lockAddHolder]
      have he : s'.early (s.cell.agent, t) = 0 := (ef.early_eq ha rfl _).trans hE
      have hf : s'.flag (s.cell.agent, t) = 0 := (ef.flag_eq fun _ => rfl).trans h4
      refine ⟨?_, fun _ => x.valid⟩
      rw [x.task, Function.update_self, hp, hp, hn, hw, hr, hh, he, hf, h1, h2, x.cell, hrw]
      exact ⟨rfl, rfl, rfl, rfl, rfl, rfl, rfl, rfl⟩
    · refine (hi.task lh).untouched ef (fun y hy => absurd hy (Multiset.notMem_zero y))
        (fun y hy => absurd hy (Multiset.notMem_zero y)) (fun _ => rfl) ?_
        (ef.early_eq ha rfl lh) (ef.flag_eq fun _ => rfl) (by rw [x.cell])
        (by rw [x.task, Function.update_of_ne hne])
      exact ef.held_of_iff ha (by simp [lockAddHolder, hne, Cluster.agentHost])
  · rw [hrw] at hx
    cases hx
  · rw [x.cell, hnot]
    exact hk.count hsh

namespace ReleaseSource

variable {lh : LockHolder} {used : Multiset Flight}

/-- Only the packet of the task itself, if any, is consumed. -/
lemma pkt (x : ReleaseSource s s' lh used) : ∀ y ∈ used, PlainPkt lh y ∧ y.2.type = .release := by
  cases x with
  | call _ _ _ => simp
  | packet ht hh hw _ _ =>
      intro y hy
      rw [Multiset.mem_singleton.1 hy]
      exact ⟨⟨by simp [isToken, ht], by simp [isNotif, ht], hh, hw⟩, ht⟩

/-- The releasing task is known to the agent once, and nothing else of it is under way. -/
lemma before (x : ReleaseSource s s' lh used) (hi : Inv lid s) :
    s.notif lh + s.held lh = 1 ∧ s.early lh = 0 ∧ (∀ b, s.pend lh b = 0) ∧ s.wo lh = 0
      ∧ s.flag lh = 0 ∧ s.rel lh = inFlight (typedPkt .release lh) used := by
  cases x with
  | call hold _ _ =>
      have hc := (hi.task lh).counts
      rw [hold] at hc
      obtain ⟨hR, hE, h1, h2, hW, hF, hNH, -⟩ := hc
      exact ⟨hNH, hE, Bool.forall_bool.2 ⟨h1, h2⟩, hW, hF, by simpa using hR⟩
  | @packet p ht hh _ hm _ =>
      have hone : typedPkt .release lh (Dst.host s.cell.agent, p) = 1 := by
        simp [typedPkt, ht, hh]
      have hr : 1 ≤ s.rel lh := hone ▸ Cluster.rel_le lh hm
      obtain ⟨-, hR, hNH, hE, -, hp, hW, hF⟩ := (hi.task lh).of_rel hr
      refine ⟨hNH, hE, hp, hW, hF, ?_⟩
      rw [hR, inFlight_singleton, hone]

lemma task_self (x : ReleaseSource s s' lh used) (hi : Inv lid s) : s'.task lh = .idle := by
  cases x with
  | call _ _ ht => rw [ht, Function.update_self]
  | @packet p ht hh _ hm htask =>
      have hone : typedPkt .release lh (Dst.host s.cell.agent, p) = 1 := by
        simp [typedPkt, ht, hh]
      have hr : 1 ≤ s.rel lh := hone ▸ Cluster.rel_le lh hm
      rw [htask]
      exact ((hi.task lh).of_rel hr).1

lemma task_ne (x : ReleaseSource s s' lh used) {lh' : LockHolder} (hne : lh' ≠ lh) :
    s'.task lh' = s.task lh' := by
  cases x with
  | call _ _ ht => rw [ht, Function.update_of_ne hne]
  | packet _ _ _ _ ht => rw [ht]

end ReleaseSource

lemma Drop.tokens {lh : LockHolder} (x : Drop s s' lh) : s'.tokens = s.tokens := by
  obtain ⟨used, hs, er, lc, src, ef, -⟩ := x.effect
  exact ef.moves.tokens_keep (filter_token_eq_zero fun y hy => (src.pkt y hy).1.token) rfl

theorem Drop.inv {lh : LockHolder} (x : Drop s s' lh) (hi : Inv lid s) : Inv lid s' := by
  have hk : Held s .agent := (hi.held_agent x.isAgent).2
  obtain ⟨used, hs, er, lc, src, ef, hcase⟩ := x.effect
  have ha : s'.cell.agent = s.cell.agent := by rw [x.cell]
  have hsub : hs ⊆ s.agentHost.holders := by
    rcases hcase with ⟨-, rfl, -⟩ | ⟨-, rfl, -⟩
    · exact Finset.erase_subset _ _
    · exact subset_rfl
  have hnot : s'.notifs = s.notifs := by
    simpa [inFlight_notif_eq_zero fun y hy => (src.pkt y hy).1.notif] using ef.moves.notifs
  refine hi.of_effect ef rfl (hi.wqueue _)
    (hi.flight_step ef.moves ha (by rw [x.cell]) fun y hy => absurd hy (Multiset.notMem_zero y)) ?_
    (.inr ⟨.agent, hk.at_agent ef (by rw [x.cell]) (by rw [x.cell]) ha (x.tokens.trans hk.tokens)
      trivial x.isAgent hk.mode (fun hx => ?_) (fun hsh => ?_) (fun _ p hp => by cases hp)⟩)
  · intro lh'
    by_cases hne : lh' = lh
    · subst hne
      obtain ⟨hNH, hE, hp, hW, hF, hR⟩ := src.before hi
      have hsil : inFlight (notifPkt lh') used = 0 ∧ inFlight (typedPkt .grantWoAgent lh') used = 0
          ∧ ∀ b, inFlight (pendPkt lh' b) used = 0 := by
        refine ⟨Accounting.inFlight_eq_zero.2 fun y hy => ?_,
          Accounting.inFlight_eq_zero.2 fun y hy => ?_,
          fun b => Accounting.inFlight_eq_zero.2 fun y hy => ?_⟩
        · simp [notifPkt, (src.pkt y hy).1.notif]
        · simp [typedPkt, (src.pkt y hy).2]
        · obtain ⟨d, q⟩ := y
          have := (src.pkt _ hy).2
          cases d <;> simp_all [pendPkt]
      have hp' : ∀ b, s'.pend lh' b = 0 := fun b => by
        simpa [hsil.2.2, hp] using ef.pend_eq rfl lh' b
      have hn' : s'.notif lh' = s.notif lh' := by simpa [hsil.1] using ef.moves.notif lh'
      have hw' : s'.wo lh' = 0 := by simpa [hsil.2.1, hW] using ef.moves.wo lh'
      have hr' : s'.rel lh' = 0 := by simpa [hR] using ef.moves.rel lh'
      have hf' : s'.flag lh' = 0 := (ef.flag_eq fun _ => rfl).trans hF
      refine ⟨?_, fun hx => absurd (src.task_self hi) hx⟩
      rw [src.task_self hi, hp', hp', hn', hw', hr', hf', ef.held_self ha, ef.early_self ha]
      refine ⟨rfl, rfl, rfl, rfl, .inr ⟨rfl, ?_⟩⟩
      rcases hcase with ⟨hmem, rfl, rfl⟩ | ⟨hmem, rfl, rfl⟩
      · have hH : s.held lh' = 1 := if_pos hmem
        have hN : s.notif lh' = 0 := by omega
        exact ⟨if_neg (Finset.notMem_erase _ _), hN.trans hE.symm⟩
      · have hH : s.held lh' = 0 := if_neg hmem
        have hN : s.notif lh' = 1 := by omega
        refine ⟨if_neg hmem, ?_⟩
        simp [dropped, hN]
    · refine (hi.task lh').untouched ef
        (fun y hy => silent_of_ne (by rw [(src.pkt y hy).1.holder]; exact hne)
          (src.pkt y hy).1.wq)
        (fun y hy => absurd hy (Multiset.notMem_zero y)) (fun _ => rfl) ?_ ?_
        (ef.flag_eq fun _ => rfl) (by rw [x.cell]) (src.task_ne hne)
      · refine ef.held_of_iff ha ?_
        rcases hcase with ⟨-, rfl, -⟩ | ⟨-, rfl, -⟩
        · simp [dropped, hne]
        · rfl
      · rw [ef.early_self ha, Cluster.early]
        rcases hcase with ⟨-, -, rfl⟩ | ⟨-, -, rfl⟩
        · rfl
        · simp [dropped, hne]
  · obtain ⟨h1, h2, h3, h4⟩ := hk.excl hx
    rw [hnot]
    exact ⟨h1, fun lh hlh => h2 lh (hsub hlh), (Finset.card_le_card hsub).trans h3, h4⟩
  · rw [x.cell, hnot]
    exact hk.count hsh

/-! ## Handing the lock over -/

/-- A packet that carries the token counts for pending requests only. -/
lemma isToken.silent {x : Flight} (hx : isToken x = true) (lh : LockHolder) :
    notifPkt lh x = 0 ∧ typedPkt .grantWoAgent lh x = 0 ∧ typedPkt .release lh x = 0
      ∧ isNotif x = false := by
  obtain ⟨d, p⟩ := x
  cases ht : p.type <;> simp_all [isToken, notifPkt, isNotif, typedPkt]

/-- One token packet takes the place of another, or appears, or disappears. -/
lemma silent_of_tokens {used made : Multiset Flight} (m : Moves s s' used made)
    (hu : ∀ x ∈ used, isToken x = true) (hm : ∀ x ∈ made, isToken x = true) :
    s'.notifs = s.notifs ∧ ∀ lh, s'.notif lh = s.notif lh ∧ s'.wo lh = s.wo lh
      ∧ s'.rel lh = s.rel lh := by
  have h1 : ∀ {ms : Multiset Flight}, (∀ x ∈ ms, isToken x = true) →
      inFlight (fun x => (isNotif x).toNat) ms = 0 ∧ ∀ lh, inFlight (notifPkt lh) ms = 0
        ∧ inFlight (typedPkt .grantWoAgent lh) ms = 0
        ∧ inFlight (typedPkt .release lh) ms = 0 := fun h =>
    ⟨inFlight_notif_eq_zero fun x hx => (isToken.silent (h x hx) (0, 0)).2.2.2, fun lh =>
      ⟨Accounting.inFlight_eq_zero.2 fun x hx => (isToken.silent (h x hx) lh).1,
        Accounting.inFlight_eq_zero.2 fun x hx => (isToken.silent (h x hx) lh).2.1,
        Accounting.inFlight_eq_zero.2 fun x hx => (isToken.silent (h x hx) lh).2.2.1⟩⟩
  obtain ⟨un, uc⟩ := h1 hu
  obtain ⟨mn, mc⟩ := h1 hm
  refine ⟨by have := m.notifs; omega, fun lh => ?_⟩
  obtain ⟨u1, u2, u3⟩ := uc lh
  obtain ⟨m1, m2, m3⟩ := mc lh
  have hn := m.notif lh
  have hw := m.wo lh
  have hr := m.rel lh
  exact ⟨by omega, by omega, by omega⟩

namespace HandOverPkt

variable {a : HostId} {l : InnetLock} {p : LockHdr}

lemma type (x : HandOverPkt a l p) : p.type = .transfer ∨ p.type = .free := by
  rcases x.body with ⟨-, h, -⟩ | ⟨e, rest, -, h, -⟩
  · exact .inr h
  · exact .inl h

lemma isToken (x : HandOverPkt a l p) (d : Dst) : isToken (d, p) = true := by
  rcases x.type with h | h <;> simp [FissLock.isToken, h]

/-- The packet takes over the whole wait queue. -/
lemma pendPkt (x : HandOverPkt a l p) (lh : LockHolder) (b : Bool) :
    pendPkt lh b (Dst.switch, p) = l.wqueue.countP (Wqe.isFor lh b) := by
  rcases x.body with ⟨hw, ht, -⟩ | ⟨e, rest, hw, ht, hh, hm, hwq⟩
  · simp [FissLock.pendPkt, ht, hw]
  · simp [FissLock.pendPkt, ht, hw, hwq, LockHdr.isFor, Wqe.isFor, hh, hm, List.countP_cons,
      Bool.toNat, Bool.cond_eq_ite, add_comm]

lemma wq (x : HandOverPkt a l p) : ∀ e ∈ p.wq, e ∈ l.wqueue := by
  rcases x.body with ⟨-, -, hq⟩ | ⟨e, rest, hw, -, -, -, hq⟩
  · simp [hq]
  · rw [hq, hw]
    exact fun e' he => List.mem_cons_of_mem _ he

end HandOverPkt

theorem HandOver.inv {p : LockHdr} (x : HandOver s s' p) (hi : Inv lid s) : Inv lid s' := by
  have hk : Held s .agent := (hi.held_agent x.isAgent).2
  have ef := x.effect
  have ha : s'.cell.agent = s.cell.agent := by rw [x.cell]
  have hmode : s.agentHost.mode = LockState.ofBit s.cell.rw := hk.mode
  obtain ⟨hnot, hpk⟩ := silent_of_tokens ef.moves (by simp) (by simpa using x.pkt.isToken _)
  have htok : s'.tokens = {(Dst.switch, p)} := by
    rw [ef.moves.tokens_replace hk.tokens, Multiset.filter_singleton, if_pos (x.pkt.isToken _)]
  refine hi.of_effect ef rfl (by simp [handedOver])
    (hi.flight_step ef.moves ha (by rw [x.cell]) ?_) ?_
    (.inr ⟨.out p, hk.at_agent ef (by rw [x.cell]) (by rw [x.cell]) ha htok
      ⟨x.pkt.type, x.pkt.agent, ?_⟩ rfl rfl (fun hx => ?_) (fun hsh => ?_)
      (fun _ _ _ _ => x.holders)⟩)
  · intro y hy
    rw [Multiset.mem_singleton.1 hy]
    refine ⟨fun e he => hi.wqueue _ e (x.pkt.wq e he), ?_⟩
    rcases x.pkt.type with h | h <;> simp [h]
  · intro lh
    obtain ⟨hn, hw, hr⟩ := hpk lh
    refine (hi.task lh).of_eq (fun b => ?_) hn hw hr (ef.held_eq ha rfl lh)
      (ef.early_eq ha rfl lh) (ef.flag_eq fun _ => rfl) (by rw [x.cell]) (by rw [x.task])
    have h1 := ef.moves.pend ef.host lh b
    have h2 : s.agentHost.wqueue = (s.host s.cell.agent).wqueue := rfl
    rw [inFlight_zero, inFlight_singleton, x.pkt.pendPkt, h2] at h1
    simp only [handedOver, List.countP_nil] at h1
    omega
  · rw [x.pkt.oldMode, hmode, LockState.bit_ofBit]
  · obtain ⟨h1, -, -, -⟩ := hk.excl hx
    simp [handedOver, x.holders, hnot, h1]
  · have := hk.count hsh
    rw [x.cell, hnot, this, Token.ncnt, Token.ncnt, x.pkt.ncnt]
    simp [handedOver]

end FissLock
