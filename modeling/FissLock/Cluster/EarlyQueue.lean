import FissLock.Cluster.Rejection

/-!
# Queueing ahead of time

A host that is not the agent sends an exclusive request back to the switch, and when it has done so
three times it puts the request into its wait queue: "there should be a delayed grant with agent
packet".  The count is all it knows.  If its own `FREE` or `TRANSFER` is the packet that is late,
the switch will accept that one, and nobody will ever look at the queue again.

`QueuesInTime` asks for what the host hopes: the agency is on its way to it, or a hand-over of its
own is on its way that the switch has rejected or will reject.  `Attended` is the invariant that
then holds, and `Held.rejected` says that a hand-over that does not account for all grants is
rejected whenever it arrives.

The count is kept per host, and only for exclusive requests.  `Observed` records which hosts have
sent the request of a task back since its last `lock_acquire_async`.
-/

namespace FissLock

open Runs Tofino Accounting

variable {lid : LockId} {s s' : Cluster} {e : Event} {p : LockHdr}

/-! ## Hand-overs that will be rejected -/

namespace Cluster

/-- The grants of the current agency that a hand-over of host `h` does not account for. -/
def unaccounted (s : Cluster) (h : HostId) : ℕ := (s.host h).ncnt.toNat + s.notifs

/-- However the run goes on, as long as `p` is on its way: when it arrives, the switch rejects
it. -/
def WillReject (ok : Cluster → Event → Prop) (s : Cluster) (p : LockHdr) : Prop :=
  ∀ s₁, Reach step (fun s e => ok s e ∧ ∀ s', s.step e = some s' → (Dst.switch, p) ∈ s'.net) s s₁ →
    ∀ e, ok s₁ e → s₁.delivered e = some (.switch, p) → pushedBack s₁.cell p = true

end Cluster

/-- The token is in one place. -/
lemma Held.eq_out {k : Token} (hk : Held s k) (ho : Held s (.out p)) : k = .out p := by
  have ht := hk.tokens.symm.trans ho.tokens
  have ha := hk.agent.symm.trans ho.agent
  cases k with
  | agent => cases ha
  | grant q => simp [Token.flights] at ht
  | back q => simp [Token.flights] at ht
  | out q =>
      simp only [Token.flights, Multiset.singleton_inj, Prod.mk.injEq, true_and] at ht
      rw [ht]

/-- What was in flight is counted now. -/
lemma Notification.unaccounted (x : Notification s e s' p) :
    s'.agentHost.ncnt.toNat + s'.notifs = s.agentHost.ncnt.toNat + s.notifs := by
  have hadd : (s.agentHost.ncnt + 1).toNat = s.agentHost.ncnt.toNat + 1 := by
    rw [BitVec.toNat_add]
    exact Nat.mod_eq_of_lt x.room
  have hn := x.notifs
  rw [x.effect.agentHost_self (by rw [x.cell]), notified_ncnt, hadd]
  omega

lemma DelayedRelease.unaccounted (x : DelayedRelease s s' p) :
    s'.agentHost.ncnt.toNat + s'.notifs = s.agentHost.ncnt.toNat + s.notifs := by
  have hn := x.effect.moves.notifs
  simp only [inFlight_singleton, inFlight_zero, isNotif, x.type, Bool.toNat_false, add_zero] at hn
  rw [x.effect.agentHost_self (by rw [x.cell]), hn]
  rfl

/-- While a hand-over is on its way, what it does not account for does not become less. -/
lemma Change.unaccounted_pos (x : Change s e s') (hi : Inv lid s) (ho : Held s (.out p))
    (ho' : Held s' (.out p)) (hpos : 0 < s.agentHost.ncnt.toNat + s.notifs) :
    0 < s'.agentHost.ncnt.toNat + s'.notifs := by
  have hi' := x.inv hi
  have hno : s.agentHost.isAgent = false := ho.agent
  cases x with
  | plain x => rwa [x.agentHost.ncnt, x.notifs]
  | @localGrant h t x =>
      obtain ⟨rfl, hk⟩ := hi.held_agent x.isAgent
      cases hk.eq_out ho
  | drop x _ => cases hno.symm.trans x.isAgent
  | dropAndHandOver x _ => cases hno.symm.trans x.isAgent
  | acquireFree x => cases ho.acquired.symm.trans x.free
  | acquireShared x =>
      rw [x.notifs]
      omega
  | pushBack x => cases (x.held hi').eq_out ho'
  | acceptTransfer x =>
      obtain ⟨q, hq⟩ := x.held hi'
      cases hq.eq_out ho'
  | acceptFree x => cases ho'.acquired.symm.trans (x.unheld hi').free
  | notification x => rwa [x.unaccounted]
  | delayedRelease x => rwa [x.unaccounted]
  | resend x => cases (hi.held_back x.mem x.type).2.eq_out ho
  | restore x => cases (hi.held_back x.mem x.type).2.eq_out ho
  | takeOver x => cases (hi.held_grant x.mem x.type).2.eq_out ho

/-- A hand-over that does not account for all grants is pushed back, unless the counter has run
full. -/
lemma Held.pushedBack (ho : Held s (.out p)) (hpos : 0 < s.agentHost.ncnt.toNat + s.notifs)
    (hroom : p.oldMode = LOCK_SHARED → s.agentHost.ncnt.toNat + s.notifs < 256) :
    pushedBack s.cell p = true := by
  obtain ⟨-, -, hold⟩ := ho.token
  cases hrw : s.cell.rw with
  | true =>
      obtain ⟨hn, -, -, hc⟩ := ho.excl hrw
      rw [hc rfl, hn] at hpos
      cases hpos
  | false =>
      have hsh : p.oldMode = LOCK_SHARED := hold.trans hrw
      have hlt := hroom hsh
      have hcount := congrArg BitVec.toNat (ho.count hrw)
      simp only [Tofino.pushedBack, decide_eq_true_eq]
      refine ⟨hsh, fun heq => ?_⟩
      rw [heq] at hcount
      simp only [Token.ncnt, BitVec.toNat_add, BitVec.toNat_setWidth, BitVec.toNat_ofNat] at hcount
      omega

/-- **A hand-over that does not account for all grants will be rejected.** -/
lemma Held.rejected (hlid : lid.toNat < SWITCH_LOCK_NUM) (hi : Inv lid s) (ho : Held s (.out p))
    (hpos : 0 < s.unaccounted p.agent) : s.WillReject Guarded p := by
  have hagent : p.agent = s.cell.agent := ho.token.2.1
  rw [Cluster.unaccounted, hagent] at hpos
  intro s₁ hreach e hok hd
  have hinv : Inv lid s₁ ∧ Held s₁ (.out p) ∧ 0 < s₁.agentHost.ncnt.toNat + s₁.notifs := by
    refine Reach.invariant (I := fun s => Inv lid s ∧ Held s (.out p)
      ∧ 0 < s.agentHost.ncnt.toNat + s.notifs) ⟨hi, ho, hpos⟩ ?_ hreach
    rintro s e s' ⟨hi, ho, hpos⟩ ⟨hg, hstay⟩ hs
    have x := step_change hlid hi hg hs
    have ho' := (x.inv hi).held_out (Multiset.mem_coe.2 (hstay s' hs)) ho.token.1
    exact ⟨x.inv hi, ho', x.unaccounted_pos hi ho ho' hpos⟩
  obtain ⟨-, ho₁, hpos₁⟩ := hinv
  refine ho₁.pushedBack hpos₁ fun hsh => ?_
  simp only [Guarded, hd] at hok
  have hroom := hok ho.token.1 hsh
  rwa [ho₁.token.2.1] at hroom

/-! ## Requests wait where somebody will see them, or hope so -/

namespace Cluster

/-- The agency is on its way to the host, or a hand-over of its own that the switch has rejected or
will reject. -/
def awaits (s : Cluster) (h : HostId) : Prop :=
  ∃ x ∈ s.net, x.1 = .host h ∧ isToken x = true
    ∨ x.1 = .switch ∧ (x.2.type = .transfer ∨ x.2.type = .free) ∧ x.2.agent = h
      ∧ 0 < s.unaccounted h

instance (s : Cluster) (h : HostId) : Decidable (s.awaits h) :=
  inferInstanceAs (Decidable (∃ x ∈ s.net, _))

lemma awaits_of_host {h : HostId} (hx : (Dst.host h, p) ∈ s.flights)
    (ht : isToken (Dst.host h, p) = true) : s.awaits h :=
  ⟨_, hx, .inl ⟨rfl, ht⟩⟩

lemma awaits_of_granting {h : HostId} (hg : s.granting h) : s.awaits h := by
  obtain ⟨p, ht, hp⟩ := hg
  exact awaits_of_host hp (by simp [isToken, ht])

/-- A step that leaves the token alone. -/
lemma awaits_of_tokens {h : HostId} (ht : s'.tokens = s.tokens)
    (hpos : 0 < s.unaccounted h → 0 < s'.unaccounted h) (ha : s.awaits h) : s'.awaits h := by
  obtain ⟨x, hx, hcase⟩ := ha
  have htok : isToken x = true := by
    rcases hcase with ⟨-, h⟩ | ⟨-, h | h, -⟩
    · exact h
    · simp [isToken, h]
    · simp [isToken, h]
  have hmem : x ∈ s'.tokens := by
    rw [ht]
    exact Multiset.mem_filter.2 ⟨hx, htok⟩
  exact ⟨x, (Multiset.mem_filter.1 hmem).1, hcase.imp id fun h => ⟨h.1, h.2.1, h.2.2.1, hpos h.2.2.2⟩⟩

end Cluster

/-- A request that has been bounced three times is queued elsewhere than at the agent only if the
host has something to wait for. -/
def QueuesInTime (s : Cluster) (e : Event) : Prop :=
  match s.delivered e with
  | some (.host h, p) =>
      p.type = .acquire → p.mode = LOCK_EXCL → (s.host h).isAgent = false →
        2 < (s.host h).fwdBackCnt p.holder → s.awaits h
  | _ => True

/-- A packet is sent again by a host with waiters only if the switch will reject it again. -/
def ResendsInVain (s : Cluster) (e : Event) : Prop :=
  match s.delivered e with
  | some (.host h, p) => p.type = .transfer ∨ p.type = .free →
      (s.host h).delayedFree = true → (s.host h).holders = ∅ →
        (s.host h).wqueue = [] ∨ 0 < s.notifs
  | _ => True

instance (s : Cluster) (e : Event) : Decidable (QueuesInTime s e) :=
  match h : s.delivered e with
  | some (.host h', p) => decidable_of_iff
      (p.type = .acquire → p.mode = LOCK_EXCL → (s.host h').isAgent = false →
        2 < (s.host h').fwdBackCnt p.holder → s.awaits h')
      (by simp only [QueuesInTime, h])
  | some (.switch, p) => isTrue (by simp only [QueuesInTime, h])
  | none => isTrue (by simp only [QueuesInTime, h])

instance (s : Cluster) (e : Event) : Decidable (ResendsInVain s e) :=
  match h : s.delivered e with
  | some (.host h', p) => decidable_of_iff
      (p.type = .transfer ∨ p.type = .free →
        (s.host h').delayedFree = true → (s.host h').holders = ∅ →
          (s.host h').wqueue = [] ∨ 0 < s.notifs)
      (by simp only [ResendsInVain, h])
  | some (.switch, p) => isTrue (by simp only [ResendsInVain, h])
  | none => isTrue (by simp only [ResendsInVain, h])

/-- Wait queues are found at the agent and at hosts that have something to wait for. -/
def Attended (s : Cluster) : Prop :=
  ∀ h, (s.host h).wqueue ≠ [] → (s.host h).isAgent = true ∨ s.awaits h

namespace Attended

/-- Only the agent's host can have a wait queue. -/
lemma eq_agent (ha : Attended s) (hi : Inv lid s) {h : HostId} (hw : (s.host h).wqueue ≠ []) :
    h = s.cell.agent := by
  rcases ha h hw with hag | ⟨⟨d, q⟩, hx, ⟨rfl, ht⟩ | ⟨rfl, ht, rfl, -⟩⟩
  · exact (hi.held_agent hag).1
  · cases hq : q.type with
    | grantWithAgent => exact (hi.held_grant hx hq).1
    | transfer => exact (hi.held_back hx (.inl hq)).1
    | free => exact (hi.held_back hx (.inr hq)).1
    | acquire => simp [isToken, hq] at ht
    | grantWoAgent => simp [isToken, hq] at ht
    | release => simp [isToken, hq] at ht
    | other b => simp [isToken, hq] at ht
  · exact (hi.held_out hx ht).token.2.1

/-- After a step that changes the agent's host, only this one is to be looked at. -/
lemma of_agent_step (ha : Attended s) (hi : Inv lid s) {used made : Multiset Flight} {l : InnetLock}
    (ef : Effect s s' used made s.cell.agent l)
    (hl : l.wqueue ≠ [] → l.isAgent = true ∨ s'.awaits s.cell.agent) : Attended s' := by
  intro h hw
  by_cases hh : h = s.cell.agent
  · subst hh
    rw [ef.host_self] at hw ⊢
    exact hl hw
  · rw [ef.host_ne hh] at hw
    exact absurd (ha.eq_agent hi hw) hh

/-- A free lock has no waiters. -/
lemma of_unheld (ha : Attended s) (hu : Unheld s) (h : HostId) : (s.host h).wqueue = [] := by
  by_contra hw
  have hnone : ∀ x ∈ s.net, isToken x = true → False := by
    intro x hx ht
    have hmem : x ∈ s.tokens := Multiset.mem_filter.2 ⟨hx, ht⟩
    rw [hu.tokens] at hmem
    exact Multiset.notMem_zero x hmem
  rcases ha h hw with hag | ⟨x, hx, ⟨-, ht⟩ | ⟨-, ht, -⟩⟩
  · cases (hu.quiet h).isAgent.symm.trans hag
  · exact hnone x hx ht
  · exact hnone x hx (isToken_of_handOver ht x.1)

/-- A hand-over that the switch accepts leaves no waiters behind. -/
lemma of_accepted (ha : Attended s) (hi : Inv lid s) (ho : Held s (.out p))
    (hacc : pushedBack s.cell p = false)
    (hroom : p.oldMode = LOCK_SHARED → (s.host p.agent).ncnt.toNat + s.notifs < 256) (h : HostId) :
    (s.host h).wqueue = [] := by
  by_contra hw
  obtain rfl := ha.eq_agent hi hw
  rcases ha _ hw with hag | ⟨⟨d, q⟩, hx, ⟨rfl, ht⟩ | ⟨-, -, -, hpos⟩⟩
  · cases (hi.held_agent hag).2.eq_out ho
  · have hmem : (Dst.host s.cell.agent, q) ∈ s.tokens := Multiset.mem_filter.2 ⟨hx, ht⟩
    rw [ho.tokens] at hmem
    simp [Token.flights] at hmem
  · rw [ho.token.2.1] at hroom
    cases hacc.symm.trans (ho.pushedBack hpos hroom)

end Attended

lemma Plain.attended {used made : Multiset Flight} {h : HostId} {l : InnetLock} {lh : LockHolder}
    (x : Plain s e s' used made h l lh) (hs : s.step e = some s') (hq : QueuesInTime s e)
    (ha : Attended s) : Attended s' := by
  have hncnt : ∀ h', (s'.host h').ncnt = (s.host h').ncnt :=
    x.effect.forall_host (P := fun h' l => l.ncnt = (s.host h').ncnt) (fun _ => rfl) x.role.ncnt
  have haw : ∀ {h'}, s.awaits h' → s'.awaits h' := fun {h'} =>
    Cluster.awaits_of_tokens x.tokens fun hpos => by
      rwa [Cluster.unaccounted, hncnt, x.notifs]
  intro h' hw
  by_cases hh : h' = h
  · subst hh
    rw [x.effect.host_self] at hw ⊢
    rw [x.role.isAgent]
    rcases x.wqueue with hsame | ⟨⟨op, -, -, happ⟩, hwhy⟩
    · rw [hsame] at hw
      exact (ha h' hw).imp id haw
    · by_cases hkw : KeepsWaiters s e
      · exact (hwhy hkw).imp id fun hg => haw (Cluster.awaits_of_granting hg)
      · -- queued ahead of time, without a grant on its way
        right
        rw [KeepsWaiters] at hkw
        split at hkw
        · next h₁ p hd =>
            simp only [QueuesInTime, hd] at hq
            push Not at hkw
            obtain ⟨ht, hm, hag, hcnt, -⟩ := hkw
            obtain rfl : h' = h₁ := by
              by_contra hne
              obtain ⟨rest, -, rfl⟩ := Cluster.step_host hs hd
              have hl : s.host h' = l := by
                rw [← x.effect.host_self]
                exact (Function.update_of_ne hne _ _).symm
              rw [← hl] at happ
              simp at happ
            exact haw (hq ht hm hag hcnt)
        · exact absurd trivial hkw
  · rw [x.effect.host_ne hh] at hw ⊢
    exact (ha h' hw).imp id haw

/-- **A step that queues in time and does not resend past waiters keeps them in sight.** -/
theorem Change.attended (x : Change s e s') (hi : Inv lid s) (hs : s.step e = some s')
    (hq : QueuesInTime s e) (hr : ResendsInVain s e) (ha : Attended s) : Attended s' := by
  have hi' := x.inv hi
  cases x with
  | plain x => exact x.attended hs hq ha
  | @localGrant h t x =>
      obtain ⟨rfl, -⟩ := hi.held_agent x.isAgent
      exact ha.of_agent_step hi x.effect fun _ => .inl x.isAgent
  | drop x _ =>
      obtain ⟨used, hs, er, lc, -, ef, -⟩ := x.effect
      exact ha.of_agent_step hi ef fun _ => .inl x.isAgent
  | dropAndHandOver x y =>
      obtain ⟨used, hs, er, lc, -, ef, -⟩ := x.effect
      have hm : Attended _ := ha.of_agent_step hi ef fun _ => .inl x.isAgent
      exact hm.of_agent_step (x.inv hi) y.effect fun hw => absurd rfl hw
  | acquireFree x =>
      rcases hi.token with hu | ⟨k, hk⟩
      · intro h hw
        rw [x.host] at hw
        exact absurd (ha.of_unheld hu h) hw
      · cases hk.acquired.symm.trans x.free
  | acquireShared x =>
      intro h hw
      rw [x.host] at hw ⊢
      refine (ha h hw).imp id (Cluster.awaits_of_tokens x.tokens fun _ => ?_)
      rw [Cluster.unaccounted, x.notifs]
      omega
  | pushBack x =>
      have ho := hi.held_out x.mem x.type
      refine ha.of_agent_step hi x.effect fun _ => .inr ?_
      have hback := x.effect.moves.mem_made (Multiset.mem_singleton_self _)
      rw [ho.token.2.1] at hback
      refine Cluster.awaits_of_host hback ?_
      rcases x.type with h | h <;> simp [isToken, cleared, h]
  | acceptTransfer x =>
      intro h hw
      rw [x.host] at hw
      exact absurd (ha.of_accepted hi (hi.held_out x.mem (.inl x.type)) x.accepted x.room h) hw
  | acceptFree x =>
      intro h hw
      rw [x.host] at hw
      exact absurd (ha.of_accepted hi (hi.held_out x.mem (.inr x.type)) x.accepted x.room h) hw
  | @notification p x =>
      obtain ⟨-, hag, -, hwq, -⟩ := notified_frame s.agentHost p.holder
      refine ha.of_agent_step hi x.effect fun hw => ?_
      rw [hwq] at hw
      rw [hag]
      refine (ha _ hw).imp id (Cluster.awaits_of_tokens x.tokens fun hpos => ?_)
      have hsum := x.unaccounted
      rw [Cluster.agentHost, x.cell] at hsum
      exact lt_of_lt_of_eq hpos hsum.symm
  | delayedRelease x =>
      refine ha.of_agent_step hi x.effect fun hw => ?_
      refine (ha _ hw).imp id (Cluster.awaits_of_tokens x.tokens fun hpos => ?_)
      have hsum := x.unaccounted
      rw [Cluster.agentHost, x.cell] at hsum
      exact lt_of_lt_of_eq hpos hsum.symm
  | @resend p x =>
      obtain ⟨hd, hdf⟩ := x.delayed hi hi' hs
      simp only [ResendsInVain, hd] at hr
      refine ha.of_agent_step hi x.effect fun hw => .inr ?_
      have hpos := (hr x.type hdf x.holders).resolve_left hw
      have hsent := x.effect.moves.mem_made (Multiset.mem_singleton_self _)
      refine ⟨_, hsent, .inr ⟨rfl, x.type, (hi.held_back x.mem x.type).2.token.2.1, ?_⟩⟩
      have hn := x.effect.moves.notifs
      have hpkt : isNotif (Dst.host s.cell.agent, p) = false := by
        rcases x.type with h | h <;> simp [isNotif, h]
      simp only [inFlight_singleton, hpkt, Bool.toNat_false, add_zero] at hn
      rw [Cluster.unaccounted]
      have hn' : s'.notifs = s.notifs := hn
      omega
  | restore x => exact ha.of_agent_step hi x.effect fun _ => .inl rfl
  | takeOver x => exact ha.of_agent_step hi x.effect fun _ => .inl rfl

/-! ## Who sends a request back -/

namespace Tofino

/-- The state machine keeps the task of a packet, and its type or makes it a grant. -/
lemma lockOperation_hdr (x : Ctx) :
    (lockOperation x).hdr.holder = x.hdr.holder
      ∧ ((lockOperation x).hdr.type = .acquire → x.hdr.type = .acquire) := by
  rw [lockOperation]
  split <;> simp [newAgent, mcastToAgent, fwdToAgent, transferAgent, resetAgent, setLockAgent,
    LockHdr.holder]

lemma lockStages_hdr (x : Ctx) :
    (lockStages x).hdr.holder = x.hdr.holder
      ∧ ((lockStages x).hdr.type = .acquire → x.hdr.type = .acquire) := by
  have hfree : (if x.hdr.type ≠ .free then acquireLock x else releaseLock x).hdr = x.hdr := by
    split <;> rfl
  refine ⟨(lockOperation_hdr _).1.trans ?_, fun h => ?_⟩
  · simp only [rwTable_hdr, hfree]
  · simpa only [rwTable_hdr, hfree] using (lockOperation_hdr _).2 h

lemma ingressCell_hdr (c : Cell) (p : LockHdr) :
    (ingressCell c p).hdr.holder = p.holder
      ∧ ((ingressCell c p).hdr.type = .acquire → p.type = .acquire) := by
  have hcnt : (counterTable (initPacket c p)).hdr = cleared p := counterTable_hdr _
  rw [ingressCell]
  split
  · rw [hcnt]
    exact ⟨rfl, id⟩
  · split
    · simp only [hcnt]
      exact ⟨rfl, id⟩
    · have hstages := lockStages_hdr (counterTable (initPacket c p))
      rwa [hcnt] at hstages

/-- A request that leaves the switch ungranted is the one that came in. -/
lemma asks_of_mem_process {c : Cell} {p q : LockHdr} {h : HostId} (hq : (h, q) ∈ (process c p).2)
    (ht : q.type = .acquire) (hg : q.granted = false) : p.type = .acquire ∧ q.holder = p.holder := by
  obtain ⟨hholder, htype⟩ := ingressCell_hdr c p
  simp only [process, replicate, List.mem_map] at hq
  obtain ⟨m, -, heq⟩ := hq
  obtain rfl := congrArg Prod.snd heq
  simp only [egressPipe] at ht hg ⊢
  split_ifs at ht hg ⊢
  exact ⟨htype ht, hholder⟩

end Tofino

/-- Nothing is counted and no request is sent. -/
def Uncounted (l l' : InnetLock) (sent : List LockHdr) : Prop :=
  l'.fwdBackCnt = l.fwdBackCnt ∧ ∀ q ∈ sent, q.type ≠ .acquire

section Handlers

variable {l : InnetLock} {cf : Conf} {t : TaskId}

lemma releaseHandOver_uncounted (l : InnetLock) (p : LockHdr) (f : List Assertion) :
    Uncounted l (releaseHandOver cf l p f).lock (releaseHandOver cf l p f).toSwitch := by
  cases hw : l.wqueue with
  | nil =>
      simp only [releaseHandOver, lockNoWaiters, hw, lockFreeHelper]
      split <;> simp [Uncounted, Outcome.toSwitch]
  | cons w rest =>
      simp only [releaseHandOver, lockNoWaiters, hw, lockTransferHelper]
      split
      · simp only [Uncounted, Outcome.toSwitch, List.isEmpty_cons, Bool.false_eq_true, if_false,
          List.nil_append, true_and]
        split <;> simp
      · simp [Uncounted, Outcome.toSwitch]

lemma processRelease_uncounted (hr : lockOutOfRange l = false) :
    Uncounted l (processRelease cf l p).lock (processRelease cf l p).toSwitch := by
  simp only [processRelease, hr, Bool.false_eq_true, if_false]
  split
  · split
    · simp [Uncounted, Outcome.toSwitch]
    · exact releaseHandOver_uncounted _ _ _
  · split
    · simp [Uncounted, Outcome.toSwitch, lockRemoveHolder]
    · exact releaseHandOver_uncounted _ _ _

lemma processPushedBack_uncounted (ht : p.type = .transfer ∨ p.type = .free) :
    Uncounted l (processPushedBack l p).lock (processPushedBack l p).toSwitch := by
  have hne : p.type ≠ .acquire := by rcases ht with h | h <;> rw [h] <;> decide
  rcases processPushedBack_spec l p with ⟨-, -, hl, hsw⟩ | ⟨-, hl, hsw⟩
  · rw [hl, hsw]
    exact ⟨rfl, by simpa using hne⟩
  · rw [hl, hsw]
    exact ⟨rfl, by simp⟩

lemma processGrantWithAgent_uncounted :
    Uncounted l (processGrantWithAgent cf l p).lock (processGrantWithAgent cf l p).toSwitch := by
  simp only [processGrantWithAgent, lockDigestWq_eq]
  split_ifs
  all_goals
    refine ⟨rfl, fun q hq => ?_⟩
    simp only [Outcome.toSwitch, ne_eq, not_true_eq_false, if_false, List.append_nil,
      List.not_mem_nil, List.mem_map] at hq
  obtain ⟨w, -, rfl⟩ := hq
  exact fun h => PostType.noConfusion h

/-- Packets that are no requests are not counted and lead to none. -/
lemma lockPacketProcess_uncounted (hr : lockOutOfRange l = false) (ht : p.type ≠ .acquire) :
    Uncounted l (lockPacketProcess cf l p).lock (lockPacketProcess cf l p).toSwitch := by
  rw [lockPacketProcess]
  split
  · next h => exact absurd h ht
  · exact processGrantWithAgent_uncounted
  · simp [processGrantWoAgent, Uncounted, Outcome.toSwitch, lockLocalNotify]
  · exact processRelease_uncounted hr
  · next h => exact processPushedBack_uncounted (.inl h)
  · next h => exact processPushedBack_uncounted (.inr h)
  · simp [Uncounted, Outcome.toSwitch]

lemma lockReleaseHandOver_uncounted (l : InnetLock) (f : List Assertion) :
    Uncounted l (lockReleaseHandOver cf l f).lock (lockReleaseHandOver cf l f).sent := by
  cases hw : l.wqueue with
  | nil =>
      simp only [lockReleaseHandOver, hw]
      split <;> simp [Uncounted, sendPostFree, sendPostLockGeneric]
  | cons w rest =>
      simp only [lockReleaseHandOver, hw]
      split_ifs <;> simp [Uncounted, sendPostTransfer, sendPostLockGeneric, lockAddHolder]

lemma lockRelease_uncounted (hr : lockOutOfRange l = false) :
    Uncounted l (lockRelease cf l t).lock (lockRelease cf l t).sent := by
  have hr' : ¬ lockOutOfRange { l with localHolders := l.localHolders.erase t } = true :=
    Bool.eq_false_iff.1 hr
  rw [lockRelease, if_neg hr']
  split
  · split
    · exact lockReleaseHandOver_uncounted _ _
    · exact lockReleaseHandOver_uncounted _ _
  · simp [Uncounted, sendPostRelease, sendPostLockGeneric]

/-- A request that the switch has not granted. -/
lemma processAcquire_counted (hr : lockOutOfRange l = false) (hg : p.granted = false)
    (he : l.earlyRelease p.holder = false) (hx : l.isAgent = false → p.mode = LOCK_EXCL) :
    (processAcquire l p).ret = 0 ∧ (processAcquire l p).toSwitch = []
        ∧ ((processAcquire l p).lock.fwdBackCnt = l.fwdBackCnt
          ∨ (processAcquire l p).lock.fwdBackCnt = Function.update l.fwdBackCnt p.holder 0)
      ∨ (processAcquire l p).ret ≠ 0 ∧ (processAcquire l p).toSwitch = [p]
        ∧ l.isAgent = false ∧ l.fwdBackCnt p.holder ≤ 2
        ∧ (processAcquire l p).lock.fwdBackCnt
            = Function.update l.fwdBackCnt p.holder (l.fwdBackCnt p.holder + 1) := by
  simp only [processAcquire, hr, hg, Bool.false_eq_true, if_false, and_false, he, Outcome.toSwitch]
  cases ha : l.isAgent with
  | true => simp [handleSuspendAcquire, lockAppendToWq]
  | false =>
      have hms : p.modeState = .excl := by simp [LockHdr.modeState, hx ha]
      by_cases hc : 2 < l.fwdBackCnt p.holder
      · simp [hms, hc, handleSuspendAcquire, lockAppendToWq]
      · simp [hms, hc]
        omega

end Handlers

/-- The host that sends a request back to the switch, and the task whose request it is. -/
def Cluster.bounce (s : Cluster) (e : Event) : Option (HostId × LockHolder) :=
  match s.delivered e with
  | some (.host h, p) =>
      if p.type = .acquire ∧ (lockPacketProcess (conf h) (s.host h) p).ret ≠ 0 then
        some (h, p.holder)
      else none
  | _ => none

/-- The cluster, and for every task the hosts that have sent its request back since it last called
`lock_acquire_async`, the latest first. -/
structure Observed where
  sys : Cluster
  bouncers : LockHolder → List HostId

namespace Observed

def init (lid : LockId) : Observed where
  sys := Cluster.init lid
  bouncers := fun _ => []

/-- The record after a step. -/
def record (o : Observed) : Event → LockHolder → List HostId
  | .acquire h t _ => Function.update o.bouncers (h, t) []
  | e =>
      match o.sys.bounce e with
      | some (h, lh) => Function.update o.bouncers lh (h :: o.bouncers lh)
      | none => o.bouncers

/-- A step of the cluster, and what it adds to the record. -/
def step (o : Observed) (e : Event) : Option Observed :=
  (o.sys.step e).map fun s => { sys := s, bouncers := o.record e }

/-- The states of all runs whose steps meet `ok`. -/
abbrev Reachable (lid : LockId) (ok : Observed → Event → Prop) : Observed → Prop :=
  Reach step ok (init lid)

end Observed

/-- A host sends back only exclusive requests, and only those that no other host has sent back. -/
def BouncesAlone (o : Observed) (e : Event) : Prop :=
  match o.sys.delivered e with
  | some (.host h, p) =>
      p.type = .acquire → p.granted = false → (o.sys.host h).isAgent = false →
        p.mode = LOCK_EXCL
          ∧ ((o.sys.host h).fwdBackCnt p.holder ≤ 2 → ∀ h' ∈ o.bouncers p.holder, h' = h)
  | _ => True

instance (o : Observed) (e : Event) : Decidable (BouncesAlone o e) :=
  match h : o.sys.delivered e with
  | some (.host h', p) => decidable_of_iff
      (p.type = .acquire → p.granted = false → (o.sys.host h').isAgent = false →
        p.mode = LOCK_EXCL
          ∧ ((o.sys.host h').fwdBackCnt p.holder ≤ 2 → ∀ h'' ∈ o.bouncers p.holder, h'' = h'))
      (by simp only [BouncesAlone, h])
  | some (.switch, p) => isTrue (by simp only [BouncesAlone, h])
  | none => isTrue (by simp only [BouncesAlone, h])

/-- A request of `lh` that is still to be decided. -/
def asks (lh : LockHolder) (x : Flight) : Prop :=
  x.2.type = .acquire ∧ isNotif x = false ∧ x.2.holder = lh

/-- A request on its way has been sent back at most as often as the hosts have counted. -/
structure Counted (o : Observed) : Prop where
  atMost : ∀ lh, (o.bouncers lh).length ≤ 3
  counted : ∀ lh, (∃ x ∈ o.sys.flights, asks lh x) → ∀ h ∈ o.bouncers lh,
    (o.bouncers lh).length ≤ (o.sys.host h).fwdBackCnt lh

/-- There is only one request of a task. -/
lemma Inv.asks_unique (hi : Inv lid s) {lh : LockHolder} {x y : Flight} {rest : Multiset Flight}
    (hfl : s.flights = {x} + rest) (hx : asks lh x) (hy : y ∈ rest) : ¬ asks lh y := by
  intro hask
  have hone : ∀ {z : Flight}, asks lh z → pendPkt lh z.2.mode z = 1 := by
    rintro ⟨d, q⟩ ⟨ht, hn, hh⟩
    simp only at ht hh
    cases d with
    | switch => simp [pendPkt, ht, LockHdr.isFor, hh]
    | host h =>
        have hg : q.granted = false := by simpa [isNotif, ht] using hn
        simp [pendPkt, ht, hg, LockHdr.isFor, hh]
  have hmem : y ∈ s.flights := by rw [hfl]; exact Multiset.mem_add.2 (.inr hy)
  have hxmem : x ∈ s.flights := by
    rw [hfl]
    exact Multiset.mem_add.2 (.inl (Multiset.mem_singleton_self x))
  have hpy : 1 ≤ s.pend lh y.2.mode := (hone hask) ▸ Cluster.pendPkt_le lh _ hmem
  have hpx : 1 ≤ s.pend lh x.2.mode := (hone hx) ▸ Cluster.pendPkt_le lh _ hxmem
  obtain ⟨-, hy1, hy0, -⟩ := (hi.task lh).of_pend hpy
  by_cases hm : x.2.mode = y.2.mode
  · have hsum : pendPkt lh y.2.mode x + pendPkt lh y.2.mode y ≤ s.pend lh y.2.mode := by
      rw [Cluster.pend, hfl, inFlight_add, inFlight_singleton]
      have := le_inFlight (pendPkt lh y.2.mode) hy
      omega
    have h1 := hone hx
    rw [hm] at h1
    rw [h1, hone hask] at hsum
    omega
  · have hneg : x.2.mode = !y.2.mode := by
      cases hxm : x.2.mode <;> cases hym : y.2.mode <;> simp_all
    rw [hneg] at hpx
    omega

namespace Counted

variable {o : Observed}

/-- A step that counts nothing and puts no request on its way. -/
lemma of_uncounted (hc : Counted o) (hcnt : ∀ h, (s'.host h).fwdBackCnt = (o.sys.host h).fwdBackCnt)
    (hask : ∀ lh, (∃ x ∈ s'.flights, asks lh x) → ∃ x ∈ o.sys.flights, asks lh x) :
    Counted { sys := s', bouncers := o.bouncers } := by
  refine ⟨hc.atMost, fun lh hx h hh => ?_⟩
  rw [hcnt]
  exact hc.counted lh (hask lh hx) h hh

/-- The same, with the host that changes and what it sends. -/
lemma of_host (hc : Counted o) {h : HostId} {l : InnetLock} {sent : List LockHdr}
    {rest : List Flight} (hhost : s'.host = Function.update o.sys.host h l)
    (hnet : s'.net = toSwitch sent ++ rest) (hrest : ∀ x ∈ rest, x ∈ o.sys.flights)
    (hu : Uncounted (o.sys.host h) l sent) : Counted { sys := s', bouncers := o.bouncers } := by
  refine hc.of_uncounted (fun h' => ?_) ?_
  · rw [hhost]
    by_cases hh : h' = h
    · rw [hh, Function.update_self, hu.1]
    · rw [Function.update_of_ne hh]
  · rintro lh ⟨x, hx, hask⟩
    have hx' : x ∈ s'.net := hx
    rw [hnet, List.mem_append, toSwitch, List.mem_map] at hx'
    rcases hx' with ⟨q, hq, rfl⟩ | hx'
    · exact absurd hask.1 (hu.2 q hq)
    · exact ⟨x, hrest x hx', hask⟩

lemma acquire (hc : Counted o) (hi : Inv lid o.sys) (hlid : lid.toNat < SWITCH_LOCK_NUM)
    {h : HostId} {t : TaskId} {op : LockState} (hs : o.sys.step (.acquire h t op) = some s') :
    Counted { sys := s', bouncers := o.record (.acquire h t op) } := by
  simp only [Cluster.step] at hs
  split at hs
  · next hok =>
      obtain rfl := Option.some.inj hs
      have hcode := lockAcquireAsync_inRange (h := h) (t := t) (hi.inRange hlid h) hok.2.2.1
      have hcnt : ∀ h', ((o.sys.acquireStep h t op).host h').fwdBackCnt
          = (o.sys.host h').fwdBackCnt := by
        intro h'
        simp only [Cluster.acquireStep, hcode]
        by_cases hh : h' = h
        · subst hh
          rw [Function.update_self]
          split_ifs <;> rfl
        · rw [Function.update_of_ne hh]
      have hnet : ∀ x ∈ (o.sys.acquireStep h t op).flights,
          x.2.holder = (h, t) ∨ x ∈ o.sys.flights := by
        intro x hx
        have hx' : x ∈ (o.sys.acquireStep h t op).net := hx
        simp only [Cluster.acquireStep, hcode, List.mem_append] at hx'
        refine hx'.imp (fun hsent => ?_) id
        split_ifs at hsent <;> simp [toSwitch] at hsent
        rw [hsent]
        rfl
      refine ⟨fun lh => ?_, fun lh hx h' hh => ?_⟩
      · by_cases hlh : lh = (h, t)
        · simp [Observed.record, hlh]
        · simpa [Observed.record, hlh] using hc.atMost lh
      · by_cases hlh : lh = (h, t)
        · simp [Observed.record, hlh] at hh
        · simp only [Observed.record, Function.update_of_ne hlh] at hh ⊢
          obtain ⟨x, hx, hask⟩ := hx
          rw [hcnt]
          refine hc.counted lh ⟨x, (hnet x hx).resolve_left fun hown => ?_, hask⟩ h' hh
          exact hlh (hask.2.2.symm.trans hown)
  · cases hs

/-- A request that a host queues is no longer on its way. -/
lemma request_queued (hc : Counted o) (hi : Inv lid o.sys) {h : HostId} {rest : List Flight}
    (hfl : o.sys.flights = {(Dst.host h, p)} + (rest : Multiset Flight))
    (hask : asks p.holder (Dst.host h, p))
    (hsw : (lockPacketProcess (conf h) (o.sys.host h) p).toSwitch = [])
    (hother : ∀ lh, lh ≠ p.holder → ∀ h', ((o.sys.hostStep h p rest).host h').fwdBackCnt lh
      = (o.sys.host h').fwdBackCnt lh) :
    Counted { sys := o.sys.hostStep h p rest, bouncers := o.bouncers } := by
  refine ⟨hc.atMost, fun lh hasks h' hh => ?_⟩
  obtain ⟨y, hy, hasky⟩ := hasks
  have hnet : (o.sys.hostStep h p rest).net = rest := by
    simp only [Cluster.hostStep, hsw, toSwitch, List.map_nil, List.nil_append]
  have hy' : y ∈ rest := hnet ▸ hy
  have hne : lh ≠ p.holder := by
    rintro rfl
    exact hi.asks_unique hfl hask hy' hasky
  have hmem : y ∈ o.sys.flights := by
    rw [hfl]
    exact Multiset.mem_add.2 (.inr hy')
  rw [hother lh hne]
  exact hc.counted lh ⟨y, hmem, hasky⟩ h' hh

/-- A request is sent back by the only host that has done so before. -/
lemma request_sent_back (hc : Counted o) {h : HostId} {rest : List Flight}
    (hfl : o.sys.flights = {(Dst.host h, p)} + (rest : Multiset Flight))
    (hask : asks p.holder (Dst.host h, p))
    (hsw : (lockPacketProcess (conf h) (o.sys.host h) p).toSwitch = [p])
    (hnow : ((o.sys.hostStep h p rest).host h).fwdBackCnt p.holder
      = (o.sys.host h).fwdBackCnt p.holder + 1)
    (hle : (o.sys.host h).fwdBackCnt p.holder ≤ 2) (hsame : ∀ h' ∈ o.bouncers p.holder, h' = h)
    (hother : ∀ lh, lh ≠ p.holder → ∀ h', ((o.sys.hostStep h p rest).host h').fwdBackCnt lh
      = (o.sys.host h').fwdBackCnt lh) :
    Counted { sys := o.sys.hostStep h p rest
              bouncers := Function.update o.bouncers p.holder (h :: o.bouncers p.holder) } := by
  have hbound : (o.bouncers p.holder).length ≤ (o.sys.host h).fwdBackCnt p.holder := by
    cases hlist : o.bouncers p.holder with
    | nil => exact Nat.zero_le _
    | cons h₁ hs =>
        have hmem : h₁ ∈ o.bouncers p.holder := by simp [hlist]
        rw [← hlist, ← hsame h₁ hmem]
        exact hc.counted p.holder ⟨_, mem_of_flights hfl, hask⟩ h₁ hmem
  refine ⟨fun lh => ?_, fun lh hasks h' hh => ?_⟩
  · by_cases hlh : lh = p.holder
    · simp only [hlh, Function.update_self, List.length_cons]
      omega
    · simpa [hlh] using hc.atMost lh
  · by_cases hlh : lh = p.holder
    · subst hlh
      simp only [Function.update_self, List.mem_cons, List.length_cons] at hh ⊢
      have hh' : h' = h := hh.elim id (hsame h')
      rw [hh', hnow]
      omega
    · simp only [Function.update_of_ne hlh] at hh ⊢
      obtain ⟨y, hy, hasky⟩ := hasks
      have hnet : y ∈ (o.sys.hostStep h p rest).net := hy
      simp only [Cluster.hostStep, hsw, toSwitch, List.map_cons, List.map_nil, List.cons_append,
        List.nil_append, List.mem_cons] at hnet
      rw [hother lh hlh]
      rcases hnet with rfl | hy'
      · exact absurd hasky.2.2.symm hlh
      · have hmem : y ∈ o.sys.flights := by
          rw [hfl]
          exact Multiset.mem_add.2 (.inr hy')
        exact hc.counted lh ⟨y, hmem, hasky⟩ h' hh

/-- A request arrives at a host. -/
lemma request (hc : Counted o) (hi : Inv lid o.sys) (hlid : lid.toNat < SWITCH_LOCK_NUM)
    {h : HostId} {rest : List Flight}
    (hfl : o.sys.flights = {(Dst.host h, p)} + (rest : Multiset Flight))
    (ht : p.type = .acquire) (hg : p.granted = false)
    (hb : (o.sys.host h).isAgent = false → p.mode = LOCK_EXCL
      ∧ ((o.sys.host h).fwdBackCnt p.holder ≤ 2 → ∀ h' ∈ o.bouncers p.holder, h' = h)) :
    Counted { sys := o.sys.hostStep h p rest
              bouncers := if (lockPacketProcess (conf h) (o.sys.host h) p).ret ≠ 0 then
                  Function.update o.bouncers p.holder (h :: o.bouncers p.holder)
                else o.bouncers } := by
  have hx := mem_of_flights hfl
  have hask : asks p.holder (Dst.host h, p) := ⟨ht, by simp [isNotif, ht, hg], rfl⟩
  have hpend : 1 ≤ o.sys.pend p.holder p.mode :=
    le_trans (by simp [pendPkt, ht, hg, LockHdr.isFor]) (Cluster.pendPkt_le p.holder p.mode hx)
  have hcode : lockPacketProcess (conf h) (o.sys.host h) p = processAcquire (o.sys.host h) p := by
    simp [lockPacketProcess, ht]
  have hself : (o.sys.hostStep h p rest).host h = (processAcquire (o.sys.host h) p).lock := by
    rw [← hcode]
    exact Function.update_self _ _ _
  have hspec := processAcquire_counted (hi.inRange hlid h) hg (hi.not_marked hpend h)
    fun hag => (hb hag).1
  -- the counts of other tasks stay, whatever happens
  have hother : ∀ lh, lh ≠ p.holder → ∀ h', ((o.sys.hostStep h p rest).host h').fwdBackCnt lh
      = (o.sys.host h').fwdBackCnt lh := by
    intro lh hne h'
    by_cases hh : h' = h
    · subst hh
      rw [hself]
      rcases hspec with ⟨-, -, hcnt | hcnt⟩ | ⟨-, -, -, -, hcnt⟩ <;> rw [hcnt]
      · exact Function.update_of_ne hne _ _
      · exact Function.update_of_ne hne _ _
    · exact congrArg (fun l : InnetLock => l.fwdBackCnt lh) (Function.update_of_ne hh _ _)
  rcases hspec with ⟨hret, hsw, -⟩ | ⟨hret, hsw, hag, hle, hcnt⟩
  · rw [hcode, if_neg (not_not.2 hret)]
    exact hc.request_queued hi hfl hask (hcode ▸ hsw) hother
  · have hnow : ((o.sys.hostStep h p rest).host h).fwdBackCnt p.holder
        = (o.sys.host h).fwdBackCnt p.holder + 1 := by
      rw [hself, hcnt, Function.update_self]
    rw [hcode, if_pos hret]
    exact hc.request_sent_back hfl hask (hcode ▸ hsw) hnow hle ((hb hag).2 hle) hother

/-- A packet arrives at the switch, which forwards requests and puts none on its way. -/
lemma switch (hc : Counted o) {i : ℕ} (hx : o.sys.net[i]? = some (Dst.switch, p)) :
    Counted { sys := o.sys.switchStep p (o.sys.net.eraseIdx i), bouncers := o.bouncers } := by
  refine hc.of_uncounted (fun _ => rfl) ?_
  rintro lh ⟨⟨d, q⟩, hy, ht, hn, hh⟩
  have hy' : (d, q) ∈ (o.sys.switchStep p (o.sys.net.eraseIdx i)).net := hy
  simp only [Cluster.switchStep, toHosts, List.mem_append, List.mem_map] at hy'
  rcases hy' with ⟨⟨h, q'⟩, hq, heq⟩ | hy'
  · obtain ⟨rfl, rfl⟩ := Prod.mk.injEq .. ▸ heq
    have ht' : q'.type = .acquire := ht
    have hg : q'.granted = false := by simpa [isNotif, ht'] using hn
    obtain ⟨htype, hholder⟩ := asks_of_mem_process hq ht hg
    exact ⟨(.switch, p), List.mem_of_getElem? hx, htype, rfl, hholder.symm.trans hh⟩
  · exact ⟨(d, q), List.mem_of_mem_eraseIdx hy', ht, hn, hh⟩

/-- What a host does with a notification or with anything but an `ACQUIRE` is not counted, and
nothing goes back. -/
lemma uncounted_of_host (hi : Inv lid s) (hlid : lid.toNat < SWITCH_LOCK_NUM) {h : HostId}
    (hx : (Dst.host h, p) ∈ s.flights) (hp : p.type = .acquire → p.granted = true) :
    Uncounted (s.host h) (lockPacketProcess (conf h) (s.host h) p).lock
        (lockPacketProcess (conf h) (s.host h) p).toSwitch
      ∧ (p.type = .acquire → (lockPacketProcess (conf h) (s.host h) p).ret = 0) := by
  by_cases ht : p.type = .acquire
  · have hg := hp ht
    have hmode : p.mode = LOCK_SHARED := by
      have hok := (hi.flight _ hx).2
      simp only [ht] at hok
      exact (hok.2 hg).1
    obtain ⟨hl, hsw⟩ := processAcquire_granted (hi.inRange hlid h) hmode hg
    have hcode : lockPacketProcess (conf h) (s.host h) p = processAcquire (s.host h) p := by
      simp [lockPacketProcess, ht]
    rw [hcode, hl, hsw]
    refine ⟨⟨?_, by simp⟩, fun _ => ?_⟩
    · rw [notified]
      split <;> rfl
    · by_contra hne
      simp [Outcome.toSwitch, hne] at hsw
  · exact ⟨lockPacketProcess_uncounted (hi.inRange hlid h) ht, fun h => absurd h ht⟩

/-- **The counts keep up with the bounces.** -/
lemma step (hc : Counted o) (hi : Inv lid o.sys) (hlid : lid.toNat < SWITCH_LOCK_NUM)
    (hb : BouncesAlone o e) (hs : o.sys.step e = some s') :
    Counted { sys := s', bouncers := o.record e } := by
  cases e with
  | acquire h t op => exact hc.acquire hi hlid hs
  | poll h t =>
      simp only [Cluster.step] at hs
      split at hs
      · cases hgr : (o.sys.host h).taskGranted t with
        | true =>
            simp only [lockReqGranted, hgr, if_true] at hs
            rw [← Option.some.inj hs]
            exact hc.of_host rfl (rfl : _ = toSwitch [] ++ o.sys.net) (fun _ hx => hx)
              ⟨rfl, by simp⟩
        | false => simp [lockReqGranted, hgr] at hs
      · cases hs
  | release h t =>
      simp only [Cluster.step] at hs
      split at hs
      · rw [← Option.some.inj hs]
        exact hc.of_host rfl rfl (fun _ hx => hx) (lockRelease_uncounted (hi.inRange hlid h))
      · cases hs
  | deliver i =>
      simp only [Cluster.step] at hs
      split at hs
      · next p hx =>
          have hd : o.sys.delivered (.deliver i) = some (.switch, p) := hx
          have hrec : o.record (.deliver i) = o.bouncers := by
            simp only [Observed.record, Cluster.bounce, hd]
          rw [hrec, ← Option.some.inj hs]
          exact hc.switch hx
      · next h p hx =>
          have hd : o.sys.delivered (.deliver i) = some (.host h, p) := hx
          have hfl := Cluster.flights_of_getElem? hx
          have hrec : o.record (.deliver i)
              = if p.type = .acquire ∧ (lockPacketProcess (conf h) (o.sys.host h) p).ret ≠ 0 then
                  Function.update o.bouncers p.holder (h :: o.bouncers p.holder)
                else o.bouncers := by
            simp only [Observed.record, Cluster.bounce, hd]
            split_ifs <;> rfl
          simp only [BouncesAlone, hd] at hb
          rw [hrec, ← Option.some.inj hs]
          by_cases hp : p.type = .acquire ∧ p.granted = false
          · simp only [hp.1, true_and]
            exact hc.request hi hlid hfl hp.1 hp.2 (hb hp.1 hp.2)
          · obtain ⟨hu, hret⟩ := uncounted_of_host hi hlid (mem_of_flights hfl)
              (fun ht => by simpa using fun hg => hp ⟨ht, hg⟩)
            rw [if_neg fun h => h.2 (hret h.1)]
            exact hc.of_host rfl rfl (fun _ => List.mem_of_mem_eraseIdx) hu
      · cases hs

end Counted

/-! ## All together -/

/-- Queued requests will be looked at: the agency is on its way to the host, or a `FREE` or
`TRANSFER` of its own that the switch has rejected, or one that it will reject. -/
def Cluster.WillServe (ok : Cluster → Event → Prop) (s : Cluster) (h : HostId) : Prop :=
  s.granting h ∨ ∃ p, (p.type = .transfer ∨ p.type = .free) ∧ p.agent = h
    ∧ ((Dst.host h, p) ∈ s.net ∨ (Dst.switch, p) ∈ s.net ∧ s.WillReject ok p)

/-- What a host waits for will come. -/
lemma Inv.willServe (hi : Inv lid s) (hlid : lid.toNat < SWITCH_LOCK_NUM) {h : HostId}
    (ha : s.awaits h) : s.WillServe Guarded h := by
  obtain ⟨⟨d, q⟩, hx, ⟨rfl, ht⟩ | ⟨rfl, ht, rfl, hpos⟩⟩ := ha
  · have hback : q.type = .transfer ∨ q.type = .free → s.WillServe Guarded h := by
      intro hq
      obtain ⟨rfl, hk⟩ := hi.held_back hx hq
      exact .inr ⟨q, hq, hk.token.2.1, .inl hx⟩
    cases hq : q.type with
    | grantWithAgent => exact .inl ⟨q, hq, hx⟩
    | transfer => exact hback (.inl hq)
    | free => exact hback (.inr hq)
    | acquire => simp [isToken, hq] at ht
    | grantWoAgent => simp [isToken, hq] at ht
    | release => simp [isToken, hq] at ht
    | other b => simp [isToken, hq] at ht
  · exact .inr ⟨q, ht, rfl, .inr ⟨hx, (hi.held_out hx ht).rejected hlid hi hpos⟩⟩

/-- The condition on a step under which queueing ahead of time is justified. -/
def Justified (o : Observed) (e : Event) : Prop :=
  Guarded o.sys e ∧ QueuesInTime o.sys e ∧ ResendsInVain o.sys e ∧ BouncesAlone o e

instance (o : Observed) (e : Event) : Decidable (Justified o e) :=
  inferInstanceAs (Decidable (_ ∧ _))

/-- All invariants together hold along every justified run. -/
theorem invariants_of_justified {o : Observed} (hlid : lid.toNat < SWITCH_LOCK_NUM)
    (h : Observed.Reachable lid Justified o) : Inv lid o.sys ∧ Attended o.sys ∧ Counted o := by
  refine Reach.invariant (I := fun o => Inv lid o.sys ∧ Attended o.sys ∧ Counted o) ?_ ?_ h
  · refine ⟨inv_init lid, fun h hw => absurd rfl hw, fun _ => Nat.zero_le _, ?_⟩
    rintro lh - h hh
    cases hh
  · rintro o e o' ⟨hi, ha, hc⟩ ⟨hg, hq, hr, hb⟩ hs
    obtain ⟨s', hs', rfl⟩ := Option.map_eq_some_iff.1 hs
    have x := step_change hlid hi hg hs'
    exact ⟨x.inv hi, x.attended hi hs' hq hr ha, hc.step hi hlid hb hs'⟩

/-- **Queueing ahead of time is justified in a justified run**: a host that is not the agent has
waiters only while something is on its way that will make it look at them, and no request is sent
back more than three times. -/
theorem early_queueing_justified {o : Observed} (hlid : lid.toNat < SWITCH_LOCK_NUM)
    (h : Observed.Reachable lid Justified o) :
    (∀ h, (o.sys.host h).isAgent = false → (o.sys.host h).wqueue ≠ [] →
      o.sys.WillServe Guarded h)
      ∧ ∀ lh, (o.bouncers lh).length ≤ 3 := by
  obtain ⟨hi, ha, hc⟩ := invariants_of_justified hlid h
  refine ⟨fun h hno hw => ?_, hc.atMost⟩
  rcases ha h hw with hag | hawait
  · cases hno.symm.trans hag
  · exact hi.willServe hlid hawait

/-- The grant of host 1 is late, and a request of host 2 is queued for it. -/
theorem early_queueing_justified_late_grant : ∃ o, Observed.Reachable 7 Justified o
    ∧ (o.sys.host 1).wqueue ≠ [] ∧ o.sys.WillServe Guarded 1 ∧ (o.bouncers (2, 2)).length ≤ 3 := by
  have hex : ∃ o, Observed.Reachable 7 Justified o
      ∧ ((o.sys.host 1).isAgent = false ∧ (o.sys.host 1).wqueue ≠ []) :=
    Reach.exists_of_runFrom
      [.acquire 1 1 .excl, .deliver 0, .acquire 2 2 .excl, .deliver 0, .deliver 0, .deliver 0,
        .deliver 0, .deliver 0, .deliver 0, .deliver 0, .deliver 0] (by decide +kernel)
  obtain ⟨o, hrun, hno, hw⟩ := hex
  obtain ⟨hserve, hcount⟩ := early_queueing_justified (by decide) hrun
  exact ⟨o, hrun, hw, hserve 1 hno hw, hcount (2, 2)⟩

/-- The run that strands a waiter.  The `FREE` of host 1 is late; before it arrives, a request of
host 2 has been sent back three times and is queued at host 1. -/
def strandedWaiter : List Event :=
  [.acquire 1 1 .excl, .deliver 0, .deliver 0, .poll 1 1, .release 1 1, .acquire 2 2 .excl,
   .deliver 0, .deliver 0, .deliver 0, .deliver 0, .deliver 0, .deliver 0, .deliver 0, .deliver 0,
   .deliver 0]

/-- The grant of host 1 is late, and a shared request of host 2 goes back and forth. -/
def fourBounces : List Event :=
  [.acquire 1 1 .excl, .deliver 0, .acquire 2 2 .shared, .deliver 0, .deliver 0, .deliver 0,
   .deliver 0, .deliver 0, .deliver 0, .deliver 0, .deliver 0]

/-- **In general, neither half is true.** -/
theorem early_queueing_justified_fails :
    (¬ ∀ o, Observed.Reachable 7 (fun _ _ => True) o →
      ∀ h, (o.sys.host h).isAgent = false → (o.sys.host h).wqueue ≠ [] →
        o.sys.WillServe (fun _ _ => True) h)
      ∧ ¬ ∀ o, Observed.Reachable 7 (fun _ _ => True) o → ∀ lh, (o.bouncers lh).length ≤ 3 := by
  constructor
  · intro hall
    have hex : ∃ o, Observed.Reachable 7 (fun _ _ => True) o
        ∧ ((o.sys.host 1).isAgent = false ∧ (o.sys.host 1).wqueue ≠ [] ∧ o.sys.net = []) :=
      Reach.exists_of_runFrom strandedWaiter (by decide +kernel)
    obtain ⟨o, hrun, hno, hw, hnet⟩ := hex
    rcases hall o hrun 1 hno hw with ⟨p, -, hp⟩ | ⟨p, -, -, hp | ⟨hp, -⟩⟩
    · rw [Cluster.flights, hnet] at hp
      cases hp
    · rw [hnet] at hp
      cases hp
    · rw [hnet] at hp
      cases hp
  · intro hall
    have hex : ∃ o, Observed.Reachable 7 (fun _ _ => True) o ∧ (o.bouncers (2, 2)).length = 4 :=
      Reach.exists_of_runFrom fourBounces (by decide +kernel)
    obtain ⟨o, hrun, hfour⟩ := hex
    have hle := hall o hrun (2, 2)
    omega

end FissLock
