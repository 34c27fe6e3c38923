import FissLock.Cluster.Progress

/-!
# Runs that only ask for exclusive locks

In such a run there is no notification, no grant by the switch on behalf of an agent and no
`RELEASE` packet: the lock is held by one task of the agent's own host at a time, and what moves
between the hosts is the token.  `exclusive_of_reachable` shows that these runs meet all conditions
under which the cluster invariant is kept, without being asked to.

`token_conservation` is the result: the token is in exactly one of five places, every ungranted
request is represented exactly once, and whoever is about to be granted the lock has not been
granted it yet.
-/

namespace FissLock

open Runs Tofino Accounting

variable {lid : LockId} {s s' : Cluster} {e : Event}

/-- Every `lock_acquire_async` asks for `LOCK_EXCL`. -/
def ExclusiveOnly (_ : Cluster) (e : Event) : Prop :=
  match e with
  | .acquire _ _ op => op = .excl
  | _ => True

instance (s : Cluster) (e : Event) : Decidable (ExclusiveOnly s e) :=
  match e with
  | .acquire _ _ op => inferInstanceAs (Decidable (op = .excl))
  | .poll _ _ => isTrue trivial
  | .release _ _ => isTrue trivial
  | .deliver _ => isTrue trivial

/-- Only exclusive requests have been made, and a taken lock is held exclusively. -/
structure Exclusive (s : Cluster) : Prop where
  task : ∀ lh op, s.task lh = .waiting op ∨ s.task lh = .holding op → op = .excl
  rw : s.cell.free = LOCK_ACQUIRED → s.cell.rw = LOCK_EXCL

namespace Exclusive

/-- Pending requests are exclusive ones. -/
lemma of_pend (hx : Exclusive s) (hi : Inv lid s) {lh : LockHolder} {b : Bool}
    (hp : 1 ≤ s.pend lh b) : b = LOCK_EXCL := by
  have := hx.task lh _ (.inl ((hi.task lh).of_pend hp).1)
  simpa using this

/-- There are no notifications. -/
lemma notifs (hx : Exclusive s) (hi : Inv lid s) : s.notifs = 0 := by
  rcases hi.token with hu | ⟨k, hk⟩
  · exact hu.notifs
  · exact (hk.excl (hx.rw hk.acquired)).1

lemma notif (hx : Exclusive s) (hi : Inv lid s) (lh : LockHolder) : s.notif lh = 0 :=
  Nat.le_zero.1 (hx.notifs hi ▸ s.notif_le_notifs lh)

/-- Nobody is recorded as a holder while the lock is free or in shared mode. -/
lemma rw_of_held (hx : Exclusive s) (hi : Inv lid s) {lh : LockHolder} (hh : s.held lh = 1) :
    s.cell.rw = LOCK_EXCL := by
  rcases hi.token with hu | ⟨k, hk⟩
  · have := hu.idle.held lh
    omega
  · exact hx.rw hk.acquired

/-- There are no `RELEASE` packets. -/
lemma rel (hx : Exclusive s) (hi : Inv lid s) (lh : LockHolder) : s.rel lh = 0 := by
  by_contra hne
  obtain ⟨-, -, hNH, -, hsh, -⟩ := (hi.task lh).of_rel (Nat.one_le_iff_ne_zero.2 hne)
  rw [hx.notif hi, zero_add] at hNH
  exact absurd (hsh.symm.trans (hx.rw_of_held hi hNH)) (by decide)

/-- There are no `GRANT_WO_AGENT` packets. -/
lemma wo (hx : Exclusive s) (hi : Inv lid s) (lh : LockHolder) : s.wo lh = 0 := by
  by_contra hne
  obtain ⟨-, -, -, hNH, -, -, -, hsh⟩ := (hi.task lh).of_wo (Nat.one_le_iff_ne_zero.2 hne)
  rw [hx.notif hi, zero_add] at hNH
  exact absurd (hsh.symm.trans (hx.rw_of_held hi hNH)) (by decide)

/-- The conditions on a step hold by themselves. -/
lemma conditions (hx : Exclusive s) (hi : Inv lid s) (e : Event) :
    Guarded s e ∧ KeepsAgent s e := by
  have hmem : ∀ {x}, s.delivered e = some x → x ∈ s.flights := fun {x} hdel => by
    cases e with
    | deliver i =>
        rw [Cluster.flights_of_getElem? hdel]
        exact Multiset.mem_add.2 (.inl (Multiset.mem_singleton_self _))
    | acquire h t op => cases hdel
    | poll h t => cases hdel
    | release h t => cases hdel
  cases hdel : s.delivered e with
  | none => exact ⟨by simp only [Guarded, hdel], by simp only [KeepsAgent, hdel]⟩
  | some x =>
      have hm := hmem hdel
      have hn : isNotif x = false := by
        have := Accounting.inFlight_eq_zero.1 (hx.notifs hi) x hm
        simpa using this
      obtain ⟨d, p⟩ := x
      cases d with
      | switch =>
          refine ⟨?_, by simp only [KeepsAgent, hdel]⟩
          simp only [Guarded, hdel]
          intro ht ho
          have hk := hi.held_out hm ht
          rw [hk.token.2.2, hx.rw hk.acquired] at ho
          cases ho
      | host h =>
          simp only [Guarded, KeepsAgent, hdel]
          refine ⟨⟨fun ht => ?_, fun ht hg => ?_⟩, fun ht hear => ?_⟩
          · have := Cluster.rel_le p.holder hm
            rw [hx.rel hi] at this
            simp [typedPkt, ht] at this
          · simp [isNotif, ht, hg] at hn
          · have hg : p.granted = false := by simpa [isNotif, ht] using hn
            have hone : pendPkt p.holder p.mode (Dst.host h, p) = 1 := by
              simp [pendPkt, ht, hg, LockHdr.isFor]
            have := hi.not_marked (hone ▸ Cluster.pendPkt_le p.holder p.mode hm) h
            exact absurd (this.symm.trans hear) (by decide)

end Exclusive

/-- Calls keep the tasks exclusive. -/
lemma ExclusiveOnly.task (he : ExclusiveOnly s e) (hs : s.step e = some s')
    (hx : ∀ lh op, s.task lh = .waiting op ∨ s.task lh = .holding op → op = .excl) :
    ∀ lh op, s'.task lh = .waiting op ∨ s'.task lh = .holding op → op = .excl := by
  intro lh op hop
  by_cases hc : e.caller = some lh
  · cases e with
    | acquire h t op' =>
        cases hc
        have he' : op' = .excl := he
        subst he'
        simp only [Cluster.step] at hs
        split at hs
        · rw [← Option.some.inj hs] at hop
          simp only [Cluster.acquireStep, Function.update_self] at hop
          split_ifs at hop <;> simpa [eq_comm] using hop
        · cases hs
    | poll h t =>
        cases hc
        simp only [Cluster.step] at hs
        split at hs
        · next op' hw =>
            have hop' := hx _ op' (.inl hw)
            subst hop'
            split at hs
            · rw [← Option.some.inj hs] at hop
              simp only [Function.update_self] at hop
              simpa [eq_comm] using hop
            · cases hs
        · cases hs
    | release h t =>
        cases hc
        simp only [Cluster.step] at hs
        split at hs
        · rw [← Option.some.inj hs] at hop
          simp [Cluster.releaseStep] at hop
        · cases hs
    | deliver i => cases hc
  · rw [Cluster.step_task hs hc] at hop
    exact hx lh op hop

/-- The mode of a taken lock stays exclusive. -/
lemma Change.exclusive_rw (x : Change s e s') (hi : Inv lid s) (hx : Exclusive s) :
    s'.cell.free = LOCK_ACQUIRED → s'.cell.rw = LOCK_EXCL := by
  cases x with
  | plain x => rw [x.cell.free, x.cell.rw]; exact hx.rw
  | localGrant x => rw [x.cell]; exact hx.rw
  | drop x _ => rw [x.cell]; exact hx.rw
  | dropAndHandOver x y => rw [y.cell, x.cell]; exact hx.rw
  | @acquireFree p x =>
      intro _
      rw [x.cell]
      have hone : pendPkt p.holder p.mode (Dst.switch, p) = 1 := by
        simp [pendPkt, x.type, LockHdr.isFor]
      exact hx.of_pend hi (hone ▸ Cluster.pendPkt_le p.holder p.mode x.mem)
  | acquireShared x => rw [x.cell]; exact hx.rw
  | pushBack x => rw [x.cell]; exact hx.rw
  | @acceptTransfer p x =>
      intro _
      rw [x.cell]
      have hone : 1 ≤ pendPkt p.holder p.mode (Dst.switch, p) := by
        simp [pendPkt, x.type, LockHdr.isFor]
      exact hx.of_pend hi (hone.trans (Cluster.pendPkt_le p.holder p.mode x.mem))
  | acceptFree x =>
      intro h
      rw [x.cell] at h
      cases h
  | notification x => rw [x.cell]; exact hx.rw
  | delayedRelease x => rw [x.cell]; exact hx.rw
  | resend x => rw [x.cell]; exact hx.rw
  | restore x => rw [x.cell]; exact hx.rw
  | takeOver x => rw [x.cell]; exact hx.rw

/-- **Exclusive runs keep the invariants of the cluster.** -/
theorem exclusive_of_reachable (hlid : lid.toNat < SWITCH_LOCK_NUM)
    (h : Cluster.Reachable lid ExclusiveOnly s) : Inv lid s ∧ Busy s ∧ Exclusive s := by
  refine Reach.invariant (I := fun s => Inv lid s ∧ Busy s ∧ Exclusive s) ?_ ?_ h
  · have hi := inv_init lid
    refine ⟨hi, ?_, ⟨fun lh op h => ?_, fun h => ?_⟩⟩
    · rcases hi.token with hu | ⟨k, hk⟩
      · exact .of_disposal (.of_unheld hu)
      · cases hk.acquired
    · rcases h with h | h <;> cases h
    · cases h
  · rintro s e s' ⟨hi, hb, hx⟩ he hs
    obtain ⟨hg, hka⟩ := hx.conditions hi e
    have x := step_change hlid hi hg hs
    exact ⟨x.inv hi, x.busy hi hka hb, ⟨he.task hs hx.task, x.exclusive_rw hi hx⟩⟩

/-! ## Where the token is, and where the requests are -/

/-- The five places of the token. -/
inductive Place where
  | switch
  | grant
  | agent
  | free
  | transfer
  deriving DecidableEq, Repr

namespace Cluster

/-- A packet of this type is in flight. -/
def flying (s : Cluster) (t : PostType) : Prop := ∃ x ∈ s.net, x.2.type = t

/-- The token is at this place: the switch register is free, a packet is in flight, or exactly one
host is the agent and it has exactly one holder. -/
def tokenAt (s : Cluster) : Place → Prop
  | .switch => s.cell.free = LOCK_FREE
  | .grant => s.flying .grantWithAgent
  | .agent => ∃ h, (∀ h', (s.host h').isAgent = true ↔ h' = h) ∧ (s.host h).holders.card = 1
  | .free => s.flying .free
  | .transfer => s.flying .transfer

/-- How often a packet represents the task: by its own request, by the request it grants or
transfers the lock to, or in the wait queue that comes along. -/
def representedPkt (lh : LockHolder) (x : Flight) : ℕ :=
  match x.2.type with
  | .acquire => (decide (x.2.holder = lh)).toNat
  | .grantWithAgent => (decide (x.2.holder = lh)).toNat + x.2.wq.countP (fun e => e.holder = lh)
  | .transfer => (decide (x.2.holder = lh)).toNat + x.2.wq.countP (fun e => e.holder = lh)
  | _ => 0

/-- How often the request of a task is represented, in packets and wait queues. -/
def represented (s : Cluster) (lh : LockHolder) : ℕ :=
  inFlight (representedPkt lh) s.flights
    + stored (fun l : InnetLock => l.wqueue.countP (fun e => e.holder = lh)) s.host

/-- The task has asked for the lock and was not granted it. -/
def ungranted (s : Cluster) (lh : LockHolder) : Prop :=
  s.task lh = .waiting .excl ∧ (s.host lh.1).taskGranted lh.2 = false

instance (s : Cluster) (lh : LockHolder) : Decidable (s.ungranted lh) :=
  inferInstanceAs (Decidable (_ ∧ _))

end Cluster

lemma countP_holder_eq (lh : LockHolder) (wq : List Wqe) :
    wq.countP (fun e => e.holder = lh)
      = wq.countP (Wqe.isFor lh false) + wq.countP (Wqe.isFor lh true) := by
  induction wq with
  | nil => rfl
  | cons w wq ih =>
      rw [List.countP_cons, List.countP_cons, List.countP_cons, ih]
      by_cases hw : w.holder = lh <;> cases hb : w.op.bit <;> simp [Wqe.isFor, hw, hb] <;> omega

/-- Representation is the sum of the accounts. -/
lemma Cluster.represented_eq (s : Cluster) (lh : LockHolder) :
    s.represented lh = s.pend lh false + s.pend lh true + s.notif lh := by
  have hpkt : representedPkt lh
      = fun x => pendPkt lh false x + pendPkt lh true x + notifPkt lh x := by
    funext ⟨d, p⟩
    have hown : (decide (p.holder = lh)).toNat
        = (p.isFor lh false).toNat + (p.isFor lh true).toNat := by
      by_cases hw : p.holder = lh <;> cases hm : p.mode <;> simp [LockHdr.isFor, hw, hm]
    cases ht : p.type <;> cases d <;>
      simp [representedPkt, pendPkt, notifPkt, isNotif, ht, countP_holder_eq, hown] <;>
      first | omega | (cases hg : p.granted <;> simp [hown])
  rw [Cluster.represented, Cluster.pend, Cluster.pend, Cluster.notif, hpkt, inFlight_fun_add,
    inFlight_fun_add]
  simp only [countP_holder_eq, stored_fun_add]
  omega

/-- In flight, as the invariant counts token packets. -/
lemma flying_iff {t : PostType} (ht : t = .grantWithAgent ∨ t = .free ∨ t = .transfer) :
    s.flying t ↔ ∃ x ∈ s.tokens, x.2.type = t := by
  constructor
  · rintro ⟨x, hx, hxt⟩
    refine ⟨x, Multiset.mem_filter.2 ⟨Multiset.mem_coe.2 hx, ?_⟩, hxt⟩
    rcases ht with rfl | rfl | rfl <;> simp [isToken, hxt]
  · rintro ⟨x, hx, hxt⟩
    exact ⟨x, Multiset.mem_coe.1 (Multiset.mem_filter.1 hx).1, hxt⟩

lemma Unheld.tokenAt_iff (hu : Unheld s) (q : Place) : s.tokenAt q ↔ q = .switch := by
  have hno : ∀ {t}, t = .grantWithAgent ∨ t = .free ∨ t = .transfer → ¬ s.flying t := by
    intro t ht hf
    obtain ⟨x, hx, -⟩ := (flying_iff ht).1 hf
    rw [hu.tokens] at hx
    exact Multiset.notMem_zero _ hx
  cases q with
  | switch => exact ⟨fun _ => rfl, fun _ => hu.free⟩
  | grant => exact ⟨fun h => absurd h (hno (.inl rfl)), fun h => by cases h⟩
  | free => exact ⟨fun h => absurd h (hno (.inr (.inl rfl))), fun h => by cases h⟩
  | transfer => exact ⟨fun h => absurd h (hno (.inr (.inr rfl))), fun h => by cases h⟩
  | agent =>
      refine ⟨fun ⟨h, hag, _⟩ => ?_, fun h => by cases h⟩
      have := (hag h).2 rfl
      rw [(hu.quiet h).isAgent] at this
      cases this

/-- Where the token is, as a place. -/
def Token.place : Token → Place
  | grant _ => .grant
  | agent => .agent
  | out p => if p.type = .free then .free else .transfer
  | back p => if p.type = .free then .free else .transfer

lemma Held.tokenAt_iff {k : Token} (hk : Held s k) (hb : Busy s) (hrw : s.cell.rw = LOCK_EXCL)
    (q : Place) : s.tokenAt q ↔ q = k.place := by
  obtain ⟨hnot, -, hcard, -⟩ := hk.excl hrw
  have hfly : ∀ {t}, t = .grantWithAgent ∨ t = .free ∨ t = .transfer →
      (s.flying t ↔ ∃ x ∈ k.flights s.cell.agent, x.2.type = t) := by
    intro t ht
    rw [flying_iff ht, hk.tokens]
  have hagent : s.tokenAt .agent ↔ k.isAgent = true := by
    constructor
    · rintro ⟨h, hag, -⟩
      have h1 := (hag h).2 rfl
      by_cases hh : h = s.cell.agent
      · subst hh
        exact hk.agent.symm.trans h1
      · rw [(hk.others h hh).isAgent] at h1
        cases h1
    · intro hka
      refine ⟨s.cell.agent, fun h' => ⟨fun h1 => ?_, fun h1 => ?_⟩, ?_⟩
      · by_contra hne
        rw [(hk.others h' hne).isAgent] at h1
        cases h1
      · rw [h1]
        exact hk.agent.trans hka
      · refine le_antisymm hcard (Finset.card_pos.2 (Finset.nonempty_iff_ne_empty.2 fun hh => ?_))
        have := hb.agent (hk.agent.trans hka) hh
        omega
  have hswitch : ¬ s.tokenAt .switch := fun h => absurd (hk.acquired.symm.trans h) (by decide)
  have htok := hk.token
  cases k with
  | grant p =>
      have ht : p.type = .grantWithAgent := htok.1
      cases q <;> simp_all [Cluster.tokenAt, Token.flights, Token.place, Token.isAgent]
  | agent => cases q <;> simp_all [Cluster.tokenAt, Token.flights, Token.place, Token.isAgent]
  | out p =>
      rcases htok.1 with ht | ht <;> cases q <;>
        simp_all [Cluster.tokenAt, Token.flights, Token.place, Token.isAgent]
  | back p =>
      rcases htok.1 with ht | ht <;> cases q <;>
        simp_all [Cluster.tokenAt, Token.flights, Token.place, Token.isAgent]

/-- Every ungranted request is represented once, and no other is. -/
lemma Exclusive.represented_eq (hx : Exclusive s) (hi : Inv lid s) (lh : LockHolder) :
    s.represented lh = if s.ungranted lh then 1 else 0 := by
  rw [s.represented_eq, hx.notif hi]
  have hc := (hi.task lh).counts
  have hW := hx.wo hi lh
  cases ht : s.task lh with
  | idle =>
      rw [ht] at hc
      obtain ⟨h1, h2, -⟩ := hc
      rw [h1, h2, if_neg (by simp [Cluster.ungranted, ht])]
  | holding op =>
      rw [ht] at hc
      obtain ⟨-, -, h1, h2, -⟩ := hc
      rw [h1, h2, if_neg (by simp [Cluster.ungranted, ht])]
  | waiting op =>
      have hop := hx.task lh op (.inl ht)
      subst hop
      rw [ht] at hc
      obtain ⟨-, -, ⟨hp, -, hF, -⟩ | ⟨h1, h2, hWF, -⟩⟩ := hc
      · have hf : (s.host lh.1).taskGranted lh.2 = false := by simpa [Cluster.flag] using hF
        rw [if_pos ⟨ht, hf⟩]
        simp at hp
        omega
      · have hF : s.flag lh = 1 := by omega
        have hf : (s.host lh.1).taskGranted lh.2 = true := by simpa [Cluster.flag] using hF
        rw [h1, h2, if_neg (by simp [Cluster.ungranted, hf])]

/-- **Token conservation.**  In every run that only asks for exclusive locks, in every state: the
token is in exactly one place; a request is represented exactly once if it is ungranted, and not at
all otherwise; at most one task holds the lock; and a grant in flight is for a request that is still
ungranted. -/
theorem token_conservation (hlid : lid.toNat < SWITCH_LOCK_NUM)
    (h : Cluster.Reachable lid ExclusiveOnly s) :
    (∃! q, s.tokenAt q)
      ∧ (∀ lh, s.represented lh = if s.ungranted lh then 1 else 0)
      ∧ (∀ lh lh' op op', s.holds lh op → s.holds lh' op' → lh = lh')
      ∧ ∀ x ∈ s.net, x.2.type = .grantWithAgent → s.ungranted x.2.holder := by
  obtain ⟨hi, hb, hx⟩ := exclusive_of_reachable hlid h
  refine ⟨?_, hx.represented_eq hi, fun lh lh' op op' h1 h2 => ?_, fun x hxm ht => ?_⟩
  · rcases hi.token with hu | ⟨k, hk⟩
    · exact ⟨.switch, (hu.tokenAt_iff _).2 rfl, fun q hq => (hu.tokenAt_iff q).1 hq⟩
    · have hiff := hk.tokenAt_iff hb (hx.rw hk.acquired)
      exact ⟨k.place, (hiff _).2 rfl, fun q hq => (hiff q).1 hq⟩
  · obtain ⟨hNH, hop⟩ := hi.of_holds h1
    rw [hx.notif hi, zero_add] at hNH
    have hrw := hx.rw_of_held hi hNH
    exact Finset.singleton_inj.1 ((hi.holder_of_excl hrw h1).symm.trans (hi.holder_of_excl hrw h2))
  · have hone : 1 ≤ pendPkt x.2.holder x.2.mode x := by
      obtain ⟨d, p⟩ := x
      have ht' : p.type = .grantWithAgent := ht
      cases d <;> simp [pendPkt, ht', LockHdr.isFor]
    have hp := hone.trans (Cluster.pendPkt_le x.2.holder x.2.mode (Multiset.mem_coe.2 hxm))
    obtain ⟨hw, -, -, -, hF, -⟩ := (hi.task x.2.holder).of_pend hp
    have hop := hx.task _ _ (.inl hw)
    rw [hop] at hw
    exact ⟨hw, by simpa [Cluster.flag] using hF⟩

theorem token_conservation_two_requests :
    ∃ s, Cluster.Reachable 7 ExclusiveOnly s ∧ s.tokenAt .agent ∧ ¬ s.tokenAt .free
      ∧ s.represented (2, 2) = 1 := by
  obtain ⟨s, hrun, ⟨hag, hun⟩, -⟩ := Cluster.exists_of_run 7 ExclusiveOnly
    [.acquire 1 1 .excl, .deliver 0, .acquire 2 2 .excl, .deliver 0, .deliver 1, .deliver 0]
    (fun s => (s.host 1).isAgent = true ∧ s.ungranted (2, 2)) (by decide +kernel)
  obtain ⟨⟨q, hq, huniq⟩, hrep, -⟩ := token_conservation (by decide) hrun
  have hagent : s.tokenAt .agent := by
    obtain ⟨hi, hb, hx⟩ := exclusive_of_reachable (by decide) hrun
    obtain ⟨-, hk⟩ := hi.held_agent hag
    exact (hk.tokenAt_iff hb (hx.rw hk.acquired) .agent).2 rfl
  refine ⟨s, hrun, hagent, fun hf => ?_, by rw [hrep, if_pos hun]⟩
  exact absurd ((huniq .agent hagent).trans (huniq .free hf).symm) (by decide)

end FissLock
