import FissLock.Cluster.Exclusive

/-!
# A hand-over that is pushed back

The sender of a `FREE` or `TRANSFER` that the switch rejects gets it back, and either takes the lock
back or sends the packet again with the notifications it has counted meanwhile.  `NothingLost` says
what must not get lost on the way: the waiters, in the packet and queued since, the count, and the
prospect that somebody's release makes the agent give the lock up.

Two things go wrong in `lock.cc`.

* A packet that is sent again carries only the waiters that it carried before.  Requests that the
  host has queued ahead of time stay behind, at a host that is not the agent.
* Consuming an early-release mark does not look at the lock again.  A host that gives the lock up
  while the only notifications on their way are marked gets its packet back, and then is the agent
  of a lock that nobody holds or will release.

`GivesUpInTime` and `ResendsAll` exclude the two, and `Expectant` is the invariant that a run keeps
then: whoever has the lock at its disposal without a holder expects a notification whose release has
not come in yet.
-/

namespace FissLock

open Runs Tofino Accounting

variable {lid : LockId} {s s' : Cluster} {e : Event} {p : LockHdr}

/-! ## Which event it was -/

namespace Cluster

lemma flights_append {n rest : List Flight} (h : s.net = n ++ rest) :
    s.flights = (n : Multiset Flight) + (rest : Multiset Flight) := by
  rw [flights, h, Multiset.coe_add]

/-- A step delivers at most one packet, and takes no other from the network. -/
lemma step_flights (hs : s.step e = some s') : ∃ made rest : Multiset Flight,
    s'.flights = made + rest
      ∧ (s.flights = rest ∨ ∃ x, s.delivered e = some x ∧ s.flights = {x} + rest) := by
  cases e with
  | acquire h t op =>
      simp only [step] at hs
      split at hs
      · rw [← Option.some.inj hs]
        exact ⟨_, _, flights_append rfl, .inl rfl⟩
      · cases hs
  | poll h t =>
      simp only [step] at hs
      split at hs
      · split at hs
        · rw [← Option.some.inj hs]
          exact ⟨0, _, (zero_add _).symm, .inl rfl⟩
        · cases hs
      · cases hs
  | release h t =>
      simp only [step] at hs
      split at hs
      · rw [← Option.some.inj hs]
        exact ⟨_, _, flights_append rfl, .inl rfl⟩
      · cases hs
  | deliver i =>
      simp only [step] at hs
      split at hs
      · next hx =>
          rw [← Option.some.inj hs]
          exact ⟨_, _, flights_append rfl, .inr ⟨_, hx, flights_of_getElem? hx⟩⟩
      · next hx =>
          rw [← Option.some.inj hs]
          exact ⟨_, _, flights_append rfl, .inr ⟨_, hx, flights_of_getElem? hx⟩⟩
      · cases hs

/-- A packet that is gone is the one that was delivered. -/
lemma delivered_of_gone (hs : s.step e = some s') {x : Flight} (hx : x ∈ s.flights)
    (hgone : x ∉ s'.flights) : s.delivered e = some x := by
  obtain ⟨made, rest, hmade, hrest⟩ := step_flights hs
  have hnot : x ∉ rest := fun h => hgone (by rw [hmade]; exact Multiset.mem_add.2 (.inr h))
  rcases hrest with hsame | ⟨y, hy, hrest⟩
  · exact absurd (hsame ▸ hx) hnot
  · rw [hrest, Multiset.mem_add, Multiset.mem_singleton] at hx
    rw [hy, hx.resolve_right hnot]

/-- A task that stops holding the lock has called `lock_release`. -/
lemma release_of_idle (hs : s.step e = some s') {lh : LockHolder} {op : LockState}
    (hold : s.task lh = .holding op) (hidle : s'.task lh = .idle) : e = .release lh.1 lh.2 := by
  have hcaller : e.caller = some lh := by
    by_contra hne
    rw [step_task hs hne, hold] at hidle
    cases hidle
  cases e with
  | acquire h t op' =>
      cases Option.some.inj hcaller
      simp only [step] at hs
      split at hs
      · next hc => rw [hc.2.2.2.1] at hold; cases hold
      · cases hs
  | poll h t =>
      cases Option.some.inj hcaller
      simp only [step, hold] at hs
      cases hs
  | release h t =>
      cases Option.some.inj hcaller
      rfl
  | deliver i => cases hcaller

/-- What the step is if a host gets a packet. -/
lemma step_host (hs : s.step e = some s') {h : HostId} (hd : s.delivered e = some (.host h, p)) :
    ∃ rest : List Flight, s.flights = {(Dst.host h, p)} + (rest : Multiset Flight)
      ∧ s' = s.hostStep h p rest := by
  cases e with
  | deliver i =>
      have hx : s.net[i]? = some (.host h, p) := hd
      simp only [step, hx] at hs
      exact ⟨_, flights_of_getElem? hx, (Option.some.inj hs).symm⟩
  | acquire h t op => cases hd
  | poll h t => cases hd
  | release h t => cases hd

/-! ## The conditions -/

/-- A notification is on its way to the host whose release has not come in yet.  If the
notification comes first, the holder is recorded and its release still to come; if the release
comes first, it finds nobody recorded and the host gives the lock up at once. -/
def expects (s : Cluster) (h : HostId) : Prop :=
  ∃ x ∈ s.net, x.1 = .host h ∧ isNotif x = true ∧ (s.host h).earlyRelease x.2.holder = false

/-- The same, of a task other than `lh`. -/
def expectsOther (s : Cluster) (h : HostId) (lh : LockHolder) : Prop :=
  ∃ x ∈ s.net, x.1 = .host h ∧ isNotif x = true ∧ (s.host h).earlyRelease x.2.holder = false
    ∧ x.2.holder ≠ lh

instance (s : Cluster) (h : HostId) : Decidable (s.expects h) :=
  inferInstanceAs (Decidable (∃ x ∈ s.net, _))

instance (s : Cluster) (h : HostId) (lh : LockHolder) : Decidable (s.expectsOther h lh) :=
  inferInstanceAs (Decidable (∃ x ∈ s.net, _))

/-- The release that an event brings to the agent, by a call or by a packet. -/
def releasing (s : Cluster) : Event → Option (HostId × LockHolder)
  | .release h t => if (s.host h).isAgent then some (h, (h, t)) else none
  | .deliver i =>
      match s.net[i]? with
      | some (.host h, p) =>
          if p.type = .release ∧ (s.host h).isAgent then some (h, p.holder) else none
      | _ => none
  | _ => none

end Cluster

/-- When the last recorded holder is released at the agent, then no notification is on its way, or
one of another task whose release has not come in, or the host will try again. -/
def GivesUpInTime (s : Cluster) (e : Event) : Prop :=
  match s.releasing e with
  | some (h, lh) => (s.host h).holders.erase lh = ∅ →
      (s.host h).delayedFree = true ∨ s.notifs = 0 ∨ s.expectsOther h lh
  | none => True

/-- When a host sends a packet again, it has no waiters of its own, and the same holds of the
notifications. -/
def ResendsAll (s : Cluster) (e : Event) : Prop :=
  match s.delivered e with
  | some (.host h, p) => p.type = .transfer ∨ p.type = .free →
      (s.host h).delayedFree = true → (s.host h).holders = ∅ →
        (s.host h).wqueue = [] ∧ (s.notifs = 0 ∨ s.expects h)
  | _ => True

instance (s : Cluster) (e : Event) : Decidable (GivesUpInTime s e) :=
  match h : s.releasing e with
  | some (h', lh) => decidable_of_iff
      ((s.host h').holders.erase lh = ∅ →
        (s.host h').delayedFree = true ∨ s.notifs = 0 ∨ s.expectsOther h' lh)
      (by simp only [GivesUpInTime, h])
  | none => isTrue (by simp only [GivesUpInTime, h])

instance (s : Cluster) (e : Event) : Decidable (ResendsAll s e) :=
  match h : s.delivered e with
  | some (.host h', p) => decidable_of_iff
      (p.type = .transfer ∨ p.type = .free →
        (s.host h').delayedFree = true → (s.host h').holders = ∅ →
          (s.host h').wqueue = [] ∧ (s.notifs = 0 ∨ s.expects h'))
      (by simp only [ResendsAll, h])
  | some (.switch, p) => isTrue (by simp only [ResendsAll, h])
  | none => isTrue (by simp only [ResendsAll, h])

/-- The condition on a step under which a rejection loses nothing. -/
def Retaining (s : Cluster) (e : Event) : Prop :=
  Guarded s e ∧ GivesUpInTime s e ∧ ResendsAll s e

instance (s : Cluster) (e : Event) : Decidable (Retaining s e) :=
  inferInstanceAs (Decidable (_ ∧ _))

/-! ## What is expected stays expected -/

lemma Cluster.expectsOther.expects {h : HostId} {lh : LockHolder} (hx : s.expectsOther h lh) :
    s.expects h := by
  obtain ⟨x, hmem, hdst, hn, her, -⟩ := hx
  exact ⟨x, hmem, hdst, hn, her⟩

/-- An expected notification that a step does not use up and whose mark it does not set. -/
lemma Moves.expects {used made : Multiset Flight} (m : Moves s s' used made)
    (hc : s'.cell.agent = s.cell.agent) {P : Flight → Prop}
    (hx : ∃ x ∈ s.net, x.1 = .host s.cell.agent ∧ isNotif x = true
      ∧ s.agentHost.earlyRelease x.2.holder = false ∧ P x)
    (hkeep : ∀ x, isNotif x = true → s.agentHost.earlyRelease x.2.holder = false → P x →
      x ∉ used ∧ s'.agentHost.earlyRelease x.2.holder = false) :
    s'.expects s'.cell.agent := by
  obtain ⟨x, hmem, hdst, hn, her, hP⟩ := hx
  obtain ⟨hused, her'⟩ := hkeep x hn her hP
  obtain ⟨rest, h, h'⟩ := m
  have hrest : x ∈ rest := by
    have hfl : x ∈ s.flights := hmem
    rw [h, Multiset.mem_add] at hfl
    exact hfl.resolve_left hused
  have hmem' : x ∈ s'.flights := by
    rw [h']
    exact Multiset.mem_add.2 (.inr hrest)
  exact ⟨x, hmem', by rw [hc, hdst], hn, her'⟩

/-- The same for a step that uses no notification and leaves the marks alone. -/
lemma Moves.expects_of_eq {used made : Multiset Flight} (m : Moves s s' used made)
    (hc : s'.cell.agent = s.cell.agent) (hu : ∀ x ∈ used, isNotif x = false)
    (her : s'.agentHost.earlyRelease = s.agentHost.earlyRelease)
    (hx : s.expects s.cell.agent) : s'.expects s'.cell.agent := by
  obtain ⟨x, hmem, hdst, hn, hmark⟩ := hx
  refine m.expects hc (P := fun _ => True) ⟨x, hmem, hdst, hn, hmark, trivial⟩ fun y hy hm _ => ?_
  refine ⟨fun hmem' => ?_, by rw [her]; exact hm⟩
  rw [hu y hmem'] at hy
  cases hy

/-! ## The invariant -/

/-- Whoever has the lock at its disposal and records no holder expects a notification, has heard of
the release that makes it try again, or has just sent a packet that accounts for everything. -/
structure Expectant (s : Cluster) : Prop where
  agent : s.agentHost.isAgent = true → s.agentHost.holders = ∅ → s.expects s.cell.agent
  out : ∀ p, (Dst.switch, p) ∈ s.tokens → s.agentHost.holders = ∅ →
    s.agentHost.delayedFree = true ∨ s.expects s.cell.agent
      ∨ s.agentHost.ncnt = 0 ∧ s.notifs = 0
  back : ∀ h p, (Dst.host h, p) ∈ s.tokens → p.type ≠ .grantWithAgent →
    s.agentHost.holders = ∅ → s.agentHost.delayedFree = true ∨ s.expects s.cell.agent

namespace Expectant

lemma of_holders (h : s.agentHost.holders ≠ ∅) : Expectant s :=
  ⟨fun _ h' => absurd h' h, fun _ _ h' => absurd h' h, fun _ _ _ _ h' => absurd h' h⟩

lemma of_expects (h : s.expects s.cell.agent) : Expectant s :=
  ⟨fun _ _ => h, fun _ _ _ => .inr (.inl h), fun _ _ _ _ _ => .inr h⟩

lemma of_disposal (x : AtDisposal s (s.agentHost.holders = ∅ → s.expects s.cell.agent)
    (s.agentHost.holders = ∅ → s.agentHost.delayedFree = true ∨ s.expects s.cell.agent
      ∨ s.agentHost.ncnt = 0 ∧ s.notifs = 0)
    (s.agentHost.holders = ∅ → s.agentHost.delayedFree = true ∨ s.expects s.cell.agent)) :
    Expectant s :=
  ⟨x.agent, x.out, x.back⟩

end Expectant

/-- The release that makes the agent give the lock up is the one that the event brings. -/
lemma Drop.releasing {m : Cluster} {lh : LockHolder} (x : Drop s m lh) (hi : Inv lid s)
    (y : HandOver m s' p) (hs : s.step e = some s') : s.releasing e = some (s.cell.agent, lh) := by
  obtain ⟨used, hold, er, lc, src, ef, -⟩ := x.effect
  have hag : (s.host s.cell.agent).isAgent = true := x.isAgent
  cases src with
  | call hholding hown htask =>
      have he : e = .release lh.1 lh.2 := by
        refine Cluster.release_of_idle hs hholding ?_
        rw [y.task, htask, Function.update_self]
      rw [he, Cluster.releasing, hown, if_pos hag, ← hown]
  | @packet q htype hholder hwq hmem htask =>
      -- the release is gone afterwards, since it was the only one
      have hrel : s.rel lh = 1 := ((hi.task lh).of_rel (le_trans (by simp [typedPkt, htype, hholder])
        (Cluster.rel_le lh hmem))).2.1
      have hm := ef.moves.rel lh
      have hm' := y.effect.moves.rel lh
      have hpkt : typedPkt .release lh (Dst.switch, p) = 0 := by
        rcases y.pkt.type with h | h <;> simp [typedPkt, h]
      have hused : typedPkt .release lh (Dst.host s.cell.agent, q) = 1 := by
        simp [typedPkt, htype, hholder]
      simp only [inFlight_singleton, inFlight_zero, hpkt, hused, add_zero] at hm hm'
      have hgone : (Dst.host s.cell.agent, q) ∉ s'.flights := by
        intro hmem'
        have hle := Cluster.rel_le lh hmem'
        omega
      have hd := Cluster.delivered_of_gone hs hmem hgone
      cases e with
      | deliver i =>
          have hx : s.net[i]? = some (Dst.host s.cell.agent, q) := hd
          simp only [Cluster.releasing, hx, htype, hag, and_self, if_true, hholder]
      | acquire h t op => cases hd
      | poll h t => cases hd
      | release h t => cases hd

/-- What the sender does with a packet that comes back. -/
lemma Inv.pushedBack_step (hi : Inv lid s) (hs : s.step e = some s') {h : HostId}
    (hd : s.delivered e = some (.host h, p)) (ht : p.type = .transfer ∨ p.type = .free) :
    h = s.cell.agent ∧ Held s (.back p)
      ∧ (s.agentHost.delayedFree = true ∧ s.agentHost.holders = ∅ ∧ Resend s s' p
        ∨ Restore s s' p) := by
  obtain ⟨rest, hfl, rfl⟩ := Cluster.step_host hs hd
  have hx := mem_of_flights hfl
  obtain ⟨rfl, hk⟩ := hi.held_back hx ht
  refine ⟨rfl, hk, ?_⟩
  have hcode : lockPacketProcess (conf s.cell.agent) s.agentHost p
      = processPushedBack s.agentHost p := by
    rcases ht with ht | ht <;> simp [lockPacketProcess, ht]
  have ef := hostStep_effect hfl
  rw [← Cluster.agentHost, hcode] at ef
  rcases processPushedBack_spec s.agentHost p with ⟨hdf, hh, hl, hsw⟩ | ⟨hb, hl, hsw⟩
  · rw [hl, hsw] at ef
    exact .inl ⟨hdf, hh, ⟨hx, ef, rfl, rfl⟩, ht, hh⟩
  · rw [hl, hsw] at ef
    exact .inr ⟨⟨hx, ef, rfl, rfl⟩, ht, hb⟩

/-- A packet is sent again because a release has come in meanwhile. -/
lemma Resend.delayed (x : Resend s s' p) (hi : Inv lid s) (hi' : Inv lid s')
    (hs : s.step e = some s') :
    s.delivered e = some (.host s.cell.agent, p) ∧ s.agentHost.delayedFree = true := by
  have hko := x.held hi'
  have hgone : (Dst.host s.cell.agent, p) ∉ s'.flights := by
    intro hmem
    have htok : (Dst.host s.cell.agent, p) ∈ s'.tokens :=
      Multiset.mem_filter.2 ⟨hmem, isToken_of_handOver x.type _⟩
    rw [hko.tokens] at htok
    simp [Token.flights] at htok
  have hd := Cluster.delivered_of_gone hs x.mem hgone
  refine ⟨hd, ?_⟩
  obtain ⟨-, hk, ⟨hdf, -⟩ | y⟩ := hi.pushedBack_step hs hd x.type
  · exact hdf
  · have h1 := x.effect.host_self
    rw [y.effect.host_self] at h1
    have h2 : true = s.agentHost.isAgent := congrArg InnetLock.isAgent h1
    rw [hk.agent] at h2
    cases h2

/-! ## The transitions that matter -/

/-- The agent gives the lock up. -/
lemma Drop.expectant {m : Cluster} {lh : LockHolder} (x : Drop s m lh) (y : HandOver m s' p)
    (hi : Inv lid s) (hi' : Inv lid s') (hs : s.step e = some s') (hg : GivesUpInTime s e) :
    Expectant s' := by
  have hrel := x.releasing hi y hs
  simp only [GivesUpInTime, hrel] at hg
  obtain ⟨used, hold, er, lc, src, ef, hcase⟩ := x.effect
  have hm : m.agentHost = dropped s.agentHost hold er lc := ef.agentHost_self (by rw [x.cell])
  have ha : s'.agentHost = handedOver m.agentHost := y.effect.agentHost_self (by rw [y.cell])
  have hempty : s.agentHost.holders.erase lh = ∅ := by
    have hh : hold = ∅ := by simpa [hm, dropped] using y.holders
    rcases hcase with ⟨-, rfl, -⟩ | ⟨hlh, rfl, -⟩
    · exact hh
    · rw [Finset.erase_eq_of_notMem hlh, hh]
  have hn : s'.notifs = s.notifs := by
    have h1 := ef.moves.notifs
    have h2 := y.effect.moves.notifs
    have hpkt : isNotif (Dst.switch, p) = false := rfl
    rw [inFlight_notif_eq_zero fun z hz => (src.pkt z hz).1.notif] at h1
    simp only [inFlight_singleton, inFlight_zero, hpkt, Bool.toNat_false, add_zero] at h1 h2
    omega
  refine .of_disposal (.of_out (y.held hi') fun _ => ?_)
  rcases hg hempty with hdf | hnone | hother
  · left
    rw [ha, hm]
    exact hdf
  · refine .inr (.inr ⟨?_, hn.trans hnone⟩)
    rw [ha]
    rfl
  · -- the other notification is still on its way, and its mark is not the one that was set
    refine .inr (.inl ?_)
    have hmid : m.expects m.cell.agent := by
      refine ef.moves.expects (by rw [x.cell]) hother fun z hz hmark hne => ⟨fun hused => ?_, ?_⟩
      · rw [(src.pkt z hused).1.notif] at hz
        cases hz
      · rw [hm]
        rcases hcase with ⟨-, -, rfl⟩ | ⟨-, -, rfl⟩
        · exact hmark
        · exact (Function.update_of_ne hne _ _).trans hmark
    refine y.effect.moves.expects_of_eq (by rw [y.cell]) (by simp) ?_ hmid
    rw [ha]
    rfl

/-- A grant by the switch is notified to the agent, which has no mark for it. -/
lemma AcquireShared.expects (x : AcquireShared s s' p) (hi : Inv lid s) :
    s'.expects s'.cell.agent := by
  have hmade := x.effect.moves.mem_made (Multiset.mem_cons_self _ _)
  refine ⟨_, hmade, by rw [x.cell], by simp [isNotif, x.type], ?_⟩
  have hpend : 1 ≤ s.pend p.holder false := by
    refine le_trans ?_ (Cluster.pendPkt_le p.holder false x.mem)
    simp [pendPkt, x.type, LockHdr.isFor, x.mode]
  have hmark := hi.not_marked hpend s.cell.agent
  have hagent : s'.cell.agent = s.cell.agent := by rw [x.cell]
  rw [hagent, x.host]
  exact hmark

/-- A packet that accounts for everything is not pushed back. -/
lemma PushBack.expectant (x : PushBack s s' p) (hi : Inv lid s) (hi' : Inv lid s')
    (hb : Expectant s) : Expectant s' := by
  have hko := hi.held_out x.mem x.type
  have ha : s'.agentHost = s.agentHost := x.effect.agentHost_self (by rw [x.cell])
  refine .of_disposal (.of_back (x.held hi') fun hh => ?_)
  rw [ha] at hh ⊢
  have htok : (Dst.switch, p) ∈ s.tokens :=
    Multiset.mem_filter.2 ⟨x.mem, isToken_of_handOver x.type _⟩
  rcases hb.out p htok hh with hdf | hex | ⟨hc, hn⟩
  · exact .inl hdf
  · refine .inr (x.effect.moves.expects_of_eq (by rw [x.cell]) ?_ (by rw [ha]) hex)
    simp [isNotif]
  · exfalso
    obtain ⟨-, -, hold⟩ := hko.token
    have hp := x.pushed
    simp only [pushedBack, decide_eq_true_eq] at hp
    have hcount := hko.count (hold.symm.trans hp.1)
    rw [hc, hn] at hcount
    exact hp.2 (by simpa [Token.ncnt] using hcount)

/-- A notification makes a holder known, or finds its mark; the one that is expected is another
then. -/
lemma Notification.expectant (x : Notification s e s' p) (hb : Expectant s) : Expectant s' := by
  have ha := x.effect.agentHost_self (by rw [x.cell])
  cases hear : s.agentHost.earlyRelease p.holder with
  | false =>
      refine .of_holders ?_
      rw [ha]
      exact Finset.ne_empty_of_mem (mem_notified_holders.2 (.inr ⟨rfl, hear⟩))
  | true =>
      obtain ⟨-, hag, -, -, -, hdf⟩ := notified_frame s.agentHost p.holder
      have hh : (notified s.agentHost p.holder).holders = s.agentHost.holders := by
        rw [notified, hear]
        rfl
      have hex : s.expects s.cell.agent → s'.expects s'.cell.agent := by
        rintro ⟨y, hmem, hdst, hn, hmark⟩
        refine x.effect.moves.expects (P := fun _ => True) (by rw [x.cell])
          ⟨y, hmem, hdst, hn, hmark, trivial⟩ fun z hz hmarkz _ => ?_
        have hne : z.2.holder ≠ p.holder := by
          intro heq
          rw [heq, hear] at hmarkz
          cases hmarkz
        refine ⟨fun hused => hne ?_, ?_⟩
        · rw [Multiset.mem_singleton.1 hused]
        · rw [ha, notified_earlyRelease, if_neg hne]
          exact hmarkz
      refine ⟨fun h h' => hex (hb.agent ?_ ?_), fun q hq h' => ?_, fun h q hq hne h' => ?_⟩
      · rwa [ha, hag] at h
      · rwa [ha, hh] at h'
      · rw [x.tokens] at hq
        rw [ha, hh] at h'
        rcases hb.out q hq h' with h1 | h1 | ⟨-, h1⟩
        · exact .inl (by rw [ha, hdf]; exact h1)
        · exact .inr (.inl (hex h1))
        · have := x.notifs
          omega
      · rw [x.tokens] at hq
        rw [ha, hh] at h'
        exact (hb.back h q hq hne h').imp (fun h1 => by rw [ha, hdf]; exact h1) hex

/-- A packet that is sent again. -/
lemma Resend.expectant (x : Resend s s' p) (hi : Inv lid s) (hi' : Inv lid s')
    (hs : s.step e = some s') (hr : ResendsAll s e) : Expectant s' := by
  obtain ⟨hd, hdf⟩ := x.delayed hi hi' hs
  simp only [ResendsAll, hd] at hr
  obtain ⟨-, hrest⟩ := hr x.type hdf x.holders
  have ha : s'.agentHost = resent s.agentHost := x.effect.agentHost_self (by rw [x.cell])
  have hpkt : isNotif (Dst.host s.cell.agent, p) = false := by
    rcases x.type with h | h <;> simp [isNotif, h]
  refine .of_disposal (.of_out (x.held hi') fun _ => .inr ?_)
  rcases hrest with hnone | hex
  · right
    have hn := x.effect.moves.notifs
    simp only [inFlight_singleton, hpkt, hnone, Bool.toNat_false, add_zero] at hn
    rw [ha]
    exact ⟨rfl, hn⟩
  · left
    refine x.effect.moves.expects_of_eq (by rw [x.cell]) ?_ (by rw [ha]; rfl) hex
    simpa using hpkt

/-- A sender that takes the lock back. -/
lemma Restore.expectant (x : Restore s s' p) (hi' : Inv lid s') (hb : Expectant s) :
    Expectant s' := by
  have ha : s'.agentHost = restored s.agentHost p := x.effect.agentHost_self (by rw [x.cell])
  have hag : s'.agentHost.isAgent = true := by rw [ha]; rfl
  have hpkt : isNotif (Dst.host s.cell.agent, p) = false := by
    rcases x.type with h | h <;> simp [isNotif, h]
  refine .of_disposal (.of_agent (hi'.held_agent hag).2 fun hh => ?_)
  rw [ha] at hh
  have hne : p.type ≠ .grantWithAgent := by
    rcases x.type with h | h <;> rw [h] <;> decide
  have htok : (Dst.host s.cell.agent, p) ∈ s.tokens :=
    Multiset.mem_filter.2 ⟨x.mem, isToken_of_handOver x.type _⟩
  have hex := (hb.back _ p htok hne hh).resolve_left fun hdf => x.busy hdf hh
  refine x.effect.moves.expects_of_eq (by rw [x.cell]) ?_ (by rw [ha]; rfl) hex
  simpa using hpkt

/-- **A step that gives the lock up in time and resends all keeps the agent expectant.** -/
theorem Change.expectant (x : Change s e s') (hi : Inv lid s) (hs : s.step e = some s')
    (hg : GivesUpInTime s e) (hr : ResendsAll s e) (hb : Expectant s) : Expectant s' := by
  have hi' := x.inv hi
  cases x with
  | plain x =>
      have hrole := x.agentHost
      have hex : s.expects s.cell.agent → s'.expects s'.cell.agent :=
        x.effect.moves.expects_of_eq x.cell.agent (fun y hy => (x.used y hy).notif) hrole.early
      exact
        { agent := by rw [hrole.isAgent, hrole.holders]; exact fun h h' => hex (hb.agent h h')
          out := by
            rw [x.tokens, hrole.holders, hrole.delayedFree, hrole.ncnt, x.notifs]
            exact fun p hp hh => (hb.out p hp hh).imp id (Or.imp hex id)
          back := by
            rw [x.tokens, hrole.holders, hrole.delayedFree]
            exact fun h p hp ht hh => (hb.back h p hp ht hh).imp id hex }
  | localGrant x => exact .of_holders (x.holders hi)
  | drop x left => exact .of_holders left
  | dropAndHandOver x y => exact x.expectant y hi hi' hs hg
  | acquireFree x =>
      obtain ⟨q, hq⟩ := x.held hi'
      exact .of_disposal (.of_grant hq)
  | acquireShared x => exact .of_expects (x.expects hi)
  | pushBack x => exact x.expectant hi hi' hb
  | acceptTransfer x =>
      obtain ⟨q, hq⟩ := x.held hi'
      exact .of_disposal (.of_grant hq)
  | acceptFree x => exact .of_disposal (.of_unheld (x.unheld hi'))
  | notification x => exact x.expectant hb
  | delayedRelease x =>
      have ha := x.effect.agentHost_self (by rw [x.cell])
      refine ⟨fun h => ?_, fun _ _ _ => .inl ?_, fun _ _ _ _ _ => .inl ?_⟩
      · rw [ha] at h
        exact absurd (x.isAgent.symm.trans h) (by decide)
      · rw [ha]
        rfl
      · rw [ha]
        rfl
  | resend x => exact x.expectant hi hi' hs hr
  | restore x => exact x.expectant hi' hb
  | takeOver x => exact .of_holders x.holders

/-- All invariants together hold along every retaining run. -/
theorem invariants_of_retaining (hlid : lid.toNat < SWITCH_LOCK_NUM)
    (h : Cluster.Reachable lid Retaining s) : Inv lid s ∧ Expectant s := by
  refine Reach.invariant (I := fun s => Inv lid s ∧ Expectant s) ?_ ?_ h
  · have hi := inv_init lid
    refine ⟨hi, ?_⟩
    rcases hi.token with hu | ⟨k, hk⟩
    · exact .of_disposal (.of_unheld hu)
    · cases hk.acquired
  · rintro s e s' ⟨hi, hb⟩ ⟨hg, hgive, hres⟩ hs
    have x := step_change hlid hi hg hs
    exact ⟨x.inv hi, x.expectant hi hs hgive hres hb⟩

/-! ## What must not get lost -/

/-- The waiters that a `FREE` or `TRANSFER` carries: the one it names first, then its payload. -/
def LockHdr.carried (p : LockHdr) : List Wqe :=
  if p.type = .transfer then Wqe.ofReq p.modeState p.taskId p.machineId :: p.wq else []

/-- The sender is the agent again, with all the waiters and everything it counted. -/
structure TookBack (s s' : Cluster) (h : HostId) (p : LockHdr) : Prop where
  isAgent : (s'.host h).isAgent = true
  mode : (s'.host h).mode = p.oldModeState
  wqueue : (s'.host h).wqueue = (s.host h).wqueue ++ p.carried
  once : ((s'.host h).wqueue.map Wqe.holder).Nodup
  ncnt : (s'.host h).ncnt.setWidth 8 = p.ncnt + (s.host h).ncnt.setWidth 8

/-- The sender has sent a packet with all the waiters and everything it counted. -/
def SentAgain (s s' : Cluster) (h : HostId) (p : LockHdr) : Prop :=
  ∃ q, (Dst.switch, q) ∈ s'.net ∧ (q.type = .transfer ∨ q.type = .free) ∧ q.agent = h
    ∧ (∀ w ∈ (s.host h).wqueue ++ p.carried, w ∈ q.carried)
    ∧ q.ncnt = p.ncnt + (s.host h).ncnt.setWidth 8

/-- Host `h` has got `p` back, going from `s` to `s'`, and nothing is lost: not the waiters, and not
the prospect that the lock is given up. -/
structure NothingLost (s s' : Cluster) (h : HostId) (p : LockHdr) : Prop where
  waiters : TookBack s s' h p ∨ SentAgain s s' h p
  stranded : (s'.host h).isAgent = false → (s'.host h).wqueue ≠ [] →
    ∃ q, (q.type = .transfer ∨ q.type = .free) ∧ q.agent = h
      ∧ ((Dst.switch, q) ∈ s'.net ∨ (Dst.host h, q) ∈ s'.net)
  pending : (s'.host h).isAgent = true → (s'.host h).holders = ∅ → s'.expects h

/-- A request waits in at most one entry of a queue. -/
lemma Inv.nodup_wqueue (hi : Inv lid s) (h : HostId) :
    ((s.host h).wqueue.map Wqe.holder).Nodup := by
  rw [List.nodup_iff_count_le_one]
  intro lh
  have hcount : ((s.host h).wqueue.map Wqe.holder).count lh
      = (s.host h).wqueue.countP (fun e => e.holder = lh) := by
    rw [List.count, List.countP_map]
    congr 1
    funext w
    exact beq_eq_decide _ _
  rw [hcount, countP_holder_eq]
  have hf := s.countP_le lh false h
  have ht := s.countP_le lh true h
  by_cases hp : 1 ≤ s.pend lh false
  · obtain ⟨-, h1, h2, -⟩ := (hi.task lh).of_pend hp
    simp only [Bool.not_false] at h2
    omega
  · by_cases hp' : 1 ≤ s.pend lh true
    · obtain ⟨-, h1, -⟩ := (hi.task lh).of_pend hp'
      omega
    · omega

lemma setWidth_restored_ncnt (l : InnetLock) (p : LockHdr) :
    (restored l p).ncnt.setWidth 8 = p.ncnt + l.ncnt.setWidth 8 := by
  rw [restored, add_comm]
  apply BitVec.eq_of_toNat_eq
  simp only [BitVec.toNat_setWidth, BitVec.toNat_add]
  omega

/-- **A rejection loses nothing in a retaining run**: neither a waiter, nor a notification, nor the
lock itself. -/
theorem rejection_loses_nothing (hlid : lid.toNat < SWITCH_LOCK_NUM)
    (h : Cluster.Reachable lid Retaining s) (hok : Retaining s e) {a : HostId}
    (hd : s.delivered e = some (.host a, p)) (ht : p.type = .transfer ∨ p.type = .free)
    (hs : s.step e = some s') : NothingLost s s' a p := by
  obtain ⟨hi, hb⟩ := invariants_of_retaining hlid h
  obtain ⟨hg, hgive, hres⟩ := hok
  have x := step_change hlid hi hg hs
  have hi' := x.inv hi
  have hb' := x.expectant hi hs hgive hres hb
  obtain ⟨rfl, hk, hcase⟩ := hi.pushedBack_step hs hd ht
  rcases hcase with ⟨hdf, hh, y⟩ | y
  · -- sent again: nobody has queued up meanwhile
    simp only [ResendsAll, hd] at hres
    obtain ⟨hw, -⟩ := hres ht hdf hh
    have ha : s'.host s.cell.agent = resent s.agentHost := y.effect.host_self
    have hsent := y.effect.moves.mem_made (Multiset.mem_singleton_self _)
    refine ⟨.inr ⟨_, hsent, ht, hk.token.2.1, ?_, rfl⟩, fun _ hw' => ?_, fun hag => ?_⟩
    · rw [hw]
      exact fun w hmem => hmem
    · rw [ha] at hw'
      exact absurd hw hw'
    · rw [ha] at hag
      cases hk.agent.symm.trans hag
  · -- taken back
    have ha : s'.host s.cell.agent = restored s.agentHost p := y.effect.host_self
    have hcell : s'.cell.agent = s.cell.agent := by rw [y.cell]
    refine ⟨.inl ⟨?_, ?_, ?_, hi'.nodup_wqueue _, ?_⟩, fun hno => ?_, fun hag hh => ?_⟩
    · rw [ha]; rfl
    · rw [ha]; rfl
    · rw [ha, restored, LockHdr.carried]
      split
      · rfl
      · exact (List.append_nil _).symm
    · rw [ha]
      exact setWidth_restored_ncnt _ _
    · rw [ha] at hno
      cases hno
    · rw [← hcell] at hag hh ⊢
      exact hb'.agent hag hh

/-- Host 1 gives the lock up while host 2 has just been granted it, too. -/
theorem rejection_loses_nothing_shared : ∃ s s' p, Cluster.Reachable 7 Retaining s
    ∧ s.delivered (.deliver 0) = some (.host 1, p) ∧ NothingLost s s' 1 p := by
  have hex : ∃ s, Cluster.Reachable 7 Retaining s
      ∧ (Retaining s (.deliver 0) ∧ (s.step (.deliver 0)).isSome = true
        ∧ (s.delivered (.deliver 0)).any
            (fun x => decide (x.1 = .host 1 ∧ x.2.type = .free)) = true) :=
    Reach.exists_of_runFrom
      [.acquire 1 1 .shared, .deliver 0, .deliver 0, .poll 1 1, .acquire 2 2 .shared, .deliver 0,
        .release 1 1, .deliver 0] (by decide +kernel)
  obtain ⟨s, hrun, hok, hsome, hany⟩ := hex
  obtain ⟨s', hs⟩ := Option.isSome_iff_exists.1 hsome
  obtain ⟨⟨d, p⟩, hd, hx⟩ := (Option.any_eq_true _ _).1 hany
  obtain ⟨rfl, ht⟩ : d = .host 1 ∧ p.type = .free := of_decide_eq_true hx
  exact ⟨s, s', p, hrun, hd, rejection_loses_nothing (by decide) hrun hok hd (.inr ht) hs⟩

/-- The run that loses a waiter.  While the `FREE` of host 1 is on its way, the grant of host 2 is
notified and released, and an exclusive request of host 3 is queued after three bounces.  The `FREE`
comes back and is sent again, and the waiter stays behind. -/
def forgottenWaiter : List Event :=
  [.acquire 1 1 .shared, .deliver 0, .deliver 0, .poll 1 1, .acquire 2 2 .shared, .deliver 0,
   .release 1 1, .deliver 1, .deliver 1, .poll 2 2, .release 2 2, .deliver 0, .deliver 0,
   .acquire 3 3 .excl, .deliver 0, .deliver 0, .deliver 0, .deliver 0, .deliver 0, .deliver 0,
   .deliver 0, .deliver 0, .deliver 0]

/-- **In general, a rejection can lose a waiter.** -/
theorem rejection_loses_nothing_fails :
    ¬ ∀ s e s' h p, Cluster.Reachable 7 (fun _ _ => True) s →
      s.delivered e = some (.host h, p) → (p.type = .transfer ∨ p.type = .free) →
      s.step e = some s' → NothingLost s s' h p := by
  intro hall
  have hex : ∃ s, Cluster.Reachable 7 (fun _ _ => True) s
      ∧ ((s.host 1).wqueue ≠ []
        ∧ (s.delivered (.deliver 0)).any
            (fun x => decide (x.1 = .host 1 ∧ x.2.type = .free)) = true
        ∧ (s.step (.deliver 0)).any (fun s' => decide ((s'.host 1).isAgent = false
            ∧ ∀ x ∈ s'.net, x.2.type = .free)) = true) :=
    Reach.exists_of_runFrom forgottenWaiter (by decide +kernel)
  obtain ⟨s, hrun, hw, hany, hstep⟩ := hex
  obtain ⟨⟨d, p⟩, hd, hx⟩ := (Option.any_eq_true _ _).1 hany
  obtain ⟨rfl, ht⟩ : d = .host 1 ∧ p.type = .free := of_decide_eq_true hx
  obtain ⟨s', hs, hs'⟩ := (Option.any_eq_true _ _).1 hstep
  obtain ⟨hno, hfree⟩ := of_decide_eq_true hs'
  rcases (hall s _ s' 1 p hrun hd (.inr ht) hs).waiters with hback | ⟨q, hq, -, -, hcarried, -⟩
  · cases hno.symm.trans hback.isAgent
  · obtain ⟨w, hmem⟩ := List.exists_mem_of_ne_nil _ hw
    have hin := hcarried w (List.mem_append_left _ hmem)
    rw [LockHdr.carried, if_neg (by rw [hfree _ hq]; decide)] at hin
    cases hin

end FissLock
