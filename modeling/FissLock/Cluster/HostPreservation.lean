import FissLock.Cluster.SwitchPreservation

/-!
# The invariant at the agent's host

The transitions of `Cluster/Transitions.lean` in which the host of the agent processes a packet:
a notification, a release that comes too late for the hand-over, a packet that was pushed back, and
the agency itself, alone or with a wait queue.
-/

namespace FissLock

open Runs Tofino Accounting

variable {lid : LockId} {s s' : Cluster} {e : Event} {p : LockHdr}

/-! ## Notifications and late releases -/

namespace RequestOk

variable {pS pX W R F : ℕ} {rw : Bool} {st : TaskState}

/-- A notification for a marked task takes the mark away. -/
lemma unmark (h : RequestOk pS pX 1 W R 0 1 F rw st) : RequestOk pS pX 0 W R 0 0 F rw st := by
  cases st with
  | idle =>
      obtain ⟨h1, h2, h3, h4, ⟨-, -, h5, -⟩ | ⟨h5, -, -⟩⟩ := h
      · omega
      · exact ⟨h1, h2, h3, h4, .inr ⟨h5, rfl, rfl⟩⟩
  | waiting op => exact absurd h.2.1 (by decide)
  | holding op => exact absurd h.2.1 (by decide)

/-- A notification for any other task records it. -/
lemma record (h : RequestOk pS pX 1 W R 0 0 F rw st) : RequestOk pS pX 0 W R 1 0 F rw st := by
  cases st with
  | idle =>
      obtain ⟨h1, h2, h3, h4, ⟨h5, -, -, h8⟩ | ⟨-, -, h7⟩⟩ := h
      · exact ⟨h1, h2, h3, h4, .inl ⟨h5, rfl, rfl, h8⟩⟩
      · omega
  | waiting op =>
      obtain ⟨h1, h2, ⟨-, -, -, h6, -⟩ | ⟨h3, h4, h5, -, h7⟩⟩ := h
      · omega
      · exact ⟨h1, h2, .inr ⟨h3, h4, h5, rfl, h7⟩⟩
  | holding op =>
      obtain ⟨h1, h2, h3, h4, h5, h6, -, h8⟩ := h
      exact ⟨h1, h2, h3, h4, h5, h6, rfl, h8⟩

end RequestOk

@[simp] lemma notified_ncnt (l : InnetLock) (lh : LockHolder) :
    (notified l lh).ncnt = l.ncnt + 1 := by
  rw [notified]; split <;> rfl

/-- Only holders and marks of the task in question change. -/
lemma notified_frame (l : InnetLock) (lh : LockHolder) :
    (notified l lh).id = l.id ∧ (notified l lh).isAgent = l.isAgent
      ∧ (notified l lh).mode = l.mode ∧ (notified l lh).wqueue = l.wqueue
      ∧ (notified l lh).taskGranted = l.taskGranted
      ∧ (notified l lh).delayedFree = l.delayedFree := by
  rw [notified]; split <;> exact ⟨rfl, rfl, rfl, rfl, rfl, rfl⟩

lemma mem_notified_holders {l : InnetLock} {lh lh' : LockHolder} :
    lh' ∈ (notified l lh).holders
      ↔ lh' ∈ l.holders ∨ lh' = lh ∧ l.earlyRelease lh = false := by
  rw [notified]
  cases h : l.earlyRelease lh <;> simp [or_comm]

lemma notified_earlyRelease (l : InnetLock) (lh lh' : LockHolder) :
    (notified l lh).earlyRelease lh' = if lh' = lh then false else l.earlyRelease lh' := by
  rw [notified]
  by_cases hne : lh' = lh
  · subst hne
    cases h : l.earlyRelease lh' <;> simp [h]
  · cases h : l.earlyRelease lh <;> simp [hne]

lemma Notification.tokens (x : Notification s e s' p) : s'.tokens = s.tokens :=
  x.effect.moves.tokens_keep (filter_token_eq_zero (by simp [isToken, x.type])) rfl

lemma Notification.notifs (x : Notification s e s' p) : s.notifs = s'.notifs + 1 := by
  have := x.effect.moves.notifs
  simpa [isNotif, x.type, x.granted] using this.symm

theorem Notification.inv (x : Notification s e s' p) (hi : Inv lid s) : Inv lid s' := by
  have ef := x.effect
  have ha : s'.cell.agent = s.cell.agent := by rw [x.cell]
  have hrw : s'.cell.rw = s.cell.rw := by rw [x.cell]
  have hisn : isNotif (Dst.host s.cell.agent, p) = true := by simp [isNotif, x.type, x.granted]
  obtain ⟨hid, hag, hmode, hwq, hfl, -⟩ := notified_frame s.agentHost p.holder
  have hnot := x.notifs
  obtain ⟨k, hk⟩ : ∃ k, Held s k := by
    rcases hi.token with hu | hk
    · have := hu.notifs
      omega
    · exact hk
  have hone : notifPkt p.holder (Dst.host s.cell.agent, p) = 1 := by simp [notifPkt, hisn]
  obtain ⟨hN, hH⟩ := (hi.task p.holder).of_notif (hone ▸ Cluster.notifPkt_le p.holder x.mem)
  have hmem : p.holder ∉ s.agentHost.holders := by
    intro hm
    simp [Cluster.held, hm] at hH
  refine hi.of_effect ef hid (by rw [hwq]; exact hi.wqueue _)
    (hi.flight_step ef.moves ha hrw fun y hy => absurd hy (Multiset.notMem_zero y)) ?_
    (.inr ⟨k, hk.at_agent ef (by rw [x.cell]) hrw ha (x.tokens.trans hk.tokens) hk.token
      (hag.trans hk.agent) (hmode.trans hk.mode)
      (fun hx => absurd (x.rw.symm.trans hx) (by decide)) (fun hsh => ?_) (fun _ q _ hz => ?_)⟩)
  · intro lh
    by_cases hne : lh = p.holder
    · subst hne
      have hc := (hi.task p.holder).counts
      have hp' : ∀ b, s'.pend p.holder b = s.pend p.holder b := fun b => by
        have := ef.pend_eq hwq p.holder b
        simpa [pendPkt, x.type, x.granted] using this
      have hn' : s'.notif p.holder = 0 := by
        have := ef.moves.notif p.holder
        simpa [hone, hN] using this
      have hw' : s'.wo p.holder = s.wo p.holder := by
        have := ef.moves.wo p.holder
        simpa [typedPkt, x.type] using this
      have hr' : s'.rel p.holder = s.rel p.holder := by
        have := ef.moves.rel p.holder
        simpa [typedPkt, x.type] using this
      have hf' : s'.flag p.holder = s.flag p.holder := ef.flag_eq fun _ => by rw [hfl]; rfl
      have he' : s'.early p.holder = 0 := by
        rw [ef.early_self ha, notified_earlyRelease, if_pos rfl]
        rfl
      refine ⟨?_, by rw [x.task]; exact (hi.task p.holder).valid⟩
      rw [x.task, hp', hp', hn', hw', hr', hf', he', hrw, ef.held_self ha]
      rw [hN, hH] at hc
      cases hear : s.agentHost.earlyRelease p.holder with
      | true =>
          have hE : s.early p.holder = 1 := by simp [Cluster.early, hear]
          rw [if_neg (by simp [mem_notified_holders, hmem, hear])]
          rw [hE] at hc
          exact hc.unmark
      | false =>
          have hE : s.early p.holder = 0 := by simp [Cluster.early, hear]
          rw [if_pos (by simp [mem_notified_holders, hear])]
          rw [hE] at hc
          exact hc.record
    · refine (hi.task lh).untouched ef ?_ (fun y hy => absurd hy (Multiset.notMem_zero y))
        (fun _ => by rw [hwq]; rfl) (ef.held_of_iff ha (by simp [mem_notified_holders, hne])) ?_
        (ef.flag_eq fun _ => by rw [hfl]; rfl) hrw (by rw [x.task])
      · intro y hy
        rw [Multiset.mem_singleton.1 hy]
        exact silent_of_ne hne x.wq
      · rw [ef.early_self ha, notified_earlyRelease, if_neg hne]
        rfl
  · rw [x.cell, hk.count hsh, hnot, notified_ncnt, BitVec.setWidth_add _ _ (by decide),
      BitVec.ofNat_add]
    change _ = _ + 1#8 + _ + _
    ac_rfl
  · have hroom := x.room
    have := congrArg BitVec.toNat hz
    simp only [notified_ncnt, BitVec.toNat_add] at this
    change (s.agentHost.ncnt.toNat + 1) % 2 ^ 32 = 0 at this
    omega

lemma DelayedRelease.tokens (x : DelayedRelease s s' p) : s'.tokens = s.tokens :=
  x.effect.moves.tokens_keep (filter_token_eq_zero (by simp [isToken, x.type])) rfl

theorem DelayedRelease.inv (x : DelayedRelease s s' p) (hi : Inv lid s) : Inv lid s' := by
  have ef := x.effect
  have ha : s'.cell.agent = s.cell.agent := by rw [x.cell]
  have hrw : s'.cell.rw = s.cell.rw := by rw [x.cell]
  have hone : typedPkt .release p.holder (Dst.host s.cell.agent, p) = 1 := by
    simp [typedPkt, x.type]
  obtain ⟨ht, hR, hNH, hE, hsh, hp, hW, hF⟩ :=
    (hi.task p.holder).of_rel (hone ▸ Cluster.rel_le p.holder x.mem)
  have hH : s.held p.holder = 1 := if_pos x.holder
  obtain ⟨k, hk⟩ : ∃ k, Held s k := by
    rcases hi.token with hu | hk
    · exact absurd x.holder (by simp [Cluster.agentHost, (hu.quiet _).holders])
    · exact hk
  have hnot : s'.notifs = s.notifs := by
    have := ef.moves.notifs
    simpa [isNotif, x.type] using this
  refine hi.of_effect ef rfl (hi.wqueue _)
    (hi.flight_step ef.moves ha hrw fun y hy => absurd hy (Multiset.notMem_zero y)) ?_
    (.inr ⟨k, hk.at_agent ef (by rw [x.cell]) hrw ha (x.tokens.trans hk.tokens) hk.token
      hk.agent hk.mode (fun hx => absurd (hsh.symm.trans hx) (by decide)) (fun hx => ?_)
      (fun _ q hq hz => ?_)⟩)
  · intro lh
    by_cases hne : lh = p.holder
    · subst hne
      have hp' : ∀ b, s'.pend p.holder b = 0 := fun b => by
        have := ef.pend_eq rfl p.holder b
        simpa [pendPkt, x.type, hp] using this
      have hn' : s'.notif p.holder = 0 := by
        have := ef.moves.notif p.holder
        simp [notifPkt, isNotif, x.type] at this
        omega
      have hw' : s'.wo p.holder = 0 := by
        have := ef.moves.wo p.holder
        simpa [typedPkt, x.type, hW] using this
      have hr' : s'.rel p.holder = 0 := by
        have := ef.moves.rel p.holder
        simpa [hone, hR] using this
      have hf' : s'.flag p.holder = 0 := (ef.flag_eq fun _ => rfl).trans hF
      have he' : s'.early p.holder = 0 := (ef.early_eq ha rfl _).trans hE
      have hh' : s'.held p.holder = 0 := by
        rw [ef.held_self ha]
        exact if_neg (Finset.notMem_erase _ _)
      refine ⟨?_, fun hx => absurd (by rw [x.task]; exact ht) hx⟩
      rw [x.task, ht, hp', hp', hn', hw', hr', hf', he', hh']
      exact ⟨rfl, rfl, rfl, rfl, .inr ⟨rfl, rfl, rfl⟩⟩
    · refine (hi.task lh).untouched ef ?_ (fun y hy => absurd hy (Multiset.notMem_zero y))
        (fun _ => rfl) (ef.held_of_iff ha (by simp [delayed, hne])) (ef.early_eq ha rfl lh)
        (ef.flag_eq fun _ => rfl) hrw (by rw [x.task])
      intro y hy
      rw [Multiset.mem_singleton.1 hy]
      exact silent_of_ne hne x.wq
  · rw [x.cell, hnot]
    exact hk.count hx
  · have := hk.counted hsh q hq hz
    simp [delayed, this]

/-! ## Packets that were pushed back -/

lemma isToken_of_handOver (ht : p.type = .transfer ∨ p.type = .free) (d : Dst) :
    isToken (d, p) = true := by
  rcases ht with h | h <;> simp [isToken, h]

theorem Resend.inv (x : Resend s s' p) (hi : Inv lid s) : Inv lid s' := by
  have hk : Held s (.back p) := (hi.held_back x.mem x.type).2
  obtain ⟨-, hag, hold, hsh⟩ := hk.token
  have ef := x.effect
  have ha : s'.cell.agent = s.cell.agent := by rw [x.cell]
  have htp := isToken_of_handOver x.type
  have htq : isToken (Dst.switch, { p with ncnt := p.ncnt + s.agentHost.ncnt.setWidth 8 }) = true :=
    htp Dst.switch
  obtain ⟨hnot, hpk⟩ := silent_of_tokens ef.moves (by simpa using htp _) (by simpa using htq)
  have htok : s'.tokens
      = {(Dst.switch, { p with ncnt := p.ncnt + s.agentHost.ncnt.setWidth 8 })} := by
    rw [ef.moves.tokens_replace (by
      rw [hk.tokens, Multiset.filter_singleton, if_pos (htp _)]
      rfl), Multiset.filter_singleton, if_pos htq]
  refine hi.of_effect ef rfl (hi.wqueue _) (hi.flight_step ef.moves ha (by rw [x.cell]) ?_) ?_
    (.inr ⟨.out { p with ncnt := p.ncnt + s.agentHost.ncnt.setWidth 8 },
      hk.at_agent ef (by rw [x.cell]) (by rw [x.cell]) ha htok ⟨x.type, hag, hold⟩ hk.agent
      hk.mode (fun hx => absurd (hsh.symm.trans hx) (by decide)) (fun hx => ?_)
      (fun _ _ _ _ => x.holders)⟩)
  · intro y hy
    rw [Multiset.mem_singleton.1 hy]
    refine ⟨(hi.flight _ x.mem).1, ?_⟩
    rcases x.type with h | h <;> simp [h]
  · intro lh
    obtain ⟨hn, hw, hr⟩ := hpk lh
    refine (hi.task lh).of_eq (fun b => ?_) hn hw hr (ef.held_eq ha rfl lh)
      (ef.early_eq ha rfl lh) (ef.flag_eq fun _ => rfl) (by rw [x.cell]) (by rw [x.task])
    have h1 := ef.pend_eq rfl lh b
    have h2 : pendPkt lh b (Dst.switch, { p with ncnt := p.ncnt + s.agentHost.ncnt.setWidth 8 })
        = pendPkt lh b (Dst.host s.cell.agent, p) := by
      rcases x.type with h | h
      · simp only [pendPkt, h]
        rfl
      · simp only [pendPkt, h]
    rw [inFlight_singleton, inFlight_singleton, h2] at h1
    omega
  · rw [x.cell, hnot, hk.count hx, Token.ncnt, Token.ncnt]
    simp only [resent, BitVec.ofNat_eq_ofNat, BitVec.setWidth_zero, BitVec.zero_add]
    ac_rfl

/-- The task a token packet names waits for the lock, and its id survives a wait queue. -/
lemma Inv.holder_of_pend (hi : Inv lid s) {d : Dst} (hx : (d, p) ∈ s.flights)
    (hp : 1 ≤ pendPkt p.holder p.mode (d, p)) :
    (Wqe.ofReq p.modeState p.taskId p.machineId).holder = p.holder := by
  obtain ⟨ht, -⟩ := (hi.task p.holder).of_pend (hp.trans (Cluster.pendPkt_le _ _ hx))
  exact Wqe.holder_ofReq ((hi.task p.holder).valid (by rw [ht]; simp)).2

lemma isFor_ofReq (hh : (Wqe.ofReq p.modeState p.taskId p.machineId).holder = p.holder)
    (lh : LockHolder) (b : Bool) :
    Wqe.isFor lh b (Wqe.ofReq p.modeState p.taskId p.machineId) = p.isFor lh b := by
  rw [Wqe.isFor, LockHdr.isFor, hh, Wqe.op_ofReq, LockHdr.modeState, LockState.bit_ofBit]

/-- What came back goes to the wait queue. -/
lemma countP_restored (l : InnetLock) (ht : p.type = .transfer ∨ p.type = .free)
    (hh : p.type = .transfer → (Wqe.ofReq p.modeState p.taskId p.machineId).holder = p.holder)
    (d : Dst) (lh : LockHolder) (b : Bool) :
    (restored l p).wqueue.countP (Wqe.isFor lh b)
      = l.wqueue.countP (Wqe.isFor lh b) + pendPkt lh b (d, p) := by
  rcases ht with h | h
  · cases d <;>
      simp [restored, pendPkt, h, List.countP_append, List.countP_cons, isFor_ofReq (hh h),
        Bool.toNat, Bool.cond_eq_ite, add_comm]
  · cases d <;> simp [restored, pendPkt, h]

lemma Restore.notifs (x : Restore s s' p) : s'.notifs = s.notifs :=
  (silent_of_tokens x.effect.moves (by simpa using isToken_of_handOver x.type _) (by simp)).1

theorem Restore.inv (x : Restore s s' p) (hi : Inv lid s) : Inv lid s' := by
  have hk : Held s (.back p) := (hi.held_back x.mem x.type).2
  obtain ⟨-, hag, hold, hsh⟩ := hk.token
  have ef := x.effect
  have ha : s'.cell.agent = s.cell.agent := by rw [x.cell]
  have htp := isToken_of_handOver x.type
  obtain ⟨hnot, hpk⟩ := silent_of_tokens ef.moves (by simpa using htp _) (by simp)
  have htok : s'.tokens = 0 := by
    rw [ef.moves.tokens_replace (by
      rw [hk.tokens, Multiset.filter_singleton, if_pos (htp _)]
      rfl), Multiset.filter_zero]
  have hholder : p.type = .transfer →
      (Wqe.ofReq p.modeState p.taskId p.machineId).holder = p.holder := fun h =>
    hi.holder_of_pend x.mem (by simp [pendPkt, h, LockHdr.isFor])
  refine hi.of_effect ef rfl ?_
    (hi.flight_step ef.moves ha (by rw [x.cell]) fun y hy => absurd hy (Multiset.notMem_zero y)) ?_
    (.inr ⟨.agent, hk.at_agent ef (by rw [x.cell]) (by rw [x.cell]) ha htok trivial rfl ?_
      (fun hx => absurd (hsh.symm.trans hx) (by decide)) (fun hx => ?_) (fun _ q hq => by cases hq)⟩)
  · intro w hw
    rcases x.type with h | h
    · simp only [restored, h, if_true, List.mem_append, List.mem_cons] at hw
      rcases hw with hw | rfl | hw
      · exact hi.wqueue _ w hw
      · cases hm : p.mode <;> simp [LockHdr.modeState, hm, LockState.ofBit]
      · exact (hi.flight _ x.mem).1 w hw
    · rw [restored, h] at hw
      exact hi.wqueue _ w hw
  · intro lh
    obtain ⟨hn, hw, hr⟩ := hpk lh
    refine (hi.task lh).of_eq (fun b => ?_) hn hw hr (ef.held_eq ha rfl lh)
      (ef.early_eq ha rfl lh) (ef.flag_eq fun _ => rfl) (by rw [x.cell]) (by rw [x.task])
    have h1 := ef.moves.pend ef.host lh b
    rw [countP_restored s.agentHost x.type hholder (Dst.host s.cell.agent), inFlight_singleton,
      inFlight_zero, Cluster.agentHost] at h1
    omega
  · change p.oldModeState = LockState.ofBit s.cell.rw
    rw [LockHdr.oldModeState, hold]
  · rw [x.cell, hnot, hk.count hx, Token.ncnt, Token.ncnt]
    simp only [restored, BitVec.setWidth_add _ _ (by decide : 8 ≤ 32), BitVec.ofNat_eq_ofNat,
      BitVec.add_zero, BitVec.setWidth_setWidth_of_le _ (by decide : 8 ≤ 32), BitVec.setWidth_eq]

/-! ## The agency arrives -/

section TakeOver

variable {gr kept : List Wqe}

/-- Grants count as grants and as nothing else. -/
lemma inFlight_grantsFor (lid : LockId) (gr : List Wqe) (lh : LockHolder) :
    inFlight (notifPkt lh) (grantsFor lid gr) = 0
      ∧ inFlight (typedPkt .release lh) (grantsFor lid gr) = 0
      ∧ (∀ b, inFlight (pendPkt lh b) (grantsFor lid gr) = 0)
      ∧ inFlight (typedPkt .grantWoAgent lh) (grantsFor lid gr)
          = gr.countP (fun w => decide (w.holder = lh)) := by
  induction gr with
  | nil => simp [grantsFor]
  | cons w gr ih =>
      obtain ⟨h1, h2, h3, h4⟩ := ih
      have hcons : (grantsFor lid (w :: gr) : Multiset Flight)
          = (Dst.switch, sendPostGrant lid w.host w.taskId) ::ₘ (grantsFor lid gr) := rfl
      have hh : (sendPostGrant lid w.host w.taskId).holder = w.holder := rfl
      have ht : (sendPostGrant lid w.host w.taskId).type = .grantWoAgent := rfl
      simp only [hcons, inFlight_cons, h1, h2, h3, h4]
      simp [notifPkt, isNotif, typedPkt, pendPkt, hh, ht, List.countP_cons, Bool.toNat,
        Bool.cond_eq_ite, add_comm]

lemma mem_grantsFor {lid : LockId} {gr : List Wqe} {x : Flight}
    (hx : x ∈ (grantsFor lid gr : Multiset Flight)) :
    isToken x = false ∧ isNotif x = false ∧ ∀ c, FlightOk c x := by
  rw [Multiset.mem_coe, grantsFor, List.mem_map] at hx
  obtain ⟨w, -, rfl⟩ := hx
  exact ⟨rfl, rfl, fun c => ⟨by simp [sendPostGrant, sendPostLockGeneric], rfl⟩⟩

namespace TakeOver

/-- Every entry of the wait queue is granted or kept. -/
lemma countP_wq (x : TakeOver s s' p gr kept) (lh : LockHolder) (b : Bool) :
    p.wq.countP (Wqe.isFor lh b)
      = gr.countP (Wqe.isFor lh b) + kept.countP (Wqe.isFor lh b) := by
  rcases x.split with ⟨rfl, rfl⟩ | ⟨-, rfl, rfl⟩
  · simp
  · rw [List.countP_eq_countP_filter_add p.wq (Wqe.isFor lh b) (fun w => decide (w.op = .shared)),
      sharedEntries, otherEntries]
    simp

lemma gr_shared (x : TakeOver s s' p gr kept) : ∀ w ∈ gr, w.op = .shared ∧ p.mode = LOCK_SHARED := by
  rcases x.split with ⟨rfl, -⟩ | ⟨hm, rfl, -⟩
  · simp
  · intro w hw
    simp only [sharedEntries, List.mem_filter, decide_eq_true_eq] at hw
    exact ⟨hw.2, hm⟩

lemma kept_mem (x : TakeOver s s' p gr kept) : ∀ w ∈ kept, w ∈ p.wq := by
  rcases x.split with ⟨-, rfl⟩ | ⟨-, -, rfl⟩
  · exact fun _ h => h
  · exact fun w hw => (List.mem_filter.1 hw).1

lemma countP_holder (x : TakeOver s s' p gr kept) (lh : LockHolder) :
    gr.countP (fun w => decide (w.holder = lh)) = gr.countP (Wqe.isFor lh false)
      ∧ gr.countP (Wqe.isFor lh true) = 0 := by
  constructor
  · refine List.countP_congr fun w hw => ?_
    simp [Wqe.isFor, (x.gr_shared w hw).1, LockState.bit]
  · refine List.countP_eq_zero.2 fun w hw => ?_
    simp [Wqe.isFor, (x.gr_shared w hw).1, LockState.bit]

/-- The packet represents the pending request of the new holder, and those of its payload. -/
lemma pendPkt_eq (x : TakeOver s s' p gr kept) (lh : LockHolder) (b : Bool) :
    pendPkt lh b (Dst.host s.cell.agent, p)
      = (p.isFor lh b).toNat + gr.countP (Wqe.isFor lh b) + kept.countP (Wqe.isFor lh b) := by
  rw [add_assoc, ← x.countP_wq lh b]
  simp [pendPkt, x.type]

/-- The pending requests before and after. -/
lemma pend (x : TakeOver s s' p gr kept) (lh : LockHolder) (b : Bool) :
    s'.pend lh b + (p.isFor lh b).toNat + gr.countP (Wqe.isFor lh b) = s.pend lh b := by
  have h1 := x.effect.moves.pend x.effect.host lh b
  rw [inFlight_singleton, x.pendPkt_eq, (inFlight_grantsFor _ gr lh).2.2.1 b] at h1
  have h2 : (becomeAgent s.agentHost p
      (insert p.holder s.agentHost.holders ∪ (gr.map Wqe.holder).toFinset)
      (s.agentHost.wqueue ++ kept)).wqueue = (s.host s.cell.agent).wqueue ++ kept := rfl
  rw [h2, List.countP_append] at h1
  omega

lemma counts (x : TakeOver s s' p gr kept) (lh : LockHolder) :
    s'.notif lh = s.notif lh ∧ s'.rel lh = s.rel lh
      ∧ s'.wo lh = s.wo lh + gr.countP (Wqe.isFor lh false) := by
  obtain ⟨g1, g2, -, g4⟩ := inFlight_grantsFor s.agentHost.id gr lh
  obtain ⟨u1, u2, u3, -⟩ := isToken.silent
    (x := (Dst.host s.cell.agent, p)) (by simp [isToken, x.type]) lh
  have hn := x.effect.moves.notif lh
  have hr := x.effect.moves.rel lh
  have hw := x.effect.moves.wo lh
  rw [inFlight_singleton] at hn hr hw
  rw [g1] at hn
  rw [g2] at hr
  rw [g4, (x.countP_holder lh).1] at hw
  exact ⟨by omega, by omega, by omega⟩

/-- The new holder: its request is granted. -/
lemma task_self (x : TakeOver s s' p gr kept) (hi : Inv lid s) (hk : Held s (.grant p)) :
    TaskOk s' p.holder := by
  obtain ⟨-, hmid, -, hmode, -⟩ := hk.token
  have ef := x.effect
  have ha : s'.cell.agent = s.cell.agent := by rw [x.cell]
  have hown : p.isFor p.holder p.mode = true := by simp [LockHdr.isFor]
  have hle := (x.pendPkt_eq p.holder p.mode).symm.le.trans (Cluster.pendPkt_le _ _ x.mem)
  rw [hown, Bool.toNat_true] at hle
  obtain ⟨ht, h1, h2, h3, h4, h5, h6, h7, h8⟩ := (hi.task p.holder).of_pend (b := p.mode) (by omega)
  obtain ⟨hn, hr, hw⟩ := x.counts p.holder
  have hgr : gr.countP (Wqe.isFor p.holder false) = 0 := by
    cases hm : p.mode with
    | true =>
        refine List.countP_eq_zero.2 fun w hw => ?_
        exact absurd ((x.gr_shared w hw).2.symm.trans hm) (by decide)
    | false =>
        rw [hm] at hle h1
        omega
  have hp : ∀ b, s'.pend p.holder b = 0 := by
    intro b
    have hb := x.pend p.holder b
    by_cases hbm : b = p.mode
    · subst hbm
      rw [hown, Bool.toNat_true] at hb
      omega
    · rw [show b = !p.mode by cases b <;> cases hm : p.mode <;> simp_all] at hb ⊢
      omega
  have hflag : s'.flag p.holder = 1 := by
    have : p.holder = (s.cell.agent, p.taskId) := by rw [LockHdr.holder, hmid]
    rw [this, ef.flag_self]
    simp [becomeAgent]
  have hheld : s'.held p.holder = 1 := by
    rw [ef.held_self ha]
    exact if_pos (Finset.mem_union_left _ (Finset.mem_insert_self _ _))
  refine ⟨?_, by rw [x.task]; exact (hi.task p.holder).valid⟩
  rw [x.task, ht, hp, hp, hn, h5, hr, h7, hw, h3, hgr, hheld, ef.early_eq ha rfl, h8, hflag, x.cell,
    ← hmode]
  exact ⟨rfl, rfl, .inr ⟨rfl, rfl, rfl, rfl, rfl, fun _ => rfl⟩⟩

/-- Any other task: granted if it has a granted entry, and untouched otherwise. -/
lemma task_ne (x : TakeOver s s' p gr kept) (hi : Inv lid s) (hk : Held s (.grant p))
    {lh : LockHolder} (hne : lh ≠ p.holder) : TaskOk s' lh := by
  obtain ⟨-, hmid, -, hmode, -⟩ := hk.token
  have ef := x.effect
  have ha : s'.cell.agent = s.cell.agent := by rw [x.cell]
  have hown : ∀ b, p.isFor lh b = false := fun b => by simp [LockHdr.isFor, hne.symm]
  obtain ⟨hn, hr, hw⟩ := x.counts lh
  have hflag : s'.flag lh = s.flag lh := by
    refine ef.flag_eq fun hh => ?_
    have ht : lh.2 ≠ p.taskId := fun ht => hne (Prod.ext (hh.trans hmid.symm) ht)
    simp [becomeAgent, ht, Cluster.agentHost]
  have hgr1 := (x.countP_holder lh).2
  have hp0 := x.pend lh false
  have hp1 := x.pend lh true
  rw [hown, Bool.toNat_false] at hp0 hp1
  by_cases hg : lh ∈ (gr.map Wqe.holder).toFinset
  · obtain ⟨w, hwm, hwh⟩ : ∃ w ∈ gr, w.holder = lh := by simpa using hg
    obtain ⟨hws, hsh⟩ := x.gr_shared w hwm
    have hpos : 0 < gr.countP (Wqe.isFor lh false) :=
      List.countP_pos_iff.2 ⟨w, hwm, by simp [Wqe.isFor, hwh, hws, LockState.bit]⟩
    obtain ⟨ht, h1, h2, h3, h4, h5, h6, h7, h8⟩ := (hi.task lh).of_pend (b := false) (by omega)
    rw [Bool.not_false] at h2
    have hheld : s'.held lh = 1 := by
      rw [ef.held_self ha]
      exact if_pos (Finset.mem_union_right _ hg)
    refine ⟨?_, by rw [x.task]; exact (hi.task lh).valid⟩
    rw [x.task, ht, show s'.pend lh false = 0 by omega, show s'.pend lh true = 0 by omega, hn, h5,
      hr, h7, show s'.wo lh = 1 by omega, hheld, ef.early_eq ha rfl, h8, hflag, h4, x.cell, ← hmode,
      hsh]
    exact ⟨rfl, rfl, .inr ⟨rfl, rfl, rfl, rfl, rfl, fun h => by cases h⟩⟩
  · have hz : gr.countP (Wqe.isFor lh false) = 0 := by
      refine List.countP_eq_zero.2 fun w hwm => ?_
      have : w.holder ≠ lh := fun hwh => hg (by simpa using ⟨w, hwm, hwh⟩)
      simp [Wqe.isFor, this]
    refine (hi.task lh).of_eq (Bool.forall_bool.2 ⟨by omega, by omega⟩) hn (by omega) hr ?_
      (ef.early_eq ha rfl lh) hflag (by rw [x.cell]) (by rw [x.task])
    refine ef.held_of_iff ha ?_
    simp only [becomeAgent, Finset.mem_union, Finset.mem_insert, hne, false_or, hg, or_false]

theorem inv (x : TakeOver s s' p gr kept) (hi : Inv lid s) : Inv lid s' := by
  have hk : Held s (.grant p) := (hi.held_grant x.mem x.type).2
  obtain ⟨-, hmid, -, hmode, -⟩ := hk.token
  have ef := x.effect
  have ha : s'.cell.agent = s.cell.agent := by rw [x.cell]
  have htp : isToken (Dst.host s.cell.agent, p) = true := by simp [isToken, x.type]
  have htok : s'.tokens = 0 := by
    rw [ef.moves.tokens_replace (by
      rw [hk.tokens, Multiset.filter_singleton, if_pos htp]
      rfl), filter_token_eq_zero fun y hy => (mem_grantsFor hy).1]
  have hnot : s'.notifs = s.notifs := by
    have := ef.moves.notifs
    rw [inFlight_notif_eq_zero fun y hy => (mem_grantsFor hy).2.1,
      inFlight_singleton, (isToken.silent htp (0, 0)).2.2.2] at this
    simpa using this
  refine hi.of_effect ef rfl ?_
    (hi.flight_step ef.moves ha (by rw [x.cell]) fun y hy => (mem_grantsFor hy).2.2 _) ?_
    (.inr ⟨.agent, hk.at_agent ef (by rw [x.cell]) (by rw [x.cell]) ha htok trivial rfl ?_
      (fun hx => ?_) (fun hsh => ?_) (fun _ q hq => by cases hq)⟩)
  · intro w hw
    rcases List.mem_append.1 (show w ∈ s.agentHost.wqueue ++ kept from hw) with hw | hw
    · exact hi.wqueue _ w hw
    · exact (hi.flight _ x.mem).1 w (x.kept_mem w hw)
  · intro lh
    by_cases hne : lh = p.holder
    · rw [hne]
      exact x.task_self hi hk
    · exact x.task_ne hi hk hne
  · change p.modeState = LockState.ofBit s.cell.rw
    rw [LockHdr.modeState, hmode]
  · obtain ⟨h1, h2, -, -⟩ := hk.excl hx
    have hempty : s.agentHost.holders = ∅ := Finset.eq_empty_of_forall_notMem fun lh hlh =>
      absurd (h2 lh hlh).1 (by simp [Token.isAgent])
    have hgr : gr = [] := List.eq_nil_iff_forall_not_mem.2 fun w hw => by
      have := (x.gr_shared w hw).2
      rw [hmode, hx] at this
      cases this
    have hhs : insert p.holder s.agentHost.holders ∪ (gr.map Wqe.holder).toFinset
        = {p.holder} := by simp [hempty, hgr]
    rw [hnot, becomeAgent, hhs]
    exact ⟨h1, fun lh hlh => ⟨rfl, by rw [Finset.mem_singleton.1 hlh]; exact hmid⟩,
      (Finset.card_singleton _).le, fun h => by cases h⟩
  · rw [x.cell, hnot, hk.count hsh, Token.ncnt, Token.ncnt]
    have hm : p.mode = false := hmode.trans hsh
    cases htr : p.transferred with
    | true => simp [becomeAgent, htr]
    | false =>
        simp [becomeAgent, htr, hm, BitVec.setWidth_add _ _ (by decide : 8 ≤ 32)]

end TakeOver

end TakeOver

/-- **Every transition keeps the invariant.** -/
theorem Change.inv (x : Change s e s') (hi : Inv lid s) : Inv lid s' := by
  cases x with
  | plain x => exact x.inv hi
  | localGrant x => exact x.inv hi
  | drop x _ => exact x.inv hi
  | dropAndHandOver x y => exact y.inv (x.inv hi)
  | acquireFree x => exact x.inv hi
  | acquireShared x => exact x.inv hi
  | pushBack x => exact x.inv hi
  | acceptTransfer x => exact x.inv hi
  | acceptFree x => exact x.inv hi
  | notification x => exact x.inv hi
  | delayedRelease x => exact x.inv hi
  | resend x => exact x.inv hi
  | restore x => exact x.inv hi
  | takeOver x => exact x.inv hi

end FissLock
