import FissLock.Cluster.HostPreservation

/-!
# Every step of the code is a transition

The code of `lock.cc` and the pipeline of the switch, read as transitions of
`Cluster/Transitions.lean`.  The first half says for each handler what it does to an **in-range**
lock, in the vocabulary of the transitions; the second half is `step_change`: a step that is
`Guarded`, from a state that satisfies the invariant, is a `Change`.  With `Change.inv` this gives
`inv_of_reachable`.
-/

namespace FissLock

open Runs Tofino Accounting

variable {lid : LockId} {s s' : Cluster} {e : Event} {p : LockHdr} {l : InnetLock} {h : HostId}
  {t : TaskId} {op : LockState}

/-! ## The client interface on an in-range lock -/

lemma lockAcquireAsync_inRange (hr : lockOutOfRange l = false) (hop : op = .shared ∨ op = .excl) :
    lockAcquireAsync (conf h) l t op
      = if l.isAgent then
          if l.mode = .shared ∧ op = .shared then
            ({ lock := lockAddHolder l (h, t) }, .granted)
          else ({ lock := lockAppendToWq l (Wqe.ofReq op t h) }, .flag t)
        else ({ lock := l, sent := [sendPostAcquire (conf h) op l.id h t] }, .flag t) := by
  rcases hop with rfl | rfl <;>
    simp [lockAcquireAsync, hr, handleGrantedAcquire, handleSuspendAcquire, lockPrepareWait,
      assertThat]

/-- The hand-over at the end of `lock_release`. -/
lemma lockReleaseHandOver_spec (h : HostId) (l : InnetLock) (failed : List Assertion) :
    l.holders ≠ ∅ ∧ (lockReleaseHandOver (conf h) l failed).lock = l
        ∧ (lockReleaseHandOver (conf h) l failed).sent = []
      ∨ l.holders = ∅ ∧ (lockReleaseHandOver (conf h) l failed).lock = handedOver l
        ∧ ∃ p, (lockReleaseHandOver (conf h) l failed).sent = [p] ∧ HandOverPkt h l p := by
  by_cases hh : l.holders = ∅
  · refine .inr ⟨hh, ?_⟩
    cases hw : l.wqueue with
    | nil =>
        simp only [lockReleaseHandOver, lockNoHolders, hh, hw, decide_true, if_true]
        exact ⟨by simp [handedOver, hh], _, rfl, rfl, rfl, rfl, .inl ⟨hw, rfl, rfl⟩⟩
    | cons w rest =>
        simp only [lockReleaseHandOver, lockNoHolders, hh, hw, decide_true, if_true, conf_bmv2,
          Bool.false_eq_true, false_and, if_false]
        exact ⟨by simp [handedOver, hh], _, rfl, rfl, rfl, rfl,
          .inr ⟨w, rest, hw, rfl, rfl, rfl, rfl⟩⟩
  · exact .inl ⟨hh, by simp [lockReleaseHandOver, lockNoHolders, hh],
      by simp [lockReleaseHandOver, lockNoHolders, hh]⟩

/-- `lock_release` at the agent drops the task in one of two ways, and then hands over. -/
lemma lockRelease_agent (hr : lockOutOfRange l = false) (ha : l.isAgent = true) :
    (h, t) ∈ l.holders ∧ (∃ f, lockRelease (conf h) l t
        = lockReleaseHandOver (conf h)
            (dropped l (l.holders.erase (h, t)) l.earlyRelease (l.localHolders.erase t)) f)
      ∨ (h, t) ∉ l.holders ∧ lockRelease (conf h) l t
        = lockReleaseHandOver (conf h)
            (dropped l l.holders (Function.update l.earlyRelease (h, t) true)
              (l.localHolders.erase t)) [] := by
  have hr' : ¬ lockOutOfRange { l with localHolders := l.localHolders.erase t } = true := by
    rw [show lockOutOfRange { l with localHolders := l.localHolders.erase t } = false from hr]
    decide
  by_cases hm : (h, t) ∈ l.holders
  · refine .inl ⟨hm, (handleRelease { l with localHolders := l.localHolders.erase t } h t).2, ?_⟩
    have h1 : ¬ (!lockHasHolder { l with localHolders := l.localHolders.erase t } (h, t)) = true := by
      simp [lockHasHolder, hm]
    rw [lockRelease, if_neg hr', if_pos ha, conf_localhostId, if_neg h1]
    rfl
  · refine .inr ⟨hm, ?_⟩
    have h1 : (!lockHasHolder { l with localHolders := l.localHolders.erase t } (h, t)) = true := by
      simp [lockHasHolder, hm]
    rw [lockRelease, if_neg hr', if_pos ha, conf_localhostId, if_pos h1]
    rfl

/-- `lock_release` elsewhere sends a `RELEASE`. -/
lemma lockRelease_remote (hr : lockOutOfRange l = false) (ha : l.isAgent = false) :
    lockRelease (conf h) l t
      = { lock := { l with localHolders := l.localHolders.erase t }
          sent := [sendPostRelease (conf h) l.id h t] } := by
  have hr' : ¬ lockOutOfRange { l with localHolders := l.localHolders.erase t } = true := by
    rw [show lockOutOfRange { l with localHolders := l.localHolders.erase t } = false from hr]
    decide
  rw [lockRelease, if_neg hr', if_neg (by rw [ha]; decide), conf_localhostId]

/-! ## Packets for an in-range lock -/

/-- A notification. -/
lemma processAcquire_granted (hr : lockOutOfRange l = false) (hm : p.mode = LOCK_SHARED)
    (hg : p.granted = true) :
    (processAcquire l p).lock = notified l p.holder ∧ (processAcquire l p).toSwitch = [] := by
  have hms : p.modeState = .shared := by simp [LockHdr.modeState, hm]
  simp only [processAcquire, hr, hms, hg, Bool.false_eq_true, if_false, and_self, if_true,
    Outcome.toSwitch]
  have hh : (p.machineId, p.taskId) = p.holder := rfl
  cases he : l.earlyRelease p.holder <;> cases ha : l.isAgent <;>
    simp [notified, he, ha, handleGrantedAcquire, lockAddHolder, hh]

/-- A request that nobody has granted: queued or bounced. -/
lemma processAcquire_pending (hr : lockOutOfRange l = false) (hg : p.granted = false)
    (he : l.earlyRelease p.holder = false) :
    SameRole (processAcquire l p).lock l
      ∧ (processAcquire l p).lock.taskGranted = l.taskGranted
      ∧ ((processAcquire l p).toSwitch = [p] ∧ (processAcquire l p).lock.wqueue = l.wqueue
        ∨ (processAcquire l p).toSwitch = []
          ∧ (processAcquire l p).lock.wqueue
              = l.wqueue ++ [Wqe.ofReq p.modeState p.taskId p.machineId]
          ∧ (l.isAgent = true ∨ p.mode = LOCK_EXCL ∧ 2 < l.fwdBackCnt p.holder)) := by
  simp only [processAcquire, hr, hg, Bool.false_eq_true, if_false, and_false, he, Outcome.toSwitch]
  cases ha : l.isAgent with
  | true =>
      simp only [Bool.not_true, Bool.false_eq_true, if_false, handleSuspendAcquire]
      exact ⟨⟨rfl, rfl, rfl, rfl, rfl, rfl, rfl⟩, rfl, .inr ⟨rfl, rfl, .inl trivial⟩⟩
  | false =>
      simp only [Bool.not_false, if_true, handleSuspendAcquire]
      cases hm : p.mode with
      | false =>
          simp [LockHdr.modeState, hm, LockState.ofBit, SameRole.refl]
      | true =>
          by_cases hc : 2 < l.fwdBackCnt p.holder
          · refine ⟨⟨?_, ?_, ?_, ?_, ?_, ?_, ?_⟩, ?_, .inr ?_⟩ <;>
              simp [LockHdr.modeState, hm, LockState.ofBit, hc, lockAppendToWq, ha]
          · refine ⟨⟨?_, ?_, ?_, ?_, ?_, ?_, ?_⟩, ?_, .inl ?_⟩ <;>
              simp [LockHdr.modeState, hm, LockState.ofBit, hc, ha]

/-- The hand-over at the end of `case POST_LOCK_RELEASE`. -/
lemma releaseHandOver_spec (h : HostId) (l : InnetLock) (p : LockHdr) (failed : List Assertion) :
    l.holders ≠ ∅ ∧ (releaseHandOver (conf h) l p failed).lock = l
        ∧ (releaseHandOver (conf h) l p failed).toSwitch = []
      ∨ l.holders = ∅ ∧ (releaseHandOver (conf h) l p failed).lock = handedOver l
        ∧ ∃ q, (releaseHandOver (conf h) l p failed).toSwitch = [q] ∧ HandOverPkt h l q := by
  by_cases hh : l.holders = ∅
  · refine .inr ⟨hh, ?_⟩
    cases hw : l.wqueue with
    | nil =>
        simp only [releaseHandOver, lockNoHolders, lockNoWaiters, hh, hw, decide_true, if_true,
          List.isEmpty_nil, lockFreeHelper, Outcome.toSwitch]
        exact ⟨by simp [handedOver, hh], _, rfl, rfl, rfl, rfl, .inl ⟨hw, rfl, rfl⟩⟩
    | cons w rest =>
        have hret : (if rest.length ≠ 0 then rest.length * 5 else 1) ≠ 0 := by
          split <;> omega
        simp only [releaseHandOver, lockNoHolders, lockNoWaiters, hh, hw, decide_true, if_true,
          List.isEmpty_cons, Bool.false_eq_true, if_false, lockTransferHelper, Outcome.toSwitch,
          hret, not_false_eq_true, ne_eq]
        exact ⟨by simp [handedOver, hh], _, rfl, rfl, rfl, rfl,
          .inr ⟨w, rest, hw, rfl, rfl, rfl, rfl⟩⟩
  · exact .inl ⟨hh, by simp [releaseHandOver, lockNoHolders, hh],
      by simp [releaseHandOver, lockNoHolders, hh, Outcome.toSwitch]⟩

/-- A `RELEASE` of a holder whose notification is late: the agency is not asked for. -/
lemma processRelease_early (hr : lockOutOfRange l = false) (hm : p.holder ∉ l.holders)
    (hw : ∀ e ∈ l.wqueue, e.holder ≠ p.holder) :
    processRelease (conf h) l p
      = releaseHandOver (conf h) (dropped l l.holders
          (Function.update l.earlyRelease p.holder true) l.localHolders) p [] := by
  have hany : (l.wqueue.any fun e => e.host = p.machineId ∧ e.taskId = p.taskId) = false := by
    rw [List.any_eq_false]
    intro e he hc
    rw [decide_eq_true_eq] at hc
    exact hw e he (Prod.ext hc.1 hc.2)
  simp only [processRelease, hr, lockHasHolder, hm, decide_false, Bool.not_false, hany,
    Bool.false_eq_true, if_false, if_true]
  rfl

/-- A `RELEASE` of a holder that the agent has recorded, or of one whose notification is late. -/
lemma processRelease_agent (hr : lockOutOfRange l = false) (ha : l.isAgent = true)
    (hw : ∀ e ∈ l.wqueue, e.holder ≠ p.holder) :
    (p.holder ∈ l.holders ∧ ∃ f, processRelease (conf h) l p
          = releaseHandOver (conf h) (dropped l (l.holders.erase p.holder) l.earlyRelease
              l.localHolders) p f)
      ∨ p.holder ∉ l.holders ∧ processRelease (conf h) l p
          = releaseHandOver (conf h) (dropped l l.holders
              (Function.update l.earlyRelease p.holder true) l.localHolders) p [] := by
  by_cases hm : p.holder ∈ l.holders
  · refine .inl ⟨hm, (handleRelease l p.machineId p.taskId).2, ?_⟩
    have h1 : lockHasHolder l p.holder = true := by simp [lockHasHolder, hm]
    simp only [processRelease, hr, h1, ha, Bool.not_true, Bool.false_eq_true, if_false]
    rfl
  · exact .inr ⟨hm, processRelease_early hr hm hw⟩

/-- A `RELEASE` of a recorded holder at a host that is not the agent. -/
lemma processRelease_delayed (hr : lockOutOfRange l = false) (ha : l.isAgent = false)
    (hm : p.holder ∈ l.holders) :
    (processRelease (conf h) l p).lock = delayed l p.holder
      ∧ (processRelease (conf h) l p).toSwitch = [] := by
  simp [processRelease, hr, ha, lockHasHolder, hm, delayed, lockRemoveHolder, Outcome.toSwitch]

/-- A packet that was pushed back. -/
lemma processPushedBack_spec (l : InnetLock) (p : LockHdr) :
    l.delayedFree = true ∧ l.holders = ∅ ∧ (processPushedBack l p).lock = resent l
        ∧ (processPushedBack l p).toSwitch = [{ p with ncnt := p.ncnt + l.ncnt.setWidth 8 }]
      ∨ (l.delayedFree = true → l.holders ≠ ∅) ∧ (processPushedBack l p).lock = restored l p
        ∧ (processPushedBack l p).toSwitch = [] := by
  by_cases hd : l.delayedFree = true ∧ l.holders = ∅
  · refine .inl ⟨hd.1, hd.2, ?_, ?_⟩ <;>
      simp [processPushedBack, hd.1, lockNoHolders, hd.2, resent, Outcome.toSwitch]
  · have hd' : ¬ (l.delayedFree = true ∧ lockNoHolders l = true) := by
      simpa [lockNoHolders] using hd
    refine .inr ⟨fun h1 h2 => hd ⟨h1, h2⟩, ?_, ?_⟩
    · simp only [processPushedBack, hd', if_false, restored]
      split <;> rfl
    · simp [processPushedBack, hd', Outcome.toSwitch]

/-- The agency, with its wait queue granted or kept. -/
lemma processGrantWithAgent_spec (hmid : p.machineId = h) (ht : p.taskId ≠ TASK_FOR_RESTORE)
    (hw : p.transferred = false → p.wq = []) :
    ∃ gr kept, (gr = [] ∧ kept = p.wq
        ∨ p.mode = LOCK_SHARED ∧ gr = sharedEntries p.wq ∧ kept = otherEntries p.wq)
      ∧ (processGrantWithAgent (conf h) l p).lock
          = becomeAgent l p (insert p.holder l.holders ∪ (gr.map Wqe.holder).toFinset)
              (l.wqueue ++ kept)
      ∧ toSwitch (processGrantWithAgent (conf h) l p).toSwitch = grantsFor l.id gr := by
  have hh : p.holder = (h, p.taskId) := by rw [LockHdr.holder, hmid]
  cases htr : p.transferred with
  | false =>
      have hq := hw htr
      refine ⟨[], p.wq, .inl ⟨rfl, rfl⟩, ?_, ?_⟩
      · cases hm : p.mode <;>
          simp [processGrantWithAgent, ht, htr, hq, becomeAgent, lockLocalNotify, lockAddHolder,
            LockHdr.modeState, hm, LockState.ofBit, hh]
      · cases hm : p.mode <;>
          simp [processGrantWithAgent, ht, htr, Outcome.toSwitch, toSwitch, grantsFor]
  | true =>
      by_cases hd : p.wq ≠ [] ∧ p.mode = LOCK_SHARED
      · refine ⟨sharedEntries p.wq, otherEntries p.wq, .inr ⟨hd.2, rfl, rfl⟩, ?_, ?_⟩
        · simp [processGrantWithAgent, ht, htr, hd.1, LockHdr.modeState, hd.2, LockState.ofBit,
            lockDigestWq_eq, becomeAgent, lockLocalNotify, lockAddHolder, hh, sharedEntries,
            otherEntries]
        · simp [processGrantWithAgent, ht, htr, hd.1, LockHdr.modeState, hd.2, LockState.ofBit,
            lockDigestWq_eq, Outcome.toSwitch, toSwitch, grantsFor, sharedEntries, lockAddHolder]
      · refine ⟨[], p.wq, .inl ⟨rfl, rfl⟩, ?_, ?_⟩
        · by_cases hq : p.wq = []
          · simp [processGrantWithAgent, ht, htr, hq, becomeAgent, lockLocalNotify, lockAddHolder,
              hh]
          · have hm : p.mode = true := by simpa [hq] using hd
            simp [processGrantWithAgent, ht, htr, hq, becomeAgent, lockLocalNotify, lockAddHolder,
              LockHdr.modeState, hm, LockState.ofBit, lockUnmarshalWq, hh]
        · by_cases hq : p.wq = []
          · simp [processGrantWithAgent, ht, htr, hq, Outcome.toSwitch, toSwitch, grantsFor]
          · have hm : p.mode = true := by simpa [hq] using hd
            simp [processGrantWithAgent, ht, htr, hq, Outcome.toSwitch, toSwitch, grantsFor,
              LockHdr.modeState, hm, LockState.ofBit]

/-! ## Calls of the client interface -/

namespace Inv

lemma inRange (hi : Inv lid s) (hlid : lid.toNat < SWITCH_LOCK_NUM) (h : HostId) :
    lockOutOfRange (s.host h) = false := by
  rw [lockOutOfRange, hi.id h, decide_eq_false_iff_not, not_le]
  exact hlid

end Inv

lemma Cluster.fresh {lh : LockHolder} (h : s.net.any (ownPacket lh) = false) :
    s.notif lh = 0 ∧ s.rel lh = 0 := by
  have hx : ∀ x ∈ s.flights, x.2.type = .free ∨ x.2.holder ≠ lh := by
    intro x hx
    have := List.any_eq_false.1 h x (Multiset.mem_coe.1 hx)
    simp only [ownPacket, decide_eq_true_eq, not_and_or, not_not] at this
    exact this
  constructor <;> refine Accounting.inFlight_eq_zero.2 fun x hxm => ?_
  · rcases hx x hxm with ht | hne
    · simp [notifPkt, isNotif, ht]
    · simp [notifPkt, hne]
  · rcases hx x hxm with ht | hne
    · simp [typedPkt, ht]
    · simp [typedPkt, hne]

/-- A new request of an idle task is pending once. -/
lemma TaskOk.request {lh : LockHolder} (hT : TaskOk s lh) (hidle : s.task lh = .idle)
    (hn : s.notif lh = 0) (hr : s.rel lh = 0) (hop : op = .shared ∨ op = .excl)
    (hvalid : isHost lh.1 = true ∧ lh.2.toNat < 2 ^ 30)
    (hp : ∀ b, s'.pend lh b = s.pend lh b + (decide (op.bit = b)).toNat)
    (hn' : s'.notif lh = s.notif lh) (hw' : s'.wo lh = s.wo lh) (hr' : s'.rel lh = s.rel lh)
    (hh' : s'.held lh = s.held lh) (he' : s'.early lh = s.early lh) (hf' : s'.flag lh = s.flag lh)
    (ht' : s'.task lh = .waiting op) : TaskOk s' lh := by
  have hc := hT.counts
  rw [hidle] at hc
  obtain ⟨h1, h2, h3, h4, ⟨h5, -⟩ | ⟨-, h6, h7⟩⟩ := hc
  · omega
  · refine ⟨?_, fun _ => hvalid⟩
    rw [hp, hp, hn', hw', hr', hh', he', hf', ht', h1, h2, h3, h4, h6, ← h7, hn, hr]
    refine ⟨rfl, rfl, .inl ⟨?_, rfl, rfl, rfl, rfl⟩⟩
    rcases hop with rfl | rfl <;> simp [LockState.bit]

lemma acquireStep_change (hi : Inv lid s) (hlid : lid.toNat < SWITCH_LOCK_NUM)
    (hh : isHost h = true) (ht : t.toNat < 2 ^ 30) (hop : op = .shared ∨ op = .excl)
    (hidle : s.task (h, t) = .idle) (hfresh : s.net.any (ownPacket (h, t)) = false) :
    Change s e (s.acquireStep h t op) := by
  obtain ⟨hn, hr⟩ := Cluster.fresh hfresh
  have hcode := lockAcquireAsync_inRange (h := h) (t := t) (hi.inRange hlid h) hop
  cases hag : (s.host h).isAgent with
  | true =>
      by_cases hsh : (s.host h).mode = .shared ∧ op = .shared
      · rw [hag, if_pos rfl, if_pos hsh] at hcode
        refine .localGrant (h := h) (t := t) ⟨⟨.of_call (n := []) ?_, ?_⟩, rfl, ?_, hidle, hn,
          hr, ⟨hh, ht⟩, hag, hsh.1⟩
        · simp [Cluster.acquireStep, hcode, toSwitch]
        · simp [Cluster.acquireStep, hcode]
        · rw [Cluster.acquireStep, hcode, hsh.2]
          rfl
      · rw [hag, if_pos rfl, if_neg hsh] at hcode
        have ef : Effect s (s.acquireStep h t op) 0 0 h
            (lockAppendToWq (s.host h) (Wqe.ofReq op t h)) := by
          refine ⟨.of_call (n := []) ?_, ?_⟩
          · simp [Cluster.acquireStep, hcode, toSwitch]
          · simp [Cluster.acquireStep, hcode]
        have hhold : (Wqe.ofReq op t h).holder = (h, t) := Wqe.holder_ofReq ht
        refine .plain (a := (h, t)) ⟨ef, ⟨rfl, rfl, rfl, rfl, rfl, rfl, rfl⟩, .refl _, by simp,
          by simp, .inr ⟨⟨op, hop, hhold, rfl⟩, fun _ => .inl hag⟩, fun _ _ => rfl, ?_, ?_⟩
        · intro lh' hne
          simp [Cluster.acquireStep, hne]
        · refine (hi.task (h, t)).request hidle hn hr hop ⟨hh, ht⟩ (fun b => ?_)
            (by simpa using ef.moves.notif (h, t)) (by simpa using ef.moves.wo (h, t))
            (by simpa using ef.moves.rel (h, t)) (ef.held_eq rfl rfl _) (ef.early_eq rfl rfl _)
            (ef.flag_eq fun _ => rfl) (by simp [Cluster.acquireStep, hcode])
          have := ef.moves.pend ef.host (h, t) b
          simp only [inFlight_zero, lockAppendToWq, List.countP_append, List.countP_singleton,
            Wqe.isFor, hhold, Wqe.op_ofReq, true_and] at this
          rw [Bool.toNat]
          cases hd : decide (op.bit = b) <;> simp [hd] at this ⊢ <;> omega
  | false =>
      rw [hag, if_neg (by decide)] at hcode
      have ef : Effect s (s.acquireStep h t op) 0
          {(Dst.switch, sendPostAcquire (conf h) op (s.host h).id h t)} h (s.host h) := by
        refine ⟨.of_call (n := [(Dst.switch, _)]) ?_, ?_⟩
        · simp [Cluster.acquireStep, hcode, toSwitch]
        · simp [Cluster.acquireStep, hcode]
      refine .plain (a := (h, t)) ⟨ef, .refl _, .refl _, by simp, ?_, .inl rfl, fun _ _ => rfl, ?_,
        ?_⟩
      · intro x hx
        rw [Multiset.mem_singleton.1 hx]
        exact ⟨⟨rfl, rfl, rfl, rfl⟩, by simp [sendPostAcquire, sendPostLockGeneric], rfl⟩
      · intro lh' hne
        simp [Cluster.acquireStep, hne]
      · refine (hi.task (h, t)).request hidle hn hr hop ⟨hh, ht⟩ (fun b => ?_)
          (by simpa [notifPkt, isNotif] using ef.moves.notif (h, t))
          (by simpa [typedPkt, sendPostAcquire, sendPostLockGeneric] using ef.moves.wo (h, t))
          (by simpa [typedPkt, sendPostAcquire, sendPostLockGeneric] using ef.moves.rel (h, t))
          (ef.held_eq rfl rfl _) (ef.early_eq rfl rfl _)
          (ef.flag_eq fun _ => rfl) (by simp [Cluster.acquireStep, hcode])
        have := ef.pend_eq rfl (h, t) b
        simpa [pendPkt, sendPostAcquire, sendPostLockGeneric, LockHdr.isFor, LockHdr.holder]
          using this

lemma poll_change (hi : Inv lid s) (hw : s.task (h, t) = .waiting op)
    (hg : (s.host h).taskGranted t = true) :
    Change s e { s with
      host := Function.update s.host h
        { s.host h with taskGranted := Function.update (s.host h).taskGranted t false }
      task := Function.update s.task (h, t) (.holding op) } := by
  have ef : Effect s { s with
      host := Function.update s.host h
        { s.host h with taskGranted := Function.update (s.host h).taskGranted t false }
      task := Function.update s.task (h, t) (.holding op) } 0 0 h
      { s.host h with taskGranted := Function.update (s.host h).taskGranted t false } :=
    ⟨.of_call (n := []) rfl, rfl⟩
  refine .plain (a := (h, t)) ⟨ef, ⟨rfl, rfl, rfl, rfl, rfl, rfl, rfl⟩, .refl _, by simp, by simp,
    .inl rfl, ?_, ?_, ?_⟩
  · intro t' hne
    have : t' ≠ t := fun h => hne (by rw [h])
    simp [this]
  · intro lh' hne
    simp [hne]
  · have hc := (hi.task (h, t)).counts
    have hF : s.flag (h, t) = 1 := by simp [Cluster.flag, hg]
    rw [hw, hF] at hc
    obtain ⟨h1, h2, ⟨-, -, h3, -⟩ | ⟨h3, h4, h5, h6, h7, -⟩⟩ := hc
    · omega
    · refine ⟨?_, fun _ => (hi.task (h, t)).valid (by rw [hw]; simp)⟩
      have hp : ∀ b, Cluster.pend _ (h, t) b = s.pend (h, t) b := fun b => by
        simpa using ef.pend_eq rfl (h, t) b
      rw [hp, hp, h3, h4, show Cluster.notif _ (h, t) = _ by simpa using ef.moves.notif (h, t),
        show Cluster.wo _ (h, t) = _ by simpa using ef.moves.wo (h, t),
        show Cluster.rel _ (h, t) = _ by simpa using ef.moves.rel (h, t), h1,
        ef.held_eq rfl rfl, ef.early_eq rfl rfl, h2, ef.flag_self]
      simp only [Function.update_self]
      exact ⟨rfl, rfl, rfl, rfl, by omega, rfl, h6, h7⟩

/-- After a holder is dropped, by a call or by a packet, the lock is kept for the others or handed
over. -/
lemma Drop.change {m : Cluster} {lh : LockHolder} (x : Drop s m lh) {l' : InnetLock}
    {sent : List LockHdr}
    (hspec : m.agentHost.holders ≠ ∅ ∧ l' = m.agentHost ∧ sent = []
      ∨ m.agentHost.holders = ∅ ∧ l' = handedOver m.agentHost
        ∧ ∃ q, sent = [q] ∧ HandOverPkt s.cell.agent m.agentHost q)
    (hs' : s' = { m with
      host := Function.update m.host s.cell.agent l', net := toSwitch sent ++ m.net }) :
    Change s e s' := by
  rcases hspec with ⟨hne, rfl, rfl⟩ | ⟨hempty, rfl, q, rfl, hpkt⟩
  · have hm : s' = m := by
      rw [hs', ← x.cell]
      simp [Cluster.agentHost, toSwitch]
    subst hm
    exact .drop x hne
  · obtain ⟨used, hs, er, lc, -, ef, -⟩ := x.effect
    have hag : m.agentHost.isAgent = true := by
      rw [ef.agentHost_self (by rw [x.cell])]
      exact x.isAgent
    rw [← x.cell] at hpkt hs'
    subst hs'
    exact .dropAndHandOver x ⟨⟨.of_call (n := [(Dst.switch, q)]) rfl, rfl⟩, rfl, rfl, hag, hempty,
      hpkt⟩

/-- The agent's own task releases the lock. -/
lemma releaseStep_change_agent (hi : Inv lid s) (hlid : lid.toNat < SWITCH_LOCK_NUM)
    (hold : s.task (h, t) = .holding op) (hag : (s.host h).isAgent = true) :
    Change s e (s.releaseStep h t) := by
  obtain ⟨rfl, hk⟩ := hi.held_agent hag
  -- the two ways to drop the task, and then the same hand-over
  obtain ⟨hs, er, f, hcase, hcode⟩ : ∃ hs er f,
      (((s.cell.agent, t) ∈ s.agentHost.holders
          ∧ hs = s.agentHost.holders.erase (s.cell.agent, t) ∧ er = s.agentHost.earlyRelease)
        ∨ (s.cell.agent, t) ∉ s.agentHost.holders ∧ hs = s.agentHost.holders
          ∧ er = Function.update s.agentHost.earlyRelease (s.cell.agent, t) true)
      ∧ lockRelease (conf s.cell.agent) (s.host s.cell.agent) t
          = lockReleaseHandOver (conf s.cell.agent)
              (dropped s.agentHost hs er (s.agentHost.localHolders.erase t)) f := by
    rcases lockRelease_agent (h := s.cell.agent) (t := t) (hi.inRange hlid s.cell.agent) hag with
      ⟨hm, f, hf⟩ | ⟨hm, hf⟩
    · exact ⟨_, _, f, .inl ⟨hm, rfl, rfl⟩, hf⟩
    · exact ⟨_, _, [], .inr ⟨hm, rfl, rfl⟩, hf⟩
  set l := dropped s.agentHost hs er (s.agentHost.localHolders.erase t)
  set m : Cluster := { s with
    host := Function.update s.host s.cell.agent l
    task := Function.update s.task (s.cell.agent, t) .idle }
  have hm : m.agentHost = l := Function.update_self ..
  have hdrop : Drop s m (s.cell.agent, t) :=
    ⟨hag, rfl, 0, hs, er, _, .call hold rfl rfl, ⟨.of_call (n := []) rfl, rfl⟩, hcase⟩
  have hspec := lockReleaseHandOver_spec s.cell.agent l f
  rw [← hm] at hspec
  refine hdrop.change hspec ?_
  rw [hm]
  simp only [Cluster.releaseStep, hcode, m, Function.update_idem]

/-- An exclusive holder is the agent's own, so what another host holds it holds in shared mode. -/
lemma shared_of_remote (hi : Inv lid s) (hag : (s.host h).isAgent = false)
    (hheld : s.notif (h, t) + s.held (h, t) = 1) : s.cell.rw = LOCK_SHARED := by
  by_contra hne
  have hx : s.cell.rw = LOCK_EXCL := by simpa using hne
  rcases hi.token with hu | ⟨k, hk⟩
  · have h1 := hu.idle.notif (h, t)
    have h2 := hu.idle.held (h, t)
    omega
  · obtain ⟨h1, h2, -, -⟩ := hk.excl hx
    have hN : s.notif (h, t) = 0 := Nat.le_zero.1 (h1 ▸ s.notif_le_notifs (h, t))
    have hm : (h, t) ∈ s.agentHost.holders := by
      by_contra hm
      simp [Cluster.held, hm, hN] at hheld
    obtain ⟨h3, h4⟩ := h2 _ hm
    have h5 := hk.agent
    rw [h3, Cluster.agentHost, ← h4] at h5
    exact absurd (hag.symm.trans h5) (by decide)

/-- A task of another host sends the agent a `RELEASE`. -/
lemma releaseStep_change_remote (hi : Inv lid s) (hlid : lid.toNat < SWITCH_LOCK_NUM)
    (hold : s.task (h, t) = .holding op) (hag : (s.host h).isAgent = false) :
    Change s e (s.releaseStep h t) := by
  have hc := (hi.task (h, t)).counts
  rw [hold] at hc
  obtain ⟨hR, hE, hp0, hp1, hW, hF, hNH, hop⟩ := hc
  have hsh : s.cell.rw = LOCK_SHARED := shared_of_remote hi hag hNH
  have hcode : lockRelease (conf h) (s.host h) t
      = { lock := { s.host h with localHolders := (s.host h).localHolders.erase t }
          sent := [sendPostRelease (conf h) (s.host h).id h t] } :=
    lockRelease_remote (hi.inRange hlid h) hag
  have ef : Effect s (s.releaseStep h t) 0
      {(Dst.switch, sendPostRelease (conf h) (s.host h).id h t)} h
      { s.host h with localHolders := (s.host h).localHolders.erase t } := by
    refine ⟨.of_call (n := [(Dst.switch, _)]) ?_, ?_⟩
    · simp [Cluster.releaseStep, hcode, toSwitch]
    · simp [Cluster.releaseStep, hcode]
  refine .plain (a := (h, t)) ⟨ef, ⟨rfl, rfl, rfl, rfl, rfl, rfl, rfl⟩, .refl _, by simp, ?_,
    .inl rfl, fun _ _ => rfl, ?_, ?_⟩
  · intro x hx
    rw [Multiset.mem_singleton.1 hx]
    exact ⟨⟨rfl, rfl, rfl, rfl⟩, by simp [sendPostRelease, sendPostLockGeneric], rfl, rfl⟩
  · intro lh' hne
    simp [Cluster.releaseStep, hne]
  · have ht' : (s.releaseStep h t).task (h, t) = .idle := by simp [Cluster.releaseStep]
    refine ⟨?_, fun hx => absurd ht' hx⟩
    have hp : ∀ b, (s.releaseStep h t).pend (h, t) b = s.pend (h, t) b := fun b => by
      simpa [pendPkt, sendPostRelease, sendPostLockGeneric] using ef.pend_eq rfl (h, t) b
    rw [ht', hp, hp, hp0, hp1,
      show (s.releaseStep h t).notif (h, t) = _ by
        simpa [notifPkt, isNotif] using ef.moves.notif (h, t),
      show (s.releaseStep h t).wo (h, t) = _ by
        simpa [typedPkt, sendPostRelease, sendPostLockGeneric] using ef.moves.wo (h, t),
      show (s.releaseStep h t).rel (h, t) = 1 by
        simpa [typedPkt, sendPostRelease, sendPostLockGeneric, LockHdr.holder, hR]
          using ef.moves.rel (h, t),
      ef.held_eq rfl rfl, ef.early_eq rfl rfl, ef.flag_eq fun _ => rfl, hW, hE, hF]
    exact ⟨rfl, rfl, rfl, rfl, .inl ⟨rfl, hNH, rfl, hsh⟩⟩

lemma releaseStep_change (hi : Inv lid s) (hlid : lid.toNat < SWITCH_LOCK_NUM)
    (hold : s.task (h, t) = .holding op) : Change s e (s.releaseStep h t) := by
  cases hag : (s.host h).isAgent with
  | true => exact releaseStep_change_agent hi hlid hold hag
  | false => exact releaseStep_change_remote hi hlid hold hag

/-! ## Packets at the switch -/

section Delivery

variable {rest : List Flight}

lemma Cluster.flights_of_getElem? {i : ℕ} {x : Flight} (hx : s.net[i]? = some x) :
    s.flights = {x} + (s.net.eraseIdx i : Multiset Flight) := by
  obtain ⟨hlt, rfl⟩ := List.getElem?_eq_some_iff.1 hx
  have hperm := List.getElem_cons_eraseIdx_perm hlt
  rw [Cluster.flights, ← Multiset.coe_eq_coe.2 hperm]
  rfl

lemma mem_of_flights {x : Flight} (hfl : s.flights = {x} + (rest : Multiset Flight)) :
    x ∈ s.flights := by
  rw [hfl]
  exact Multiset.mem_add.2 (.inl (Multiset.mem_singleton_self x))

lemma switchStep_effect (hfl : s.flights = {(Dst.switch, p)} + (rest : Multiset Flight)) {c : Cell}
    {out : List (HostId × LockHdr)} (hproc : process s.cell p = (c, out)) :
    SwitchEffect s (s.switchStep p rest) p (toHosts out) ∧ (s.switchStep p rest).cell = c := by
  refine ⟨⟨mem_of_flights hfl, ⟨.of_net hfl ?_, ?_⟩, rfl⟩, ?_⟩
  · rw [Cluster.switchStep, hproc]
  · rw [Cluster.agentHost, Function.update_eq_self]
    rfl
  · rw [Cluster.switchStep, hproc]

/-- A packet of one task moves on and its accounts stay. -/
lemma plain_move (hi : Inv lid s) {x y : Flight} {a : LockHolder} (ef : Effect s s' {x} {y} h l)
    (hrole : SameRole l (s.host h)) (hcell : SameCell s.cell s'.cell) (hx : PlainPkt a x)
    (hy : PlainPkt a y) (hok : FlightOk s'.cell y) (hwq : l.wqueue = (s.host h).wqueue)
    (hflag : l.taskGranted = (s.host h).taskGranted) (htask : s'.task = s.task)
    (hpend : ∀ b, pendPkt a b y = pendPkt a b x) (htype : y.2.type = x.2.type) :
    Change s e s' := by
  refine .plain (a := a) ⟨ef, hrole, hcell, ?_, ?_, .inl hwq, fun t _ => by rw [hflag], ?_, ?_⟩
  · intro z hz
    rw [Multiset.mem_singleton.1 hz]
    exact hx
  · intro z hz
    rw [Multiset.mem_singleton.1 hz]
    exact ⟨hy, hok⟩
  · intro lh' _
    rw [htask]
  · refine (hi.task a).of_eq (fun b => ?_) ?_ ?_ ?_ (ef.held_eq hcell.agent hrole.holders a)
      (ef.early_eq hcell.agent hrole.early a) (ef.flag_eq fun _ => by rw [hflag]) hcell.rw
      (by rw [htask])
    · have := ef.pend_eq hwq a b
      rw [inFlight_singleton, inFlight_singleton, hpend] at this
      omega
    · have := ef.moves.notif a
      simpa [notifPkt, hx.notif, hy.notif] using this
    · have := ef.moves.wo a
      simpa [typedPkt, htype, hx.holder, hy.holder] using this
    · have := ef.moves.rel a
      simpa [typedPkt, htype, hx.holder, hy.holder] using this

lemma switchAcquire_change (hi : Inv lid s) (ht : p.type = .acquire)
    (hfl : s.flights = {(Dst.switch, p)} + (rest : Multiset Flight)) :
    Change s e (s.switchStep p rest) := by
  have hx := mem_of_flights hfl
  have hwq : p.wq = [] := by
    have := (hi.flight _ hx).2
    simpa [ht] using this
  have hone : pendPkt p.holder p.mode (Dst.switch, p) = 1 := by
    simp [pendPkt, ht, LockHdr.isFor]
  obtain ⟨hw, -⟩ := (hi.task p.holder).of_pend (hone ▸ Cluster.pendPkt_le p.holder p.mode hx)
  have hm : isHost p.machineId = true := ((hi.task p.holder).valid (by rw [hw]; simp)).1
  cases hf : s.cell.free with
  | false =>
      obtain ⟨x, hc⟩ := switchStep_effect hfl (process_acquire_free ht hf hm)
      exact .acquireFree ⟨x, ht, hf, hm, hc⟩
  | true =>
      obtain ⟨k, hk⟩ : ∃ k, Held s k := by
        rcases hi.token with hu | hk
        · exact absurd (hu.free.symm.trans hf) (by decide)
        · exact hk
      by_cases hsh : p.mode = LOCK_SHARED ∧ s.cell.rw = LOCK_SHARED
      · obtain ⟨x, hc⟩ := switchStep_effect hfl
          (process_acquire_shared ht hf hsh.1 hsh.2 hk.isHost hm)
        exact .acquireShared ⟨x, ht, hf, hsh.1, hsh.2, hc⟩
      · have hx' : p.mode = LOCK_EXCL ∨ s.cell.rw = LOCK_EXCL := by
          cases h1 : p.mode <;> cases h2 : s.cell.rw <;> simp_all
        obtain ⟨x, hc⟩ := switchStep_effect hfl (process_acquire_fwd ht hf hx' hk.isHost)
        refine plain_move hi (a := p.holder) x.effect (.refl _) ?_ ⟨?_, rfl, rfl, hwq⟩
          ⟨?_, ?_, rfl, hwq⟩ ⟨by simp [cleared, hwq], ?_⟩ rfl rfl x.task ?_ rfl
        · rw [hc]
          refine ⟨rfl, rfl, rfl, fun hor => ?_⟩
          rcases hor with h1 | h1
          · exact absurd (h1.symm.trans hf) (by decide)
          · have h2 : p.mode = true := by simpa [h1] using hx'
            simp [countAcquire, h2]
        · simp [isToken, ht]
        · simp [isToken, cleared, ht]
        · simp [isNotif, cleared, ht]
        · simp [cleared, ht, hwq]
        · intro b
          simp only [pendPkt, cleared, ht]
          rfl

/-- A packet that the switch passes on. -/
lemma switchPass_change (hi : Inv lid s) (hfl : s.flights = {(Dst.switch, p)} + (rest : Multiset Flight))
    (ht : p.type = .release ∨ p.type = .grantWoAgent) : Change s e (s.switchStep p rest) := by
  have hx := mem_of_flights hfl
  rcases ht with ht | ht
  · obtain ⟨hwq, hmode⟩ : p.wq = [] ∧ p.mode = false := by
      have := (hi.flight _ hx).2
      simpa [ht] using this
    have hone : typedPkt .release p.holder (Dst.switch, p) = 1 := by simp [typedPkt, ht]
    obtain ⟨-, -, hNH, -⟩ := (hi.task p.holder).of_rel (hone ▸ Cluster.rel_le p.holder hx)
    obtain ⟨k, hk⟩ : ∃ k, Held s k := by
      rcases hi.token with hu | hk
      · have h1 := hu.idle.notif p.holder
        have h2 := hu.idle.held p.holder
        omega
      · exact hk
    obtain ⟨x, hc⟩ := switchStep_effect hfl (process_release ht hk.acquired hmode hk.isHost)
    refine plain_move hi (a := p.holder) x.effect (.refl _) (by rw [hc]; exact .refl _)
      ⟨by simp [isToken, ht], rfl, rfl, hwq⟩
      ⟨by simp [isToken, cleared, ht], by simp [isNotif, cleared, ht], rfl, hwq⟩
      ⟨by simp [cleared, hwq], by simp [cleared, ht, hwq, hc]⟩ rfl rfl x.task ?_ rfl
    intro b
    simp only [pendPkt, cleared, ht]
  · have hwq : p.wq = [] := by
      have := (hi.flight _ hx).2
      simpa [ht] using this
    have hone : typedPkt .grantWoAgent p.holder (Dst.switch, p) = 1 := by simp [typedPkt, ht]
    obtain ⟨hw, -⟩ := (hi.task p.holder).of_wo (hone ▸ Cluster.wo_le p.holder hx)
    have hm : isHost p.machineId = true := ((hi.task p.holder).valid (by rw [hw]; simp)).1
    obtain ⟨x, hc⟩ := switchStep_effect hfl (process_grantWoAgent (c := s.cell) ht hm)
    refine plain_move hi (a := p.holder) x.effect (.refl _) (by rw [hc]; exact .refl _)
      ⟨by simp [isToken, ht], rfl, rfl, hwq⟩
      ⟨by simp [isToken, cleared, ht], by simp [isNotif, cleared, ht], rfl, hwq⟩
      ⟨by simp [cleared, hwq], by simp [cleared, ht, hwq]⟩ rfl rfl x.task ?_ rfl
    intro b
    simp only [pendPkt, cleared, ht]

lemma switchHandOver_change (hi : Inv lid s)
    (hfl : s.flights = {(Dst.switch, p)} + (rest : Multiset Flight))
    (ht : p.type = .transfer ∨ p.type = .free)
    (hroom : p.oldMode = LOCK_SHARED → (s.host p.agent).ncnt.toNat + s.notifs < 256) :
    Change s e (s.switchStep p rest) := by
  have hx := mem_of_flights hfl
  have hk : Held s (.out p) := hi.held_out hx ht
  have hag : isHost p.agent = true := by
    rw [hk.token.2.1]
    exact hk.isHost
  cases hp : pushedBack s.cell p with
  | true =>
      obtain ⟨x, hc⟩ := switchStep_effect hfl (process_pushedBack ht hp hag)
      exact .pushBack ⟨x, ht, hp, hc⟩
  | false =>
      rcases ht with ht | ht
      · have hone : 1 ≤ pendPkt p.holder p.mode (Dst.switch, p) := by
          simp [pendPkt, ht, LockHdr.isFor]
        obtain ⟨hw, -⟩ := (hi.task p.holder).of_pend (hone.trans (Cluster.pendPkt_le _ _ hx))
        have hm : isHost p.machineId = true := ((hi.task p.holder).valid (by rw [hw]; simp)).1
        obtain ⟨x, hc⟩ := switchStep_effect hfl (process_transfer ht hp hk.acquired hm)
        exact .acceptTransfer ⟨x, ht, hp, hroom, hm, hc⟩
      · obtain ⟨x, hc⟩ := switchStep_effect hfl (process_free ht hp hk.acquired)
        exact .acceptFree ⟨x, ht, hp, hroom, hc⟩

lemma switchStep_change (hi : Inv lid s) (hdel : s.delivered e = some (.switch, p))
    (hg : Guarded s e) (hfl : s.flights = {(Dst.switch, p)} + (rest : Multiset Flight)) :
    Change s e (s.switchStep p rest) := by
  simp only [Guarded, hdel] at hg
  have hok := (hi.flight _ (mem_of_flights hfl)).2
  cases ht : p.type with
  | acquire => exact switchAcquire_change hi ht hfl
  | grantWoAgent => exact switchPass_change hi hfl (.inr ht)
  | release => exact switchPass_change hi hfl (.inl ht)
  | transfer => exact switchHandOver_change hi hfl (.inl ht) (hg (.inl ht))
  | free => exact switchHandOver_change hi hfl (.inr ht) (hg (.inr ht))
  | grantWithAgent => simp [ht] at hok
  | other b => simp [ht] at hok

/-! ## Packets at a host -/

lemma hostStep_effect (hfl : s.flights = {(Dst.host h, p)} + (rest : Multiset Flight)) :
    Effect s (s.hostStep h p rest) {(Dst.host h, p)}
      (toSwitch (lockPacketProcess (conf h) (s.host h) p).toSwitch) h
      (lockPacketProcess (conf h) (s.host h) p).lock :=
  ⟨.of_net hfl rfl, rfl⟩

/-- Nobody has a mark for a task whose request is pending. -/
lemma Inv.not_marked (hi : Inv lid s) {lh : LockHolder} {b : Bool} (hp : 1 ≤ s.pend lh b)
    (h : HostId) : (s.host h).earlyRelease lh = false := by
  rcases hi.token with hu | ⟨k, hk⟩
  · exact (hu.quiet h).early lh
  · by_cases hh : h = s.cell.agent
    · have hE := ((hi.task lh).of_pend hp).2.2.2.2.2.2.2.2
      subst hh
      simpa [Cluster.early, Cluster.agentHost] using hE
    · exact (hk.others h hh).early lh

lemma hostNotification_change (hi : Inv lid s) (hlid : lid.toNat < SWITCH_LOCK_NUM)
    (hdel : s.delivered e = some (.host h, p)) (hg : Guarded s e)
    (hfl : s.flights = {(Dst.host h, p)} + (rest : Multiset Flight)) (ht : p.type = .acquire)
    (hgr : p.granted = true) : Change s e (s.hostStep h p rest) := by
  simp only [Guarded, hdel] at hg
  have hx := mem_of_flights hfl
  obtain ⟨hwq, hmode, rfl, hrw⟩ : p.wq = [] ∧ p.mode = LOCK_SHARED ∧ h = s.cell.agent
      ∧ s.cell.rw = LOCK_SHARED := by
    have := (hi.flight _ hx).2
    simpa [ht, hgr] using this
  have hcode : lockPacketProcess (conf s.cell.agent) (s.host s.cell.agent) p
      = processAcquire (s.host s.cell.agent) p := by simp [lockPacketProcess, ht]
  obtain ⟨hl, hsw⟩ := processAcquire_granted (hi.inRange hlid s.cell.agent) hmode hgr
  have ef := hostStep_effect hfl
  rw [hcode, hl, hsw] at ef
  refine .notification ⟨⟨hx, ef, rfl, rfl⟩, ht, hgr, hwq, hrw, hg.2 ht hgr, fun hka hear => ?_⟩
  simp only [KeepsAgent, hdel] at hka
  exact hka ht hear

lemma hostRequest_change (hi : Inv lid s) (hlid : lid.toNat < SWITCH_LOCK_NUM)
    (hdel : s.delivered e = some (.host h, p))
    (hfl : s.flights = {(Dst.host h, p)} + (rest : Multiset Flight)) (ht : p.type = .acquire)
    (hgr : p.granted = false) : Change s e (s.hostStep h p rest) := by
  have hx := mem_of_flights hfl
  have hwq : p.wq = [] := by
    have := (hi.flight _ hx).2
    simpa [ht, hgr] using this
  have hone : pendPkt p.holder p.mode (Dst.host h, p) = 1 := by
    simp [pendPkt, ht, hgr, LockHdr.isFor]
  have hpend : 1 ≤ s.pend p.holder p.mode := hone ▸ Cluster.pendPkt_le p.holder p.mode hx
  have hcode : lockPacketProcess (conf h) (s.host h) p = processAcquire (s.host h) p := by
    simp [lockPacketProcess, ht]
  have ef := hostStep_effect hfl
  rw [hcode] at ef
  have hplain : PlainPkt p.holder (Dst.host h, p) :=
    ⟨by simp [isToken, ht], by simp [isNotif, ht, hgr], rfl, hwq⟩
  obtain ⟨hrole, hflag, ⟨hsw, hq⟩ | ⟨hsw, hq, hwhy⟩⟩ :=
    processAcquire_pending (hi.inRange hlid h) hgr (hi.not_marked hpend h)
  · rw [hsw] at ef
    refine plain_move hi (y := (Dst.switch, p)) ef hrole (.refl _) hplain
      ⟨by simp [isToken, ht], rfl, rfl, hwq⟩ ⟨by simp [hwq], by simp [ht, hwq]⟩ hq hflag rfl ?_ rfl
    intro b
    simp [pendPkt, ht, hgr]
  · rw [hsw] at ef
    have hhold : (Wqe.ofReq p.modeState p.taskId p.machineId).holder = p.holder :=
      hi.holder_of_pend hx hone.ge
    have hop : p.modeState = .shared ∨ p.modeState = .excl := by
      cases hm : p.mode <;> simp [LockHdr.modeState, hm, LockState.ofBit]
    refine .plain (a := p.holder) ⟨ef, hrole, .refl _, ?_, by simp [toSwitch],
      .inr ⟨⟨_, hop, hhold, hq⟩, fun hkw => ?_⟩, fun t _ => by rw [hflag], fun _ _ => rfl, ?_⟩
    · intro z hz
      rw [Multiset.mem_singleton.1 hz]
      exact hplain
    · rcases hwhy with hag | ⟨hm, hcnt⟩
      · exact .inl hag
      · cases hag : (s.host h).isAgent with
        | true => exact .inl rfl
        | false =>
            simp only [KeepsWaiters, hdel] at hkw
            exact .inr (hkw ht hm hag hcnt)
    · refine (hi.task p.holder).of_eq (fun b => ?_) ?_ ?_ ?_ (ef.held_eq rfl hrole.holders _)
        (ef.early_eq rfl hrole.early _) (ef.flag_eq fun _ => by rw [hflag]) rfl rfl
      · have h1 := ef.moves.pend ef.host p.holder b
        have h2 : pendPkt p.holder b (Dst.host h, p)
            = [Wqe.ofReq p.modeState p.taskId p.machineId].countP (Wqe.isFor p.holder b) := by
          simp only [pendPkt, ht, hgr, List.countP_singleton, isFor_ofReq hhold,
            Bool.false_eq_true, if_false]
          cases p.isFor p.holder b <;> rfl
        rw [hq, List.countP_append, inFlight_singleton, h2] at h1
        simp only [toSwitch, List.map_nil, Multiset.coe_nil, inFlight_zero] at h1
        omega
      · have := ef.moves.notif p.holder
        simpa [notifPkt, isNotif, ht, hgr, toSwitch] using this
      · have := ef.moves.wo p.holder
        simpa [typedPkt, ht, toSwitch] using this
      · have := ef.moves.rel p.holder
        simpa [typedPkt, ht, toSwitch] using this

lemma hostTakeOver_change (hi : Inv lid s)
    (hfl : s.flights = {(Dst.host h, p)} + (rest : Multiset Flight))
    (ht : p.type = .grantWithAgent) : Change s e (s.hostStep h p rest) := by
  have hx := mem_of_flights hfl
  obtain ⟨rfl, hk⟩ := hi.held_grant hx ht
  obtain ⟨-, hmid, -, hmode, hw⟩ := hk.token
  have hone : 1 ≤ pendPkt p.holder p.mode (Dst.host s.cell.agent, p) := by
    simp [pendPkt, ht, LockHdr.isFor]
  obtain ⟨hwait, -⟩ := (hi.task p.holder).of_pend (hone.trans (Cluster.pendPkt_le _ _ hx))
  have hlt : p.taskId.toNat < 2 ^ 30 := ((hi.task p.holder).valid (by rw [hwait]; simp)).2
  have hrestore : p.taskId ≠ TASK_FOR_RESTORE := by
    intro heq
    rw [heq] at hlt
    exact absurd hlt (by decide)
  obtain ⟨gr, kept, hsplit, hl, hsw⟩ :=
    processGrantWithAgent_spec (l := s.host s.cell.agent) hmid hrestore hw
  have hcode : lockPacketProcess (conf s.cell.agent) (s.host s.cell.agent) p
      = processGrantWithAgent (conf s.cell.agent) (s.host s.cell.agent) p := by
    simp [lockPacketProcess, ht]
  have ef := hostStep_effect hfl
  rw [hcode, hl, hsw] at ef
  exact .takeOver ⟨⟨hx, ef, rfl, rfl⟩, ht, hsplit⟩

lemma hostGrant_change (hi : Inv lid s)
    (hfl : s.flights = {(Dst.host h, p)} + (rest : Multiset Flight))
    (ht : p.type = .grantWoAgent) : Change s e (s.hostStep h p rest) := by
  have hx := mem_of_flights hfl
  obtain ⟨hwq, rfl⟩ : p.wq = [] ∧ p.machineId = h := by
    have := (hi.flight _ hx).2
    simpa [ht] using this
  have hone : typedPkt .grantWoAgent p.holder (Dst.host p.machineId, p) = 1 := by
    simp [typedPkt, ht]
  obtain ⟨hw, hW, hF, hNH, hR, hE, hp, -⟩ :=
    (hi.task p.holder).of_wo (hone ▸ Cluster.wo_le p.holder hx)
  have hcode : lockPacketProcess (conf p.machineId) (s.host p.machineId) p
      = { lock := lockLocalNotify (s.host p.machineId) p.taskId, hdr := p } := by
    simp [lockPacketProcess, ht, processGrantWoAgent, assertThat]
  have ef := hostStep_effect hfl
  rw [hcode] at ef
  refine .plain (a := p.holder) ⟨ef, ⟨rfl, rfl, rfl, rfl, rfl, rfl, rfl⟩, .refl _, ?_,
    by simp [toSwitch, Outcome.toSwitch], .inl rfl, ?_, fun _ _ => rfl, ?_⟩
  · intro z hz
    rw [Multiset.mem_singleton.1 hz]
    exact ⟨by simp [isToken, ht], by simp [isNotif, ht], rfl, hwq⟩
  · intro t hne
    have : t ≠ p.taskId := fun h => hne (by rw [h]; rfl)
    simp [lockLocalNotify, this]
  · refine ⟨?_, (hi.task p.holder).valid⟩
    have htask : (s.hostStep p.machineId p rest).task p.holder = s.task p.holder := rfl
    have hcell : (s.hostStep p.machineId p rest).cell = s.cell := rfl
    have hp' : ∀ b, (s.hostStep p.machineId p rest).pend p.holder b = 0 := fun b => by
      simpa [pendPkt, ht, toSwitch, Outcome.toSwitch, hp] using ef.pend_eq rfl p.holder b
    have hn' : (s.hostStep p.machineId p rest).notif p.holder = s.notif p.holder := by
      simpa [notifPkt, isNotif, ht, toSwitch, Outcome.toSwitch] using ef.moves.notif p.holder
    have hw' : (s.hostStep p.machineId p rest).wo p.holder = 0 := by
      simpa [hone, hW, toSwitch, Outcome.toSwitch] using ef.moves.wo p.holder
    have hr' : (s.hostStep p.machineId p rest).rel p.holder = 0 := by
      simpa [typedPkt, ht, hR, toSwitch, Outcome.toSwitch] using ef.moves.rel p.holder
    have hf' : (s.hostStep p.machineId p rest).flag p.holder = 1 := by
      have : p.holder = (p.machineId, p.taskId) := rfl
      rw [this, ef.flag_self]
      simp [lockLocalNotify]
    rw [htask, hcell, hw, hp', hp', hn', hw', hr', hf', ef.held_eq rfl rfl, ef.early_eq rfl rfl, hE]
    exact ⟨rfl, rfl, .inr ⟨rfl, rfl, rfl, hNH, rfl, fun _ => rfl⟩⟩

lemma hostRelease_change (hi : Inv lid s) (hlid : lid.toNat < SWITCH_LOCK_NUM)
    (hfl : s.flights = {(Dst.host h, p)} + (rest : Multiset Flight)) (ht : p.type = .release)
    (hg : (s.host h).isAgent = true ∨ p.holder ∈ (s.host h).holders) :
    Change s e (s.hostStep h p rest) := by
  have hx := mem_of_flights hfl
  obtain ⟨hwq, rfl⟩ : p.wq = [] ∧ h = s.cell.agent := by
    have := (hi.flight _ hx).2
    simpa [ht] using this
  have hone : typedPkt .release p.holder (Dst.host s.cell.agent, p) = 1 := by simp [typedPkt, ht]
  obtain ⟨-, -, -, -, -, hp, -, -⟩ := (hi.task p.holder).of_rel (hone ▸ Cluster.rel_le p.holder hx)
  have hcode : lockPacketProcess (conf s.cell.agent) (s.host s.cell.agent) p
      = processRelease (conf s.cell.agent) (s.host s.cell.agent) p := by
    simp [lockPacketProcess, ht]
  have hr := hi.inRange hlid s.cell.agent
  cases hag : (s.host s.cell.agent).isAgent with
  | false =>
      have hm : p.holder ∈ (s.host s.cell.agent).holders := by simpa [hag] using hg
      obtain ⟨hl, hsw⟩ := processRelease_delayed (h := s.cell.agent) hr hag hm
      have ef := hostStep_effect hfl
      rw [hcode, hl, hsw] at ef
      exact .delayedRelease ⟨⟨hx, ef, rfl, rfl⟩, ht, hwq, hag, hm⟩
  | true =>
      have hnot : ∀ w ∈ (s.host s.cell.agent).wqueue, w.holder ≠ p.holder := by
        intro w hw hwh
        have hle := Cluster.countP_le (s := s) p.holder w.op.bit s.cell.agent
        have hpos : 0 < (s.host s.cell.agent).wqueue.countP (Wqe.isFor p.holder w.op.bit) :=
          List.countP_pos_iff.2 ⟨w, hw, by simp [Wqe.isFor, hwh]⟩
        rw [hp] at hle
        omega
      obtain ⟨hs, er, f, hcase, hrel⟩ : ∃ hs er f,
          (p.holder ∈ s.agentHost.holders ∧ hs = s.agentHost.holders.erase p.holder
              ∧ er = s.agentHost.earlyRelease
            ∨ p.holder ∉ s.agentHost.holders ∧ hs = s.agentHost.holders
              ∧ er = Function.update s.agentHost.earlyRelease p.holder true)
          ∧ processRelease (conf s.cell.agent) (s.host s.cell.agent) p
              = releaseHandOver (conf s.cell.agent)
                  (dropped s.agentHost hs er s.agentHost.localHolders) p f := by
        rcases processRelease_agent (h := s.cell.agent) hr hag hnot with ⟨hm, f, hf⟩ | ⟨hm, hf⟩
        · exact ⟨_, _, f, .inl ⟨hm, rfl, rfl⟩, hf⟩
        · exact ⟨_, _, [], .inr ⟨hm, rfl, rfl⟩, hf⟩
      set l := dropped s.agentHost hs er s.agentHost.localHolders
      set m : Cluster := { s with
        host := Function.update s.host s.cell.agent l
        net := rest }
      have hm : m.agentHost = l := Function.update_self ..
      have hdrop : Drop s m p.holder :=
        ⟨hag, rfl, _, hs, er, _, .packet ht rfl hwq hx rfl, ⟨.of_net (n := []) hfl rfl, rfl⟩, hcase⟩
      have hspec := releaseHandOver_spec s.cell.agent l p f
      rw [← hm] at hspec
      refine hdrop.change hspec ?_
      rw [hm]
      simp only [Cluster.hostStep, hcode, hrel, m, Function.update_idem]

lemma hostPushedBack_change (hi : Inv lid s)
    (hfl : s.flights = {(Dst.host h, p)} + (rest : Multiset Flight))
    (ht : p.type = .transfer ∨ p.type = .free) : Change s e (s.hostStep h p rest) := by
  have hx := mem_of_flights hfl
  obtain ⟨rfl, -⟩ := hi.held_back hx ht
  have hcode : lockPacketProcess (conf s.cell.agent) (s.host s.cell.agent) p
      = processPushedBack (s.host s.cell.agent) p := by
    rcases ht with ht | ht <;> simp [lockPacketProcess, ht]
  have ef := hostStep_effect hfl
  rw [hcode] at ef
  rcases processPushedBack_spec (s.host s.cell.agent) p with ⟨-, hh, hl, hsw⟩ | ⟨hb, hl, hsw⟩
  · rw [hl, hsw] at ef
    exact .resend ⟨⟨hx, ef, rfl, rfl⟩, ht, hh⟩
  · rw [hl, hsw] at ef
    exact .restore ⟨⟨hx, ef, rfl, rfl⟩, ht, hb⟩

lemma hostStep_change (hi : Inv lid s) (hlid : lid.toNat < SWITCH_LOCK_NUM)
    (hdel : s.delivered e = some (.host h, p)) (hg : Guarded s e)
    (hfl : s.flights = {(Dst.host h, p)} + (rest : Multiset Flight)) :
    Change s e (s.hostStep h p rest) := by
  have hok := (hi.flight _ (mem_of_flights hfl)).2
  cases ht : p.type with
  | acquire =>
      cases hgr : p.granted with
      | true => exact hostNotification_change hi hlid hdel hg hfl ht hgr
      | false => exact hostRequest_change hi hlid hdel hfl ht hgr
  | grantWithAgent => exact hostTakeOver_change hi hfl ht
  | grantWoAgent => exact hostGrant_change hi hfl ht
  | release =>
      simp only [Guarded, hdel] at hg
      exact hostRelease_change hi hlid hfl ht (hg.1 ht)
  | transfer => exact hostPushedBack_change hi hfl (.inl ht)
  | free => exact hostPushedBack_change hi hfl (.inr ht)
  | other b => simp [ht] at hok

end Delivery

/-! ## Every step -/

/-- **Every guarded step of the code is a transition of the protocol.** -/
theorem step_change (hlid : lid.toNat < SWITCH_LOCK_NUM) (hi : Inv lid s) (hg : Guarded s e)
    (hstep : s.step e = some s') : Change s e s' := by
  cases e with
  | acquire h t op =>
      simp only [Cluster.step] at hstep
      split at hstep
      · next hc =>
          obtain ⟨hh, ht, hop, hidle, hfresh⟩ := hc
          rw [← Option.some.inj hstep]
          exact acquireStep_change hi hlid hh ht hop hidle hfresh
      · cases hstep
  | poll h t =>
      simp only [Cluster.step] at hstep
      split at hstep
      · next op hw =>
          cases hgr : (s.host h).taskGranted t with
          | true =>
              simp only [lockReqGranted, hgr, if_true] at hstep
              rw [← Option.some.inj hstep]
              exact poll_change hi hw hgr
          | false => simp [lockReqGranted, hgr] at hstep
      · cases hstep
  | release h t =>
      simp only [Cluster.step] at hstep
      split at hstep
      · next op hold =>
          rw [← Option.some.inj hstep]
          exact releaseStep_change hi hlid hold
      · cases hstep
  | deliver i =>
      simp only [Cluster.step] at hstep
      split at hstep
      · next p hx =>
          rw [← Option.some.inj hstep]
          exact switchStep_change hi hx hg (Cluster.flights_of_getElem? hx)
      · next h p hx =>
          rw [← Option.some.inj hstep]
          exact hostStep_change hi hlid hx hg (Cluster.flights_of_getElem? hx)
      · cases hstep

lemma inv_init (lid : LockId) : Inv lid (Cluster.init lid) := by
  have hn : ∀ f : Flight → ℕ, inFlight f (Cluster.init lid).flights = 0 := fun f => by
    simp [Cluster.flights, Cluster.init]
  refine ⟨fun _ => rfl, fun _ => by simp [Cluster.init, InnetLock.init],
    by simp [Cluster.flights, Cluster.init], fun lh => ⟨?_, fun hne => absurd rfl hne⟩, .inl ⟨rfl, rfl,
      by simp [Cluster.tokens, Cluster.flights, Cluster.init], hn _, fun h => ?_⟩⟩
  · have hp : ∀ b, (Cluster.init lid).pend lh b = 0 := fun b => by
      rw [Cluster.pend, hn, zero_add, stored_eq_zero]
      simp [Cluster.init, InnetLock.init]
    have hH : (Cluster.init lid).held lh = 0 := by
      simp [Cluster.held, Cluster.agentHost, Cluster.init, InnetLock.init]
    rw [hp, hp, Cluster.notif, Cluster.wo, Cluster.rel, hn, hn, hn, hH]
    exact ⟨rfl, rfl, rfl, rfl, .inr ⟨rfl, rfl, rfl⟩⟩
  · exact ⟨rfl, rfl, rfl, rfl, fun _ => rfl⟩

/-- **The invariant holds along every guarded run.** -/
theorem inv_of_reachable (hlid : lid.toNat < SWITCH_LOCK_NUM)
    (h : Cluster.Reachable lid Guarded s) : Inv lid s :=
  Reach.invariant (inv_init lid)
    (fun _ _ _ hi hg hs => (step_change hlid hi hg hs).inv hi) h

end FissLock
