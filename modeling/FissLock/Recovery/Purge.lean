import FissLock.Recovery.System

/-!
# What a host submits

`integrity_check` removes the waiters of failed machines from the queue of an agent and submits the
rest.  The loop advances its iterator after it has erased an entry, so that of two entries of one
machine that meet the second one survives.  `sweepBelow_eq_nil` says exactly when nothing is left of
a queue; then the coordinator does not learn that the lock has an agent.
-/

namespace FissLock

open Tofino

/-! ### What is left of a wait queue -/

/-- No two consecutive entries are of host `i`. -/
def Apart (i : ℕ) (wq : List Wqe) : Prop :=
  wq.IsChain fun w w' => ¬ (w.host.toNat = i ∧ w'.host.toNat = i)

/-- Recovery leaves nobody in the wait queue: all entries are of failed machines, and no two of one
machine meet when its turn comes, the entries of smaller machine ids having been erased. -/
def Deserted (code : BitVec 64) (wq : List Wqe) : Prop :=
  (∀ w ∈ wq, sweptHost code w.host.toNat)
    ∧ ∀ i, sweptHost code i → Apart i (wq.filter (i ≤ ·.host.toNat))

section Sweep

variable {i : ℕ} {wq : List Wqe} {w : Wqe}

lemma mem_eraseWaitersOf (hw : w.host.toNat ≠ i) : w ∈ eraseWaitersOf i wq ↔ w ∈ wq := by
  fun_induction eraseWaitersOf i wq with
  | case1 => exact Iff.rfl
  | case2 v hv =>
      simp only [List.not_mem_nil, List.mem_singleton, false_iff]
      rintro rfl
      exact hw hv
  | case3 v _ => exact Iff.rfl
  | case4 v v' wq hv ih =>
      have hne : w ≠ v := by
        rintro rfl
        exact hw hv
      simp [ih, hne]
  | case5 v v' wq _ ih => rw [List.mem_cons, ih, ← List.mem_cons]

/-- The loop does what it should where no two entries of the host meet. -/
lemma eraseWaitersOf_eq (h : Apart i wq) :
    eraseWaitersOf i wq = wq.filter (·.host.toNat ≠ i) := by
  fun_induction eraseWaitersOf i wq with
  | case1 => rfl
  | case2 v hv => simp [hv]
  | case3 v hv => simp [hv]
  | case4 v v' wq hv ih =>
      have hv' : v'.host.toNat ≠ i := fun h' => (List.isChain_cons_cons.1 h).1 ⟨hv, h'⟩
      have htail : Apart i wq := ((List.isChain_cons_cons.1 h).2).tail
      simp [ih htail, hv, hv']
  | case5 v v' wq hv ih =>
      rw [ih (List.isChain_cons_cons.1 h).2, ← List.filter_cons_of_pos (by simpa using hv)]

/-- Where two do, one is left. -/
lemma exists_mem_eraseWaitersOf (h : ¬ Apart i wq) :
    ∃ w ∈ eraseWaitersOf i wq, w.host.toNat = i := by
  fun_induction eraseWaitersOf i wq with
  | case1 => exact absurd List.isChain_nil h
  | case2 v hv => exact absurd (List.isChain_singleton v) h
  | case3 v hv => exact absurd (List.isChain_singleton v) h
  | case4 v v' wq hv ih =>
      by_cases hv' : v'.host.toNat = i
      · exact ⟨v', List.mem_cons_self, hv'⟩
      · have hwq : ¬ Apart i wq := by
          intro hwq
          apply h
          refine List.isChain_cons_cons.2 ⟨fun hboth => hv' hboth.2, ?_⟩
          cases wq with
          | nil => exact List.isChain_singleton v'
          | cons u wq => exact List.isChain_cons_cons.2 ⟨fun hboth => hv' hboth.1, hwq⟩
        obtain ⟨w, hw, hi⟩ := ih hwq
        exact ⟨w, List.mem_cons_of_mem _ hw, hi⟩
  | case5 v v' wq hv ih =>
      have hwq : ¬ Apart i (v' :: wq) := fun hwq =>
        h (List.isChain_cons_cons.2 ⟨fun hboth => hv hboth.1, hwq⟩)
      obtain ⟨w, hw, hi⟩ := ih hwq
      exact ⟨w, List.mem_cons_of_mem _ hw, hi⟩

end Sweep

/-- The wait queue after the machines below `n` were dealt with. -/
def sweepBelow (code : BitVec 64) (wq : List Wqe) (n : ℕ) : List Wqe :=
  (List.range n).foldl
    (fun wq i => if serverFailed code (BitVec.ofNat 32 i) then eraseWaitersOf i wq else wq) wq

lemma sweepBelow_succ (code : BitVec 64) (wq : List Wqe) (n : ℕ) :
    sweepBelow code wq (n + 1)
      = if serverFailed code (BitVec.ofNat 32 n) then eraseWaitersOf n (sweepBelow code wq n)
        else sweepBelow code wq n := by
  rw [sweepBelow, List.range_succ, List.foldl_append]
  rfl

section SweepBelow

variable {code : BitVec 64} {wq : List Wqe} {n : ℕ}

/-- Entries of other machines stay. -/
lemma mem_sweepBelow {w : Wqe} (hw : w ∈ wq) (hn : n ≤ HOST_NUM)
    (hkept : ∀ i < n, w.host.toNat = i → ¬ sweptHost code i) : w ∈ sweepBelow code wq n := by
  induction n with
  | zero => exact hw
  | succ n ih =>
      have hmem := ih (by omega) (fun i hi => hkept i (by omega))
      rw [sweepBelow_succ]
      split
      · next hfail =>
          refine (mem_eraseWaitersOf ?_).2 hmem
          intro hi
          exact hkept n (by omega) hi ⟨by omega, hfail⟩
      · exact hmem

/-- The entry is not of a failed machine below `n`. -/
def keptBelow (code : BitVec 64) (n : ℕ) (w : Wqe) : Bool :=
  decide ¬ (w.host.toNat < n ∧ serverFailed code (BitVec.ofNat 32 w.host.toNat) = true)

/-- As long as no two entries meet, the failed machines below `n` are gone. -/
lemma sweepBelow_eq_filter
    (hapart : ∀ i < n, serverFailed code (BitVec.ofNat 32 i) = true → Apart i (sweepBelow code wq i)) :
    sweepBelow code wq n = wq.filter (keptBelow code n) := by
  induction n with
  | zero => exact (List.filter_eq_self.2 fun w _ => by simp [keptBelow]).symm
  | succ n ih =>
      have hrec := ih fun i hi => hapart i (by omega)
      rw [sweepBelow_succ]
      split
      · next hfail =>
          rw [eraseWaitersOf_eq (hapart n (by omega) hfail), hrec, List.filter_filter]
          refine List.filter_congr fun w _ => ?_
          by_cases hwn : w.host.toNat = n
          · simp [keptBelow, hwn, hfail]
          · have : w.host.toNat < n + 1 ↔ w.host.toNat < n := by omega
            simp [keptBelow, hwn, this]
      · next hok =>
          rw [hrec]
          refine List.filter_congr fun w _ => ?_
          by_cases hwn : w.host.toNat = n
          · simp [keptBelow, hwn, hok]
          · have : w.host.toNat < n + 1 ↔ w.host.toNat < n := by omega
            simp [keptBelow, this]

/-- The same where all entries are of machines that the loop comes to. -/
lemma sweepBelow_eq (hall : ∀ w ∈ wq, sweptHost code w.host.toNat) (hn : n ≤ HOST_NUM)
    (hapart : ∀ i < n, sweptHost code i → Apart i (sweepBelow code wq i)) :
    sweepBelow code wq n = wq.filter (n ≤ ·.host.toNat) := by
  rw [sweepBelow_eq_filter fun i hi hfail => hapart i hi ⟨by omega, hfail⟩]
  refine List.filter_congr fun w hw => ?_
  have hfail := (hall w hw).2
  simp only [keptBelow, hfail, and_true, not_lt]

/-- Two entries that meet leave one for good. -/
lemma exists_mem_sweepBelow {i : ℕ} (hi : i < n) (hfail : sweptHost code i)
    (hmeet : ¬ Apart i (sweepBelow code wq i)) :
    ∃ w ∈ sweepBelow code wq n, w.host.toNat = i := by
  induction n with
  | zero => omega
  | succ n ih =>
      rw [sweepBelow_succ]
      by_cases hin : i = n
      · subst hin
        rw [if_pos hfail.2]
        exact exists_mem_eraseWaitersOf hmeet
      · obtain ⟨w, hw, hwi⟩ := ih (by omega)
        split
        · exact ⟨w, (mem_eraseWaitersOf (by omega)).2 hw, hwi⟩
        · exact ⟨w, hw, hwi⟩

end SweepBelow

/-- **What recovery makes of a wait queue**, in terms of the queue. -/
lemma sweepBelow_eq_nil (code : BitVec 64) (wq : List Wqe) :
    sweepBelow code wq HOST_NUM = [] ↔ Deserted code wq := by
  constructor
  · intro hnil
    have hall : ∀ w ∈ wq, sweptHost code w.host.toNat := by
      intro w hw
      by_contra hkept
      have hmem : w ∈ sweepBelow code wq HOST_NUM :=
        mem_sweepBelow hw le_rfl (fun i _ hi => hi ▸ hkept)
      rw [hnil] at hmem
      cases hmem
    have hapart : ∀ i, sweptHost code i → Apart i (sweepBelow code wq i) := by
      intro i hi
      by_contra hmeet
      obtain ⟨w, hw, -⟩ := exists_mem_sweepBelow hi.1 hi hmeet
      rw [hnil] at hw
      cases hw
    refine ⟨hall, fun i hi => ?_⟩
    rw [← sweepBelow_eq hall hi.1.le fun j _ => hapart j]
    exact hapart i hi
  · rintro ⟨hall, hapart⟩
    have heq : ∀ n ≤ HOST_NUM, sweepBelow code wq n = wq.filter (n ≤ ·.host.toNat) := by
      intro n hn
      induction n using Nat.strong_induction_on with
      | _ n ih =>
          refine sweepBelow_eq hall hn fun i hi hswept => ?_
          rw [ih i hi hswept.1.le]
          exact hapart i hswept
    rw [heq HOST_NUM le_rfl, List.filter_eq_nil_iff]
    intro w hw
    have hlt := (hall w hw).1
    simp only [decide_eq_true_eq]
    omega

/-! ### The purged metadata -/

section Loop

variable (er : ℕ → Finset LockHolder → Finset LockHolder) {code : BitVec 64}

/-- The holders after the machines below `n` were dealt with. -/
def holdersBelow (code : BitVec 64) (H : Finset LockHolder) (n : ℕ) : Finset LockHolder :=
  (List.range n).foldl
    (fun H i => if serverFailed code (BitVec.ofNat 32 i) then er i H else H) H

/-- Where no machine of a holder is swept, the loop over `holders` changes nothing. -/
lemma holdersBelow_of_kept {H : Finset LockHolder} (her : DefinedLoop er)
    (hkept : ∀ lh ∈ H, ¬ sweptHost code lh.1.toNat) {n : ℕ} (hn : n ≤ HOST_NUM) :
    holdersBelow er code H n = H := by
  induction n with
  | zero => rfl
  | succ n ih =>
      rw [holdersBelow, List.range_succ, List.foldl_append, ← holdersBelow, ih (by omega)]
      simp only [List.foldl_cons, List.foldl_nil]
      split
      · next hfail =>
          refine her n H fun lh hlh hi => hkept lh hlh ?_
          rw [hi]
          exact ⟨hn, hfail⟩
      · rfl

/-- The two loops do not get into each other's way. -/
lemma removeFailedWith_eq (code : BitVec 64) (l : InnetLock) :
    removeFailedWith er code l
      = { l with
          holders := holdersBelow er code l.holders HOST_NUM
          wqueue := sweepBelow code l.wqueue HOST_NUM } := by
  suffices hfold : ∀ is : List ℕ, ∀ l : InnetLock,
      is.foldl (fun l i => if serverFailed code (BitVec.ofNat 32 i) then
          { l with holders := er i l.holders, wqueue := eraseWaitersOf i l.wqueue } else l) l
        = { l with
            holders := is.foldl
              (fun H i => if serverFailed code (BitVec.ofNat 32 i) then er i H else H) l.holders
            wqueue := is.foldl
              (fun wq i => if serverFailed code (BitVec.ofNat 32 i) then eraseWaitersOf i wq else wq)
              l.wqueue } from hfold (List.range HOST_NUM) l
  intro is
  induction is with
  | nil => intro l; rfl
  | cons i is ih =>
      intro l
      simp only [List.foldl_cons]
      rw [ih]
      split <;> rfl

end Loop

namespace Outage

variable (x : Outage) (h : HostId) (lid : LockId)

/-- **What goes wrong.**  The lock has an agent that survived and has nobody waiting, the
coordinator has not been told of an agent before, and another host holds the lock: that host is
made agent, too. -/
def Clash : Prop :=
  (x.lmState lid).hasAgent = false
    ∧ (∃ a, x.live a ∧ x.agent a lid
        ∧ (lid ∈ x.table a → Deserted x.code (x.host a lid).wqueue))
    ∧ ∃ h, x.Candidate h lid

variable {x h lid}

lemma mem_allHosts (hlive : x.live h) : h ∈ allHosts := by
  obtain ⟨hlo, hhi⟩ := hlive.1
  refine List.mem_map.2 ⟨h.toNat - 1, List.mem_range.2 (by omega), ?_⟩
  apply BitVec.eq_of_toNat_eq
  rw [BitVec.toNat_ofNat]
  have := h.isLt
  omega

/-- Purging changes nothing but the holders and the queue. -/
lemma purged_fields : (x.purged h lid).id = lid
    ∧ (x.purged h lid).isAgent = (x.host h lid).isAgent
    ∧ (x.purged h lid).localHolders = (x.host h lid).localHolders
    ∧ (x.purged h lid).mode = (x.host h lid).mode
    ∧ (x.purged h lid).ncnt = (x.host h lid).ncnt := by
  rw [purged]
  split
  · rw [removeFailedWith_eq]
    exact ⟨x.host_id h lid, rfl, rfl, rfl, rfl⟩
  · exact ⟨x.host_id h lid, rfl, rfl, rfl, rfl⟩

/-- In a round in which nothing undefined happens, the holders are not touched. -/
lemma Defined.purged_holders (hdef : x.Defined) (hlive : x.live h) :
    (x.purged h lid).holders = (x.host h lid).holders := by
  rw [purged]
  split
  · next hag =>
      rw [removeFailedWith_eq]
      exact holdersBelow_of_kept _ (x.undef h lid).erase_defined
        (hdef.holders h hlive lid hag.1 hag.2) le_rfl
  · rfl

lemma purged_wqueue (htable : lid ∈ x.table h) (hagent : x.agent h lid) :
    (x.purged h lid).wqueue = [] ↔ Deserted x.code (x.host h lid).wqueue := by
  rw [purged, if_pos ⟨htable, hagent⟩, removeFailedWith_eq]
  exact sweepBelow_eq_nil _ _

lemma mem_submissions_holder {lh : LockHolder} : .holder lid lh ∈ x.submissions h
    ↔ lid ∈ x.table h ∧ ∃ t ∈ (x.host h lid).localHolders, (h, t) = lh := by
  simp only [submissions, Finset.mem_biUnion, List.mem_toFinset]
  constructor
  · rintro ⟨lid', hmem, hsub⟩
    rw [submissionsOf, Finset.mem_union] at hsub
    rcases hsub with hsub | hsub
    · obtain ⟨t, ht, heq⟩ := Finset.mem_image.1 hsub
      rw [purged_fields.1, Submission.holder.injEq] at heq
      rw [purged_fields.2.2.1, heq.1] at ht
      exact ⟨heq.1 ▸ hmem, t, ht, heq.2⟩
    · split at hsub <;> simp at hsub
  · rintro ⟨hmem, t, ht, rfl⟩
    refine ⟨lid, hmem, Finset.mem_union_left _ (Finset.mem_image.2 ⟨t, ?_, ?_⟩)⟩
    · rw [purged_fields.2.2.1]
      exact ht
    · rw [purged_fields.1]

lemma mem_collected {lh : LockHolder} : lh ∈ x.collected lid
    ↔ lh ∈ (x.lmState lid).holders ∨ ∃ h, x.live h ∧ .holder lid lh ∈ x.submissions h := by
  simp only [collected, Finset.mem_union, Finset.mem_biUnion, Finset.mem_filter, List.mem_toFinset,
    Finset.mem_image, mem_submissions_holder]
  refine or_congr_right ⟨?_, ?_⟩
  · rintro ⟨h, ⟨-, hlive, htable⟩, hlh⟩
    exact ⟨h, hlive, htable, hlh⟩
  · rintro ⟨h, hlive, htable, hlh⟩
    exact ⟨h, ⟨mem_allHosts hlive, hlive, htable⟩, hlh⟩

lemma mem_submissions_waiter : (∃ lh, .waiter lid lh ∈ x.submissions h)
    ↔ lid ∈ x.table h ∧ x.agent h lid ∧ ¬ Deserted x.code (x.host h lid).wqueue := by
  simp only [submissions, Finset.mem_biUnion, List.mem_toFinset]
  constructor
  · rintro ⟨lh, lid', hmem, hsub⟩
    rw [submissionsOf, Finset.mem_union] at hsub
    rcases hsub with hsub | hsub
    · obtain ⟨t, -, heq⟩ := Finset.mem_image.1 hsub
      cases heq
    · split at hsub
      · next hagent =>
          obtain ⟨w, hw, heq⟩ := List.mem_map.1 (List.mem_toFinset.1 hsub)
          rw [purged_fields.1, Submission.waiter.injEq] at heq
          rw [purged_fields.2.1] at hagent
          obtain ⟨rfl, -⟩ := heq
          refine ⟨hmem, hagent, fun hdes => ?_⟩
          rw [(purged_wqueue hmem hagent).2 hdes] at hw
          cases hw
      · simp at hsub
  · rintro ⟨hmem, hagent, hleft⟩
    rw [← purged_wqueue hmem hagent] at hleft
    obtain ⟨w, hw⟩ := List.exists_mem_of_ne_nil _ hleft
    refine ⟨w.holder, lid, hmem, Finset.mem_union_right _ ?_⟩
    rw [if_pos (purged_fields.2.1.trans hagent), List.mem_toFinset]
    exact List.mem_map.2 ⟨w, hw, by rw [purged_fields.1]⟩

end Outage

end FissLock
