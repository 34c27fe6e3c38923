import FissLock.Recovery.Purge

/-!
# What the calls to the coordinator keep

The coordinator knows exactly the holders that were submitted to it, and it knows of an agent
exactly if it has been told of one, now or in an earlier round, or has made a host the agent
itself.  Behind the barrier everything has been submitted, so that the answer to `check_holder`
depends on the start of the round and on who asked before.
-/

namespace FissLock

open Runs Tofino

/-! ### The body of the second loop -/

/-- The host can ask about the lock: the reply has room for the holders, or is not sent any. -/
def Askable (c : Coordinator) (l : InnetLock) : Prop :=
  (c.lmState l.id).holders.card ≤ MAX_HOLDERS
    ∨ (if l.isAgent then (c.lmState l.id).holders.card ≤ l.holders.card
      else (c.lmState l.id).hasAgent = true ∨ l.localHolders = ∅)

lemma askHolder_agent {u : Undefined} {c : Coordinator} {lid : LockId} {n : ℕ}
    (hroom : (c.lmState lid).holders.card ≤ MAX_HOLDERS ∨ (c.lmState lid).holders.card ≤ n) :
    ∃ r, askHolder u c true lid n = (c, r) := by
  simp only [askHolder, Coordinator.checkHolder, Coordinator.sendHolders, if_true]
  by_cases hsend : n < (c.lmState lid).holders.card
  · rw [if_pos hsend, if_pos (hroom.resolve_right (not_le.2 hsend))]
    exact ⟨_, rfl⟩
  · rw [if_neg hsend]
    exact ⟨_, rfl⟩

lemma askHolder_lost {u : Undefined} {c : Coordinator} {lid : LockId}
    (hfreed : ∀ r, u.freed r = r) (hfit : (c.lmState lid).holders.card ≤ MAX_HOLDERS)
    (hlost : (c.lmState lid).hasAgent = false ∧ (c.lmState lid).holders ≠ ∅) :
    askHolder u c false lid 0
      = ({ c with
            lmState := Function.update c.lmState lid { c.lmState lid with hasAgent := true } },
         ⟨(c.lmState lid).holders.card, (c.lmState lid).holders⟩) := by
  simp [askHolder, Coordinator.checkHolder, Coordinator.sendHolders, hlost, hfit, hfreed]

lemma askHolder_known {u : Undefined} {c : Coordinator} {lid : LockId}
    (hfreed : ∀ r, u.freed r = r)
    (hknown : ¬ ((c.lmState lid).hasAgent = false ∧ (c.lmState lid).holders ≠ ∅)) :
    askHolder u c false lid 0 = (c, ⟨0, ∅⟩) := by
  simp only [askHolder, Coordinator.checkHolder, Bool.not_eq_true', if_neg hknown,
    Bool.false_eq_true, if_false, hfreed]

/-- What looking at one lock can do, as long as it is defined: confirm an agent, nothing, or make
the host the agent. -/
lemma checkLock_cases {u : Undefined} {c : Coordinator} {l : InnetLock}
    (hfreed : ∀ r, u.freed r = r) (hask : Askable c l) :
    (l.isAgent = true ∧ ∃ holders, checkLock u c l = (c, { l with holders := holders }, true))
    ∨ (l.isAgent = false
        ∧ (l.localHolders = ∅ ∨ (c.lmState l.id).hasAgent = true ∨ (c.lmState l.id).holders = ∅)
        ∧ checkLock u c l = (c, l, false))
    ∨ (l.isAgent = false ∧ l.localHolders ≠ ∅ ∧ (c.lmState l.id).hasAgent = false
        ∧ ∃ holders, checkLock u c l
          = ({ c with
                lmState := Function.update c.lmState l.id
                  { c.lmState l.id with hasAgent := true } },
             { l with
                isAgent := true
                mode := if 1 < (c.lmState l.id).holders.card then .shared else .excl
                holders := holders },
             true)) := by
  by_cases hagent : l.isAgent = true
  · refine .inl ⟨hagent, ?_⟩
    rw [Askable, if_pos hagent] at hask
    obtain ⟨r, hr⟩ := askHolder_agent (u := u) hask
    simp only [checkLock, if_pos hagent, hr]
    split
    · exact ⟨_, rfl⟩
    · exact ⟨l.holders, rfl⟩
  · have hagent' : l.isAgent = false := by simpa using hagent
    rw [Askable, if_neg hagent] at hask
    refine .inr ?_
    by_cases hlocal : l.localHolders = ∅
    · refine .inl ⟨hagent', .inl hlocal, ?_⟩
      simp [checkLock, hagent', hlocal]
    by_cases hlost : (c.lmState l.id).hasAgent = false ∧ (c.lmState l.id).holders ≠ ∅
    · have hfit : (c.lmState l.id).holders.card ≤ MAX_HOLDERS := by
        refine hask.resolve_right ?_
        simp [hlost.1, hlocal]
      have hcard := Finset.card_pos.2 (Finset.nonempty_iff_ne_empty.2 hlost.2)
      refine .inr ⟨hagent', hlocal, hlost.1, ?_⟩
      simp only [checkLock, if_neg hagent, if_pos hlocal, askHolder_lost hfreed hfit hlost,
        if_pos hcard]
      exact ⟨_, rfl⟩
    · refine .inl ⟨hagent', .inr ?_, ?_⟩
      · by_contra hno
        rw [not_or] at hno
        exact hlost ⟨by simpa using hno.1, hno.2⟩
      · simp [checkLock, hagent', hlocal, askHolder_known hfreed hlost]

/-- Whatever the reply is, a lock is put into `lks_w_agt` exactly if the host is its agent then, and
its counter is not touched. -/
lemma checkLock_keeps (u : Undefined) (c : Coordinator) (l : InnetLock) :
    (checkLock u c l).2.1.id = l.id ∧ (checkLock u c l).2.1.ncnt = l.ncnt
      ∧ (checkLock u c l).2.2 = (checkLock u c l).2.1.isAgent := by
  rw [checkLock]
  split
  · next hagent =>
      dsimp only
      split
      · exact ⟨rfl, rfl, hagent.symm⟩
      · exact ⟨rfl, rfl, hagent.symm⟩
  · next hagent =>
      rw [Bool.not_eq_true] at hagent
      split
      · dsimp only
        split
        · exact ⟨rfl, rfl, rfl⟩
        · exact ⟨rfl, rfl, hagent.symm⟩
      · exact ⟨rfl, rfl, hagent.symm⟩

namespace Recovery

variable {x : Outage} {s s' : Recovery}

@[simp] lemma setLock_self (s : Recovery) (h : HostId) (lid : LockId) (l : InnetLock) :
    s.setLock h lid l h lid = l := by
  simp [setLock]

lemma setLock_of_ne (s : Recovery) {h h' : HostId} {lid lid' : LockId} (l : InnetLock)
    (hne : h' ≠ h ∨ lid' ≠ lid) : s.setLock h lid l h' lid' = s.host h' lid' := by
  by_cases hh : h' = h
  · subst hh
    simp [setLock, Function.update_of_ne (hne.resolve_left (fun hno => hno rfl))]
  · simp [setLock, Function.update_of_ne hh]

/-- The lock of a host, or another one. -/
lemma same_or_other (h h' : HostId) (lid lid' : LockId) :
    h' = h ∧ lid' = lid ∨ (h' ≠ h ∨ lid' ≠ lid) := by
  rw [← not_and_or]
  exact em _

/-! ### The invariant -/

/-- The call has been made. -/
def Submitted (x : Outage) (s : Recovery) (sub : Submission) : Prop :=
  ∃ h, x.live h ∧ sub ∈ x.submissions h ∧ sub ∉ s.pending h

/-- The round has made the host agent of the lock. -/
def Restored (x : Outage) (s : Recovery) (h : HostId) (lid : LockId) : Prop :=
  (s.host h lid).isAgent = true ∧ ¬ x.agent h lid

/-- What the calls to the coordinator keep. -/
structure Inv (x : Outage) (s : Recovery) : Prop where
  suffix : ∀ h, s.checks h <:+ x.table h
  /-- The metadata of a lock do not change before the second loop comes to it. -/
  unread : ∀ h lid, lid ∈ s.checks h ∨ lid ∉ x.table h → s.host h lid = x.purged h lid
  pending : ∀ h, s.pending h ⊆ x.submissions h
  called : ∀ h, s.called h = true → s.pending h = ∅
  /-- The second loop starts behind the barrier. -/
  gate : ∀ h, s.checks h ≠ x.table h → ∀ h', x.live h' → s.pending h' = ∅
  held : ∀ lid lh, lh ∈ (s.coord.lmState lid).holders
    ↔ lh ∈ (x.lmState lid).holders ∨ Submitted x s (.holder lid lh)
  known : ∀ lid, (s.coord.lmState lid).hasAgent = true
    ↔ (x.lmState lid).hasAgent = true ∨ (∃ lh, Submitted x s (.waiter lid lh))
      ∨ ∃ h, Restored x s h lid
  keeps : ∀ h lid, x.agent h lid → (s.host h lid).isAgent = true
  restored : ∀ h lid, Restored x s h lid →
    x.Candidate h lid ∧ (x.lmState lid).hasAgent = false ∧ ¬ x.Waited lid
  unique : ∀ lid h h', Restored x s h lid → Restored x s h' lid → h = h'
  /-- Whoever asked has been told of an agent, or has become it. -/
  answered : ∀ h lid, x.Candidate h lid → lid ∉ s.checks h →
    (s.coord.lmState lid).hasAgent = true

namespace Inv

lemma start (x : Outage) : Inv x (Recovery.start x) := by
  have hnone : ∀ sub, ¬ Submitted x (Recovery.start x) sub := by
    rintro sub ⟨h, -, hsub, hpending⟩
    exact hpending hsub
  have hagent : ∀ h lid, ¬ Restored x (Recovery.start x) h lid := by
    rintro h lid ⟨hnow, hbefore⟩
    exact hbefore (Outage.purged_fields.2.1.symm.trans hnow)
  constructor
  · intro h
    exact List.suffix_refl _
  · intro h lid _
    rfl
  · intro h
    exact Finset.Subset.refl _
  · intro h hcalled
    cases hcalled
  · intro h hne
    exact absurd rfl hne
  · intro lid lh
    simp only [hnone, or_false]
    rfl
  · intro lid
    simp only [hnone, hagent, exists_false, or_false]
    rfl
  · intro h lid hx
    exact Outage.purged_fields.2.1.trans hx
  · intro h lid hr
    exact absurd hr (hagent h lid)
  · intro lid h _ hr
    exact absurd hr (hagent h lid)
  · intro h lid hc hnot
    exact absurd hc.2.1 hnot

/-- Behind the barrier, everything has been submitted. -/
lemma submitted_iff (hempty : ∀ h, x.live h → s.pending h = ∅) {sub : Submission} :
    Submitted x s sub ↔ ∃ h, x.live h ∧ sub ∈ x.submissions h := by
  constructor
  · rintro ⟨h, hlive, hsub, -⟩
    exact ⟨h, hlive, hsub⟩
  · rintro ⟨h, hlive, hsub⟩
    refine ⟨h, hlive, hsub, ?_⟩
    rw [hempty h hlive]
    exact Finset.notMem_empty sub

/-- Steps that tell the coordinator nothing new and make nobody an agent.  The second loop may go on
at some hosts. -/
lemma frame (hinv : Inv x s) (hdata : s'.coord.lmState = s.coord.lmState)
    (hagent : ∀ h lid, (s'.host h lid).isAgent = (s.host h lid).isAgent)
    (hpending : s'.pending = s.pending)
    (hcalled : ∀ h, s'.called h = true → s.called h = true ∨ s.pending h = ∅)
    (hchecks : ∀ h, s'.checks h <:+ s.checks h)
    (hgate : ∀ h, s'.checks h ≠ s.checks h → ∀ h', x.live h' → s.pending h' = ∅)
    (hunread : ∀ h lid, lid ∈ s'.checks h ∨ lid ∉ x.table h → s'.host h lid = s.host h lid)
    (hanswer : ∀ h lid, x.Candidate h lid → lid ∈ s.checks h → lid ∉ s'.checks h →
      (s.coord.lmState lid).hasAgent = true) : Inv x s' := by
  have hrestored : ∀ h lid, Restored x s' h lid ↔ Restored x s h lid := by
    intro h lid
    rw [Restored, Restored, hagent]
  have hsub : ∀ sub, Submitted x s' sub ↔ Submitted x s sub := by
    intro sub
    rw [Submitted, Submitted, hpending]
  constructor
  · intro h
    exact (hchecks h).trans (hinv.suffix h)
  · intro h lid hor
    rw [hunread h lid hor]
    exact hinv.unread h lid (hor.imp_left fun hmem => (hchecks h).subset hmem)
  · rw [hpending]
    exact hinv.pending
  · intro h hc
    rw [hpending]
    exact (hcalled h hc).elim (hinv.called h) id
  · intro h hne h' hlive
    rw [hpending]
    by_cases hsame : s'.checks h = s.checks h
    · exact hinv.gate h (hsame ▸ hne) h' hlive
    · exact hgate h hsame h' hlive
  · intro lid lh
    rw [hdata, hinv.held, hsub]
  · intro lid
    simp only [hdata, hinv.known, hsub, hrestored]
  · intro h lid hx
    rw [hagent]
    exact hinv.keeps h lid hx
  · intro h lid hr
    exact hinv.restored h lid ((hrestored h lid).1 hr)
  · intro lid h h' hr hr'
    exact hinv.unique lid h h' ((hrestored h lid).1 hr) ((hrestored h' lid).1 hr')
  · intro h lid hc hnot
    rw [hdata]
    by_cases hmem : lid ∈ s.checks h
    · exact hanswer h lid hc hmem hnot
    · exact hinv.answered h lid hc hmem

/-! ### Submitting -/

lemma mem_holders_collect (c : Coordinator) (sub : Submission) (lid : LockId) (lh : LockHolder) :
    lh ∈ ((collect c sub).lmState lid).holders
      ↔ lh ∈ (c.lmState lid).holders ∨ .holder lid lh = sub := by
  cases sub with
  | holder lid' lh' =>
      by_cases hlid : lid = lid'
      · subst hlid
        simp [collect, Coordinator.collectHolders, or_comm]
      · simp [collect, Coordinator.collectHolders, hlid]
  | waiter lid' lh' =>
      by_cases hlid : lid = lid'
      · subst hlid
        simp [collect, Coordinator.collectWaiters]
      · simp [collect, Coordinator.collectWaiters, hlid]

lemma hasAgent_collect (c : Coordinator) (sub : Submission) (lid : LockId) :
    ((collect c sub).lmState lid).hasAgent = true
      ↔ (c.lmState lid).hasAgent = true ∨ ∃ lh, .waiter lid lh = sub := by
  cases sub with
  | holder lid' lh' =>
      by_cases hlid : lid = lid'
      · subst hlid
        simp [collect, Coordinator.collectHolders]
      · simp [collect, Coordinator.collectHolders, hlid]
  | waiter lid' lh' =>
      by_cases hlid : lid = lid'
      · subst hlid
        simp [collect, Coordinator.collectWaiters]
      · simp [collect, Coordinator.collectWaiters, hlid]

lemma submit (hinv : Inv x s) {h : HostId} {sub : Submission} (hlive : x.live h)
    (hsub : sub ∈ s.pending h) :
    Inv x { s with
      coord := collect s.coord sub
      pending := Function.update s.pending h ((s.pending h).erase sub) } := by
  set t : Recovery := { s with
    coord := collect s.coord sub
    pending := Function.update s.pending h ((s.pending h).erase sub) } with ht
  have hne : s.pending h ≠ ∅ := Finset.ne_empty_of_mem hsub
  have hpending : ∀ h', t.pending h' ⊆ s.pending h' := by
    intro h'
    by_cases hh : h' = h
    · subst hh
      simp only [ht, Function.update_self]
      exact Finset.erase_subset _ _
    · simp only [ht, Function.update_of_ne hh]
      exact Finset.Subset.refl _
  have hsubmitted : ∀ sub', Submitted x t sub' ↔ Submitted x s sub' ∨ sub' = sub := by
    intro sub'
    constructor
    · rintro ⟨h', hl, hmem, hnot⟩
      by_cases hh : h' = h
      · subst hh
        simp only [ht, Function.update_self, Finset.mem_erase, not_and_or, not_not] at hnot
        exact hnot.elim .inr fun hnot => .inl ⟨h', hl, hmem, hnot⟩
      · simp only [ht, Function.update_of_ne hh] at hnot
        exact .inl ⟨h', hl, hmem, hnot⟩
    · rintro (⟨h', hl, hmem, hnot⟩ | rfl)
      · exact ⟨h', hl, hmem, fun hin => hnot (hpending h' hin)⟩
      · refine ⟨h, hlive, hinv.pending h hsub, ?_⟩
        simp [ht]
  constructor
  · exact hinv.suffix
  · exact hinv.unread
  · intro h'
    exact (hpending h').trans (hinv.pending h')
  · intro h' hc
    exact Finset.subset_empty.1 ((hinv.called h' hc) ▸ hpending h')
  · intro h' hbehind
    exact absurd (hinv.gate h' hbehind h hlive) hne
  · intro lid lh
    rw [hsubmitted, ← or_assoc, ← hinv.held]
    exact mem_holders_collect s.coord sub lid lh
  · intro lid
    simp only [hsubmitted, exists_or]
    refine (hasAgent_collect s.coord sub lid).trans ?_
    rw [hinv.known]
    simp only [or_comm, or_left_comm]
    rfl
  · exact hinv.keeps
  · exact hinv.restored
  · exact hinv.unique
  · intro h' lid hc hnot
    exact (hasAgent_collect s.coord sub lid).2 (.inl (hinv.answered h' lid hc hnot))

/-! ### The second loop -/

section Check

variable {h : HostId} {lid : LockId} {rest : List LockId}

/-- The lock that the second loop has come to. -/
lemma head (hinv : Inv x s) (hlist : s.checks h = lid :: rest) :
    lid ∈ x.table h ∧ lid ∉ rest ∧ s.host h lid = x.purged h lid := by
  have hmem : lid ∈ s.checks h := by
    rw [hlist]
    exact List.mem_cons_self
  have hnodup := (hinv.suffix h).sublist.nodup (x.table_nodup h)
  rw [hlist] at hnodup
  exact ⟨(hinv.suffix h).subset hmem, (List.nodup_cons.1 hnodup).1, hinv.unread h lid (.inl hmem)⟩

/-- The second loop goes on, and only at `h`. -/
lemma suffix_update (hlist : s.checks h = lid :: rest) (h' : HostId) :
    Function.update s.checks h rest h' <:+ s.checks h' := by
  by_cases hh : h' = h
  · rw [hh, Function.update_self, hlist]
    exact List.suffix_cons lid rest
  · rw [Function.update_of_ne hh]

/-- It leaves the locks alone that it has not come to. -/
lemma ne_of_unread (hinv : Inv x s) (hlist : s.checks h = lid :: rest) {h' : HostId} {lid' : LockId}
    (hor : lid' ∈ Function.update s.checks h rest h' ∨ lid' ∉ x.table h') :
    h' ≠ h ∨ lid' ≠ lid := by
  obtain ⟨htable, hrest, -⟩ := hinv.head hlist
  refine (same_or_other h h' lid lid').resolve_left ?_
  rintro ⟨rfl, rfl⟩
  rw [Function.update_self] at hor
  exact hor.elim hrest (fun hnot => hnot htable)

/-- The only lock that it finishes. -/
lemma eq_of_finished (hlist : s.checks h = lid :: rest) {h' : HostId} {lid' : LockId}
    (hmem : lid' ∈ s.checks h') (hnot : lid' ∉ Function.update s.checks h rest h') :
    h' = h ∧ lid' = lid := by
  by_cases hh : h' = h
  · subst hh
    rw [Function.update_self] at hnot
    rw [hlist] at hmem
    exact ⟨rfl, (List.mem_cons.1 hmem).resolve_right hnot⟩
  · rw [Function.update_of_ne hh] at hnot
    exact absurd hmem hnot

/-- A lock of which the host does not become the agent. -/
lemma check_frame (hinv : Inv x s) (hlist : s.checks h = lid :: rest)
    (hempty : ∀ h', x.live h' → s.pending h' = ∅) {l : InnetLock} {agents : HostId → List LockId}
    (hl : l.isAgent = (s.host h lid).isAgent)
    (hanswer : x.Candidate h lid → (s.coord.lmState lid).hasAgent = true) :
    Inv x { s with
      host := s.setLock h lid l
      checks := Function.update s.checks h rest
      agents := agents } := by
  apply hinv.frame
  · rfl
  · intro h' lid'
    rcases same_or_other h h' lid lid' with ⟨rfl, rfl⟩ | hne
    · simpa using hl
    · simp only [s.setLock_of_ne l hne]
  · rfl
  · intro h' hc
    exact .inl hc
  · exact suffix_update hlist
  · intro _ _
    exact hempty
  · intro h' lid' hor
    exact s.setLock_of_ne l (hinv.ne_of_unread hlist hor)
  · intro h' lid' hc hmem hnot
    obtain ⟨rfl, rfl⟩ := eq_of_finished hlist hmem hnot
    exact hanswer hc

/-- When all calls have been made and the coordinator knows of no agent, there is none. -/
lemma nobody_of_unknown (hinv : Inv x s) (hempty : ∀ h', x.live h' → s.pending h' = ∅)
    (hunknown : (s.coord.lmState lid).hasAgent = false) :
    (x.lmState lid).hasAgent = false ∧ ¬ x.Waited lid ∧ ∀ h', ¬ Restored x s h' lid := by
  have hnone := mt (hinv.known lid).2 (by rw [hunknown]; exact Bool.false_ne_true)
  rw [not_or, not_or] at hnone
  refine ⟨by simpa using hnone.1, ?_, fun h' hr => hnone.2.2 ⟨h', hr⟩⟩
  rintro ⟨h', hlive', lh, hsub⟩
  exact hnone.2.1 ⟨lh, (submitted_iff hempty).2 ⟨h', hlive', hsub⟩⟩

/-- The host is the only one that becomes agent, and of this lock only. -/
lemma restored_setLock_iff {t : Recovery} {l : InnetLock} (ht : t.host = s.setLock h lid l)
    (hl : l.isAgent = true) (hagent : ¬ x.agent h lid) (h' : HostId) (lid' : LockId) :
    Restored x t h' lid' ↔ Restored x s h' lid' ∨ h' = h ∧ lid' = lid := by
  rw [Restored, ht]
  rcases same_or_other h h' lid lid' with ⟨rfl, rfl⟩ | hne
  · simp [hl, hagent]
  · rw [s.setLock_of_ne l hne]
    exact (or_iff_left (by tauto)).symm

/-- A lock of which the host becomes the agent: the coordinator knew of none. -/
lemma check_restored (hinv : Inv x s) (hlive : x.live h) (hlist : s.checks h = lid :: rest)
    (hempty : ∀ h', x.live h' → s.pending h' = ∅) {l : InnetLock} {agents : HostId → List LockId}
    (hl : l.isAgent = true) (hagent : (s.host h lid).isAgent = false)
    (hlocal : (s.host h lid).localHolders ≠ ∅) (hunknown : (s.coord.lmState lid).hasAgent = false) :
    Inv x { s with
      coord := { s.coord with
        lmState := Function.update s.coord.lmState lid
          { s.coord.lmState lid with hasAgent := true } }
      host := s.setLock h lid l
      checks := Function.update s.checks h rest
      agents := agents } := by
  obtain ⟨htable, hrest, heq⟩ := hinv.head hlist
  rw [heq] at hagent hlocal
  rw [Outage.purged_fields.2.1] at hagent
  rw [Outage.purged_fields.2.2.1] at hlocal
  have hxagent : ¬ x.agent h lid := by
    rw [Outage.agent, hagent]
    exact Bool.false_ne_true
  obtain ⟨hdata, hwaited, hnobody⟩ := hinv.nobody_of_unknown hempty hunknown
  set t : Recovery := { s with
    coord := { s.coord with
      lmState := Function.update s.coord.lmState lid
        { s.coord.lmState lid with hasAgent := true } }
    host := s.setLock h lid l
    checks := Function.update s.checks h rest
    agents := agents } with ht
  have hrestored : ∀ h' lid', Restored x t h' lid' ↔ Restored x s h' lid' ∨ h' = h ∧ lid' = lid :=
    restored_setLock_iff rfl hl hxagent
  have hnew : (t.coord.lmState lid).hasAgent = true := by
    simp [ht]
  have hold : ∀ lid' ≠ lid, t.coord.lmState lid' = s.coord.lmState lid' := by
    intro lid' hne
    simp [ht, hne]
  constructor
  · intro h'
    exact (suffix_update hlist h').trans (hinv.suffix h')
  · intro h' lid' hor
    refine (s.setLock_of_ne l (hinv.ne_of_unread hlist hor)).trans (hinv.unread h' lid' ?_)
    exact hor.imp_left fun hmem => (suffix_update hlist h').subset hmem
  · exact hinv.pending
  · exact hinv.called
  · intro _ _
    exact hempty
  · intro lid' lh
    refine Iff.trans ?_ (hinv.held lid' lh)
    by_cases hlid : lid' = lid
    · subst hlid
      simp [ht]
    · rw [hold lid' hlid]
  · intro lid'
    by_cases hlid : lid' = lid
    · subst hlid
      exact iff_of_true hnew (.inr (.inr ⟨h, (hrestored h lid').2 (.inr ⟨rfl, rfl⟩)⟩))
    · have hsame : ∀ h', Restored x t h' lid' ↔ Restored x s h' lid' := fun h' =>
        (hrestored h' lid').trans (or_iff_left fun hno => hlid hno.2)
      rw [hold lid' hlid, hinv.known]
      simp only [hsame]
      rfl
  · intro h' lid' hx
    rcases same_or_other h h' lid lid' with ⟨rfl, rfl⟩ | hne
    · exact absurd hx hxagent
    · simp only [ht, s.setLock_of_ne l hne]
      exact hinv.keeps h' lid' hx
  · intro h' lid' hr
    rcases (hrestored h' lid').1 hr with hr | ⟨rfl, rfl⟩
    · exact hinv.restored h' lid' hr
    · exact ⟨⟨hlive, htable, hxagent, hlocal⟩, hdata, hwaited⟩
  · intro lid' h₁ h₂ hr₁ hr₂
    rcases (hrestored h₁ lid').1 hr₁ with hs₁ | ⟨rfl, rfl⟩
    · rcases (hrestored h₂ lid').1 hr₂ with hs₂ | ⟨rfl, rfl⟩
      · exact hinv.unique lid' h₁ h₂ hs₁ hs₂
      · exact absurd hs₁ (hnobody h₁)
    · rcases (hrestored h₂ lid').1 hr₂ with hs₂ | ⟨rfl, -⟩
      · exact absurd hs₂ (hnobody h₂)
      · rfl
  · intro h' lid' hc hnot
    by_cases hlid : lid' = lid
    · rw [hlid]
      exact hnew
    · rw [hold lid' hlid]
      refine hinv.answered h' lid' hc fun hmem => ?_
      exact hlid (eq_of_finished hlist hmem hnot).2

/-- Behind the barrier, the coordinator knows the holders of everybody. -/
lemma holders_eq_collected (hinv : Inv x s) (hempty : ∀ h', x.live h' → s.pending h' = ∅) :
    (s.coord.lmState lid).holders = x.collected lid := by
  ext lh
  rw [hinv.held, Outage.mem_collected, submitted_iff hempty]

/-- In a round in which nothing undefined happens, every host can ask. -/
lemma askable (hinv : Inv x s) (hdef : x.Defined) (hlive : x.live h)
    (hlist : s.checks h = lid :: rest) (hempty : ∀ h', x.live h' → s.pending h' = ∅) :
    Askable s.coord (s.host h lid) := by
  obtain ⟨htable, -, heq⟩ := hinv.head hlist
  have hholders : (s.coord.lmState lid).holders = x.collected lid :=
    hinv.holders_eq_collected hempty
  rw [heq, Askable, Outage.purged_fields.1, hholders, or_iff_not_imp_left]
  intro hover
  have hsent := mt (hdef.room lid) hover
  rw [Outage.Sent, not_or] at hsent
  by_cases hagent : x.agent h lid
  · rw [if_pos (Outage.purged_fields.2.1.trans hagent), hdef.purged_holders hlive]
    by_contra hfewer
    exact hsent.1 ⟨h, hlive, htable, hagent, not_le.1 hfewer⟩
  · rw [if_neg (Outage.purged_fields.2.1 ▸ hagent), Outage.purged_fields.2.2.1]
    by_contra hno
    rw [not_or, Bool.not_eq_true] at hno
    obtain ⟨hdata, hwaited, -⟩ := hinv.nobody_of_unknown hempty hno.1
    exact hsent.2 ⟨hdata, hwaited, h, hlive, htable, hagent, hno.2⟩

/-- Looking at one lock keeps the invariant. -/
lemma check (hinv : Inv x s) (hdef : x.Defined) (hlive : x.live h)
    (hlist : s.checks h = lid :: rest) (hempty : ∀ h', x.live h' → s.pending h' = ∅) :
    Inv x (s.checkStep (x.undef h lid) h lid rest) := by
  obtain ⟨htable, hrest, heq⟩ := hinv.head hlist
  have hid : (s.host h lid).id = lid := by
    rw [heq]
    exact Outage.purged_fields.1
  have hask := hinv.askable hdef hlive hlist hempty
  rw [checkStep]
  rcases checkLock_cases (hdef.replies h hlive lid htable) hask with ⟨hagent, holders, hr⟩
    | ⟨hagent, hor, hr⟩
    | ⟨hagent, hlocal, hunknown, holders, hr⟩
  · rw [hr]
    refine hinv.check_frame hlist hempty rfl fun hc => absurd ?_ hc.2.2.1
    rw [heq, Outage.purged_fields.2.1] at hagent
    exact hagent
  · rw [hr]
    refine hinv.check_frame hlist hempty rfl fun hc => ?_
    rw [hid] at hor
    rcases hor with hlocal | hknown | hno
    · rw [heq, Outage.purged_fields.2.2.1] at hlocal
      exact absurd hlocal hc.2.2.2
    · exact hknown
    · -- its own holders were submitted
      obtain ⟨t, ht⟩ := Finset.nonempty_iff_ne_empty.2 hc.2.2.2
      have hsub : .holder lid (h, t) ∈ x.submissions h :=
        Outage.mem_submissions_holder.2 ⟨htable, t, ht, rfl⟩
      have hheld := (hinv.held lid (h, t)).2 (.inr ((submitted_iff hempty).2 ⟨h, hlive, hsub⟩))
      rw [hno] at hheld
      exact absurd hheld (Finset.notMem_empty _)
  · rw [hr]
    rw [hid] at hunknown ⊢
    exact hinv.check_restored hlive hlist hempty rfl hagent hlocal hunknown

end Check

end Inv

end Recovery

end FissLock
