import FissLock.Cluster.Invariant

/-!
# How a step moves the accounts

Every step takes some packets out of flight, puts others in, and changes at most one host.
`Moves s s' used made` says so for the packets, and the lemmas here say what it means for each of
the counts of `Cluster/Invariant.lean`.  All of them are equations between sums, to be handed to
`omega`; the proofs that a step keeps the invariant never look at the network itself.

The last section reads facts about a task off a packet or a queue entry that represents it, which
is the direction in which the invariant is used when a packet arrives.
-/

namespace FissLock

open Runs Tofino Accounting

/-- Going from `s` to `s'` consumes the packets `used` and produces the packets `made`. -/
def Moves (s s' : Cluster) (used made : Multiset Flight) : Prop :=
  ∃ rest, s.flights = used + rest ∧ s'.flights = made + rest

namespace Moves

variable {s s' : Cluster} {used made : Multiset Flight}

lemma of_net {rest n : List Flight} (h : s.flights = used + (rest : Multiset Flight))
    (h' : s'.net = n ++ rest) : Moves s s' used n := by
  refine ⟨rest, h, ?_⟩
  rw [Cluster.flights, h', Multiset.coe_add]

/-- A call of the client interface consumes nothing. -/
lemma of_call {n : List Flight} (h' : s'.net = n ++ s.net) : Moves s s' 0 n :=
  of_net (zero_add _).symm h'

lemma inFlight (m : Moves s s' used made) (f : Flight → ℕ) :
    Accounting.inFlight f s'.flights + Accounting.inFlight f used
      = Accounting.inFlight f s.flights + Accounting.inFlight f made := by
  obtain ⟨rest, h, h'⟩ := m
  exact inFlight_replace f h h'

lemma notif (m : Moves s s' used made) (lh : LockHolder) :
    s'.notif lh + Accounting.inFlight (notifPkt lh) used
      = s.notif lh + Accounting.inFlight (notifPkt lh) made :=
  m.inFlight _

lemma wo (m : Moves s s' used made) (lh : LockHolder) :
    s'.wo lh + Accounting.inFlight (typedPkt .grantWoAgent lh) used
      = s.wo lh + Accounting.inFlight (typedPkt .grantWoAgent lh) made :=
  m.inFlight _

lemma rel (m : Moves s s' used made) (lh : LockHolder) :
    s'.rel lh + Accounting.inFlight (typedPkt .release lh) used
      = s.rel lh + Accounting.inFlight (typedPkt .release lh) made :=
  m.inFlight _

lemma notifs (m : Moves s s' used made) :
    s'.notifs + Accounting.inFlight (fun x => (isNotif x).toNat) used
      = s.notifs + Accounting.inFlight (fun x => (isNotif x).toNat) made :=
  m.inFlight _

/-- The pending requests, when host `h` changes to `l`. -/
lemma pend (m : Moves s s' used made) {h : HostId} {l : InnetLock}
    (hh : s'.host = Function.update s.host h l) (lh : LockHolder) (b : Bool) :
    s'.pend lh b + Accounting.inFlight (pendPkt lh b) used
        + (s.host h).wqueue.countP (Wqe.isFor lh b)
      = s.pend lh b + Accounting.inFlight (pendPkt lh b) made
        + l.wqueue.countP (Wqe.isFor lh b) := by
  have h1 := m.inFlight (pendPkt lh b)
  have h2 := stored_update (fun l : InnetLock => l.wqueue.countP (Wqe.isFor lh b)) s.host h l
  rw [Cluster.pend, Cluster.pend, hh]
  omega

lemma tokens (m : Moves s s' used made) :
    s'.tokens + used.filter (fun x => isToken x = true)
      = s.tokens + made.filter (fun x => isToken x = true) := by
  obtain ⟨rest, h, h'⟩ := m
  rw [Cluster.tokens, Cluster.tokens, h, h', Multiset.filter_add, Multiset.filter_add]
  abel

/-- Nothing that moves carries the token. -/
lemma tokens_keep (m : Moves s s' used made)
    (hu : used.filter (fun x => isToken x = true) = 0)
    (hm : made.filter (fun x => isToken x = true) = 0) : s'.tokens = s.tokens := by
  have h := m.tokens
  rwa [hu, hm, add_zero, add_zero] at h

/-- What carried the token is consumed. -/
lemma tokens_replace (m : Moves s s' used made)
    (hu : s.tokens = used.filter (fun x => isToken x = true)) :
    s'.tokens = made.filter (fun x => isToken x = true) := by
  have h := m.tokens
  rw [hu, add_comm] at h
  exact add_left_cancel h

lemma mem (m : Moves s s' used made) {x : Flight} (hx : x ∈ s'.flights) :
    x ∈ made ∨ x ∈ s.flights := by
  obtain ⟨rest, h, h'⟩ := m
  rw [h', Multiset.mem_add] at hx
  rw [h, Multiset.mem_add]
  tauto

lemma mem_made (m : Moves s s' used made) {x : Flight} (hx : x ∈ made) : x ∈ s'.flights := by
  obtain ⟨rest, -, h'⟩ := m
  rw [h', Multiset.mem_add]
  exact .inl hx

end Moves

/-- Going from `s` to `s'` consumes the packets `used`, produces the packets `made` and replaces the
metadata of host `h` by `l`. -/
structure Effect (s s' : Cluster) (used made : Multiset Flight) (h : HostId) (l : InnetLock) :
    Prop where
  moves : Moves s s' used made
  host : s'.host = Function.update s.host h l

namespace Effect

variable {s s' : Cluster} {used made : Multiset Flight} {h : HostId} {l : InnetLock}

lemma host_self (e : Effect s s' used made h l) : s'.host h = l := by
  rw [e.host, Function.update_self]

lemma host_ne (e : Effect s s' used made h l) {h' : HostId} (hne : h' ≠ h) :
    s'.host h' = s.host h' := by
  rw [e.host, Function.update_of_ne hne]

/-- What holds of all hosts and of the new metadata holds of all hosts afterwards. -/
lemma forall_host (e : Effect s s' used made h l) {P : HostId → InnetLock → Prop}
    (hs : ∀ h, P h (s.host h)) (hl : P h l) (h' : HostId) : P h' (s'.host h') := by
  by_cases hh : h' = h
  · subst hh
    rw [e.host_self]
    exact hl
  · rw [e.host_ne hh]
    exact hs h'

/-- A field of the agent's metadata that the step leaves alone. -/
lemma agentHost_field (e : Effect s s' used made h l) {β : Sort*} (f : InnetLock → β)
    (hc : s'.cell.agent = s.cell.agent) (hl : f l = f (s.host h)) :
    f s'.agentHost = f s.agentHost := by
  rw [Cluster.agentHost, Cluster.agentHost, hc]
  by_cases hh : s.cell.agent = h
  · rw [hh, e.host_self, hl]
  · rw [e.host_ne hh]

lemma held_eq (e : Effect s s' used made h l) (hc : s'.cell.agent = s.cell.agent)
    (hl : l.holders = (s.host h).holders) (lh : LockHolder) : s'.held lh = s.held lh := by
  rw [Cluster.held, Cluster.held, e.agentHost_field InnetLock.holders hc hl]

lemma early_eq (e : Effect s s' used made h l) (hc : s'.cell.agent = s.cell.agent)
    (hl : l.earlyRelease = (s.host h).earlyRelease) (lh : LockHolder) :
    s'.early lh = s.early lh := by
  rw [Cluster.early, Cluster.early, e.agentHost_field InnetLock.earlyRelease hc hl]

/-- The pending requests, when the wait queue stays. -/
lemma pend_eq (e : Effect s s' used made h l) (hl : l.wqueue = (s.host h).wqueue)
    (lh : LockHolder) (b : Bool) :
    s'.pend lh b + inFlight (pendPkt lh b) used = s.pend lh b + inFlight (pendPkt lh b) made := by
  have := e.moves.pend e.host lh b
  rw [hl] at this
  omega

lemma flag_eq (e : Effect s s' used made h l) {lh : LockHolder}
    (hl : lh.1 = h → l.taskGranted lh.2 = (s.host h).taskGranted lh.2) :
    s'.flag lh = s.flag lh := by
  rw [Cluster.flag, Cluster.flag]
  by_cases hh : lh.1 = h
  · rw [hh, e.host_self, hl hh]
  · rw [e.host_ne hh]

lemma flag_self (e : Effect s s' used made h l) (t : TaskId) :
    s'.flag (h, t) = (l.taskGranted t).toNat := by
  rw [Cluster.flag, e.host_self]

end Effect

/-! ## Packets that do not concern a task -/

/-- The packet does not count for `lh` in any account. -/
structure Silent (lh : LockHolder) (x : Flight) : Prop where
  pend : ∀ b, pendPkt lh b x = 0
  notif : notifPkt lh x = 0
  wo : typedPkt .grantWoAgent lh x = 0
  rel : typedPkt .release lh x = 0

/-- A packet without payload concerns only the task it names. -/
lemma silent_of_ne {lh : LockHolder} {x : Flight} (hne : lh ≠ x.2.holder) (hw : x.2.wq = []) :
    Silent lh x where
  pend b := by
    obtain ⟨d, p⟩ := x
    cases d <;> simp only [pendPkt] <;> split <;> simp_all [LockHdr.isFor, Ne.symm]
  notif := by simp [notifPkt, hne.symm]
  wo := by simp [typedPkt, hne.symm]
  rel := by simp [typedPkt, hne.symm]

lemma Silent.inFlight_eq_zero {lh : LockHolder} {ms : Multiset Flight} (h : ∀ x ∈ ms, Silent lh x) :
    (∀ b, inFlight (pendPkt lh b) ms = 0) ∧ inFlight (notifPkt lh) ms = 0
      ∧ inFlight (typedPkt .grantWoAgent lh) ms = 0 ∧ inFlight (typedPkt .release lh) ms = 0 :=
  ⟨fun b => Accounting.inFlight_eq_zero.2 fun x hx => (h x hx).pend b,
    Accounting.inFlight_eq_zero.2 fun x hx => (h x hx).notif,
    Accounting.inFlight_eq_zero.2 fun x hx => (h x hx).wo,
    Accounting.inFlight_eq_zero.2 fun x hx => (h x hx).rel⟩

/-! ## Reading a count off something that represents the task -/

namespace Cluster

variable {s : Cluster}

lemma pendPkt_le (lh : LockHolder) (b : Bool) {x : Flight} (hx : x ∈ s.flights) :
    pendPkt lh b x ≤ s.pend lh b :=
  le_trans (le_inFlight _ hx) (Nat.le_add_right _ _)

lemma countP_le (lh : LockHolder) (b : Bool) (h : HostId) :
    (s.host h).wqueue.countP (Wqe.isFor lh b) ≤ s.pend lh b :=
  le_trans (le_stored (fun l : InnetLock => l.wqueue.countP (Wqe.isFor lh b)) s.host h)
    (Nat.le_add_left _ _)

lemma notifPkt_le (lh : LockHolder) {x : Flight} (hx : x ∈ s.flights) :
    notifPkt lh x ≤ s.notif lh :=
  le_inFlight _ hx

lemma wo_le (lh : LockHolder) {x : Flight} (hx : x ∈ s.flights) :
    typedPkt .grantWoAgent lh x ≤ s.wo lh :=
  le_inFlight _ hx

lemma rel_le (lh : LockHolder) {x : Flight} (hx : x ∈ s.flights) :
    typedPkt .release lh x ≤ s.rel lh :=
  le_inFlight _ hx

/-- Notifications about one task are notifications. -/
lemma notif_le_notifs (s : Cluster) (lh : LockHolder) : s.notif lh ≤ s.notifs := by
  rw [notif, notifs, inFlight, inFlight]
  refine Multiset.sum_map_le_sum_map _ _ fun x _ => ?_
  cases hx : isNotif x <;> simp [notifPkt, hx, Bool.toNat_le]

lemma early_le_one (s : Cluster) (lh : LockHolder) : s.early lh ≤ 1 := Bool.toNat_le _

end Cluster

namespace TaskOk

variable {s s' : Cluster} {lh : LockHolder}

/-- A task that no count, no register and no call touches stays as it is. -/
lemma of_eq (h : TaskOk s lh) (hp : ∀ b, s'.pend lh b = s.pend lh b)
    (hn : s'.notif lh = s.notif lh) (hw : s'.wo lh = s.wo lh) (hr : s'.rel lh = s.rel lh)
    (hh : s'.held lh = s.held lh) (he : s'.early lh = s.early lh) (hf : s'.flag lh = s.flag lh)
    (hrw : s'.cell.rw = s.cell.rw) (ht : s'.task lh = s.task lh) : TaskOk s' lh where
  counts := by
    have := h.counts
    rw [hp, hp, hn, hw, hr, hh, he, hf, hrw, ht]
    exact this
  valid := by rw [ht]; exact h.valid

/-- A task that none of the packets concerns, and whose queue entries, marks and flag stay. -/
lemma untouched (ht : TaskOk s lh) {used made : Multiset Flight} {h : HostId} {l : InnetLock}
    (e : Effect s s' used made h l) (hu : ∀ x ∈ used, Silent lh x) (hm : ∀ x ∈ made, Silent lh x)
    (hw : ∀ b, l.wqueue.countP (Wqe.isFor lh b) = (s.host h).wqueue.countP (Wqe.isFor lh b))
    (hh : s'.held lh = s.held lh) (he : s'.early lh = s.early lh) (hf : s'.flag lh = s.flag lh)
    (hrw : s'.cell.rw = s.cell.rw) (htask : s'.task lh = s.task lh) : TaskOk s' lh := by
  obtain ⟨up, un, uw, ur⟩ := Silent.inFlight_eq_zero hu
  obtain ⟨mp, mn, mw, mr⟩ := Silent.inFlight_eq_zero hm
  refine ht.of_eq (fun b => ?_) ?_ ?_ ?_ hh he hf hrw htask
  · have := e.moves.pend e.host lh b
    rw [up, mp, hw] at this
    omega
  · have := e.moves.notif lh
    omega
  · have := e.moves.wo lh
    omega
  · have := e.moves.rel lh
    omega

/-- A pending request belongs to a task that waits for it and was not granted. -/
lemma of_pend (h : TaskOk s lh) {b : Bool} (hp : 1 ≤ s.pend lh b) :
    s.task lh = .waiting (LockState.ofBit b) ∧ s.pend lh b = 1 ∧ s.pend lh (!b) = 0
      ∧ s.wo lh = 0 ∧ s.flag lh = 0 ∧ s.notif lh = 0 ∧ s.held lh = 0 ∧ s.rel lh = 0
      ∧ s.early lh = 0 := by
  have hc := h.counts
  cases ht : s.task lh with
  | idle =>
      rw [ht] at hc
      simp only [RequestOk] at hc
      cases b <;> omega
  | holding op =>
      rw [ht] at hc
      simp only [RequestOk] at hc
      cases b <;> omega
  | waiting op =>
      rw [ht] at hc
      simp only [RequestOk] at hc
      obtain ⟨hR, hE, ⟨hop, hW, hF, hN, hH⟩ | ⟨h1, h2, -⟩⟩ := hc
      · rcases hop with ⟨rfl, h1, h2⟩ | ⟨rfl, h1, h2⟩
        · cases b
          · simp [LockState.ofBit, *]
          · omega
        · cases b
          · omega
          · simp [LockState.ofBit, *]
      · cases b <;> omega

/-- A `RELEASE` in flight belongs to an idle task that the agent still knows about. -/
lemma of_rel (h : TaskOk s lh) (hr : 1 ≤ s.rel lh) :
    s.task lh = .idle ∧ s.rel lh = 1 ∧ s.notif lh + s.held lh = 1 ∧ s.early lh = 0
      ∧ s.cell.rw = LOCK_SHARED ∧ (∀ b, s.pend lh b = 0) ∧ s.wo lh = 0 ∧ s.flag lh = 0 := by
  have hc := h.counts
  cases ht : s.task lh with
  | idle =>
      rw [ht] at hc
      obtain ⟨h1, h2, h3, h4, ⟨h5, h6, h7, h8⟩ | ⟨h5, -, -⟩⟩ := hc
      · exact ⟨rfl, h5, h6, h7, h8, Bool.forall_bool.2 ⟨h1, h2⟩, h3, h4⟩
      · omega
  | waiting op =>
      rw [ht] at hc
      have := hc.1
      omega
  | holding op =>
      rw [ht] at hc
      have := hc.1
      omega

/-- A `GRANT_WO_AGENT` in flight belongs to a task that waits and that the agent knows about. -/
lemma of_wo (h : TaskOk s lh) (hw : 1 ≤ s.wo lh) :
    s.task lh = .waiting (LockState.ofBit s.cell.rw) ∧ s.wo lh = 1 ∧ s.flag lh = 0
      ∧ s.notif lh + s.held lh = 1 ∧ s.rel lh = 0 ∧ s.early lh = 0 ∧ (∀ b, s.pend lh b = 0)
      ∧ s.cell.rw = LOCK_SHARED := by
  have hc := h.counts
  cases ht : s.task lh with
  | idle =>
      rw [ht] at hc
      obtain ⟨-, -, h3, -⟩ := hc
      omega
  | holding op =>
      rw [ht] at hc
      obtain ⟨-, -, -, -, h5, -⟩ := hc
      omega
  | waiting op =>
      rw [ht] at hc
      obtain ⟨hR, hE, ⟨-, hW, -⟩ | ⟨h1, h2, h3, h4, rfl, h6⟩⟩ := hc
      · omega
      · refine ⟨rfl, by omega, by omega, h4, hR, hE, Bool.forall_bool.2 ⟨h1, h2⟩, ?_⟩
        by_contra hrw
        have := h6 (by simpa using hrw)
        omega

/-- A notification in flight is the only one for its task, which is not recorded yet. -/
lemma of_notif (h : TaskOk s lh) (hn : 1 ≤ s.notif lh) : s.notif lh = 1 ∧ s.held lh = 0 := by
  have hc := h.counts
  have he := s.early_le_one lh
  cases ht : s.task lh with
  | idle =>
      rw [ht] at hc
      obtain ⟨-, -, -, -, ⟨-, h6, -, -⟩ | ⟨-, h6, h7⟩⟩ := hc <;> omega
  | holding op =>
      rw [ht] at hc
      obtain ⟨-, -, -, -, -, -, h7, -⟩ := hc
      omega
  | waiting op =>
      rw [ht] at hc
      obtain ⟨-, -, ⟨-, -, -, h5, -⟩ | ⟨-, -, -, h4, -⟩⟩ := hc <;> omega

/-- A task that the agent does not know and will not be told about has no mark. -/
lemma early_of_unknown (h : TaskOk s lh) (hn : s.notif lh = 0) (hh : s.held lh = 0) :
    s.early lh = 0 := by
  have hc := h.counts
  cases ht : s.task lh with
  | idle =>
      rw [ht] at hc
      obtain ⟨-, -, -, -, ⟨-, h6, -, -⟩ | ⟨-, -, h7⟩⟩ := hc <;> omega
  | waiting op =>
      rw [ht] at hc
      exact hc.2.1
  | holding op =>
      rw [ht] at hc
      exact hc.2.1

end TaskOk

end FissLock
