import FissLock.Library.Runs
import FissLock.Switch.Bmv2

/-!
# The free register and the agent register

A lock is taken exactly if it has an agent: this is what the state machine of the switch assumes,
whose entries for `RELEASE` and `TRANSFER` all ask for a taken lock.  The free register is written
before the state machine is asked, though, and by **every** packet that is not a `FREE` or a
`GRANT_WO_AGENT`.  A `RELEASE` or an accepted `TRANSFER` that comes late, when the lock is free
again, marks it as taken and finds no entry that would set an agent; from then on requests for the
lock go to the empty agent 0.

`consistent_iff_not_stray` says that these packets are the only ones to do so, and
`registers_consistent` what follows for all packet sequences on both planes.
-/

namespace FissLock

open Runs

/-- The two registers agree on whether the lock is taken. -/
def Cell.Consistent (c : Cell) : Prop := c.free = LOCK_ACQUIRED ↔ c.agent ≠ 0

instance (c : Cell) : Decidable c.Consistent := inferInstanceAs (Decidable (_ ↔ _))

/-- A packet that takes a free lock and is no request for it. -/
def stray (c : Cell) (hdr : LockHdr) : Prop :=
  c.free = LOCK_FREE ∧ hdr.type ∉ [.acquire, .free, .grantWoAgent]
    ∧ ¬ (hdr.type = .transfer ∧ Tofino.pushedBack c hdr = true)

instance (c : Cell) (hdr : LockHdr) : Decidable (stray c hdr) :=
  inferInstanceAs (Decidable (_ ∧ _ ∧ _))

section Step

variable {c : Cell} {hdr : LockHdr}

/-- A `FREE` or `TRANSFER` that is pushed back leaves both registers alone. -/
lemma ingressCell_pushedBack (ht : hdr.type = .transfer ∨ hdr.type = .free)
    (hp : Tofino.pushedBack c hdr = true) : (Tofino.ingressCell c hdr).cell = c := by
  obtain ⟨free, rw, agent, ncnt⟩ := c
  obtain ⟨type, mc, gr, tr, old, mode, id, mid, tid, ag, wq, n⟩ := hdr
  simp only [Tofino.pushedBack, decide_eq_true_eq] at ht hp
  obtain ⟨rfl, hn⟩ := hp
  rcases ht with rfl | rfl <;> cases mode <;>
    simp [Tofino.ingressCell, Tofino.counterTable, Tofino.initPacket, Tofino.getNotificationCnt, hn]

/-- An accepted `TRANSFER` takes the lock, and names an agent if it was taken before. -/
lemma ingressCell_transfer (ht : hdr.type = .transfer) (hp : Tofino.pushedBack c hdr = false) :
    (Tofino.ingressCell c hdr).cell.free = LOCK_ACQUIRED
      ∧ (Tofino.ingressCell c hdr).cell.agent = if c.free then hdr.machineId else c.agent := by
  obtain ⟨free, rw, agent, ncnt⟩ := c
  obtain ⟨type, mc, gr, tr, old, mode, id, mid, tid, ag, wq, n⟩ := hdr
  simp only [Tofino.pushedBack, decide_eq_false_iff_not, not_and, not_not] at ht hp
  subst ht
  cases old <;> cases mode <;> cases rw <;> cases free <;>
    simp_all [Tofino.ingressCell, Tofino.counterTable, Tofino.initPacket,
      Tofino.getNotificationCnt, Tofino.resetNotificationCnt, Tofino.lockStages, Tofino.rwTable,
      Tofino.lockOperation, Tofino.acquireLock, Tofino.lockShared, Tofino.lockExcl,
      Tofino.transferAgent, Tofino.setLockAgent]

/-- An accepted `FREE` frees the lock, and takes the agent from it if it was taken. -/
lemma ingressCell_free (ht : hdr.type = .free) (hp : Tofino.pushedBack c hdr = false) :
    (Tofino.ingressCell c hdr).cell.free = LOCK_FREE
      ∧ (Tofino.ingressCell c hdr).cell.agent = if c.free then 0 else c.agent := by
  obtain ⟨free, rw, agent, ncnt⟩ := c
  obtain ⟨type, mc, gr, tr, old, mode, id, mid, tid, ag, wq, n⟩ := hdr
  simp only [Tofino.pushedBack, decide_eq_false_iff_not, not_and, not_not] at ht hp
  subst ht
  cases old <;> cases mode <;> cases rw <;> cases free <;>
    simp_all [Tofino.ingressCell, Tofino.counterTable, Tofino.initPacket,
      Tofino.getNotificationCnt, Tofino.resetNotificationCnt, Tofino.lockStages, Tofino.rwTable,
      Tofino.lockOperation, Tofino.releaseLock, Tofino.lockShared, Tofino.lockExcl,
      Tofino.resetAgent, Tofino.setLockAgent]

/-- A request takes the lock, and makes the requester the agent of a free one. -/
lemma ingressCell_acquire (ht : hdr.type = .acquire) :
    (Tofino.ingressCell c hdr).cell.free = LOCK_ACQUIRED
      ∧ (Tofino.ingressCell c hdr).cell.agent = if c.free then c.agent else hdr.machineId := by
  obtain ⟨free, rw, agent, ncnt⟩ := c
  obtain ⟨type, mc, gr, tr, old, mode, id, mid, tid, ag, wq, n⟩ := hdr
  simp only at ht
  subst ht
  cases old <;> cases mode <;> cases rw <;> cases free <;>
    simp [Tofino.ingressCell, Tofino.counterTable, Tofino.initPacket, Tofino.newNotification,
      Tofino.lockStages, Tofino.rwTable, Tofino.lockOperation, Tofino.acquireLock,
      Tofino.lockModeGet, Tofino.lockShared, Tofino.lockExcl, Tofino.newAgent, Tofino.mcastToAgent,
      Tofino.fwdToAgent, Tofino.setLockAgent]

/-- Every other packet takes the lock and names no agent. -/
lemma ingressCell_other (ht : hdr.type ∉ [.acquire, .free, .grantWoAgent, .transfer]) :
    (Tofino.ingressCell c hdr).cell.free = LOCK_ACQUIRED
      ∧ (Tofino.ingressCell c hdr).cell.agent = c.agent := by
  obtain ⟨free, rw, agent, ncnt⟩ := c
  obtain ⟨type, mc, gr, tr, old, mode, id, mid, tid, ag, wq, n⟩ := hdr
  cases type <;> simp at ht
  all_goals
    cases mode <;> cases free <;>
      simp [Tofino.ingressCell, Tofino.counterTable, Tofino.initPacket, Tofino.lockStages,
        Tofino.rwTable, Tofino.lockOperation, Tofino.acquireLock, Tofino.fwdToAgent]

lemma ingressCell_grantWoAgent (ht : hdr.type = .grantWoAgent) :
    (Tofino.ingressCell c hdr).cell = c := by
  obtain ⟨type, mc, gr, tr, old, mode, id, mid, tid, ag, wq, n⟩ := hdr
  simp only at ht
  subst ht
  simp [Tofino.ingressCell, Tofino.counterTable, Tofino.initPacket]

/-- A packet that takes the lock without naming an agent. -/
lemma consistent_iff_of_same_agent {c' : Cell} (hc : c.Consistent)
    (h : c'.free = LOCK_ACQUIRED ∧ c'.agent = c.agent) : c'.Consistent ↔ c.free = LOCK_ACQUIRED := by
  rw [Cell.Consistent] at hc ⊢
  rw [h.1, h.2, ← hc]
  simp

/-- One packet keeps the registers consistent exactly if it is not stray. -/
lemma consistent_iff_not_stray (hc : c.Consistent) (hm : hdr.machineId ≠ 0) :
    (Tofino.ingressCell c hdr).cell.Consistent ↔ ¬ stray c hdr := by
  have hother : hdr.type ∉ [.acquire, .free, .grantWoAgent, .transfer] →
      ((Tofino.ingressCell c hdr).cell.Consistent ↔ ¬ stray c hdr) := by
    intro ht
    rw [consistent_iff_of_same_agent hc (ingressCell_other ht)]
    simp only [List.mem_cons, not_or] at ht
    simp [stray, ht]
  cases ht : hdr.type with
  | acquire =>
      obtain ⟨hfree, hagent⟩ := ingressCell_acquire (c := c) ht
      refine iff_of_true ?_ fun h => h.2.1 (by simp [ht])
      rw [Cell.Consistent, hfree, hagent]
      cases hf : c.free with
      | false => simpa using hm
      | true => simpa using hc.1 hf
  | grantWoAgent =>
      rw [ingressCell_grantWoAgent ht]
      exact iff_of_true hc fun h => h.2.1 (by simp [ht])
  | free =>
      refine iff_of_true ?_ fun h => h.2.1 (by simp [ht])
      cases hp : Tofino.pushedBack c hdr with
      | true =>
          rw [ingressCell_pushedBack (.inr ht) hp]
          exact hc
      | false =>
          obtain ⟨hfree, hagent⟩ := ingressCell_free ht hp
          rw [Cell.Consistent, hfree, hagent]
          cases hf : c.free with
          | false => simpa [Cell.Consistent, hf] using hc
          | true => simp
  | transfer =>
      cases hp : Tofino.pushedBack c hdr with
      | true =>
          rw [ingressCell_pushedBack (.inl ht) hp]
          exact iff_of_true hc fun h => h.2.2 ⟨ht, hp⟩
      | false =>
          obtain ⟨hfree, hagent⟩ := ingressCell_transfer ht hp
          cases hf : c.free with
          | false =>
              rw [consistent_iff_of_same_agent hc ⟨hfree, by rw [hagent, hf]; rfl⟩]
              simp [stray, hf, ht, hp]
          | true =>
              refine iff_of_true ?_ fun h => absurd h.1 (by simp [hf])
              rw [Cell.Consistent, hfree, hagent, hf]
              simpa using hm
  | release => exact hother (by simp [ht])
  | grantWithAgent => exact hother (by simp [ht])
  | other b => exact hother (by simp [ht])

end Step

/-! ## Packet sequences -/

/-- The registers of the Tofino plane after a sequence of packets. -/
def tofinoRegs (ps : List LockHdr) : Tofino.Regs :=
  ps.foldl (fun r p => (Tofino.ingressPipe r p).1) .init

/-- The registers of the BMv2 plane after a sequence of packets. -/
def bmv2Regs (ps : List Bmv2.Hdr) : Bmv2.Regs :=
  ps.foldl (fun r p => (Bmv2.fissIngress r p).1) .init

/-- The registers of every lock of the Tofino plane are consistent. -/
def Tofino.Regs.Consistent (r : Tofino.Regs) : Prop :=
  ∀ lid s, Tofino.slice lid = some s → (r.cell s lid).Consistent

/-- The registers of every lock of the BMv2 plane are consistent. -/
def Bmv2.Regs.Consistent (r : Bmv2.Regs) : Prop :=
  ∀ lid : LockId, lid.toNat < 1024 → (r.cell lid).Consistent

/-- The packet finds its lock free and marks it as taken. -/
def Tofino.Regs.stray (r : Tofino.Regs) (p : LockHdr) : Prop :=
  ∃ s, Tofino.slice p.id = some s ∧ FissLock.stray (r.cell s p.id) p

/-- The packet finds its lock free and marks it as taken. -/
def Bmv2.Regs.stray (r : Bmv2.Regs) (p : Bmv2.Hdr) : Prop :=
  p.id.toNat < 1024 ∧ FissLock.stray (r.cell p.id) p.parse

lemma Tofino.consistent_step {r : Tofino.Regs} {p : LockHdr} (hr : r.Consistent)
    (hm : p.machineId ≠ 0) : (Tofino.ingressPipe r p).1.Consistent ↔ ¬ r.stray p := by
  cases hs : Tofino.slice p.id with
  | none => simpa [Tofino.ingressPipe, hs, Tofino.Regs.stray] using hr
  | some s =>
      obtain ⟨hself, hne⟩ := Tofino.ingressPipe_cell r p hs
      have hcell := consistent_iff_not_stray (hr p.id s hs) hm
      rw [← hself] at hcell
      refine Iff.trans ⟨fun h => h p.id s hs, fun h lid s' hs' => ?_⟩ (hcell.trans ?_)
      · by_cases hid : lid = p.id
        · subst hid
          obtain rfl := Option.some.inj (hs'.symm.trans hs)
          exact h
        · rw [hne lid s' hs' hid]
          exact hr lid s' hs'
      · simp [Tofino.Regs.stray, hs]

lemma Bmv2.consistent_step {r : Bmv2.Regs} {p : Bmv2.Hdr} (hr : r.Consistent)
    (hm : p.machineId ≠ 0) : (Bmv2.fissIngress r p).1.Consistent ↔ ¬ r.stray p := by
  by_cases hs : p.id.toNat < 1024
  · have hcell : (Bmv2.ingressCell (r.cell p.id) p).cell.Consistent ↔ ¬ r.stray p := by
      rw [Bmv2.ingressCell_parse, consistent_iff_not_stray (hr p.id hs) hm]
      simp [Bmv2.Regs.stray, hs]
    refine Iff.trans ⟨fun h => ?_, fun h lid hlid => ?_⟩ hcell
    · have := h p.id hs
      rwa [Bmv2.fissIngress_cell r p hs, if_pos rfl] at this
    · rw [Bmv2.fissIngress_cell r p hlid]
      split
      · next hid => exact hid ▸ h
      · exact hr lid hlid
  · refine iff_of_true (fun lid hlid => ?_) fun h => hs h.1
    rw [Bmv2.fissIngress_cell r p hlid, if_neg]
    · exact hr lid hlid
    · rintro rfl
      exact hs hlid

/-- **The registers stay consistent exactly as long as no packet is stray**, on both planes and for
all locks. -/
theorem registers_consistent (ps : List LockHdr) (qs : List Bmv2.Hdr)
    (hps : ∀ p ∈ ps, p.machineId ≠ 0) (hqs : ∀ q ∈ qs, q.machineId ≠ 0) :
    ((∀ pre, pre <+: ps → (tofinoRegs pre).Consistent) ↔
      ∀ pre p, pre ++ [p] <+: ps → ¬ (tofinoRegs pre).stray p) ∧
    ((∀ pre, pre <+: qs → (bmv2Regs pre).Consistent) ↔
      ∀ pre q, pre ++ [q] <+: qs → ¬ (bmv2Regs pre).stray q) := by
  constructor
  · refine foldl_always_iff (fun r p hp hr => Tofino.consistent_step hr (hps p hp)) fun lid s _ => ?_
    simp [Cell.Consistent, Tofino.Regs.cell, Tofino.Regs.init]
  · refine foldl_always_iff (fun r q hq hr => Bmv2.consistent_step hr (hqs q hq)) fun lid _ => ?_
    simp [Cell.Consistent, Bmv2.Regs.cell, Bmv2.Regs.init]

/-- Task 7 of host 1 acquires and frees lock 5; its `RELEASE`, sent before it became the agent, is
late. -/
def lateRelease : List LockHdr :=
  [sendPostAcquire ⟨1, true, false⟩ .excl 5 1 7, sendPostFree ⟨1, true, false⟩ 5 0 .excl,
    sendPostRelease ⟨1, true, false⟩ 5 1 7]

/-- The late `RELEASE` leaves the lock taken and without an agent, on both planes. -/
theorem registers_consistent_fails :
    ¬ (tofinoRegs lateRelease).Consistent
      ∧ ¬ (bmv2Regs (lateRelease.map Bmv2.Hdr.ofPost)).Consistent := by
  refine ⟨fun h => ?_, fun h => ?_⟩
  · have := h 5 0 rfl
    revert this
    decide +kernel
  · have := h 5 (by decide)
    revert this
    decide +kernel

/-- Without it the registers stay consistent. -/
theorem registers_consistent_in_time :
    (tofinoRegs (lateRelease.take 1)).Consistent ∧ (tofinoRegs (lateRelease.take 2)).Consistent := by
  have hall := (registers_consistent (lateRelease.take 2) [] (by decide) (by simp)).1.2
  have hstray : ∀ pre p, pre ++ [p] <+: lateRelease.take 2 → ¬ (tofinoRegs pre).stray p := by
    rintro pre p hpre ⟨s, -, hfree, htype, -⟩
    have hp : p ∈ lateRelease.take 2 := hpre.subset (by simp)
    simp only [lateRelease, List.take_succ_cons, List.take_zero, List.mem_cons, List.not_mem_nil,
      or_false] at hp
    rcases hp with rfl | rfl
    · exact htype (by decide)
    · exact htype (by decide)
  exact ⟨hall hstray _ (by decide), hall hstray _ (List.prefix_refl _)⟩

end FissLock
