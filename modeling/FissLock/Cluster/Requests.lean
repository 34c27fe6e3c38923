import FissLock.Cluster.Inversion

/-!
# Requests and grants of one lock are conserved

Shared and exclusive requests together, in every guarded run.  A request is a packet, an entry of a
wait queue that some host or some packet carries, or it has been granted; and the grant is a packet,
a flag, or was seen by its task.  `requests_conserved` says that none of them is lost or doubled on
the way, bounced, handed over and pushed back as it may be, and that the agent knows of every grant
exactly once.
-/

namespace FissLock

open Tofino Accounting

namespace Cluster

/-- Grants that the task has not seen: on their way to its host, or in its flag. -/
def unseen (s : Cluster) (lh : LockHolder) : ℕ := s.wo lh + s.flag lh

/-- How often the agent knows of the grant of a task, or will: the task is recorded as a holder, or
a notification is on its way. -/
def known (s : Cluster) (lh : LockHolder) : ℕ := s.notif lh + s.held lh

/-- The task has the lock, or its release is on the way to the agent. -/
def granted (s : Cluster) (lh : LockHolder) : Prop :=
  s.unseen lh ≠ 0 ∨ (∃ op, s.task lh = .holding op) ∨ s.rel lh ≠ 0

end Cluster

/-- Where the request of a task is. -/
structure Accounted (s : Cluster) (lh : LockHolder) : Prop where
  /-- A request is in a packet or a queue only while its task waits for it, in this mode. -/
  pending : ∀ b, s.pend lh b ≠ 0 → s.task lh = .waiting (.ofBit b)
  /-- A grant that was not seen is for a task that waits, in the mode of the lock. -/
  unseen : s.unseen lh ≠ 0 → s.task lh = .waiting (.ofBit s.cell.rw)
  /-- What a task waits for is in one place, and there once. -/
  once : ∀ op, s.task lh = .waiting op → s.pend lh op.bit + s.unseen lh = 1
  /-- A task that has the lock has it in the mode of the lock. -/
  mode : ∀ op, s.task lh = .holding op → op = .ofBit s.cell.rw
  /-- The agent knows of every grant once, -/
  known : s.granted lh → s.known lh = 1
  /-- and no release is sent twice. -/
  released : s.rel lh ≤ 1

variable {s : Cluster} {lh : LockHolder}

/-- The counts of a task say where its request is. -/
lemma TaskOk.accounted (ht : TaskOk s lh) : Accounted s lh := by
  have hc := ht.counts
  cases hs : s.task lh with
  | idle =>
      rw [hs] at hc
      obtain ⟨hS, hX, hW, hF, hR⟩ := hc
      have hp : ∀ b, s.pend lh b = 0 := Bool.forall_bool.2 ⟨hS, hX⟩
      have hun : s.unseen lh = 0 := by rw [Cluster.unseen, hW, hF]
      refine ⟨fun b hb => absurd (hp b) hb, fun h => absurd hun h, fun op h => ?_, fun op h => ?_,
        fun h => ?_, by omega⟩
      · cases hs.symm.trans h
      · cases hs.symm.trans h
      · rcases h with h | ⟨op, h⟩ | h
        · exact absurd hun h
        · cases hs.symm.trans h
        · rw [Cluster.known]
          omega
  | waiting op =>
      rw [hs] at hc
      obtain ⟨hR, -, ⟨hp, hW, hF, -⟩ | ⟨hS, hX, hWF, hNH, hop, -⟩⟩ := hc
      · -- the request is pending, in the mode that was asked for
        have hun : s.unseen lh = 0 := by rw [Cluster.unseen, hW, hF]
        have hb : ∀ b, s.pend lh b ≠ 0 → op = .ofBit b := by
          refine Bool.forall_bool.2 ⟨fun h => ?_, fun h => ?_⟩
          · exact (hp.resolve_right fun hx => h hx.2.1).1
          · exact (hp.resolve_left fun hx => h hx.2.2).1
        refine ⟨fun b h => hb b h ▸ hs, fun h => absurd hun h, fun op' h => ?_, fun op' h => ?_,
          fun h => ?_, by omega⟩
        · obtain rfl : op = op' := TaskState.waiting.inj (hs.symm.trans h)
          rw [hun, add_zero]
          rcases hp with ⟨rfl, hS, -⟩ | ⟨rfl, -, hX⟩
          · exact hS
          · exact hX
        · cases hs.symm.trans h
        · rcases h with h | ⟨op', h⟩ | h
          · exact absurd hun h
          · cases hs.symm.trans h
          · exact absurd hR h
      · -- it has been granted
        have hp : ∀ b, s.pend lh b = 0 := Bool.forall_bool.2 ⟨hS, hX⟩
        refine ⟨fun b hb => absurd (hp b) hb, fun _ => hop ▸ hs, fun op' h => ?_, fun op' h => ?_,
          fun _ => hNH, by omega⟩
        · rw [hp, zero_add]
          exact hWF
        · cases hs.symm.trans h
  | holding op =>
      rw [hs] at hc
      obtain ⟨hR, -, hS, hX, hW, hF, hNH, hop⟩ := hc
      have hp : ∀ b, s.pend lh b = 0 := Bool.forall_bool.2 ⟨hS, hX⟩
      have hun : s.unseen lh = 0 := by rw [Cluster.unseen, hW, hF]
      refine ⟨fun b hb => absurd (hp b) hb, fun h => absurd hun h, fun op' h => ?_, fun op' h => ?_,
        fun _ => hNH, by omega⟩
      · cases hs.symm.trans h
      · exact TaskState.holding.inj (hs.symm.trans h) ▸ hop

/-- **Requests and grants are conserved.**  In every guarded run, for every task. -/
theorem requests_conserved {lid : LockId} (hlid : lid.toNat < SWITCH_LOCK_NUM)
    (h : Cluster.Reachable lid Guarded s) (lh : LockHolder) : Accounted s lh :=
  ((inv_of_reachable hlid h).task lh).accounted

/-- An exclusive request waits at the agent, which has shared holders on two hosts. -/
theorem requests_conserved_queued :
    ∃ s, Cluster.Reachable 7 Guarded s ∧ s.task (2, 2) = .waiting .excl
      ∧ s.pend (2, 2) LockState.excl.bit + s.unseen (2, 2) = 1 ∧ s.known (3, 3) = 1 := by
  obtain ⟨s, hrun, ⟨h2, h3⟩, -⟩ := Cluster.exists_of_run 7 Guarded
    [.acquire 1 1 .shared, .deliver 0, .deliver 0, .acquire 3 3 .shared, .deliver 0, .deliver 0,
      .deliver 0, .poll 3 3, .acquire 2 2 .excl, .deliver 0, .deliver 0]
    (fun s => s.task (2, 2) = .waiting .excl ∧ s.task (3, 3) = .holding .shared) (by decide +kernel)
  exact ⟨s, hrun, h2, (requests_conserved (by decide) hrun (2, 2)).once _ h2,
    (requests_conserved (by decide) hrun (3, 3)).known (.inr (.inl ⟨_, h3⟩))⟩

end FissLock
