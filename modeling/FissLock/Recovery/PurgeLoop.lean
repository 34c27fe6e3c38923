import FissLock.Recovery.Purge

/-!
# Whom recovery removes

`integrity_check` is to remove the holders and the waiters of failed machines from the metadata of
an agent, and nobody else.  Three things stand in the way.

* The loop over the machines runs from 0 to `HOST_NUM - 1`, while hosts are numbered from 1 to
  `HOST_NUM`: nothing of the last host is ever removed.
* The loop over `wqueue` skips the entry behind an erased one.
* The loop over `holders` erases the element that it stands on and then asks it for the next one.
  What happens then is undefined: `er` below stands for whatever it does, of which only the case in
  which nothing is erased is known.

`purge_exact` says in terms of the metadata when the right ones are removed.
-/

namespace FissLock

open Tofino

/-- The fault code marks the host as failed. -/
def hostFailed (code : BitVec 64) (h : HostId) : Bool := serverFailed code (h.setWidth 32)

/-- Exactly the failed hosts are removed. -/
def PurgedExactly (code : BitVec 64) (l l' : InnetLock) : Prop :=
  l'.holders = l.holders.filter (fun lh => hostFailed code lh.1 = false)
    ∧ l'.wqueue = l.wqueue.filter (fun w => hostFailed code w.host = false)

/-- No failed host holds the lock, the last host has no failed waiter, and no two waiters of one
failed machine meet when its turn comes. -/
structure Purgeable (code : BitVec 64) (l : InnetLock) : Prop where
  holders : ∀ lh ∈ l.holders, hostFailed code lh.1 = false
  last : ∀ w ∈ l.wqueue, HOST_NUM ≤ w.host.toNat → hostFailed code w.host = false
  apart : ∀ i, sweptHost code i → Apart i (l.wqueue.filter (keptBelow code i))

section Loop

variable {code : BitVec 64} {l : InnetLock} {wq : List Wqe}

lemma hostFailed_eq (h : HostId) :
    hostFailed code h = serverFailed code (BitVec.ofNat 32 h.toNat) := by
  rw [hostFailed, BitVec.ofNat_toNat]

/-- **What recovery leaves of a wait queue**, exactly. -/
lemma sweepBelow_eq_live_iff (code : BitVec 64) (wq : List Wqe) :
    sweepBelow code wq HOST_NUM = wq.filter (fun w => hostFailed code w.host = false)
      ↔ (∀ w ∈ wq, HOST_NUM ≤ w.host.toNat → hostFailed code w.host = false)
        ∧ ∀ i, sweptHost code i → Apart i (wq.filter (keptBelow code i)) := by
  constructor
  · intro heq
    have hapart : ∀ i, sweptHost code i → Apart i (sweepBelow code wq i) := by
      intro i hi
      by_contra hmeet
      obtain ⟨w, hw, hwi⟩ := exists_mem_sweepBelow hi.1 hi hmeet
      rw [heq, List.mem_filter, hostFailed_eq, hwi, hi.2] at hw
      simp at hw
    refine ⟨fun w hw hlast => ?_, fun i hi => ?_⟩
    · have hmem : w ∈ sweepBelow code wq HOST_NUM :=
        mem_sweepBelow hw le_rfl fun i hi hwi => by omega
      rw [heq, List.mem_filter] at hmem
      simpa using hmem.2
    · rw [← sweepBelow_eq_filter fun j hj hfail => hapart j ⟨hj.trans hi.1, hfail⟩]
      exact hapart i hi
  · rintro ⟨hlast, hapart⟩
    have heq : ∀ n ≤ HOST_NUM, sweepBelow code wq n = wq.filter (keptBelow code n) := by
      intro n hn
      induction n using Nat.strong_induction_on with
      | _ n ih =>
          refine sweepBelow_eq_filter fun i hi hfail => ?_
          rw [ih i hi (by omega)]
          exact hapart i ⟨by omega, hfail⟩
    rw [heq HOST_NUM le_rfl]
    refine List.filter_congr fun w hw => ?_
    by_cases hlt : w.host.toNat < HOST_NUM
    · rw [hostFailed_eq, keptBelow]
      simp only [hlt, true_and, Bool.not_eq_true]
    · simp [keptBelow, hlt, hlast w hw (by omega)]

end Loop

/-- The loop that erases nothing. -/
lemma definedLoop_id : DefinedLoop fun _ H => H := fun _ _ _ => rfl

/-- **Exactly the failed hosts are removed, whatever the undefined loop does, where there is nothing
to remove from the holders, the last host has no failed waiter and no two waiters of one failed
machine meet.** -/
theorem purge_exact (code : BitVec 64) (l : InnetLock) :
    (∀ er, DefinedLoop er → PurgedExactly code l (removeFailedWith er code l))
      ↔ Purgeable code l := by
  constructor
  · intro hall
    obtain ⟨hholders, hwqueue⟩ := hall _ definedLoop_id
    rw [removeFailedWith_eq] at hholders hwqueue
    have hkept : holdersBelow (fun _ H => H) code l.holders HOST_NUM = l.holders := by
      rw [holdersBelow]
      simp
    obtain ⟨hlast, hapart⟩ := (sweepBelow_eq_live_iff code l.wqueue).1 hwqueue
    refine ⟨?_, hlast, hapart⟩
    exact Finset.filter_eq_self.1 (hholders.symm.trans hkept)
  · rintro ⟨hholders, hlast, hapart⟩ er her
    rw [removeFailedWith_eq]
    refine ⟨?_, (sweepBelow_eq_live_iff code l.wqueue).2 ⟨hlast, hapart⟩⟩
    rw [holdersBelow_of_kept er her ?_ le_rfl]
    · exact (Finset.filter_true_of_mem hholders).symm
    · intro lh hlh hswept
      have hok := hholders lh hlh
      rw [hostFailed_eq, hswept.2] at hok
      cases hok

/-- Two tasks of host 2 wait at an agent that only its own host holds. -/
def adjacentWaiters : InnetLock :=
  { InnetLock.init 3 with
    mode := .excl
    isAgent := true
    holders := {(1, 1)}
    wqueue := [.ofReq .excl 1 2, .ofReq .excl 2 2] }

/-- A waiter survives its machine 2, which is the only one that failed, even if the loop over the
holders does what it should. -/
theorem purge_exact_fails : ¬ ∀ er, DefinedLoop er →
    PurgedExactly 0b111111010 adjacentWaiters (removeFailedWith er 0b111111010 adjacentWaiters) := by
  intro hall
  have hpurged := hall _ definedLoop_filter
  exact absurd hpurged.2 (by decide +kernel)

end FissLock
