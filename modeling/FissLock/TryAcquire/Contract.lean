import FissLock.TryAcquire.Preservation
import FissLock.TryAcquire.Unserved

/-!
# The contract of `fl_bmv2_try_acquire_excl`

`bmv2_try_acquire_contract` puts the ranges of lock ids together: in every run whose steps are
`Guarded`, a call that returned 1 left its task the recorded holder because of a grant to this
call, and one that returned 0 leaves nothing behind.  `bmv2_try_acquire_contract_fails` is a run of
one task alone in which a call returns 1 for the grant of the call before it.
-/

namespace FissLock
namespace TryAcquire

open Runs OneHost

instance (s : State) (c : CallId) : Decidable (s.Drained c) :=
  inferInstanceAs (Decidable ((∀ x ∈ s.up ++ s.down, x.2 ≠ c) ∧ ∀ x ∈ s.gaps, x.2 ≠ c))

variable {h : HostId} {lid : LockId} {s : State}

lemma orderly_of_run (hlid : Served lid) (hrun : Reach (step h) (Guarded h) (State.init lid) s) :
    Orderly h lid s :=
  hrun.invariant (orderly_init h lid) fun _ _ _ ho hok hs => orderly_step hlid ho hok hs

lemma unserved_of_run (hlid : ¬ Served lid) (hlid' : lid.toNat < SWITCH_LOCK_NUM)
    (hrun : Reach (step h) (Guarded h) (State.init lid) s) : Unserved h lid s :=
  hrun.invariant (unserved_init h lid) fun _ _ _ hu _ hs => unserved_step hlid hlid' hu hs

lemma elsewhere_of_run (hlid : SWITCH_LOCK_NUM ≤ lid.toNat) (hlm : lockToLm (InnetLock.init lid) ≠ h)
    (hrun : Reach (step h) (Guarded h) (State.init lid) s) : Elsewhere h lid s :=
  hrun.invariant (elsewhere_init hlm) fun _ _ _ hi hok hs => elsewhere_step hlid hi hok hs

lemma here_of_run (hlid : SWITCH_LOCK_NUM ≤ lid.toNat) (hlm : lockToLm (InnetLock.init lid) = h)
    (hrun : Reach (step h) (Guarded h) (State.init lid) s) : ∃ owner, Here h lid s owner := by
  refine hrun.invariant (I := fun s => ∃ owner, Here h lid s owner) ⟨none, ?_⟩ ?_
  · exact ⟨rfl, hlm, ⟨rfl, rfl, rfl⟩, rfl, fun _ => rfl, rfl, fun _ => rfl, fun r hr => nomatch hr⟩
  · rintro s e s' ⟨owner, hi⟩ hok hs
    exact here_step hlid hi hok hs

/-- **What a caller may rely on.**  In every run in which calls for a lock that the switch serves
give up only while another task holds the lock and their request is not queued, locks that the host
manages are asked for while they are free, and requests for a manager elsewhere that the host reads
find the lock free. -/
theorem bmv2_try_acquire_contract (h : HostId) (lid : LockId) (s : State)
    (hrun : Reach (step h) (Guarded h) (State.init lid) s) : Contract h s := by
  by_cases hlid : Served lid
  · exact (orderly_of_run hlid hrun).contract
  rcases Nat.lt_or_ge lid.toNat SWITCH_LOCK_NUM with hlid' | hlid'
  · exact (unserved_of_run hlid hlid' hrun).toQuiet.contract
  by_cases hlm : lockToLm (InnetLock.init lid) = h
  · obtain ⟨owner, hi⟩ := here_of_run hlid' hlm hrun
    exact hi.contract
  · exact (elsewhere_of_run hlid' hlm hrun).contract

/-- Task 2 asks for lock 7 just before the grant of task 1 arrives, and gives up; its request meets
the mark.  And host 1 asks for a lock of host 2, reads the request, is its holder until it has read
the release as well, and does so again. -/
theorem bmv2_try_acquire_contract_gave_up :
    (∃ s, Reach (step 1) (Guarded 1) (State.init 7) s
      ∧ (s.Failed (s.current 2) ∧ s.lock.holders = {(1, 1)})
      ∧ (1, 2) ∉ s.lock.holders ∧ (∀ e ∈ s.lock.wqueue, e.holder ≠ (1, 2))
      ∧ s.lock.taskGranted 2 = false)
    ∧ ∃ s, Reach (step 1) (Guarded 1) (State.init (BitVec.ofNat 32 (SWITCH_LOCK_NUM + 1))) s
      ∧ (s.calls 1 = 2 ∧ s.Failed (s.current 1)) ∧ (1, 1) ∉ s.lock.holders
      ∧ (∀ e ∈ s.lock.wqueue, e.holder ≠ (1, 1)) ∧ s.lock.taskGranted 1 = false := by
  constructor
  · have hex : ∃ s, Reach (step 1) (Guarded 1) (State.init 7) s
        ∧ (s.Failed (s.current 2) ∧ s.Drained (s.current 2) ∧ s.lock.holders = {(1, 1)}) :=
      Reach.exists_of_runFrom [.acquire 1, .acquire 2, .resume 1, .resume 0, .switch, .receive,
        .poll 1, .timeout 2, .switch, .receive] (by decide +kernel)
    obtain ⟨s, hrun, hf, hd, hh⟩ := hex
    exact ⟨s, hrun, ⟨hf, hh⟩, (bmv2_try_acquire_contract 1 7 s hrun).failure 2 hf hd⟩
  · have hex : ∃ s, Reach (step 1) (Guarded 1)
          (State.init (BitVec.ofNat 32 (SWITCH_LOCK_NUM + 1))) s
        ∧ (s.calls 1 = 2 ∧ s.Failed (s.current 1) ∧ s.Drained (s.current 1)) :=
      Reach.exists_of_runFrom [.acquire 1, .resume 0, .switch, .receive, .timeout 1, .resume 0,
        .acquire 1, .resume 0, .switch, .receive, .switch, .receive, .timeout 1, .resume 0, .switch,
        .receive] (by decide +kernel)
    obtain ⟨s, hrun, hcalls, hf, hd⟩ := hex
    exact ⟨s, hrun, ⟨hcalls, hf⟩, (bmv2_try_acquire_contract _ _ s hrun).failure 1 hf hd⟩

/-- **A stale grant.**  Task 1 gives up when its grant has just arrived.  `lock_release` frees the
lock and leaves the flag up; the next call of the task, queued behind nobody, takes the flag for
its own. -/
theorem bmv2_try_acquire_contract_fails :
    ¬ ∀ s, Reach (step 1) (fun _ _ => True) (State.init 7) s → Contract 1 s := by
  intro hall
  have hex : ∃ s, Reach (step 1) (fun _ _ => True) (State.init 7) s
      ∧ ∃ r ∈ s.returns, r.result = true ∧ r.recorded = false :=
    Reach.exists_of_runFrom [.acquire 1, .resume 0, .switch, .receive, .timeout 1, .resume 0,
      .switch, .receive, .acquire 1, .poll 1] (by decide +kernel)
  obtain ⟨s, hrun, r, hr, hres, hrec⟩ := hex
  exact absurd (((hall s hrun).success r hr hres).symm.trans hrec) (by decide)

end TryAcquire
end FissLock
