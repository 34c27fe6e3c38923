import FissLock.Host.ClientApi

/-!
# Releasing at the agent: the local call and the packet

A task of the agent host calls `lock_release`, a task elsewhere has its host send a `RELEASE`
packet.  The two paths are separate copies of the same code and end in the same hand-over
(`handOver_agree`).  They treat a task that is not among the holders differently: the packet is
looked for in the wait queue first and the waiter taken out, while the call takes the task for one
whose notification is late, marks it and **leaves the waiter where it is**.

`release_paths_agree` says exactly when the two agree.
-/

namespace FissLock

/-- The two paths leave the same lock and send the same packets. -/
structure ReleasesAgree (c : CallOutcome) (o : Outcome) : Prop where
  holders : c.lock.holders = o.lock.holders
  wqueue : c.lock.wqueue = o.lock.wqueue
  earlyRelease : c.lock.earlyRelease = o.lock.earlyRelease
  mode : c.lock.mode = o.lock.mode
  isAgent : c.lock.isAgent = o.lock.isAgent
  ncnt : c.lock.ncnt = o.lock.ncnt
  sent : c.sent = o.toSwitch

section Paths

variable {cf : Conf} {l : InnetLock} {t : TaskId} {hdr : LockHdr}

/-- Whether the task waits at its own host. -/
def queuedHere (cf : Conf) (l : InnetLock) (t : TaskId) : Prop :=
  ∃ e ∈ l.wqueue, e.host = cf.localhostId ∧ e.taskId = t

instance : Decidable (queuedHere cf l t) := inferInstanceAs (Decidable (∃ e ∈ _, _ ∧ _))

/-- The hand-over is the same on both paths. -/
lemma handOver_agree (hb : cf.bmv2 = false) (hid : hdr.id = l.id) (S : Finset TaskId)
    (fs gs : List Assertion) :
    ReleasesAgree (lockReleaseHandOver cf { l with localHolders := S } fs)
      (releaseHandOver cf l hdr gs) := by
  obtain ⟨id, mode, isAgent, ncnt, holders, wqueue, _, _, _, _, _⟩ := l
  obtain rfl : hdr.id = id := hid
  by_cases hh : holders = ∅
  · subst hh
    cases wqueue with
    | nil =>
        exact ⟨rfl, rfl, rfl, rfl, rfl, rfl, rfl⟩
    | cons e rest =>
        simp only [lockReleaseHandOver, releaseHandOver, lockNoHolders, lockNoWaiters, hb]
        exact ⟨rfl, rfl, rfl, rfl, rfl, rfl, by cases rest <;> rfl⟩
  · simp only [lockReleaseHandOver, releaseHandOver, lockNoHolders, hh, decide_false,
      Bool.false_eq_true, if_false]
    exact ⟨rfl, rfl, rfl, rfl, rfl, rfl, rfl⟩

/-- A task among the holders is released the same way on both paths. -/
lemma agree_of_holder (hb : cf.bmv2 = false) (hr : lockOutOfRange l = false)
    (ha : l.isAgent = true) (hid : hdr.id = l.id) (hlh : hdr.holder = (cf.localhostId, t))
    (hm : (cf.localhostId, t) ∈ l.holders) :
    ReleasesAgree (lockRelease cf l t) (processRelease cf l hdr) := by
  have hc : lockRelease cf l t
      = lockReleaseHandOver cf
          { l with
            holders := l.holders.erase (cf.localhostId, t)
            localHolders := l.localHolders.erase t }
          (assertThat (l.mode ≠ .free) .releasingFreeLock) := by
    have hr' : ¬ lockOutOfRange { l with localHolders := l.localHolders.erase t } = true :=
    Bool.eq_false_iff.1 hr
    simp only [lockRelease]
    rw [if_neg hr', if_pos ha, if_neg (by simp [lockHasHolder, hm])]
    rfl
  have hp : processRelease cf l hdr
      = releaseHandOver cf (lockRemoveHolder l (cf.localhostId, t)) hdr
          (assertThat (l.mode ≠ .free) .releasingFreeLock) := by
    have hrm : handleRelease l hdr.machineId hdr.taskId = handleRelease l cf.localhostId t := by
      rw [Prod.ext_iff] at hlh
      rw [show hdr.machineId = _ from hlh.1, show hdr.taskId = _ from hlh.2]
    simp only [processRelease, hrm]
    rw [if_neg (by simp [hr]), if_neg (by simp [lockHasHolder, hlh, hm]), if_neg (by simp [ha])]
    rfl
  rw [hc, hp]
  exact handOver_agree (l := lockRemoveHolder l (cf.localhostId, t)) hb hid _ _ _

/-- What the call does with a task that is no holder. -/
lemma lockRelease_not_holder (hr : lockOutOfRange l = false) (ha : l.isAgent = true)
    (hm : (cf.localhostId, t) ∉ l.holders) :
    lockRelease cf l t
      = lockReleaseHandOver cf
          { l with
            earlyRelease := Function.update l.earlyRelease (cf.localhostId, t) true
            localHolders := l.localHolders.erase t } [] := by
  have hr' : ¬ lockOutOfRange { l with localHolders := l.localHolders.erase t } = true :=
    Bool.eq_false_iff.1 hr
  simp only [lockRelease]
  rw [if_neg hr', if_pos ha, if_pos (by simp [lockHasHolder, hm])]

/-- A task that neither holds the lock nor waits for it is marked on both paths. -/
lemma agree_of_not_queued (hb : cf.bmv2 = false) (hr : lockOutOfRange l = false)
    (ha : l.isAgent = true) (hid : hdr.id = l.id) (hlh : hdr.holder = (cf.localhostId, t))
    (hm : (cf.localhostId, t) ∉ l.holders) (hq : ¬ queuedHere cf l t) :
    ReleasesAgree (lockRelease cf l t) (processRelease cf l hdr) := by
  have hh : hdr.machineId = cf.localhostId ∧ hdr.taskId = t := Prod.ext_iff.1 hlh
  have hp : processRelease cf l hdr
      = releaseHandOver cf
          { l with earlyRelease := Function.update l.earlyRelease (cf.localhostId, t) true }
          hdr [] := by
    have hany : (l.wqueue.any fun e => e.host = hdr.machineId ∧ e.taskId = hdr.taskId) = false := by
      simpa [queuedHere, hh] using hq
    simp only [processRelease, hr, hlh, lockHasHolder, hm, hany, decide_false, Bool.not_false,
      Bool.false_eq_true, if_true, if_false]
  rw [lockRelease_not_holder hr ha hm, hp]
  exact handOver_agree
    (l := { l with earlyRelease := Function.update l.earlyRelease (cf.localhostId, t) true }) hb hid
    _ _ _

/-- A task that waits is taken out by the packet and not by the call. -/
lemma not_agree_of_queued (hb : cf.bmv2 = false) (hr : lockOutOfRange l = false)
    (ha : l.isAgent = true) (hlh : hdr.holder = (cf.localhostId, t))
    (hm : (cf.localhostId, t) ∉ l.holders) (hq : queuedHere cf l t) :
    ¬ ReleasesAgree (lockRelease cf l t) (processRelease cf l hdr) := by
  have hh : hdr.machineId = cf.localhostId ∧ hdr.taskId = t := Prod.ext_iff.1 hlh
  have hany : (l.wqueue.any fun e => e.host = hdr.machineId ∧ e.taskId = hdr.taskId) = true := by
    simpa [queuedHere, hh] using hq
  have hp : processRelease cf l hdr
      = { lock := { l with
            wqueue := l.wqueue.eraseP fun e => e.host = hdr.machineId ∧ e.taskId = hdr.taskId }
          hdr := hdr } := by
    simp only [processRelease, hr, hlh, lockHasHolder, hm, hany, decide_false, Bool.not_false,
      Bool.false_eq_true, if_true, if_false]
  rw [lockRelease_not_holder hr ha hm, hp]
  intro hag
  by_cases hne : l.holders = ∅
  · -- nobody holds the lock, so the call gives it away
    obtain ⟨e, he, -⟩ := hq
    have := hag.isAgent
    cases hw : l.wqueue with
    | nil => simp [hw] at he
    | cons e rest => simp [lockReleaseHandOver, lockNoHolders, hne, hw, hb, ha] at this
  · -- somebody does, so the call leaves the queue as it was
    have hsame := hag.wqueue
    simp only [lockReleaseHandOver, lockNoHolders, hne, decide_false, Bool.false_eq_true,
      if_false] at hsame
    obtain ⟨e, he, hhit⟩ := List.any_eq_true.1 hany
    exact List.eraseP_eq_self_iff.1 hsame.symm e he hhit

end Paths

/-- **The two paths agree exactly if the task holds the lock or does not wait for it.** -/
theorem release_paths_agree (cf : Conf) (hb : cf.bmv2 = false) (l : InnetLock)
    (hr : lockOutOfRange l = false) (ha : l.isAgent = true) (t : TaskId) (hdr : LockHdr)
    (ht : hdr.type = .release) (hid : hdr.id = l.id) (hlh : hdr.holder = (cf.localhostId, t)) :
    ReleasesAgree (lockRelease cf l t) (lockPacketProcess cf l hdr)
      ↔ (cf.localhostId, t) ∈ l.holders ∨ ¬ queuedHere cf l t := by
  rw [show lockPacketProcess cf l hdr = processRelease cf l hdr by rw [lockPacketProcess, ht]]
  by_cases hm : (cf.localhostId, t) ∈ l.holders
  · simp [hm, agree_of_holder hb hr ha hid hlh hm]
  · by_cases hq : queuedHere cf l t
    · simp [hm, hq, not_agree_of_queued hb hr ha hlh hm hq]
    · simp [hq, agree_of_not_queued hb hr ha hid hlh hm hq]

/-- Host 1 as the agent of lock 5: task 7 of host 2 holds it exclusively and task 8 of host 1
waits. -/
def oneWaiting : InnetLock :=
  { InnetLock.init 5 with
    mode := .excl
    isAgent := true
    holders := {(2, 7)}
    wqueue := [Wqe.ofReq .excl 8 1] }

/-- The waiter gives up. -/
theorem release_paths_agree_fails :
    ¬ ReleasesAgree (lockRelease ⟨1, true, false⟩ oneWaiting 8)
        (lockPacketProcess ⟨1, true, false⟩ oneWaiting
          (sendPostRelease ⟨1, true, false⟩ 5 1 8)) := by
  intro h
  have := h.wqueue
  revert this
  decide

/-- Another task of host 1 is released. -/
theorem release_paths_agree_late :
    ReleasesAgree (lockRelease ⟨1, true, false⟩ oneWaiting 9)
      (lockPacketProcess ⟨1, true, false⟩ oneWaiting (sendPostRelease ⟨1, true, false⟩ 5 1 9)) :=
  (release_paths_agree ⟨1, true, false⟩ rfl oneWaiting rfl rfl 9 _ rfl rfl rfl).2 (by decide)

end FissLock
