import FissLock.Library.Runs

/-!
# The grant flags of ParLock

A host that waits for a lock polls a flag: `lock_acquire_async` puts the pair of the lock and the
requester into the wait table, `coroutine_wait_queue_signal` sets the flag of the pair when the lock
is granted, and `lock_req_granted` asks for it.  With `LOCK_WAIT_BUSY_LOOP` it reads the flag; with
`LOCK_WAIT_COND_VAR` a poll that finds the flag unset waits for it for a while, and a poll that was
woken up unsets it again.  Nothing else unsets a flag, and `add_to_wait_queue` inserts the pair, which
leaves a flag that is already there as it is.

`ERROR` ends the process, so the functions that print it are partial.  Who grants a lock and when is
left open: a signal may come at any time.  `grant_flags_fresh_iff` says for which runs a poll answers
only with the grants of the present request.
-/

namespace FissLock.ParLock.GrantFlags

open Runs

/-- `LOCK_WAIT_MECHANISM`. -/
inductive WaitMechanism where
  | busyLoop
  | condVar
  deriving DecidableEq, Repr

/-! ## The wait table -/

/-- `wait_flag` of a `LockEntry`. -/
abbrev WaitFlag := BitVec 32 → Option Bool

abbrev LockWaitTable := BitVec 32 → Option WaitFlag

/-- `insert` keeps an entry that exists. -/
def initLockWaitTable (table : LockWaitTable) (lockId : BitVec 32) : LockWaitTable :=
  if (table lockId).isSome then table else Function.update table lockId (some fun _ => none)

def addToWaitQueue (table : LockWaitTable) (lockId requester : BitVec 32) :
    Option LockWaitTable :=
  match table lockId with
  | none => none
  | some waitFlag =>
      -- `insert` keeps a flag that exists
      if (waitFlag requester).isSome then some table
      else some (Function.update table lockId
        (some (Function.update waitFlag requester (some false))))

def coroutineWaitQueueSignal (table : LockWaitTable) (lockId requester : BitVec 32) :
    Option LockWaitTable :=
  match table lockId with
  | none => none
  | some waitFlag =>
      match waitFlag requester with
      | none => none
      | some _ => some (Function.update table lockId
          (some (Function.update waitFlag requester (some true))))

/-- How `coroutine_wait_queue_wait` goes on when it has read the flag. -/
inductive Poll where
  | returns (granted : Bool)
  /-- It sleeps in `wait_for`. -/
  | waits
  deriving DecidableEq, Repr

def coroutineWaitQueueWait (mechanism : WaitMechanism) (table : LockWaitTable)
    (lockId requester : BitVec 32) : Option Poll :=
  match table lockId with
  | none => none
  | some waitFlag =>
      match waitFlag requester with
      | none => none
      | some flag =>
          match mechanism with
          | .condVar => if flag then some (.returns true) else some .waits
          | .busyLoop => some (.returns flag)

/-- The end of `wait_for`, on a notification or after its time: the flag is the result, and unset. -/
def waitForEnd (table : LockWaitTable) (lockId requester : BitVec 32) :
    Option (Bool × LockWaitTable) :=
  match table lockId with
  | none => none
  | some waitFlag =>
      match waitFlag requester with
      | none => none
      | some true => some (true, Function.update table lockId
          (some (Function.update waitFlag requester (some false))))
      | some false => some (false, table)

/-- The flag of a pair. -/
def flagOf (table : LockWaitTable) (lockId requester : BitVec 32) : Option Bool :=
  (table lockId).bind fun waitFlag => waitFlag requester

/-! ## The calls of `lock.cc` -/

/-- The `lock_req` that `lock_acquire_async` returns. -/
def lockReq (lkey requester : BitVec 32) : BitVec 64 :=
  (lkey.setWidth 64 <<< 32) ||| requester.setWidth 64

/-- The lock and the requester that `lock_req_granted` reads out of it. -/
def lockIdOf (req : BitVec 64) : BitVec 32 := ((req >>> 32) &&& 0xffffffff#64).setWidth 32

def requesterOf (req : BitVec 64) : BitVec 32 := (req &&& 0xffffffff#64).setWidth 32

/-- What happens at a host. -/
inductive Event where
  | lockLocalInit (lockId : BitVec 32)
  /-- `lock_acquire_async`, less the grant that the local path may make: that is a `signal`. -/
  | acquire (lkey requester : BitVec 32)
  | signal (lockId requester : BitVec 32)
  /-- A call of `lock_req_granted`. -/
  | granted (req : BitVec 64)
  /-- The end of one that waits. -/
  | wake (req : BitVec 64)
  /-- `lock_release`, which does not touch the wait table. -/
  | release (lkey requester : BitVec 32)
  deriving DecidableEq, Repr

/-- The wait table, the polls that wait, and whether a pair was signalled since it was last added. -/
structure Host where
  lockWaitTable : LockWaitTable
  waiting : List (BitVec 64)
  signalled : BitVec 32 → BitVec 32 → Bool

def Host.start : Host := ⟨fun _ => none, [], fun _ _ => false⟩

/-- Remember that the pair was signalled, or that it was not. -/
def Host.mark (h : Host) (lockId requester : BitVec 32) (b : Bool) (table : LockWaitTable) : Host :=
  { h with
    lockWaitTable := table
    signalled := Function.update h.signalled lockId
      (Function.update (h.signalled lockId) requester b) }

section Steps

variable (mechanism : WaitMechanism)

/-- The step function; `none` if the process ends or the event cannot happen. -/
def Host.step (h : Host) : Event → Option Host
  | .lockLocalInit lockId =>
      some { h with lockWaitTable := initLockWaitTable h.lockWaitTable lockId }
  | .acquire lkey requester =>
      (addToWaitQueue h.lockWaitTable lkey requester).map (h.mark lkey requester false)
  | .signal lockId requester =>
      (coroutineWaitQueueSignal h.lockWaitTable lockId requester).map (h.mark lockId requester true)
  | .granted req =>
      (coroutineWaitQueueWait mechanism h.lockWaitTable (lockIdOf req) (requesterOf req)).map
        fun
        | .returns _ => h
        | .waits => { h with waiting := req :: h.waiting }
  | .wake req =>
      if req ∈ h.waiting then
        (waitForEnd h.lockWaitTable (lockIdOf req) (requesterOf req)).map fun r =>
          { h with lockWaitTable := r.2, waiting := h.waiting.erase req }
      else none
  | .release _ _ => some h

/-- `lock_req_granted` can return true now: at once, or at the end of its wait. -/
def Host.answers (h : Host) (req : BitVec 64) : Prop :=
  coroutineWaitQueueWait mechanism h.lockWaitTable (lockIdOf req) (requesterOf req)
      = some (.returns true)
    ∨ req ∈ h.waiting
      ∧ (waitForEnd h.lockWaitTable (lockIdOf req) (requesterOf req)).map Prod.fst = some true

/-- It does so only if the pair was signalled after it was last added. -/
def Host.Fresh (h : Host) : Prop :=
  ∀ req, h.answers mechanism req → h.signalled (lockIdOf req) (requesterOf req) = true

def Host.flag (h : Host) : BitVec 32 → BitVec 32 → Option Bool := flagOf h.lockWaitTable

/-- **The condition**: a pair is added only while its flag is not set. -/
def AddsUnset (h : Host) : Event → Prop
  | .acquire lkey requester => h.flag lkey requester ≠ some true
  | _ => True

end Steps

/-! ## What a call does to the flags -/

/-- Masking the low word changes nothing of it. -/
lemma setWidth_and_mask (x : BitVec 64) : (x &&& 0xffffffff#64).setWidth 32 = x.setWidth 32 := by
  have hmask : (0xffffffff#64).setWidth 32 = BitVec.allOnes 32 := by decide
  rw [BitVec.setWidth_and, hmask, BitVec.and_allOnes]

lemma lockIdOf_lockReq (lkey requester : BitVec 32) : lockIdOf (lockReq lkey requester) = lkey := by
  rw [lockIdOf, setWidth_and_mask]
  refine BitVec.eq_of_getLsbD_eq fun i hi => ?_
  have h32 : 32 + i < 64 := by omega
  simp [lockReq, hi, h32]

lemma requesterOf_lockReq (lkey requester : BitVec 32) :
    requesterOf (lockReq lkey requester) = requester := by
  rw [requesterOf, setWidth_and_mask]
  refine BitVec.eq_of_getLsbD_eq fun i hi => ?_
  simp [lockReq, hi]

section Flags

variable {mechanism : WaitMechanism} {h h' : Host} {table : LockWaitTable}
  {lockId requester : BitVec 32}

lemma flagOf_update {waitFlag : WaitFlag} (hl : table lockId = some waitFlag) (v : Option Bool)
    (l r : BitVec 32) :
    flagOf (Function.update table lockId (some (Function.update waitFlag requester v))) l r
      = if l = lockId ∧ r = requester then v else flagOf table l r := by
  by_cases hl' : l = lockId
  · subst hl'
    by_cases hr : r = requester <;> simp [flagOf, hr, hl]
  · simp [flagOf, hl']

lemma flagOf_initLockWaitTable (l r : BitVec 32) :
    flagOf (initLockWaitTable table lockId) l r = flagOf table l r := by
  unfold initLockWaitTable
  split
  · rfl
  · next hno =>
      rw [Option.not_isSome_iff_eq_none] at hno
      by_cases hl : l = lockId
      · simp [flagOf, hl, hno]
      · simp [flagOf, hl]

/-- A pair that is added keeps its flag. -/
lemma flagOf_addToWaitQueue {table' : LockWaitTable}
    (hadd : addToWaitQueue table lockId requester = some table') (l r : BitVec 32) :
    flagOf table' l r = if l = lockId ∧ r = requester
      then some ((flagOf table lockId requester).getD false) else flagOf table l r := by
  cases hl : table lockId with
  | none => simp [addToWaitQueue, hl] at hadd
  | some waitFlag =>
      cases hr : waitFlag requester with
      | none =>
          simp only [addToWaitQueue, hl, hr, Option.isSome_none, Bool.false_eq_true, if_false,
            Option.some.injEq] at hadd
          rw [← hadd, flagOf_update hl]
          simp [flagOf, hl, hr]
      | some flag =>
          simp only [addToWaitQueue, hl, hr, Option.isSome_some, if_true, Option.some.injEq] at hadd
          subst hadd
          split
          · next hp => simp [hp.1, hp.2, flagOf, hl, hr]
          · rfl

lemma flagOf_coroutineWaitQueueSignal {table' : LockWaitTable}
    (hs : coroutineWaitQueueSignal table lockId requester = some table') (l r : BitVec 32) :
    flagOf table' l r = if l = lockId ∧ r = requester then some true else flagOf table l r := by
  cases hl : table lockId with
  | none => simp [coroutineWaitQueueSignal, hl] at hs
  | some waitFlag =>
      cases hr : waitFlag requester with
      | none => simp [coroutineWaitQueueSignal, hl, hr] at hs
      | some flag =>
          simp only [coroutineWaitQueueSignal, hl, hr, Option.some.injEq] at hs
          rw [← hs, flagOf_update hl]

/-- The end of a wait sets no flag. -/
lemma flagOf_waitForEnd {r : Bool × LockWaitTable}
    (hw : waitForEnd table lockId requester = some r) {l q : BitVec 32}
    (hf : flagOf r.2 l q = some true) : flagOf table l q = some true := by
  cases hl : table lockId with
  | none => simp [waitForEnd, hl] at hw
  | some waitFlag =>
      rcases hr : waitFlag requester with _ | _ | _
      · simp [waitForEnd, hl, hr] at hw
      · simp only [waitForEnd, hl, hr, Option.some.injEq] at hw
        subst hw
        exact hf
      · simp only [waitForEnd, hl, hr, Option.some.injEq] at hw
        subst hw
        rw [flagOf_update hl] at hf
        split at hf
        · cases hf
        · exact hf

lemma answers_iff {req : BitVec 64} :
    h.answers mechanism req ↔ h.flag (lockIdOf req) (requesterOf req) = some true := by
  unfold Host.answers Host.flag flagOf coroutineWaitQueueWait waitForEnd
  cases h.lockWaitTable (lockIdOf req) with
  | none => simp
  | some waitFlag =>
      rcases hr : waitFlag (requesterOf req) with _ | _ | _ <;> cases mechanism <;> simp [hr]

lemma fresh_iff :
    h.Fresh mechanism ↔ ∀ l r, h.flag l r = some true → h.signalled l r = true := by
  constructor
  · intro hf l r hflag
    have := hf (lockReq l r)
    rw [answers_iff, lockIdOf_lockReq, requesterOf_lockReq] at this
    exact this hflag
  · exact fun hf req hans => hf _ _ (answers_iff.1 hans)

lemma mark_flag {b : Bool} (l r : BitVec 32) :
    (h.mark lockId requester b table).flag l r = flagOf table l r := rfl

lemma mark_signalled {b : Bool} (l r : BitVec 32) :
    (h.mark lockId requester b table).signalled l r
      = if l = lockId ∧ r = requester then b else h.signalled l r := by
  by_cases hl : l = lockId
  · subst hl
    by_cases hr : r = requester <;> simp [Host.mark, hr]
  · simp [Host.mark, hl]

/-- A request makes the signal of an earlier one stale: it keeps a flag that is set. -/
lemma acquire_fresh_iff (hf : ∀ l r, h.flag l r = some true → h.signalled l r = true)
    (lkey requester : BitVec 32) :
    (∀ h' ∈ h.step mechanism (.acquire lkey requester),
        ∀ l r, h'.flag l r = some true → h'.signalled l r = true)
      ↔ h.flag lkey requester ≠ some true := by
  constructor
  · intro hnext hset
    have hadd : addToWaitQueue h.lockWaitTable lkey requester = some h.lockWaitTable := by
      simp only [Host.flag, flagOf, Option.bind_eq_some_iff] at hset
      obtain ⟨waitFlag, hl, hr⟩ := hset
      simp [addToWaitQueue, hl, hr]
    have := hnext _ (Option.map_eq_some_iff.2 ⟨_, hadd, rfl⟩) lkey requester
    rw [mark_flag, mark_signalled, if_pos ⟨rfl, rfl⟩] at this
    cases this hset
  · intro hunset h' hh' l r hflag
    obtain ⟨table, hadd, rfl⟩ := Option.map_eq_some_iff.1 hh'
    rw [mark_flag, flagOf_addToWaitQueue hadd] at hflag
    rw [mark_signalled]
    split at hflag
    · have : (h.flag lkey requester).getD false = true := Option.some.inj hflag
      cases hp : h.flag lkey requester with
      | none => simp [hp] at this
      | some b =>
          rw [hp, Option.getD_some] at this
          exact absurd (this ▸ hp) hunset
    · next hne =>
        rw [if_neg hne]
        exact hf l r hflag

/-- **The step lemma.** -/
lemma step_fresh_iff (hf : h.Fresh mechanism) (e : Event) :
    (∀ h' ∈ h.step mechanism e, h'.Fresh mechanism) ↔ AddsUnset h e := by
  rw [fresh_iff] at hf
  simp only [fresh_iff]
  cases e with
  | lockLocalInit lockId =>
      refine iff_of_true ?_ trivial
      rintro h' ⟨⟩ l r hflag
      exact hf l r ((flagOf_initLockWaitTable l r).symm.trans hflag)
  | acquire lkey requester => exact acquire_fresh_iff hf lkey requester
  | signal lockId requester =>
      refine iff_of_true ?_ trivial
      intro h' hh' l r hflag
      obtain ⟨table, hs, rfl⟩ := Option.map_eq_some_iff.1 hh'
      rw [mark_flag, flagOf_coroutineWaitQueueSignal hs] at hflag
      rw [mark_signalled]
      split at hflag
      · next hp => exact if_pos hp
      · next hne =>
          rw [if_neg hne]
          exact hf l r hflag
  | granted req =>
      refine iff_of_true ?_ trivial
      intro h' hh' l r hflag
      obtain ⟨poll, -, rfl⟩ := Option.map_eq_some_iff.1 hh'
      cases poll with
      | returns b => exact hf l r hflag
      | waits => exact hf l r hflag
  | wake req =>
      refine iff_of_true ?_ trivial
      intro h' hh' l r hflag
      simp only [Host.step] at hh'
      split at hh'
      · obtain ⟨res, hw, rfl⟩ := Option.map_eq_some_iff.1 hh'
        exact hf l r (flagOf_waitForEnd hw hflag)
      · cases hh'
  | release lkey requester =>
      refine iff_of_true ?_ trivial
      rintro h' ⟨⟩
      exact hf

lemma fresh_start : Host.start.Fresh mechanism := by
  rw [fresh_iff]
  intro l r hflag
  cases hflag

/-- With the busy loop nothing unsets a flag: it is set once the pair was ever signalled. -/
lemma busyLoop_flag (es : List Event) :
    ∀ h ∈ es.foldlM (Host.step .busyLoop) Host.start,
      h.waiting = [] ∧ ∀ l r, h.flag l r = some true ↔ .signal l r ∈ es := by
  induction es using List.reverseRecOn with
  | nil =>
      rintro h ⟨⟩
      exact ⟨rfl, fun l r => by simp [Host.start, Host.flag, flagOf]⟩
  | append_singleton es e ih =>
      intro h' hh'
      simp only [List.foldlM_append, Option.bind_eq_bind, Option.mem_def,
        Option.bind_eq_some_iff] at hh'
      obtain ⟨h, hh, hlast⟩ := hh'
      obtain ⟨hwait, hflag⟩ := ih h hh
      have hflag' : ∀ l r, flagOf h.lockWaitTable l r = some true ↔ .signal l r ∈ es := hflag
      replace hlast : h.step .busyLoop e = some h' := by simpa using hlast
      cases e with
      | lockLocalInit lockId =>
          obtain rfl := Option.some.inj hlast
          refine ⟨hwait, fun l r => ?_⟩
          rw [Host.flag, flagOf_initLockWaitTable, hflag']
          simp
      | acquire lkey requester =>
          obtain ⟨table, hadd, rfl⟩ := Option.map_eq_some_iff.1 hlast
          refine ⟨hwait, fun l r => ?_⟩
          rw [mark_flag, flagOf_addToWaitQueue hadd]
          split
          · next hp =>
              rw [hp.1, hp.2]
              cases hf : flagOf h.lockWaitTable lkey requester with
              | none => simp [← hflag', hf]
              | some b => simp [← hflag', hf]
          · simp [hflag']
      | signal lockId requester =>
          obtain ⟨table, hs, rfl⟩ := Option.map_eq_some_iff.1 hlast
          refine ⟨hwait, fun l r => ?_⟩
          rw [mark_flag, flagOf_coroutineWaitQueueSignal hs]
          split
          · next hp => simp [hp.1, hp.2]
          · next hne => simp [hflag', hne]
      | granted req =>
          obtain ⟨poll, hpoll, rfl⟩ := Option.map_eq_some_iff.1 hlast
          cases poll with
          | returns b => exact ⟨hwait, fun l r => by simpa using hflag l r⟩
          | waits =>
              simp only [coroutineWaitQueueWait] at hpoll
              split at hpoll
              · cases hpoll
              · split at hpoll <;> cases hpoll
      | wake req => simp [Host.step, hwait] at hlast
      | release lkey requester =>
          obtain rfl := Option.some.inj hlast
          exact ⟨hwait, fun l r => by simpa using hflag l r⟩

end Flags

/-- **Exactly when the answers are fresh**: with either mechanism, `lock_req_granted` answers in no
state of a run with the grant of an earlier request, if and only if every request of the run is made
while the flag of its pair is not set. -/
theorem grant_flags_fresh_iff (mechanism : WaitMechanism) (es : List Event) :
    (∀ pre, pre <+: es →
        ∀ h ∈ pre.foldlM (Host.step mechanism) Host.start, h.Fresh mechanism) ↔
      ∀ pre e, pre ++ [e] <+: es →
        ∀ h ∈ pre.foldlM (Host.step mechanism) Host.start, AddsUnset h e :=
  foldlM_always_iff (fun _ e _ hf => step_fresh_iff hf e) fresh_start

/-- With the busy loop this says that no requester asks again for a lock that it was granted. -/
theorem busyLoop_fresh_iff (es : List Event) :
    (∀ pre, pre <+: es →
        ∀ h ∈ pre.foldlM (Host.step .busyLoop) Host.start, h.Fresh .busyLoop) ↔
      ∀ pre l r, pre ++ [.acquire l r] <+: es →
        (pre.foldlM (Host.step .busyLoop) Host.start).isSome → .signal l r ∉ pre := by
  refine (foldlM_always_iff (fun _ e _ hf => step_fresh_iff hf e) fresh_start).trans ?_
  constructor
  · intro hunset pre l r hpre hrun hmem
    obtain ⟨h, hh⟩ := Option.isSome_iff_exists.1 hrun
    exact hunset pre _ hpre h hh (((busyLoop_flag pre h hh).2 l r).2 hmem)
  · intro hnever pre e hpre h hh
    cases e with
    | acquire l r =>
        intro hset
        exact hnever pre l r hpre (Option.isSome_iff_exists.2 ⟨h, hh⟩)
          (((busyLoop_flag pre h hh).2 l r).1 hset)
    | _ => trivial

/-- Task 7 takes lock 1, is granted it and releases it, and asks for it once more. -/
def reused : List Event :=
  [.lockLocalInit 1, .acquire 1 7, .signal 1 7, .granted (lockReq 1 7), .release 1 7, .acquire 1 7]

/-- A requester that is used again proceeds on the grant of its earlier request, with either
mechanism. -/
theorem grant_flags_fail :
    (∃ h, reused.foldlM (Host.step .busyLoop) Host.start = some h ∧ ¬ h.Fresh .busyLoop)
      ∧ ∃ h, reused.foldlM (Host.step .condVar) Host.start = some h ∧ ¬ h.Fresh .condVar := by
  have hstale : ∀ mechanism, (reused.foldlM (Host.step mechanism) Host.start).any
      (fun h => decide (h.flag 1 7 = some true ∧ h.signalled 1 7 = false)) = true := by
    intro mechanism
    cases mechanism <;> decide
  have hfail : ∀ mechanism, ∃ h, reused.foldlM (Host.step mechanism) Host.start = some h
      ∧ ¬ h.Fresh mechanism := by
    intro mechanism
    obtain ⟨h, hh, hp⟩ := (Option.any_eq_true _ _).1 (hstale mechanism)
    have hp := of_decide_eq_true hp
    refine ⟨h, hh, fun hf => ?_⟩
    rw [fresh_iff.1 hf 1 7 hp.1] at hp
    cases hp.2
  exact ⟨hfail .busyLoop, hfail .condVar⟩

end FissLock.ParLock.GrantFlags
