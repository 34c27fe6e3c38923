import FissLock.Host.ClientApi

/-!
# The handle of a request

`lock_acquire_async` returns a `lock_req`, 64 bits in which it packs three things: 0 if the lock
was granted on the spot, a negative error code, or the address of the task's grant flag.
`lock_req_granted` takes everything but 0 for an address, and `lock_acquire` takes the low 32 bits
for one of four small numbers.

`LockReq.value` is the number behind a handle; `FlagAddresses` says where the flags are.
`lockAcquireAsync_cases` lists the four ways in which the call ends.  `AsyncContract` is what the
caller of `lock_acquire_async` and `lock_req_granted` relies on and `AcquireContract` adds
`lock_acquire`.

`acquire_contract_iff` says of every run of a host when its calls keep to them.  The flag of a task
is set by a grant, and cleared only when the task polls it: a later request finds it as it is.
With local grants disabled there is no handle at all.  And `lock_acquire` returns 0 for every
address.
-/

namespace FissLock

/-! ## The values of a handle -/

/-- `FLAG_ENB_LOCAL_GRANT`. -/
def FLAG_ENB_LOCAL_GRANT : BitVec 32 := 0x1

/-- `lock_setup`: the value of `enb_local_grants`. -/
def lockSetup (flags : BitVec 32) : Bool := decide (flags &&& FLAG_ENB_LOCAL_GRANT ≠ 0)

/-- `ERR_INVALID_OP` of `debug.h`. -/
def ERR_INVALID_OP : ℕ := 3

/-- The addresses of the grant flags of a lock.  A flag is the second component of a pair, behind
the task id of four bytes, in a node of `task_granted` that starts with a pointer; and it is an
object of the program. -/
structure FlagAddresses where
  addr : TaskId → BitVec 64
  /-- The task whose flag is at an address. -/
  task : BitVec 64 → Option TaskId
  task_eq_some : ∀ {a t}, task a = some t ↔ a = addr t
  aligned : ∀ t, (addr t).toNat % 8 = 4
  userSpace : ∀ t, (addr t).toNat < 2 ^ 47

/-- The number that `lock_acquire_async` returns; `garbage` is what the variable `req` held
before. -/
def LockReq.value (a : FlagAddresses) (garbage : BitVec 64) : LockReq → BitVec 64
  | granted => 0
  | flag t => a.addr t
  | invalidOp => -BitVec.ofNat 64 ERR_INVALID_OP
  | uninitialised => garbage

/-- `lock_req_granted` on a number: `none` if it is not the address of a flag of the lock, and the
behaviour is undefined. -/
def lockReqGrantedAt (a : FlagAddresses) (l : InnetLock) (req : BitVec 64) :
    Option (InnetLock × Bool) :=
  if req = 0 then some (l, true) else (a.task req).map (lockReqGranted l)

/-! ## Runs of a host -/

/-- What happens to the metadata of a lock. -/
inductive LockEvent where
  /-- A packet is processed. -/
  | packet (hdr : LockHdr)
  /-- `lock_acquire_async`. -/
  | acquire (task : TaskId) (op : LockState)
  /-- `lock_req_granted` on the handle of a task. -/
  | poll (task : TaskId)
  /-- `lock_release`. -/
  | release (task : TaskId)
  deriving DecidableEq, Repr

/-- The metadata after an event. -/
def lockEvent (cf : Conf) (l : InnetLock) : LockEvent → InnetLock
  | .packet hdr => (lockPacketProcess cf l hdr).lock
  | .acquire task op => (lockAcquireAsync cf l task op).1.done
  | .poll task => (lockReqGranted l task).1
  | .release task => (lockRelease cf l task).done

/-- The metadata after a list of events. -/
def lockRun (cf : Conf) (l : InnetLock) (evs : List LockEvent) : InnetLock :=
  evs.foldl (lockEvent cf) l

/-- The task to which an event brings a grant: a grant packet, or a hand-over by `lock_release`. -/
def grantedBy (cf : Conf) (l : InnetLock) : LockEvent → Option TaskId
  | .packet hdr =>
      match hdr.type with
      | .grantWithAgent => if hdr.taskId = TASK_FOR_RESTORE then none else some hdr.taskId
      | .grantWoAgent => some hdr.taskId
      | _ => none
  | .release task => (lockRelease cf l task).notify
  | .acquire _ _ => none
  | .poll _ => none

/-- No grant arrives for the task. -/
def NoGrant (cf : Conf) (l : InnetLock) (task : TaskId) (evs : List LockEvent) : Prop :=
  ∀ pre ev, pre ++ [ev] <+: evs → grantedBy cf (lockRun cf l pre) ev ≠ some task

/-- `lock_acquire`.  `meanwhile` is what happens until `lock_wait_local` reads the flag. -/
def lockAcquire (cf : Conf) (a : FlagAddresses) (garbage : BitVec 64) (meanwhile : List LockEvent)
    (l : InnetLock) (task : TaskId) (op : LockState) : InnetLock × ℤ :=
  let r := lockAcquireAsync cf l task op
  let ret := ((r.2.value a garbage).setWidth 32).toInt
  if ret = 0 then (r.1.lock, 0)
  else if ret = 1 ∨ ret = 2 then
    let l' := lockRun cf r.1.lock meanwhile
    (l', if l'.taskGranted task then 0 else 1)
  else if ret = 3 then (r.1.lock, 1)
  else (r.1.lock, 0)

/-! ## What the caller relies on -/

/-- `LOCK_SHARED` and `LOCK_EXCL` are the operators of a request. -/
def ValidOp (op : LockState) : Prop := op = .excl ∨ op = .shared

/-- The host has recorded the task as a holder. -/
def Holds (cf : Conf) (l : InnetLock) (task : TaskId) : Prop :=
  (cf.localhostId, task) ∈ l.holders ∨ task ∈ l.localHolders

/-- The task neither holds the lock nor waits for it. -/
def Unconcerned (cf : Conf) (l : InnetLock) (task : TaskId) : Prop :=
  ¬ Holds cf l task ∧ ∀ e ∈ l.wqueue, e.holder ≠ (cf.localhostId, task)

/-- What `lock_acquire_async` promises, and `lock_req_granted` on what it returned. -/
structure AsyncContract (cf : Conf) (a : FlagAddresses) (garbage : BitVec 64) (l : InnetLock)
    (task : TaskId) (op : LockState) : Prop where
  zero : (lockAcquireAsync cf l task op).2.value a garbage = 0 →
    (cf.localhostId, task) ∈ (lockAcquireAsync cf l task op).1.lock.holders
  invalid : ¬ ValidOp op → ((lockAcquireAsync cf l task op).2.value a garbage).toInt < 0
    ∧ (lockAcquireAsync cf l task op).1.lock = l ∧ (lockAcquireAsync cf l task op).1.sent = []
    ∧ (lockAcquireAsync cf l task op).1.notify = none
  handle : ValidOp op → (lockAcquireAsync cf l task op).2.value a garbage ≠ 0 →
    (lockAcquireAsync cf l task op).2.value a garbage = a.addr task
      ∧ ∀ evs, NoGrant cf (lockAcquireAsync cf l task op).1.lock task evs →
        (lockRun cf (lockAcquireAsync cf l task op).1.lock evs).taskGranted task = false
  polled : ∀ evs l', lockReqGrantedAt a (lockRun cf (lockAcquireAsync cf l task op).1.lock evs)
      ((lockAcquireAsync cf l task op).2.value a garbage) = some (l', true) →
    (cf.localhostId, task) ∈ (lockAcquireAsync cf l task op).1.lock.holders
      ∨ ¬ NoGrant cf (lockAcquireAsync cf l task op).1.lock task evs

/-- And what `lock_acquire` promises. -/
structure AcquireContract (cf : Conf) (a : FlagAddresses) (garbage : BitVec 64) (l : InnetLock)
    (task : TaskId) (op : LockState) : Prop extends AsyncContract cf a garbage l task op where
  blocking : ∀ meanwhile, (lockAcquire cf a garbage meanwhile l task op).2 = 0 →
    Holds cf (lockAcquire cf a garbage meanwhile l task op).1 task

/-- The request is granted by the call: the host is the lock manager and the lock is free or
shared, or the host is the agent and the lock is shared. -/
def OnTheSpot (cf : Conf) (l : InnetLock) (op : LockState) : Prop :=
  ValidOp op ∧
    if lockOutOfRange l then
      lockToLm l = cf.localhostId ∧ (l.mode = .free ∨ l.mode = .shared ∧ op = .shared)
    else cf.enbLocalGrants = true ∧ l.isAgent = true ∧ l.mode = .shared ∧ op = .shared

/-- The call assigns the handle: it does so behind a lock manager, or with local grants enabled. -/
def HasHandle (cf : Conf) (l : InnetLock) : Prop :=
  lockOutOfRange l = true ∨ cf.enbLocalGrants = true

/-- All requests in a run of a lock, by tasks that neither hold it nor wait for it. -/
def EveryRequest (cf : Conf) (lid : LockId) (evs : List LockEvent)
    (P : InnetLock → TaskId → LockState → Prop) : Prop :=
  ∀ pre task op, pre ++ [.acquire task op] <+: evs →
    Unconcerned cf (lockRun cf (InnetLock.init lid) pre) task →
      P (lockRun cf (InnetLock.init lid) pre) task op

/-! ## How the call ends -/

section Ends

variable {cf : Conf} {l : InnetLock} {op : LockState}

lemma ValidOp.not_invalid (h : ValidOp op) : ¬ (op ≠ .excl ∧ op ≠ .shared) := by
  rintro ⟨he, hs⟩
  exact h.elim he hs

/-- An operator that is none is refused. -/
lemma lockAcquireAsync_of_invalid (cf : Conf) (l : InnetLock) (task : TaskId) (h : ¬ ValidOp op) :
    lockAcquireAsync cf l task op = ({ lock := l }, .invalidOp) := by
  rw [lockAcquireAsync, if_pos (not_or.1 h)]

/-- A request that is granted on the spot. -/
lemma lockAcquireAsync_of_onTheSpot (task : TaskId) (h : OnTheSpot cf l op) :
    (lockAcquireAsync cf l task op).2 = .granted
      ∧ (cf.localhostId, task) ∈ (lockAcquireAsync cf l task op).1.lock.holders := by
  obtain ⟨hop, h⟩ := h
  rw [lockAcquireAsync, if_neg hop.not_invalid]
  cases hr : lockOutOfRange l with
  | true =>
      simp only [hr, if_true] at h ⊢
      rw [if_pos h.1]
      rcases h.2 with hm | ⟨hm, rfl⟩ <;> simp [handleAcquireLm, hm, lockAddHolder]
  | false =>
      simp only [hr, Bool.false_eq_true, if_false] at h ⊢
      obtain ⟨he, ha, hm, rfl⟩ := h
      simp [he, ha, hm, handleGrantedAcquire, lockAddHolder]

/-- A request that is not, with its handle. -/
lemma lockAcquireAsync_of_handle (task : TaskId) (hop : ValidOp op) (hs : ¬ OnTheSpot cf l op)
    (hh : HasHandle cf l) :
    (lockAcquireAsync cf l task op).2 = .flag task
      ∧ (lockAcquireAsync cf l task op).1.lock.holders = l.holders
      ∧ (lockAcquireAsync cf l task op).1.lock.localHolders = l.localHolders
      ∧ (lockAcquireAsync cf l task op).1.lock.taskGranted = l.taskGranted := by
  rw [lockAcquireAsync, if_neg hop.not_invalid]
  cases hr : lockOutOfRange l with
  | true =>
      simp only [OnTheSpot, hop, hr, if_true, true_and, not_and, not_or] at hs ⊢
      split
      · next hlm =>
          obtain ⟨hfree, hshared⟩ := hs hlm
          simp only [handleAcquireLm, if_neg hfree]
          split_ifs with hm ho
          · exact absurd ho (hshared hm)
          all_goals simp_all [lockAppendToWq, lockPrepareWait]
      · simp [lockPrepareWait]
  | false =>
      have he : cf.enbLocalGrants = true := hh.resolve_left (by simp [hr])
      simp only [OnTheSpot, hop, hr, he, Bool.false_eq_true, if_false, if_true, true_and,
        not_and] at hs ⊢
      split
      · simp [handleSuspendAcquire, lockAppendToWq, lockPrepareWait]
      · split
        · next ha =>
            rw [if_neg (fun h => hs ha h.1 h.2)]
            simp [handleSuspendAcquire, lockAppendToWq, lockPrepareWait]
        · simp [lockPrepareWait]

/-- A request that is not, with local grants disabled. -/
lemma lockAcquireAsync_of_no_handle (task : TaskId) (hop : ValidOp op) (hh : ¬ HasHandle cf l) :
    (lockAcquireAsync cf l task op).2 = .uninitialised
      ∧ (lockAcquireAsync cf l task op).1.lock = l := by
  simp only [HasHandle, not_or, Bool.not_eq_true] at hh
  rw [lockAcquireAsync, if_neg hop.not_invalid]
  simp [hh.1, hh.2]

end Ends

/-! ## The flags -/

section Flags

variable {cf : Conf} {l : InnetLock} {hdr : LockHdr} {task : TaskId}

lemma handleAcquireLm_taskGranted (l : InnetLock) (hid : HostId) (tid : TaskId) (op : LockState) :
    (handleAcquireLm l hid tid op).1.taskGranted = l.taskGranted := by
  rw [handleAcquireLm]
  split_ifs <;> rfl

lemma handleReleaseLm_taskGranted (l : InnetLock) (hid : HostId) (tid : TaskId) :
    (handleReleaseLm l hid tid).1.taskGranted = l.taskGranted := by
  simp only [handleReleaseLm]
  split
  · split
    · rfl
    · split
      · rw [lockDigestWq_eq]
        rfl
      · rfl
  · rfl

/-- `lock_acquire_async` notifies nobody. -/
lemma lockAcquireAsync_taskGranted (cf : Conf) (l : InnetLock) (task : TaskId) (op : LockState) :
    (lockAcquireAsync cf l task op).1.done.taskGranted = l.taskGranted := by
  simp only [lockAcquireAsync]
  split_ifs
  all_goals first | rfl | exact handleAcquireLm_taskGranted _ _ _ _

lemma processAcquire_taskGranted (l : InnetLock) (hdr : LockHdr) :
    (processAcquire l hdr).lock.taskGranted = l.taskGranted := by
  simp only [processAcquire]
  split_ifs
  all_goals first | rfl | exact handleAcquireLm_taskGranted _ _ _ _

lemma processGrantWithAgent_taskGranted (hr : hdr.taskId ≠ TASK_FOR_RESTORE) :
    (processGrantWithAgent cf l hdr).lock.taskGranted
      = Function.update l.taskGranted hdr.taskId true := by
  simp only [processGrantWithAgent, if_neg hr]
  split_ifs
  all_goals first | rfl | simp [lockLocalNotify, lockDigestWq_eq, lockAddHolder]

lemma releaseHandOver_taskGranted (cf : Conf) (l : InnetLock) (hdr : LockHdr)
    (failed : List Assertion) :
    (releaseHandOver cf l hdr failed).lock.taskGranted = l.taskGranted := by
  rw [releaseHandOver]
  split_ifs
  · rfl
  · cases hq : l.wqueue <;> simp [lockTransferHelper, hq]
  · rfl

lemma processRelease_taskGranted (cf : Conf) (l : InnetLock) (hdr : LockHdr) :
    (processRelease cf l hdr).lock.taskGranted = l.taskGranted := by
  simp only [processRelease]
  split
  · split
    · split <;> exact handleReleaseLm_taskGranted _ _ _
    · exact handleReleaseLm_taskGranted _ _ _
  · split
    · split
      · rfl
      · exact releaseHandOver_taskGranted _ _ _ _
    · split
      · rfl
      · exact releaseHandOver_taskGranted _ _ _ _

lemma processPushedBack_taskGranted (l : InnetLock) (hdr : LockHdr) :
    (processPushedBack l hdr).lock.taskGranted = l.taskGranted := by
  simp only [processPushedBack]
  split_ifs <;> rfl

/-- A packet sets the flag of the task to which it brings a grant, and no other. -/
lemma lockPacketProcess_taskGranted (cf : Conf) (l : InnetLock) (hdr : LockHdr) :
    (lockPacketProcess cf l hdr).lock.taskGranted
      = match grantedBy cf l (.packet hdr) with
        | some t => Function.update l.taskGranted t true
        | none => l.taskGranted := by
  cases ht : hdr.type with
  | acquire => simpa only [lockPacketProcess, grantedBy, ht] using processAcquire_taskGranted l hdr
  | grantWithAgent =>
      by_cases hr : hdr.taskId = TASK_FOR_RESTORE
      · simp [lockPacketProcess, grantedBy, ht, processGrantWithAgent, hr]
      · simpa only [lockPacketProcess, grantedBy, ht, if_neg hr]
          using processGrantWithAgent_taskGranted hr
  | grantWoAgent =>
      simp only [lockPacketProcess, grantedBy, ht, processGrantWoAgent, lockLocalNotify]
  | release =>
      simpa only [lockPacketProcess, grantedBy, ht] using processRelease_taskGranted cf l hdr
  | transfer | free =>
      simpa only [lockPacketProcess, grantedBy, ht] using processPushedBack_taskGranted l hdr
  | other b => simp only [lockPacketProcess, grantedBy, ht]

lemma lockReleaseHandOver_taskGranted (cf : Conf) (l : InnetLock) (failed : List Assertion) :
    (lockReleaseHandOver cf l failed).lock.taskGranted = l.taskGranted := by
  rw [lockReleaseHandOver]
  split
  · split
    · rfl
    · split <;> rfl
  · rfl

lemma lockRelease_taskGranted (cf : Conf) (l : InnetLock) (task : TaskId) :
    (lockRelease cf l task).lock.taskGranted = l.taskGranted := by
  simp only [lockRelease]
  split
  · split
    · split
      · split <;> exact handleReleaseLm_taskGranted _ _ _
      · exact handleReleaseLm_taskGranted _ _ _
    · rfl
  · split
    · split <;> exact lockReleaseHandOver_taskGranted _ _ _
    · rfl

/-- **A flag is set by a grant.** -/
lemma lockEvent_taskGranted {ev : LockEvent} (hf : l.taskGranted task = false)
    (hg : grantedBy cf l ev ≠ some task) : (lockEvent cf l ev).taskGranted task = false := by
  cases ev with
  | packet hdr =>
      rw [lockEvent, lockPacketProcess_taskGranted]
      split
      · next t ht =>
          have hne : task ≠ t := by
            rintro rfl
            exact hg ht
          rwa [Function.update_of_ne hne]
      · exact hf
  | acquire t op => rwa [lockEvent, lockAcquireAsync_taskGranted]
  | poll t =>
      simp only [lockEvent, lockReqGranted]
      split
      · by_cases ht : task = t <;> simp [ht, hf]
      · exact hf
  | release t =>
      rw [lockEvent, CallOutcome.done]
      cases hn : (lockRelease cf l t).notify with
      | none => rwa [lockRelease_taskGranted]
      | some t' =>
          have hne : task ≠ t' := by
            rintro rfl
            exact hg hn
          simp only [lockLocalNotify, Function.update_of_ne hne, lockRelease_taskGranted, hf]

/-- A flag that is not set stays so until a grant arrives. -/
lemma lockRun_taskGranted {evs : List LockEvent} (hf : l.taskGranted task = false)
    (hg : NoGrant cf l task evs) : (lockRun cf l evs).taskGranted task = false := by
  induction evs generalizing l with
  | nil => exact hf
  | cons ev evs ih =>
      have hfirst : grantedBy cf l ev ≠ some task := hg [] ev (by simp)
      refine ih (lockEvent_taskGranted hf hfirst) ?_
      intro pre ev' hpre
      exact hg (ev :: pre) ev' (List.cons_prefix_cons.2 ⟨rfl, hpre⟩)

end Flags

/-! ## When the calls keep to their contracts -/

section Contracts

variable {cf : Conf} {a : FlagAddresses} {l : InnetLock} {task : TaskId} {op : LockState}

lemma FlagAddresses.addr_ne_zero (a : FlagAddresses) (t : TaskId) : a.addr t ≠ 0 := by
  intro h
  have := a.aligned t
  simp [h] at this

/-- The low half of an address is none of the numbers that `lock_acquire` distinguishes. -/
lemma FlagAddresses.toInt_ne (a : FlagAddresses) (t : TaskId) {k : ℤ} (hk : 0 ≤ k ∧ k ≤ 3) :
    ((a.addr t).setWidth 32).toInt ≠ k := by
  have halign := a.aligned t
  have hlow : ((a.addr t).setWidth 32).toNat % 8 = 4 := by
    rw [BitVec.toNat_setWidth]
    omega
  rw [BitVec.toInt_eq_toNat_cond]
  split <;> omega

/-- An error code is not the address of a flag. -/
lemma FlagAddresses.task_invalidOp (a : FlagAddresses) (garbage : BitVec 64) :
    a.task (LockReq.invalidOp.value a garbage) = none := by
  rw [Option.eq_none_iff_forall_ne_some]
  intro t ht
  have hlt := a.userSpace t
  rw [← a.task_eq_some.1 ht, show LockReq.invalidOp.value a garbage = -3#64 from rfl] at hlt
  exact absurd hlt (by decide)

lemma lockReqGrantedAt_addr (a : FlagAddresses) (l : InnetLock) (t : TaskId) :
    lockReqGrantedAt a l (a.addr t) = some (lockReqGranted l t) := by
  rw [lockReqGrantedAt, if_neg (a.addr_ne_zero t), a.task_eq_some.2 rfl, Option.map_some]

/-- A poll reports what the flag says. -/
lemma lockReqGranted_snd (l : InnetLock) (t : TaskId) :
    (lockReqGranted l t).2 = l.taskGranted t := by
  rw [lockReqGranted]
  split <;> simp_all

lemma asyncContract_of_invalid (h : ¬ ValidOp op) (garbage : BitVec 64) :
    AsyncContract cf a garbage l task op := by
  have hcall := lockAcquireAsync_of_invalid cf l task h
  have hval : LockReq.invalidOp.value a garbage = -3#64 := rfl
  constructor
  · rw [hcall, hval]
    exact fun h0 => absurd h0 (by decide)
  · rw [hcall, hval]
    exact fun _ => ⟨by decide, rfl, rfl, rfl⟩
  · exact fun hop => absurd hop h
  · rw [hcall]
    intro evs l' hpoll
    rw [lockReqGrantedAt, if_neg (by rw [hval]; decide), a.task_invalidOp garbage] at hpoll
    cases hpoll

lemma asyncContract_of_onTheSpot (h : OnTheSpot cf l op) (garbage : BitVec 64) :
    AsyncContract cf a garbage l task op := by
  obtain ⟨hreq, hholder⟩ := lockAcquireAsync_of_onTheSpot task h
  constructor
  · exact fun _ => hholder
  · exact fun hop => absurd h.1 hop
  · rw [hreq]
    exact fun _ h0 => absurd rfl h0
  · exact fun _ _ _ => .inl hholder

lemma asyncContract_of_flag (hop : ValidOp op) (hs : ¬ OnTheSpot cf l op) (hh : HasHandle cf l)
    (hf : l.taskGranted task = false) (garbage : BitVec 64) :
    AsyncContract cf a garbage l task op := by
  obtain ⟨hreq, -, -, hflags⟩ := lockAcquireAsync_of_handle task hop hs hh
  have hunset : (lockAcquireAsync cf l task op).1.lock.taskGranted task = false := by
    rw [hflags, hf]
  constructor
  · rw [hreq]
    exact fun h0 => absurd h0 (a.addr_ne_zero task)
  · exact fun h => absurd hop h
  · rw [hreq]
    exact fun _ _ => ⟨rfl, fun evs hg => lockRun_taskGranted hunset hg⟩
  · intro evs l' hpoll
    right
    intro hg
    rw [hreq, LockReq.value, lockReqGrantedAt_addr, Option.some.injEq] at hpoll
    have hset := (lockReqGranted_snd _ task).symm.trans (congrArg Prod.snd hpoll)
    rw [lockRun_taskGranted hunset hg] at hset
    cases hset

/-- **`lock_acquire_async` and `lock_req_granted`.**  They keep to their contract for a request
that is granted on the spot, or has a handle to a flag that is not set. -/
lemma asyncContract_iff (hu : Unconcerned cf l task) :
    (∀ garbage, AsyncContract cf a garbage l task op)
      ↔ (ValidOp op → OnTheSpot cf l op ∨ HasHandle cf l ∧ l.taskGranted task = false) := by
  by_cases hop : ValidOp op
  · by_cases hs : OnTheSpot cf l op
    · simp only [hs, true_or, implies_true, iff_true]
      exact asyncContract_of_onTheSpot hs
    simp only [hop, hs, false_or, true_implies]
    by_cases hh : HasHandle cf l
    · simp only [hh, true_and]
      refine ⟨fun h => ?_, asyncContract_of_flag hop hs hh⟩
      -- the flag as the call finds it
      obtain ⟨hreq, -, -, hflags⟩ := lockAcquireAsync_of_handle task hop hs hh
      have hhandle := (h 0).handle hop (by rw [hreq]; exact a.addr_ne_zero task)
      have hunset := hhandle.2 [] (by intro pre ev hpre; simp at hpre)
      rwa [lockRun, List.foldl_nil, hflags] at hunset
    · simp only [hh, false_and, iff_false]
      intro h
      -- the variable may have held 0
      obtain ⟨hreq, hlock⟩ := lockAcquireAsync_of_no_handle task hop hh
      have hholder := (h 0).zero (by rw [hreq]; rfl)
      rw [hlock] at hholder
      exact hu.1 (.inl hholder)
  · simp only [hop, false_implies, iff_true]
    exact asyncContract_of_invalid hop

/-- **`lock_acquire`.**  With it, only for a request that is granted on the spot. -/
lemma acquireContract_iff (hu : Unconcerned cf l task) :
    (∀ garbage, AcquireContract cf a garbage l task op) ↔ OnTheSpot cf l op := by
  constructor
  · intro h
    by_contra hs
    have hasync := (asyncContract_iff hu).1 fun garbage => (h garbage).toAsyncContract
    have hblock := (h 0).blocking []
    by_cases hop : ValidOp op
    · -- the low half of the address is taken for an unknown number
      obtain ⟨hh, -⟩ := (hasync hop).resolve_left hs
      obtain ⟨hreq, hholders, hlocal, -⟩ := lockAcquireAsync_of_handle task hop hs hh
      have hret : lockAcquire cf a 0 [] l task op = ((lockAcquireAsync cf l task op).1.lock, 0) := by
        have hne : ∀ k : ℤ, 0 ≤ k ∧ k ≤ 3 → ((a.addr task).setWidth 32).toInt ≠ k :=
          fun k hk => a.toInt_ne task hk
        simp only [lockAcquire, hreq, LockReq.value]
        rw [if_neg (hne 0 (by omega)), if_neg (not_or.2 ⟨hne 1 (by omega), hne 2 (by omega)⟩),
          if_neg (hne 3 (by omega))]
      rw [hret] at hblock
      have hholds := hblock rfl
      rw [Holds, hholders, hlocal] at hholds
      exact hu.1 hholds
    · -- and so is the error code
      have hret : lockAcquire cf a 0 [] l task op = (l, 0) := by
        simp only [lockAcquire, lockAcquireAsync_of_invalid cf l task hop, LockReq.value]
        rfl
      rw [hret] at hblock
      exact hu.1 (hblock rfl)
  · intro hs garbage
    refine ⟨asyncContract_of_onTheSpot hs garbage, ?_⟩
    intro meanwhile _
    obtain ⟨hreq, hholder⟩ := lockAcquireAsync_of_onTheSpot task hs
    have hret : lockAcquire cf a garbage meanwhile l task op
        = ((lockAcquireAsync cf l task op).1.lock, 0) := by
      simp only [lockAcquire, hreq, LockReq.value]
      rfl
    rw [hret]
    exact .inl hholder

end Contracts

/-- What a run does at its requests depends on nothing else. -/
lemma EveryRequest.congr {cf : Conf} {lid : LockId} {evs : List LockEvent}
    {P Q : InnetLock → TaskId → LockState → Prop}
    (h : ∀ l task op, Unconcerned cf l task → (P l task op ↔ Q l task op)) :
    EveryRequest cf lid evs P ↔ EveryRequest cf lid evs Q := by
  constructor
  · intro hP pre task op hpre hu
    exact (h _ _ _ hu).1 (hP pre task op hpre hu)
  · intro hQ pre task op hpre hu
    exact (h _ _ _ hu).2 (hQ pre task op hpre hu)

/-- **The contract of a request.**  In every run of a host, for all flags of `lock_setup`: the
calls of `lock_acquire_async`, `lock_req_granted` and `lock_acquire` keep to their contract,
whatever an uninitialised variable holds, exactly if every request is granted on the spot.  Without
`lock_acquire` it is enough, and necessary, that every other request has a handle and finds its
flag unset. -/
theorem acquire_contract_iff (localhostId : HostId) (flags : BitVec 32) (bmv2 : Bool)
    (a : FlagAddresses) (lid : LockId) (evs : List LockEvent) :
    let cf : Conf := { localhostId := localhostId, enbLocalGrants := lockSetup flags, bmv2 := bmv2 }
    (EveryRequest cf lid evs (fun l task op => ∀ garbage, AcquireContract cf a garbage l task op)
      ↔ EveryRequest cf lid evs fun l _ op => OnTheSpot cf l op)
    ∧ (EveryRequest cf lid evs (fun l task op => ∀ garbage, AsyncContract cf a garbage l task op)
      ↔ EveryRequest cf lid evs fun l task op => ValidOp op →
          OnTheSpot cf l op ∨ HasHandle cf l ∧ l.taskGranted task = false) := by
  intro cf
  constructor
  · exact EveryRequest.congr fun l task op hu => acquireContract_iff hu
  · exact EveryRequest.congr fun l task op hu => asyncContract_iff hu

/-- The flag of a task, in an array of nodes of 16 bytes. -/
def nodeAddr (t : TaskId) : BitVec 64 := BitVec.ofNat 64 (16 * t.toNat + 12)

lemma nodeAddr_toNat (t : TaskId) : (nodeAddr t).toNat = 16 * t.toNat + 12 := by
  rw [nodeAddr, BitVec.toNat_ofNat]
  have := t.isLt
  omega

/-- Flags in nodes of 16 bytes, one behind the other. -/
def nodeAddresses : FlagAddresses where
  addr := nodeAddr
  task a :=
    if a.toNat % 16 = 12 ∧ a.toNat / 16 < 2 ^ 32 then some (BitVec.ofNat 32 (a.toNat / 16))
    else none
  task_eq_some := by
    intro a t
    have ht := t.isLt
    rw [← BitVec.toNat_inj (x := a), nodeAddr_toNat]
    split
    · rw [Option.some.injEq, ← BitVec.toNat_inj, BitVec.toNat_ofNat]
      omega
    · simp only [reduceCtorEq, false_iff]
      omega
  aligned := by
    intro t
    rw [nodeAddr_toNat]
    omega
  userSpace := by
    intro t
    have ht := t.isLt
    rw [nodeAddr_toNat]
    omega

/-- The settings of host 1 with local grants enabled. -/
def grantingHost : Conf := { localhostId := 1, enbLocalGrants := lockSetup 1, bmv2 := false }

/-- The flag outlives the request: task 5 is granted the lock and releases it without a poll. -/
example : (lockRun grantingHost (InnetLock.init 7)
    [.acquire 5 .shared, .packet (sendPostGrant 7 1 5), .release 5]).taskGranted 5 = true := by
  decide +kernel

/-- `lock_acquire` returns 0 to the first task that asks, and the task does not hold the lock. -/
theorem acquire_contract_fails :
    ¬ ∀ (localhostId : HostId) (flags : BitVec 32) (bmv2 : Bool) (a : FlagAddresses) (lid : LockId)
      (evs : List LockEvent),
      let cf : Conf :=
        { localhostId := localhostId, enbLocalGrants := lockSetup flags, bmv2 := bmv2 }
      EveryRequest cf lid evs fun l task op =>
        ∀ garbage, AcquireContract cf a garbage l task op := by
  intro hall
  have hidle : Unconcerned grantingHost (InnetLock.init 7) 5 := by
    simp [Unconcerned, Holds, InnetLock.init]
  have hcontract :=
    hall 1 1 false nodeAddresses 7 [.acquire 5 .excl] [] 5 .excl List.prefix_rfl hidle 0
  have hzero : (lockAcquire grantingHost nodeAddresses 0 [] (InnetLock.init 7) 5 .excl).2 = 0 := by
    decide +kernel
  have hfree : ¬ Holds grantingHost
      (lockAcquire grantingHost nodeAddresses 0 [] (InnetLock.init 7) 5 .excl).1 5 := by
    rw [Holds, not_or]
    exact ⟨by decide +kernel, by decide +kernel⟩
  exact hfree (hcontract.blocking [] hzero)

end FissLock
