import FissLock.Baseline.ParLock

/-!
# Taking the shared requests out of a queue

The loop of `dequeue_shared_requests` erases from the deque that it runs over.  An erasure makes the
iterator invalid, so the loop remembers in `prev_idx` the index of the last entry that it left in
the queue and goes on at `begin() + prev_idx + 1`.

`ParLock.lean` has this loop with an unbounded `prev_idx`.  Here `prev_idx` and the statistic
`cur_lock_queue_size` are what they are in the source, an `int` each: what happens when one of them
overflows is not defined, and then the loop below has no result.  `mem_dequeueSharedRequests_iff`
says which result it has, `dequeue_shared_requests_iff` for which queues it is the partition of the
queue into shared and other requests.
-/

namespace FissLock.ParLock.Dequeue

/-! ## `int` -/

/-- `x + 1` in an `int`. -/
def intInc (x : BitVec 32) : Option (BitVec 32) :=
  if x.saddOverflow 1 then none else some (x + 1)

/-- `x - 1` in an `int`. -/
def intDec (x : BitVec 32) : Option (BitVec 32) :=
  if x.ssubOverflow 1 then none else some (x - 1)

section Int

variable {x y : BitVec 32}

lemma mem_intInc_iff : y ∈ intInc x ↔ y.toInt = x.toInt + 1 := by
  have hone : (1 : BitVec 32).toInt = 1 := rfl
  have hy := y.toInt_lt
  have hy' := y.le_toInt
  rw [intInc]
  by_cases h : x.saddOverflow 1
  · rw [if_pos h]
    simp only [BitVec.saddOverflow, hone, Bool.or_eq_true, decide_eq_true_eq] at h
    refine ⟨nofun, fun hadd => ?_⟩
    omega
  · rw [if_neg h, Option.mem_some_iff, ← BitVec.toInt_inj, BitVec.toInt_add_of_not_saddOverflow h,
      hone, eq_comm]

lemma mem_intDec_iff : y ∈ intDec x ↔ y.toInt = x.toInt - 1 := by
  have hone : (1 : BitVec 32).toInt = 1 := rfl
  have hy := y.toInt_lt
  have hy' := y.le_toInt
  rw [intDec]
  by_cases h : x.ssubOverflow 1
  · rw [if_pos h]
    simp only [BitVec.ssubOverflow, hone, Bool.or_eq_true, decide_eq_true_eq] at h
    refine ⟨nofun, fun hsub => ?_⟩
    omega
  · rw [if_neg h, Option.mem_some_iff, ← BitVec.toInt_inj, BitVec.toInt_sub_of_not_ssubOverflow h,
      hone, eq_comm]

/-- Every number in the range of `int` is one. -/
lemma exists_toInt_eq {z : ℤ} (hlo : -2 ^ 31 ≤ z) (hhi : z < 2 ^ 31) :
    ∃ x : BitVec 32, x.toInt = z := by
  refine ⟨BitVec.ofInt 32 z, ?_⟩
  rw [BitVec.toInt_ofInt, Int.bmod_def]
  omega

end Int

/-! ## The loop -/

/-- The variables of the loop.  `iter` is an offset from `begin()`, and `cur_lock_queue_size` the
element of the core that runs the loop. -/
structure Loop where
  requestQueue : List LockQueueEntry
  iter : ℤ
  prevIdx : BitVec 32
  result : List LockQueueEntry
  curLockQueueSize : BitVec 32

/-- What is left when the function returns. -/
structure Returned where
  requestQueue : List LockQueueEntry
  result : List LockQueueEntry
  curLockQueueSize : BitVec 32
  deriving DecidableEq, Repr

def Loop.returned (s : Loop) : Returned := ⟨s.requestQueue, s.result, s.curLockQueueSize⟩

/-- `*iter` -/
def Loop.deref (s : Loop) : Option LockQueueEntry :=
  if 0 ≤ s.iter then s.requestQueue[s.iter.toNat]? else none

/-- One round: the function returns or goes on to the next round, `none` is undefined behaviour.
Positions are computed as offsets: before an entry is left in the queue `begin() + prev_idx` is one
before the queue, and the `+ 1` leads back to `begin()`. -/
def round (s : Loop) : Option (Returned ⊕ Loop) :=
  if s.iter = s.requestQueue.length then some (.inl s.returned)
  else do
    let e ← s.deref
    if e.op = .lockShared then
      let curLockQueueSize ← intDec s.curLockQueueSize
      let s := { s with
        result := s.result ++ [e]
        requestQueue := s.requestQueue.eraseIdx s.iter.toNat
        curLockQueueSize := curLockQueueSize }
      if s.requestQueue = [] then return .inl s.returned
      else return .inr { s with iter := s.prevIdx.toInt + 1 }
    else
      let prevIdx ← intInc s.prevIdx
      return .inr { s with iter := s.iter + 1, prevIdx := prevIdx }

/-- Rounds are made until the function returns. -/
def loop : Loop →. Returned := PFun.fix fun s => Part.ofOption (round s)

def dequeueSharedRequests (requestQueue : List LockQueueEntry) (curLockQueueSize : BitVec 32) :
    Part Returned :=
  loop ⟨requestQueue, 0, -1, [], curLockQueueSize⟩

section Rounds

variable {e : LockQueueEntry} {pre rest result : List LockQueueEntry} {prevIdx size : BitVec 32}
  {out : Returned}

lemma mem_loop_iff {s : Loop} :
    out ∈ loop s ↔ .inl out ∈ round s ∨ ∃ s', .inr s' ∈ round s ∧ out ∈ loop s' := by
  refine PFun.mem_fix_iff.trans ?_
  simp only [Part.mem_ofOption]
  rfl

/-- At `end()`. -/
lemma mem_loop_nil :
    out ∈ loop ⟨pre, pre.length, prevIdx, result, size⟩ ↔ out = ⟨pre, result, size⟩ := by
  rw [mem_loop_iff]
  simp [round, Loop.returned, eq_comm]

/-- At an entry of the queue. -/
lemma deref_cons : (Loop.mk (pre ++ e :: rest) pre.length prevIdx result size).deref = some e := by
  simp [Loop.deref]

lemma round_cons : round ⟨pre ++ e :: rest, pre.length, prevIdx, result, size⟩
    = if e.op = .lockShared then
        (intDec size).map fun size =>
          if pre ++ rest = [] then .inl ⟨pre ++ rest, result ++ [e], size⟩
          else .inr ⟨pre ++ rest, prevIdx.toInt + 1, prevIdx, result ++ [e], size⟩
      else (intInc prevIdx).map fun prevIdx =>
        .inr ⟨pre ++ e :: rest, pre.length + 1, prevIdx, result, size⟩ := by
  have hend : ((pre.length : ℕ) : ℤ) ≠ (pre ++ e :: rest).length := by
    simp only [List.length_append, List.length_cons]
    omega
  have herase : (pre ++ e :: rest).eraseIdx pre.length = pre ++ rest := by
    rw [List.eraseIdx_append_of_length_le le_rfl]
    simp
  rw [round, if_neg hend, deref_cons]
  simp only [Option.bind_eq_bind, Option.bind_some, Int.toNat_natCast, herase, Option.map_eq_bind]
  split <;> congr 1
  funext size
  split <;> rfl

/-- An entry that is not shared is left in the queue. -/
lemma mem_loop_keep (hop : e.op ≠ .lockShared) :
    out ∈ loop ⟨pre ++ e :: rest, pre.length, prevIdx, result, size⟩
      ↔ ∃ prevIdx' : BitVec 32, prevIdx'.toInt = prevIdx.toInt + 1
        ∧ out ∈ loop ⟨pre ++ e :: rest, pre.length + 1, prevIdx', result, size⟩ := by
  rw [mem_loop_iff, round_cons, if_neg hop]
  simp only [Option.mem_map, reduceCtorEq, and_false, exists_false, false_or, Sum.inr.injEq]
  simp only [mem_intInc_iff]
  constructor
  · rintro ⟨_, ⟨i, hi, rfl⟩, hout⟩
    exact ⟨i, hi, hout⟩
  · rintro ⟨i, hi, hout⟩
    exact ⟨_, ⟨i, hi, rfl⟩, hout⟩

/-- A shared entry is taken out.  That the function returns at once when the queue is empty makes no
difference. -/
lemma mem_loop_take (hop : e.op = .lockShared) (hidx : prevIdx.toInt = pre.length - 1) :
    out ∈ loop ⟨pre ++ e :: rest, pre.length, prevIdx, result, size⟩
      ↔ ∃ size' : BitVec 32, size'.toInt = size.toInt - 1
        ∧ out ∈ loop ⟨pre ++ rest, pre.length, prevIdx, result ++ [e], size'⟩ := by
  have hiter : prevIdx.toInt + 1 = pre.length := by omega
  rw [mem_loop_iff, round_cons, if_pos hop, hiter]
  simp only [Option.mem_map, mem_intDec_iff]
  by_cases hnil : pre ++ rest = []
  · obtain ⟨rfl, rfl⟩ := List.append_eq_nil_iff.1 hnil
    simp only [hnil, if_true, Sum.inl.injEq, reduceCtorEq, and_false, exists_false, false_and,
      or_false]
    refine exists_congr fun size' => and_congr_right fun _ => ?_
    rw [eq_comm]
    exact mem_loop_nil.symm
  · simp only [hnil, if_false, reduceCtorEq, and_false, exists_false, false_or, Sum.inr.injEq]
    constructor
    · rintro ⟨_, ⟨size', hsize, rfl⟩, hout⟩
      exact ⟨size', hsize, hout⟩
    · rintro ⟨size', hsize, hout⟩
      exact ⟨_, ⟨size', hsize, rfl⟩, hout⟩

end Rounds

/-! ## What the loop returns -/

/-- The requests that are taken out. -/
def shared (q : List LockQueueEntry) : List LockQueueEntry := q.filter (·.op = .lockShared)

/-- The requests that are left. -/
def others (q : List LockQueueEntry) : List LockQueueEntry := q.filter (·.op ≠ .lockShared)

section Partition

variable {e : LockQueueEntry} {pre rest result : List LockQueueEntry} {prevIdx size : BitVec 32}
  {out : Returned}

@[simp] lemma shared_cons_of_shared (h : e.op = .lockShared) :
    shared (e :: rest) = e :: shared rest := by
  simp [shared, h]

@[simp] lemma shared_cons_of_other (h : e.op ≠ .lockShared) :
    shared (e :: rest) = shared rest := by
  simp [shared, h]

@[simp] lemma others_cons_of_shared (h : e.op = .lockShared) :
    others (e :: rest) = others rest := by
  simp [others, h]

@[simp] lemma others_cons_of_other (h : e.op ≠ .lockShared) :
    others (e :: rest) = e :: others rest := by
  simp [others, h]

/-- What the loop is to return when it has left `pre` in the queue, has taken `result` out of it, and
`rest` is still to come. -/
structure Splits (pre result rest : List LockQueueEntry) (size : BitVec 32) (out : Returned) :
    Prop where
  queue : out.requestQueue = pre ++ others rest
  taken : out.result = result ++ shared rest
  size : out.curLockQueueSize.toInt = size.toInt - (shared rest).length

lemma splits_nil : Splits pre result [] size out ↔ out = ⟨pre, result, size⟩ := by
  obtain ⟨q, taken, left⟩ := out
  constructor
  · rintro ⟨hq, htaken, hleft⟩
    rw [Returned.mk.injEq, ← BitVec.toInt_inj]
    exact ⟨by simpa [others] using hq, by simpa [shared] using htaken,
      by simpa [shared] using hleft⟩
  · rintro ⟨⟩
    constructor <;> simp [others, shared]

lemma splits_keep (hop : e.op ≠ .lockShared) :
    Splits pre result (e :: rest) size out ↔ Splits (pre ++ [e]) result rest size out := by
  constructor
  · rintro ⟨hq, htaken, hleft⟩
    exact ⟨by simpa [hop] using hq, by simpa [hop] using htaken, by simpa [hop] using hleft⟩
  · rintro ⟨hq, htaken, hleft⟩
    exact ⟨by simpa [hop] using hq, by simpa [hop] using htaken, by simpa [hop] using hleft⟩

lemma splits_take (hop : e.op = .lockShared) :
    Splits pre result (e :: rest) size out
      ↔ ∃ size' : BitVec 32, size'.toInt = size.toInt - 1
        ∧ Splits pre (result ++ [e]) rest size' out := by
  constructor
  · rintro ⟨hq, htaken, hleft⟩
    rw [shared_cons_of_shared hop, List.length_cons, Nat.cast_succ] at hleft
    -- the statistic after this entry lies between its first and its last value
    have hlo := out.curLockQueueSize.le_toInt
    have hhi := size.toInt_lt
    obtain ⟨size', hsize⟩ : ∃ size' : BitVec 32, size'.toInt = size.toInt - 1 :=
      exists_toInt_eq (by omega) (by omega)
    exact ⟨size', hsize, by simpa [hop] using hq, by simpa [hop] using htaken, by omega⟩
  · rintro ⟨size', hsize, hq, htaken, hleft⟩
    refine ⟨by simpa [hop] using hq, by simpa [hop] using htaken, ?_⟩
    rw [shared_cons_of_shared hop, List.length_cons, Nat.cast_succ]
    omega

/-- **The loop from an entry of the queue on.**  `prev_idx` is the index of the last entry that was
left in the queue, so it can count `2 ^ 31` of them. -/
lemma mem_loop_iff_splits (rest : List LockQueueEntry) :
    ∀ {pre result : List LockQueueEntry} {prevIdx size : BitVec 32},
      prevIdx.toInt = pre.length - 1 →
      (out ∈ loop ⟨pre ++ rest, pre.length, prevIdx, result, size⟩
        ↔ pre.length + (others rest).length ≤ 2 ^ 31 ∧ Splits pre result rest size out) := by
  induction rest with
  | nil =>
      intro pre result prevIdx size hidx
      have hfits : pre.length + (others []).length ≤ 2 ^ 31 := by
        have := prevIdx.toInt_lt
        rw [others, List.filter_nil, List.length_nil]
        omega
      rw [List.append_nil, mem_loop_nil, splits_nil]
      exact (and_iff_right hfits).symm
  | cons e rest ih =>
      intro pre result prevIdx size hidx
      by_cases hop : e.op = .lockShared
      · rw [mem_loop_take hop hidx, splits_take hop, others_cons_of_shared hop]
        simp only [ih hidx]
        constructor
        · rintro ⟨size', hsize, hfits, hsplits⟩
          exact ⟨hfits, size', hsize, hsplits⟩
        · rintro ⟨hfits, size', hsize, hsplits⟩
          exact ⟨size', hsize, hfits, hsplits⟩
      · have happ : pre ++ e :: rest = (pre ++ [e]) ++ rest := by simp
        have hlen : ((pre ++ [e]).length : ℤ) = pre.length + 1 := by simp
        have hlen' : (pre ++ [e]).length = pre.length + 1 := by simp
        rw [mem_loop_keep hop, splits_keep hop, others_cons_of_other hop, happ, ← hlen,
          List.length_cons]
        constructor
        · rintro ⟨prevIdx', hidx', hout⟩
          obtain ⟨hfits, hsplits⟩ := (ih (by omega)).1 hout
          exact ⟨by omega, hsplits⟩
        · rintro ⟨hfits, hsplits⟩
          obtain ⟨prevIdx', hidx'⟩ : ∃ prevIdx' : BitVec 32, prevIdx'.toInt = prevIdx.toInt + 1 :=
            exists_toInt_eq (by omega) (by omega)
          exact ⟨prevIdx', hidx', (ih (by omega)).2 ⟨by omega, hsplits⟩⟩

/-- **What `dequeue_shared_requests` returns.** -/
lemma mem_dequeueSharedRequests_iff (q : List LockQueueEntry) :
    out ∈ dequeueSharedRequests q size
      ↔ (others q).length ≤ 2 ^ 31 ∧ Splits [] [] q size out := by
  have hstart : (-1 : BitVec 32).toInt = (([] : List LockQueueEntry).length : ℤ) - 1 := rfl
  rw [← Nat.zero_add (others q).length]
  exact mem_loop_iff_splits q hstart

/-- Where this loop returns, the one with the unbounded `prev_idx` returns the same. -/
theorem dequeueSharedRequests_eq_of_mem {lq : LockQueue}
    (h : out ∈ dequeueSharedRequests lq.requestQueue size) :
    ParLock.dequeueSharedRequests lq
      = ({ lq with requestQueue := out.requestQueue }, out.result) := by
  obtain ⟨-, hsplits⟩ := (mem_dequeueSharedRequests_iff _).1 h
  rw [dequeueSharedRequests_eq, hsplits.queue, hsplits.taken]
  rfl

end Partition

/-- The function returns the shared requests in the order of the queue, leaves the others in theirs,
and has decremented the statistic once for each request that it returns. -/
def Partitions (q : List LockQueueEntry) (curLockQueueSize : BitVec 32) : Prop :=
  ∃ out ∈ dequeueSharedRequests q curLockQueueSize,
    out.result = q.filter (·.op = .lockShared)
      ∧ out.requestQueue = q.filter (·.op ≠ .lockShared)
      ∧ out.curLockQueueSize.toInt = curLockQueueSize.toInt - out.result.length

/-- **When the queue is partitioned.**  `prev_idx` must not overflow when the requests that stay are
counted, nor the statistic when it is decremented for those that go. -/
theorem dequeue_shared_requests_iff (q : List LockQueueEntry) (curLockQueueSize : BitVec 32) :
    Partitions q curLockQueueSize
      ↔ q.countP (·.op ≠ .lockShared) ≤ 2 ^ 31
        ∧ -2 ^ 31 + (q.countP (·.op = .lockShared) : ℤ) ≤ curLockQueueSize.toInt := by
  rw [List.countP_eq_length_filter, List.countP_eq_length_filter]
  constructor
  · rintro ⟨out, hout, htaken, -, hleft⟩
    obtain ⟨hfits, -⟩ := (mem_dequeueSharedRequests_iff q).1 hout
    have hlo := out.curLockQueueSize.le_toInt
    rw [htaken] at hleft
    exact ⟨hfits, by omega⟩
  · rintro ⟨hfits, hstat⟩
    have hhi := curLockQueueSize.toInt_lt
    obtain ⟨left, hleft⟩ : ∃ left : BitVec 32,
        left.toInt = curLockQueueSize.toInt - (shared q).length :=
      exists_toInt_eq (by rw [shared]; omega) (by omega)
    refine ⟨⟨others q, shared q, left⟩, (mem_dequeueSharedRequests_iff q).2 ⟨hfits, ?_⟩, ?_⟩
    · exact ⟨rfl, rfl, hleft⟩
    · exact ⟨rfl, rfl, hleft⟩

/-! ## A queue that is too long -/

/-- The exclusive requests of `n` tasks of host 2. -/
def exclusives (n : ℕ) : List LockQueueEntry :=
  (List.range n).map fun i => ⟨.lockExcl, BitVec.ofNat 32 i, 2⟩

lemma others_exclusives (n : ℕ) : others (exclusives n) = exclusives n := by
  rw [others, List.filter_eq_self]
  intro e he
  obtain ⟨i, -, rfl⟩ := List.mem_map.1 he
  rfl

/-- Two shared requests with `2 ^ 31 + 1` exclusive ones between them. -/
theorem dequeue_shared_requests_fails :
    ¬ Partitions (⟨.lockShared, 0, 1⟩ :: (exclusives (2 ^ 31 + 1) ++ [⟨.lockShared, 1, 1⟩])) 0 := by
  rintro ⟨out, hout, -⟩
  obtain ⟨hfits, -⟩ := (mem_dequeueSharedRequests_iff _).1 hout
  rw [others_cons_of_shared rfl, others, List.filter_append, ← others, others_exclusives,
    List.length_append, exclusives, List.length_map, List.length_range] at hfits
  omega

end FissLock.ParLock.Dequeue
