import FissLock.Library.Ring
import FissLock.Library.Runs

/-!
# The ring buffer of the NetLock switch

The switch keeps the requests of a lock in the slots from `left` to `right` of its register arrays,
in the order in which they came.  `tail` is the slot written last and `head` the one freed last;
`slots_two_sides_register` counts the free slots (`lo`) and the requests parked at the server (`hi`),
`shared_and_exclusive_count_register` the shared (`hi`) and exclusive (`lo`) requests in the slots.
An ACQUIRE takes a free slot if no request is parked, and is forwarded to the server otherwise; a
PUSH_BACK brings a parked request back; a RELEASE frees the first slot.

Five registers are updated one by one, each by the arithmetic of its own, and nothing compares them.
`switch_queue_iff` says exactly when they stay in step.

This is `Decode`, `AcquireLock` and `ReleaseLock` of `ingress.p4` for one lock that the switch knows.
Metadata fields are zero until they are assigned.  The tables that choose ports and backup servers
are left out.
-/

namespace FissLock.NetLock.Switch

open Runs Ring Function

/-! ## Headers and registers -/

abbrev ACQUIRE_LOCK : BitVec 8 := 0

abbrev RELEASE_LOCK : BitVec 8 := 1

abbrev PUSH_BACK_LOCK : BitVec 8 := 2

abbrev GRANT_LOCK_FROM_SERVER : BitVec 8 := 3

abbrev DIRECT_GRANT_FROM_SWITCH : BitVec 8 := 4

abbrev SHARED_LOCK : BitVec 8 := 0

abbrev EXCLUSIVE_LOCK : BitVec 8 := 1

/-- The fields of `nlk_hdr` that are read, and the source address of the packet. -/
structure NlkHdr where
  recircFlag : BitVec 8
  op : BitVec 8
  mode : BitVec 8
  clientId : BitVec 8
  tid : BitVec 32
  timestampLo : BitVec 32
  timestampHi : BitVec 32
  srcAddr : BitVec 32
  deriving DecidableEq, Repr

structure RecirculateHdr where
  dequeuedMode : BitVec 8
  curHead : BitVec 32
  curTail : BitVec 32
  deriving DecidableEq, Repr

/-- `bit<32> lo; bit<32> hi`. -/
structure Pair where
  lo : BitVec 32
  hi : BitVec 32
  deriving DecidableEq, Repr

/-- What a slot holds of a request. -/
structure Slot where
  ip : BitVec 32
  mode : BitVec 8
  clientId : BitVec 8
  tid : BitVec 32
  timestampHi : BitVec 32
  timestampLo : BitVec 32
  deriving DecidableEq, Repr

/-- The request of a packet. -/
def NlkHdr.slot (hdr : NlkHdr) : Slot :=
  ⟨hdr.srcAddr, hdr.mode, hdr.clientId, hdr.tid, hdr.timestampHi, hdr.timestampLo⟩

/-- The six register arrays that hold the slots. -/
structure Arrays where
  ip : BitVec 32 → BitVec 32
  mode : BitVec 32 → BitVec 8
  clientId : BitVec 32 → BitVec 8
  tid : BitVec 32 → BitVec 32
  timestampHi : BitVec 32 → BitVec 32
  timestampLo : BitVec 32 → BitVec 32

/-- The `update_*_array_alu`, which all write at `ig_md.tail`. -/
def Arrays.write (a : Arrays) (tail : BitVec 32) (hdr : NlkHdr) : Arrays where
  ip := update a.ip tail hdr.srcAddr
  mode := update a.mode tail hdr.mode
  clientId := update a.clientId tail hdr.clientId
  tid := update a.tid tail hdr.tid
  timestampHi := update a.timestampHi tail hdr.timestampHi
  timestampLo := update a.timestampLo tail hdr.timestampLo

/-- The slot at an index of the arrays. -/
def Arrays.slot (a : Arrays) (i : BitVec 32) : Slot :=
  ⟨a.ip i, a.mode i, a.clientId i, a.tid i, a.timestampHi i, a.timestampLo i⟩

/-- The registers of a lock. -/
structure Registers where
  left : BitVec 32
  right : BitVec 32
  queueSizeOp : BitVec 32
  slotsTwoSides : Pair
  sharedAndExclusiveCount : Pair
  head : BitVec 32
  tail : BitVec 32
  arrays : Arrays

/-! ## The register actions -/

/-- The result is `hi` after the update. -/
def decEmptySlotsAlu (queueSizeOp : BitVec 32) (value : Pair) : Pair × BitVec 32 :=
  let value :=
    if 0 < value.lo ∧ value.hi + queueSizeOp ≤ 0 then { value with lo := value.lo - 1 }
    else { value with hi := value.hi + 1 }
  (value, value.hi)

/-- The result is `lo` before the update. -/
def pushBackAlu (value : Pair) : Pair × BitVec 32 :=
  (⟨if 0 < value.lo then value.lo - 1 else value.lo, value.hi - 1⟩, value.lo)

def acquireSharedLockAlu (value : Pair) : Pair × BitVec 32 :=
  if 0 < value.lo then ({ value with hi := value.hi + 1 }, value.hi + 1)
  else ({ value with hi := value.hi + 1 }, 0)

def acquireExclusiveLockAlu (value : Pair) : Pair × BitVec 32 :=
  if 0 < value.lo ∨ 0 < value.hi then ({ value with lo := value.lo + 1 }, 1)
  else ({ value with lo := value.lo + 1 }, 0)

def updateTailAlu (left right value : BitVec 32) : BitVec 32 :=
  if value = right then left else value + 1

def updateLockAlu (mode : BitVec 8) (value : Pair) : Pair :=
  if mode = EXCLUSIVE_LOCK then { value with lo := value.lo - 1 }
  else if mode = SHARED_LOCK then { value with hi := value.hi - 1 }
  else value

def updateHeadAlu (left right value : BitVec 32) : BitVec 32 :=
  if value = right then left else value + 1

/-- The result is `lo` before the update. -/
def incEmptySlotsAlu (sizeOfQueue : BitVec 32) (value : Pair) : Pair × BitVec 32 :=
  (if value.lo ≤ sizeOfQueue then { value with lo := value.lo + 1 } else value, value.lo)

/-- `get_size_of_queue_action` of `Decode`. -/
def sizeOfQueue (r : Registers) : BitVec 32 := r.right - r.left

/-! ## The controls -/

/-- What becomes of a packet. -/
inductive Verdict where
  /-- `forward_to_server_table`, with the fields that it sets. -/
  | toServer (emptySlots head tail : BitVec 32)
  /-- `notify_tail_client_table`: back to the sender. -/
  | notifyClient (op : BitVec 8) (emptySlots head tail : BitVec 32)
  | drop
  /-- `resubmit_table`: once more through the ingress, with the address of the first request. -/
  | recirculate (dstAddr : BitVec 32) (recircFlag dequeuedMode : BitVec 8)
      (curHead curTail : BitVec 32)
  deriving DecidableEq, Repr

def Verdict.isToServer : Verdict → Bool
  | .toServer _ _ _ => true
  | _ => false

/-- `AcquireLock.apply`. -/
def acquireLock (r : Registers) (hdr : NlkHdr) : Registers × Verdict :=
  -- `dec_empty_slots_table` has entries for the two operations
  let (slots, lengthInServer, emptySlots) : Pair × BitVec 32 × BitVec 32 :=
    if hdr.op = ACQUIRE_LOCK then
      let (slots, length) := decEmptySlotsAlu r.queueSizeOp r.slotsTwoSides
      (slots, length, 0)
    else if hdr.op = PUSH_BACK_LOCK then
      let (slots, empty) := pushBackAlu r.slotsTwoSides
      (slots, 0, empty)
    else (r.slotsTwoSides, 0, 0)
  let r := { r with slotsTwoSides := slots }
  if lengthInServer ≠ 0 ∧ (hdr.op = ACQUIRE_LOCK ∨ hdr.op = PUSH_BACK_LOCK) then
    (r, .toServer emptySlots 0 0)
  else
    -- `acquire_lock_table` has entries for the two modes
    let (counts, locked) : Pair × BitVec 32 :=
      if hdr.mode = SHARED_LOCK then acquireSharedLockAlu r.sharedAndExclusiveCount
      else if hdr.mode = EXCLUSIVE_LOCK then acquireExclusiveLockAlu r.sharedAndExclusiveCount
      else (r.sharedAndExclusiveCount, 0)
    let tail := updateTailAlu r.left r.right r.tail
    let r := { r with
      sharedAndExclusiveCount := counts
      tail := tail
      arrays := r.arrays.write tail hdr }
    if locked = 0 then
      (r, .notifyClient (if hdr.op = ACQUIRE_LOCK then DIRECT_GRANT_FROM_SWITCH else hdr.op)
        lengthInServer 0 tail)
    else (r, .drop)

/-- The end of `ReleaseLock.apply` for a packet that goes on to the next slot: `recirc_flag` is what
it came with, and `flag`, `dequeuedMode` what it goes on with, if it does. -/
def nextSlot (r : Registers) (head tail : BitVec 32) (again : Bool) (flag dequeuedMode : BitVec 8) :
    Verdict :=
  let next := if head = r.right then r.left else head + 1
  if head ≠ tail ∧ again = true then
    .recirculate (r.arrays.slot head).ip flag dequeuedMode next tail
  else .drop

/-- `ReleaseLock.apply`.  The second result is the request whose client the mirrored packet
notifies, if there is one. -/
def releaseLock (r : Registers) (hdr : NlkHdr) (rc : RecirculateHdr) :
    Registers × Option Slot × Verdict :=
  if hdr.recircFlag = 0 then
    let size := sizeOfQueue r
    let (slots, emptySlotsBeforePop) := incEmptySlotsAlu size r.slotsTwoSides
    let head := updateHeadAlu r.left r.right r.head
    let r := { r with
      slotsTwoSides := slots
      head := head
      sharedAndExclusiveCount := updateLockAlu hdr.mode r.sharedAndExclusiveCount }
    if emptySlotsBeforePop = size then (r, none, .toServer emptySlotsBeforePop head 0)
    else (r, none, nextSlot r head r.tail true 1 (r.arrays.slot head).mode)
  else
    -- a packet that comes round again reads the registers only
    let slot := r.arrays.slot rc.curHead
    if hdr.recircFlag = 1 ∧ (rc.dequeuedMode = EXCLUSIVE_LOCK ∨ slot.mode = EXCLUSIVE_LOCK)
        ∨ hdr.recircFlag = 2 ∧ slot.mode = SHARED_LOCK then
      (r, some slot, nextSlot r rc.curHead rc.curTail
        (decide (hdr.recircFlag = 1 ∧ slot.mode = SHARED_LOCK ∨ hdr.recircFlag = 2)) 2
        rc.dequeuedMode)
    else (r, none, .drop)

/-! ## Runs -/

/-- What the control plane writes for a lock: `lk_num` slots behind `start_bound`. -/
structure Config where
  startBound : BitVec 32
  lkNum : BitVec 32
  pos : 0 < lkNum.toNat
  fits : startBound.toNat + lkNum.toNat < 2 ^ 32

def Config.registers (c : Config) (arrays : Arrays) : Registers where
  left := c.startBound + 1
  right := c.startBound + c.lkNum
  queueSizeOp := 0
  slotsTwoSides := ⟨c.lkNum, 0⟩
  sharedAndExclusiveCount := ⟨0, 0⟩
  head := c.startBound + 1
  tail := c.startBound + 1
  arrays := arrays

/-- The registers, and the requests that were enqueued and not yet released. -/
structure SwitchQueue where
  regs : Registers
  queue : List Slot

/-- The header is not valid in a packet that comes for the first time. -/
def RecirculateHdr.invalid : RecirculateHdr := ⟨0, 0, 0⟩

section Steps

variable (s : SwitchQueue) (hdr : NlkHdr)

/-- A request comes; one is pushed back only if it was parked and there is room. -/
def SwitchQueue.Enters : Prop :=
  hdr.op = ACQUIRE_LOCK
    ∨ hdr.op = PUSH_BACK_LOCK ∧ 0 < s.regs.slotsTwoSides.lo ∧ 0 < s.regs.slotsTwoSides.hi

/-- A release comes for the first time, and there is a request to release. -/
def SwitchQueue.Leaves : Prop := hdr.op = RELEASE_LOCK ∧ hdr.recircFlag = 0 ∧ s.queue ≠ []

instance : Decidable (s.Enters hdr) := inferInstanceAs (Decidable (_ ∨ _))

instance : Decidable (s.Leaves hdr) := inferInstanceAs (Decidable (_ ∧ _))

/-- The step function. -/
def SwitchQueue.step : Option SwitchQueue :=
  if s.Enters hdr then
    let (regs, verdict) := acquireLock s.regs hdr
    some ⟨regs, if verdict.isToServer then s.queue else s.queue ++ [hdr.slot]⟩
  else if s.Leaves hdr then
    some ⟨(releaseLock s.regs hdr .invalid).1, s.queue.tail⟩
  else none

/-- The registers agree with the queue. -/
structure InStep : Prop where
  head_mem : s.regs.left ≤ s.regs.head ∧ s.regs.head ≤ s.regs.right
  tail_mem : s.regs.left ≤ s.regs.tail ∧ s.regs.tail ≤ s.regs.right
  /-- The live entries are as many as slots are taken, -/
  slots : s.queue.length + s.regs.slotsTwoSides.lo.toNat = (s.regs.right - s.regs.left).toNat + 1
  /-- and as the shared and exclusive requests together. -/
  counts : s.queue.length
    = s.regs.sharedAndExclusiveCount.hi.toNat + s.regs.sharedAndExclusiveCount.lo.toNat
  /-- The tail is the head advanced by their number. -/
  tail : s.regs.tail = (updateHeadAlu s.regs.left s.regs.right)^[s.queue.length] s.regs.head
  /-- The slots behind the head hold what was enqueued, in this order. -/
  contents : Holds (updateHeadAlu s.regs.left s.regs.right) s.regs.arrays.slot s.regs.head s.queue

/-- A packet that leads to `s'` does what it should. -/
structure StepOk (s' : SwitchQueue) : Prop where
  inStep : InStep s'
  /-- A request is forwarded, which leaves the queue and its registers alone, or it is enqueued in a
  slot that is not live. -/
  entered : s.Enters hdr →
    (acquireLock s.regs hdr).2.isToServer = true ∧ s'.queue = s.queue
        ∧ s'.regs = { s.regs with slotsTwoSides := s'.regs.slotsTwoSides }
      ∨ (acquireLock s.regs hdr).2.isToServer = false ∧ s'.queue = s.queue ++ [hdr.slot]
        ∧ s'.regs.arrays = s.regs.arrays.write s'.regs.tail hdr
        ∧ ∀ k < s.queue.length,
          s'.regs.tail ≠ (updateHeadAlu s.regs.left s.regs.right)^[k + 1] s.regs.head
  /-- A release takes out the first request, and is forwarded exactly if that was the last one. -/
  left : s.Leaves hdr → s'.queue = s.queue.tail
    ∧ ((releaseLock s.regs hdr .invalid).2.2.isToServer = true ↔ s.queue.length = 1)

/-- An ACQUIRE finds no slot that it may take. -/
def Parks : Prop :=
  hdr.op = ACQUIRE_LOCK ∧ ¬ (0 < s.regs.slotsTwoSides.lo ∧ s.regs.slotsTwoSides.hi = 0)

/-- The count of the requests in a mode. -/
def countOf (mode : BitVec 8) (value : Pair) : BitVec 32 :=
  if mode = EXCLUSIVE_LOCK then value.lo else value.hi

/-- **The condition.**  A request is parked only while the server has fewer than `2 ^ 32 - 1`; what
enters or leaves the queue is shared or exclusive; and a release is made in a mode of which a
request is counted. -/
def Meets : Prop :=
  (Parks s hdr → s.regs.slotsTwoSides.hi ≠ 0xffffffff#32)
    ∧ (s.Enters hdr ∧ ¬ Parks s hdr ∨ s.Leaves hdr →
      hdr.mode = SHARED_LOCK ∨ hdr.mode = EXCLUSIVE_LOCK)
    ∧ (s.Leaves hdr → countOf hdr.mode s.regs.sharedAndExclusiveCount ≠ 0)

end Steps

/-! ## What a packet does -/

section Effects

variable {r : Registers} {hdr : NlkHdr}

/-- The counts when a request of a mode is enqueued. -/
def countIn (mode : BitVec 8) (value : Pair) : Pair :=
  if mode = SHARED_LOCK then { value with hi := value.hi + 1 }
  else if mode = EXCLUSIVE_LOCK then { value with lo := value.lo + 1 }
  else value

/-- The registers when a request is enqueued. -/
def Registers.enqueue (r : Registers) (slots : Pair) (hdr : NlkHdr) : Registers :=
  { r with
    slotsTwoSides := slots
    sharedAndExclusiveCount := countIn hdr.mode r.sharedAndExclusiveCount
    tail := updateTailAlu r.left r.right r.tail
    arrays := r.arrays.write (updateTailAlu r.left r.right r.tail) hdr }

lemma acquireSharedLockAlu_fst (value : Pair) :
    (acquireSharedLockAlu value).1 = { value with hi := value.hi + 1 } := by
  unfold acquireSharedLockAlu
  split <;> rfl

lemma acquireExclusiveLockAlu_fst (value : Pair) :
    (acquireExclusiveLockAlu value).1 = { value with lo := value.lo + 1 } := by
  unfold acquireExclusiveLockAlu
  split <;> rfl

/-- What is not forwarded is enqueued, whether or not the client is notified. -/
lemma acquireLock_enqueue {slots : Pair}
    (hslots : hdr.op = ACQUIRE_LOCK ∧ decEmptySlotsAlu r.queueSizeOp r.slotsTwoSides = (slots, 0)
      ∨ hdr.op = PUSH_BACK_LOCK ∧ (pushBackAlu r.slotsTwoSides).1 = slots) :
    (acquireLock r hdr).1 = r.enqueue slots hdr
      ∧ (acquireLock r hdr).2.isToServer = false := by
  obtain ⟨locked, hcount⟩ : ∃ locked, (if hdr.mode = SHARED_LOCK then
      acquireSharedLockAlu r.sharedAndExclusiveCount
      else if hdr.mode = EXCLUSIVE_LOCK then acquireExclusiveLockAlu r.sharedAndExclusiveCount
      else (r.sharedAndExclusiveCount, 0)) = (countIn hdr.mode r.sharedAndExclusiveCount, locked) := by
    unfold countIn
    split
    · exact ⟨_, Prod.ext (acquireSharedLockAlu_fst _) rfl⟩
    · split
      · exact ⟨_, Prod.ext (acquireExclusiveLockAlu_fst _) rfl⟩
      · exact ⟨0, rfl⟩
  rcases hslots with ⟨hop, hdec⟩ | ⟨hop, hpush⟩
  · simp only [acquireLock, if_pos hop, hdec, ne_eq, not_true, false_and, if_false, hcount]
    split <;> exact ⟨rfl, rfl⟩
  · have hne : hdr.op ≠ ACQUIRE_LOCK := by
      rw [hop]
      decide
    simp only [acquireLock, if_neg hne, if_pos hop, hpush, ne_eq, not_true, false_and, if_false,
      hcount]
    split <;> exact ⟨rfl, rfl⟩

lemma acquireLock_forward {slots : Pair} {length : BitVec 32} (hop : hdr.op = ACQUIRE_LOCK)
    (hslots : decEmptySlotsAlu r.queueSizeOp r.slotsTwoSides = (slots, length))
    (hlen : length ≠ 0) :
    (acquireLock r hdr).1 = { r with slotsTwoSides := slots }
      ∧ (acquireLock r hdr).2.isToServer = true := by
  simp only [acquireLock, if_pos hop, hslots]
  rw [if_pos ⟨hlen, .inl hop⟩]
  exact ⟨rfl, rfl⟩

/-- The registers when a request is released. -/
def Registers.dequeue (r : Registers) (mode : BitVec 8) : Registers :=
  { r with
    slotsTwoSides := { r.slotsTwoSides with lo := r.slotsTwoSides.lo + 1 }
    sharedAndExclusiveCount := updateLockAlu mode r.sharedAndExclusiveCount
    head := updateHeadAlu r.left r.right r.head }

lemma releaseLock_dequeue (hflag : hdr.recircFlag = 0) (rc : RecirculateHdr)
    (hlo : r.slotsTwoSides.lo ≤ sizeOfQueue r) :
    (releaseLock r hdr rc).1 = r.dequeue hdr.mode
      ∧ ((releaseLock r hdr rc).2.2.isToServer = true ↔ r.slotsTwoSides.lo = sizeOfQueue r) := by
  simp only [releaseLock, if_pos hflag, incEmptySlotsAlu, if_pos hlo]
  by_cases hlast : r.slotsTwoSides.lo = sizeOfQueue r
  · rw [if_pos hlast]
    exact ⟨rfl, by simp [Verdict.isToServer, hlast]⟩
  · rw [if_neg hlast]
    refine ⟨rfl, ?_⟩
    simp only [nextSlot, hlast, iff_false]
    split <;> simp [Verdict.isToServer]

/-- A packet that comes round again leaves the registers as they are. -/
lemma releaseLock_recirculated (hflag : hdr.recircFlag ≠ 0) (rc : RecirculateHdr) :
    (releaseLock r hdr rc).1 = r := by
  simp only [releaseLock, if_neg hflag]
  split <;> rfl

@[simp] lemma slot_write (a : Arrays) (tail : BitVec 32) :
    (a.write tail hdr).slot = update a.slot tail hdr.slot := by
  funext i
  by_cases hi : i = tail
  · subst hi
    simp [Arrays.write, Arrays.slot, NlkHdr.slot]
  · simp [Arrays.write, Arrays.slot, hi]

end Effects

/-! ## The invariant -/

/-- The registers agree with the queue, and are those of a lock with this configuration. -/
structure Inv (c : Config) (s : SwitchQueue) : Prop extends InStep s where
  left_eq : s.regs.left = c.startBound + 1
  right_eq : s.regs.right = c.startBound + c.lkNum
  op_eq : s.regs.queueSizeOp = 0

section Invariant

variable {c : Config} {s s' : SwitchQueue} {hdr : NlkHdr}

lemma Config.toNat_left (c : Config) : (c.startBound + 1).toNat = c.startBound.toNat + 1 := by
  have := c.fits
  have := c.pos
  rw [BitVec.toNat_add, show (1 : BitVec 32).toNat = 1 from rfl, Nat.mod_eq_of_lt (by omega)]

lemma Config.toNat_right (c : Config) :
    (c.startBound + c.lkNum).toNat = c.startBound.toNat + c.lkNum.toNat := by
  have := c.fits
  rw [BitVec.toNat_add, Nat.mod_eq_of_lt (by omega)]

/-- The ring has `lk_num` slots. -/
lemma Config.size (c : Config) :
    ((c.startBound + c.lkNum) - (c.startBound + 1)).toNat + 1 = c.lkNum.toNat := by
  have := c.pos
  rw [BitVec.toNat_sub_of_le, c.toNat_left, c.toNat_right]
  · omega
  · rw [BitVec.le_def, c.toNat_left, c.toNat_right]
    omega

lemma inv_registers (c : Config) (arrays : Arrays) : Inv c ⟨c.registers arrays, []⟩ where
  left_eq := rfl
  right_eq := rfl
  op_eq := rfl
  head_mem := by
    refine ⟨BitVec.le_refl _, ?_⟩
    rw [BitVec.le_def, Config.registers, c.toNat_left, c.toNat_right]
    have := c.pos
    omega
  tail_mem := by
    refine ⟨BitVec.le_refl _, ?_⟩
    rw [BitVec.le_def, Config.registers, c.toNat_left, c.toNat_right]
    have := c.pos
    omega
  slots := by
    rw [List.length_nil, Nat.zero_add]
    exact c.size.symm
  counts := rfl
  tail := rfl
  contents := holds_nil

/-- The period of the ring. -/
lemma InStep.period (hs : InStep s) :
    minimalPeriod (updateHeadAlu s.regs.left s.regs.right) s.regs.head
      = (s.regs.right - s.regs.left).toNat + 1 := by
  have hle : s.regs.left ≤ s.regs.right := BitVec.le_trans hs.head_mem.1 hs.head_mem.2
  rw [BitVec.toNat_sub_of_le hle]
  exact minimalPeriod_advance hs.head_mem

lemma InStep.next_tail (hs : InStep s) : updateTailAlu s.regs.left s.regs.right s.regs.tail
    = (updateHeadAlu s.regs.left s.regs.right)^[s.queue.length + 1] s.regs.head := by
  rw [iterate_succ_apply', ← hs.tail]
  rfl

/-- Of the slots behind the queue the next one is free. -/
lemma InStep.next_tail_not_live (hs : InStep s) (hlo : 0 < s.regs.slotsTwoSides.lo.toNat) {k : ℕ}
    (hk : k < s.queue.length) : updateTailAlu s.regs.left s.regs.right s.regs.tail
      ≠ (updateHeadAlu s.regs.left s.regs.right)^[k + 1] s.regs.head := by
  have hslots := hs.slots
  rw [hs.next_tail]
  refine next_tail_ne ?_ hk
  rw [hs.period]
  omega

lemma length_countIn {n : ℕ} {value : Pair} {mode : BitVec 8}
    (h : n = value.hi.toNat + value.lo.toNat) (hn : n + 1 < 2 ^ 32)
    (hmode : mode = SHARED_LOCK ∨ mode = EXCLUSIVE_LOCK) :
    n + 1 = (countIn mode value).hi.toNat + (countIn mode value).lo.toNat := by
  rcases hmode with rfl | rfl
  · rw [countIn, if_pos rfl]
    bv_omega
  · rw [countIn, if_neg (by decide), if_pos rfl]
    bv_omega

/-- The sum goes down with a release exactly if its count does not wrap around. -/
lemma length_updateLockAlu_iff {n : ℕ} {value : Pair} {mode : BitVec 8}
    (h : n + 1 = value.hi.toNat + value.lo.toNat)
    (hmode : mode = SHARED_LOCK ∨ mode = EXCLUSIVE_LOCK) :
    n = (updateLockAlu mode value).hi.toNat + (updateLockAlu mode value).lo.toNat
      ↔ countOf mode value ≠ 0 := by
  rcases hmode with rfl | rfl
  · rw [updateLockAlu, if_neg (by decide), if_pos rfl, countOf, if_neg (by decide)]
    bv_omega
  · rw [updateLockAlu, if_pos rfl, countOf, if_pos rfl]
    bv_omega

/-- The queue is not longer than the ring, which has fewer than `2 ^ 32` slots. -/
lemma Inv.length_lt (hi : Inv c s) :
    s.queue.length + s.regs.slotsTwoSides.lo.toNat < 2 ^ 32 := by
  have hsize := c.size
  rw [← hi.left_eq, ← hi.right_eq] at hsize
  have hfit := c.lkNum.isLt
  have hslots := hi.slots
  omega

/-- A request is enqueued in a free slot. -/
lemma Inv.enqueue (hi : Inv c s) (hlo : 0 < s.regs.slotsTwoSides.lo.toNat)
    (hmode : hdr.mode = SHARED_LOCK ∨ hdr.mode = EXCLUSIVE_LOCK) (parked : BitVec 32) :
    InStep ⟨s.regs.enqueue ⟨s.regs.slotsTwoSides.lo - 1, parked⟩ hdr, s.queue ++ [hdr.slot]⟩ where
  head_mem := hi.head_mem
  tail_mem := advance_mem hi.tail_mem
  slots := by
    have hslots := hi.slots
    rw [List.length_append, List.length_singleton]
    simp only [Registers.enqueue]
    bv_omega
  counts := by
    have hlen := hi.length_lt
    rw [List.length_append, List.length_singleton]
    exact length_countIn hi.counts (by omega) hmode
  tail := by
    rw [List.length_append, List.length_singleton]
    exact hi.next_tail
  contents := by
    have hroom : s.queue.length
        < minimalPeriod (updateHeadAlu s.regs.left s.regs.right) s.regs.head := by
      have hslots := hi.slots
      rw [hi.period]
      omega
    have := hi.contents.push hroom hdr.slot
    rw [← hi.next_tail] at this
    simpa only [Registers.enqueue, slot_write] using this

/-- There is a request to release exactly if not all slots are free. -/
lemma Inv.lo_le (hi : Inv c s) (hne : s.queue ≠ []) :
    s.regs.slotsTwoSides.lo ≤ sizeOfQueue s.regs := by
  have hslots := hi.slots
  have hpos := List.length_pos_of_ne_nil hne
  rw [sizeOfQueue, BitVec.le_def]
  omega

/-- Only one slot is taken exactly if there is one request. -/
lemma Inv.lo_eq_iff (hi : Inv c s) (hne : s.queue ≠ []) :
    s.regs.slotsTwoSides.lo = sizeOfQueue s.regs ↔ s.queue.length = 1 := by
  have hslots := hi.slots
  have hpos := List.length_pos_of_ne_nil hne
  rw [sizeOfQueue, ← BitVec.toNat_inj]
  omega

/-- The first request is released. -/
lemma Inv.dequeue (hi : Inv c s) {a : Slot} {q : List Slot} (hq : s.queue = a :: q)
    (hmode : hdr.mode = SHARED_LOCK ∨ hdr.mode = EXCLUSIVE_LOCK)
    (hcount : countOf hdr.mode s.regs.sharedAndExclusiveCount ≠ 0) :
    InStep ⟨s.regs.dequeue hdr.mode, q⟩ where
  head_mem := advance_mem hi.head_mem
  tail_mem := hi.tail_mem
  slots := by
    have hslots := hi.slots
    have hlen := hi.length_lt
    rw [hq, List.length_cons] at hslots hlen
    simp only [Registers.dequeue]
    rw [BitVec.toNat_add, show (1 : BitVec 32).toNat = 1 from rfl, Nat.mod_eq_of_lt (by omega)]
    omega
  counts := by
    have hcounts := hi.counts
    rw [hq, List.length_cons] at hcounts
    exact (length_updateLockAlu_iff hcounts hmode).2 hcount
  tail := by
    have htail := hi.tail
    rwa [hq, List.length_cons, iterate_succ_apply] at htail
  contents := by
    have hcontents := hi.contents
    rw [hq] at hcontents
    exact hcontents.pop

/-- Neither operation touches the configuration. -/
lemma Inv.of_inStep (hi : Inv c s) (hs : InStep s') (hl : s'.regs.left = s.regs.left)
    (hr : s'.regs.right = s.regs.right) (hop : s'.regs.queueSizeOp = s.regs.queueSizeOp) :
    Inv c s' := ⟨hs, hl.trans hi.left_eq, hr.trans hi.right_eq, hop.trans hi.op_eq⟩

/-- What an ACQUIRE does to the slots. -/
lemma Inv.decEmptySlots (hi : Inv c s) :
    decEmptySlotsAlu s.regs.queueSizeOp s.regs.slotsTwoSides
      = if 0 < s.regs.slotsTwoSides.lo ∧ s.regs.slotsTwoSides.hi = 0 then
          (⟨s.regs.slotsTwoSides.lo - 1, 0⟩, 0)
        else (⟨s.regs.slotsTwoSides.lo, s.regs.slotsTwoSides.hi + 1⟩,
          s.regs.slotsTwoSides.hi + 1) := by
  have hle : s.regs.slotsTwoSides.hi + s.regs.queueSizeOp ≤ 0 ↔ s.regs.slotsTwoSides.hi = 0 := by
    rw [hi.op_eq]
    bv_omega
  simp only [decEmptySlotsAlu, hle]
  split
  · next h => simp [h.2]
  · rfl

lemma not_leaves_of_enters (he : s.Enters hdr) : ¬ s.Leaves hdr := by
  rintro ⟨hop, -⟩
  rcases he with h | ⟨h, -⟩ <;> exact absurd (hop.symm.trans h) (by decide)

lemma step_of_enters (he : s.Enters hdr) :
    s.step hdr = some ⟨(acquireLock s.regs hdr).1,
      if (acquireLock s.regs hdr).2.isToServer then s.queue else s.queue ++ [hdr.slot]⟩ :=
  if_pos he

lemma step_of_leaves (hl : s.Leaves hdr) :
    s.step hdr = some ⟨(releaseLock s.regs hdr .invalid).1, s.queue.tail⟩ := by
  rw [SwitchQueue.step, if_neg fun he => not_leaves_of_enters he hl, if_pos hl]

lemma enters_or_leaves (h : s.step hdr = some s') : s.Enters hdr ∨ s.Leaves hdr := by
  by_contra hno
  obtain ⟨he, hl⟩ := not_or.1 hno
  rw [SwitchQueue.step, if_neg he, if_neg hl] at h
  cases h

/-- A request that is not parked takes a slot. -/
lemma Inv.enqueues (hi : Inv c s) (he : s.Enters hdr) (hp : ¬ Parks s hdr) :
    0 < s.regs.slotsTwoSides.lo.toNat ∧ ∃ parked,
      (acquireLock s.regs hdr).1 = s.regs.enqueue ⟨s.regs.slotsTwoSides.lo - 1, parked⟩ hdr
        ∧ (acquireLock s.regs hdr).2.isToServer = false := by
  rcases he with hop | ⟨hop, hlo, -⟩
  · have hfree : 0 < s.regs.slotsTwoSides.lo ∧ s.regs.slotsTwoSides.hi = 0 := by
      by_contra h
      exact hp ⟨hop, h⟩
    refine ⟨BitVec.lt_def.1 hfree.1, 0, acquireLock_enqueue (.inl ⟨hop, ?_⟩)⟩
    rw [hi.decEmptySlots, if_pos hfree]
  · refine ⟨BitVec.lt_def.1 hlo, s.regs.slotsTwoSides.hi - 1,
      acquireLock_enqueue (.inr ⟨hop, ?_⟩)⟩
    simp only [pushBackAlu, if_pos hlo]

/-- A request that finds no slot is parked, unless the count of those at the server wraps around. -/
lemma Inv.parks (hi : Inv c s) (hp : Parks s hdr)
    (hlt : s.regs.slotsTwoSides.hi ≠ 0xffffffff#32) :
    (acquireLock s.regs hdr).1 = { s.regs with
        slotsTwoSides := ⟨s.regs.slotsTwoSides.lo, s.regs.slotsTwoSides.hi + 1⟩ }
      ∧ (acquireLock s.regs hdr).2.isToServer = true := by
  have hdec := hi.decEmptySlots
  rw [if_neg hp.2] at hdec
  refine acquireLock_forward hp.1 hdec fun h => hlt ?_
  bv_omega

lemma Inv.step_parks (hi : Inv c s) (hp : Parks s hdr) :
    (∀ s' ∈ s.step hdr, StepOk s hdr s') ↔ s.regs.slotsTwoSides.hi ≠ 0xffffffff#32 := by
  have he : s.Enters hdr := .inl hp.1
  rw [step_of_enters he]
  by_cases hwrap : s.regs.slotsTwoSides.hi = 0xffffffff#32
  · -- the result is zero, and the request is enqueued without a slot
    refine iff_of_false (fun h => ?_) (fun h => h hwrap)
    have hdec := hi.decEmptySlots
    rw [if_neg hp.2, hwrap, show 0xffffffff#32 + 1 = 0 by decide] at hdec
    obtain ⟨hregs, hserver⟩ := acquireLock_enqueue (.inl ⟨hp.1, hdec⟩)
    have hslots := (h _ rfl).inStep.slots
    rw [hserver, hregs] at hslots
    have hold := hi.slots
    simp only [Registers.enqueue, Bool.false_eq_true, if_false, List.length_append,
      List.length_singleton] at hslots
    omega
  · refine iff_of_true ?_ hwrap
    obtain ⟨hregs, hserver⟩ := hi.parks hp hwrap
    rintro s' ⟨⟩
    rw [hregs, hserver]
    exact ⟨⟨hi.head_mem, hi.tail_mem, hi.slots, hi.counts, hi.tail, hi.contents⟩,
      fun _ => .inl ⟨hserver, rfl, rfl⟩, fun hl => absurd hl (not_leaves_of_enters he)⟩

/-- A request is enqueued as it should if it is shared or exclusive. -/
lemma Inv.step_enqueues (hi : Inv c s) (he : s.Enters hdr) (hp : ¬ Parks s hdr) :
    (∀ s' ∈ s.step hdr, StepOk s hdr s') ↔ hdr.mode = SHARED_LOCK ∨ hdr.mode = EXCLUSIVE_LOCK := by
  obtain ⟨hlo, parked, hregs, hserver⟩ := hi.enqueues he hp
  rw [step_of_enters he, hserver, hregs]
  constructor
  · intro h
    by_contra hmode
    obtain ⟨hsh, hex⟩ := not_or.1 hmode
    have hcounts := (h _ rfl).inStep.counts
    have hold := hi.counts
    simp only [Registers.enqueue, countIn, if_neg hsh, if_neg hex, Bool.false_eq_true, if_false,
      List.length_append, List.length_singleton] at hcounts
    omega
  · rintro hmode s' ⟨⟩
    exact ⟨hi.enqueue hlo hmode parked,
      fun _ => .inr ⟨hserver, rfl, rfl, fun k hk => hi.next_tail_not_live hlo hk⟩,
      fun hl => absurd hl (not_leaves_of_enters he)⟩

/-- A request is released as it should if it is shared or exclusive, and one of its mode is
counted. -/
lemma Inv.step_leaves (hi : Inv c s) (hl : s.Leaves hdr) :
    (∀ s' ∈ s.step hdr, StepOk s hdr s') ↔ (hdr.mode = SHARED_LOCK ∨ hdr.mode = EXCLUSIVE_LOCK)
      ∧ countOf hdr.mode s.regs.sharedAndExclusiveCount ≠ 0 := by
  obtain ⟨hregs, hserver⟩ := releaseLock_dequeue hl.2.1 .invalid (hi.lo_le hl.2.2)
  rw [step_of_leaves hl, hregs]
  obtain ⟨a, q, hq⟩ := List.exists_cons_of_ne_nil hl.2.2
  have hold := hi.counts
  rw [hq, List.length_cons] at hold
  constructor
  · intro h
    have hcounts := (h _ rfl).inStep.counts
    simp only [Registers.dequeue, hq, List.tail_cons] at hcounts
    have hmode : hdr.mode = SHARED_LOCK ∨ hdr.mode = EXCLUSIVE_LOCK := by
      by_contra hmode
      obtain ⟨hsh, hex⟩ := not_or.1 hmode
      simp only [updateLockAlu, if_neg hsh, if_neg hex] at hcounts
      omega
    exact ⟨hmode, (length_updateLockAlu_iff hold hmode).1 hcounts⟩
  · rintro ⟨hmode, hcount⟩ s' ⟨⟩
    refine ⟨?_, fun he => absurd hl (not_leaves_of_enters he),
      fun _ => ⟨rfl, hserver.trans (hi.lo_eq_iff hl.2.2)⟩⟩
    rw [hq]
    exact hi.dequeue hq hmode hcount

/-- **The step lemma.** -/
lemma Inv.step_iff (hi : Inv c s) :
    (∀ s' ∈ s.step hdr, StepOk s hdr s') ↔ Meets s hdr := by
  by_cases he : s.Enters hdr
  · have hl := not_leaves_of_enters he
    by_cases hp : Parks s hdr
    · rw [hi.step_parks hp, Meets]
      simp [hp, hl]
    · rw [hi.step_enqueues he hp, Meets]
      simp [hp, he, hl]
  · have hp : ¬ Parks s hdr := fun hp => he (.inl hp.1)
    by_cases hl : s.Leaves hdr
    · rw [hi.step_leaves hl, Meets]
      simp [hp, hl]
    · have hstep : s.step hdr = none := by rw [SwitchQueue.step, if_neg he, if_neg hl]
      rw [hstep, Meets]
      simp [hp, he, hl]

lemma acquireLock_config (r : Registers) (hdr : NlkHdr) : (acquireLock r hdr).1.left = r.left
    ∧ (acquireLock r hdr).1.right = r.right
    ∧ (acquireLock r hdr).1.queueSizeOp = r.queueSizeOp := by
  simp only [acquireLock]
  split_ifs <;> exact ⟨rfl, rfl, rfl⟩

lemma releaseLock_config (r : Registers) (hdr : NlkHdr) (rc : RecirculateHdr) :
    (releaseLock r hdr rc).1.left = r.left ∧ (releaseLock r hdr rc).1.right = r.right
      ∧ (releaseLock r hdr rc).1.queueSizeOp = r.queueSizeOp := by
  simp only [releaseLock]
  split_ifs <;> exact ⟨rfl, rfl, rfl⟩

lemma Inv.next (hi : Inv c s) (h : s' ∈ s.step hdr) (hok : StepOk s hdr s') : Inv c s' := by
  have hs := hok.inStep
  rcases enters_or_leaves h with he | hl
  · rw [step_of_enters he, Option.mem_some_iff] at h
    subst h
    obtain ⟨hl, hr, hop⟩ := acquireLock_config s.regs hdr
    exact hi.of_inStep hs hl hr hop
  · rw [step_of_leaves hl, Option.mem_some_iff] at h
    subst h
    obtain ⟨hl, hr, hop⟩ := releaseLock_config s.regs hdr .invalid
    exact hi.of_inStep hs hl hr hop

end Invariant

/-- **Exactly when the registers stay in step** with the queue and every packet does what it should:
if and only if all packets of the run meet the condition. -/
theorem switch_queue_iff (c : Config) (arrays : Arrays) (es : List NlkHdr) :
    (InStep ⟨c.registers arrays, []⟩ ∧ ∀ pre hdr, pre ++ [hdr] <+: es →
        ∀ s ∈ pre.foldlM SwitchQueue.step ⟨c.registers arrays, []⟩,
          ∀ s' ∈ s.step hdr, StepOk s hdr s') ↔
      ∀ pre hdr, pre ++ [hdr] <+: es →
        ∀ s ∈ pre.foldlM SwitchQueue.step ⟨c.registers arrays, []⟩, Meets s hdr := by
  have hinit := inv_registers c arrays
  rw [and_iff_right hinit.toInStep]
  exact foldlM_steps_iff (fun s hdr _ hi => hi.step_iff) (fun _ _ _ hi h hok => hi.next h hok) hinit

/-! ## The two counts -/

section Counts

variable {c : Config} {s s' : SwitchQueue} {hdr : NlkHdr}

/-- The condition for packets of clients that know what they hold: a release is made in the mode of
the first request, which it takes out. -/
def MeetsInMode (s : SwitchQueue) (hdr : NlkHdr) : Prop :=
  (Parks s hdr → s.regs.slotsTwoSides.hi ≠ 0xffffffff#32)
    ∧ (s.Enters hdr ∧ ¬ Parks s hdr ∨ s.Leaves hdr →
      hdr.mode = SHARED_LOCK ∨ hdr.mode = EXCLUSIVE_LOCK)
    ∧ (s.Leaves hdr → ∀ a ∈ s.queue.head?, a.mode = hdr.mode)

/-- The number of requests in a mode. -/
def SwitchQueue.queued (s : SwitchQueue) (mode : BitVec 8) : ℕ := s.queue.countP (·.mode = mode)

/-- Each count is that of the requests in its mode. -/
structure Counted (s : SwitchQueue) : Prop where
  shared : s.regs.sharedAndExclusiveCount.hi = BitVec.ofNat 32 (s.queued SHARED_LOCK)
  exclusive : s.regs.sharedAndExclusiveCount.lo = BitVec.ofNat 32 (s.queued EXCLUSIVE_LOCK)

lemma Counted.enqueue (hc : Counted s) (slots : Pair)
    (hmode : hdr.mode = SHARED_LOCK ∨ hdr.mode = EXCLUSIVE_LOCK) :
    Counted ⟨s.regs.enqueue slots hdr, s.queue ++ [hdr.slot]⟩ := by
  have hqueued : ∀ mode, SwitchQueue.queued ⟨s.regs.enqueue slots hdr, s.queue ++ [hdr.slot]⟩ mode
      = s.queued mode + if hdr.mode = mode then 1 else 0 := by
    intro mode
    simp [SwitchQueue.queued, List.countP_append, List.countP_singleton, NlkHdr.slot]
  obtain ⟨hsh, hex⟩ := hc
  rcases hmode with h | h
  · refine ⟨?_, ?_⟩ <;> rw [hqueued, h]
    · simp [Registers.enqueue, countIn, h, hsh, BitVec.ofNat_add]
    · simp [Registers.enqueue, countIn, h, hex]
  · refine ⟨?_, ?_⟩ <;> rw [hqueued, h]
    · simp [Registers.enqueue, countIn, h, hsh]
    · simp [Registers.enqueue, countIn, h, hex, BitVec.ofNat_add]

lemma Counted.dequeue (hc : Counted s) {a : Slot} {q : List Slot} (hq : s.queue = a :: q)
    (ha : a.mode = hdr.mode) (hmode : hdr.mode = SHARED_LOCK ∨ hdr.mode = EXCLUSIVE_LOCK) :
    Counted ⟨s.regs.dequeue hdr.mode, q⟩ := by
  have hqueued : ∀ mode, s.queued mode
      = q.countP (·.mode = mode) + if hdr.mode = mode then 1 else 0 := by
    intro mode
    simp [SwitchQueue.queued, hq, List.countP_cons, ha]
  obtain ⟨hsh, hex⟩ := hc
  rw [hqueued] at hsh hex
  rcases hmode with h | h
  · rw [h] at hsh hex
    exact ⟨by simp [SwitchQueue.queued, Registers.dequeue, updateLockAlu, h, hsh, BitVec.ofNat_add],
      by simp [SwitchQueue.queued, Registers.dequeue, updateLockAlu, h, hex]⟩
  · rw [h] at hsh hex
    exact ⟨by simp [SwitchQueue.queued, Registers.dequeue, updateLockAlu, h, hsh],
      by simp [SwitchQueue.queued, Registers.dequeue, updateLockAlu, h, hex, BitVec.ofNat_add]⟩

/-- As long as the queue fits, the counts are the numbers themselves. -/
lemma Counted.toNat_eq (hc : Counted s) (hi : Inv c s) :
    s.regs.sharedAndExclusiveCount.hi.toNat = s.queued SHARED_LOCK
      ∧ s.regs.sharedAndExclusiveCount.lo.toNat = s.queued EXCLUSIVE_LOCK := by
  have hfit : ∀ mode, s.queued mode < 2 ^ 32 := by
    intro mode
    have hle : s.queued mode ≤ s.queue.length := List.countP_le_length
    have hlen := hi.length_lt
    omega
  rw [hc.shared, hc.exclusive, BitVec.toNat_ofNat, BitVec.toNat_ofNat, Nat.mod_eq_of_lt (hfit _),
    Nat.mod_eq_of_lt (hfit _)]
  exact ⟨rfl, rfl⟩

/-- The first request is counted in its mode. -/
lemma Counted.countOf_ne_zero (hc : Counted s) (hi : Inv c s) {a : Slot} {q : List Slot}
    (hq : s.queue = a :: q) (hmode : a.mode = SHARED_LOCK ∨ a.mode = EXCLUSIVE_LOCK) :
    countOf a.mode s.regs.sharedAndExclusiveCount ≠ 0 := by
  have hpos : 0 < s.queued a.mode := by
    rw [SwitchQueue.queued, hq, List.countP_pos_iff]
    exact ⟨a, List.mem_cons_self, by simp⟩
  obtain ⟨hsh, hex⟩ := hc.toNat_eq hi
  intro hzero
  rcases hmode with h | h <;> rw [h] at hpos hzero
  · rw [countOf, if_neg (by decide)] at hzero
    rw [hzero] at hsh
    exact absurd hsh.symm hpos.ne'
  · rw [countOf, if_pos rfl] at hzero
    rw [hzero] at hex
    exact absurd hex.symm hpos.ne'

lemma Counted.meets (hc : Counted s) (hi : Inv c s) (hm : MeetsInMode s hdr) : Meets s hdr := by
  obtain ⟨hpark, hmode, hhead⟩ := hm
  refine ⟨hpark, hmode, fun hl => ?_⟩
  obtain ⟨a, q, hq⟩ := List.exists_cons_of_ne_nil hl.2.2
  have ha : a.mode = hdr.mode := hhead hl a (by rw [hq]; rfl)
  rw [← ha]
  exact hc.countOf_ne_zero hi hq (ha ▸ hmode (.inr hl))

lemma Counted.step (hc : Counted s) (hi : Inv c s) (hm : MeetsInMode s hdr)
    (h : s.step hdr = some s') : Counted s' := by
  obtain ⟨hpark, hmode, hhead⟩ := hm
  rcases enters_or_leaves h with he | hl
  · rw [step_of_enters he, Option.some.injEq] at h
    subst h
    by_cases hp : Parks s hdr
    · obtain ⟨hregs, hserver⟩ := hi.parks hp (hpark hp)
      rw [hregs, hserver]
      exact ⟨hc.shared, hc.exclusive⟩
    · obtain ⟨-, parked, hregs, hserver⟩ := hi.enqueues he hp
      rw [hregs, hserver]
      exact hc.enqueue _ (hmode (.inl ⟨he, hp⟩))
  · rw [step_of_leaves hl, Option.some.injEq] at h
    subst h
    obtain ⟨hregs, -⟩ := releaseLock_dequeue hl.2.1 .invalid (hi.lo_le hl.2.2)
    obtain ⟨a, q, hq⟩ := List.exists_cons_of_ne_nil hl.2.2
    rw [hregs, hq]
    exact hc.dequeue hq (hhead hl a (by rw [hq]; rfl)) (hmode (.inr hl))

/-- **The counts by mode**: if every release is made in the mode of the first request, the registers
stay in step, and the counts are the numbers of the shared and of the exclusive requests in the
slots. -/
theorem counts_by_mode (c : Config) (arrays : Arrays) {s : SwitchQueue}
    (h : Reach SwitchQueue.step MeetsInMode ⟨c.registers arrays, []⟩ s) :
    InStep s ∧ s.regs.sharedAndExclusiveCount.hi.toNat = s.queued SHARED_LOCK
      ∧ s.regs.sharedAndExclusiveCount.lo.toNat = s.queued EXCLUSIVE_LOCK := by
  obtain ⟨hi, hc⟩ : Inv c s ∧ Counted s := by
    refine h.invariant (I := fun s => Inv c s ∧ Counted s)
      ⟨inv_registers c arrays, ⟨rfl, rfl⟩⟩ ?_
    rintro s hdr s' ⟨hi, hc⟩ hm hstep
    exact ⟨hi.next hstep (hi.step_iff.2 (hc.meets hi hm) s' hstep), hc.step hi hm hstep⟩
  exact ⟨hi.toInStep, hc.toNat_eq hi⟩

end Counts

/-! ## A run that leaves it -/

section Overflow

variable {c : Config} {s : SwitchQueue} {hdr : NlkHdr}

/-- The queue with another number of parked requests. -/
def SwitchQueue.park (s : SwitchQueue) (parked : BitVec 32) : SwitchQueue :=
  { s with regs := { s.regs with slotsTwoSides := ⟨s.regs.slotsTwoSides.lo, parked⟩ } }

lemma Inv.park (hi : Inv c s) (parked : BitVec 32) : Inv c (s.park parked) :=
  ⟨⟨hi.head_mem, hi.tail_mem, hi.slots, hi.counts, hi.tail, hi.contents⟩, hi.left_eq, hi.right_eq,
    hi.op_eq⟩

/-- While all slots are taken, every ACQUIRE is parked. -/
lemma Inv.parks_run (hi : Inv c s) (hop : hdr.op = ACQUIRE_LOCK)
    (hfull : s.regs.slotsTwoSides.lo = 0) (hnone : s.regs.slotsTwoSides.hi = 0) {n : ℕ}
    (hn : n < 2 ^ 32) :
    (List.replicate n hdr).foldlM SwitchQueue.step s = some (s.park (BitVec.ofNat 32 n)) := by
  induction n with
  | zero =>
      rw [List.replicate_zero, List.foldlM_nil]
      show some s = _
      rw [SwitchQueue.park, show BitVec.ofNat 32 0 = s.regs.slotsTwoSides.hi from hnone.symm]
  | succ n ih =>
      have hi' := hi.park (BitVec.ofNat 32 n)
      have hp : Parks (s.park (BitVec.ofNat 32 n)) hdr := by
        refine ⟨hop, fun h => ?_⟩
        have hlo : 0 < s.regs.slotsTwoSides.lo := h.1
        rw [hfull] at hlo
        exact absurd hlo (by decide)
      have hlt : BitVec.ofNat 32 n ≠ 0xffffffff#32 := by bv_omega
      obtain ⟨hregs, hserver⟩ := hi'.parks hp hlt
      rw [List.replicate_succ', List.foldlM_append, ih (by omega)]
      simp only [List.foldlM_cons, List.foldlM_nil, Option.bind_eq_bind, Option.bind_some,
        Option.pure_def, step_of_enters (.inl hop), hregs, hserver, if_true]
      rw [SwitchQueue.park, SwitchQueue.park, BitVec.ofNat_add]
      rfl

/-- `2 ^ 32 - 1` requests later the count of parked requests wraps around. -/
lemma Inv.wraps (hi : Inv c s) (hop : hdr.op = ACQUIRE_LOCK) (hfull : s.regs.slotsTwoSides.lo = 0)
    (hnone : s.regs.slotsTwoSides.hi = 0) :
    ∃ t t', (List.replicate (2 ^ 32 - 1) hdr).foldlM SwitchQueue.step s = some t
      ∧ t.step hdr = some t' ∧ ¬ StepOk t hdr t' := by
  have hrun := hi.parks_run hop hfull hnone (n := 2 ^ 32 - 1) (by norm_num)
  generalize ht : s.park (BitVec.ofNat 32 (2 ^ 32 - 1)) = t at hrun
  have hlo : t.regs.slotsTwoSides.lo = 0 := by
    rw [← ht]
    exact hfull
  have hhi : t.regs.slotsTwoSides.hi = 0xffffffff#32 := by
    rw [← ht]
    rfl
  have hp : Parks t hdr := by
    refine ⟨hop, fun h => ?_⟩
    rw [hlo] at h
    exact absurd h.1 (by decide)
  have hit : Inv c t := by
    rw [← ht]
    exact hi.park _
  have hstep := step_of_enters (.inl hop : t.Enters hdr)
  refine ⟨t, _, hrun, hstep, fun hok => ?_⟩
  refine (hit.step_parks hp).1 (fun t' ht' => ?_) hhi
  rw [hstep] at ht'
  obtain rfl := Option.some.inj ht'
  exact hok

/-- One slot, and arrays of zeros. -/
def oneSlot : Config := ⟨0, 1, by decide, by decide⟩

def zeroed : Arrays :=
  ⟨fun _ => 0, fun _ => 0, fun _ => 0, fun _ => 0, fun _ => 0, fun _ => 0⟩

/-- Transaction 7 of client 1 asks for the lock. -/
def acquireShared : NlkHdr := ⟨0, ACQUIRE_LOCK, SHARED_LOCK, 1, 7, 0, 0, 10⟩

/-- The registers do not stay in step in all runs: with one slot, the count of parked requests is
zero again after `2 ^ 32 + 1` ACQUIREs, and the last of them is enqueued in the slot that the first
one holds. -/
theorem switch_queue_fails :
    ∃ s s', (List.replicate (2 ^ 32) acquireShared).foldlM SwitchQueue.step
        ⟨oneSlot.registers zeroed, []⟩ = some s
      ∧ s.step acquireShared = some s' ∧ ¬ StepOk s acquireShared s' := by
  have h0 := inv_registers oneSlot zeroed
  have hfirst := step_of_enters
    (.inl rfl : SwitchQueue.Enters ⟨oneSlot.registers zeroed, []⟩ acquireShared)
  have hmeets : Meets ⟨oneSlot.registers zeroed, []⟩ acquireShared :=
    ⟨fun hp => absurd ⟨by decide, by decide⟩ hp.2, fun _ => .inl rfl, fun hl => absurd rfl hl.2.2⟩
  have h1 := h0.next hfirst (h0.step_iff.2 hmeets _ hfirst)
  obtain ⟨t, t', hrun, hstep, hbad⟩ := h1.wraps (rfl : acquireShared.op = ACQUIRE_LOCK)
    (by decide) (by decide)
  refine ⟨t, t', ?_, hstep, hbad⟩
  have hsplit : List.replicate (2 ^ 32) acquireShared
      = acquireShared :: List.replicate (2 ^ 32 - 1) acquireShared := List.replicate_succ
  rw [hsplit, List.foldlM_cons, hfirst, Option.bind_eq_bind, Option.bind_some, hrun]

end Overflow

end FissLock.NetLock.Switch
