import FissLock.Baseline.NetLockTwoSides

/-!
# The switch side gives out the lock in order

The switch and the packets that go round it are a queue that is released from the front: `queue` reads
one off a `SwitchSide`, and `Sound` says that it keeps the invariant of such queues while the
registers stay in step with it.

A packet that goes round has no successor in it, only the slot that it reads next.  `due` says whom
it will address: the holders among the entries that were there when it came, from the entry it reads
on.  The slots keep an entry until as many others have come as there are slots (`recent`), so that a
packet reads what was written as long as its slot was not taken again.
-/

namespace FissLock.NetLock.TwoSides

open Runs Ring Function HolderQueue NetLock.Switch

/-! ## Places in the ring -/

section Places

variable (c : Config)

/-- The slot that is reached from the first one after `i` steps; the entry `i` of the log is in
`place (i + 1)`. -/
def place (i : ℕ) : BitVec 32 :=
  (updateHeadAlu (c.startBound + 1) (c.startBound + c.lkNum))^[i] (c.startBound + 1)

variable {c} {i j : ℕ}

lemma place_succ (i : ℕ) : place c (i + 1)
    = updateHeadAlu (c.startBound + 1) (c.startBound + c.lkNum) (place c i) :=
  iterate_succ_apply' _ _ _

lemma place_add (i k : ℕ) : place c (i + k)
    = (updateHeadAlu (c.startBound + 1) (c.startBound + c.lkNum))^[k] (place c i) := by
  rw [Nat.add_comm, place, iterate_add_apply]
  rfl

lemma place_mem (c : Config) (i : ℕ) :
    c.startBound + 1 ≤ place c i ∧ place c i ≤ c.startBound + c.lkNum := by
  refine advance_iterate_mem ⟨BitVec.le_refl _, ?_⟩ i
  rw [BitVec.le_def, c.toNat_left, c.toNat_right]
  have := c.pos
  omega

/-- One comes back to a slot after `lk_num` steps. -/
lemma minimalPeriod_place (c : Config) (i : ℕ) :
    minimalPeriod (updateHeadAlu (c.startBound + 1) (c.startBound + c.lkNum)) (place c i)
      = c.lkNum.toNat := by
  have hper := minimalPeriod_advance (place_mem c i)
  have hpos := c.pos
  rw [c.toNat_left, c.toNat_right] at hper
  exact hper.trans (by omega)

lemma place_eq_iff (hij : i ≤ j) (hji : j ≤ i + c.lkNum.toNat) :
    place c j = place c i ↔ j = i ∨ j = i + c.lkNum.toNat := by
  obtain ⟨k, rfl⟩ := Nat.exists_eq_add_of_le hij
  have hpos := c.pos
  have hdvd : place c (i + k) = place c i ↔ c.lkNum.toNat ∣ k := by
    rw [place_add, ← minimalPeriod_place c i]
    exact isPeriodicPt_iff_minimalPeriod_dvd
  rw [hdvd]
  constructor
  · rintro ⟨m, rfl⟩
    have hm : m ≤ 1 := by
      by_contra hm
      have : c.lkNum.toNat * 2 ≤ c.lkNum.toNat * m := Nat.mul_le_mul_left _ (by omega)
      omega
    interval_cases m
    · exact .inl rfl
    · exact .inr (by rw [Nat.mul_one])
  · rintro (h | h)
    · obtain rfl : k = 0 := by omega
      exact dvd_zero _
    · obtain rfl : k = c.lkNum.toNat := by omega
      exact dvd_refl _

end Places

/-! ## Whom a packet will address -/

/-- Writers, in the sense of `HolderQueue`. -/
def isExcl (a : Slot) : Bool := decide (a.mode = EXCLUSIVE_LOCK)

/-- The entries between which a packet goes round. -/
def Pass.entries (log : List Slot) (p : Pass) : List Slot := (log.take p.last).drop p.first

/-- A packet that has released a reader, and is about to read one, addresses nobody. -/
def Pass.due (log : List Slot) (p : Pass) : List Slot :=
  if p.hdr.recircFlag = 1 then
    if p.rc.dequeuedMode = EXCLUSIVE_LOCK ∨ ∃ a ∈ (p.entries log).head?, a.mode = EXCLUSIVE_LOCK then
      holders isExcl (p.entries log)
    else []
  else sharedPrefix isExcl (p.entries log)

/-- The queue that the switch side is: it has given the lock to those whom it has addressed. -/
def SwitchSide.queue (s : SwitchSide) : ServedQueue.State Slot where
  log := s.log
  released := s.released
  due := (s.passes.map fun p => (p.due s.log : Multiset Slot)).sum
  notified := s.sent.map Notice.slot
  held := s.addressed

/-- A packet knows the slots of its entries, and the first of them has not been taken again. -/
structure Pass.Sound (c : Config) (log : List Slot) (p : Pass) : Prop where
  flag : p.hdr.recircFlag = 1 ∨ p.hdr.recircFlag = 2
  first_lt : p.first < p.last
  last_le : p.last ≤ log.length
  intact : log.length ≤ p.first + c.lkNum.toNat
  curHead : p.rc.curHead = place c (p.first + 1)
  curTail : p.rc.curTail = place c p.last

def inMode (a : Slot) : Prop := a.mode = SHARED_LOCK ∨ a.mode = EXCLUSIVE_LOCK

/-- **The invariant of the switch side.** -/
structure Sound (c : Config) (s : SwitchSide) : Prop where
  queue : ServedQueue.Inv isExcl s.queue
  slots : Switch.Inv c ⟨s.regs, s.live⟩
  counted : Counted ⟨s.regs, s.live⟩
  modes : ∀ a ∈ s.log, inMode a
  head : s.regs.head = place c s.released
  tail : s.regs.tail = place c s.log.length
  /-- An entry can be read until its slot is taken again. -/
  recent : ∀ i (hi : i < s.log.length), s.log.length ≤ i + c.lkNum.toNat →
    s.regs.arrays.slot (place c (i + 1)) = s.log[i]
  passes : ∀ p ∈ s.passes, p.Sound c s.log
  signalled : s.signalled ≤ s.addressed

section Lemmas

variable {c : Config} {s : SwitchSide} {p : Pass} {log : List Slot} {a : Slot}

/-- Whom packets signal is among those whom they address. -/
lemma signalled_send (h : s.signalled ≤ s.addressed) (packets : Multiset Notice) :
    (s.send packets).signalled ≤ (s.send packets).addressed :=
  add_le_add h (Multiset.map_le_map (Multiset.filter_le _ _))

lemma isExcl_iff : isExcl a = true ↔ a.mode = EXCLUSIVE_LOCK := decide_eq_true_iff

lemma inMode.shared_iff (ha : inMode a) : isExcl a = false ↔ a.mode = SHARED_LOCK := by
  rw [isExcl, decide_eq_false_iff_not]
  rcases ha with h | h <;> simp [h]

/-- What a packet will read is not changed by new entries. -/
lemma Pass.Sound.entries_append (hp : p.Sound c log) (a : Slot) :
    p.entries (log ++ [a]) = p.entries log := by
  rw [entries, entries, List.take_append_of_le_length hp.last_le]

lemma Pass.Sound.due_append (hp : p.Sound c log) (a : Slot) : p.due (log ++ [a]) = p.due log := by
  rw [due, due, hp.entries_append]

/-- The first of its entries is the one it reads. -/
lemma Pass.Sound.entries_eq (hp : p.Sound c log) :
    ∃ h : p.first < log.length, p.entries log
      = log[p.first] :: (log.take p.last).drop (p.first + 1) := by
  have hlt : p.first < (log.take p.last).length := by
    rw [List.length_take]
    have := hp.first_lt
    have := hp.last_le
    omega
  refine ⟨hp.first_lt.trans_le hp.last_le, ?_⟩
  rw [entries, List.drop_eq_getElem_cons hlt, List.getElem_take]

lemma SwitchSide.length_live (s : SwitchSide) : s.live.length = s.log.length - s.released :=
  List.length_drop

/-- There are at most as many entries as slots. -/
lemma Sound.length_le (hs : Sound c s) :
    s.log.length - s.released + s.regs.slotsTwoSides.lo.toNat = c.lkNum.toNat := by
  have hslots := hs.slots.slots
  have hsize := c.size
  rw [hs.slots.left_eq, hs.slots.right_eq, hsize] at hslots
  rw [← s.length_live]
  exact hslots

/-- The slot that is taken next. -/
lemma Sound.next_tail (hs : Sound c s) :
    updateTailAlu s.regs.left s.regs.right s.regs.tail = place c (s.log.length + 1) := by
  rw [place_succ, ← hs.tail, hs.slots.left_eq, hs.slots.right_eq]
  rfl

/-- While no packet that goes round is about to read the slot, it can be taken. -/
lemma Sound.intact (hs : Sound c s) (hroom : s.NoOverrun) (hp : p ∈ s.passes) :
    s.log.length + 1 ≤ p.first + c.lkNum.toNat := by
  have hps := hs.passes p hp
  have hne := hroom p hp
  rw [hs.next_tail, hps.curHead] at hne
  have hle := hps.intact
  rcases Nat.lt_or_ge s.log.length (p.first + c.lkNum.toNat) with h | h
  · exact h
  · refine absurd ?_ hne
    have hlt := hps.first_lt
    have hlast := hps.last_le
    rw [place_eq_iff (by omega) (by omega)]
    exact .inr (by omega)

end Lemmas

/-! ## An entry is made -/

section Enter

variable {r : Registers} {q : List Slot} {hdr : NlkHdr}

lemma ofNat_eq_zero_iff {n : ℕ} (hn : n < 2 ^ 32) : BitVec.ofNat 32 n = 0 ↔ n = 0 := by
  rw [← BitVec.toNat_inj, BitVec.toNat_ofNat, Nat.mod_eq_of_lt hn]
  rfl

/-- The two counts say who is in the slots. -/
lemma exclusive_count_eq_zero (hc : Counted ⟨r, q⟩) (hlen : q.length < 2 ^ 32) :
    r.sharedAndExclusiveCount.lo = 0 ↔ ∀ a ∈ q, isExcl a = false := by
  have hle : SwitchQueue.queued ⟨r, q⟩ EXCLUSIVE_LOCK ≤ q.length := List.countP_le_length
  rw [hc.exclusive, ofNat_eq_zero_iff (by omega), SwitchQueue.queued, List.countP_eq_zero]
  simp [isExcl]

lemma counts_eq_zero (hc : Counted ⟨r, q⟩) (hlen : q.length < 2 ^ 32)
    (hmodes : ∀ a ∈ q, inMode a) :
    r.sharedAndExclusiveCount.lo = 0 ∧ r.sharedAndExclusiveCount.hi = 0 ↔ q = [] := by
  have hle : SwitchQueue.queued ⟨r, q⟩ SHARED_LOCK ≤ q.length := List.countP_le_length
  rw [exclusive_count_eq_zero hc hlen, hc.shared, ofNat_eq_zero_iff (by omega),
    SwitchQueue.queued, List.countP_eq_zero]
  constructor
  · rintro ⟨hread, hno⟩
    refine List.eq_nil_iff_forall_not_mem.2 fun a ha => ?_
    have := (hmodes a ha).shared_iff.1 (hread a ha)
    exact hno a ha (by simpa using this)
  · rintro rfl
    simp

/-- A waiting writer leaves room in the count of readers. -/
lemma shared_count_succ (hc : Counted ⟨r, q⟩) (hlen : q.length < 2 ^ 32)
    (hlo : r.sharedAndExclusiveCount.lo ≠ 0) : r.sharedAndExclusiveCount.hi + 1 ≠ 0 := by
  have hlt : SwitchQueue.queued ⟨r, q⟩ SHARED_LOCK < q.length := by
    refine lt_of_le_of_ne List.countP_le_length fun heq => hlo ?_
    rw [exclusive_count_eq_zero hc hlen]
    intro a ha
    have hall := List.countP_eq_length.1 heq a ha
    rw [decide_eq_true_iff] at hall
    simp [isExcl, hall]
  rw [hc.shared, show (1 : BitVec 32) = BitVec.ofNat 32 1 from rfl, ← BitVec.ofNat_add]
  intro h
  rw [ofNat_eq_zero_iff (by omega)] at h
  omega

/-- A reader is granted the lock exactly if no writer is in the slots. -/
lemma acquireSharedLockAlu_snd (hc : Counted ⟨r, q⟩) (hlen : q.length < 2 ^ 32) :
    (acquireSharedLockAlu r.sharedAndExclusiveCount).2 = 0 ↔ ∀ a ∈ q, isExcl a = false := by
  rw [← exclusive_count_eq_zero hc hlen, acquireSharedLockAlu]
  split
  · next hlo =>
      have hne : r.sharedAndExclusiveCount.lo ≠ 0 := by bv_omega
      exact iff_of_false (shared_count_succ hc hlen hne) hne
  · next hlo => exact iff_of_true rfl (by bv_omega)

/-- A writer exactly if nobody is. -/
lemma acquireExclusiveLockAlu_snd (hc : Counted ⟨r, q⟩) (hlen : q.length < 2 ^ 32)
    (hmodes : ∀ a ∈ q, inMode a) :
    (acquireExclusiveLockAlu r.sharedAndExclusiveCount).2 = 0 ↔ q = [] := by
  rw [← counts_eq_zero hc hlen hmodes, acquireExclusiveLockAlu]
  split
  · next h =>
      refine iff_of_false (show (1 : BitVec 32) ≠ 0 by decide) ?_
      rintro ⟨hlo, hhi⟩
      rw [hlo, hhi] at h
      exact absurd h (by decide)
  · next h => exact iff_of_true rfl ⟨by bv_omega, by bv_omega⟩

/-- What `acquire_lock_table` answers. -/
lemma locked_iff (hc : Counted ⟨r, q⟩) (hlen : q.length < 2 ^ 32) (hmodes : ∀ a ∈ q, inMode a)
    (hmode : inMode hdr.slot) :
    (if hdr.mode = SHARED_LOCK then acquireSharedLockAlu r.sharedAndExclusiveCount
      else if hdr.mode = EXCLUSIVE_LOCK then acquireExclusiveLockAlu r.sharedAndExclusiveCount
      else (r.sharedAndExclusiveCount, 0)).2 = 0
      ↔ q = [] ∨ (∀ b ∈ q, isExcl b = false) ∧ isExcl hdr.slot = false := by
  rcases hmode with hmode | hmode
  · have hread : isExcl hdr.slot = false := (inMode.shared_iff (.inl hmode)).2 hmode
    rw [if_pos (show hdr.mode = SHARED_LOCK from hmode), acquireSharedLockAlu_snd hc hlen, hread]
    constructor
    · exact fun h => .inr ⟨h, rfl⟩
    · rintro (rfl | ⟨h, -⟩)
      · simp
      · exact h
  · have hwrite : isExcl hdr.slot = true := isExcl_iff.2 hmode
    have hne : ¬ hdr.mode = SHARED_LOCK := by
      rw [show hdr.mode = EXCLUSIVE_LOCK from hmode]
      decide
    rw [if_neg hne, if_pos (show hdr.mode = EXCLUSIVE_LOCK from hmode),
      acquireExclusiveLockAlu_snd hc hlen hmodes, hwrite]
    simp

/-- The packets to those of the clients that the lock belongs to when a request enters. -/
def answers (hdr : NlkHdr) (q : List Slot) : Multiset Notice :=
  (q : Multiset Slot).map
    (Notice.mk (if hdr.op = ACQUIRE_LOCK then DIRECT_GRANT_FROM_SWITCH else hdr.op))

@[simp] lemma map_slot_answers (hdr : NlkHdr) (q : List Slot) :
    (answers hdr q).map Notice.slot = q := by
  rw [answers, Multiset.map_map]
  exact Multiset.map_id' _

/-- **The client of an entry is addressed at once exactly if the lock belongs to it.** -/
lemma direct_acquireLock (hc : Counted ⟨r, q⟩) (hlen : q.length < 2 ^ 32)
    (hmodes : ∀ a ∈ q, inMode a) (hmode : inMode hdr.slot) {slots : Pair}
    (hslots : hdr.op = ACQUIRE_LOCK ∧ decEmptySlotsAlu r.queueSizeOp r.slotsTwoSides = (slots, 0)
      ∨ hdr.op = PUSH_BACK_LOCK) :
    direct hdr.slot (acquireLock r hdr).2 = answers hdr (entering isExcl q hdr.slot) := by
  have hlocked := locked_iff hc hlen hmodes hmode
  generalize hcount : (if hdr.mode = SHARED_LOCK then
      acquireSharedLockAlu r.sharedAndExclusiveCount
    else if hdr.mode = EXCLUSIVE_LOCK then acquireExclusiveLockAlu r.sharedAndExclusiveCount
    else (r.sharedAndExclusiveCount, 0)) = result at hlocked
  have hent : (entering isExcl q hdr.slot : List Slot)
      = if result.2 = 0 then [hdr.slot] else [] := by
    simp only [entering, hlocked]
  rw [hent, answers]
  rcases hslots with ⟨hop, hdec⟩ | hop
  · simp only [acquireLock, if_pos hop, hdec, ne_eq, not_true, false_and, if_false, hcount]
    split <;> rfl
  · have hne : hdr.op ≠ ACQUIRE_LOCK := by
      rw [hop]
      decide
    simp only [acquireLock, if_neg hne, if_pos hop, ne_eq, not_true, false_and, if_false, hcount]
    split <;> rfl

/-- The entry behind the log. -/
lemma Sound.recent_write {c : Config} {s : SwitchSide} (hs : Sound c s) (a : Slot) (i : ℕ)
    (hi : i < (s.log ++ [a]).length) (hle : (s.log ++ [a]).length ≤ i + c.lkNum.toNat) :
    update s.regs.arrays.slot (place c (s.log.length + 1)) a (place c (i + 1))
      = (s.log ++ [a])[i] := by
  rw [List.length_append, List.length_singleton] at hi hle
  by_cases hlast : i = s.log.length
  · subst hlast
    simp
  · have hne : place c (i + 1) ≠ place c (s.log.length + 1) := by
      intro heq
      have := (place_eq_iff (by omega) (by omega)).1 heq.symm
      omega
    rw [update_of_ne hne, hs.recent i (by omega) (by omega), List.getElem_append_left]

/-- The switch side when a request is enqueued. -/
def SwitchSide.enqueued (s : SwitchSide) (parked : BitVec 32) (hdr : NlkHdr) : SwitchSide :=
  { s.send (answers hdr (entering isExcl s.live hdr.slot)) with
    regs := s.regs.enqueue ⟨s.regs.slotsTwoSides.lo - 1, parked⟩ hdr
    log := s.log ++ [hdr.slot] }

variable {c : Config} {s : SwitchSide}

lemma Sound.queue_enqueued (hs : Sound c s) (parked : BitVec 32) (hdr : NlkHdr) :
    (s.enqueued parked hdr).queue = s.queue.enter isExcl hdr.slot := by
  have hdue : s.passes.map (fun p => (p.due (s.log ++ [hdr.slot]) : Multiset Slot))
      = s.passes.map fun p => (p.due s.log : Multiset Slot) :=
    List.map_congr_left fun p hp => by rw [(hs.passes p hp).due_append]
  simp only [SwitchSide.queue, SwitchSide.enqueued, SwitchSide.send, ServedQueue.State.enter, hdue,
    Multiset.map_add, map_slot_answers]
  rfl

lemma Sound.live_enqueued (hs : Sound c s) (parked : BitVec 32) (hdr : NlkHdr) :
    (s.enqueued parked hdr).live = s.live ++ [hdr.slot] :=
  List.drop_append_of_le_length hs.queue.bound

/-- **A request is enqueued.** -/
lemma Sound.enqueued (hs : Sound c s) (hmode : inMode hdr.slot) (hroom : s.NoOverrun)
    (hlo : 0 < s.regs.slotsTwoSides.lo.toNat) (parked : BitVec 32) :
    Sound c (s.enqueued parked hdr) where
  queue := by
    rw [hs.queue_enqueued]
    exact hs.queue.enter _
  slots := by
    rw [hs.live_enqueued]
    exact hs.slots.of_inStep (hs.slots.enqueue hlo hmode parked) rfl rfl rfl
  counted := by
    rw [hs.live_enqueued]
    exact hs.counted.enqueue _ hmode
  modes a ha := by
    rcases List.mem_append.1 ha with ha | ha
    · exact hs.modes a ha
    · rw [List.mem_singleton.1 ha]
      exact hmode
  head := hs.head
  tail := by
    simp only [SwitchSide.enqueued, Registers.enqueue, List.length_append, List.length_singleton]
    exact hs.next_tail
  recent i hi hle := by
    simp only [SwitchSide.enqueued, Registers.enqueue, slot_write, hs.next_tail]
    exact hs.recent_write hdr.slot i hi hle
  passes p hp := by
    have hps := hs.passes p hp
    have hroom := hs.intact hroom hp
    refine ⟨hps.flag, hps.first_lt, ?_, ?_, hps.curHead, hps.curTail⟩
    · simp only [SwitchSide.enqueued, List.length_append]
      exact hps.last_le.trans (Nat.le_add_right _ _)
    · simpa only [SwitchSide.enqueued, List.length_append, List.length_singleton] using hroom
  signalled := signalled_send hs.signalled _

/-- How many requests are parked when one is enqueued: an ACQUIRE finds none, and one that is pushed
back is parked no longer. -/
def SwitchSide.stillParked (s : SwitchSide) (hdr : NlkHdr) : BitVec 32 :=
  if hdr.op = ACQUIRE_LOCK then 0 else s.regs.slotsTwoSides.hi - 1

/-- A request that takes a slot is enqueued, and is not forwarded. -/
lemma Sound.acquired_eq (hs : Sound c s) (hmode : inMode hdr.slot)
    (he : SwitchQueue.Enters ⟨s.regs, s.live⟩ hdr) (hp : ¬ Parks ⟨s.regs, s.live⟩ hdr) :
    0 < s.regs.slotsTwoSides.lo.toNat ∧ s.acquired hdr = s.enqueued (s.stillParked hdr) hdr
      ∧ forwarded hdr (acquireLock s.regs hdr).2 = [] := by
  have hlen : s.live.length < 2 ^ 32 := by
    have := hs.length_le
    have := s.length_live
    have := c.lkNum.isLt
    omega
  have hmodes : ∀ a ∈ s.live, inMode a := fun a ha => hs.modes a (List.mem_of_mem_drop ha)
  obtain ⟨hlo, -⟩ := hs.slots.enqueues he hp
  have hslots : hdr.op = ACQUIRE_LOCK ∧ decEmptySlotsAlu s.regs.queueSizeOp s.regs.slotsTwoSides
        = (⟨s.regs.slotsTwoSides.lo - 1, s.stillParked hdr⟩, 0)
      ∨ hdr.op = PUSH_BACK_LOCK ∧ (pushBackAlu s.regs.slotsTwoSides).1
        = ⟨s.regs.slotsTwoSides.lo - 1, s.stillParked hdr⟩ := by
    rcases he with hop | ⟨hop, hfree, -⟩
    · have hfree : 0 < s.regs.slotsTwoSides.lo ∧ s.regs.slotsTwoSides.hi = 0 := by
        by_contra h
        exact hp ⟨hop, h⟩
      refine .inl ⟨hop, hs.slots.decEmptySlots.trans ?_⟩
      rw [if_pos hfree, SwitchSide.stillParked, if_pos hop]
    · refine .inr ⟨hop, ?_⟩
      rw [SwitchSide.stillParked, if_neg (by rw [hop]; decide)]
      simp only [pushBackAlu, if_pos hfree]
  obtain ⟨hregs, hserver⟩ := acquireLock_enqueue hslots
  have hdirect := direct_acquireLock hs.counted hlen hmodes hmode (hslots.imp_right And.left)
  refine ⟨hlo, ?_, ?_⟩
  · simp only [SwitchSide.acquired, SwitchSide.enqueued, hregs, hserver, hdirect]
    rfl
  · cases hv : (acquireLock s.regs hdr).2 with
    | toServer _ _ _ =>
        rw [hv] at hserver
        cases hserver
    | notifyClient _ _ _ _ => rfl
    | drop => rfl
    | recirculate _ _ _ _ _ => rfl

/-- The switch side when a request is parked. -/
def SwitchSide.parkedOne (s : SwitchSide) : SwitchSide :=
  { s with regs := { s.regs with
      slotsTwoSides := ⟨s.regs.slotsTwoSides.lo, s.regs.slotsTwoSides.hi + 1⟩ } }

/-- A request that is parked is forwarded. -/
lemma Sound.acquired_eq_parkedOne (hs : Sound c s) (hp : Parks ⟨s.regs, s.live⟩ hdr)
    (hlt : s.regs.slotsTwoSides.hi ≠ 0xffffffff#32) :
    s.acquired hdr = s.parkedOne ∧ forwarded hdr (acquireLock s.regs hdr).2 = [hdr] := by
  obtain ⟨hregs, hserver⟩ := hs.slots.parks hp hlt
  cases hv : (acquireLock s.regs hdr).2 with
  | toServer _ _ _ =>
      refine ⟨?_, rfl⟩
      simp only [SwitchSide.acquired, SwitchSide.parkedOne, SwitchSide.send, hregs, hv, direct,
        Multiset.filter_zero, Multiset.map_zero, add_zero, Verdict.isToServer, if_true]
  | notifyClient _ _ _ _ =>
      rw [hv] at hserver
      cases hserver
  | drop =>
      rw [hv] at hserver
      cases hserver
  | recirculate _ _ _ _ _ =>
      rw [hv] at hserver
      cases hserver

/-- **A request is parked.** -/
lemma Sound.parkedOne (hs : Sound c s) : Sound c s.parkedOne where
  queue := hs.queue
  slots := ⟨⟨hs.slots.head_mem, hs.slots.tail_mem, hs.slots.slots, hs.slots.counts, hs.slots.tail,
    hs.slots.contents⟩, hs.slots.left_eq, hs.slots.right_eq, hs.slots.op_eq⟩
  counted := ⟨hs.counted.shared, hs.counted.exclusive⟩
  modes := hs.modes
  head := hs.head
  tail := hs.tail
  recent := hs.recent
  passes := hs.passes
  signalled := hs.signalled

end Enter

/-! ## A packet goes round -/

section GoRound

variable {c : Config} {s : SwitchSide} {r : Registers} {hdr : NlkHdr} {log : List Slot}

/-- The packet that reads the entry `i` next, if it is one of those before `n`. -/
def nextPass (c : Config) (hdr : NlkHdr) (i n : ℕ) (again : Bool) (flag mode : BitVec 8) :
    List Pass :=
  if i < n ∧ again = true then
    [⟨{ hdr with recircFlag := flag }, ⟨mode, place c (i + 1), place c n⟩, i, n⟩]
  else []

/-- A packet goes on to the next slot, if there is one. -/
lemma goesRound_nextSlot (hdr : NlkHdr) (hl : r.left = c.startBound + 1)
    (hr : r.right = c.startBound + c.lkNum) {i n : ℕ} (hi : i ≤ n) (hn : n < i + c.lkNum.toNat)
    (again : Bool) (flag mode : BitVec 8) :
    goesRound hdr i n (nextSlot r (place c i) (place c n) again flag mode)
      = nextPass c hdr i n again flag mode := by
  have hne : place c i ≠ place c n ↔ i < n := by
    rw [ne_comm, Ne, place_eq_iff hi hn.le]
    omega
  have hnext : (if place c i = r.right then r.left else place c i + 1) = place c (i + 1) := by
    rw [place_succ, hl, hr]
    rfl
  simp only [nextSlot, nextPass, hne, hnext]
  split <;> rfl

/-- What goes on is as it should be. -/
lemma sound_nextPass {i n : ℕ} (hn : n ≤ log.length) (hlog : log.length ≤ i + c.lkNum.toNat)
    {again : Bool} {flag mode : BitVec 8} (hflag : flag = 1 ∨ flag = 2) {p : Pass}
    (hp : p ∈ nextPass c hdr i n again flag mode) : p.Sound c log := by
  rw [nextPass] at hp
  split at hp
  · next h =>
      rw [List.mem_singleton.1 hp]
      exact ⟨hflag, h.1, hn, hlog, rfl, rfl⟩
  · cases hp

/-! ### For the first time -/

/-- A release that leaves entries behind goes round, beginning with the slot that it has freed. -/
lemma releaseLock_goesRound (hflag : hdr.recircFlag = 0) (rc : RecirculateHdr)
    (hlo : r.slotsTwoSides.lo ≤ sizeOfQueue r) :
    (releaseLock r hdr rc).2.2 = if r.slotsTwoSides.lo = sizeOfQueue r then
        .toServer r.slotsTwoSides.lo (updateHeadAlu r.left r.right r.head) 0
      else nextSlot (r.dequeue hdr.mode) (updateHeadAlu r.left r.right r.head) r.tail true 1
        (r.arrays.slot (updateHeadAlu r.left r.right r.head)).mode := by
  simp only [releaseLock, if_pos hflag, incEmptySlotsAlu, if_pos hlo, Registers.dequeue]
  split <;> rfl

/-- Whom a release hands the lock to, as the packet that goes round finds out. -/
lemma leaving_head (b : Slot) (q : List Slot) : leaving isExcl (b :: q) b
    = if b.mode = EXCLUSIVE_LOCK ∨ ∃ a ∈ q.head?, a.mode = EXCLUSIVE_LOCK then holders isExcl q
      else [] := by
  cases hb : isExcl b with
  | true => rw [leaving_writer hb, if_pos (.inl (isExcl_iff.1 hb))]
  | false =>
      have hmode : b.mode ≠ EXCLUSIVE_LOCK := by
        intro h
        rw [isExcl_iff.2 h] at hb
        cases hb
      rw [leaving_reader hb]
      cases q with
      | nil => rw [holders_nil, ite_self, List.take_nil, List.filter_nil]
      | cons a q =>
          cases ha : isExcl a with
          | true =>
              rw [if_pos (.inr ⟨a, rfl, isExcl_iff.1 ha⟩), holders_cons_writer ha]
              simp [ha]
          | false =>
              rw [if_neg]
              · simp [ha]
              · rintro (h | ⟨d, hd, h⟩)
                · exact hmode h
                · obtain rfl : a = d := by simpa using hd
                  rw [isExcl_iff.2 h] at ha
                  cases ha

/-- The first entry, and whose mode it has. -/
lemma Sound.live_eq (hs : Sound c s) {a : Slot} (ha : a ∈ s.addressed) :
    ∃ b q, s.live = b :: q ∧ a.mode = b.mode := by
  obtain ⟨b, q, hq, hx⟩ := hs.queue.live_ne_nil ha
  have hma := hs.modes a (hs.queue.mem_log ha)
  have hmb : inMode b := by
    refine hs.modes b (List.mem_of_mem_drop (i := s.released) ?_)
    rw [show s.log.drop s.released = b :: q from hq]
    exact List.mem_cons_self
  refine ⟨b, q, hq, ?_⟩
  cases hb : isExcl b with
  | true => rw [isExcl_iff.1 hb, isExcl_iff.1 (hx.trans hb)]
  | false => rw [hmb.shared_iff.1 hb, hma.shared_iff.1 (hx.trans hb)]

/-- The switch side when the entry `b` is released, and its packet goes round if others are left. -/
def SwitchSide.dequeued (s : SwitchSide) (c : Config) (b a : Slot) (hdr : NlkHdr) : SwitchSide :=
  { s with
    regs := s.regs.dequeue hdr.mode
    passes := s.passes ++ nextPass c hdr (s.released + 1) s.log.length true 1 b.mode
    released := s.released + 1
    addressed := s.addressed.erase a
    signalled := s.signalled.erase a }

lemma Sound.releasedBy_eq (hs : Sound c s) {b : Slot} {q : List Slot} (hq : s.live = b :: q)
    (hflag : hdr.recircFlag = 0) (a : Slot) :
    s.releasedBy a hdr = s.dequeued c b a hdr
      ∧ forwarded hdr (releaseLock s.regs hdr .invalid).2.2 = if q = [] then [hdr] else [] := by
  have hne : s.live ≠ [] := by
    rw [hq]
    exact List.cons_ne_nil b q
  have hlo := hs.slots.lo_le hne
  obtain ⟨hregs, -⟩ := releaseLock_dequeue hflag .invalid hlo
  have hverdict := releaseLock_goesRound hflag .invalid hlo
  have hlen : s.log.length - s.released = q.length + 1 := by
    rw [← s.length_live, hq, List.length_cons]
  have hslots := hs.length_le
  have hhead : updateHeadAlu s.regs.left s.regs.right s.regs.head = place c (s.released + 1) := by
    rw [place_succ, ← hs.head, hs.slots.left_eq, hs.slots.right_eq]
  have hlast : s.regs.slotsTwoSides.lo = sizeOfQueue s.regs ↔ q = [] := by
    rw [hs.slots.lo_eq_iff hne, hq, List.length_cons, ← List.length_eq_zero_iff]
    omega
  have hentry : (s.regs.arrays.slot (place c (s.released + 1))).mode = b.mode := by
    have hlt : s.released < s.log.length := by omega
    have hget : s.log[s.released] = b := by
      have := List.drop_eq_getElem_cons hlt
      rw [show s.log.drop s.released = b :: q from hq, List.cons.injEq] at this
      exact this.1.symm
    rw [hs.recent s.released hlt (by omega), hget]
  simp only [hlast, hhead, hentry] at hverdict
  by_cases hnil : q = []
  · rw [if_pos hnil] at hverdict
    have hno : nextPass c hdr (s.released + 1) s.log.length true 1 b.mode = [] := by
      rw [hnil, List.length_nil] at hlen
      exact if_neg (by omega)
    refine ⟨?_, by rw [hverdict, if_pos hnil]; rfl⟩
    simp only [SwitchSide.releasedBy, SwitchSide.dequeued, hregs, hverdict, hno]
    rfl
  · rw [if_neg hnil] at hverdict
    have hround := goesRound_nextSlot hdr (r := s.regs.dequeue hdr.mode)
      (i := s.released + 1) (n := s.log.length) hs.slots.left_eq hs.slots.right_eq (by omega)
      (by omega) true 1 b.mode
    rw [← hs.tail] at hround
    refine ⟨?_, ?_⟩
    · simp only [SwitchSide.releasedBy, SwitchSide.dequeued, hregs, hverdict, hround]
    · rw [hverdict, if_neg hnil, nextSlot]
      split <;> rfl

/-- **A release takes out the first entry.** -/
lemma Sound.dequeued (hs : Sound c s) {a b : Slot} {q : List Slot} (ha : a ∈ s.addressed)
    (hq : s.live = b :: q) (hmode : hdr.mode = b.mode) :
    Sound c (s.dequeued c b a hdr)
      ∧ s.queue.step isExcl (.leave a) = some (s.dequeued c b a hdr).queue := by
  have hlen : s.log.length - s.released = q.length + 1 := by
    rw [← s.length_live, hq, List.length_cons]
  have hslots := hs.length_le
  have hlive : (s.dequeued c b a hdr).live = q := by
    rw [SwitchSide.live, SwitchSide.dequeued, ← List.tail_drop,
      show s.log.drop s.released = b :: q from hq, List.tail_cons]
  have hmb : inMode b := by
    refine hs.modes b (List.mem_of_mem_drop (i := s.released) ?_)
    rw [show s.log.drop s.released = b :: q from hq]
    exact List.mem_cons_self
  -- the new packet will address whoever the lock goes to
  have hdue : ((nextPass c hdr (s.released + 1) s.log.length true 1 b.mode).map
      fun p => (p.due s.log : Multiset Slot)).sum = (leaving isExcl (b :: q) b : List Slot) := by
    have hentries : (s.log.take s.log.length).drop (s.released + 1) = q := by
      rw [List.take_length]
      exact hlive
    rw [leaving_head, nextPass]
    split
    · rw [List.map_singleton, List.sum_singleton, Pass.due, Pass.entries, if_pos rfl, hentries]
    · next hno =>
        have hnil : q = [] := by
          rw [← List.length_eq_zero_iff]
          by_contra hpos
          exact hno ⟨by omega, rfl⟩
        simp [hnil, holders_nil]
  have hqueue : (s.dequeued c b a hdr).queue = s.queue.leave isExcl b a := by
    rw [ServedQueue.State.leave, show s.queue.live = b :: q from hq]
    simp only [SwitchSide.queue, SwitchSide.dequeued, List.map_append, List.sum_append, hdue]
  refine ⟨⟨?_, ?_, ?_, hs.modes, ?_, hs.tail, hs.recent, ?_, Multiset.erase_le_erase a hs.signalled⟩,
    ?_⟩
  · rw [hqueue]
    exact hs.queue.leave ha hq
  · rw [hlive]
    have hcount : countOf hdr.mode s.regs.sharedAndExclusiveCount ≠ 0 := by
      rw [hmode]
      exact hs.counted.countOf_ne_zero hs.slots hq hmb
    exact hs.slots.of_inStep (hs.slots.dequeue hq (hmode ▸ hmb) hcount) rfl rfl rfl
  · rw [hlive]
    exact hs.counted.dequeue hq hmode.symm (hmode ▸ hmb)
  · simp only [SwitchSide.dequeued, Registers.dequeue]
    rw [place_succ, ← hs.head, hs.slots.left_eq, hs.slots.right_eq]
  · intro p hp
    rcases List.mem_append.1 hp with hp | hp
    · exact hs.passes p hp
    · show p.Sound c s.log
      exact sound_nextPass le_rfl (by omega) (.inl rfl) hp
  · rw [ServedQueue.State.step, if_pos (show a ∈ s.queue.held from ha), hqueue,
      show s.queue.live = b :: q from hq]
    rfl

/-! ### Again -/

/-- Whether a packet that goes round addresses the client of the entry that it reads. -/
def Pass.Notifies (p : Pass) (a : Slot) : Prop :=
  p.hdr.recircFlag = 1 ∧ (p.rc.dequeuedMode = EXCLUSIVE_LOCK ∨ a.mode = EXCLUSIVE_LOCK)
    ∨ p.hdr.recircFlag = 2 ∧ a.mode = SHARED_LOCK

instance (p : Pass) (a : Slot) : Decidable (p.Notifies a) := inferInstanceAs (Decidable (_ ∨ _))

/-- Whether it goes on after it. -/
def Pass.again (p : Pass) (a : Slot) : Bool :=
  decide (p.hdr.recircFlag = 1 ∧ a.mode = SHARED_LOCK ∨ p.hdr.recircFlag = 2)

/-- The first of those that a packet will address is the one of the entry that it reads. -/
lemma due_cons {p : Pass} {a : Slot} {rest : List Slot} (hentries : p.entries log = a :: rest)
    (hflag : p.hdr.recircFlag = 1 ∨ p.hdr.recircFlag = 2) (ha : inMode a) :
    p.due log = if p.Notifies a then
        a :: if p.again a = true then sharedPrefix isExcl rest else []
      else [] := by
  rw [Pass.due, hentries, List.head?_cons]
  rcases hflag with hflag | hflag
  · rw [if_pos hflag]
    cases hx : isExcl a with
    | true =>
        have hm := isExcl_iff.1 hx
        have hno : p.again a = false := by
          simp [Pass.again, hflag, hm]
        rw [if_pos (.inr ⟨a, rfl, hm⟩), if_pos (.inl ⟨hflag, .inr hm⟩), holders_cons_writer hx, hno]
        rfl
    | false =>
        have hm := ha.shared_iff.1 hx
        have hyes : p.again a = true := by simp [Pass.again, hflag, hm]
        by_cases hd : p.rc.dequeuedMode = EXCLUSIVE_LOCK
        · rw [if_pos (.inl hd), if_pos (.inl ⟨hflag, .inl hd⟩), holders_cons_reader hx, hyes,
            if_pos rfl]
        · rw [if_neg, if_neg]
          · rintro (⟨-, h | h⟩ | ⟨h, -⟩)
            · exact hd h
            · rw [hm] at h
              exact absurd h (by decide)
            · rw [hflag] at h
              exact absurd h (by decide)
          · rintro (h | ⟨b, hb, h⟩)
            · exact hd h
            · obtain rfl := Option.some.inj hb
              rw [hm] at h
              exact absurd h (by decide)
  · have hne : ¬ p.hdr.recircFlag = 1 := by
      rw [hflag]
      decide
    rw [if_neg hne]
    cases hx : isExcl a with
    | true =>
        have hm := isExcl_iff.1 hx
        rw [sharedPrefix_cons_writer hx, if_neg]
        rintro (⟨h, -⟩ | ⟨-, h⟩)
        · exact hne h
        · rw [hm] at h
          exact absurd h (by decide)
    | false =>
        have hm := ha.shared_iff.1 hx
        have hyes : p.again a = true := by simp [Pass.again, hflag]
        rw [sharedPrefix_cons_reader hx, if_pos (.inr ⟨hflag, hm⟩), hyes, if_pos rfl]

/-- What `ReleaseLock` does with a packet that comes round again. -/
lemma releaseLock_again {p : Pass} {a : Slot} (hslot : r.arrays.slot p.rc.curHead = a)
    (hflag : p.hdr.recircFlag = 1 ∨ p.hdr.recircFlag = 2) :
    (releaseLock r p.hdr p.rc).2 = if p.Notifies a then
        (some a, nextSlot r p.rc.curHead p.rc.curTail (p.again a) 2 p.rc.dequeuedMode)
      else (none, .drop) := by
  have hne : ¬ p.hdr.recircFlag = 0 := by
    rcases hflag with h | h <;> rw [h] <;> decide
  simp only [releaseLock, if_neg hne, hslot]
  by_cases h : p.Notifies a
  · rw [if_pos h]
    exact congrArg Prod.snd (if_pos h)
  · rw [if_neg h]
    exact congrArg Prod.snd (if_neg h)

lemma sum_eraseIdx {i : ℕ} {p : Pass} {ps : List Pass} (hp : ps[i]? = some p)
    (f : Pass → Multiset Slot) : (ps.map f).sum = f p + ((ps.eraseIdx i).map f).sum := by
  obtain ⟨hi, rfl⟩ := List.getElem?_eq_some_iff.1 hp
  rw [← List.sum_cons, ← List.map_cons]
  exact ((List.getElem_cons_eraseIdx_perm hi).map f).sum_eq.symm

/-- The entry that a packet reads is still in its slot. -/
lemma Sound.slot_curHead (hs : Sound c s) {p : Pass} (hp : p ∈ s.passes) :
    ∃ a rest, p.entries s.log = a :: rest ∧ s.regs.arrays.slot p.rc.curHead = a ∧ inMode a
      ∧ rest = (s.log.take p.last).drop (p.first + 1) := by
  have hps := hs.passes p hp
  obtain ⟨hlt, hentries⟩ := hps.entries_eq
  refine ⟨_, _, hentries, ?_, hs.modes _ (List.getElem_mem hlt), rfl⟩
  rw [hps.curHead]
  exact hs.recent p.first hlt hps.intact

/-- A packet that goes on is to address the readers that are left. -/
lemma due_nextPass {p : Pass} {a : Slot} {rest : List Slot}
    (hrest : rest = (log.take p.last).drop (p.first + 1)) :
    ((nextPass c p.hdr (p.first + 1) p.last (p.again a) 2 p.rc.dequeuedMode).map
        fun o => (o.due log : Multiset Slot)).sum
      = ((if p.again a = true then sharedPrefix isExcl rest else [] : List Slot)
        : Multiset Slot) := by
  rw [nextPass]
  by_cases hag : p.again a = true
  · rw [if_pos hag]
    split
    · rw [List.map_singleton, List.sum_singleton, Pass.due,
        if_neg (show ¬ (2 : BitVec 8) = 1 by decide), Pass.entries, hrest]
    · next hno =>
        have hnil : rest = [] := by
          rw [hrest, ← List.length_eq_zero_iff, List.length_drop, List.length_take]
          have : ¬ p.first + 1 < p.last := fun h => hno ⟨h, hag⟩
          omega
        rw [hnil]
        rfl
  · rw [if_neg hag, if_neg fun h => hag h.2]
    rfl

lemma Sound.releaseLock_regs (hs : Sound c s) {p : Pass} (hp : p ∈ s.passes) :
    (releaseLock s.regs p.hdr p.rc).1 = s.regs := by
  refine releaseLock_recirculated ?_ _
  rcases (hs.passes p hp).flag with h | h <;> rw [h] <;> decide

/-- A packet that addresses the client of the entry that it reads. -/
lemma Sound.passed_notifies (hs : Sound c s) {i : ℕ} {p : Pass} (hi : s.passes[i]? = some p)
    {a : Slot} {rest : List Slot} (hentries : p.entries s.log = a :: rest)
    (hslot : s.regs.arrays.slot p.rc.curHead = a) (ha : inMode a)
    (hrest : rest = (s.log.take p.last).drop (p.first + 1)) (hn : p.Notifies a) :
    Sound c (s.passed i p) ∧ (s.passed i p).regs = s.regs
      ∧ s.queue.step isExcl (.notify a) = some (s.passed i p).queue := by
  have hp : p ∈ s.passes := List.mem_of_getElem? hi
  have hps := hs.passes p hp
  have hregs := hs.releaseLock_regs hp
  have hdue := due_cons hentries hps.flag ha
  have hagain := releaseLock_again hslot hps.flag
  rw [if_pos hn] at hdue hagain
  have hlast := hps.last_le
  have hfirst := hps.first_lt
  have hintact := hps.intact
  have hround := goesRound_nextSlot p.hdr (r := s.regs) (i := p.first + 1) (n := p.last)
    hs.slots.left_eq hs.slots.right_eq (by omega) (by omega) (p.again a) 2 p.rc.dequeuedMode
  rw [← hps.curHead, ← hps.curTail] at hround
  have heq : s.passed i p = { s.send {changeOpTypeAction a} with
      passes := s.passes.eraseIdx i
        ++ nextPass c p.hdr (p.first + 1) p.last (p.again a) 2 p.rc.dequeuedMode } := by
    simp only [SwitchSide.passed, hregs, hagain, hround]
    rfl
  have hsum := sum_eraseIdx hi fun o => (o.due s.log : Multiset Slot)
  have hmem : a ∈ s.queue.due := by
    show a ∈ (s.passes.map fun o => (o.due s.log : Multiset Slot)).sum
    rw [hsum, hdue]
    simp
  have hqueue : (s.passed i p).queue = s.queue.notify a := by
    rw [heq]
    simp only [SwitchSide.queue, SwitchSide.send, ServedQueue.State.notify, List.map_append,
      List.sum_append, hsum, hdue, due_nextPass hrest, Multiset.map_add, Multiset.map_singleton,
      changeOpTypeAction]
    rw [← Multiset.cons_coe, Multiset.cons_add, Multiset.erase_cons_head, add_comm]
  refine ⟨?_, by rw [heq]; rfl, by rw [ServedQueue.State.step, if_pos hmem, hqueue]⟩
  have hq := hs.queue.notify hmem
  rw [← hqueue] at hq
  rw [heq] at hq ⊢
  refine ⟨hq, hs.slots, hs.counted, hs.modes, hs.head, hs.tail, hs.recent, fun o ho => ?_,
    signalled_send hs.signalled _⟩
  rcases List.mem_append.1 ho with ho | ho
  · exact hs.passes o (List.eraseIdx_subset ho)
  · exact sound_nextPass hlast (by omega) (.inr rfl) ho

/-- A packet that meets the end of the readers is dropped. -/
lemma Sound.passed_drops (hs : Sound c s) {i : ℕ} {p : Pass} (hi : s.passes[i]? = some p)
    {a : Slot} {rest : List Slot} (hentries : p.entries s.log = a :: rest)
    (hslot : s.regs.arrays.slot p.rc.curHead = a) (ha : inMode a) (hn : ¬ p.Notifies a) :
    Sound c (s.passed i p) ∧ (s.passed i p).regs = s.regs ∧ (s.passed i p).queue = s.queue := by
  have hp : p ∈ s.passes := List.mem_of_getElem? hi
  have hps := hs.passes p hp
  have hdue := due_cons hentries hps.flag ha
  have hagain := releaseLock_again hslot hps.flag
  rw [if_neg hn] at hdue hagain
  have heq : s.passed i p = { s with passes := s.passes.eraseIdx i } := by
    simp only [SwitchSide.passed, SwitchSide.send, hs.releaseLock_regs hp, hagain, goesRound,
      List.append_nil, Option.toList_none, Multiset.coe_nil, Multiset.map_zero,
      Multiset.filter_zero, add_zero]
  have hqueue : (s.passed i p).queue = s.queue := by
    rw [heq]
    simp only [SwitchSide.queue, sum_eraseIdx hi, hdue, Multiset.coe_nil, zero_add]
  refine ⟨?_, by rw [heq], hqueue⟩
  have hq := hs.queue
  rw [← hqueue] at hq
  rw [heq] at hq ⊢
  exact ⟨hq, hs.slots, hs.counted, hs.modes, hs.head, hs.tail, hs.recent,
    fun o ho => hs.passes o (List.eraseIdx_subset ho), hs.signalled⟩

/-- **A packet comes round**, and addresses the client of the entry that it reads, or nobody. -/
lemma Sound.passed (hs : Sound c s) {i : ℕ} {p : Pass} (hi : s.passes[i]? = some p) :
    Sound c (s.passed i p) ∧ (s.passed i p).regs = s.regs
      ∧ ((s.passed i p).queue = s.queue
        ∨ ∃ a, s.queue.step isExcl (.notify a) = some (s.passed i p).queue) := by
  obtain ⟨a, rest, hentries, hslot, ha, hrest⟩ := hs.slot_curHead (List.mem_of_getElem? hi)
  by_cases hn : p.Notifies a
  · obtain ⟨hsound, hregs, hqueue⟩ := hs.passed_notifies hi hentries hslot ha hrest hn
    exact ⟨hsound, hregs, .inr ⟨a, hqueue⟩⟩
  · obtain ⟨hsound, hregs, hqueue⟩ := hs.passed_drops hi hentries hslot ha hn
    exact ⟨hsound, hregs, .inl hqueue⟩

end GoRound

end FissLock.NetLock.TwoSides
