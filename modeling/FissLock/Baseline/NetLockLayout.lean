import FissLock.Baseline.NetLockInOrder
import FissLock.Library.SharedMemory

/-!
# The locks of a NetLock switch

All locks that a switch knows keep their requests in the same register arrays.  The control plane
reads a file of lines `lk,lk_num` and gives every lock the `lk_num` slots behind those of the lock
before it.  No packet carries the bounds, and nothing checks them: that a packet for one lock does
not touch the slots of another is a consequence of where its own head, its own tail and the packets
that go round are.

`startBounds` is the loop over the file, and `Layout` a file that fits the arrays, in which every
lock has a slot.  `Switches` are the locks with the arrays that they share, and `lock_alone` says that
every lock runs as if it had arrays of its own, whatever the others do.
-/

namespace FissLock.NetLock.TwoSides

open Runs Ring Function HolderQueue NetLock.Switch Noninterference

/-! ## The arrays are apart from the rest of a lock -/

/-- The registers over other arrays. -/
def Registers.on (r : Registers) (a : Arrays) : Registers := { r with arrays := a }

/-- The lock over other arrays. -/
def Lock.on (s : Lock) (a : Arrays) : Lock :=
  { s with toSwitchSide := { s.toSwitchSide with regs := Registers.on s.regs a } }

section On

variable {r : Registers} {a b : Arrays} {hdr : NlkHdr} {rc : RecirculateHdr} {s : Lock}

/-- `AcquireLock` writes the arrays, if at all, where the tail is then, and reads nothing. -/
lemma acquireLock_on (r : Registers) (a : Arrays) (hdr : NlkHdr) :
    (acquireLock (Registers.on r a) hdr).2 = (acquireLock r hdr).2
      ∧ (acquireLock (Registers.on r a) hdr).1 = Registers.on (acquireLock r hdr).1
        (if (acquireLock r hdr).2.isToServer then a
          else a.write (updateTailAlu r.left r.right r.tail) hdr) := by
  simp only [acquireLock, Registers.on]
  split_ifs <;> simp_all [Verdict.isToServer]

/-- The slot that `ReleaseLock` reads. -/
def readSlot (r : Registers) (hdr : NlkHdr) (rc : RecirculateHdr) : BitVec 32 :=
  if hdr.recircFlag = 0 then updateHeadAlu r.left r.right r.head else rc.curHead

lemma nextSlot_congr {t : Registers} (hl : r.left = t.left) (hr : r.right = t.right)
    {head : BitVec 32} (hslot : r.arrays.slot head = t.arrays.slot head) (tail : BitVec 32)
    (again : Bool) (flag mode : BitVec 8) :
    nextSlot r head tail again flag mode = nextSlot t head tail again flag mode := by
  simp only [nextSlot, hl, hr, hslot]

/-- The registers after a RELEASE that comes for the first time. -/
def afterRelease (r : Registers) (hdr : NlkHdr) : Registers :=
  { r with
    slotsTwoSides := (incEmptySlotsAlu (sizeOfQueue r) r.slotsTwoSides).1
    head := updateHeadAlu r.left r.right r.head
    sharedAndExclusiveCount := updateLockAlu hdr.mode r.sharedAndExclusiveCount }

lemma releaseLock_first (hflag : hdr.recircFlag = 0) : releaseLock r hdr rc
    = (afterRelease r hdr, none,
      if (incEmptySlotsAlu (sizeOfQueue r) r.slotsTwoSides).2 = sizeOfQueue r then
        .toServer (incEmptySlotsAlu (sizeOfQueue r) r.slotsTwoSides).2
          (updateHeadAlu r.left r.right r.head) 0
      else nextSlot (afterRelease r hdr) (updateHeadAlu r.left r.right r.head) r.tail true 1
        (r.arrays.slot (updateHeadAlu r.left r.right r.head)).mode) := by
  simp only [releaseLock, if_pos hflag]
  split <;> rfl

lemma releaseLock_round (hflag : ¬ hdr.recircFlag = 0) : releaseLock r hdr rc
    = (r, if Pass.Notifies ⟨hdr, rc, 0, 0⟩ (r.arrays.slot rc.curHead) then
        (some (r.arrays.slot rc.curHead), nextSlot r rc.curHead rc.curTail
          (Pass.again ⟨hdr, rc, 0, 0⟩ (r.arrays.slot rc.curHead)) 2 rc.dequeuedMode)
      else (none, .drop)) := by
  simp only [releaseLock, if_neg hflag]
  by_cases hn : Pass.Notifies ⟨hdr, rc, 0, 0⟩ (r.arrays.slot rc.curHead)
  · rw [if_pos hn]
    exact if_pos hn
  · rw [if_neg hn]
    exact if_neg hn

/-- `ReleaseLock` reads one slot and writes none. -/
lemma releaseLock_on (h : a.slot (readSlot r hdr rc) = r.arrays.slot (readSlot r hdr rc)) :
    releaseLock (Registers.on r a) hdr rc
      = (Registers.on (releaseLock r hdr rc).1 a, (releaseLock r hdr rc).2) := by
  unfold readSlot at h
  by_cases hflag : hdr.recircFlag = 0
  · rw [if_pos hflag] at h
    have hmode : ((Registers.on r a).arrays.slot
        (updateHeadAlu (Registers.on r a).left (Registers.on r a).right (Registers.on r a).head)).mode
        = (r.arrays.slot (updateHeadAlu r.left r.right r.head)).mode := congrArg Slot.mode h
    rw [releaseLock_first hflag, releaseLock_first hflag, hmode]
    refine Prod.ext rfl (Prod.ext rfl ?_)
    by_cases hlast : (incEmptySlotsAlu (sizeOfQueue r) r.slotsTwoSides).2 = sizeOfQueue r
    · exact (if_pos hlast).trans (if_pos hlast).symm
    · have hnext := nextSlot_congr (r := afterRelease (Registers.on r a) hdr)
        (t := afterRelease r hdr) rfl rfl h r.tail true 1
        (r.arrays.slot (updateHeadAlu r.left r.right r.head)).mode
      exact (if_neg hlast).trans (hnext.trans (if_neg hlast).symm)
  · rw [if_neg hflag] at h
    have hslot : (Registers.on r a).arrays.slot rc.curHead = r.arrays.slot rc.curHead := h
    have hnext := nextSlot_congr (r := Registers.on r a) (t := r) rfl rfl h
    rw [releaseLock_round hflag, releaseLock_round hflag, hslot, hnext]

end On

/-! ## The steps of a lock over other arrays -/

/-- The slots of a lock. -/
def ring (c : Config) : Set (BitVec 32) :=
  {x | c.startBound + 1 ≤ x ∧ x ≤ c.startBound + c.lkNum}

section Steps

variable {c : Setup} {s s' : Lock} {a : Arrays} {hdr : NlkHdr}

/-- The arrays agree in the slots of the lock. -/
abbrev Agree (c : Config) (a b : Arrays) : Prop := AgreeOn Arrays.slot (ring c) a b

lemma Agree.write {c : Config} {b : Arrays} (h : Agree c a b) (tail : BitVec 32) (hdr : NlkHdr) :
    Agree c (a.write tail hdr) (b.write tail hdr) := by
  intro x hx
  rw [slot_write, slot_write]
  by_cases hxt : x = tail
  · rw [hxt, update_self, update_self]
  · rw [update_of_ne hxt, update_of_ne hxt]
    exact h x hx

/-- What an ACQUIRE makes of the arrays. -/
def written (s : Lock) (a : Arrays) (hdr : NlkHdr) : Arrays :=
  if (acquireLock s.regs hdr).2.isToServer then a
  else a.write (updateTailAlu s.regs.left s.regs.right s.regs.tail) hdr

lemma acquired_on (s : Lock) (a : Arrays) (hdr : NlkHdr) :
    (s.on a).acquired hdr
      = { s.acquired hdr with regs := Registers.on (s.acquired hdr).regs (written s a hdr) } := by
  obtain ⟨hverdict, hregs⟩ := acquireLock_on s.regs a hdr
  simp only [SwitchSide.acquired]
  rw [show acquireLock (s.on a).regs hdr = (_, _) from Prod.ext hregs hverdict]
  rfl

/-- An ACQUIRE writes a slot of the lock. -/
lemma Inv.written_agree (hi : Inv c s) (h : Agree c.config a s.regs.arrays) (hdr : NlkHdr) :
    Agree c.config (written s a hdr) (written s s.regs.arrays hdr)
      ∧ ∀ x ∉ ring c.config, (written s a hdr).slot x = a.slot x := by
  rw [written, written]
  split
  · exact ⟨h, fun _ _ => rfl⟩
  · refine ⟨h.write _ hdr, fun x hx => ?_⟩
    have hmem := advance_mem hi.switch.slots.tail_mem
    rw [hi.switch.slots.left_eq, hi.switch.slots.right_eq] at hmem
    rw [slot_write, update_of_ne]
    rintro rfl
    refine hx ?_
    rw [hi.switch.slots.left_eq, hi.switch.slots.right_eq]
    exact hmem

/-- What a step makes of the arrays. -/
def after (s : Lock) (a : Arrays) : Event → Arrays
  | .acquire hdr => written s a hdr
  | .pushBack =>
      match s.toSwitch with
      | [] => a
      | hdr :: _ => written s a hdr
  | .release _ _ => a
  | .pass _ => a
  | .serve => a

/-- **A lock reads its own slots only.** -/
lemma Inv.step_on (hi : Inv c s) (h : Agree c.config a s.regs.arrays) (e : Event) :
    (s.on a).step c.lenInSwitch e = (s.step c.lenInSwitch e).map fun t => t.on (after s a e) := by
  have hverdict : ∀ hdr, (acquireLock (s.on a).regs hdr).2 = (acquireLock s.regs hdr).2 :=
    fun hdr => (acquireLock_on s.regs a hdr).1
  cases e with
  | acquire hdr =>
      simp only [Lock.step, acquired_on, hverdict]
      split <;> rfl
  | release r hdr =>
      simp only [Lock.step]
      by_cases hgive : r ∈ s.addressed ∧ NlkHdr.GivesBack hdr r
      · have hmem : readSlot s.regs hdr .invalid ∈ ring c.config := by
          have hhead := advance_mem hi.switch.slots.head_mem
          rw [readSlot, if_pos hgive.2.2.1]
          rw [hi.switch.slots.left_eq, hi.switch.slots.right_eq] at hhead ⊢
          exact hhead
        have hrel : releaseLock (s.on a).regs hdr .invalid
            = (Registers.on (releaseLock s.regs hdr .invalid).1 a,
              (releaseLock s.regs hdr .invalid).2) := releaseLock_on (h _ hmem)
        rw [if_pos hgive, if_pos (show r ∈ (s.on a).addressed ∧ _ from hgive)]
        simp only [SwitchSide.releasedBy, hrel]
        rfl
      · rw [if_neg hgive, if_neg (show ¬ (r ∈ (s.on a).addressed ∧ _) from hgive)]
        rfl
  | pass i =>
      simp only [Lock.step]
      rw [show (s.on a).passes = s.passes from rfl]
      cases hp : s.passes[i]? with
      | none => rfl
      | some p =>
          have hps := hi.switch.passes p (List.mem_of_getElem? hp)
          have hmem : readSlot s.regs p.hdr p.rc ∈ ring c.config := by
            rw [readSlot, if_neg, hps.curHead]
            · exact place_mem c.config _
            · rcases hps.flag with hflag | hflag <;> rw [hflag] <;> decide
          have hrel : releaseLock (s.on a).regs p.hdr p.rc
              = (Registers.on (releaseLock s.regs p.hdr p.rc).1 a,
                (releaseLock s.regs p.hdr p.rc).2) := releaseLock_on (h _ hmem)
          simp only [Option.map_some, SwitchSide.passed, hrel]
          rfl
  | serve =>
      simp only [Lock.step]
      rw [show (s.on a).toServer = s.toServer from rfl]
      cases s.toServer with
      | nil => rfl
      | cons hdr rest => rfl
  | pushBack =>
      simp only [Lock.step, after]
      rw [show (s.on a).toSwitch = s.toSwitch from rfl]
      cases s.toSwitch with
      | nil => rfl
      | cons hdr rest =>
          simp only [acquired_on, hverdict]
          rfl

/-- **It writes its own slots only**, whatever is in the others. -/
lemma Inv.after_agree (hi : Inv c s) (h : Agree c.config a s.regs.arrays) (e : Event) :
    Agree c.config (after s a e) (after s s.regs.arrays e)
      ∧ ∀ x ∉ ring c.config, (after s a e).slot x = a.slot x := by
  cases e with
  | acquire hdr => exact hi.written_agree h hdr
  | release r hdr => exact ⟨h, fun _ _ => rfl⟩
  | pass i => exact ⟨h, fun _ _ => rfl⟩
  | serve => exact ⟨h, fun _ _ => rfl⟩
  | pushBack =>
      simp only [after]
      cases s.toSwitch with
      | nil => exact ⟨h, fun _ _ => rfl⟩
      | cons hdr rest => exact hi.written_agree h hdr

end Steps

/-! ## The file -/

/-- The number of slots of the register arrays. -/
abbrev LENGTH_ARRAY : ℕ := 110000

/-- A line `lk,lk_num`. -/
structure Line where
  lk : BitVec 32
  lkNum : ℕ
  deriving DecidableEq, Repr

/-- The loop over the lines, which stops after `tot_lk` of them: every line with the `start_bound`
that it finds. -/
def writeLocks (totLk : ℕ) : ℕ → ℕ → List Line → List (Line × ℕ)
  | _, _, [] => []
  | startBound, lockCounter, l :: lines =>
      (l, startBound) ::
        if totLk ≤ lockCounter + 1 then []
        else writeLocks totLk (startBound + l.lkNum) (lockCounter + 1) lines

/-- The slots of a line end where those of the next one begin. -/
lemma writeLocks_bounds (totLk startBound lockCounter : ℕ) (lines : List Line) :
    (writeLocks totLk startBound lockCounter lines).Pairwise (fun x y => x.2 + x.1.lkNum ≤ y.2)
      ∧ ∀ x ∈ writeLocks totLk startBound lockCounter lines, startBound ≤ x.2
        ∧ x.2 + x.1.lkNum ≤ startBound + (lines.map Line.lkNum).sum := by
  induction lines generalizing startBound lockCounter with
  | nil => exact ⟨List.Pairwise.nil, by simp [writeLocks]⟩
  | cons l lines ih =>
      obtain ⟨hpair, hbound⟩ := ih (startBound + l.lkNum) (lockCounter + 1)
      rw [writeLocks, List.map_cons, List.sum_cons]
      split
      · refine ⟨List.pairwise_singleton _ _, fun x hx => ?_⟩
        rw [List.mem_singleton.1 hx]
        exact ⟨le_rfl, by dsimp only; omega⟩
      · refine ⟨List.pairwise_cons.2 ⟨fun x hx => (hbound x hx).1, hpair⟩, fun x hx => ?_⟩
        rcases List.mem_cons.1 hx with rfl | hx
        · exact ⟨le_rfl, by dsimp only; omega⟩
        · have := hbound x hx
          exact ⟨by omega, by omega⟩

/-- A file that fits the arrays and gives every lock a slot. -/
structure Layout where
  totLk : ℕ
  lines : List Line
  slot : ∀ l ∈ lines, 0 < l.lkNum
  fits : (lines.map Line.lkNum).sum < LENGTH_ARRAY

namespace Layout

variable (l : Layout)

/-- The lines that are written, with their bounds. -/
def entries : List (Line × ℕ) := writeLocks l.totLk 0 0 l.lines

lemma mem_lines {x : Line × ℕ} {totLk startBound lockCounter : ℕ} {lines : List Line}
    (hx : x ∈ writeLocks totLk startBound lockCounter lines) : x.1 ∈ lines := by
  induction lines generalizing startBound lockCounter with
  | nil => cases hx
  | cons l lines ih =>
      rw [writeLocks] at hx
      rcases List.mem_cons.1 hx with rfl | hx
      · exact List.mem_cons_self
      · split at hx
        · cases hx
        · exact List.mem_cons_of_mem _ (ih hx)

lemma entry_bounds (i : Fin l.entries.length) :
    0 < l.entries[i].1.lkNum ∧ l.entries[i].2 + l.entries[i].1.lkNum < 2 ^ 32 := by
  have hmem : l.entries[i] ∈ l.entries := List.getElem_mem i.2
  have hbound := ((writeLocks_bounds l.totLk 0 0 l.lines).2 _ hmem).2
  have hfits : (l.lines.map Line.lkNum).sum < 110000 := l.fits
  exact ⟨l.slot _ (mem_lines hmem), by omega⟩

/-- What the control plane writes for the lock of a line. -/
def config (i : Fin l.entries.length) : Config where
  startBound := BitVec.ofNat 32 l.entries[i].2
  lkNum := BitVec.ofNat 32 l.entries[i].1.lkNum
  pos := by
    obtain ⟨hpos, hlt⟩ := l.entry_bounds i
    rw [BitVec.toNat_ofNat, Nat.mod_eq_of_lt (by omega)]
    exact hpos
  fits := by
    obtain ⟨hpos, hlt⟩ := l.entry_bounds i
    rw [BitVec.toNat_ofNat, BitVec.toNat_ofNat, Nat.mod_eq_of_lt (by omega),
      Nat.mod_eq_of_lt (by omega)]
    omega

/-- The slots of a lock, as numbers. -/
lemma mem_ring {i : Fin l.entries.length} {x : BitVec 32} : x ∈ ring (l.config i)
    ↔ l.entries[i].2 < x.toNat ∧ x.toNat ≤ l.entries[i].2 + l.entries[i].1.lkNum := by
  obtain ⟨hpos, hlt⟩ := l.entry_bounds i
  have hstart : (l.config i).startBound.toNat = l.entries[i].2 := by
    rw [config, BitVec.toNat_ofNat, Nat.mod_eq_of_lt (by omega)]
  have hnum : (l.config i).lkNum.toNat = l.entries[i].1.lkNum := by
    rw [config, BitVec.toNat_ofNat, Nat.mod_eq_of_lt (by omega)]
  show _ ∧ _ ↔ _
  rw [BitVec.le_def, BitVec.le_def, Config.toNat_left, Config.toNat_right, hstart, hnum]
  rfl

/-- Locks have no slot in common. -/
lemma disjoint_ring {i j : Fin l.entries.length} (hij : i ≠ j) :
    Disjoint (ring (l.config i)) (ring (l.config j)) := by
  have hpair := List.pairwise_iff_getElem.1 (writeLocks_bounds l.totLk 0 0 l.lines).1
  rw [Set.disjoint_left]
  intro x hi hj
  rw [mem_ring] at hi hj
  rcases lt_or_gt_of_ne hij with h | h
  · have hle : l.entries[i].2 + l.entries[i].1.lkNum ≤ l.entries[j].2 := hpair i j i.2 j.2 h
    omega
  · have hle : l.entries[j].2 + l.entries[j].1.lkNum ≤ l.entries[i].2 := hpair j i j.2 i.2 h
    omega

/-! ## The switch -/

variable (a : Arrays) (lenInSwitch : Fin l.entries.length → BitVec 32)

/-- A lock, with the arrays as they are at the start and the length that the server knows. -/
def setup (i : Fin l.entries.length) : Setup := ⟨l.config i, a, lenInSwitch i⟩

/-- A lock without the arrays, which are those of the switch. -/
def bare (s : Lock) : Lock := s.on zeroed

/-- The step of a lock over the arrays of the switch. -/
def lockStep (i : Fin l.entries.length) (s : Lock × Arrays) (e : Event) : Option (Lock × Arrays) :=
  ((s.1.on s.2).step (lenInSwitch i) e).map fun t => (bare t, t.regs.arrays)

def lockMeets (i : Fin l.entries.length) (s : Lock × Arrays) (e : Event) : Prop :=
  (s.1.on s.2).Meets (lenInSwitch i) e

/-- The states of all locks of the switch, in runs in which packets of all of them come in any
order and every one meets the condition for its lock. -/
abbrev Reachable : (Fin l.entries.length → Lock) × Arrays → Prop :=
  Reach (SharedMemory.step (l.lockStep lenInSwitch)) (SharedMemory.ok (l.lockMeets lenInSwitch))
    (fun i => bare (Lock.init (l.setup a lenInSwitch i)), a)

/-- A lock with the arrays to itself. -/
lemma reachable_on {i : Fin l.entries.length} {s : Lock × Arrays}
    (h : Reach (l.lockStep lenInSwitch i) (l.lockMeets lenInSwitch i)
      (bare (Lock.init (l.setup a lenInSwitch i)), a) s) :
    Lock.Reachable (l.setup a lenInSwitch i) (s.1.on s.2) := by
  have hstep : ∀ (s : Lock × Arrays) (e : Event) s', l.lockStep lenInSwitch i s e = some s' →
      Lock.step (lenInSwitch i) (s.1.on s.2) e = some (s'.1.on s'.2) := by
    intro s e s' hs
    obtain ⟨t, ht, rfl⟩ := Option.map_eq_some_iff.1 hs
    exact ht
  have hok : ∀ (s : Lock × Arrays) (e : Event), l.lockMeets lenInSwitch i s e →
      Lock.Meets (lenInSwitch i) (s.1.on s.2) e := fun _ _ h => h
  exact h.map (fun s : Lock × Arrays => s.1.on s.2) hstep hok

lemma local_locks : SharedMemory.Local (l.lockStep lenInSwitch) (l.lockMeets lenInSwitch)
    (fun i => bare (Lock.init (l.setup a lenInSwitch i))) a Arrays.slot
    (fun i => ring (l.config i)) where
  within i s m m' e t hreach hagree hok ht := by
    have hi := inv_of_reachable (l.reachable_on a lenInSwitch hreach)
    have hstep := hi.step_on (a := m) hagree e
    obtain ⟨hafter, hframe⟩ := hi.after_agree (a := m) hagree e
    obtain ⟨u, hu, rfl⟩ := Option.map_eq_some_iff.1 ht
    obtain ⟨v, hv, rfl⟩ := Option.map_eq_some_iff.1 (hstep.symm.trans hu)
    -- with the arrays to itself it takes the same step
    have hown := hi.step_on (a := m') (fun _ _ => rfl) e
    rw [hv] at hown
    refine ⟨hok, hframe, after (s.on m') m' e, ?_, hafter⟩
    simp only [lockStep]
    exact congrArg (Option.map fun t => (bare t, t.regs.arrays)) hown
  disjoint i j hij := l.disjoint_ring hij

/-- **Every lock of the switch is alone**, as long as every lock meets the condition at its own steps.
Whatever the other locks do, its registers, its packets and its requests are those of a lock that has
arrays to itself, which its slots agree with.  So every lock serves its requests in their order, and
every writer that was sent a packet is alone. -/
theorem lock_alone {s : (Fin l.entries.length → Lock) × Arrays}
    (h : l.Reachable a lenInSwitch s) (i : Fin l.entries.length) :
    (∃ m, Lock.Reachable (l.setup a lenInSwitch i) ((s.1 i).on m)
        ∧ ∀ x ∈ ring (l.config i), s.2.slot x = m.slot x)
      ∧ (s.1 i).log.map Slot.node ++ (s.1 i).parked = (s.1 i).arrived
      ∧ ∀ r ∈ (s.1 i).addressed, r.mode = EXCLUSIVE_LOCK → (s.1 i).addressed = {r} := by
  obtain ⟨m, hm, hagree⟩ := (l.local_locks a lenInSwitch).reach_alone h i
  have halone := l.reachable_on a lenInSwitch hm
  have hi := inv_of_reachable halone
  exact ⟨⟨m, halone, hagree⟩, hi.order,
    fun r hr hx => (hi.switch.queue.alone hr (isExcl_iff.2 hx)).1⟩

instance (s : (Fin l.entries.length → Lock) × Arrays) :
    ∀ e, Decidable (SharedMemory.ok (l.lockMeets lenInSwitch) s e)
  | (i, e) => inferInstanceAs (Decidable (((s.1 i).on s.2).Meets (lenInSwitch i) e))

/-- A lock with one slot and one with two. -/
def twoLocks : Layout := ⟨2, [⟨40, 1⟩, ⟨41, 2⟩], by decide, by decide⟩

/-- A writer is granted the first of two locks, and a writer that came later the second. -/
theorem lock_alone_two : ∃ s, twoLocks.Reachable zeroed (fun _ => 1) s
    ∧ (s.1 ⟨0, by decide⟩).addressed = {(request ACQUIRE_LOCK EXCLUSIVE_LOCK 7).slot}
    ∧ (s.1 ⟨1, by decide⟩).addressed = {(request ACQUIRE_LOCK EXCLUSIVE_LOCK 8).slot}
    ∧ ∃ m, Lock.Reachable (twoLocks.setup zeroed (fun _ => 1) ⟨1, by decide⟩)
      ((s.1 ⟨1, by decide⟩).on m) := by
  have hrun : ∃ s, twoLocks.Reachable zeroed (fun _ => 1) s
      ∧ ((s.1 ⟨0, by decide⟩).addressed = {(request ACQUIRE_LOCK EXCLUSIVE_LOCK 7).slot}
        ∧ (s.1 ⟨1, by decide⟩).addressed = {(request ACQUIRE_LOCK EXCLUSIVE_LOCK 8).slot}) :=
    Reach.exists_of_runFrom [(⟨0, by decide⟩, .acquire (request ACQUIRE_LOCK EXCLUSIVE_LOCK 7)),
      (⟨1, by decide⟩, .acquire (request ACQUIRE_LOCK EXCLUSIVE_LOCK 8))] (by decide +kernel)
  obtain ⟨s, hs, h0, h1⟩ := hrun
  obtain ⟨⟨m, hm, -⟩, -⟩ := twoLocks.lock_alone zeroed (fun _ => 1) hs ⟨1, by decide⟩
  exact ⟨s, hs, h0, h1, m, hm⟩

end Layout

end FissLock.NetLock.TwoSides
