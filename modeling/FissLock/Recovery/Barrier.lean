import FissLock.Library.Runs
import FissLock.Recovery.Coordinator

/-!
# The recovery barrier

A recovery round starts when a fault code is published.  Every machine that it marks alive runs
`integrity_check`: it submits its holders and waiters, calls `recovery_ready` until the answer is
positive, and only then asks `check_holder`.  The positive answer should mean that all the others
have submitted too.

It means that the switch is ready, and nothing else.  So the barrier holds exactly as far as
somebody else makes sure of it: the byte of the switch must not be set before every machine has
called, and must be clear when a round starts.  `check_waiter` compares properly, but with a bitmap
that is never reset, so that its answers are right in the first round of a daemon.
`recovery_barrier` says that these conditions suffice; `recovery_barrier_fails` that the code alone
does not.
-/

namespace FissLock

open Runs

/-- Where a machine is in `integrity_check` of the current round. -/
inductive RecoveryPhase where
  /-- It is submitting its holders and waiters. -/
  | collecting
  /-- It has called `recovery_ready`. -/
  | waiting
  /-- The answer was positive. -/
  | checking
  deriving DecidableEq, Repr

/-- The daemon and the progress of the current round. -/
structure Barrier where
  coord : Coordinator
  /-- The fault code of the round. -/
  code : BitVec 64
  phase : HostId → RecoveryPhase

/-- What can happen. -/
inductive BarrierEvent where
  /-- A fault is detected, and a round starts. -/
  | newRound (code : BitVec 64)
  /-- The control plane of the switch writes its byte. -/
  | signal (v : BitVec 8)
  | collectHolders (m : HostId) (lid : LockId) (holder : LockHolder)
  | collectWaiters (m : HostId) (lid : LockId) (waiter : LockHolder)
  | recoveryReady (m : HostId)
  | checkHolder (m : HostId) (isAgent : Bool) (lid : LockId) (holderNum : ℕ)
  deriving DecidableEq, Repr

namespace Barrier

/-- The daemon has just been started. -/
def init : Barrier where
  coord := .init
  code := 0
  phase := fun _ => .collecting

/-- The machine takes part in the round. -/
def alive (s : Barrier) (m : HostId) : Prop := liveMachine s.code m

instance (s : Barrier) (m : HostId) : Decidable (s.alive m) :=
  inferInstanceAs (Decidable (liveMachine _ _))

/-- The machine has called `recovery_ready` in this round. -/
def issued (s : Barrier) (m : HostId) : Prop := s.phase m ≠ .collecting

instance (s : Barrier) (m : HostId) : Decidable (s.issued m) := inferInstanceAs (Decidable (_ ≠ _))

/-- The step function: each machine follows `integrity_check`. -/
def step (s : Barrier) : BarrierEvent → Option Barrier
  | .newRound code => some { s with code := code, phase := fun _ => .collecting }
  | .signal v => some { s with coord := { s.coord with readySignal := v } }
  | .collectHolders m lid holder =>
      if s.alive m ∧ s.phase m = .collecting then
        some { s with coord := s.coord.collectHolders lid holder }
      else none
  | .collectWaiters m lid waiter =>
      if s.alive m ∧ s.phase m = .collecting then
        some { s with coord := s.coord.collectWaiters lid waiter }
      else none
  | .recoveryReady m =>
      if s.alive m ∧ s.phase m ≠ .checking then
        let r := s.coord.recoveryReady (m.setWidth 32) s.code
        some { s with
          coord := r.1
          phase := Function.update s.phase m (if r.2 then .checking else .waiting) }
      else none
  | .checkHolder m isAgent lid holderNum =>
      if s.alive m ∧ s.phase m = .checking then
        some { s with coord := (s.coord.checkHolder isAgent lid holderNum).1 }
      else none

/-- The states of all runs whose steps meet `ok`. -/
abbrev Reachable (ok : Barrier → BarrierEvent → Prop) : Barrier → Prop := Reach step ok init

/-- What the barrier promises. -/
structure Holds (s : Barrier) : Prop where
  /-- A positive answer is given only if the switch is ready and all live machines have called. -/
  ready : ∀ m, s.alive m → (s.coord.recoveryReady (m.setWidth 32) s.code).2 = true →
    s.coord.readySignal ≠ 0 ∧ ∀ m', s.alive m' → m' = m ∨ s.issued m'
  /-- Whoever may ask `check_holder` does so after all live machines have submitted. -/
  served : ∀ m, s.alive m → s.phase m = .checking → ∀ m', s.alive m' → s.issued m'
  /-- `check_waiter` tells a live machine to come back exactly as long as somebody is missing. -/
  waiter : ∀ m, s.alive m → ∀ lid w,
    s.coord.checkWaiter lid w = 2 ↔ ∃ m', s.alive m' ∧ ¬ s.issued m'

/-- All but the machine itself have called, whichever live machine one takes. -/
def Complete (s : Barrier) : Prop := ∀ m m', s.alive m → s.alive m' → m' ≠ m → s.issued m'

/-- The steps that keep the barrier.  A round starts with a fault code that has bits of machines
only, when nobody has called `recovery_ready` since the daemon was started; and the byte of the
switch is clear in every state in which a live machine waits for another one. -/
def Orderly (s : Barrier) : BarrierEvent → Prop
  | .newRound code => code.toNat < 2 ^ (HOST_NUM + 1) ∧ s.coord.readyBitmap = 0
      ∧ (s.coord.readySignal ≠ 0 →
          Complete { s with code := code, phase := fun _ => .collecting })
  | .signal v => v ≠ 0 → s.Complete
  | _ => True

/-! ### Bitmaps -/

section Bitmap

variable {m : HostId}

lemma machineBit_getLsbD (hm : isMachine m) (i : ℕ) :
    (machineBit (m.setWidth 32)).getLsbD i = decide (i = m.toNat) := by
  have hlt : m.toNat < 31 := lt_of_le_of_lt hm.2 (by decide)
  have hmod : m.toNat % 4294967296 = m.toNat := Nat.mod_eq_of_lt (by omega)
  rw [machineBit, BitVec.getLsbD_signExtend, BitVec.msb_eq_getLsbD_last]
  simp only [BitVec.getLsbD_shiftLeft, BitVec.toNat_setWidth, hmod, BitVec.getLsbD_one]
  by_cases hi : i = m.toNat
  · subst hi
    simp [show m.toNat < 64 by omega, show m.toNat < 32 by omega]
  · simp only [hi, decide_false]
    grind

lemma alive_iff {s : Barrier} : s.alive m ↔ isMachine m ∧ s.code.getLsbD m.toNat = true := by
  refine and_congr_right fun hm => ?_
  have hbit : ∀ i, (s.code &&& machineBit (m.setWidth 32)).getLsbD i
      = (s.code.getLsbD i && decide (i = m.toNat)) := by
    intro i
    rw [BitVec.getLsbD_and, machineBit_getLsbD hm]
  rw [serverFailed, decide_eq_false_iff_not]
  constructor
  · intro h
    by_contra hcode
    apply h
    apply BitVec.eq_of_getLsbD_eq
    intro i _
    rw [hbit]
    grind
  · intro hcode h
    have h0 := hbit m.toNat
    rw [h] at h0
    simp [hcode] at h0

/-- The byte of the switch decides. -/
lemma ready_iff {s : Barrier} : (s.coord.recoveryReady (m.setWidth 32) s.code).2 = true
    ↔ s.coord.readySignal ≠ 0 := by
  rw [Coordinator.recoveryReady_answer, decide_eq_true_iff]

end Bitmap

/-! ### The invariant -/

/-- What an orderly run keeps.  The bitmap is the set of the machines that have called, since it was
empty when the round started. -/
structure Inv (s : Barrier) : Prop where
  codeLt : s.code.toNat < 2 ^ (HOST_NUM + 1)
  /-- Only live machines call. -/
  live : ∀ m, s.issued m → s.alive m
  bitmap : ∀ i, s.coord.readyBitmap.getLsbD i = true ↔ ∃ m, s.issued m ∧ m.toNat = i
  /-- The daemon knows the fault code from the first call on. -/
  known : ∀ m, s.issued m → s.coord.faultSignal = s.code
  unknown : (∀ m, ¬ s.issued m) → s.coord.faultSignal = 0
  signal : s.coord.readySignal ≠ 0 → s.Complete
  passed : ∀ m, s.phase m = .checking → ∀ m', s.alive m' → s.issued m'

namespace Inv

variable {s s' : Barrier} {e : BarrierEvent}

/-- If nobody has called, most of the invariant is trivial. -/
lemma of_collecting (hcode : s.code.toNat < 2 ^ (HOST_NUM + 1))
    (hphase : ∀ m, s.phase m = .collecting) (hbitmap : s.coord.readyBitmap = 0)
    (hfault : s.coord.faultSignal = 0) (hsignal : s.coord.readySignal ≠ 0 → s.Complete) :
    Inv s where
  codeLt := hcode
  live m hm := absurd (hphase m) hm
  bitmap i := by
    rw [hbitmap]
    refine iff_of_false (by simp) ?_
    rintro ⟨m, hm, -⟩
    exact hm (hphase m)
  known m hm := absurd (hphase m) hm
  unknown _ := hfault
  signal := hsignal
  passed m hm := by
    rw [hphase m] at hm
    cases hm

/-- The calls that submit data and the ones that check them leave alone what the invariant is
about. -/
lemma of_data (h : Inv s) {lmState : LockId → LockData} :
    Inv { s with coord := { s.coord with lmState := lmState } } :=
  ⟨h.codeLt, h.live, h.bitmap, h.known, h.unknown, h.signal, h.passed⟩

/-- Nobody has called as long as the bitmap is empty. -/
lemma none_issued (h : Inv s) (hbitmap : s.coord.readyBitmap = 0) : ∀ m, ¬ s.issued m := by
  intro m hm
  have hbit := (h.bitmap m.toNat).2 ⟨m, hm, rfl⟩
  rw [hbitmap] at hbit
  simp at hbit

lemma newRound (h : Inv s) {code : BitVec 64} (hcode : code.toNat < 2 ^ (HOST_NUM + 1))
    (hbitmap : s.coord.readyBitmap = 0)
    (hsignal : s.coord.readySignal ≠ 0 →
      Complete { s with code := code, phase := fun _ => .collecting }) :
    Inv { s with code := code, phase := fun _ => .collecting } :=
  of_collecting hcode (fun _ => rfl) hbitmap (h.unknown (h.none_issued hbitmap)) hsignal

/-- A machine calls `recovery_ready`. -/
lemma ready (h : Inv s) {m : HostId} (hm : s.alive m) {p : RecoveryPhase}
    (hp : p ≠ .collecting) (hpass : p = .checking → s.coord.readySignal ≠ 0) :
    Inv { s with
      coord := (s.coord.recoveryReady (m.setWidth 32) s.code).1
      phase := Function.update s.phase m p } := by
  set t : Barrier := { s with
    coord := (s.coord.recoveryReady (m.setWidth 32) s.code).1
    phase := Function.update s.phase m p } with ht
  -- one more machine has called
  have hissued : ∀ m', t.issued m' ↔ m' = m ∨ s.issued m' := by
    intro m'
    by_cases hmm : m' = m
    · simp [issued, ht, hmm, hp]
    · simp [issued, ht, hmm]
  have hcomplete : s.coord.readySignal ≠ 0 → ∀ m', t.alive m' → t.issued m' := by
    intro hs m' hm'
    rw [hissued]
    by_cases hmm : m' = m
    · exact .inl hmm
    · exact .inr (h.signal hs m m' hm hm' hmm)
  constructor
  · exact h.codeLt
  · intro m' hm'
    rcases (hissued m').1 hm' with rfl | hs
    · exact hm
    · exact h.live m' hs
  · intro i
    have hbit : t.coord.readyBitmap.getLsbD i
        = (s.coord.readyBitmap.getLsbD i || decide (i = m.toNat)) := by
      simp only [ht, Coordinator.recoveryReady, BitVec.getLsbD_or, machineBit_getLsbD hm.1]
    rw [hbit, Bool.or_eq_true, h.bitmap i, decide_eq_true_iff]
    simp only [hissued]
    constructor
    · rintro (⟨m', hm', hi⟩ | hi)
      · exact ⟨m', .inr hm', hi⟩
      · exact ⟨m, .inl rfl, hi.symm⟩
    · rintro ⟨m', rfl | hm', hi⟩
      · exact .inr hi.symm
      · exact .inl ⟨m', hm', hi⟩
  · intro _ _
    rfl
  · intro hnone
    exact absurd ((hissued m).2 (.inl rfl)) (hnone m)
  · intro hs m₁ m₂ _ hm₂ _
    exact hcomplete hs m₂ hm₂
  · intro m₁ hm₁ m' hm'
    change Function.update s.phase m p m₁ = .checking at hm₁
    by_cases hmm : m₁ = m
    · rw [hmm, Function.update_self] at hm₁
      exact hcomplete (hpass hm₁) m' hm'
    · rw [Function.update_of_ne hmm] at hm₁
      exact (hissued m').2 (.inr (h.passed m₁ hm₁ m' hm'))

/-- An orderly step keeps the invariant. -/
lemma step (h : Inv s) (hok : Orderly s e) (hs : s.step e = some s') : Inv s' := by
  cases e with
  | newRound code =>
      cases hs
      exact h.newRound hok.1 hok.2.1 hok.2.2
  | signal v =>
      cases hs
      exact ⟨h.codeLt, h.live, h.bitmap, h.known, h.unknown, hok, h.passed⟩
  | collectHolders m lid holder =>
      rw [Barrier.step] at hs
      split at hs
      · cases hs
        exact h.of_data
      · cases hs
  | collectWaiters m lid waiter =>
      rw [Barrier.step] at hs
      split at hs
      · cases hs
        exact h.of_data
      · cases hs
  | recoveryReady m =>
      rw [Barrier.step] at hs
      split at hs
      · next hm =>
          cases hs
          refine h.ready hm.1 ?_ ?_
          · split <;> exact nofun
          · intro hp
            by_cases hready : (s.coord.recoveryReady (m.setWidth 32) s.code).2 = true
            · exact ready_iff.1 hready
            · rw [if_neg hready] at hp
              cases hp
      · cases hs
  | checkHolder m isAgent lid holderNum =>
      rw [Barrier.step] at hs
      split at hs
      · cases hs
        rw [Coordinator.checkHolder]
        split_ifs
        · exact h
        · exact h
        · exact h.of_data
        · exact h
      · cases hs

/-- The invariant holds in every state that orderly runs reach. -/
lemma of_reachable (hrun : Reachable Orderly s) : Inv s := by
  refine Reach.invariant ?_ (fun _ _ _ h hok hs => h.step hok hs) hrun
  exact of_collecting (by decide) (fun _ => rfl) rfl rfl (fun h => absurd rfl h)

/-- The bitmap agrees with the fault code once all have called. -/
lemma bitmap_eq (h : Inv s) (hall : ∀ m, s.alive m → s.issued m) :
    s.coord.readyBitmap ||| 1 = s.code ||| 1 := by
  apply BitVec.eq_of_getLsbD_eq
  intro i _
  rw [BitVec.getLsbD_or, BitVec.getLsbD_or]
  by_cases hi : i = 0
  · simp [hi]
  suffices hbit : s.coord.readyBitmap.getLsbD i = true ↔ s.code.getLsbD i = true by
    rw [Bool.eq_iff_iff.2 hbit]
  rw [h.bitmap i]
  constructor
  · rintro ⟨m, hm, rfl⟩
    exact (alive_iff.1 (h.live m hm)).2
  · intro hcode
    have hle : i ≤ HOST_NUM := by
      by_contra hgt
      have hlt : s.code.toNat < 2 ^ i :=
        lt_of_lt_of_le h.codeLt (Nat.pow_le_pow_right (by decide) (by omega))
      rw [BitVec.getLsbD, Nat.testBit_lt_two_pow hlt] at hcode
      cases hcode
    have hnat : (BitVec.ofNat 8 i).toNat = i := by
      rw [BitVec.toNat_ofNat]
      exact Nat.mod_eq_of_lt (lt_of_le_of_lt hle (by decide))
    refine ⟨BitVec.ofNat 8 i, hall _ (alive_iff.2 ⟨⟨by omega, by omega⟩, ?_⟩), hnat⟩
    rw [hnat]
    exact hcode

/-- It does not as long as one is missing. -/
lemma bitmap_ne (h : Inv s) {m : HostId} (hm : s.alive m) (hmiss : ¬ s.issued m) :
    s.coord.readyBitmap ||| 1 ≠ s.code ||| 1 := by
  intro heq
  have hpos : m.toNat ≠ 0 := Nat.one_le_iff_ne_zero.1 hm.1.1
  have hbit := congrArg (·.getLsbD m.toNat) heq
  simp only [BitVec.getLsbD_or, (alive_iff.1 hm).2, Bool.true_or,
    Bool.or_eq_true, h.bitmap] at hbit
  rcases hbit with ⟨m', hm', hnat⟩ | hbad
  · rw [BitVec.eq_of_toNat_eq hnat] at hm'
    exact hmiss hm'
  · simp [hpos] at hbad

lemma checkWaiter_iff (h : Inv s) {m : HostId} (hm : s.alive m) (lid : LockId) (w : LockHolder) :
    s.coord.checkWaiter lid w = 2 ↔ ∃ m', s.alive m' ∧ ¬ s.issued m' := by
  have hcond : s.coord.checkWaiter lid w = 2
      ↔ s.coord.faultSignal = 0 ∨ s.coord.readyBitmap ||| 1 ≠ s.coord.faultSignal ||| 1 := by
    rw [Coordinator.checkWaiter]
    split_ifs <;> simp_all
  rw [hcond]
  constructor
  · intro hor
    by_contra hnone
    have hall : ∀ m', s.alive m' → s.issued m' := by
      intro m' hm'
      by_contra hmiss
      exact hnone ⟨m', hm', hmiss⟩
    rw [h.known m (hall m hm)] at hor
    rcases hor with hzero | hne
    · have hbit := (alive_iff.1 hm).2
      rw [hzero] at hbit
      simp at hbit
    · exact hne (h.bitmap_eq hall)
  · rintro ⟨m', hm', hmiss⟩
    by_cases hsome : ∃ m₁, s.issued m₁
    · obtain ⟨m₁, hm₁⟩ := hsome
      rw [h.known m₁ hm₁]
      exact .inr (h.bitmap_ne hm' hmiss)
    · exact .inl (h.unknown fun m₁ hm₁ => hsome ⟨m₁, hm₁⟩)

end Inv

/-! ### The barrier -/

/-- **The barrier holds in every orderly run**, whatever the order of the calls. -/
theorem recovery_barrier {s : Barrier} (hrun : Reachable Orderly s) : Holds s := by
  have h := Inv.of_reachable hrun
  constructor
  · intro m hm hready
    have hsignal := ready_iff.1 hready
    refine ⟨hsignal, fun m' hm' => ?_⟩
    by_cases hmm : m' = m
    · exact .inl hmm
    · exact .inr (h.signal hsignal m m' hm hm' hmm)
  · intro m _ hphase
    exact h.passed m hphase
  · intro m hm lid w
    exact h.checkWaiter_iff hm lid w

/-- A round of the machines 1 and 2 in which the given ones have called. -/
def roundOf (signal : BitVec 8) (bitmap : BitVec 64) (phase : HostId → RecoveryPhase) : Barrier where
  coord :=
    { Coordinator.init with
      faultSignal := if bitmap = 0 then 0 else 0b110
      readySignal := signal
      readyBitmap := bitmap }
  code := 0b110
  phase := phase

lemma alive_roundOf : ∀ m signal bitmap phase, (roundOf signal bitmap phase).alive m →
    m = 1 ∨ m = 2 := by
  intro m _ _ _ hm
  have hcases : ∀ m : HostId, isMachine m ∧ serverFailed 0b110 (m.setWidth 32) = false →
      m = 1 ∨ m = 2 := by decide +kernel
  exact hcases m hm

/-- Two machines call, the switch becomes ready, and the first machine passes: then the second one
has submitted its data. -/
theorem recovery_barrier_two_machines : ∃ s, Reachable Orderly s ∧ s.alive 1 ∧ s.alive 2
    ∧ s.phase 1 = .checking ∧ Holds s := by
  have h₀ : Reachable Orderly init := .start
  have h₁ : Reachable Orderly (roundOf 0 0 fun _ => .collecting) :=
    h₀.next (e := .newRound 0b110) ⟨by decide, rfl, fun h => absurd rfl h⟩ rfl
  have h₂ : Reachable Orderly (roundOf 0 0b010 (Function.update (fun _ => .collecting) 1 .waiting)) :=
    h₁.next (e := .recoveryReady 1) trivial rfl
  have h₃ : Reachable Orderly (roundOf 0 0b110
      (Function.update (Function.update (fun _ => .collecting) 1 .waiting) 2 .waiting)) :=
    h₂.next (e := .recoveryReady 2) trivial rfl
  have h₄ : Reachable Orderly (roundOf 1 0b110
      (Function.update (Function.update (fun _ => .collecting) 1 .waiting) 2 .waiting)) := by
    refine h₃.next (e := .signal 1) ?_ rfl
    intro _ _ m _ hm _
    rcases alive_roundOf m _ _ _ hm with rfl | rfl
    · exact (by decide)
    · exact (by decide)
  have h₅ : Reachable Orderly (roundOf 1 0b110 (Function.update
      (Function.update (Function.update (fun _ => .collecting) 1 .waiting) 2 .waiting) 1 .checking)) :=
    h₄.next (e := .recoveryReady 1) trivial rfl
  exact ⟨_, h₅, by decide, by decide, rfl, recovery_barrier h₅⟩

/-- In a round of the machines 1 and 2, the switch becomes ready before anybody has called.  The
first machine is answered that all is ready, although the second one has submitted nothing. -/
theorem recovery_barrier_fails : ¬ ∀ s, Reachable (fun _ _ => True) s → Holds s := by
  intro hall
  have h₀ : Reachable (fun _ _ => True) init := .start
  have h₁ : Reachable (fun _ _ => True) (roundOf 0 0 fun _ => .collecting) :=
    h₀.next (e := .newRound 0b110) trivial rfl
  have h₂ : Reachable (fun _ _ => True) (roundOf 1 0 fun _ => .collecting) :=
    h₁.next (e := .signal 1) trivial rfl
  rcases ((hall _ h₂).ready 1 (by decide) (by decide)).2 2 (by decide) with h | h
  · exact absurd h (by decide)
  · exact h rfl

end Barrier

end FissLock
