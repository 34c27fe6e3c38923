import FissLock.Library.Runs

/-!
# Who checks the locks after a fault

A fault is reported by writing its code to `fault_signal`.  Every thread that acquires, waits or
releases calls `check_error` first: a thread that finds a code waits for `integrity_mtx`, and the
first one that gets it runs `integrity_check` and takes the signal back.  The code that it passes is
the one that it read **before** it waited.

If a fault is reported only when the last one is dealt with, that is when the signal is zero and no
thread waits any more, every fault is checked exactly once, in order and with its own code
(`faults_checked_once`).  A thread that still waits would check the next fault with the old code.
-/

namespace FissLock

open Runs

/-- `CALLER_ACQUIRE_OR_RELEASE` and `CALLER_WAIT_FOR_GRANT`. -/
inductive Caller where
  | acquireOrRelease
  | waitForGrant
  deriving DecidableEq, Repr

/-- Where a thread is in `check_error`. -/
inductive CheckPc where
  /-- Not in the function; its last result. -/
  | returned (result : ℕ)
  /-- It has read `code` and waits for `integrity_mtx`. -/
  | detected (caller : Caller) (code : BitVec 64)
  /-- It has the mutex and runs `integrity_check(code)`. -/
  | checking (caller : Caller) (code : BitVec 64)
  /-- A waiter that asks `check_waiter`. -/
  | asking
  deriving DecidableEq, Repr

/-- The thread waits for the mutex. -/
def CheckPc.waits : CheckPc → Bool
  | .detected _ _ => true
  | _ => false

/-- The signal and the threads of a host; the faults reported and the checks done, in order. -/
structure FaultCheck (ι : Type*) where
  faultSignal : BitVec 64
  /-- The thread that has the mutex while it runs `integrity_check`. -/
  integrityMtx : Option ι
  pc : ι → CheckPc
  reported : List (BitVec 64)
  checked : List (BitVec 64)

inductive FaultEvent (ι : Type*) where
  /-- A fault is reported: `*fault_signal = code`. -/
  | report (code : BitVec 64)
  | call (t : ι) (caller : Caller)
  /-- The thread gets `integrity_mtx`. -/
  | lock (t : ι)
  /-- `integrity_check` returns. -/
  | unlock (t : ι)
  /-- `check_waiter` answers, with `exist` of the reply; no reply counts as 2. -/
  | reply (t : ι) (exist : ℕ)
  deriving DecidableEq, Repr

namespace FaultCheck

variable {ι : Type*} [DecidableEq ι]

def init : FaultCheck ι := ⟨0, none, fun _ => .returned 0, [], []⟩

/-- A thread goes on. -/
def goto (s : FaultCheck ι) (t : ι) (p : CheckPc) : FaultCheck ι :=
  { s with pc := Function.update s.pc t p }

/-- `check_error` after the mutex is released. -/
def after : Caller → CheckPc
  | .waitForGrant => .asking
  | .acquireOrRelease => .returned 0

/-- The step function.  A thread that finds the signal taken back releases the mutex at once. -/
def step (s : FaultCheck ι) : FaultEvent ι → Option (FaultCheck ι)
  | .report code => some { s with faultSignal := code, reported := s.reported ++ [code] }
  | .call t caller =>
      match s.pc t with
      | .returned _ =>
          if s.faultSignal = 0 then some (s.goto t (.returned 0))
          else some (s.goto t (.detected caller s.faultSignal))
      | _ => none
  | .lock t =>
      match s.pc t with
      | .detected caller code =>
          if s.integrityMtx ≠ none then none
          else if s.faultSignal ≠ 0 then
            some { s.goto t (.checking caller code) with integrityMtx := some t }
          else some (s.goto t (after caller))
      | _ => none
  | .unlock t =>
      match s.pc t with
      | .checking caller code =>
          some { s.goto t (after caller) with
            faultSignal := 0, integrityMtx := none, checked := s.checked ++ [code] }
      | _ => none
  | .reply t exist =>
      match s.pc t with
      | .asking =>
          if exist = 2 then some s
          else some (s.goto t (.returned (if exist = 1 then 0 else 1)))
      | _ => none

/-- A fault is reported when the last one is dealt with: the signal is zero, and no thread waits for
the mutex. -/
def Settled (s : FaultCheck ι) : FaultEvent ι → Prop
  | .report code => code ≠ 0 ∧ s.faultSignal = 0 ∧ ∀ t, (s.pc t).waits = false
  | _ => True

instance [Fintype ι] (s : FaultCheck ι) : (e : FaultEvent ι) → Decidable (Settled s e)
  | .report _ => inferInstanceAs (Decidable (_ ∧ _ ∧ _))
  | .call _ _ => inferInstanceAs (Decidable True)
  | .lock _ => inferInstanceAs (Decidable True)
  | .unlock _ => inferInstanceAs (Decidable True)
  | .reply _ _ => inferInstanceAs (Decidable True)

/-- The states of all runs in which every fault is reported so. -/
abbrev Reachable : FaultCheck ι → Prop := Reach step Settled init

/-- What `integrity_mtx` and the signal are good for. -/
structure Inv (s : FaultCheck ι) : Prop where
  /-- Whoever runs `integrity_check` has the mutex, with the code that the signal has. -/
  checking : ∀ t caller code, s.pc t = .checking caller code →
    s.integrityMtx = some t ∧ code = s.faultSignal
  mtx : ∀ t, s.integrityMtx = some t → ∃ caller code, s.pc t = .checking caller code
  /-- A code that was read is the one that the signal has, or the last one that was checked. -/
  detected : ∀ t caller code, s.pc t = .detected caller code →
    if s.faultSignal = 0 then s.checked.getLast? = some code else code = s.faultSignal
  /-- Only the fault of the signal is still to be checked. -/
  reported : s.reported = s.checked ++ if s.faultSignal = 0 then [] else [s.faultSignal]
  locked : s.integrityMtx ≠ none → s.faultSignal ≠ 0

section Steps

variable {s s' : FaultCheck ι} {t : ι} {p : CheckPc} {e : FaultEvent ι}

omit [DecidableEq ι] in
lemma inv_init : Inv (init : FaultCheck ι) where
  checking _ _ _ h := by cases h
  mtx _ h := by cases h
  detected _ _ _ h := by cases h
  reported := rfl
  locked h := absurd rfl h

@[simp] lemma goto_faultSignal : (s.goto t p).faultSignal = s.faultSignal := rfl
@[simp] lemma goto_integrityMtx : (s.goto t p).integrityMtx = s.integrityMtx := rfl
@[simp] lemma goto_reported : (s.goto t p).reported = s.reported := rfl
@[simp] lemma goto_checked : (s.goto t p).checked = s.checked := rfl

lemma goto_pc {t' : ι} {q : CheckPc} (h : (s.goto t p).pc t' = q) :
    t' = t ∧ q = p ∨ t' ≠ t ∧ s.pc t' = q := by
  change Function.update s.pc t p t' = q at h
  by_cases ht : t' = t
  · rw [ht, Function.update_self] at h
    exact .inl ⟨ht, h.symm⟩
  · rw [Function.update_of_ne ht] at h
    exact .inr ⟨ht, h⟩

lemma after_ne_checking (caller caller' : Caller) (code : BitVec 64) :
    CheckPc.checking caller code ≠ after caller' := by
  cases caller' <;> simp [after]

lemma after_ne_detected (caller caller' : Caller) (code : BitVec 64) :
    CheckPc.detected caller code ≠ after caller' := by
  cases caller' <;> simp [after]

/-- A thread that is not checking goes on to a place where it is not checking either. -/
lemma Inv.goto (hi : Inv s) (ht : ∀ caller code, s.pc t ≠ .checking caller code)
    (hp : ∀ caller code, CheckPc.checking caller code ≠ p)
    (hd : ∀ caller code, CheckPc.detected caller code = p →
      if s.faultSignal = 0 then s.checked.getLast? = some code else code = s.faultSignal) :
    Inv (s.goto t p) := by
  constructor
  · intro t' caller code h
    obtain ⟨-, h⟩ | ⟨-, h⟩ := goto_pc h
    · exact absurd h (hp caller code)
    · exact hi.checking t' caller code h
  · intro t' h
    obtain ⟨caller, code, hpc⟩ := hi.mtx t' h
    have hne : t' ≠ t := by
      rintro rfl
      exact ht caller code hpc
    exact ⟨caller, code, (Function.update_of_ne hne _ _).trans hpc⟩
  · intro t' caller code h
    obtain ⟨-, h⟩ | ⟨-, h⟩ := goto_pc h
    · exact hd caller code h
    · exact hi.detected t' caller code h
  · exact hi.reported
  · exact hi.locked

omit [DecidableEq ι] in
/-- A new fault, when the last one is dealt with. -/
lemma Inv.report {code : BitVec 64} (hi : Inv s) (hs : Settled s (.report code)) :
    Inv { s with faultSignal := code, reported := s.reported ++ [code] } := by
  obtain ⟨hcode, hzero, hwaits⟩ := hs
  have hfree : s.integrityMtx = none := by
    by_contra h
    exact hi.locked h hzero
  constructor
  · intro t caller code' h
    cases hfree.symm.trans (hi.checking t caller code' h).1
  · intro t h
    cases hfree.symm.trans h
  · intro t caller code' h
    have := hwaits t
    rw [show s.pc t = _ from h] at this
    cases this
  · have := hi.reported
    rw [if_pos hzero, List.append_nil] at this
    simp only [this, if_neg hcode]
  · intro h
    exact absurd hfree h

/-- The first thread that gets the mutex has the code of the signal. -/
lemma Inv.lock {caller : Caller} {code : BitVec 64} (hi : Inv s)
    (ht : s.pc t = .detected caller code) (hfree : s.integrityMtx = none)
    (hsig : s.faultSignal ≠ 0) : Inv { s.goto t (.checking caller code) with integrityMtx := some t } := by
  have hcode := hi.detected t caller code ht
  rw [if_neg hsig] at hcode
  constructor
  · intro t' caller' code' h
    obtain ⟨ht', h⟩ | ⟨-, h⟩ := goto_pc h
    · cases h
      exact ⟨congrArg some ht'.symm, hcode⟩
    · cases hfree.symm.trans (hi.checking t' caller' code' h).1
  · intro t' h
    cases h
    exact ⟨caller, code, Function.update_self ..⟩
  · intro t' caller' code' h
    obtain ⟨-, h⟩ | ⟨-, h⟩ := goto_pc h
    · cases h
    · exact hi.detected t' caller' code' h
  · exact hi.reported
  · exact fun _ => hsig

/-- The check is done, and those who wait have read the code that was checked. -/
lemma Inv.unlock {caller : Caller} {code : BitVec 64} (hi : Inv s)
    (ht : s.pc t = .checking caller code) :
    Inv { s.goto t (after caller) with
      faultSignal := 0, integrityMtx := none, checked := s.checked ++ [code] } := by
  obtain ⟨hmtx, hcode⟩ := hi.checking t caller code ht
  have hsig : s.faultSignal ≠ 0 := hi.locked (by rw [hmtx]; exact Option.some_ne_none t)
  constructor
  · intro t' caller' code' h
    obtain ⟨-, h⟩ | ⟨hne, h⟩ := goto_pc h
    · exact absurd h (after_ne_checking _ _ _)
    · have := (hi.checking t' caller' code' h).1
      exact absurd (Option.some.inj (this.symm.trans hmtx)) hne
  · intro t' h
    cases h
  · intro t' caller' code' h
    obtain ⟨-, h⟩ | ⟨-, h⟩ := goto_pc h
    · exact absurd h (after_ne_detected _ _ _)
    · have hread := hi.detected t' caller' code' h
      rw [if_neg hsig] at hread
      rw [if_pos rfl, List.getLast?_concat, hcode, hread]
  · have := hi.reported
    rw [if_neg hsig, ← hcode] at this
    simpa using this
  · intro h
    exact absurd rfl h

/-- Every step keeps the invariant, if no fault is reported too early. -/
theorem inv_step (hi : Inv s) (hs : Settled s e) (h : s.step e = some s') : Inv s' := by
  cases e with
  | report code =>
      cases h
      exact hi.report hs
  | call t caller =>
      simp only [step] at h
      split at h
      · next ht =>
          have hnot : ∀ caller code, s.pc t ≠ .checking caller code := by
            intro _ _ hc
            cases ht.symm.trans hc
          split at h
          · cases h
            refine hi.goto hnot (fun _ _ h => by cases h) fun _ _ h => by cases h
          · next hsig =>
              cases h
              refine hi.goto hnot (fun _ _ h => by cases h) fun _ _ h => ?_
              cases h
              rw [if_neg hsig]
      · cases h
  | lock t =>
      simp only [step] at h
      split at h
      · next caller code ht =>
          split at h
          · cases h
          · next hfree =>
              split at h
              · next hsig =>
                  cases h
                  exact hi.lock ht (not_not.1 hfree) hsig
              · cases h
                refine hi.goto (fun _ _ hc => by cases ht.symm.trans hc)
                  (fun _ _ => after_ne_checking _ _ _) fun _ _ h => ?_
                exact absurd h (after_ne_detected _ _ _)
      · cases h
  | unlock t =>
      simp only [step] at h
      split at h
      · next ht =>
          cases h
          exact hi.unlock ht
      · cases h
  | reply t exist =>
      simp only [step] at h
      split at h
      · next ht =>
          split at h
          · cases h
            exact hi
          · cases h
            exact hi.goto (fun _ _ hc => by cases ht.symm.trans hc) (fun _ _ h => by cases h)
              fun _ _ h => by cases h
      · cases h

/-- Who waits can take the mutex, or waits for a thread that can release it. -/
lemma Inv.goes_on {caller : Caller} {code : BitVec 64} (hi : Inv s)
    (ht : s.pc t = .detected caller code) :
    ∃ t', s.step (.lock t') ≠ none ∨ s.step (.unlock t') ≠ none := by
  cases hm : s.integrityMtx with
  | none =>
      refine ⟨t, .inl ?_⟩
      simp only [step, ht, hm]
      split
      · next h => exact absurd rfl h
      · split <;> exact Option.some_ne_none _
  | some t' =>
      obtain ⟨caller', code', ht'⟩ := hi.mtx t' hm
      exact ⟨t', .inr (by simp [step, ht'])⟩

theorem inv_of_reachable (h : Reachable s) : Inv s :=
  h.invariant inv_init fun _ _ _ hi hs htaken => inv_step hi hs htaken

end Steps

/-- **Every fault is checked once, with its own code.**  In every run in which a fault is reported
only when the last one is dealt with, whatever the threads do: the checks done are the faults
reported, in order, but for the one in the signal; the code of a check that runs is the one in the
signal, and no two checks run at a time; and a thread that has found a code and finds the signal
taken back goes on only after the check of that code.  Where a thread waits, some thread can go
on. -/
theorem faults_checked_once {s : FaultCheck ι} (hs : Reachable s) :
    (s.reported = s.checked ++ if s.faultSignal = 0 then [] else [s.faultSignal])
    ∧ (∀ t caller code, s.pc t = .checking caller code → code = s.faultSignal
      ∧ ∀ t' caller' code', s.pc t' = .checking caller' code' → t' = t)
    ∧ ∀ t caller code, s.pc t = .detected caller code →
      (s.faultSignal = 0 → s.checked.getLast? = some code)
      ∧ ∃ t', s.step (.lock t') ≠ none ∨ s.step (.unlock t') ≠ none := by
  have hi := inv_of_reachable hs
  refine ⟨hi.reported, fun t caller code h => ?_, fun t caller code h =>
    ⟨fun hsig => ?_, hi.goes_on h⟩⟩
  · obtain ⟨hmtx, hcode⟩ := hi.checking t caller code h
    refine ⟨hcode, fun t' caller' code' h' => ?_⟩
    exact Option.some.inj ((hi.checking t' caller' code' h').1.symm.trans hmtx)
  · have := hi.detected t caller code h
    rwa [if_pos hsig] at this

/-- Two threads find the first fault, and one of them checks it; the second fault is reported after
both have gone on. -/
def twoFaults : List (FaultEvent (Fin 2)) :=
  [.report 6, .call 0 .acquireOrRelease, .call 1 .waitForGrant, .lock 0, .unlock 0, .lock 1,
    .reply 1 2, .reply 1 1, .report 4, .call 1 .waitForGrant, .call 0 .acquireOrRelease, .lock 1]

/-- The second check runs, and a thread waits for it. -/
theorem faults_checked_once_second : ∃ s : FaultCheck (Fin 2), Reachable s
    ∧ (s.reported = [6, 4] ∧ s.faultSignal = 4 ∧ s.pc 1 = .checking .waitForGrant 4)
    ∧ s.reported = s.checked ++ if s.faultSignal = 0 then [] else [s.faultSignal] := by
  have hrun : ∃ s : FaultCheck (Fin 2), Reachable s
      ∧ (s.reported = [6, 4] ∧ s.faultSignal = 4 ∧ s.pc 1 = .checking .waitForGrant 4) :=
    Reach.exists_of_runFrom twoFaults (by decide +kernel)
  obtain ⟨s, hs, hend⟩ := hrun
  exact ⟨s, hs, hend, (faults_checked_once hs).1⟩

/-- A thread that still waits when the second fault is reported checks it with the code of the
first. -/
example :
    (runFrom step (fun _ _ => True) (init : FaultCheck (Fin 2))
      [.report 6, .call 0 .acquireOrRelease, .call 1 .waitForGrant, .lock 0, .unlock 0, .report 4,
        .lock 1, .unlock 1]).map (fun s => (s.reported, s.checked, s.faultSignal))
      = some ([6, 4], [6, 6], 0) := by decide +kernel

end FaultCheck

end FissLock
