import FissLock.Library.Accounting
import FissLock.Library.ReadersWriter

/-!
# A readers-writer lock at the far end of a network

The lock of `Library/ReadersWriter.lean` is kept at one place and its clients are elsewhere.  A
request, a grant and a release are messages that go through some nodes on their way; a request has
at most `up` of them between the client and the lock, and so has a release, and a grant has `down`.
Messages are delayed and overtake each other as they like, but are neither lost nor duplicated, and
a client sends its next request when its last release has arrived.

A client goes through the stages of `Stage`, one for each place where its request can be.  The
network is not modelled beyond that, so that a program can be related to the stages whatever it
sends.

* `Inv` ties the stages to the lock, and `inv_step` says that every step keeps it;
* `Inv.exclusive` — an exclusive request that has been granted is alone;
* `Inv.quiet` — when nothing is on its way and nobody holds the lock, nobody waits for it;
* `step_work` — every step but a new request takes some work off, and a new request brings
  `perRequest` of it, so that runs without new requests come to an end.
-/

namespace RemoteLock

open Runs ReadersWriter Accounting

variable {α : Type*} [DecidableEq α]

/-- Where the request of a client is.  `x` says whether it is exclusive, and `n` is the number of
nodes that a message still has to go through. -/
inductive Stage where
  | idle
  /-- The request is on its way to the lock. -/
  | asking (x : Bool) (n : ℕ)
  | queued (x : Bool)
  /-- The grant is on its way to the client. -/
  | granted (x : Bool) (n : ℕ)
  | holding (x : Bool)
  /-- The release is on its way to the lock. -/
  | leaving (x : Bool) (n : ℕ)
  deriving DecidableEq, Repr

namespace Stage

/-- The mode in which the lock is granted, from the grant to the arrival of the release. -/
def grant : Stage → Option Bool
  | .granted x _ => some x
  | .holding x => some x
  | .leaving x _ => some x
  | _ => none

/-- A queued request is granted. -/
def serve (down : ℕ) : Stage → Stage
  | .queued x => .granted x down
  | st => st

/-- How many steps are left for a client, with its queueing and granting taken as one. -/
def work (up down : ℕ) : Stage → ℕ
  | .idle => 0
  | .leaving _ n => n + 1
  | .holding _ => up + 2
  | .granted _ n => up + n + 3
  | .queued _ => up + down + 3
  | .asking _ n => up + down + n + 4

@[simp] lemma work_serve (up down : ℕ) (st : Stage) :
    (st.serve down).work up down = st.work up down := by
  cases st <;> rfl

end Stage

/-- How many steps a request takes at most, after the one that makes it. -/
def perRequest (up down : ℕ) : ℕ := up + down + up + 4

/-- The lock and its clients. -/
structure State (α : Type*) where
  lock : Service α
  stage : α → Stage

/-- Nobody has asked for anything. -/
def State.start : State α := ⟨.start, fun _ => .idle⟩

inductive Event (α : Type*) where
  /-- A client asks, with `n` nodes between it and the lock. -/
  | ask (a : α) (x : Bool) (n : ℕ)
  /-- The message of a client goes through a node. -/
  | hop (a : α)
  /-- The request of a client reaches the lock. -/
  | arrive (a : α)
  /-- A client takes note of its grant, which it may see before the message comes. -/
  | notice (a : α)
  /-- A client gives the lock back. -/
  | leave (a : α) (n : ℕ)
  /-- The release of a client reaches the lock. -/
  | left (a : α)

/-- The clients `gs` are granted the lock. -/
def served (down : ℕ) (stage : α → Stage) (gs : List α) : α → Stage :=
  fun b => if b ∈ gs then (stage b).serve down else stage b

lemma served_of_mem {down : ℕ} {stage : α → Stage} {gs : List α} {b : α} (hb : b ∈ gs) :
    served down stage gs b = (stage b).serve down := if_pos hb

lemma served_of_not_mem {down : ℕ} {stage : α → Stage} {gs : List α} {b : α} (hb : b ∉ gs) :
    served down stage gs b = stage b := if_neg hb

/-- What becomes of a message that goes through a node. -/
def Stage.hop : Stage → Option Stage
  | .asking x (n + 1) => some (.asking x n)
  | .granted x (n + 1) => some (.granted x n)
  | .leaving x (n + 1) => some (.leaving x n)
  | _ => none

namespace State

/-- The request of `a` at the lock. -/
def arrive (down : ℕ) (s : State α) (a : α) (x : Bool) : State α :=
  let g := acquire s.lock.phase s.lock.queue a x
  ⟨⟨g.phase, g.queue, s.lock.hist.requested a x g.grantees⟩,
    served down (Function.update s.stage a (.queued x)) g.grantees⟩

/-- The release of `a` at the lock. -/
def left (down : ℕ) (s : State α) (a : α) : State α :=
  let g := release s.lock.phase s.lock.queue a
  ⟨⟨g.phase, g.queue, s.lock.hist.released a g.grantees⟩,
    served down (Function.update s.stage a .idle) g.grantees⟩

/-- A client in another stage. -/
def setStage (s : State α) (a : α) (st : Stage) : State α :=
  { s with stage := Function.update s.stage a st }

/-- The step function. -/
def step (up down : ℕ) (s : State α) : Event α → Option (State α)
  | .ask a x n => if s.stage a = .idle ∧ n ≤ up then some (s.setStage a (.asking x n)) else none
  | .hop a => (s.stage a).hop.map (s.setStage a)
  | .arrive a =>
      match s.stage a with
      | .asking x 0 => some (s.arrive down a x)
      | _ => none
  | .notice a =>
      match s.stage a with
      | .granted x _ => some (s.setStage a (.holding x))
      | _ => none
  | .leave a n =>
      match s.stage a with
      | .holding x => if n ≤ up then some (s.setStage a (.leaving x n)) else none
      | _ => none
  | .left a =>
      match s.stage a with
      | .leaving _ 0 => some (s.left down a)
      | _ => none

end State

/-! ## The invariant -/

/-- What the lock knows of a client in this stage. -/
def Stage.Known (h : History α) (a : α) : Stage → Prop
  | .idle | .asking _ _ => h.request a = none
  | .queued x => h.request a = some x ∧ h.grants a = 0
  | .granted x _ | .holding x | .leaving x _ => h.request a = some x ∧ h.grants a = 1

/-- The invariant. -/
structure Inv (s : State α) : Prop where
  lock : ReadersWriter.Inv s.lock
  known : ∀ a, (s.stage a).Known s.lock.hist a

lemma inv_start : Inv (State.start : State α) := ⟨ReadersWriter.inv_start, fun _ => rfl⟩

section Steps

variable {up down : ℕ} {s s' : State α} {a : α}

omit [DecidableEq α] in
lemma Stage.Known.hop {h : History α} {st st' : Stage} (hk : st.Known h a)
    (hh : st.hop = some st') : st'.Known h a := by
  cases st with
  | asking x n =>
      cases n with
      | zero => cases hh
      | succ n => exact Option.some.inj hh ▸ hk
  | granted x n =>
      cases n with
      | zero => cases hh
      | succ n => exact Option.some.inj hh ▸ hk
  | leaving x n =>
      cases n with
      | zero => cases hh
      | succ n => exact Option.some.inj hh ▸ hk
  | _ => cases hh

/-- A client that moves on without the lock knowing. -/
lemma Inv.setStage (hi : Inv s) {st : Stage} (hk : st.Known s.lock.hist a) :
    Inv (s.setStage a st) := by
  refine ⟨hi.lock, fun b => ?_⟩
  by_cases hba : b = a
  · subst hba
    simpa [State.setStage] using hk
  · simpa [State.setStage, hba] using hi.known b

/-- Who is granted the lock waited for it. -/
lemma Stage.Known.queued_of_mem {h h' : History α} {st : Stage} {b : α} {gs : List α}
    (hk : st.Known h b) (hb : b ∈ gs) (hr : h'.request b = h.request b)
    (hg : h'.grants b = h.grants b + gs.count b) (hone : h'.grants b ≤ 1)
    (hopen : h'.request b = none → h'.grants b = 0) : ∃ x, st = .queued x := by
  have hpos : 0 < gs.count b := List.count_pos_iff.2 hb
  cases st with
  | queued x => exact ⟨x, rfl⟩
  | idle =>
      have := hopen (hr.trans hk)
      omega
  | asking x n =>
      have := hopen (hr.trans hk)
      omega
  | granted x n => have := hk.2; omega
  | holding x => have := hk.2; omega
  | leaving x n => have := hk.2; omega

/-- What is known of a client that is granted the lock, or not. -/
lemma Stage.Known.serve {h h' : History α} {st : Stage} {b : α} {gs : List α}
    (hk : st.Known h b) (hr : h'.request b = h.request b)
    (hg : h'.grants b = h.grants b + gs.count b) (hone : h'.grants b ≤ 1)
    (hopen : h'.request b = none → h'.grants b = 0) :
    (if b ∈ gs then st.serve down else st).Known h' b := by
  by_cases hb : b ∈ gs
  · obtain ⟨x, rfl⟩ := hk.queued_of_mem hb hr hg hone hopen
    have hpos : 0 < gs.count b := List.count_pos_iff.2 hb
    rw [if_pos hb]
    exact ⟨hr.trans hk.1, by omega⟩
  · have hg' : h'.grants b = h.grants b := by rw [hg, List.count_eq_zero.2 hb, add_zero]
    rw [if_neg hb]
    cases st <;> simpa only [Stage.Known, hr, hg'] using hk

/-- The lock becomes `l`, which takes the client `a` to the stage `st` and grants the lock to the
clients `gs`; `h` is what is known of all of them before the grants. -/
structure Hands (s : State α) (a : α) (st : Stage) (h : History α) (l : Service α)
    (gs : List α) : Prop where
  lock : ReadersWriter.Inv l
  self : st.Known h a
  others : ∀ b, b ≠ a → h.request b = s.lock.hist.request b ∧ h.grants b = s.lock.hist.grants b
  request : ∀ b, l.hist.request b = h.request b
  grants : ∀ b, l.hist.grants b = h.grants b + gs.count b

namespace Hands

variable {st : Stage} {h : History α} {l : Service α} {gs : List α}

lemma known (hh : Hands s a st h l gs) (hi : Inv s) (b : α) :
    (Function.update s.stage a st b).Known h b := by
  by_cases hba : b = a
  · subst hba
    rw [Function.update_self]
    exact hh.self
  · rw [Function.update_of_ne hba]
    have hk := hi.known b
    obtain ⟨h1, h2⟩ := hh.others b hba
    cases hs : s.stage b <;> simpa only [hs, Stage.Known, h1, h2] using hk

lemma grants_le (hh : Hands s a st h l gs) (b : α) : l.hist.grants b ≤ 1 := by
  rw [hh.lock.owners b]
  split <;> omega

lemma nodup (hh : Hands s a st h l gs) : gs.Nodup := by
  rw [List.nodup_iff_count_le_one]
  intro b
  have h1 := hh.grants_le b
  have h2 := hh.grants b
  omega

/-- Those who are granted the lock waited for it. -/
lemma queued (hh : Hands s a st h l gs) (hi : Inv s) {b : α} (hb : b ∈ gs) :
    ∃ x, Function.update s.stage a st b = .queued x :=
  (hh.known hi b).queued_of_mem hb (hh.request b) (hh.grants b) (hh.grants_le b) (hh.lock.closed b)

lemma inv (hh : Hands s a st h l gs) (hi : Inv s) :
    Inv ⟨l, RemoteLock.served down (Function.update s.stage a st) gs⟩ :=
  ⟨hh.lock, fun b => (hh.known hi b).serve (hh.request b) (hh.grants b) (hh.grants_le b)
    (hh.lock.closed b)⟩

end Hands

/-- A request that arrives. -/
lemma Inv.hands_arrive (hi : Inv s) (down : ℕ) {x : Bool} (hs : s.stage a = .asking x 0) :
    Hands s a (.queued x) (s.lock.hist.requested a x []) (s.arrive down a x).lock
      (acquire s.lock.phase s.lock.queue a x).grantees where
  lock := inv_acquire hi.lock (by simpa [hs, Stage.Known] using hi.known a) x
  self := ⟨by simp [History.requested], by simp [History.requested]⟩
  others := by
    intro b hb
    simp [History.requested, hb]
  request := fun _ => rfl
  grants := by
    intro b
    simp [State.arrive, History.requested]

/-- A release that arrives. -/
lemma Inv.hands_left (hi : Inv s) (down : ℕ) {x : Bool} (hs : s.stage a = .leaving x 0) :
    Hands s a .idle (s.lock.hist.dropped a) (s.left down a).lock
      (release s.lock.phase s.lock.queue a).grantees := by
  have hk : s.lock.hist.request a = some x ∧ s.lock.hist.grants a = 1 := by
    simpa [hs, Stage.Known] using hi.known a
  have hg : s.lock.hist.granted a := ⟨by simp [hk.1], by omega⟩
  refine ⟨inv_release hi.lock hg, ?_, ?_, fun _ => rfl, fun _ => rfl⟩
  · simp [Stage.Known, History.dropped]
  · intro b hb
    simp [History.dropped, hb]

/-- Every step keeps the invariant. -/
theorem inv_step {e : Event α} (hi : Inv s) (h : s.step up down e = some s') : Inv s' := by
  cases e with
  | ask a x n =>
      simp only [State.step] at h
      split at h
      · next hg =>
          have hk := hi.known a
          rw [hg.1] at hk
          exact Option.some.inj h ▸ hi.setStage hk
      · cases h
  | hop a =>
      obtain ⟨st, hst, rfl⟩ := Option.map_eq_some_iff.1 h
      exact hi.setStage ((hi.known a).hop hst)
  | arrive a =>
      simp only [State.step] at h
      split at h
      · next hs => exact Option.some.inj h ▸ (hi.hands_arrive down hs).inv hi
      · cases h
  | notice a =>
      simp only [State.step] at h
      split at h
      · next hs =>
          have hk := hi.known a
          rw [hs] at hk
          exact Option.some.inj h ▸ hi.setStage hk
      · cases h
  | leave a n =>
      simp only [State.step] at h
      split at h
      · next hs =>
          have hk := hi.known a
          rw [hs] at hk
          split at h
          · exact Option.some.inj h ▸ hi.setStage hk
          · cases h
      · cases h
  | left a =>
      simp only [State.step] at h
      split at h
      · next hs => exact Option.some.inj h ▸ (hi.hands_left down hs).inv hi
      · cases h

end Steps

/-! ## What clients rely on -/

section Clients

variable {s : State α} {a b : α}

lemma Inv.granted_iff (hi : Inv s) :
    s.lock.hist.granted a ↔ ∃ x, (s.stage a).grant = some x := by
  have hk := hi.known a
  cases hs : s.stage a <;> simp only [hs, Stage.Known] at hk <;>
    simp [History.granted, Stage.grant, hk]

lemma Inv.request_of_grant (hi : Inv s) {x : Bool} (h : (s.stage a).grant = some x) :
    s.lock.hist.request a = some x := by
  have hk := hi.known a
  cases hs : s.stage a <;> rw [hs] at hk h <;> cases h <;> exact hk.1

/-- **An exclusive request that has been granted is alone**, until its release has arrived. -/
theorem Inv.exclusive (hi : Inv s) (ha : (s.stage a).grant = some true) {y : Bool}
    (hb : (s.stage b).grant = some y) : b = a :=
  hi.lock.correct.exclusive a (hi.granted_iff.2 ⟨_, ha⟩) (hi.request_of_grant ha) b
    (hi.granted_iff.2 ⟨_, hb⟩)

/-- **Nobody is forgotten.**  If the lock is granted to nobody and no request is on its way to it,
then nobody has a request open, and the lock is free. -/
theorem Inv.quiet (hi : Inv s) (h : ∀ a, s.stage a = .idle ∨ ∃ x, s.stage a = .queued x) :
    (∀ a, s.stage a = .idle) ∧ s.lock.phase = .free ∧ s.lock.queue = [] := by
  have hnone : ∀ a, ¬ s.lock.hist.granted a := by
    intro a hg
    obtain ⟨x, hx⟩ := hi.granted_iff.1 hg
    rcases h a with hs | ⟨y, hs⟩ <;> rw [hs] at hx <;> cases hx
  have hempty := hi.lock.correct.idle hnone
  refine ⟨fun a => (h a).resolve_right ?_, hi.lock.correct.free_iff.2 hnone, hempty⟩
  rintro ⟨x, hs⟩
  have hk := hi.known a
  rw [hs] at hk
  have := (hi.lock.waiting.mem_iff a x).2 hk
  rw [hempty] at this
  cases this

end Clients

/-! ## Runs come to an end -/

section Work

variable [Fintype α] {up down : ℕ} {s s' : State α}

/-- The work that is left. -/
def State.work (up down : ℕ) (s : State α) : ℕ := stored (Stage.work up down) s.stage

lemma work_setStage (up down : ℕ) (s : State α) (a : α) (st : Stage) :
    (s.setStage a st).work up down + (s.stage a).work up down
      = s.work up down + st.work up down :=
  stored_update (Stage.work up down) s.stage a st

lemma stored_served (stage : α → Stage) (gs : List α) :
    stored (Stage.work up down) (served down stage gs) = stored (Stage.work up down) stage := by
  refine Finset.sum_congr rfl fun b _ => ?_
  rw [served]
  split
  · exact Stage.work_serve up down _
  · rfl

/-- What an event brings. -/
def Event.brings (up down : ℕ) : Event α → ℕ
  | .ask _ _ _ => perRequest up down
  | _ => 0

/-- Whether an event is a step towards the end. -/
def Event.takes : Event α → ℕ
  | .ask _ _ _ => 0
  | _ => 1

omit [DecidableEq α] [Fintype α] in
lemma Stage.work_hop (up down : ℕ) {st st' : Stage} (h : st.hop = some st') :
    st'.work up down + 1 = st.work up down := by
  cases st with
  | asking x n =>
      cases n with
      | zero => cases h
      | succ n => rw [← Option.some.inj h]; rfl
  | granted x n =>
      cases n with
      | zero => cases h
      | succ n => rw [← Option.some.inj h]; simp only [work]; omega
  | leaving x n =>
      cases n with
      | zero => cases h
      | succ n => rw [← Option.some.inj h]; rfl
  | _ => cases h

/-- **Every step but a new request takes some work off.** -/
theorem step_work {e : Event α} (h : s.step up down e = some s') :
    s'.work up down + e.takes ≤ s.work up down + e.brings up down := by
  cases e with
  | ask a x n =>
      simp only [State.step] at h
      split at h
      · next hg =>
          have := work_setStage up down s a (.asking x n)
          rw [hg.1] at this
          rw [← Option.some.inj h]
          simp only [Stage.work, Event.takes, Event.brings, perRequest] at this ⊢
          omega
      · cases h
  | hop a =>
      obtain ⟨st, hst, rfl⟩ := Option.map_eq_some_iff.1 h
      have h1 := work_setStage up down s a st
      have h2 := Stage.work_hop up down hst
      simp only [Event.takes, Event.brings]
      omega
  | arrive a =>
      simp only [State.step] at h
      split at h
      · next x hs =>
          have := stored_update (Stage.work up down) s.stage a (.queued x)
          rw [hs] at this
          rw [← Option.some.inj h, State.work, State.arrive, stored_served]
          simp only [Stage.work, Event.takes, Event.brings, State.work] at this ⊢
          omega
      · cases h
  | notice a =>
      simp only [State.step] at h
      split at h
      · next x n hs =>
          have := work_setStage up down s a (.holding x)
          rw [hs] at this
          rw [← Option.some.inj h]
          simp only [Stage.work, Event.takes, Event.brings] at this ⊢
          omega
      · cases h
  | leave a n =>
      simp only [State.step] at h
      split at h
      · next x hs =>
          split at h
          · next hn =>
              have := work_setStage up down s a (.leaving x n)
              rw [hs] at this
              rw [← Option.some.inj h]
              simp only [Stage.work, Event.takes, Event.brings] at this ⊢
              omega
          · cases h
      · cases h
  | left a =>
      simp only [State.step] at h
      split at h
      · next x hs =>
          have := stored_update (Stage.work up down) s.stage a .idle
          rw [hs] at this
          rw [← Option.some.inj h, State.work, State.left, stored_served]
          simp only [Stage.work, Event.takes, Event.brings, State.work] at this ⊢
          omega
      · cases h

/-- Some steps lead from `s` to `s'`, of which `k` at least are no new requests, and which bring the
work `b`. -/
structure Advance (up down : ℕ) (s s' : State α) (k b : ℕ) : Prop where
  reach : Reach (State.step up down) (fun _ _ => True) s s'
  work : s'.work up down + k ≤ s.work up down + b

namespace Advance

variable {t : State α} {k k' b b' : ℕ} {a : α} {x : Bool} {n : ℕ}

lemma step {e : Event α} (h : s.step up down e = some s') :
    Advance up down s s' e.takes (e.brings up down) :=
  ⟨.next .start trivial h, step_work h⟩

lemma trans (h : Advance up down s s' k b) (h' : Advance up down s' t k' b') :
    Advance up down s t (k + k') (b + b') :=
  ⟨h.reach.trans h'.reach, by have := h.work; have := h'.work; omega⟩

lemma mono (h : Advance up down s s' k b) (hk : k' ≤ k) (hb : b ≤ b') :
    Advance up down s s' k' b' :=
  ⟨h.reach, by have := h.work; omega⟩

lemma inv (h : Advance up down s s' k b) (hi : Inv s) : Inv s' :=
  h.reach.invariant hi fun _ _ _ hi _ hs => inv_step hi hs

lemma ask (hs : s.stage a = .idle) (hn : n ≤ up) :
    Advance up down s (s.setStage a (.asking x n)) 0 (perRequest up down) :=
  step (e := .ask a x n) (if_pos ⟨hs, hn⟩)

lemma hop {st : Stage} (hs : (s.stage a).hop = some st) :
    Advance up down s (s.setStage a st) 1 0 :=
  step (e := .hop a) (congrArg (Option.map (s.setStage a)) hs)

lemma arrive (hs : s.stage a = .asking x 0) : Advance up down s (s.arrive down a x) 1 0 := by
  refine step (e := .arrive a) ?_
  simp only [State.step, hs]

lemma notice (hs : s.stage a = .granted x n) :
    Advance up down s (s.setStage a (.holding x)) 1 0 := by
  refine step (e := .notice a) ?_
  simp only [State.step, hs]

lemma leave (hs : s.stage a = .holding x) (hn : n ≤ up) :
    Advance up down s (s.setStage a (.leaving x n)) 1 0 := by
  refine step (e := .leave a n) ?_
  simp only [State.step, hs, if_pos hn]

lemma left (hs : s.stage a = .leaving x 0) : Advance up down s (s.left down a) 1 0 := by
  refine step (e := .left a) ?_
  simp only [State.step, hs]

end Advance

end Work

end RemoteLock
