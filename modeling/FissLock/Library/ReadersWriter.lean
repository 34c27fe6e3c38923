import FissLock.Library.Runs

/-!
# A readers-writer lock with a wait queue

What a lock manager is for, said without reference to any program.  The lock is free, shared by a
set of owners, or owned exclusively; requests that cannot be granted wait in a queue.  When the last
owner leaves, the queue is scheduled: a first waiter that wants the lock exclusively becomes its
owner, otherwise **all** waiting readers do and the writers stay queued in their order.

A `History` records, beside the lock, who asked for it, how often that request was granted, and in
which order exclusive requests were queued and later granted.  It is kept apart from the lock so
that an implementation can be paired with the same history.

* `Inv` is the invariant and `inv_of_reachable` says it holds in every run;
* `Correct` is what a client may rely on, and `Inv.correct` reads it off;
* `stepOrLeave` also lets a client give up a request that still waits, and `ReaderFirst` adds to the
  invariant that no reader waits while others share the lock.
-/

namespace ReadersWriter

open Runs

variable {α : Type*} [DecidableEq α]

/-- Who owns the lock. -/
inductive Phase (α : Type*) where
  | free
  | shared (owners : Finset α)
  | excl (owner : α)

/-- The owners of the lock. -/
def Phase.owners : Phase α → Finset α
  | .free => ∅
  | .shared S => S
  | .excl a => {a}

/-- Whether an owner has the lock exclusively. -/
def Phase.isExcl : Phase α → Bool
  | .excl _ => true
  | _ => false

/-- The requests for the lock and what became of them; `true` stands for an exclusive request. -/
structure History (α : Type*) where
  /-- The unreleased request of each client. -/
  request : α → Option Bool
  /-- How often that request was granted. -/
  grants : α → ℕ
  /-- The exclusive requests that were queued, in this order. -/
  waited : List α
  /-- The exclusive requests granted after they had waited, in this order. -/
  served : List α

namespace History

/-- Nobody has asked for anything. -/
def start : History α where
  request := fun _ => none
  grants := fun _ => 0
  waited := []
  served := []

/-- The client has been granted the lock and has not released it. -/
def granted (h : History α) (a : α) : Prop := h.request a ≠ none ∧ 0 < h.grants a

instance (h : History α) (a : α) : Decidable (h.granted a) := inferInstanceAs (Decidable (_ ∧ _))

/-- `a` asks for the lock, which grants it to the clients `gs`. -/
def requested (h : History α) (a : α) (x : Bool) (gs : List α) : History α where
  request := Function.update h.request a (some x)
  grants b := Function.update h.grants a 0 b + gs.count b
  waited := if x = true ∧ a ∉ gs then h.waited ++ [a] else h.waited
  served := h.served

/-- `a` gives the lock back. -/
def dropped (h : History α) (a : α) : History α :=
  { h with
    request := Function.update h.request a none
    grants := Function.update h.grants a 0 }

/-- The lock is granted to the clients `gs`, which have waited for it. -/
def handed (h : History α) (gs : List α) : History α :=
  { h with
    grants := fun b => h.grants b + gs.count b
    served := h.served ++ gs.filter fun b => h.request b = some true }

/-- `a` releases the lock, which grants it to the clients `gs`. -/
def released (h : History α) (a : α) (gs : List α) : History α := (h.dropped a).handed gs

/-- What the clients of a readers-writer lock rely on; `free` says that the lock is free and `empty`
that its queue is empty. -/
structure Correct (h : History α) (free empty : Prop) : Prop where
  /-- An exclusive owner is the only owner. -/
  exclusive : ∀ a, h.granted a → h.request a = some true → ∀ b, h.granted b → b = a
  /-- The lock is free exactly if nobody owns it. -/
  free_iff : free ↔ ∀ a, ¬ h.granted a
  /-- If nobody owns the lock, nobody waits for it. -/
  idle : (∀ a, ¬ h.granted a) → empty
  /-- Every request is granted at most once. -/
  once : ∀ a, h.grants a ≤ 1
  /-- Exclusive requests that waited are granted in the order in which they were queued. -/
  fifo : h.served <+: h.waited

end History

/-! ## The lock -/

/-- The lock, its queue and its history. -/
structure Service (α : Type*) where
  phase : Phase α
  queue : List (α × Bool)
  hist : History α

/-- What an operation does to the lock and its queue, and whom it grants the lock. -/
structure Grant (α : Type*) where
  phase : Phase α
  queue : List (α × Bool)
  grantees : List α

/-- Ask for the lock. -/
def acquire (p : Phase α) (q : List (α × Bool)) (a : α) (x : Bool) : Grant α :=
  match p, x with
  | .free, true => ⟨.excl a, q, [a]⟩
  | .free, false => ⟨.shared {a}, q, [a]⟩
  | .shared S, false => ⟨.shared (insert a S), q, [a]⟩
  | .shared S, true => ⟨.shared S, q ++ [(a, true)], []⟩
  | .excl b, x => ⟨.excl b, q ++ [(a, x)], []⟩

/-- The readers of a queue. -/
def readers (q : List (α × Bool)) : List α := (q.filter (·.2 = false)).map Prod.fst

/-- The writers of a queue. -/
def writers (q : List (α × Bool)) : List α := (q.filter (·.2 = true)).map Prod.fst

/-- Grant a lock that nobody owns any more. -/
def schedule : List (α × Bool) → Grant α
  | [] => ⟨.free, [], []⟩
  | (a, true) :: q => ⟨.excl a, q, [a]⟩
  | (a, false) :: q =>
      ⟨.shared (readers ((a, false) :: q)).toFinset, ((a, false) :: q).filter (·.2 = true),
        readers ((a, false) :: q)⟩

section Schedule

variable {β : Type*} (f : β → α) (x : β → Bool)

omit [DecidableEq α] in
lemma readers_map (bs : List β) :
    readers (bs.map fun b => (f b, x b)) = (bs.filter (x · = false)).map f := by
  rw [readers, List.filter_map, List.map_map]
  rfl

/-- Scheduling a queue that a program keeps in its own form, if a writer is first. -/
lemma schedule_map_excl {b : β} (bs : List β) (hb : x b = true) :
    schedule ((b :: bs).map fun b => (f b, x b))
      = ⟨.excl (f b), bs.map fun b => (f b, x b), [f b]⟩ := by
  rw [List.map_cons, hb]
  rfl

/-- The same if a reader is first. -/
lemma schedule_map_shared {b : β} (bs : List β) (hb : x b = false) :
    schedule ((b :: bs).map fun b => (f b, x b))
      = ⟨.shared (((b :: bs).filter (x · = false)).map f).toFinset,
          ((b :: bs).filter (x · = true)).map fun b => (f b, x b),
          ((b :: bs).filter (x · = false)).map f⟩ := by
  have hsched : schedule ((b :: bs).map fun b => (f b, x b))
      = ⟨.shared (readers ((b :: bs).map fun b => (f b, x b))).toFinset,
          ((b :: bs).map fun b => (f b, x b)).filter (·.2 = true),
          readers ((b :: bs).map fun b => (f b, x b))⟩ := by
    rw [List.map_cons, hb]
    rfl
  rw [hsched, readers_map, List.filter_map]
  rfl

end Schedule

/-- Give the lock back. -/
def release (p : Phase α) (q : List (α × Bool)) (a : α) : Grant α :=
  if p.owners.erase a = ∅ then schedule q
  else ⟨.shared (p.owners.erase a), q, []⟩

lemma release_last {p : Phase α} {q : List (α × Bool)} {a : α} (h : p.owners.erase a = ∅) :
    release p q a = schedule q := if_pos h

lemma release_more {p : Phase α} {q : List (α × Bool)} {a : α} (h : p.owners.erase a ≠ ∅) :
    release p q a = ⟨.shared (p.owners.erase a), q, []⟩ := if_neg h

/-- What a client can do. -/
inductive Event (α : Type*) where
  | acquire (a : α) (x : Bool)
  | release (a : α)

/-- A client asks if it has no request open, and releases what it was granted. -/
def Service.step (s : Service α) : Event α → Option (Service α)
  | .acquire a x =>
      if s.hist.request a = none then
        let g := ReadersWriter.acquire s.phase s.queue a x
        some ⟨g.phase, g.queue, s.hist.requested a x g.grantees⟩
      else none
  | .release a =>
      if s.hist.granted a then
        let g := ReadersWriter.release s.phase s.queue a
        some ⟨g.phase, g.queue, s.hist.released a g.grantees⟩
      else none

/-- A free lock without a history. -/
def Service.start : Service α := ⟨.free, [], .start⟩

/-! ## The invariant -/

/-- The waiting requests are open, not granted, and each waits once. -/
structure Waiting (q : List (α × Bool)) (h : History α) : Prop where
  mem_iff : ∀ a x, (a, x) ∈ q ↔ h.request a = some x ∧ h.grants a = 0
  nodup : (q.map Prod.fst).Nodup
  order : h.waited = h.served ++ writers q

/-- The invariant of the lock. -/
structure Inv (s : Service α) : Prop where
  waiting : Waiting s.queue s.hist
  closed : ∀ a, s.hist.request a = none → s.hist.grants a = 0
  owners : ∀ a, s.hist.grants a = if a ∈ s.phase.owners then 1 else 0
  mode : ∀ a ∈ s.phase.owners, s.hist.request a = some s.phase.isExcl
  held : s.phase = .free ∨ s.phase.owners ≠ ∅
  idle : s.phase = .free → s.queue = []


section Steps

variable {s : Service α} {a : α} {x : Bool}

lemma Inv.not_mem_queue (hi : Inv s) (hr : s.hist.request a = none) (y : Bool) :
    (a, y) ∉ s.queue := by
  intro h
  have := ((hi.waiting.mem_iff a y).1 h).1
  rw [hr] at this
  cases this

/-- A request that is granted at once. -/
lemma Inv.grant (hi : Inv s) (hr : s.hist.request a = none) {p : Phase α}
    (ho : p.owners = insert a s.phase.owners) (hx : p.isExcl = x)
    (hm : ∀ b ∈ s.phase.owners, s.phase.isExcl = x) :
    Inv ⟨p, s.queue, s.hist.requested a x [a]⟩ := by
  have hp : p.owners ≠ ∅ := by
    rw [ho]
    exact Finset.insert_ne_empty _ _
  refine ⟨⟨fun b y => ?_, hi.waiting.nodup, ?_⟩, fun b hb => ?_, fun b => ?_, fun b hb => ?_, .inr hp,
    fun h => absurd (by rw [show p = .free from h]; rfl) hp⟩
  · by_cases hba : b = a
    · subst hba
      simp [History.requested, hi.not_mem_queue hr y]
    · simp [History.requested, Function.update_of_ne hba, hi.waiting.mem_iff b y,
        List.count_eq_zero.2 (show b ∉ [a] by simpa using hba)]
  · simpa [History.requested] using hi.waiting.order
  · by_cases hba : b = a
    · subst hba
      simp [History.requested] at hb
    · simp only [History.requested, Function.update_of_ne hba] at hb ⊢
      rw [hi.closed b hb, List.count_eq_zero.2 (show b ∉ [a] by simpa using hba)]
  · show Function.update s.hist.grants a 0 b + [a].count b = if b ∈ p.owners then 1 else 0
    rw [ho]
    by_cases hba : b = a
    · subst hba
      simp
    · simp [hba, hi.owners b, List.count_eq_zero]
  · show Function.update s.hist.request a (some x) b = some p.isExcl
    rw [hx]
    by_cases hba : b = a
    · subst hba
      simp
    · have hb' : b ∈ s.phase.owners := by
        rw [show (Service.phase _).owners = p.owners from rfl, ho] at hb
        exact (Finset.mem_insert.1 hb).resolve_left hba
      rw [Function.update_of_ne hba, hi.mode b hb', hm b hb']

/-- A request that has to wait. -/
lemma Inv.wait (hi : Inv s) (hr : s.hist.request a = none) (hp : s.phase ≠ .free) :
    Inv ⟨s.phase, s.queue ++ [(a, x)], s.hist.requested a x []⟩ := by
  have hg : s.hist.grants a = 0 := hi.closed a hr
  have hgrants : (s.hist.requested a x []).grants = s.hist.grants := by
    funext b
    by_cases hba : b = a
    · subst hba
      simp [History.requested, hg]
    · simp [History.requested, Function.update_of_ne hba]
  have hmem : ∀ b ∈ s.phase.owners, b ≠ a := by
    rintro b hb rfl
    have := hi.owners b
    rw [if_pos hb, hg] at this
    cases this
  refine ⟨⟨fun b y => ?_, ?_, ?_⟩, fun b hb => ?_, fun b => ?_, fun b hb => ?_, hi.held,
    fun h => absurd h hp⟩
  · rw [hgrants]
    by_cases hba : b = a
    · subst hba
      simp [History.requested, hi.not_mem_queue hr, hg, eq_comm]
    · simp [History.requested, hi.waiting.mem_iff b y, hba]
  · simp only [List.map_append, List.map_cons, List.map_nil]
    refine List.Nodup.append hi.waiting.nodup (List.nodup_singleton _) ?_
    rw [List.disjoint_singleton]
    intro h
    obtain ⟨⟨b, y⟩, hb, rfl⟩ := List.mem_map.1 h
    exact hi.not_mem_queue hr y hb
  · have := hi.waiting.order
    cases x <;> simp [History.requested, writers, List.filter_append, this]
  · rw [hgrants]
    by_cases hba : b = a
    · subst hba
      exact hg
    · simp only [History.requested, Function.update_of_ne hba] at hb
      exact hi.closed b hb
  · rw [hgrants]
    exact hi.owners b
  · show Function.update s.hist.request a (some x) b = _
    rw [Function.update_of_ne (hmem b hb)]
    exact hi.mode b hb

lemma inv_acquire (hi : Inv s) (hr : s.hist.request a = none) (x : Bool) :
    Inv ⟨(acquire s.phase s.queue a x).phase, (acquire s.phase s.queue a x).queue,
      s.hist.requested a x (acquire s.phase s.queue a x).grantees⟩ := by
  cases hp : s.phase with
  | free =>
      cases x with
      | false => exact hi.grant hr (by rw [hp]; rfl) rfl (by simp [hp, Phase.owners])
      | true => exact hi.grant hr (by rw [hp]; rfl) rfl (by simp [hp, Phase.owners])
  | shared S =>
      cases x with
      | false => exact hi.grant hr (by rw [hp]; rfl) rfl (fun b _ => by rw [hp]; rfl)
      | true =>
          have := hi.wait (x := true) hr (by simp [hp])
          rwa [hp] at this
  | excl b =>
      have := hi.wait (x := x) hr (by simp [hp])
      rwa [hp] at this

/-- A client that leaves a lock nobody was granted but it leaves a queue of open requests. -/
lemma Inv.waiting_dropped (hi : Inv s) (hg : s.hist.granted a) :
    Waiting s.queue (s.hist.dropped a) := by
  refine ⟨fun b y => ?_, hi.waiting.nodup, hi.waiting.order⟩
  rw [hi.waiting.mem_iff b y]
  by_cases hba : b = a
  · subst hba
    simp [History.dropped, hg.2.ne']
  · simp [History.dropped, hba]

lemma Inv.closed_dropped (hi : Inv s) {b : α} (hb : (s.hist.dropped a).request b = none) :
    (s.hist.dropped a).grants b = 0 := by
  by_cases hba : b = a
  · subst hba
    simp [History.dropped]
  · simp only [History.dropped, Function.update_of_ne hba] at hb ⊢
    exact hi.closed b hb

lemma History.handed_nil (h : History α) : h.handed [] = h := by simp [handed]

/-- A writer is first in the queue of a lock that nobody owns. -/
lemma Waiting.inv_schedule_excl {b : α} {q : List (α × Bool)} {h : History α}
    (hw : Waiting ((b, true) :: q) h) (hz : ∀ b, h.grants b = 0) :
    Inv ⟨(schedule ((b, true) :: q)).phase, (schedule ((b, true) :: q)).queue,
      h.handed (schedule ((b, true) :: q)).grantees⟩ := by
  have hreq : h.request b = some true := ((hw.mem_iff b true).1 List.mem_cons_self).1
  have hnd : b ∉ q.map Prod.fst ∧ (q.map Prod.fst).Nodup := List.nodup_cons.1 hw.nodup
  have hcount : ∀ c, [b].count c = if c = b then 1 else 0 := fun c => by
    rw [List.count_singleton]
    simp [eq_comm (a := b)]
  refine ⟨⟨fun c y => ?_, hnd.2, ?_⟩, fun c hc => ?_, fun c => ?_, fun c hc => ?_,
    .inr (Finset.singleton_ne_empty b), fun h => nomatch h⟩
  · have hmem := hw.mem_iff c y
    simp only [List.mem_cons, Prod.mk.injEq, hz c, and_true] at hmem
    simp only [schedule, History.handed, hz c, hcount c, zero_add]
    by_cases hcb : c = b
    · subst hcb
      have : (c, y) ∉ q := fun h => hnd.1 (List.mem_map.2 ⟨_, h, rfl⟩)
      simp [this]
    · simpa [hcb] using hmem
  · simp [schedule, History.handed, hreq, hw.order, writers]
  · have hcb : c ≠ b := by
      rintro rfl
      cases hreq.symm.trans hc
    simp [schedule, History.handed, hz c, hcount c, hcb]
  · simp [schedule, History.handed, hz c, hcount c, Phase.owners]
  · obtain rfl : c = b := by simpa [schedule, Phase.owners] using hc
    exact hreq

/-- A reader is first: all readers enter. -/
lemma Waiting.inv_schedule_shared {b : α} {q : List (α × Bool)} {h : History α}
    (hw : Waiting ((b, false) :: q) h) (hz : ∀ b, h.grants b = 0) :
    Inv ⟨(schedule ((b, false) :: q)).phase, (schedule ((b, false) :: q)).queue,
      h.handed (schedule ((b, false) :: q)).grantees⟩ := by
  set r := (b, false) :: q with hr
  have hsched : schedule r
      = ⟨.shared (readers r).toFinset, r.filter (·.2 = true), readers r⟩ := rfl
  have hmem : ∀ c, c ∈ readers r ↔ h.request c = some false := fun c => by
    have := hw.mem_iff c false
    simp only [hz c, and_true] at this
    simpa [readers] using this
  have hnd : (readers r).Nodup :=
    hw.nodup.sublist (List.Sublist.map _ List.filter_sublist)
  have hcount : ∀ c, (readers r).count c = if c ∈ readers r then 1 else 0 :=
    fun c => List.Nodup.count hnd
  rw [hsched]
  refine ⟨⟨fun c y => ?_, ?_, ?_⟩, fun c hc => ?_, fun c => ?_, fun c hc => ?_, .inr ?_,
    fun h => nomatch h⟩
  · have := hw.mem_iff c y
    simp only [hz c, and_true] at this
    simp only [History.handed, hz c, hcount c, hmem c, List.mem_filter, this, zero_add]
    cases y <;> simp +contextual
  · exact hw.nodup.sublist (List.Sublist.map _ List.filter_sublist)
  · have hnone : (readers r).filter (fun c => h.request c = some true) = [] := by
      rw [List.filter_eq_nil_iff]
      intro c hc
      simp [(hmem c).1 hc]
    simp [History.handed, hnone, hw.order, writers, List.filter_filter]
  · have : c ∉ readers r := fun h' => by
      cases ((hmem c).1 h').symm.trans hc
    simp [History.handed, hz c, hcount c, this]
  · simp [History.handed, hz c, hcount c, Phase.owners]
  · exact (hmem c).1 (by simpa [Phase.owners] using hc)
  · have : b ∈ readers r := by simp [readers, hr]
    exact Finset.ne_empty_of_mem (List.mem_toFinset.2 this)

/-- Scheduling the queue of a lock that nobody owns. -/
lemma Waiting.inv_schedule {q : List (α × Bool)} {h : History α} (hw : Waiting q h)
    (hz : ∀ b, h.grants b = 0) :
    Inv ⟨(schedule q).phase, (schedule q).queue, h.handed (schedule q).grantees⟩ := by
  match q, hw with
  | [], hw =>
      refine ⟨?_, ?_, ?_, ?_, .inl rfl, fun _ => rfl⟩
      · simpa [schedule, History.handed_nil] using hw
      · simp [History.handed, schedule, hz]
      · simp [History.handed, schedule, hz, Phase.owners]
      · simp [schedule, Phase.owners]
  | (_, true) :: _, hw => exact hw.inv_schedule_excl hz
  | (_, false) :: _, hw => exact hw.inv_schedule_shared hz

lemma Inv.mem_owners (hi : Inv s) (hg : s.hist.granted a) : a ∈ s.phase.owners := by
  have := hi.owners a
  by_contra h
  rw [if_neg h] at this
  exact absurd hg.2 (by omega)

lemma inv_release (hi : Inv s) (hg : s.hist.granted a) :
    Inv ⟨(release s.phase s.queue a).phase, (release s.phase s.queue a).queue,
      s.hist.released a (release s.phase s.queue a).grantees⟩ := by
  have ha := hi.mem_owners hg
  have hgrants : ∀ b, (s.hist.dropped a).grants b = if b ∈ s.phase.owners.erase a then 1 else 0 := by
    intro b
    by_cases hba : b = a
    · subst hba
      simp [History.dropped]
    · simp [History.dropped, hba, hi.owners b]
  by_cases he : s.phase.owners.erase a = ∅
  · rw [release_last he]
    refine (hi.waiting_dropped hg).inv_schedule fun b => ?_
    rw [hgrants b, he]
    rfl
  · rw [release_more he]
    -- with another owner beside `a` the lock was shared
    have hsh : s.phase.isExcl = false := by
      cases hp : s.phase with
      | excl c =>
          rw [hp, Phase.owners, Finset.mem_singleton] at ha
          rw [hp, ha, Phase.owners] at he
          exact absurd (Finset.erase_singleton c) he
      | _ => rfl
    rw [History.released, History.handed_nil]
    refine ⟨hi.waiting_dropped hg, fun b hb => hi.closed_dropped hb, hgrants, fun b hb => ?_,
      .inr he, fun h => nomatch h⟩
    have hb' := Finset.mem_erase.1 hb
    show Function.update s.hist.request a none b = some false
    rw [Function.update_of_ne hb'.1, hi.mode b hb'.2, hsh]

theorem inv_step {e : Event α} {s' : Service α} (hi : Inv s) (h : s.step e = some s') : Inv s' := by
  cases e with
  | acquire a x =>
      simp only [Service.step] at h
      split at h
      · next hr => exact Option.some.inj h ▸ inv_acquire hi hr x
      · cases h
  | release a =>
      simp only [Service.step] at h
      split at h
      · next hg => exact Option.some.inj h ▸ inv_release hi hg
      · cases h

end Steps

lemma inv_start : Inv (Service.start : Service α) where
  waiting := ⟨by simp [Service.start, History.start], List.nodup_nil, rfl⟩
  closed _ _ := rfl
  owners _ := rfl
  mode := by simp [Service.start, Phase.owners]
  held := .inl rfl
  idle _ := rfl

theorem inv_of_reachable {s : Service α} {ok : Service α → Event α → Prop}
    (h : Reach Service.step ok .start s) : Inv s :=
  h.invariant inv_start fun _ _ _ hi _ hs => inv_step hi hs

lemma Inv.granted_iff {s : Service α} (hi : Inv s) (a : α) :
    s.hist.granted a ↔ a ∈ s.phase.owners := by
  refine ⟨hi.mem_owners, fun ha => ⟨?_, ?_⟩⟩
  · rw [hi.mode a ha]
    exact Option.some_ne_none _
  · rw [hi.owners a, if_pos ha]
    exact Nat.one_pos

/-- **What clients rely on follows from the invariant.** -/
theorem Inv.correct {s : Service α} (hi : Inv s) :
    s.hist.Correct (s.phase = .free) (s.queue = []) := by
  have hgr := hi.granted_iff
  have hfree : s.phase = .free ↔ ∀ a, ¬ s.hist.granted a := by
    simp only [hgr]
    refine ⟨fun h => by simp [h, Phase.owners], fun h => ?_⟩
    exact hi.held.resolve_right fun hne => hne (Finset.eq_empty_of_forall_notMem h)
  refine ⟨fun a ha hx b hb => ?_, hfree, fun h => hi.idle (hfree.2 h), fun a => ?_, ?_⟩
  · rw [hgr] at ha hb
    rw [hi.mode a ha, Option.some.injEq] at hx
    cases hp : s.phase with
    | excl c =>
        rw [hp, Phase.owners, Finset.mem_singleton] at ha hb
        rw [ha, hb]
    | free => simp [hp, Phase.isExcl] at hx
    | shared S => simp [hp, Phase.isExcl] at hx
  · rw [hi.owners a]
    split <;> omega
  · rw [hi.waiting.order]
    exact List.prefix_append _ _

/-! ## Requests that are given up -/

/-- `a` gives up a request that still waits. -/
def History.withdrawn (h : History α) (a : α) : History α :=
  { h with
    request := Function.update h.request a none
    waited := h.served ++ (h.waited.drop h.served.length).filter (· ≠ a) }

/-- `a` is done with its request, granted or not, and the lock is granted to the clients `gs`. -/
def History.ended (h : History α) (a : α) (gs : List α) : History α :=
  (if 0 < h.grants a then h.dropped a else h.withdrawn a).handed gs

lemma History.request_ended (h : History α) (a : α) (gs : List α) :
    (h.ended a gs).request = Function.update h.request a none := by
  simp only [History.ended, History.handed]
  split <;> rfl

lemma History.grants_ended (h : History α) (a : α) (gs : List α) (b : α) :
    (h.ended a gs).grants b = Function.update h.grants a 0 b + gs.count b := by
  simp only [History.ended, History.handed]
  split
  · rfl
  · next hg =>
      by_cases hba : b = a
      · subst hba
        simpa [History.withdrawn] using hg
      · simp [History.withdrawn, hba]

/-- Take a client out of the queue. -/
def withdraw (q : List (α × Bool)) (a : α) : List (α × Bool) := q.filter (·.1 ≠ a)

/-- Give the lock back, or give up waiting for it. -/
def leave (s : Service α) (a : α) : Grant α :=
  if 0 < s.hist.grants a then release s.phase s.queue a else ⟨s.phase, withdraw s.queue a, []⟩

/-- As `Service.step`, but a client may be done with its request at any time. -/
def Service.stepOrLeave (s : Service α) : Event α → Option (Service α)
  | .acquire a x => s.step (.acquire a x)
  | .release a =>
      if s.hist.request a ≠ none then
        some ⟨(leave s a).phase, (leave s a).queue, s.hist.ended a (leave s a).grantees⟩
      else none

/-- A lock that never lets a reader wait for readers. -/
structure ReaderFirst (s : Service α) : Prop extends Inv s where
  readers_nil : ∀ S, s.phase = .shared S → readers s.queue = []

section Leaving

variable {s : Service α} {a : α}

lemma writers_withdraw (q : List (α × Bool)) (a : α) :
    writers (withdraw q a) = (writers q).filter (· ≠ a) := by
  simp only [writers, withdraw, List.filter_map, List.filter_filter]
  congr 1
  refine List.filter_congr fun e _ => ?_
  simp [Bool.and_comm]

lemma readers_withdraw (q : List (α × Bool)) (a : α) :
    readers (withdraw q a) = (readers q).filter (· ≠ a) := by
  simp only [readers, withdraw, List.filter_map, List.filter_filter]
  congr 1
  refine List.filter_congr fun e _ => ?_
  simp [Bool.and_comm]

/-- A waiting request is given up. -/
lemma inv_withdraw (hi : Inv s) (hg : s.hist.grants a = 0) :
    Inv ⟨s.phase, withdraw s.queue a, s.hist.withdrawn a⟩ := by
  have hne : ∀ b ∈ s.phase.owners, b ≠ a := by
    rintro b hb rfl
    have := hi.owners b
    rw [if_pos hb, hg] at this
    cases this
  refine ⟨⟨fun b y => ?_, ?_, ?_⟩, fun b hb => ?_, hi.owners, fun b hb => ?_, hi.held, fun h => ?_⟩
  · simp only [withdraw, List.mem_filter, hi.waiting.mem_iff b y, History.withdrawn]
    by_cases hba : b = a
    · simp [hba]
    · simp [hba]
  · exact hi.waiting.nodup.sublist (List.filter_sublist.map _)
  · simp [History.withdrawn, hi.waiting.order, writers_withdraw]
  · by_cases hba : b = a
    · exact hba ▸ hg
    · simp only [History.withdrawn, Function.update_of_ne hba] at hb
      exact hi.closed b hb
  · simp only [History.withdrawn, Function.update_of_ne (hne b hb)]
    exact hi.mode b hb
  · simp only [withdraw, hi.idle h, List.filter_nil]

lemma inv_leave (hi : Inv s) (hr : s.hist.request a ≠ none) :
    Inv ⟨(leave s a).phase, (leave s a).queue, s.hist.ended a (leave s a).grantees⟩ := by
  by_cases hg : 0 < s.hist.grants a
  · simp only [leave, History.ended, if_pos hg]
    exact inv_release hi ⟨hr, hg⟩
  · simp only [leave, History.ended, if_neg hg, History.handed_nil]
    exact inv_withdraw hi (Nat.eq_zero_of_not_pos hg)

/-- With another owner beside `a` the lock is shared. -/
lemma Inv.shared_of_erase_ne (hi : Inv s) (hg : s.hist.granted a)
    (he : s.phase.owners.erase a ≠ ∅) : s.phase = .shared s.phase.owners := by
  have ha := hi.mem_owners hg
  cases hp : s.phase with
  | free => simp [hp, Phase.owners] at ha
  | shared S => rfl
  | excl c =>
      rw [hp, Phase.owners, Finset.mem_singleton] at ha
      simp [hp, ha, Phase.owners] at he

lemma readers_schedule (q : List (α × Bool)) (S : Finset α) (h : (schedule q).phase = .shared S) :
    readers (schedule q).queue = [] := by
  match q with
  | [] => cases h
  | (b, true) :: q => cases h
  | (b, false) :: q =>
      simp only [schedule, readers, List.filter_filter, List.map_eq_nil_iff, List.filter_eq_nil_iff]
      simp

lemma readerFirst_acquire (hi : ReaderFirst s) (hr : s.hist.request a = none) (x : Bool) :
    ReaderFirst ⟨(acquire s.phase s.queue a x).phase, (acquire s.phase s.queue a x).queue,
      s.hist.requested a x (acquire s.phase s.queue a x).grantees⟩ := by
  refine ⟨inv_acquire hi.toInv hr x, fun S hS => ?_⟩
  cases hp : s.phase with
  | free => cases x <;> simp [acquire, hi.idle hp, readers]
  | shared T =>
      have := hi.readers_nil T hp
      cases x <;> simpa [hp, acquire, readers] using this
  | excl b => simp [hp, acquire] at hS

lemma readerFirst_leave (hi : ReaderFirst s) (hr : s.hist.request a ≠ none) :
    ReaderFirst ⟨(leave s a).phase, (leave s a).queue, s.hist.ended a (leave s a).grantees⟩ := by
  refine ⟨inv_leave hi.toInv hr, fun S hS => ?_⟩
  by_cases hg : 0 < s.hist.grants a
  · simp only [leave, if_pos hg] at hS ⊢
    by_cases he : s.phase.owners.erase a = ∅
    · rw [release_last he] at hS ⊢
      exact readers_schedule _ S hS
    · rw [release_more he]
      exact hi.readers_nil _ (hi.toInv.shared_of_erase_ne ⟨hr, hg⟩ he)
  · simp only [leave, if_neg hg] at hS ⊢
    rw [readers_withdraw, hi.readers_nil S hS, List.filter_nil]

theorem readerFirst_step {e : Event α} {s' : Service α} (hi : ReaderFirst s)
    (h : s.stepOrLeave e = some s') : ReaderFirst s' := by
  cases e with
  | acquire a x =>
      simp only [Service.stepOrLeave, Service.step] at h
      split at h
      · next hr => exact Option.some.inj h ▸ readerFirst_acquire hi hr x
      · cases h
  | release a =>
      simp only [Service.stepOrLeave] at h
      split at h
      · next hr => exact Option.some.inj h ▸ readerFirst_leave hi hr
      · cases h

end Leaving

theorem readerFirst_of_reachable {s : Service α} {ok : Service α → Event α → Prop}
    (h : Reach Service.stepOrLeave ok .start s) : ReaderFirst s :=
  h.invariant ⟨inv_start, fun _ h => nomatch h⟩ fun _ _ _ hi _ hs => readerFirst_step hi hs

end ReadersWriter
