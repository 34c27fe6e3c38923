import FissLock.OneHost.Contention
import FissLock.TryAcquire.System

/-!
# Giving up on a lock that the switch serves

While another task is the holder, `lock_release` does one thing for a task that gives up: it leaves
an early-release mark.  The request of the call is then **dead**; it is still on its way, and when
it comes back to the host the mark takes it out.  Without the marks and the dead requests
(`State.base`) the state is one of `OneHost`, and everything `OneHost.Inv` says about holders,
flags and waiting tasks is true of it.

That a dead request is never granted, and always meets its mark, is a matter of the order in which
the packets travel, and `Corpses` is about that order.  When the call gave up the lock was taken
and nothing on its way could change this, so whatever frees the lock and whatever is granted after
that travels behind the dead request; and so does the next request of the same task.

`Books` says on account of which call everything happens, and `Orderly` is the whole invariant.
-/

namespace FissLock
namespace TryAcquire

open Runs OneHost

/-! ## What the host does -/

section Host

variable {h : HostId} {l : InnetLock} {t : TaskId} {p : LockHdr}

/-- An agent queues every exclusive request. -/
lemma lockAcquireAsync_agent (hr : lockOutOfRange l = false) (hag : l.isAgent = true) :
    (lockAcquireAsync (bmv2Conf h) l t .excl).1.sent = [] := by
  have hr' : ¬ lockOutOfRange l = true := by rw [hr]; decide
  have hen : (bmv2Conf h).enbLocalGrants = true := rfl
  rw [lockAcquireAsync, if_neg (by decide), if_neg hr', if_pos hen]
  split
  · rfl
  · rw [if_neg (by simp)]

/-- `lock_release` of a task that gives up while another one holds the lock. -/
lemma lockRelease_early (hr : lockOutOfRange l = false) (hag : l.isAgent = true)
    (ht : (h, t) ∉ l.holders) (hne : l.holders ≠ ∅) :
    lockRelease (bmv2Conf h) l t
      = { lock := { l with
            localHolders := l.localHolders.erase t
            earlyRelease := Function.update l.earlyRelease (h, t) true } } := by
  have hr' : ¬ lockOutOfRange { l with localHolders := l.localHolders.erase t } = true := by
    rw [show lockOutOfRange { l with localHolders := l.localHolders.erase t } = false from hr]
    decide
  have hhas : (!lockHasHolder { l with localHolders := l.localHolders.erase t }
      ((bmv2Conf h).localhostId, t)) = true := by
    simp [lockHasHolder, bmv2Conf, ht]
  rw [lockRelease, if_neg hr', if_pos hag, if_pos hhas, lockReleaseHandOver,
    if_neg (by simpa [lockNoHolders] using hne)]
  rfl

/-- The mark takes out a request that came back. -/
lemma receive_marked (hr : lockOutOfRange l = false) (ht : p.type = .acquire)
    (hm : p.mode = LOCK_EXCL) (he : l.earlyRelease p.holder = true) :
    (lockPacketProcess (bmv2Conf h) l p).sent = []
      ∧ (lockPacketProcess (bmv2Conf h) l p).lock
        = { l with earlyRelease := Function.update l.earlyRelease p.holder false } := by
  have hms : p.modeState = .excl := by rw [LockHdr.modeState, hm]; rfl
  have hcode : lockPacketProcess (bmv2Conf h) l p = processAcquire l p := by
    rw [lockPacketProcess, ht]
  rw [hcode]
  simp only [processAcquire, hr, hms, he, Bool.false_eq_true, if_false, if_true, reduceCtorEq,
    false_and]
  exact ⟨trivial, trivial⟩

end Host

/-! ## Dead requests -/

instance (s : State) (c : CallId) : Decidable (s.Failed c) :=
  inferInstanceAs (Decidable (∃ r ∈ s.returns, r.call = c ∧ r.result = false))

/-- The request of a call that has returned 0. -/
def State.Dead (s : State) (x : LockHdr × CallId) : Prop := x.1.type = .acquire ∧ s.Failed x.2

instance (s : State) (x : LockHdr × CallId) : Decidable (s.Dead x) :=
  inferInstanceAs (Decidable (_ ∧ _))

/-- The packets that are not dead. -/
def State.live (s : State) (l : List (LockHdr × CallId)) : List LockHdr :=
  (l.filter fun x => ¬ s.Dead x).map Prod.fst

/-- The metadata without the early-release marks. -/
def unmarked (l : InnetLock) : InnetLock := { l with earlyRelease := fun _ => false }

/-- The state without dead requests and marks. -/
def State.base (s : State) (queued served : List TaskId) : OneHost where
  cell := s.cell
  lock := unmarked s.lock
  up := s.live s.up
  down := s.live s.down
  gaps := s.gaps.map Prod.fst
  task := s.task
  queued := queued
  served := served

section Live

variable {s : State} {x : LockHdr × CallId} {l l' : List (LockHdr × CallId)}

@[simp] lemma live_nil : s.live [] = [] := rfl

@[simp] lemma live_append : s.live (l ++ l') = s.live l ++ s.live l' := by
  simp [State.live]

lemma live_cons_dead (hx : s.Dead x) : s.live (x :: l) = s.live l := by
  simp [State.live, hx]

lemma live_cons (hx : ¬ s.Dead x) : s.live (x :: l) = x.1 :: s.live l := by
  simp [State.live, hx]

lemma mem_live (hx : x ∈ l) (hd : ¬ s.Dead x) : x.1 ∈ s.live l :=
  List.mem_map_of_mem (List.mem_filter.2 ⟨hx, decide_eq_true hd⟩)

end Live

/-! ## The invariant -/

/-- On whose account things happen. -/
structure Books (h : HostId) (s : State) : Prop where
  /-- A request or a grant belongs to the last call of its task, if it is not dead. -/
  packet : ∀ x ∈ s.flight, x.1.type = .acquire ∨ x.1.type = .grantWithAgent →
    x.2.1 = x.1.taskId ∧ (s.Dead x ∨ x.2 = s.current x.1.taskId)
  /-- What a task is about to ask for is not dead. -/
  gap : ∀ x ∈ s.gaps, ∀ p, x.1.2 = .send p → p.type = .acquire → x.1.1 = p.taskId ∧ ¬ s.Failed x.2
  waits : s.wqCalls = s.lock.wqueue.map fun e => s.current e.taskId
  holds : ∀ t, (h, t) ∈ s.lock.holders → s.holderCall t = s.current t
  past : ∀ r ∈ s.returns, r.call.2 ≤ s.calls r.call.1 ∧ (r.result = true → r.recorded = true)
  /-- A task whose last call returned 0 has not called again. -/
  failed : ∀ t, s.Failed (s.current t) → s.task t = .idle

/-- Where the dead requests are. -/
structure Corpses (h : HostId) (lid : LockId) (s : State) : Prop where
  sent : ∀ x ∈ s.up, s.Dead x → Sent h lid x.1
  received : ∀ x ∈ s.down, s.Dead x → Received h x.1
  marked : ∀ x ∈ s.down ++ s.up, s.Dead x → s.lock.earlyRelease (h, x.1.taskId) = true
  /-- No grant, and no other request of the task, arrives before a dead request. -/
  first : (s.down ++ s.up).Pairwise fun y x => s.Dead x →
    y.1.type ≠ .grantWithAgent ∧ (y.1.type = .acquire → y.1.taskId ≠ x.1.taskId)
  /-- The switch gets it while the lock is taken, -/
  taken : ∀ x ∈ s.up, s.Dead x → s.cell.free = LOCK_ACQUIRED
  /-- and before a `FREE`. -/
  behind : s.up.Pairwise fun y x => s.Dead x → y.1.type ≠ .free
  /-- If its task has asked the switch again, then when nobody held the lock, and nobody does yet. -/
  alone : ∀ x ∈ s.flight, s.Dead x → ∀ y ∈ s.flight, y.1.type = .acquire → ¬ s.Dead y →
    y.1.taskId = x.1.taskId → s.lock.holders = ∅

/-- The invariant. -/
structure Orderly (h : HostId) (lid : LockId) (s : State) : Prop where
  base : ∃ queued served, OneHost.Inv h lid (s.base queued served)
  books : Books h s
  corpses : Corpses h lid s

section Facts

variable {h : HostId} {lid : LockId} {s s' : State} {t : TaskId} {x : LockHdr × CallId}
  {queued served : List TaskId}

lemma Orderly.inRange (ho : Orderly h lid s) (hlid : Served lid) : lockOutOfRange s.lock = false := by
  obtain ⟨queued, served, hi⟩ := ho.base
  exact hi.inRange (lt_trans hlid (by decide))

lemma Orderly.sent (ho : Orderly h lid s) (hx : x ∈ s.up) : Sent h lid x.1 := by
  obtain ⟨queued, served, hi⟩ := ho.base
  by_cases hd : s.Dead x
  · exact ho.corpses.sent x hx hd
  · exact hi.up _ (mem_live hx hd)

lemma Orderly.received (ho : Orderly h lid s) (hx : x ∈ s.down) : Received h x.1 := by
  obtain ⟨queued, served, hi⟩ := ho.base
  by_cases hd : s.Dead x
  · exact ho.corpses.received x hx hd
  · exact hi.down _ (mem_live hx hd)

/-- A live request is one that `OneHost` counts. -/
lemma base_open_of_packet (hx : x ∈ s.flight) (hd : ¬ s.Dead x)
    (hk : x.1.type = .acquire ∨ x.1.type = .grantWithAgent) :
    0 < (s.base queued served).openAt x.1.taskId := by
  have hc : carries x.1.taskId x.1 = true := decide_eq_true ⟨hk, rfl⟩
  rw [openAt]
  rcases mem_flight.1 hx with (hx | hx) | ⟨t, hx⟩
  · have := List.countP_pos_iff.2 ⟨x.1, mem_live hx hd, hc⟩
    simp only [State.base]
    omega
  · have := List.countP_pos_iff.2 ⟨x.1, mem_live hx hd, hc⟩
    simp only [State.base]
    omega
  · have hg : (t, Gap.send x.1) ∈ s.gaps.map Prod.fst := List.mem_map_of_mem hx
    have hc' : sends (carries x.1.taskId) (t, .send x.1) = true := hc
    have := List.countP_pos_iff.2 ⟨_, hg, hc'⟩
    simp only [State.base]
    omega

/-- And so is an entry of the wait queue. -/
lemma base_open_of_entry {e : Wqe} (he : e ∈ s.lock.wqueue) :
    0 < (s.base queued served).openAt e.taskId := by
  have : 0 < s.lock.wqueue.countP (·.taskId = e.taskId) :=
    List.countP_pos_iff.2 ⟨e, he, decide_eq_true rfl⟩
  rw [openAt]
  simp only [State.base, unmarked]
  omega

/-- Of an idle task there is nothing but dead requests. -/
lemma Orderly.idle (ho : Orderly h lid s) (ht : s.task t = .idle) :
    (∀ x ∈ s.flight, x.1.type = .acquire ∨ x.1.type = .grantWithAgent → x.1.taskId = t → s.Dead x)
      ∧ (∀ e ∈ s.lock.wqueue, e.taskId ≠ t) ∧ (h, t) ∉ s.lock.holders
      ∧ s.lock.taskGranted t = false := by
  obtain ⟨queued, served, hi⟩ := ho.base
  have hc := hi.task t
  rw [show (s.base queued served).task t = .idle from ht] at hc
  obtain ⟨hopen, -, hflag, hheld⟩ := hc
  refine ⟨fun x hx hk hxt => ?_, fun e he het => ?_, fun hm => ?_, ?_⟩
  · by_contra hd
    have : 0 < (s.base queued served).openAt x.1.taskId := base_open_of_packet hx hd hk
    rw [hxt] at this
    omega
  · have : 0 < (s.base queued served).openAt e.taskId := base_open_of_entry he
    rw [het] at this
    omega
  · have := heldAt_eq_one (s := s.base queued served).2 hm
    omega
  · refine Bool.eq_false_of_not_eq_true fun hf => ?_
    have : (s.base queued served).flagAt t = 1 := if_pos hf
    omega

end Facts

/-! ## What a step need not touch -/

section Frames

variable {h : HostId} {lid : LockId} {s s' : State}

/-- The packet is one of the state, perhaps forwarded or granted since. -/
def State.Stems (s : State) (x : LockHdr × CallId) : Prop :=
  ∃ y ∈ s.flight, y.1.taskId = x.1.taskId ∧ y.2 = x.2
    ∧ (y.1.type = x.1.type ∨ y.1.type = .acquire ∧ ¬ s.Dead y ∧ x.1.type = .grantWithAgent)

lemma State.Stems.of_mem {x : LockHdr × CallId} (hx : x ∈ s.flight) : s.Stems x :=
  ⟨x, hx, rfl, rfl, .inl rfl⟩

lemma dead_congr (hfail : ∀ c, s'.Failed c ↔ s.Failed c) (x : LockHdr × CallId) :
    s'.Dead x ↔ s.Dead x :=
  and_congr_right fun _ => hfail x.2

/-- No call begins and none returns 0. -/
lemma Books.move (hb : Books h s) (hcalls : s'.calls = s.calls)
    (hfail : ∀ c, s'.Failed c ↔ s.Failed c)
    (hpast : ∀ r ∈ s'.returns, r ∈ s.returns
      ∨ r.call.2 ≤ s.calls r.call.1 ∧ (r.result = true → r.recorded = true))
    (htask : ∀ t, s.task t = .idle → s'.task t = .idle)
    (hflight : ∀ x ∈ s'.flight, x.1.type = .acquire ∨ x.1.type = .grantWithAgent → s.Stems x)
    (hgaps : ∀ x ∈ s'.gaps, x ∈ s.gaps ∨ ∀ p, x.1.2 = .send p → p.type ≠ .acquire)
    (hwaits : s'.wqCalls = s'.lock.wqueue.map fun e => s.current e.taskId)
    (hholds : ∀ t, (h, t) ∈ s'.lock.holders → s'.holderCall t = s.current t) : Books h s' := by
  have hcur : ∀ t, s'.current t = s.current t := fun t => by rw [State.current, hcalls]; rfl
  refine ⟨fun x hx hk => ?_, fun x hx p hp ht => ?_, ?_, fun t ht => ?_, fun r hr => ?_,
    fun t ht => ?_⟩
  · obtain ⟨y, hy, hty, hcy, hkind⟩ := hflight x hx hk
    rcases hkind with hkind | ⟨hya, hlive, -⟩
    · obtain ⟨htag, hdc⟩ := hb.packet y hy (hkind ▸ hk)
      refine ⟨by rw [← hcy, htag, hty], hdc.imp (fun hd => ?_) fun hc => ?_⟩
      · exact ⟨hkind ▸ hd.1, (hfail _).2 (hcy ▸ hd.2)⟩
      · rw [← hcy, hc, hty, hcur]
    · obtain ⟨htag, hdc⟩ := hb.packet y hy (.inl hya)
      refine ⟨by rw [← hcy, htag, hty], .inr ?_⟩
      rw [← hcy, hdc.resolve_left hlive, hty, hcur]
  · rcases hgaps x hx with hx | hx
    · obtain ⟨h1, h2⟩ := hb.gap x hx p hp ht
      exact ⟨h1, fun hf => h2 ((hfail _).1 hf)⟩
    · exact absurd ht (hx p hp)
  · rw [hwaits]
    exact List.map_congr_left fun e _ => (hcur e.taskId).symm
  · rw [hcur]
    exact hholds t ht
  · rw [hcalls]
    exact (hpast r hr).elim (hb.past r) id
  · rw [hcur, hfail] at ht
    exact htask t (hb.failed t ht)

/-- Requests only move, and nobody becomes a holder. -/
lemma Corpses.alone_of (hc : Corpses h lid s) (hfail : ∀ c, s'.Failed c ↔ s.Failed c)
    (hflight : ∀ x ∈ s'.flight, x.1.type = .acquire → s.Stems x)
    (hholders : s.lock.holders = ∅ → s'.lock.holders = ∅) :
    ∀ x ∈ s'.flight, s'.Dead x → ∀ y ∈ s'.flight, y.1.type = .acquire → ¬ s'.Dead y →
      y.1.taskId = x.1.taskId → s'.lock.holders = ∅ := by
  have hfrom : ∀ x ∈ s'.flight, x.1.type = .acquire → ∃ z ∈ s.flight, z.1.type = .acquire
      ∧ z.1.taskId = x.1.taskId ∧ (s'.Dead x ↔ s.Dead z) := by
    intro x hx hxa
    obtain ⟨z, hz, ht, hcz, hk⟩ := hflight x hx hxa
    have hza : z.1.type = .acquire := by
      rcases hk with hk | ⟨-, -, hg⟩
      · exact hk.trans hxa
      · exact absurd (hxa.symm.trans hg) (by decide)
    refine ⟨z, hz, hza, ht, ?_⟩
    rw [dead_congr hfail, State.Dead, State.Dead, hxa, hza, hcz]
  intro x hx hd y hy hya hlive hxy
  obtain ⟨x', hx', -, htx, hdx⟩ := hfrom x hx hd.1
  obtain ⟨y', hy', hya', hty, hdy⟩ := hfrom y hy hya
  exact hholders (hc.alone x' hx' (hdx.1 hd) y' hy' hya' (fun hd' => hlive (hdy.2 hd'))
    (hty.trans (hxy.trans htx.symm)))

/-- Nothing travels, and no mark and no register changes. -/
lemma Corpses.stay (hc : Corpses h lid s) (hdown : s'.down = s.down) (hup : s'.up = s.up)
    (hcell : s'.cell = s.cell) (hmark : s'.lock.earlyRelease = s.lock.earlyRelease)
    (hfail : ∀ c, s'.Failed c ↔ s.Failed c)
    (halone : ∀ x ∈ s'.flight, s'.Dead x → ∀ y ∈ s'.flight, y.1.type = .acquire → ¬ s'.Dead y →
      y.1.taskId = x.1.taskId → s'.lock.holders = ∅) : Corpses h lid s' where
  sent x hx hd := hc.sent x (hup ▸ hx) ((dead_congr hfail x).1 hd)
  received x hx hd := hc.received x (hdown ▸ hx) ((dead_congr hfail x).1 hd)
  marked x hx hd := by
    rw [hdown, hup] at hx
    rw [hmark]
    exact hc.marked x hx ((dead_congr hfail x).1 hd)
  first := by
    rw [hdown, hup]
    exact hc.first.imp fun hR hd => hR ((dead_congr hfail _).1 hd)
  taken x hx hd := hcell ▸ hc.taken x (hup ▸ hx) ((dead_congr hfail x).1 hd)
  behind := by
    rw [hup]
    exact hc.behind.imp fun hR hd => hR ((dead_congr hfail _).1 hd)
  alone := halone

end Frames

/-- **The invariant gives the contract.** -/
theorem Orderly.contract {h : HostId} {lid : LockId} {s : State} (ho : Orderly h lid s) :
    Contract h s where
  success r hr := (ho.books.past r hr).2
  failure t hf _ := by
    obtain ⟨-, hq, hh, hg⟩ := ho.idle (ho.books.failed t hf)
    exact ⟨hh, fun e he heq => hq e he (congrArg Prod.snd heq), hg⟩
  never c t hf _ hm hc := by
    rw [← hc, ho.books.holds t hm] at hf
    exact (ho.idle (ho.books.failed t hf)).2.2.1 hm
  noWaiter c hf _ hm := by
    rw [ho.books.waits] at hm
    obtain ⟨e, he, rfl⟩ := List.mem_map.1 hm
    exact (ho.idle (ho.books.failed _ hf)).2.1 e he rfl

end TryAcquire
end FissLock
