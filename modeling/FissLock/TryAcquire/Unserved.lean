import FissLock.TryAcquire.System
import FissLock.OneHost.Managed

/-!
# Locks that the switch does not serve

The plane has registers for the lock ids below 1024 and sends the packets of all others to whom
they are addressed to.  Nobody is ever granted such a lock by the switch.

* Below `SWITCH_LOCK_NUM` a host addresses its requests to itself.  It is not the agent, so it
  throws a request back and counts; a request that has been thrown back three times is queued.
  That this never happens is because a call that gives up sends a `RELEASE` after its request: the
  two take turns (`Turns`), the `RELEASE` leaves an early-release mark, and the mark takes out the
  next request.
* From there on a manager decides.  If it is the host itself, a free lock is granted on the spot;
  `Guarded` lets nobody ask for one that is not free.
* If it is another host, no grant ever comes back.  But if that is host 1 or 2, this host reads the
  packets to it as well and does what they say: a request that finds the lock free makes its task a
  holder, and the `RELEASE` behind it, sent when the call gave up, takes this back.  Every packet of
  a task has a number (`slot`), the numbers of those on their way are `Consecutive`, and the first
  of them says whether the task is a holder.
-/

namespace FissLock
namespace TryAcquire

open Runs OneHost

/-- Nobody holds the lock, waits in the queue, has its flag up, or was ever told 1. -/
structure Quiet (s : State) : Prop where
  holders : s.lock.holders = ∅
  wqueue : s.lock.wqueue = []
  flags : ∀ t, s.lock.taskGranted t = false
  wqCalls : s.wqCalls = []
  returns : ∀ r ∈ s.returns, r.result = false

lemma Quiet.contract {h : HostId} {s : State} (hq : Quiet s) : Contract h s where
  success r hr hres := absurd (hres.symm.trans (hq.returns r hr)) (by decide)
  failure t _ _ := by
    refine ⟨?_, ?_, hq.flags t⟩
    · rw [hq.holders]
      exact Finset.notMem_empty _
    · rw [hq.wqueue]
      exact nofun
  never c t _ _ hm := by
    rw [hq.holders] at hm
    exact absurd hm (Finset.notMem_empty _)
  noWaiter c _ _ hm := by
    rw [hq.wqCalls] at hm
    cases hm

variable {h : HostId} {lid : LockId} {s s' : State} {t : TaskId} {x : LockHdr × CallId}
  {rest : List (LockHdr × CallId)} {e : Event}

/-- A call returns 0. -/
lemma Quiet.answer (hq : Quiet s) : Quiet (s.answer h t false) := by
  refine ⟨hq.holders, hq.wqueue, hq.flags, hq.wqCalls, fun r hr => ?_⟩
  rcases List.mem_append.1 hr with hr | hr
  · exact hq.returns r hr
  · rw [List.mem_singleton.1 hr]

/-! ## Requests and releases take turns -/

/-- The kind of a packet of a task that comes next: a request, or a release. -/
def turnKind (request : Bool) : PostType := if request then .acquire else .release

/-- Requests and releases take turns.  The first is a request if `first`, and the next after the
last one if `next`. -/
def Turns (first : Bool) : List PostType → Bool → Prop
  | [], next => first = next
  | k :: w, next => k = turnKind first ∧ Turns (!first) w next

lemma Turns.append {first next : Bool} {w : List PostType} (hw : Turns first w next) :
    Turns first (w ++ [turnKind next]) !next := by
  induction w generalizing first with
  | nil =>
      obtain rfl : first = next := hw
      exact ⟨rfl, rfl⟩
  | cons k w ih => exact ⟨hw.1, ih hw.2⟩

/-- The packets of a task. -/
def ofTask (l : List (LockHdr × CallId)) (t : TaskId) : List (LockHdr × CallId) :=
  l.filter fun x => x.1.taskId = t

/-- The kinds of the packets of a task. -/
def word (l : List (LockHdr × CallId)) (t : TaskId) : List PostType :=
  (ofTask l t).map fun x => x.1.type

/-- Whether the host has to see a request of the holder next. -/
def expects (l : InnetLock) (lh : LockHolder) : Bool :=
  l.earlyRelease lh || decide (l.fwdBackCnt lh = 0)

/-- The invariant below `SWITCH_LOCK_NUM`. -/
structure Unserved (h : HostId) (lid : LockId) (s : State) : Prop extends Quiet s where
  id : s.lock.id = lid
  agent : s.lock.isAgent = false
  task : ∀ t, s.task t ≠ .holding
  packets : ∀ x ∈ s.flight, x.1.id = lid ∧ x.1.machineId = h ∧ x.1.agent = h
    ∧ (x.1.type = .acquire → x.1.mode = LOCK_EXCL)
  gaps : ∀ g ∈ s.gaps, ∃ p c, g = ((p.taskId, .send p), c)
  oneGap : (s.gaps.map fun g => g.1.1).Nodup
  count : ∀ t, s.lock.fwdBackCnt (h, t) ≤ 1
    ∧ (s.lock.earlyRelease (h, t) = true → s.lock.fwdBackCnt (h, t) = 1)
  turns : ∀ t, Turns (expects s.lock (h, t)) (word s.flight t) (decide (s.task t = .idle))

/-! ## What the host does -/

section Host

variable {l : InnetLock} {p : LockHdr}

/-- `lock_release` of a host that is not the agent. -/
lemma lockRelease_foreign (hr : lockOutOfRange l = false) (hag : l.isAgent = false) :
    lockRelease (bmv2Conf h) l t
      = { lock := { l with localHolders := l.localHolders.erase t }
          sent := [sendPostRelease (bmv2Conf h) l.id h t] } := by
  have hr' : ¬ lockOutOfRange { l with localHolders := l.localHolders.erase t } = true := by
    rw [show lockOutOfRange { l with localHolders := l.localHolders.erase t } = false from hr]
    decide
  rw [lockRelease, if_neg hr', if_neg (by rw [hag]; decide)]
  rfl

/-- A request meets a mark, or is thrown back for the first time. -/
lemma receive_unserved_request (hr : lockOutOfRange l = false) (hag : l.isAgent = false)
    (ha : p.type = .acquire) (hm : p.mode = LOCK_EXCL)
    (hc : l.earlyRelease p.holder = false → l.fwdBackCnt p.holder = 0) :
    (lockPacketProcess (bmv2Conf h) l p).sent = []
      ∧ (lockPacketProcess (bmv2Conf h) l p).lock = if l.earlyRelease p.holder then
          { l with earlyRelease := Function.update l.earlyRelease p.holder false }
        else { l with fwdBackCnt := Function.update l.fwdBackCnt p.holder 1 } := by
  have hms : p.modeState = .excl := by rw [LockHdr.modeState, hm]; rfl
  have hcode : lockPacketProcess (bmv2Conf h) l p = processAcquire l p := by
    rw [lockPacketProcess, ha]
  rw [hcode]
  cases he : l.earlyRelease p.holder with
  | true =>
      simp only [processAcquire, hr, hms, he, Bool.false_eq_true, if_false, if_true, reduceCtorEq,
        false_and, and_self]
  | false =>
      simp only [processAcquire, hr, hms, he, hag, hc he, Bool.false_eq_true, if_false, if_true,
        reduceCtorEq, false_and, Bool.not_false, Nat.not_lt_zero, zero_add, and_self]

/-- A `RELEASE` leaves a mark. -/
lemma receive_unserved_release (hr : lockOutOfRange l = false) (ht : p.type = .release)
    (hh : l.holders = ∅) (hw : l.wqueue = []) :
    (lockPacketProcess (bmv2Conf h) l p).sent = []
      ∧ (lockPacketProcess (bmv2Conf h) l p).lock = { l with
          earlyRelease := Function.update l.earlyRelease p.holder true
          isAgent := false
          mode := .free
          ncnt := 0 } := by
  have hcode : lockPacketProcess (bmv2Conf h) l p = processRelease (bmv2Conf h) l p := by
    rw [lockPacketProcess, ht]
  rw [hcode]
  simp [processRelease, hr, lockHasHolder, hh, hw, releaseHandOver, lockNoHolders, lockNoWaiters,
    lockFreeHelper]

end Host

/-! ## The packets of a task -/

section OfTask

variable {l l' : List (LockHdr × CallId)} {gaps : List ((TaskId × Gap) × CallId)}

lemma ofTask_append : ofTask (l ++ l') t = ofTask l t ++ ofTask l' t := List.filter_append ..

lemma ofTask_cons : ofTask (x :: l) t = (if x.1.taskId = t then [x] else []) ++ ofTask l t := by
  by_cases hx : x.1.taskId = t <;> simp [ofTask, hx]

/-- A task without a gap is not about to send anything. -/
lemma ofTask_gaps (hgaps : ∀ g ∈ gaps, ∃ p c, g = ((p.taskId, .send p), c))
    (hnone : ∀ g ∈ gaps, g.1.1 ≠ t) : ofTask (gaps.filterMap sendOf) t = [] := by
  refine List.filter_eq_nil_iff.2 fun x hx hxt => ?_
  obtain ⟨g, hg, hgx⟩ := List.mem_filterMap.1 hx
  obtain ⟨q, c', rfl⟩ := hgaps g hg
  cases hgx
  exact hnone _ hg (of_decide_eq_true hxt)

/-- When a thread sends its packet, the packets of every task stay in order: the task has one gap at
most. -/
lemma ofTask_resume (hgaps : ∀ g ∈ s.gaps, ∃ p c, g = ((p.taskId, .send p), c))
    (hone : (s.gaps.map fun g => g.1.1).Nodup) {a b : List ((TaskId × Gap) × CallId)}
    {p : LockHdr} {c : CallId} {u : TaskId} (hg : s.gaps = a ++ ((u, .send p), c) :: b) (t : TaskId) :
    ofTask (State.flight { s with gaps := a ++ b, up := s.up ++ [(p, c)] }) t = ofTask s.flight t := by
  have hpu : p.taskId = u := by
    obtain ⟨q, c', heq⟩ := hgaps ((u, .send p), c) (by simp [hg])
    obtain ⟨⟨h1, h2⟩, -⟩ : (u = q.taskId ∧ p = q) ∧ c = c' := by simpa using heq
    rw [h1, h2]
  rw [hg, List.map_append, List.map_cons, List.nodup_append] at hone
  have hflight : State.flight { s with gaps := a ++ b, up := s.up ++ [(p, c)] }
      = s.down ++ (s.up ++ [(p, c)]) ++ (a ++ b).filterMap sendOf := rfl
  rw [hflight, State.flight, hg]
  simp only [List.filterMap_append, List.filterMap_cons, sendOf, ofTask_append, ofTask_cons,
    List.append_assoc]
  by_cases hpt : p.taskId = t
  · have hnone : ofTask (a.filterMap sendOf) t = [] := by
      refine ofTask_gaps (fun g hgm => hgaps g (hg ▸ List.mem_append_left _ hgm)) fun g hgm hgt => ?_
      refine hone.2.2 _ (List.mem_map_of_mem hgm) _ List.mem_cons_self ?_
      exact hgt.trans (hpt.symm.trans hpu)
    rw [hnone]
    simp [ofTask]
  · rw [if_neg hpt]
    simp [ofTask]

lemma word_append : word (l ++ l') t = word l t ++ word l' t := by
  rw [word, ofTask_append, List.map_append]
  rfl

lemma word_cons : word (x :: l) t = (if x.1.taskId = t then [x.1.type] else []) ++ word l t := by
  rw [word, ofTask_cons, List.map_append]
  split <;> rfl

end OfTask

/-! ## Below `SWITCH_LOCK_NUM` -/

section Unserved

variable (hu : Unserved h lid s)

include hu in
/-- A task asks or gives up: its turn is over, and a packet is to be sent. -/
lemma Unserved.push (hready : s.ready t = true) {p : LockHdr} {c : CallId} {st : ClientState}
    {L : Finset TaskId} {calls : TaskId → ℕ} (hp : p.taskId = t)
    (hpacket : p.id = lid ∧ p.machineId = h ∧ p.agent = h ∧ (p.type = .acquire → p.mode = LOCK_EXCL))
    (hk : p.type = turnKind (decide (s.task t = .idle)))
    (hst : st ≠ .holding ∧ decide (st = .idle) = !decide (s.task t = .idle)) :
    Unserved h lid { s with
      lock := { s.lock with localHolders := L }
      gaps := ((t, .send p), c) :: s.gaps
      task := Function.update s.task t st
      calls := calls } := by
  have hnone : ∀ g ∈ s.gaps, g.1.1 ≠ t := fun g hg =>
    of_decide_eq_true (List.all_eq_true.1 hready g hg)
  refine ⟨⟨hu.holders, hu.wqueue, hu.flags, hu.wqCalls, hu.returns⟩, hu.id, hu.agent, fun t' => ?_,
    fun x hx => ?_, fun g hg => ?_, ?_, hu.count, fun t' => ?_⟩
  · by_cases htt : t' = t
    · subst htt
      simpa using hst.1
    · simpa [htt] using hu.task t'
  · rcases mem_flight.1 hx with hx | ⟨t', hx⟩
    · exact hu.packets x (mem_flight.2 (.inl hx))
    · rcases List.mem_cons.1 hx with heq | hx
      · obtain ⟨⟨-, hxp⟩, -⟩ := by simpa using heq
        rw [hxp]
        exact hpacket
      · exact hu.packets x (mem_flight.2 (.inr ⟨t', hx⟩))
  · rcases List.mem_cons.1 hg with rfl | hg
    · exact ⟨p, c, by rw [hp]⟩
    · exact hu.gaps g hg
  · refine List.nodup_cons.2 ⟨fun hm => ?_, hu.oneGap⟩
    obtain ⟨g, hg, hgt⟩ := List.mem_map.1 hm
    exact hnone g hg hgt
  · show Turns (expects s.lock (h, t'))
      (word (s.down ++ s.up ++ (p, c) :: s.gaps.filterMap sendOf) t')
      (decide (Function.update s.task t st t' = .idle))
    have hturns := hu.turns t'
    rw [State.flight, word_append] at hturns
    rw [word_append, word_cons]
    by_cases htt : t' = t
    · subst htt
      have hnil : word (s.gaps.filterMap sendOf) t' = [] :=
        List.map_eq_nil_iff.2 (ofTask_gaps hu.gaps hnone)
      rw [hnil, List.append_nil] at hturns ⊢
      rw [if_pos hp, Function.update_self, hk, hst.2]
      exact hturns.append
    · rw [if_neg (fun heq => htt (heq.symm.trans hp)), List.nil_append, Function.update_of_ne htt]
      exact hturns

include hu in
/-- A thread sends its packet. -/
lemma Unserved.resume_send {a b : List ((TaskId × Gap) × CallId)} {p : LockHdr} {c : CallId}
    (hg : s.gaps = a ++ ((t, .send p), c) :: b) :
    Unserved h lid { s with gaps := a ++ b, up := s.up ++ [(p, c)] } := by
  have hmem : ((t, Gap.send p), c) ∈ s.gaps := by simp [hg]
  have hsub : ∀ g ∈ a ++ b, g ∈ s.gaps := by
    intro g hgm
    rw [hg]
    rcases List.mem_append.1 hgm with hgm | hgm <;> simp [hgm]
  refine ⟨⟨hu.holders, hu.wqueue, hu.flags, hu.wqCalls, hu.returns⟩, hu.id, hu.agent, hu.task,
    fun x hx => ?_, fun g hgm => hu.gaps g (hsub g hgm), ?_, hu.count, fun t' => ?_⟩
  · rcases mem_flight.1 hx with (hx | hx) | ⟨t', hx⟩
    · exact hu.packets x (mem_flight.2 (.inl (.inl hx)))
    · rcases List.mem_append.1 hx with hx | hx
      · exact hu.packets x (mem_flight.2 (.inl (.inr hx)))
      · rw [List.mem_singleton.1 hx]
        exact hu.packets (p, c) (mem_flight.2 (.inr ⟨t, hmem⟩))
    · exact hu.packets x (mem_flight.2 (.inr ⟨t', hsub _ hx⟩))
  · have hsl : (a ++ b).Sublist s.gaps := hg ▸ (List.sublist_cons_self _ b).append_left a
    exact (hsl.map _).nodup hu.oneGap
  · show Turns (expects s.lock (h, t'))
      (word (State.flight { s with gaps := a ++ b, up := s.up ++ [(p, c)] }) t')
      (decide (s.task t' = .idle))
    rw [word, ofTask_resume hu.gaps hu.oneGap hg]
    exact hu.turns t'

include hu in
/-- A packet passes the switch, which sends it back. -/
lemma Unserved.switch (hlid : ¬ lid.toNat < 1024) (hup : s.up = x :: rest) :
    Unserved h lid { s with
      cell := (exchange h s.cell x.1).1
      up := rest
      down := s.down ++ (exchange h s.cell x.1).2.map fun p => (p, x.2) } := by
  have hx : x ∈ s.flight := mem_flight.2 (.inl (.inr (hup ▸ List.mem_cons_self)))
  obtain ⟨hid, hmid, hag, -⟩ := hu.packets x hx
  have hport : (if x.1.agent = 0 then x.1.machineId else x.1.agent) = h := by
    rw [hmid, hag, ite_self]
  rw [exchange_outOfRange (by rwa [hid]), hport, if_pos (reads_portOf h)]
  have hflight : State.flight { s with
      up := rest, down := s.down ++ [x.1].map fun p => (p, x.2) } = s.flight := by
    simp [State.flight, hup]
  refine ⟨⟨hu.holders, hu.wqueue, hu.flags, hu.wqCalls, hu.returns⟩, hu.id, hu.agent, hu.task, ?_,
    hu.gaps, hu.oneGap, hu.count, ?_⟩
  · show ∀ y ∈ State.flight { s with up := rest, down := s.down ++ [x.1].map fun p => (p, x.2) }, _
    rw [hflight]
    exact hu.packets
  · intro t'
    show Turns (expects s.lock (h, t')) (word (State.flight { s with
      up := rest, down := s.down ++ [x.1].map fun p => (p, x.2) }) t') (decide (s.task t' = .idle))
    rw [hflight]
    exact hu.turns t'

include hu in
/-- A packet arrives, and it is the turn of the other kind. -/
lemma Unserved.receive_of (hdown : s.down = x :: rest) {l : InnetLock}
    (hl : l.id = lid ∧ l.isAgent = false ∧ l.holders = ∅ ∧ l.wqueue = []
      ∧ l.taskGranted = s.lock.taskGranted)
    (hother : ∀ t, t ≠ x.1.taskId → l.earlyRelease (h, t) = s.lock.earlyRelease (h, t)
      ∧ l.fwdBackCnt (h, t) = s.lock.fwdBackCnt (h, t))
    (hcount : l.fwdBackCnt (h, x.1.taskId) = 1)
    (hself : expects l (h, x.1.taskId) = !expects s.lock (h, x.1.taskId)) :
    Unserved h lid { s with lock := l, down := rest } := by
  obtain ⟨hid, hag, hh, hw, hf⟩ := hl
  refine ⟨⟨hh, hw, fun t => ?_, hu.wqCalls, hu.returns⟩, hid, hag, hu.task, fun y hy => ?_, hu.gaps,
    hu.oneGap, fun t => ?_, fun t => ?_⟩
  · show l.taskGranted t = false
    rw [hf]
    exact hu.flags t
  · refine hu.packets y (mem_flight.2 ((mem_flight.1 hy).imp_left fun hy => hy.imp_left fun hy => ?_))
    exact hdown ▸ List.mem_cons_of_mem _ hy
  · by_cases htt : t = x.1.taskId
    · rw [htt]
      exact ⟨hcount.le, fun _ => hcount⟩
    · obtain ⟨he, hc⟩ := hother t htt
      show l.fwdBackCnt (h, t) ≤ 1 ∧ (l.earlyRelease (h, t) = true → l.fwdBackCnt (h, t) = 1)
      rw [he, hc]
      exact hu.count t
  · have hturns := hu.turns t
    rw [State.flight, hdown, List.cons_append, List.cons_append, word_cons] at hturns
    show Turns (expects l (h, t)) (word (rest ++ s.up ++ s.gaps.filterMap sendOf) t)
      (decide (s.task t = .idle))
    by_cases htt : x.1.taskId = t
    · subst htt
      rw [if_pos rfl] at hturns
      rw [hself]
      exact hturns.2
    · rw [if_neg htt, List.nil_append] at hturns
      obtain ⟨he, hc⟩ := hother t (Ne.symm htt)
      rw [expects, he, hc]
      exact hturns

include hu in
lemma Unserved.receive (hlid : lid.toNat < SWITCH_LOCK_NUM) (hdown : s.down = x :: rest) :
    Unserved h lid (receiveStep h s x rest) := by
  have hr : lockOutOfRange s.lock = false := by
    rw [lockOutOfRange, hu.id]
    exact decide_eq_false (by omega)
  have hx : x ∈ s.flight := mem_flight.2 (.inl (.inl (hdown ▸ List.mem_cons_self)))
  obtain ⟨-, hmid, -, hmode⟩ := hu.packets x hx
  have hholder : x.1.holder = (h, x.1.taskId) := by rw [← hmid]; rfl
  have hcount := hu.count x.1.taskId
  have hturn : x.1.type = turnKind (expects s.lock (h, x.1.taskId)) := by
    have hturns := hu.turns x.1.taskId
    rw [State.flight, hdown, List.cons_append, List.cons_append, word_cons, if_pos rfl] at hturns
    exact hturns.1
  have hne : ∀ {t : TaskId}, t ≠ x.1.taskId → (h, t) ≠ (h, x.1.taskId) := fun hn heq =>
    hn (congrArg Prod.snd heq)
  cases hexp : expects s.lock (h, x.1.taskId) with
  | true =>
      have ha : x.1.type = .acquire := by rw [hturn, hexp]; rfl
      have hng : x.1.type ≠ .grantWithAgent := by rw [ha]; decide
      have hzero : s.lock.earlyRelease x.1.holder = false → s.lock.fwdBackCnt x.1.holder = 0 := by
        intro he
        rw [hholder] at he ⊢
        rw [expects, he, Bool.false_or] at hexp
        exact of_decide_eq_true hexp
      obtain ⟨hsent, hlock⟩ := receive_unserved_request (h := h) hr hu.agent ha (hmode ha) hzero
      rw [hholder] at hlock hzero
      cases he : s.lock.earlyRelease (h, x.1.taskId) with
      | true =>
          rw [if_pos he] at hlock
          rw [receiveStep_keep hng hsent hlock rfl (Finset.Subset.refl _)]
          have hone := hcount.2 he
          refine hu.receive_of hdown ⟨hu.id, hu.agent, hu.holders, hu.wqueue, rfl⟩
            (fun t ht => ⟨Function.update_of_ne (hne ht) _ _, rfl⟩) hone ?_
          simp [expects, he, hone]
      | false =>
          rw [if_neg (by rw [he]; decide)] at hlock
          rw [receiveStep_keep hng hsent hlock rfl (Finset.Subset.refl _)]
          refine hu.receive_of hdown ⟨hu.id, hu.agent, hu.holders, hu.wqueue, rfl⟩
            (fun t ht => ⟨rfl, Function.update_of_ne (hne ht) _ _⟩) (Function.update_self ..) ?_
          simp [expects, he, hzero he]
  | false =>
      have hrel : x.1.type = .release := by rw [hturn, hexp]; rfl
      have hng : x.1.type ≠ .grantWithAgent := by rw [hrel]; decide
      obtain ⟨hsent, hlock⟩ := receive_unserved_release (h := h) hr hrel hu.holders hu.wqueue
      rw [hholder] at hlock
      rw [receiveStep_keep hng hsent hlock rfl (Finset.Subset.refl _)]
      simp only [expects, Bool.or_eq_false_iff, decide_eq_false_iff_not] at hexp
      have hone : s.lock.fwdBackCnt (h, x.1.taskId) = 1 := by
        have := hcount.1
        omega
      refine hu.receive_of hdown ⟨hu.id, rfl, hu.holders, hu.wqueue, rfl⟩
        (fun t ht => ⟨Function.update_of_ne (hne ht) _ _, rfl⟩) hone ?_
      simp [expects, hexp.1, hone]

include hu in
/-- A task asks. -/
lemma Unserved.acquire (hlid : lid.toNat < SWITCH_LOCK_NUM) (ht : s.task t = .idle)
    (hready : s.ready t = true) : Unserved h lid (acquireStep h s t) := by
  have hr : lockOutOfRange s.lock = false := by
    rw [lockOutOfRange, hu.id]
    exact decide_eq_false (by omega)
  rcases lockAcquireAsync_excl (h := h) (t := t) hr with ⟨hag | hh, -⟩ | hcode
  · rw [hu.agent] at hag
    cases hag
  · exact absurd hu.holders hh
  · have hstep : acquireStep h s t = { s with
        lock := { s.lock with localHolders := s.lock.localHolders }
        gaps := ((t, .send (sendPostAcquire (bmv2Conf h) .excl s.lock.id h t)), (t, s.calls t + 1))
          :: s.gaps
        task := Function.update s.task t .waiting
        calls := Function.update s.calls t (s.calls t + 1) } := by
      simp [acquireStep, hcode, State.pushGaps, gapsOf, State.current]
    rw [hstep]
    refine hu.push hready rfl ⟨hu.id, rfl, rfl, fun _ => rfl⟩ ?_ ?_
    · rw [ht]
      rfl
    · rw [ht]
      decide

include hu in
/-- A task gives up. -/
lemma Unserved.timeout (hlid : lid.toNat < SWITCH_LOCK_NUM) (ht : s.task t = .waiting)
    (hready : s.ready t = true) : Unserved h lid ((releaseStep h s t).answer h t false) := by
  have hr : lockOutOfRange s.lock = false := by
    rw [lockOutOfRange, hu.id]
    exact decide_eq_false (by omega)
  have hcode : lockRelease (bmv2Conf h) s.lock t = _ := lockRelease_foreign hr hu.agent
  have hstep : releaseStep h s t = { s with
      lock := { s.lock with localHolders := s.lock.localHolders.erase t }
      gaps := ((t, .send (sendPostRelease (bmv2Conf h) s.lock.id h t)), s.current t) :: s.gaps
      task := Function.update s.task t .idle
      calls := s.calls } := by
    simp [releaseStep, hcode, State.pushGaps, gapsOf, State.current]
  have hpush : Unserved h lid { s with
      lock := { s.lock with localHolders := s.lock.localHolders.erase t }
      gaps := ((t, .send (sendPostRelease (bmv2Conf h) s.lock.id h t)), s.current t) :: s.gaps
      task := Function.update s.task t .idle
      calls := s.calls } := by
    refine hu.push hready rfl ⟨hu.id, rfl, rfl, by rintro ⟨⟩⟩ ?_ ?_
    · rw [ht]
      rfl
    · rw [ht]
      decide
  rw [← hstep] at hpush
  exact ⟨hpush.toQuiet.answer, hpush.id, hpush.agent, hpush.task, hpush.packets, hpush.gaps,
    hpush.oneGap, hpush.count, hpush.turns⟩

end Unserved

lemma unserved_init (h : HostId) (lid : LockId) : Unserved h lid (State.init lid) where
  holders := rfl
  wqueue := rfl
  flags _ := rfl
  wqCalls := rfl
  returns := by simp [State.init]
  id := rfl
  agent := rfl
  task _ := nofun
  packets := by simp [State.init, State.flight]
  gaps := by simp [State.init]
  oneGap := List.nodup_nil
  count _ := ⟨Nat.zero_le 1, nofun⟩
  turns _ := rfl

theorem unserved_step (hlid : ¬ lid.toNat < 1024) (hlid' : lid.toNat < SWITCH_LOCK_NUM)
    (hu : Unserved h lid s) (hs : step h s e = some s') : Unserved h lid s' := by
  rcases step_cases hs with ⟨t, -, ht, hready, rfl⟩ | ⟨t, -, hf, -⟩ | ⟨t, -, ht, hready, rfl⟩ |
    ⟨t, ht, -⟩ | ⟨a, b, t, p, c, hg, rfl⟩ | ⟨a, b, t, t', c, hg, -⟩ | ⟨x, rest, hup, rfl⟩ |
    ⟨x, rest, -, hdown, rfl⟩
  · exact hu.acquire hlid' ht hready
  · rw [hu.flags t] at hf
    cases hf
  · exact hu.timeout hlid' ht hready
  · exact absurd ht (hu.task t)
  · exact hu.resume_send hg
  · obtain ⟨p, c', heq⟩ := hu.gaps ((t, .notify t'), c) (by simp [hg])
    simp at heq
  · exact hu.switch hlid hup
  · exact hu.receive hlid' hdown

/-! ## From `SWITCH_LOCK_NUM` on, if another host is the manager -/

/-- The numbers from `first` to `last`, in order. -/
structure Consecutive (first last : ℕ) (w : List ℕ) : Prop where
  eq : w = List.range' first (last + 1 - first)
  le : first ≤ last + 1

section Consecutive

variable {first last n : ℕ} {w : List ℕ}

lemma Consecutive.append (hw : Consecutive first last w) :
    Consecutive first (last + 1) (w ++ [last + 1]) := by
  have hlen : last + 1 + 1 - first = (last + 1 - first) + 1 := by
    have := hw.le
    omega
  have hend : first + (last + 1 - first) = last + 1 := by
    have := hw.le
    omega
  refine ⟨?_, hw.le.trans (Nat.le_succ _)⟩
  rw [hlen, List.range'_concat, hw.eq, Nat.one_mul, hend]

lemma Consecutive.tail (hw : Consecutive first last (n :: w)) :
    n = first ∧ Consecutive (first + 1) last w := by
  have heq := hw.eq
  have hpos : 0 < last + 1 - first := by
    by_contra hzero
    rw [Nat.eq_zero_of_not_pos hzero] at heq
    cases heq
  obtain ⟨k, hk⟩ := Nat.exists_eq_add_of_lt hpos
  have hk' : last + 1 - first = k + 1 := by omega
  rw [hk', List.range'_succ, List.cons.injEq] at heq
  refine ⟨heq.1, ?_, by omega⟩
  rw [heq.2]
  congr 1
  omega

lemma Consecutive.mem (hw : Consecutive first last w) (h1 : first ≤ n) (h2 : n ≤ last) : n ∈ w := by
  rw [hw.eq, List.mem_range'_1]
  omega

end Consecutive

/-- The number of a packet among those of its task: the request of call `n` is number `2 * n`, and
the release behind it the next one. -/
def slot (x : LockHdr × CallId) : ℕ := 2 * x.2.2 + if x.1.type = .release then 1 else 0

/-- The number of the last packet that the task has left to send, or has sent. -/
def State.lastSlot (s : State) (t : TaskId) : ℕ := 2 * s.calls t + if s.task t = .idle then 1 else 0

/-- A request or a release of a task of this host, for the manager. -/
structure ForManager (h : HostId) (l : InnetLock) (x : LockHdr × CallId) : Prop where
  id : x.1.id = l.id
  machineId : x.1.machineId = h
  agent : x.1.agent = lockToLm l
  kind : x.1.type = .acquire ∧ x.1.mode = LOCK_EXCL ∨ x.1.type = .release
  call : x.2.1 = x.1.taskId

/-- The invariant: a task is a holder exactly while its `RELEASE` is due. -/
structure Elsewhere (h : HostId) (lid : LockId) (s : State) : Prop where
  id : s.lock.id = lid
  manager : lockToLm s.lock ≠ h
  wqueue : s.lock.wqueue = []
  flags : ∀ t, s.lock.taskGranted t = false
  wqCalls : s.wqCalls = []
  free : s.lock.mode = .free → s.lock.holders = ∅
  task : ∀ t, s.task t ≠ .holding
  past : ∀ r ∈ s.returns, r.result = false ∧ r.call.2 ≤ s.calls r.call.1
  failed : ∀ t, s.Failed (s.current t) → s.task t = .idle
  packets : ∀ x ∈ s.flight, ForManager h s.lock x
  gaps : ∀ g ∈ s.gaps, ∃ p c, g = ((p.taskId, .send p), c)
  oneGap : (s.gaps.map fun g => g.1.1).Nodup
  /-- Nobody becomes a holder if the host does not read what is sent to the manager. -/
  unread : reads h (Bmv2.portOf (lockToLm s.lock)) = false → s.down = [] ∧ s.lock.holders = ∅
  slots : ∀ t, ∃ first, Consecutive first (s.lastSlot t) ((ofTask s.flight t).map slot)
    ∧ ((h, t) ∈ s.lock.holders → first = 2 * (s.holderCall t).2 + 1 ∧ (s.holderCall t).1 = t)

section Elsewhere

variable {l : InnetLock} {p : LockHdr}

/-- The manager of a lock is not host 0. -/
lemma lockToLm_ne_zero (l : InnetLock) : lockToLm l ≠ 0 := by
  intro hzero
  have hn : (l.id.toNat % 8 + 1) % 2 ^ 8 = 0 := congrArg BitVec.toNat hzero
  omega

/-- A step that keeps the id of the lock keeps its packets. -/
lemma ForManager.congr {l' : InnetLock} (hx : ForManager h l x) (hid : l'.id = l.id) :
    ForManager h l' x where
  id := hx.id.trans hid.symm
  machineId := hx.machineId
  agent := by rw [hx.agent, lockToLm, lockToLm, hid]
  kind := hx.kind
  call := hx.call

/-- `lock_release` for a manager elsewhere. -/
lemma lockRelease_elsewhere (hr : lockOutOfRange l = true) (hlm : lockToLm l ≠ h) :
    lockRelease (bmv2Conf h) l t
      = { lock := { l with localHolders := l.localHolders.erase t }
          sent := [sendPostReleaseLm l.id h t (lockToLm l)] } := by
  have hr' : lockOutOfRange { l with localHolders := l.localHolders.erase t } = true := hr
  have hlm' : ¬ lockToLm { l with localHolders := l.localHolders.erase t }
      = (bmv2Conf h).localhostId := hlm
  rw [lockRelease, if_pos hr', if_neg hlm']
  rfl

/-- `lock_acquire_async` for a manager elsewhere. -/
lemma lockAcquireAsync_elsewhere (hr : lockOutOfRange l = true) (hlm : lockToLm l ≠ h) :
    lockAcquireAsync (bmv2Conf h) l t .excl
      = ({ lock := l, sent := [sendPostAcquireLm (bmv2Conf h) .excl l.id (lockToLm l) t] }, .flag t) := by
  have hlm' : ¬ lockToLm l = (bmv2Conf h).localhostId := hlm
  rw [lockAcquireAsync, if_neg (by decide), if_pos hr, if_neg hlm']
  rfl

/-- The host reads a request for a manager elsewhere, and the lock is free. -/
lemma receive_elsewhere_request (hr : lockOutOfRange l = true) (ha : p.type = .acquire)
    (hm : p.mode = LOCK_EXCL) (hf : l.mode = .free) :
    (lockPacketProcess (bmv2Conf h) l p).sent = []
      ∧ (lockPacketProcess (bmv2Conf h) l p).lock
        = lockAddHolder { l with mode := .excl } p.holder := by
  obtain ⟨hsent, hlock⟩ := receive_acquire_outOfRange (h := h) hr ha
  have hms : p.modeState = .excl := by rw [LockHdr.modeState, hm]; rfl
  refine ⟨hsent, hlock.trans ?_⟩
  rw [handleAcquireLm, if_pos hf, hms]
  rfl

/-- The host reads a release for a manager elsewhere, and nobody waits. -/
lemma receive_elsewhere_release (hr : lockOutOfRange l = true) (ht : p.type = .release)
    (hw : l.wqueue = []) :
    (lockPacketProcess (bmv2Conf h) l p).sent = []
      ∧ (lockPacketProcess (bmv2Conf h) l p).lock = { l with
          holders := l.holders.erase p.holder
          mode := if l.holders.erase p.holder = ∅ then .free else l.mode } := by
  have hcode : lockPacketProcess (bmv2Conf h) l p = processRelease (bmv2Conf h) l p := by
    rw [lockPacketProcess, ht]
  have hholder : (p.machineId, p.taskId) = p.holder := rfl
  rw [hcode]
  simp only [processRelease, if_pos hr, handleReleaseLm, lockNoHolders, lockRemoveHolder, hw,
    decide_eq_true_eq, hholder]
  split <;> exact ⟨rfl, rfl⟩

lemma Elsewhere.outOfRange (hi : Elsewhere h lid s) (hlid : SWITCH_LOCK_NUM ≤ lid.toNat) :
    lockOutOfRange s.lock = true := by
  rw [lockOutOfRange, hi.id]
  exact decide_eq_true hlid

/-- A call that has begun after all others is not over. -/
lemma Elsewhere.not_failed_next (hi : Elsewhere h lid s) : ¬ s.Failed (t, s.calls t + 1) := by
  rintro ⟨r, hr, hcall, -⟩
  have hle := (hi.past r hr).2
  rw [hcall] at hle
  exact Nat.not_succ_le_self _ hle

/-- The packet of a task that sends comes behind its others. -/
lemma Elsewhere.slots_push_self (hi : Elsewhere h lid s) {p : LockHdr} {c : CallId} {first : ℕ}
    (hnone : ∀ g ∈ s.gaps, g.1.1 ≠ t) (hpt : p.taskId = t) (hslot : slot (p, c) = s.lastSlot t + 1)
    (hslots : Consecutive first (s.lastSlot t) ((ofTask s.flight t).map slot)) :
    Consecutive first (slot (p, c))
      ((ofTask (State.flight { s with gaps := ((t, .send p), c) :: s.gaps }) t).map slot) := by
  show Consecutive first (slot (p, c))
    ((ofTask (s.down ++ s.up ++ (p, c) :: s.gaps.filterMap sendOf) t).map slot)
  rw [State.flight, ofTask_append, ofTask_gaps hi.gaps hnone, List.append_nil] at hslots
  rw [ofTask_append, ofTask_cons, ofTask_gaps hi.gaps hnone, if_pos hpt, List.append_nil,
    List.map_append, List.map_singleton, hslot]
  exact hslots.append

/-- The packets of the other tasks stay as they are. -/
lemma slots_push_other {p : LockHdr} {c : CallId} {first last : ℕ} (hpt : ¬ p.taskId = t)
    (hslots : Consecutive first last ((ofTask s.flight t).map slot)) {u : TaskId} :
    Consecutive first last
      ((ofTask (State.flight { s with gaps := ((u, .send p), c) :: s.gaps }) t).map slot) := by
  show Consecutive first last
    ((ofTask (s.down ++ s.up ++ (p, c) :: s.gaps.filterMap sendOf) t).map slot)
  rw [State.flight, ofTask_append] at hslots
  rw [ofTask_append, ofTask_cons, if_neg hpt]
  exact hslots

/-- The task has the next packet to send. -/
lemma Elsewhere.push (hi : Elsewhere h lid s) (hready : s.ready t = true) {p : LockHdr} {c : CallId}
    {st : ClientState} {L : Finset TaskId} {calls : TaskId → ℕ} (hp : ForManager h s.lock (p, c))
    (hpt : p.taskId = t) (hslot : slot (p, c) = s.lastSlot t + 1)
    (hlast : 2 * calls t + (if st = .idle then 1 else 0) = s.lastSlot t + 1) (hst : st ≠ .holding)
    (hcalls : ∀ t', s.calls t' ≤ calls t') (hother : ∀ t', t' ≠ t → calls t' = s.calls t')
    (hover : s.Failed (t, calls t) → st = .idle) :
    Elsewhere h lid { s with
      lock := { s.lock with localHolders := L }
      gaps := ((t, .send p), c) :: s.gaps
      task := Function.update s.task t st
      calls := calls } := by
  have hnone : ∀ g ∈ s.gaps, g.1.1 ≠ t := fun g hg =>
    of_decide_eq_true (List.all_eq_true.1 hready g hg)
  have hpackets : ∀ y ∈ s.flight, ForManager h { s.lock with localHolders := L } y :=
    fun y hy => (hi.packets y hy).congr rfl
  refine ⟨hi.id, hi.manager, hi.wqueue, hi.flags, hi.wqCalls, hi.free, fun t' => ?_,
    fun r hr => ⟨(hi.past r hr).1, (hi.past r hr).2.trans (hcalls _)⟩, fun t' hf => ?_, fun x hx => ?_,
    fun g hg => ?_, ?_, hi.unread, fun t' => ?_⟩
  · by_cases htt : t' = t
    · subst htt
      simpa using hst
    · simpa [htt] using hi.task t'
  · show Function.update s.task t st t' = .idle
    by_cases htt : t' = t
    · subst htt
      rw [Function.update_self]
      exact hover hf
    · rw [Function.update_of_ne htt]
      refine hi.failed t' ?_
      rw [State.current, ← hother t' htt]
      exact hf
  · rcases mem_flight.1 hx with hx | ⟨t', hx⟩
    · exact hpackets x (mem_flight.2 (.inl hx))
    · rcases List.mem_cons.1 hx with heq | hx
      · obtain ⟨⟨-, hxp⟩, hxc⟩ := by simpa using heq
        obtain rfl : x = (p, c) := Prod.ext hxp hxc
        exact hp.congr rfl
      · exact hpackets x (mem_flight.2 (.inr ⟨t', hx⟩))
  · rcases List.mem_cons.1 hg with rfl | hg
    · exact ⟨p, c, by rw [hpt]⟩
    · exact hi.gaps g hg
  · refine List.nodup_cons.2 ⟨fun hm => ?_, hi.oneGap⟩
    obtain ⟨g, hg, hgt⟩ := List.mem_map.1 hm
    exact hnone g hg hgt
  · obtain ⟨first, hslots, hholds⟩ := hi.slots t'
    refine ⟨first, ?_, hholds⟩
    show Consecutive first (2 * calls t' + if Function.update s.task t st t' = .idle then 1 else 0) _
    by_cases htt : t' = t
    · subst htt
      rw [Function.update_self, hlast, ← hslot]
      exact hi.slots_push_self hnone hpt hslot hslots
    · have hpt' : ¬ p.taskId = t' := fun heq => htt (heq.symm.trans hpt)
      rw [Function.update_of_ne htt, hother t' htt]
      exact slots_push_other hpt' hslots

/-- A task asks. -/
lemma Elsewhere.acquire (hi : Elsewhere h lid s) (hr : lockOutOfRange s.lock = true)
    (ht : s.task t = .idle) (hready : s.ready t = true) : Elsewhere h lid (acquireStep h s t) := by
  have hcode : lockAcquireAsync (bmv2Conf h) s.lock t .excl = _ :=
    lockAcquireAsync_elsewhere hr hi.manager
  have hstep : acquireStep h s t = { s with
      lock := { s.lock with localHolders := s.lock.localHolders }
      gaps := ((t, .send (sendPostAcquireLm (bmv2Conf h) .excl s.lock.id (lockToLm s.lock) t)),
        (t, s.calls t + 1)) :: s.gaps
      task := Function.update s.task t .waiting
      calls := Function.update s.calls t (s.calls t + 1) } := by
    simp [acquireStep, hcode, State.pushGaps, gapsOf, State.current]
  rw [hstep]
  refine hi.push hready ⟨rfl, rfl, rfl, .inl ⟨rfl, rfl⟩, rfl⟩ rfl ?_ ?_ (by decide) (fun t' => ?_)
    (fun t' htt => Function.update_of_ne htt _ _) fun hf => ?_
  · have hslot : slot (sendPostAcquireLm (bmv2Conf h) .excl s.lock.id (lockToLm s.lock) t,
        (t, s.calls t + 1)) = 2 * (s.calls t + 1) := rfl
    rw [hslot, State.lastSlot, if_pos ht]
    omega
  · rw [Function.update_self, State.lastSlot, if_pos ht, if_neg (by decide)]
    omega
  · by_cases htt : t' = t
    · subst htt
      rw [Function.update_self]
      exact Nat.le_succ _
    · rw [Function.update_of_ne htt]
  · rw [Function.update_self] at hf
    exact absurd hf hi.not_failed_next

/-- A call gives up. -/
lemma Elsewhere.timeout (hi : Elsewhere h lid s) (hr : lockOutOfRange s.lock = true)
    (ht : s.task t = .waiting) (hready : s.ready t = true) :
    Elsewhere h lid ((releaseStep h s t).answer h t false) := by
  have hcode : lockRelease (bmv2Conf h) s.lock t = _ := lockRelease_elsewhere hr hi.manager
  have hstep : releaseStep h s t = { s with
      lock := { s.lock with localHolders := s.lock.localHolders.erase t }
      gaps := ((t, .send (sendPostReleaseLm s.lock.id h t (lockToLm s.lock))), s.current t) :: s.gaps
      task := Function.update s.task t .idle
      calls := s.calls } := by
    simp [releaseStep, hcode, State.pushGaps, gapsOf, State.current]
  have hnot : ¬ s.task t = .idle := by rw [ht]; decide
  have hpush : Elsewhere h lid { s with
      lock := { s.lock with localHolders := s.lock.localHolders.erase t }
      gaps := ((t, .send (sendPostReleaseLm s.lock.id h t (lockToLm s.lock))), s.current t) :: s.gaps
      task := Function.update s.task t .idle
      calls := s.calls } := by
    refine hi.push hready ⟨rfl, rfl, rfl, .inr rfl, rfl⟩ rfl ?_ ?_ (by decide) (fun _ => le_rfl)
      (fun _ _ => rfl) fun _ => rfl
    · rw [State.lastSlot, if_neg hnot]
      rfl
    · rw [State.lastSlot, if_neg hnot]
      rfl
  rw [← hstep] at hpush
  have hcurrent : (releaseStep h s t).current t = s.current t := by rw [hstep]; rfl
  have hidle : (releaseStep h s t).task t = .idle := by rw [hstep]; exact Function.update_self ..
  refine ⟨hpush.id, hpush.manager, hpush.wqueue, hpush.flags, hpush.wqCalls, hpush.free, hpush.task,
    fun r hr => ?_, fun t' hf => ?_, hpush.packets, hpush.gaps, hpush.oneGap, hpush.unread,
    hpush.slots⟩
  · rcases List.mem_append.1 hr with hr | hr
    · exact hpush.past r hr
    · rw [List.mem_singleton.1 hr]
      exact ⟨rfl, le_rfl⟩
  · obtain ⟨r, hr, hcall, hres⟩ := hf
    rcases List.mem_append.1 hr with hr | hr
    · exact hpush.failed t' ⟨r, hr, hcall, hres⟩
    · rw [List.mem_singleton.1 hr] at hcall
      obtain rfl : t = t' := congrArg Prod.fst hcall
      exact hidle

/-- A thread sends its packet. -/
lemma Elsewhere.resume_send (hi : Elsewhere h lid s) {a b : List ((TaskId × Gap) × CallId)}
    {c : CallId} (hg : s.gaps = a ++ ((t, .send p), c) :: b) :
    Elsewhere h lid { s with gaps := a ++ b, up := s.up ++ [(p, c)] } := by
  have hsub : ∀ g ∈ a ++ b, g ∈ s.gaps := by
    intro g hgm
    rw [hg]
    rcases List.mem_append.1 hgm with hgm | hgm <;> simp [hgm]
  refine ⟨hi.id, hi.manager, hi.wqueue, hi.flags, hi.wqCalls, hi.free, hi.task, hi.past, hi.failed,
    fun x hx => ?_, fun g hgm => hi.gaps g (hsub g hgm), ?_, hi.unread, fun t' => ?_⟩
  · rcases mem_flight.1 hx with (hx | hx) | ⟨t', hx⟩
    · exact hi.packets x (mem_flight.2 (.inl (.inl hx)))
    · rcases List.mem_append.1 hx with hx | hx
      · exact hi.packets x (mem_flight.2 (.inl (.inr hx)))
      · rw [List.mem_singleton.1 hx]
        exact hi.packets (p, c) (mem_flight.2 (.inr ⟨t, by simp [hg]⟩))
    · exact hi.packets x (mem_flight.2 (.inr ⟨t', hsub _ hx⟩))
  · have hsl : (a ++ b).Sublist s.gaps := hg ▸ (List.sublist_cons_self _ b).append_left a
    exact (hsl.map _).nodup hi.oneGap
  · rw [ofTask_resume hi.gaps hi.oneGap hg]
    exact hi.slots t'

/-- A packet that is not read is gone. -/
lemma Elsewhere.drop (hi : Elsewhere h lid s) (hup : s.up = x :: rest) (hdown : s.down = [])
    (hnone : s.lock.holders = ∅) {c : Cell} :
    Elsewhere h lid { s with cell := c, up := rest } := by
  refine ⟨hi.id, hi.manager, hi.wqueue, hi.flags, hi.wqCalls, hi.free, hi.task, hi.past, hi.failed,
    fun y hy => ?_, hi.gaps, hi.oneGap, hi.unread, fun t' => ?_⟩
  · refine hi.packets y (mem_flight.2 ((mem_flight.1 hy).imp_left fun hy => hy.imp_right fun hy => ?_))
    exact hup ▸ List.mem_cons_of_mem _ hy
  · obtain ⟨first, hslots, -⟩ := hi.slots t'
    rw [State.flight, hdown, hup, List.nil_append, List.cons_append, ofTask_cons] at hslots
    have hholds : ∀ n, (h, t') ∈ s.lock.holders → n = 2 * (s.holderCall t').2 + 1
        ∧ (s.holderCall t').1 = t' := by
      intro n hm
      rw [hnone] at hm
      exact absurd hm (Finset.notMem_empty _)
    show ∃ first, Consecutive first (s.lastSlot t')
      ((ofTask (s.down ++ rest ++ s.gaps.filterMap sendOf) t').map slot) ∧ _
    rw [hdown, List.nil_append]
    by_cases hxt : x.1.taskId = t'
    · rw [if_pos hxt] at hslots
      exact ⟨_, hslots.tail.2, hholds _⟩
    · rw [if_neg hxt] at hslots
      exact ⟨_, hslots, hholds _⟩

/-- A packet leaves for the manager, and comes back if the host reads the port. -/
lemma Elsewhere.switch (hi : Elsewhere h lid s) (hlid : SWITCH_LOCK_NUM ≤ lid.toNat)
    (hup : s.up = x :: rest) :
    Elsewhere h lid { s with
      cell := (exchange h s.cell x.1).1
      up := rest
      down := s.down ++ (exchange h s.cell x.1).2.map fun p => (p, x.2) } := by
  have hx := hi.packets x (mem_flight.2 (.inl (.inr (hup ▸ List.mem_cons_self))))
  have hr : ¬ x.1.id.toNat < 1024 := by
    rw [hx.id, hi.id]
    have : 1024 ≤ SWITCH_LOCK_NUM := by decide
    omega
  have hport : (if x.1.agent = 0 then x.1.machineId else x.1.agent) = lockToLm s.lock := by
    rw [hx.agent, if_neg (lockToLm_ne_zero _)]
  rw [exchange_outOfRange hr, hport]
  cases hread : reads h (Bmv2.portOf (lockToLm s.lock)) with
  | false =>
      rw [if_neg (by decide), List.map_nil, List.append_nil]
      obtain ⟨hdown, hnone⟩ := hi.unread hread
      exact hi.drop hup hdown hnone
  | true =>
      rw [if_pos rfl]
      have hflight : State.flight { s with
          up := rest, down := s.down ++ [x.1].map fun p => (p, x.2) } = s.flight := by
        simp [State.flight, hup]
      refine ⟨hi.id, hi.manager, hi.wqueue, hi.flags, hi.wqCalls, hi.free, hi.task, hi.past, hi.failed,
        ?_, hi.gaps, hi.oneGap, fun hno => ?_, fun t' => ?_⟩
      · show ∀ y ∈ State.flight { s with up := rest, down := s.down ++ [x.1].map fun p => (p, x.2) }, _
        rw [hflight]
        exact hi.packets
      · exact absurd (hread.symm.trans hno) (by decide)
      · show ∃ first, Consecutive first (s.lastSlot t') ((ofTask (State.flight { s with
          up := rest, down := s.down ++ [x.1].map fun p => (p, x.2) }) t').map slot) ∧ _
        rw [hflight]
        exact hi.slots t'

/-- The first packet of a task, and what comes behind it. -/
lemma Elsewhere.slots_down (hi : Elsewhere h lid s) (hdown : s.down = x :: rest) (t : TaskId) :
    ∃ first, Consecutive first (s.lastSlot t)
        ((ofTask (State.flight { s with down := rest }) t).map slot)
      ∧ (x.1.taskId = t → first = slot x + 1)
      ∧ (x.1.taskId ≠ t → (h, t) ∈ s.lock.holders →
        first = 2 * (s.holderCall t).2 + 1 ∧ (s.holderCall t).1 = t) := by
  obtain ⟨first, hslots, hholds⟩ := hi.slots t
  rw [State.flight, hdown, List.cons_append, List.cons_append, ofTask_cons] at hslots
  by_cases hxt : x.1.taskId = t
  · rw [if_pos hxt] at hslots
    obtain ⟨hfirst, hrest⟩ := hslots.tail
    exact ⟨_, hrest, fun _ => by rw [hfirst], fun hne => absurd hxt hne⟩
  · rw [if_neg hxt] at hslots
    exact ⟨_, hslots, fun heq => absurd heq hxt, fun _ => hholds⟩

/-- What is left when the host has read a packet was on its way before. -/
lemma mem_flight_down (hdown : s.down = x :: rest) {y : LockHdr × CallId}
    (hy : y ∈ State.flight { s with down := rest }) : y ∈ s.flight :=
  mem_flight.2 ((mem_flight.1 hy).imp_left fun hy => hy.imp_left fun hy =>
    hdown ▸ List.mem_cons_of_mem _ hy)

/-- The host reads the port only if it is a port that it reads. -/
lemma Elsewhere.reads (hi : Elsewhere h lid s) (hdown : s.down = x :: rest) :
    ¬ OneHost.reads h (Bmv2.portOf (lockToLm s.lock)) = false := by
  intro hno
  have hnil := (hi.unread hno).1
  rw [hdown] at hnil
  cases hnil

/-- The host reads a request: the lock is free, and the task becomes the holder. -/
lemma Elsewhere.receive_request (hi : Elsewhere h lid s) (hr : lockOutOfRange s.lock = true)
    (hdown : s.down = x :: rest) (hx : ForManager h s.lock x) (ha : x.1.type = .acquire)
    (hm : x.1.mode = LOCK_EXCL) (hfree : s.lock.mode = .free) :
    Elsewhere h lid (receiveStep h s x rest) := by
  have hholder : x.1.holder = (h, x.1.taskId) := by rw [← hx.machineId]; rfl
  obtain ⟨hsent, hlock⟩ := receive_elsewhere_request (h := h) hr ha hm hfree
  have hempty := hi.free hfree
  have hstep : receiveStep h s x rest = { s with
      lock := lockAddHolder { s.lock with mode := .excl } (h, x.1.taskId)
      down := rest
      holderCall := Function.update s.holderCall x.1.taskId x.2 } := by
    simp [receiveStep, hsent, hlock, wqCallsAfter, lockAddHolder, hholder, hempty]
  rw [hstep]
  refine ⟨hi.id, hi.manager, hi.wqueue, hi.flags, hi.wqCalls, fun hf => ?_, hi.task, hi.past,
    hi.failed, fun y hy => (hi.packets y (mem_flight_down hdown hy)).congr rfl, hi.gaps, hi.oneGap,
    fun hno => absurd hno (hi.reads hdown), fun t => ?_⟩
  · have hf' : LockState.excl = .free := hf
    cases hf'
  · obtain ⟨first, hslots, hself, -⟩ := hi.slots_down hdown t
    refine ⟨first, hslots, fun hm => ?_⟩
    have ht : t = x.1.taskId := by
      have hm' : (h, t) ∈ insert (h, x.1.taskId) s.lock.holders := hm
      rw [hempty] at hm'
      exact congrArg Prod.snd (Finset.mem_singleton.1 hm')
    subst ht
    have hslot : slot x = 2 * x.2.2 := by
      rw [slot, ha]
      rfl
    have hcall : Function.update s.holderCall x.1.taskId x.2 x.1.taskId = x.2 :=
      Function.update_self ..
    show first = 2 * (Function.update s.holderCall x.1.taskId x.2 x.1.taskId).2 + 1
      ∧ (Function.update s.holderCall x.1.taskId x.2 x.1.taskId).1 = x.1.taskId
    rw [hself rfl, hslot, hcall]
    exact ⟨rfl, hx.call⟩

/-- The host reads a release: the task is no holder any more. -/
lemma Elsewhere.receive_release (hi : Elsewhere h lid s) (hr : lockOutOfRange s.lock = true)
    (hdown : s.down = x :: rest) (hx : ForManager h s.lock x) (hrel : x.1.type = .release) :
    Elsewhere h lid (receiveStep h s x rest) := by
  have hholder : x.1.holder = (h, x.1.taskId) := by rw [← hx.machineId]; rfl
  obtain ⟨hsent, hlock⟩ := receive_elsewhere_release (h := h) hr hrel hi.wqueue
  have hng : x.1.type ≠ .grantWithAgent := by rw [hrel]; decide
  rw [receiveStep_keep hng hsent hlock rfl (Finset.erase_subset _ _), hholder]
  refine ⟨hi.id, hi.manager, hi.wqueue, hi.flags, hi.wqCalls, fun hf => ?_, hi.task, hi.past,
    hi.failed, fun y hy => (hi.packets y (mem_flight_down hdown hy)).congr rfl, hi.gaps, hi.oneGap,
    fun hno => absurd hno (hi.reads hdown), fun t => ?_⟩
  · show s.lock.holders.erase (h, x.1.taskId) = ∅
    by_contra hne
    have hf' : (if s.lock.holders.erase (h, x.1.taskId) = ∅ then LockState.free else s.lock.mode)
        = .free := hf
    rw [if_neg hne] at hf'
    rw [hi.free hf'] at hne
    exact hne (Finset.erase_empty _)
  · obtain ⟨first, hslots, -, hother⟩ := hi.slots_down hdown t
    refine ⟨first, hslots, fun hm => ?_⟩
    obtain ⟨hne, hm⟩ := Finset.mem_erase.1 hm
    exact hother (fun heq => hne (by rw [heq])) hm

/-- The host reads a packet. -/
lemma Elsewhere.receive (hi : Elsewhere h lid s) (hlid : SWITCH_LOCK_NUM ≤ lid.toNat)
    (hdown : s.down = x :: rest) (hfree : x.1.type = .acquire → s.lock.mode = .free) :
    Elsewhere h lid (receiveStep h s x rest) := by
  have hr := hi.outOfRange hlid
  have hx := hi.packets x (mem_flight.2 (.inl (.inl (hdown ▸ List.mem_cons_self))))
  rcases hx.kind with ⟨ha, hm⟩ | hrel
  · exact hi.receive_request hr hdown hx ha hm (hfree ha)
  · exact hi.receive_release hr hdown hx hrel

theorem elsewhere_step (hlid : SWITCH_LOCK_NUM ≤ lid.toNat) (hi : Elsewhere h lid s)
    (hok : Guarded h s e) (hs : step h s e = some s') : Elsewhere h lid s' := by
  have hr := hi.outOfRange hlid
  rcases step_cases hs with ⟨t, -, ht, hready, rfl⟩ | ⟨t, -, hf, -⟩ | ⟨t, -, ht, hready, rfl⟩ |
    ⟨t, ht, -⟩ | ⟨a, b, t, p, c, hg, rfl⟩ | ⟨a, b, t, t', c, hg, -⟩ | ⟨x, rest, hup, rfl⟩ |
    ⟨x, rest, he, hdown, rfl⟩
  · exact hi.acquire hr ht hready
  · rw [hi.flags t] at hf
    cases hf
  · exact hi.timeout hr ht hready
  · exact absurd ht (hi.task t)
  · exact hi.resume_send hg
  · obtain ⟨p, c', heq⟩ := hi.gaps ((t, .notify t'), c) (by simp [hg])
    simp at heq
  · exact hi.switch hlid hup
  · subst he
    exact hi.receive hlid hdown (hok (hi.id ▸ hlid) hi.manager x (by rw [hdown]; rfl))

/-- While the last packet of a call is not sent, the call is not over. -/
lemma Elsewhere.slot_mem (hi : Elsewhere h lid s) {first n : ℕ}
    (hslots : Consecutive first (s.lastSlot t) ((ofTask s.flight t).map slot)) (h1 : first ≤ 2 * n + 1)
    (h2 : 2 * n + 1 ≤ s.lastSlot t) : ∃ x ∈ s.flight, x.2 = (t, n) := by
  obtain ⟨x, hx, hslot⟩ := List.mem_map.1 (hslots.mem h1 h2)
  obtain ⟨hxf, hxt⟩ := List.mem_filter.1 hx
  refine ⟨x, hxf, Prod.ext ((hi.packets x hxf).call.trans (of_decide_eq_true hxt)) ?_⟩
  rw [slot] at hslot
  show x.2.2 = n
  split at hslot <;> omega

lemma State.Drained.not_mem {c : CallId} (hd : s.Drained c) : ∀ x ∈ s.flight, x.2 ≠ c := by
  intro x hx
  rcases mem_flight.1 hx with hx | ⟨t, hx⟩
  · exact hd.1 x (List.mem_append.2 hx.symm)
  · exact hd.2 _ hx

lemma Elsewhere.contract (hi : Elsewhere h lid s) : Contract h s := by
  have hlast : ∀ t, s.Failed (s.current t) → s.lastSlot t = 2 * s.calls t + 1 := fun t hf => by
    rw [State.lastSlot, if_pos (hi.failed t hf)]
  refine ⟨fun r hr hres => ?_, fun t hf hd => ⟨fun hm => ?_, ?_, hi.flags t⟩, fun c t hf hd hm hc => ?_,
    fun c _ _ hm => ?_⟩
  · exact absurd (hres.symm.trans (hi.past r hr).1) (by decide)
  · obtain ⟨first, hslots, hholds⟩ := hi.slots t
    obtain ⟨hfirst, -⟩ := hholds hm
    have hle := hslots.le
    rw [hlast t hf] at hle
    obtain ⟨x, hx, hxc⟩ := hi.slot_mem (n := s.calls t) hslots (by omega) (hlast t hf).ge
    exact hd.not_mem x hx hxc
  · rw [hi.wqueue]
    exact nofun
  · obtain ⟨first, hslots, hholds⟩ := hi.slots t
    obtain ⟨hfirst, hct⟩ := hholds hm
    have hcn : c = (t, (s.holderCall t).2) := by
      rw [← hc]
      exact Prod.ext hct rfl
    by_cases hdue : first ≤ s.lastSlot t
    · obtain ⟨x, hx, hxc⟩ := hi.slot_mem (n := (s.holderCall t).2) hslots hfirst.le (hfirst ▸ hdue)
      exact hd.not_mem x hx (hxc.trans hcn.symm)
    · -- the call has not sent its release, so it is the present one, and not over
      have hle := hslots.le
      have hnot : ¬ s.task t = .idle := fun hidle => by
        rw [State.lastSlot, if_pos hidle] at hdue hle
        omega
      have hn : (s.holderCall t).2 = s.calls t := by
        rw [State.lastSlot, if_neg hnot] at hdue hle
        omega
      rw [hcn, hn] at hf
      exact hnot (hi.failed t hf)
  · rw [hi.wqCalls] at hm
    cases hm

lemma elsewhere_init (hm : lockToLm (.init lid) ≠ h) : Elsewhere h lid (State.init lid) where
  id := rfl
  manager := hm
  wqueue := rfl
  flags _ := rfl
  wqCalls := rfl
  free _ := rfl
  task _ := nofun
  past := by simp [State.init]
  failed _ := by simp [State.Failed, State.init]
  packets := by simp [State.init, State.flight]
  gaps := by simp [State.init]
  oneGap := List.nodup_nil
  unread _ := ⟨rfl, rfl⟩
  slots _ := ⟨2, ⟨rfl, le_rfl⟩, fun hm => absurd hm (Finset.notMem_empty _)⟩

end Elsewhere

/-! ## From `SWITCH_LOCK_NUM` on, if the host itself is the manager -/

/-- The invariant of a lock that is only asked for while it is free: nobody ever waits, and every
call was granted the lock on the spot. -/
structure Here (h : HostId) (lid : LockId) (s : State) (owner : Option TaskId) : Prop where
  id : s.lock.id = lid
  manager : lockToLm s.lock = h
  silent : s.up = [] ∧ s.down = [] ∧ s.gaps = []
  wqueue : s.lock.wqueue = []
  flags : ∀ t, s.lock.taskGranted t = false
  phase : match owner with
    | none => s.lock.holders = ∅
    | some a => s.lock.mode = .excl ∧ s.lock.holders = {(h, a)}
  task : ∀ t, s.task t = if owner = some t then .holding else .idle
  returns : ∀ r ∈ s.returns, r.result = true ∧ r.recorded = true

section Here

variable {owner : Option TaskId}

lemma Here.contract (hi : Here h lid s owner) : Contract h s := by
  have hnone : ∀ c, ¬ s.Failed c := by
    rintro c ⟨r, hr, -, hres⟩
    exact absurd ((hi.returns r hr).1.symm.trans hres) (by decide)
  exact ⟨fun r hr _ => (hi.returns r hr).2, fun t hf => absurd hf (hnone _),
    fun c t hf => absurd hf (hnone c), fun c hf => absurd hf (hnone c)⟩

/-- The lock is free, and granted on the spot. -/
lemma Here.acquire (hi : Here h lid s owner) (hr : lockOutOfRange s.lock = true)
    (hfree : s.lock.mode = .free) : Here h lid (acquireStep h s t) (some t) := by
  obtain rfl : owner = none := by
    cases owner with
    | none => rfl
    | some a => exact absurd (hfree.symm.trans hi.phase.1) (by decide)
  rcases lockAcquireAsync_managed (h := h) (t := t) hr with ⟨-, -, hcode⟩ | ⟨-, hne, -⟩ | ⟨hlm, -⟩
  · have hstep : acquireStep h s t = { s with
        lock := lockAddHolder { s.lock with mode := .excl } (h, t)
        calls := Function.update s.calls t (s.calls t + 1)
        task := Function.update s.task t .holding
        holderCall := Function.update s.holderCall t (t, s.calls t + 1)
        returns := s.returns ++ [{ call := (t, s.calls t + 1), result := true, recorded := true }] } := by
      simp [acquireStep, hcode, State.pushGaps, gapsOf, State.current, State.answer, lockAddHolder]
    rw [hstep]
    refine ⟨hi.id, hi.manager, hi.silent, hi.wqueue, hi.flags, ⟨rfl, ?_⟩, fun t' => ?_, fun r hr => ?_⟩
    · show insert (h, t) s.lock.holders = {(h, t)}
      rw [show s.lock.holders = ∅ from hi.phase]
      rfl
    · by_cases htt : t' = t
      · subst htt
        simp
      · have := hi.task t'
        simp [htt, Ne.symm htt, this]
    · rcases List.mem_append.1 hr with hr | hr
      · exact hi.returns r hr
      · rw [List.mem_singleton.1 hr]
        exact ⟨rfl, rfl⟩
  · exact absurd hfree hne
  · exact absurd hi.manager hlm

/-- The owner leaves. -/
lemma Here.release (hi : Here h lid s owner) (hr : lockOutOfRange s.lock = true)
    (ht : s.task t = .holding) : Here h lid (releaseStep h s t) none := by
  obtain rfl : owner = some t := by
    by_contra hne
    rw [hi.task t, if_neg hne] at ht
    cases ht
  have hsub : s.lock.holders ⊆ {(h, t)} := hi.phase.2.subset
  rcases lockRelease_managed hr hi.manager hsub (by rw [hi.wqueue]; exact nofun) with
    ⟨-, L, hcode⟩ | ⟨e, rest, hq, -⟩
  · have hstep : releaseStep h s t = { s with
        lock := { s.lock with localHolders := L, holders := ∅, mode := .free }
        task := Function.update s.task t .idle } := by
      simp [releaseStep, hcode, State.pushGaps, gapsOf]
    rw [hstep]
    refine ⟨hi.id, hi.manager, hi.silent, hi.wqueue, hi.flags, rfl, fun t' => ?_, hi.returns⟩
    by_cases htt : t' = t
    · subst htt
      simp
    · have := hi.task t'
      simpa [htt, Ne.symm htt] using this
  · rw [hi.wqueue] at hq
    cases hq

theorem here_step (hlid : SWITCH_LOCK_NUM ≤ lid.toNat) (hi : Here h lid s owner)
    (hok : Guarded h s e) (hs : step h s e = some s') : ∃ owner', Here h lid s' owner' := by
  have hr : lockOutOfRange s.lock = true := by
    rw [lockOutOfRange, hi.id]
    exact decide_eq_true hlid
  obtain ⟨hup0, hdown0, hgaps0⟩ := hi.silent
  rcases step_cases hs with ⟨t, rfl, -, -, rfl⟩ | ⟨t, -, hf, -⟩ | ⟨t, -, ht, -⟩ |
    ⟨t, ht, -, rfl⟩ | ⟨a, b, t, p, c, hg, -⟩ | ⟨a, b, t, t', c, hg, -⟩ | ⟨x, rest, hup, -⟩ |
    ⟨x, rest, -, hdown, -⟩
  · exact ⟨_, hi.acquire hr (hok.2 (hi.id ▸ hlid) hi.manager)⟩
  · rw [hi.flags t] at hf
    cases hf
  · rw [hi.task t] at ht
    split at ht <;> cases ht
  · exact ⟨_, hi.release hr ht⟩
  · simp [hgaps0] at hg
  · simp [hgaps0] at hg
  · simp [hup0] at hup
  · simp [hdown0] at hdown

end Here

end TryAcquire
end FissLock
