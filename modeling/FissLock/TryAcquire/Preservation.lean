import FissLock.TryAcquire.Served

/-!
# The steps on a lock that the switch serves

Every step that `Guarded` allows keeps `Orderly`.  For the part that `OneHost` knows,
`Orderly.base`, each case is a step of `OneHost` or, where only a dead request moves, no step at
all; only giving up is new (`base_timeout`).
-/

namespace FissLock
namespace TryAcquire

open Runs OneHost

variable {h : HostId} {lid : LockId} {s s' : State} {t : TaskId} {x : LockHdr × CallId}
  {rest : List (LockHdr × CallId)}

/-! ## A call begins -/

/-- Task `t` has begun another call and waits. -/
def State.begun (s : State) (t : TaskId) : State :=
  { s with
    calls := Function.update s.calls t (s.calls t + 1)
    task := Function.update s.task t .waiting }

lemma current_begun : (s.begun t).current t = (t, s.calls t + 1) := by
  simp [State.current, State.begun]

lemma current_begun_of_ne {t' : TaskId} (hne : t' ≠ t) : (s.begun t).current t' = s.current t' := by
  simp [State.current, State.begun, hne]

/-- The call is a new one. -/
lemma Books.not_failed_next (hb : Books h s) : ¬ s.Failed (t, s.calls t + 1) := by
  rintro ⟨r, hr, hcall, -⟩
  have hle := (hb.past r hr).1
  rw [hcall] at hle
  exact Nat.not_succ_le_self _ hle

/-- The books when a call begins. -/
lemma Orderly.books_begun (ho : Orderly h lid s) (ht : s.task t = .idle)
    {gaps : List ((TaskId × Gap) × CallId)} {l : InnetLock} {wqCalls : List CallId}
    (hgaps : ∀ x ∈ gaps, x ∈ s.gaps
      ∨ ∃ p, x = ((t, .send p), (t, s.calls t + 1)) ∧ p.taskId = t)
    (hwaits : wqCalls = l.wqueue.map fun e => (s.begun t).current e.taskId)
    (hholders : l.holders = s.lock.holders) :
    Books h { s.begun t with gaps := gaps, lock := l, wqCalls := wqCalls } := by
  obtain ⟨hdead, -, hnot, -⟩ := ho.idle ht
  have hb := ho.books
  have hnew := hb.not_failed_next (t := t)
  refine ⟨fun x hx hk => ?_, fun x hx p hp hpa => ?_, hwaits, fun t' ht' => ?_, fun r hr => ?_,
    fun t' hf => ?_⟩
  · have hold : x ∈ s.flight → x.2.1 = x.1.taskId
        ∧ (s.Dead x ∨ x.2 = (s.begun t).current x.1.taskId) := by
      intro hx
      obtain ⟨htag, hdc⟩ := hb.packet x hx hk
      refine ⟨htag, ?_⟩
      by_cases hxt : x.1.taskId = t
      · exact .inl (hdead x hx hk hxt)
      · rwa [current_begun_of_ne hxt]
    rcases mem_flight.1 hx with hx | ⟨c, hx⟩
    · exact hold (mem_flight.2 (.inl hx))
    · rcases hgaps _ hx with hx | ⟨p, heq, hpt⟩
      · exact hold (mem_flight.2 (.inr ⟨c, hx⟩))
      · obtain ⟨⟨-, rfl⟩, hcall⟩ : (c = t ∧ x.1 = p) ∧ x.2 = (t, s.calls t + 1) := by simpa using heq
        refine ⟨by rw [hcall, hpt], .inr ?_⟩
        rw [hcall, hpt]
        exact current_begun.symm
  · rcases hgaps x hx with hx | ⟨q, rfl, hqt⟩
    · exact hb.gap x hx p hp hpa
    · cases hp
      exact ⟨hqt.symm, hnew⟩
  · have hm : (h, t') ∈ s.lock.holders := hholders ▸ ht'
    have hne : t' ≠ t := fun heq => hnot (heq ▸ hm)
    exact (hb.holds t' hm).trans (current_begun_of_ne hne).symm
  · obtain ⟨hle, hrec⟩ := hb.past r hr
    refine ⟨hle.trans ?_, hrec⟩
    show s.calls r.call.1 ≤ Function.update s.calls t (s.calls t + 1) r.call.1
    by_cases hrt : r.call.1 = t
    · rw [hrt, Function.update_self]
      exact Nat.le_succ _
    · rw [Function.update_of_ne hrt]
  · by_cases htt : t' = t
    · subst htt
      exact absurd (current_begun (s := s) (t := t') ▸ hf) hnew
    · have hf' : s.Failed (s.current t') := current_begun_of_ne (s := s) htt ▸ hf
      exact (Function.update_of_ne htt _ _).trans (hb.failed t' hf')

/-- The calls behind the wait queue stay what they are. -/
lemma Orderly.waits_begun (ho : Orderly h lid s) (ht : s.task t = .idle) :
    s.wqCalls = s.lock.wqueue.map fun e => (s.begun t).current e.taskId := by
  obtain ⟨-, hq, -, -⟩ := ho.idle ht
  rw [ho.books.waits]
  exact List.map_congr_left fun e he => (current_begun_of_ne (hq e he)).symm

/-- The request is queued at once. -/
lemma Orderly.acquire_queue (ho : Orderly h lid s) (ht : s.task t = .idle) (hb : t.toNat < 2 ^ 30) :
    Orderly h lid { s.begun t with
      gaps := s.gaps
      lock := lockAppendToWq s.lock (Wqe.ofReq .excl t h)
      wqCalls := s.wqCalls ++ [(t, s.calls t + 1)] } := by
  obtain ⟨queued, served, hi⟩ := ho.base
  refine ⟨⟨_, _, hi.acquire_queue ht hb⟩, ?_, ?_⟩
  · refine ho.books_begun ht (fun x hx => .inl hx) ?_ rfl
    rw [ho.waits_begun ht]
    simp [lockAppendToWq, Wqe.taskId_ofReq hb, current_begun]
  · exact ho.corpses.stay rfl rfl rfl rfl (fun _ => .rfl)
      (ho.corpses.alone_of (fun _ => .rfl) (fun x hx _ => .of_mem hx) id)

/-- The request is to be sent to the switch. -/
lemma Orderly.acquire_send (ho : Orderly h lid s) (ht : s.task t = .idle) (hb : t.toNat < 2 ^ 30)
    (hempty : s.lock.holders = ∅) :
    Orderly h lid { s.begun t with
      gaps := ((t, .send (sendPostAcquire (bmv2Conf h) .excl s.lock.id h t)), (t, s.calls t + 1))
        :: s.gaps
      lock := s.lock
      wqCalls := s.wqCalls } := by
  obtain ⟨queued, served, hi⟩ := ho.base
  refine ⟨⟨_, _, hi.acquire_send ht hb⟩, ?_, ?_⟩
  · refine ho.books_begun ht (fun x hx => ?_) (ho.waits_begun ht) rfl
    rcases List.mem_cons.1 hx with rfl | hx
    · exact .inr ⟨_, rfl, rfl⟩
    · exact .inl hx
  · exact ho.corpses.stay rfl rfl rfl rfl (fun _ => .rfl) fun _ _ _ _ _ _ _ _ => hempty

lemma Orderly.acquire (ho : Orderly h lid s) (hlid : Served lid) (ht : s.task t = .idle)
    (hb : t.toNat < 2 ^ 30) : Orderly h lid (acquireStep h s t) := by
  have hr := ho.inRange hlid
  rcases lockAcquireAsync_excl (h := h) (t := t) hr with ⟨-, f, hcode⟩ | hcode
  · have hstep : acquireStep h s t = { s.begun t with
        gaps := s.gaps
        lock := lockAppendToWq s.lock (Wqe.ofReq .excl t h)
        wqCalls := s.wqCalls ++ [(t, s.calls t + 1)] } := by
      simp [acquireStep, hcode, State.pushGaps, gapsOf, State.begun, State.current, lockAppendToWq]
    rw [hstep]
    exact ho.acquire_queue ht hb
  · have hempty : s.lock.holders = ∅ := by
      obtain ⟨queued, served, hi⟩ := ho.base
      by_contra hne
      have hsent := lockAcquireAsync_agent (h := h) (t := t) hr (hi.lock.agent hne).1
      rw [hcode] at hsent
      cases hsent
    have hstep : acquireStep h s t = { s.begun t with
        gaps := ((t, .send (sendPostAcquire (bmv2Conf h) .excl s.lock.id h t)), (t, s.calls t + 1))
          :: s.gaps
        lock := s.lock
        wqCalls := s.wqCalls } := by
      simp [acquireStep, hcode, State.pushGaps, gapsOf, State.begun, State.current]
    rw [hstep]
    exact ho.acquire_send ht hb hempty

/-! ## A call returns -/

lemma failed_answer_true {c : CallId} : (s.answer h t true).Failed c ↔ s.Failed c := by
  simp [State.Failed, State.answer]

lemma failed_answer_false {c : CallId} :
    (s.answer h t false).Failed c ↔ s.Failed c ∨ c = s.current t := by
  rw [eq_comm (a := c)]
  simp [State.Failed, State.answer, or_and_right, exists_or]

lemma live_congr (hfail : ∀ c, s'.Failed c ↔ s.Failed c) (l : List (LockHdr × CallId)) :
    s'.live l = s.live l := by
  refine congrArg (List.map Prod.fst) (List.filter_congr fun x _ => ?_)
  exact decide_eq_decide.2 (not_congr (dead_congr hfail x))

/-- The grant is observed. -/
lemma Orderly.poll (ho : Orderly h lid s) (ht : s.task t = .waiting)
    (hf : s.lock.taskGranted t = true) :
    Orderly h lid (State.answer h { s with
      lock := { s.lock with taskGranted := Function.update s.lock.taskGranted t false }
      task := Function.update s.task t .holding } t true) := by
  obtain ⟨queued, served, hi⟩ := ho.base
  have hm : (h, t) ∈ s.lock.holders := heldAt_eq_one.1 (hi.held_of_granted (.inr ⟨ht, hf⟩))
  refine ⟨⟨queued, served, ?_⟩, ?_, ?_⟩
  · have hpoll := hi.poll ht hf
    simp only [State.base, live_congr (fun _ => failed_answer_true)]
    exact hpoll
  · refine ho.books.move rfl (fun _ => failed_answer_true) (fun r hr => ?_) (fun t' ht' => ?_)
      (fun x hx _ => .of_mem hx) (fun x hx => .inl hx) ho.books.waits ho.books.holds
    · rcases List.mem_append.1 hr with hr | hr
      · exact .inl hr
      · rw [List.mem_singleton.1 hr]
        exact .inr ⟨le_rfl, fun _ => decide_eq_true ⟨hm, ho.books.holds t hm⟩⟩
    · have hne : t' ≠ t := fun heq => absurd (ht'.symm.trans (heq ▸ ht)) (by decide)
      exact (Function.update_of_ne hne _ _).trans ht'
  · exact ho.corpses.stay rfl rfl rfl rfl (fun _ => failed_answer_true)
      (ho.corpses.alone_of (fun _ => failed_answer_true) (fun x hx _ => .of_mem hx) id)

/-! ## A call gives up -/

lemma mem_of_mem_live {p : LockHdr} {l : List (LockHdr × CallId)} (hp : p ∈ s.live l) :
    ∃ c, (p, c) ∈ l ∧ ¬ s.Dead (p, c) := by
  obtain ⟨x, hx, rfl⟩ := List.mem_map.1 hp
  obtain ⟨hxl, hd⟩ := List.mem_filter.1 hx
  exact ⟨x.2, hxl, of_decide_eq_true hd⟩

lemma live_sublist (hfail : ∀ c, s.Failed c → s'.Failed c) (l : List (LockHdr × CallId)) :
    (s'.live l).Sublist (s.live l) := by
  refine .map _ (List.monotone_filter_right l fun x hx => ?_)
  refine decide_eq_true fun hd => of_decide_eq_true hx ⟨hd.1, hfail _ hd.2⟩

/-- While somebody holds the lock nothing is on its way that would give or take it. -/
lemma taken_of_holder {a : OneHost} (hi : OneHost.Inv h lid a) (hne : a.lock.holders ≠ ∅) :
    a.cell.free = LOCK_ACQUIRED ∧ a.gaps.countP (sends isFree) = 0 ∧ a.up.countP isFree = 0
      ∧ a.down.countP isGrant = 0 ∧ a.lock.holders.card = 1 := by
  have hpos := Finset.card_pos.2 (Finset.nonempty_iff_ne_empty.2 hne)
  have htok := hi.token
  split at htok
  · next hc => exact ⟨hc, by omega, by omega, by omega, by omega⟩
  · omega

/-- Task `t` has given up, and left a mark. -/
def State.gaveUp (h : HostId) (s : State) (t : TaskId) : State :=
  State.answer h { s with
    lock := { s.lock with
      localHolders := s.lock.localHolders.erase t
      earlyRelease := Function.update s.lock.earlyRelease (h, t) true }
    task := Function.update s.task t .idle } t false

section GaveUp

variable (ho : Orderly h lid s) (ht : s.task t = .waiting) (hready : s.ready t = true)
  (hne : s.lock.holders ≠ ∅) (hnot : (h, t) ∉ s.lock.holders)
  (hq : ∀ e ∈ s.lock.wqueue, e.holder ≠ (h, t))

lemma failed_gaveUp {c : CallId} : (s.gaveUp h t).Failed c ↔ s.Failed c ∨ c = s.current t :=
  failed_answer_false

lemma dead_gaveUp : (s.gaveUp h t).Dead x ↔ s.Dead x ∨ x.1.type = .acquire ∧ x.2 = s.current t := by
  simp only [State.Dead, failed_gaveUp, and_or_left]

include ho in
/-- Every request of the task is dead now. -/
lemma Orderly.dead_gaveUp_of_task (hx : x ∈ s.flight) (ha : x.1.type = .acquire)
    (hxt : x.1.taskId = t) : (s.gaveUp h t).Dead x := by
  rcases (ho.books.packet x hx (.inl ha)).2 with hd | hc
  · exact dead_gaveUp.2 (.inl hd)
  · exact dead_gaveUp.2 (.inr ⟨ha, hxt ▸ hc⟩)

include ho in
/-- And nothing else has died. -/
lemma Orderly.task_of_dead_gaveUp (hx : x ∈ s.flight) (hd : (s.gaveUp h t).Dead x)
    (hlive : ¬ s.Dead x) : x.1.taskId = t := by
  obtain ⟨ha, hc⟩ := (dead_gaveUp.1 hd).resolve_left hlive
  rw [← (ho.books.packet x hx (.inl ha)).1, hc]
  rfl

include ho hready hne hq in
/-- Of the task nothing is left that `OneHost` counts. -/
lemma Orderly.open_gaveUp (queued served : List TaskId) (hi : OneHost.Inv h lid (s.base queued served)) :
    ((s.gaveUp h t).base queued served).openAt t = 0 := by
  obtain ⟨-, -, -, hgrant, -⟩ := taken_of_holder hi hne
  have hlive : ∀ x ∈ s.flight, ¬ (s.gaveUp h t).Dead x → x.1.type = .acquire →
      carries t x.1 ≠ true := by
    intro x hx hd ha hc
    exact hd (ho.dead_gaveUp_of_task hx ha (of_decide_eq_true hc).2)
  have hgaps : (s.gaps.map Prod.fst).countP (sends (carries t)) = 0 := by
    refine List.countP_eq_zero.2 fun g hg hs => ?_
    obtain ⟨x, hx, rfl⟩ := List.mem_map.1 hg
    obtain ⟨⟨c, g⟩, k⟩ := x
    cases g with
    | send p =>
        have hp : Sent h lid p := hi.gaps _ hg p rfl
        have hc := of_decide_eq_true hs
        have ha : p.type = .acquire := hc.1.resolve_right fun hg => by
          rcases hp.kind with hk | hk <;> exact absurd (hg.symm.trans hk.1) (by decide)
        have hct : c = t := (ho.books.gap _ hx p rfl ha).1.trans hc.2
        exact absurd hct (of_decide_eq_true (List.all_eq_true.1 hready _ hx))
    | notify t' => cases hs
  have hup : ((s.gaveUp h t).live s.up).countP (carries t) = 0 := by
    refine List.countP_eq_zero.2 fun p hp hc => ?_
    obtain ⟨c, hx, hd⟩ := mem_of_mem_live hp
    refine hlive (p, c) (mem_flight.2 (.inl (.inr hx))) hd ?_ hc
    rcases (ho.sent hx).kind with hk | hk
    · exact hk.1
    · have := (of_decide_eq_true hc).1
      simp [show p.type = .free from hk.1] at this
  have hdown : ((s.gaveUp h t).live s.down).countP (carries t) = 0 := by
    refine List.countP_eq_zero.2 fun p hp hc => ?_
    obtain ⟨c, hx, hd⟩ := mem_of_mem_live hp
    refine hlive (p, c) (mem_flight.2 (.inl (.inl hx))) hd ?_ hc
    refine (of_decide_eq_true hc).1.resolve_right fun hg => ?_
    have hmem : p ∈ s.live s.down :=
      (live_sublist (fun c hf => failed_gaveUp.2 (.inl hf)) s.down).mem hp
    exact absurd (decide_eq_true hg) (List.countP_eq_zero.1 hgrant p hmem)
  have hwq : s.lock.wqueue.countP (·.taskId = t) = 0 := by
    refine List.countP_eq_zero.2 fun e he het => hq e he ?_
    exact Prod.ext (hi.lock.entries e he).2 (of_decide_eq_true het)
  show (s.gaps.map Prod.fst).countP (sends (carries t)) + ((s.gaveUp h t).live s.up).countP (carries t)
    + ((s.gaveUp h t).live s.down).countP (carries t) + s.lock.wqueue.countP (·.taskId = t) = 0
  omega

include ho ht hready hne hnot hq in
/-- `OneHost` sees the requests of the task vanish. -/
lemma Orderly.base_gaveUp (queued served : List TaskId) (hi : OneHost.Inv h lid (s.base queued served)) :
    OneHost.Inv h lid ((s.gaveUp h t).base queued served) := by
  obtain ⟨hcell, hgaps, hfree, hgrant, hcard⟩ := taken_of_holder hi hne
  have hsub : ∀ l, ((s.gaveUp h t).live l).Sublist (s.live l) :=
    live_sublist fun c hf => failed_gaveUp.2 (.inl hf)
  have hl := hi.lock
  refine ⟨⟨hl.id, fun _ => rfl, hl.noDelay, hl.holders, hl.agent, hl.entries⟩,
    fun p hp => hi.up p ((hsub _).mem hp), hi.gaps, fun p hp => hi.down p ((hsub _).mem hp), hi.range,
    ?_, fun t' => ?_, hi.order⟩
  · have hup := (hsub s.up).countP_le (p := isFree)
    have hdown := (hsub s.down).countP_le (p := isGrant)
    have htok := hi.token
    rw [hgaps, hfree, hgrant] at htok
    show (s.gaps.map Prod.fst).countP (sends isFree) + ((s.gaveUp h t).live s.up).countP isFree
      + ((s.gaveUp h t).live s.down).countP isGrant + s.lock.holders.card
        = if s.cell.free then 1 else 0
    have hup0 : ((s.gaveUp h t).live s.up).countP isFree = 0 := Nat.le_zero.1 (hup.trans hfree.le)
    have hdown0 : ((s.gaveUp h t).live s.down).countP isGrant = 0 :=
      Nat.le_zero.1 (hdown.trans hgrant.le)
    rw [hup0, hdown0, show (s.gaps.map Prod.fst).countP (sends isFree) = 0 from hgaps]
    exact htok
  · by_cases htt : t' = t
    · subst htt
      have hc := hi.task t'
      rw [show (s.base queued served).task t' = .waiting from ht] at hc
      have hheld : (s.base queued served).heldAt h t' = 0 := if_neg hnot
      have hopen := ho.open_gaveUp hready hne hq queued served hi
      have hidle : ((s.gaveUp h t').base queued served).task t' = .idle := Function.update_self ..
      rw [hidle]
      rcases hc with ⟨-, hn, hf, -⟩ | ⟨-, -, hheld'⟩
      · exact ⟨hopen, hn, hf, hheld⟩
      · omega
    · have htask : ((s.gaveUp h t).base queued served).task t' = (s.base queued served).task t' :=
        Function.update_of_ne htt _ _
      rw [htask]
      refine TaskOk.mono ?_ (hi.task t')
      have hup := (hsub s.up).countP_le (p := carries t')
      have hdown := (hsub s.down).countP_le (p := carries t')
      show (s.gaps.map Prod.fst).countP (sends (carries t'))
          + ((s.gaveUp h t).live s.up).countP (carries t')
          + ((s.gaveUp h t).live s.down).countP (carries t')
          + s.lock.wqueue.countP (·.taskId = t')
        ≤ (s.gaps.map Prod.fst).countP (sends (carries t')) + (s.live s.up).countP (carries t')
          + (s.live s.down).countP (carries t') + s.lock.wqueue.countP (·.taskId = t')
      omega

include ho hready in
lemma Orderly.books_gaveUp : Books h (s.gaveUp h t) := by
  have hb := ho.books
  refine ⟨fun x hx hk => ?_, fun x hx p hp ha => ?_, hb.waits, hb.holds, fun r hr => ?_,
    fun t' hf => ?_⟩
  · obtain ⟨htag, hdc⟩ := hb.packet x hx hk
    exact ⟨htag, hdc.imp_left fun hd => dead_gaveUp.2 (.inl hd)⟩
  · obtain ⟨hxt, hlive⟩ := hb.gap x hx p hp ha
    refine ⟨hxt, fun hf => ?_⟩
    rcases failed_gaveUp.1 hf with hf | hf
    · exact hlive hf
    · -- the request would be one of the task, which has nothing left to do
      have hmem : (p, x.2) ∈ s.flight := mem_flight.2 (.inr ⟨x.1.1, hp ▸ hx⟩)
      have htag : x.2.1 = p.taskId := (hb.packet _ hmem (.inl ha)).1
      rw [hf] at htag
      exact absurd (hxt.trans htag.symm) (of_decide_eq_true (List.all_eq_true.1 hready _ hx))
  · rcases List.mem_append.1 hr with hr | hr
    · exact hb.past r hr
    · rw [List.mem_singleton.1 hr]
      exact ⟨le_rfl, fun h => nomatch h⟩
  · by_cases htt : t' = t
    · subst htt
      exact Function.update_self ..
    · refine (Function.update_of_ne htt _ _).trans (hb.failed t' ?_)
      exact (failed_gaveUp.1 hf).resolve_right fun heq => htt (congrArg Prod.fst heq)

include ho in
/-- A task has one live request. -/
lemma Orderly.live_unique {y : LockHdr × CallId} (hsub : [y, x].Sublist (s.down ++ s.up))
    (hya : y.1.type = .acquire) (hxa : x.1.type = .acquire) (hxy : y.1.taskId = x.1.taskId)
    (hy : ¬ s.Dead y) (hx : ¬ s.Dead x) : False := by
  obtain ⟨queued, served, hi⟩ := ho.base
  have hmem : x ∈ s.flight := List.mem_append_left _ (hsub.mem (by simp))
  obtain ⟨-, hone, -⟩ := hi.waiting_of_open (base_open_of_packet hmem hx (.inl hxa))
  have hlive : [y.1, x.1].Sublist (s.live s.down ++ s.live s.up) := by
    have hl : (s.live [y, x]).Sublist (s.live (s.down ++ s.up)) := (hsub.filter _).map _
    rwa [live_append, live_cons hy, live_cons hx, live_nil] at hl
  have htwo := hlive.countP_le (p := carries x.1.taskId)
  have hcount : [y.1, x.1].countP (carries x.1.taskId) = 2 := by
    simp [carries, hya, hxa, hxy]
  rw [hcount, List.countP_append] at htwo
  simp only [openAt, State.base] at hone
  omega

include ho hne in
lemma Orderly.corpses_gaveUp : Corpses h lid (s.gaveUp h t) := by
  have hc := ho.corpses
  obtain ⟨queued, served, hi⟩ := ho.base
  obtain ⟨hcell, -, hfree, hgrant, -⟩ := taken_of_holder hi hne
  refine ⟨fun x hx _ => ho.sent hx, fun x hx _ => ho.received hx, fun x hx hd => ?_, ?_,
    fun _ _ _ => hcell, ?_, fun x hx hd y hy hya hlive hxy => ?_⟩
  · show Function.update s.lock.earlyRelease (h, t) true (h, x.1.taskId) = true
    by_cases hxt : x.1.taskId = t
    · rw [hxt, Function.update_self]
    · have hold : s.Dead x := by
        by_contra hn
        exact hxt (ho.task_of_dead_gaveUp (List.mem_append_left _ hx) hd hn)
      rw [Function.update_of_ne fun heq => hxt (congrArg Prod.snd heq)]
      exact hc.marked x hx hold
  · refine List.pairwise_iff_forall_sublist.2 fun {y x} hsub hd => ?_
    by_cases hold : s.Dead x
    · exact List.pairwise_iff_forall_sublist.1 hc.first hsub hold
    have hx : x ∈ s.flight := List.mem_append_left _ (hsub.mem (by simp))
    have hy : y ∈ s.down ++ s.up := hsub.mem (by simp)
    refine ⟨fun hg => ?_, fun hya hxy => ?_⟩
    · -- the holder has the only right to the lock
      have hlive : ¬ s.Dead y := fun hdy => absurd (hdy.1.symm.trans hg) (by decide)
      rcases List.mem_append.1 hy with hy | hy
      · exact absurd (decide_eq_true hg) (List.countP_eq_zero.1 hgrant _ (mem_live hy hlive))
      · rcases (ho.sent hy).kind with hk | hk <;> exact absurd (hk.1.symm.trans hg) (by decide)
    · by_cases hdy : s.Dead y
      · exact hne (hc.alone y (List.mem_append_left _ hy) hdy x hx hd.1 hold hxy.symm)
      · exact ho.live_unique hsub hya hd.1 hxy hdy hold
  · refine hc.behind.imp_of_mem fun {y x} hy _ hR hd hyf => ?_
    have hlive : ¬ s.Dead y := fun hdy => absurd (hdy.1.symm.trans hyf) (by decide)
    exact absurd (decide_eq_true hyf) (List.countP_eq_zero.1 hfree _ (mem_live hy hlive))
  · by_cases hold : s.Dead x
    · exact hc.alone x hx hold y hy hya (fun hdy => hlive (dead_gaveUp.2 (.inl hdy))) hxy
    · exact absurd (ho.dead_gaveUp_of_task hy hya (hxy.trans (ho.task_of_dead_gaveUp hx hd hold)))
        hlive

end GaveUp

lemma Orderly.timeout (ho : Orderly h lid s) (hlid : Served lid) (ht : s.task t = .waiting)
    (hready : s.ready t = true) (hne : s.lock.holders ≠ ∅) (hnot : (h, t) ∉ s.lock.holders)
    (hq : ∀ e ∈ s.lock.wqueue, e.holder ≠ (h, t)) :
    Orderly h lid ((releaseStep h s t).answer h t false) := by
  obtain ⟨queued, served, hi⟩ := ho.base
  have hcode := lockRelease_early (ho.inRange hlid) (hi.lock.agent hne).1 hnot hne
  have hstep : (releaseStep h s t).answer h t false = s.gaveUp h t := by
    simp [releaseStep, hcode, State.pushGaps, gapsOf, State.gaveUp]
  rw [hstep]
  exact ⟨⟨_, _, ho.base_gaveUp ht hready hne hnot hq queued served hi⟩, ho.books_gaveUp hready,
    ho.corpses_gaveUp hne⟩

/-! ## A task releases the lock -/

lemma update_idle {task : TaskId → ClientState} (t' : TaskId) (ht' : task t' = .idle) :
    Function.update task t .idle t' = .idle := by
  by_cases htt : t' = t
  · rw [htt, Function.update_self]
  · rw [Function.update_of_ne htt]
    exact ht'

/-- The last task leaves, and a `FREE` is to be sent. -/
lemma Orderly.release_free (ho : Orderly h lid s) (ht : s.task t = .holding) {L : Finset TaskId} :
    Orderly h lid { s with
      lock := { s.lock with
        localHolders := L, holders := ∅, isAgent := false, mode := .free, ncnt := 0 }
      gaps := ((t, .send (sendPostFree (bmv2Conf h) s.lock.id (s.lock.ncnt.setWidth 8)
        s.lock.mode)), s.current t) :: s.gaps
      task := Function.update s.task t .idle } := by
  obtain ⟨queued, served, hi⟩ := ho.base
  refine ⟨⟨_, _, hi.release_free (L := L) ht⟩, ?_, ?_⟩
  · refine ho.books.move rfl (fun _ => .rfl) (fun r hr => .inl hr) update_idle (fun x hx hk => ?_)
      (fun x hx => ?_) ho.books.waits fun t' ht' => absurd ht' (Finset.notMem_empty _)
    · rcases mem_flight.1 hx with hx | ⟨c, hx⟩
      · exact .of_mem (mem_flight.2 (.inl hx))
      · rcases List.mem_cons.1 hx with heq | hx
        · obtain ⟨⟨-, hp⟩, -⟩ := by simpa using heq
          rw [hp] at hk
          rcases hk with hk | hk <;> cases hk
        · exact .of_mem (mem_flight.2 (.inr ⟨c, hx⟩))
    · rcases List.mem_cons.1 hx with rfl | hx
      · refine .inr fun p hp => ?_
        cases hp
        exact nofun
      · exact .inl hx
  · exact ho.corpses.stay rfl rfl rfl rfl (fun _ => .rfl) fun _ _ _ _ _ _ _ _ => rfl

/-- The last task leaves, and the first waiter gets the lock. -/
lemma Orderly.release_handOver (ho : Orderly h lid s) (ht : s.task t = .holding)
    (hne : s.lock.holders ≠ ∅) {e : Wqe} {rest : List Wqe} (hq : s.lock.wqueue = e :: rest)
    {L : Finset TaskId} :
    Orderly h lid { s with
      lock := { s.lock with
        localHolders := L, holders := {(h, e.taskId)}, wqueue := rest, mode := e.op }
      gaps := ((t, .notify e.taskId), s.current t) :: s.gaps
      wqCalls := rest.map fun e => s.current e.taskId
      holderCall := Function.update s.holderCall e.taskId (s.current e.taskId)
      task := Function.update s.task t .idle } := by
  obtain ⟨queued, served, hi⟩ := ho.base
  have hflight : ∀ x : LockHdr × CallId,
      (∃ c, ((c, Gap.send x.1), x.2) ∈ ((t, Gap.notify e.taskId), s.current t) :: s.gaps) →
        ∃ c, ((c, Gap.send x.1), x.2) ∈ s.gaps := by
    rintro x ⟨c, hx⟩
    exact ⟨c, (List.mem_cons.1 hx).resolve_left fun heq => by simp at heq⟩
  refine ⟨⟨_, _, hi.release_handOver (L := L) ht hq⟩, ?_, ?_⟩
  · refine ho.books.move rfl (fun _ => .rfl) (fun r hr => .inl hr) update_idle
      (fun x hx _ => .of_mem (mem_flight.2 ((mem_flight.1 hx).imp_right (hflight x))))
      (fun x hx => ?_) rfl fun t' ht' => ?_
    · rcases List.mem_cons.1 hx with rfl | hx
      · exact .inr fun p hp => nomatch hp
      · exact .inl hx
    · obtain rfl : t' = e.taskId := congrArg Prod.snd (Finset.mem_singleton.1 ht')
      exact Function.update_self ..
  · refine ho.corpses.stay rfl rfl rfl rfl (fun _ => .rfl)
      (ho.corpses.alone_of (fun _ => .rfl) (fun x hx _ => ?_) fun he => absurd he hne)
    exact .of_mem (mem_flight.2 ((mem_flight.1 hx).imp_right (hflight x)))

lemma Orderly.release (ho : Orderly h lid s) (hlid : Served lid) (ht : s.task t = .holding) :
    Orderly h lid (releaseStep h s t) := by
  obtain ⟨queued, served, hi⟩ := ho.base
  have hheld := hi.task t
  rw [show (s.base queued served).task t = .holding from ht] at hheld
  have hholders : s.lock.holders = {(h, t)} := hi.holders_eq hheld.2.2.2
  have hne : s.lock.holders ≠ ∅ := hholders ▸ Finset.singleton_ne_empty _
  rcases lockRelease_excl (ho.inRange hlid) (hi.lock.agent hne).1 hholders
    (fun e he => (hi.lock.entries e he).2) with ⟨hq, L, f, hcode⟩ | ⟨e, rest, hq, L, f, hcode⟩
  · have hstep : releaseStep h s t = { s with
        lock := { s.lock with
          localHolders := L, holders := ∅, isAgent := false, mode := .free, ncnt := 0 }
        gaps := ((t, .send (sendPostFree (bmv2Conf h) s.lock.id (s.lock.ncnt.setWidth 8)
          s.lock.mode)), s.current t) :: s.gaps
        task := Function.update s.task t .idle } := by
      simp [releaseStep, hcode, State.pushGaps, gapsOf]
    rw [hstep]
    exact ho.release_free ht
  · have hcalls := ho.books.waits
    rw [hq, List.map_cons] at hcalls
    have hstep : releaseStep h s t = { s with
        lock := { s.lock with
          localHolders := L, holders := {(h, e.taskId)}, wqueue := rest, mode := e.op }
        gaps := ((t, .notify e.taskId), s.current t) :: s.gaps
        wqCalls := rest.map fun e => s.current e.taskId
        holderCall := Function.update s.holderCall e.taskId (s.current e.taskId)
        task := Function.update s.task t .idle } := by
      simp [releaseStep, hcode, State.pushGaps, gapsOf, hq, hcalls]
    rw [hstep]
    exact ho.release_handOver ht hne hq

/-! ## Threads that go on -/

lemma mem_gaps_of_append {a b : List ((TaskId × Gap) × CallId)} {g y : (TaskId × Gap) × CallId}
    (hg : s.gaps = a ++ g :: b) (hy : y ∈ a ++ b) : y ∈ s.gaps := by
  rw [hg]
  rcases List.mem_append.1 hy with hy | hy <;> simp [hy]

/-- A live packet is put at the end. -/
lemma Corpses.append (hc : Corpses h lid s) (hlive : ¬ s.Dead x)
    {gaps : List ((TaskId × Gap) × CallId)}
    (hflight : ∀ y ∈ State.flight { s with gaps := gaps, up := s.up ++ [x] }, y ∈ s.flight) :
    Corpses h lid { s with gaps := gaps, up := s.up ++ [x] } := by
  have hold : ∀ y ∈ s.up ++ [x], s.Dead y → y ∈ s.up := by
    intro y hy hd
    rcases List.mem_append.1 hy with hy | hy
    · exact hy
    · exact absurd (List.mem_singleton.1 hy ▸ hd) hlive
  refine ⟨fun y hy hd => hc.sent y (hold y hy hd) hd, hc.received, fun y hy hd => ?_, ?_,
    fun y hy hd => hc.taken y (hold y hy hd) hd, ?_,
    hc.alone_of (fun _ => .rfl) (fun y hy _ => .of_mem (hflight y hy)) id⟩
  · rcases List.mem_append.1 hy with hy | hy
    · exact hc.marked y (List.mem_append_left _ hy) hd
    · exact hc.marked y (List.mem_append_right _ (hold y hy hd)) hd
  · show (s.down ++ (s.up ++ [x])).Pairwise _
    rw [← List.append_assoc]
    refine List.pairwise_append.2 ⟨hc.first, List.pairwise_singleton _ _, fun y _ z hz hd => ?_⟩
    exact absurd (List.mem_singleton.1 hz ▸ hd) hlive
  · refine List.pairwise_append.2 ⟨hc.behind, List.pairwise_singleton _ _, fun y _ z hz hd => ?_⟩
    exact absurd (List.mem_singleton.1 hz ▸ hd) hlive

/-- A thread sends its packet. -/
lemma Orderly.resume_send (ho : Orderly h lid s) {a b : List ((TaskId × Gap) × CallId)}
    {p : LockHdr} {c : CallId} (hg : s.gaps = a ++ ((t, .send p), c) :: b) :
    Orderly h lid { s with gaps := a ++ b, up := s.up ++ [(p, c)] } := by
  obtain ⟨queued, served, hi⟩ := ho.base
  have hmem : ((t, Gap.send p), c) ∈ s.gaps := by simp [hg]
  have hlive : ¬ s.Dead (p, c) := fun hd => (ho.books.gap _ hmem p rfl hd.1).2 hd.2
  have hflight : ∀ x ∈ State.flight { s with gaps := a ++ b, up := s.up ++ [(p, c)] },
      x ∈ s.flight := by
    intro x hx
    rcases mem_flight.1 hx with (hx | hx) | ⟨c', hx⟩
    · exact mem_flight.2 (.inl (.inl hx))
    · rcases List.mem_append.1 hx with hx | hx
      · exact mem_flight.2 (.inl (.inr hx))
      · rw [List.mem_singleton.1 hx]
        exact mem_flight.2 (.inr ⟨t, hmem⟩)
    · exact mem_flight.2 (.inr ⟨c', mem_gaps_of_append hg hx⟩)
  refine ⟨⟨queued, served, ?_⟩, ?_, ho.corpses.append hlive hflight⟩
  · have hg' : (s.base queued served).gaps = a.map Prod.fst ++ (t, .send p) :: b.map Prod.fst := by
      simp [State.base, hg]
    have hbase : State.base { s with gaps := a ++ b, up := s.up ++ [(p, c)] } queued served
        = { s.base queued served with
            gaps := a.map Prod.fst ++ b.map Prod.fst, up := s.live s.up ++ [p] } := by
      have hup : s.live (s.up ++ [(p, c)]) = s.live s.up ++ [p] := by
        rw [live_append, live_cons hlive, live_nil]
      rw [← List.map_append, ← hup]
      rfl
    rw [hbase]
    exact hi.resume_send hg'
  · exact ho.books.move rfl (fun _ => .rfl) (fun r hr => .inl hr) (fun _ h => h)
      (fun x hx _ => .of_mem (hflight x hx)) (fun x hx => .inl (mem_gaps_of_append hg hx))
      ho.books.waits ho.books.holds

/-- A thread notifies the task it has handed the lock to. -/
lemma Orderly.resume_notify (ho : Orderly h lid s) {a b : List ((TaskId × Gap) × CallId)}
    {t' : TaskId} {c : CallId} (hg : s.gaps = a ++ ((t, .notify t'), c) :: b) :
    Orderly h lid { s with gaps := a ++ b, lock := lockLocalNotify s.lock t' } := by
  obtain ⟨queued, served, hi⟩ := ho.base
  have hflight : ∀ x ∈ State.flight { s with
      gaps := a ++ b, lock := lockLocalNotify s.lock t' }, x ∈ s.flight := by
    intro x hx
    refine mem_flight.2 ((mem_flight.1 hx).imp_right ?_)
    rintro ⟨c', hx⟩
    exact ⟨c', mem_gaps_of_append hg hx⟩
  refine ⟨?_, ?_, ?_⟩
  · have hg' : (s.base queued served).gaps = a.map Prod.fst ++ (t, .notify t') :: b.map Prod.fst := by
      simp [State.base, hg]
    have hstep := hi.resume_notify hg'
    rw [← List.map_append] at hstep
    exact ⟨_, _, hstep⟩
  · exact ho.books.move rfl (fun _ => .rfl) (fun r hr => .inl hr) (fun _ h => h)
      (fun x hx _ => .of_mem (hflight x hx)) (fun x hx => .inl (mem_gaps_of_append hg hx))
      ho.books.waits ho.books.holds
  · exact ho.corpses.stay rfl rfl rfl rfl (fun _ => .rfl)
      (ho.corpses.alone_of (fun _ => .rfl) (fun x hx _ => .of_mem (hflight x hx)) id)

/-! ## The switch -/

/-- What the switch does with a packet of the host, and what comes back. -/
lemma exchange_cases {c : Cell} {p : LockHdr} (hlid : Served lid) (hp : Sent h lid p)
    (hf : p.type = .free → c.free = LOCK_ACQUIRED) :
    (p.type = .acquire ∧ c.free = LOCK_FREE ∧ ∃ c', exchange h c p
        = (c', [{ p with type := .grantWithAgent, agent := h, transferred := false }]))
      ∨ (p.type = .acquire ∧ ∃ out, (out = [] ∨ ∃ a, out = [{ p with agent := a }])
        ∧ exchange h c p = (c, out))
      ∨ (p.type = .free ∧ ∃ c', exchange h c p = (c', [{ p with agent := 0 }])) := by
  have hr : p.id.toNat < 1024 := hp.id ▸ hlid
  rcases hp.kind with ⟨ht, hm, -, -⟩ | ⟨ht, ho⟩
  · cases hc : c.free with
    | false => exact .inl ⟨ht, rfl, _, exchange_request_free hr ht hm hc hp.machineId⟩
    | true =>
        refine .inr (.inl ⟨ht, _, ?_, exchange_request_taken ht hm fun _ => hc⟩)
        exact (ite_eq_or_eq _ _ _).symm.imp id fun e => ⟨_, e⟩
  · exact .inr (.inr ⟨ht, _, exchange_free hr ht ho (hf ht) hp.machineId⟩)

/-- A packet passes the switch.  It frees or grants the lock only if no dead request is behind
it. -/
lemma Corpses.switch (hc : Corpses h lid s) (hup : s.up = x :: rest) {c : Cell} {o : List LockHdr}
    (hout : o = [] ∨ ∃ p, o = [p])
    (hsame : ∀ p ∈ o, p.type = .acquire →
      x.1.type = .acquire ∧ p.taskId = x.1.taskId ∧ Received h p)
    (hrest : (c = s.cell ∧ ∀ p ∈ o, p.type ≠ .grantWithAgent) ∨ ∀ y ∈ rest, ¬ s.Dead y) :
    Corpses h lid { s with cell := c, up := rest, down := s.down ++ o.map fun p => (p, x.2) } := by
  have hdead : ∀ y ∈ o.map fun p => (p, x.2), y.1.type = .acquire → x.1.type = .acquire
      ∧ y.1.taskId = x.1.taskId ∧ Received h y.1 ∧ (s.Dead y → s.Dead x) := by
    intro y hy hya
    obtain ⟨p, hp, rfl⟩ := List.mem_map.1 hy
    obtain ⟨h1, h2, h3⟩ := hsame p hp hya
    exact ⟨h1, h2, h3, fun hd => ⟨h1, hd.2⟩⟩
  have hx : x ∈ s.up := hup ▸ List.mem_cons_self
  have hsub : ∀ y ∈ rest, y ∈ s.up := fun y hy => hup ▸ List.mem_cons_of_mem _ hy
  have hfirst := hc.first
  rw [hup, List.pairwise_append, List.pairwise_cons] at hfirst
  obtain ⟨hdd, ⟨hxr, hrr⟩, hcross⟩ := hfirst
  have hbehind := hc.behind
  rw [hup, List.pairwise_cons] at hbehind
  refine ⟨fun y hy hd => hc.sent y (hsub y hy) hd, fun y hy hd => ?_, fun y hy hd => ?_, ?_,
    fun y hy hd => ?_, hbehind.2, hc.alone_of (fun _ => .rfl) (fun y hy hya => ?_) id⟩
  · rcases List.mem_append.1 hy with hy | hy
    · exact hc.received y hy hd
    · exact (hdead y hy hd.1).2.2.1
  · rcases List.mem_append.1 hy with hy | hy
    · rcases List.mem_append.1 hy with hy | hy
      · exact hc.marked y (List.mem_append_left _ hy) hd
      · obtain ⟨-, htask, -, hdx⟩ := hdead y hy hd.1
        show s.lock.earlyRelease (h, y.1.taskId) = true
        rw [htask]
        exact hc.marked x (List.mem_append_right _ hx) (hdx hd)
    · exact hc.marked y (List.mem_append_right _ (hsub y hy)) hd
  · refine List.pairwise_append.2 ⟨List.pairwise_append.2 ⟨hdd, ?_, fun y hy z hz hd => ?_⟩, hrr,
      fun y hy z hz hd => ?_⟩
    · rcases hout with rfl | ⟨p, rfl⟩
      · exact .nil
      · exact List.pairwise_singleton _ _
    · obtain ⟨-, htask, -, hdx⟩ := hdead z hz hd.1
      rw [htask]
      exact hcross y hy x List.mem_cons_self (hdx hd)
    · rcases List.mem_append.1 hy with hy | hy
      · exact hcross y hy z (List.mem_cons_of_mem _ hz) hd
      · refine ⟨fun hg => ?_, fun hya => ?_⟩
        · rcases hrest with ⟨-, hng⟩ | hno
          · obtain ⟨p, hp, rfl⟩ := List.mem_map.1 hy
            exact hng p hp hg
          · exact hno z hz hd
        · obtain ⟨hxa, htask, -, -⟩ := hdead y hy hya
          rw [htask]
          exact (hxr z hz hd).2 hxa
  · rcases hrest with ⟨rfl, -⟩ | hno
    · exact hc.taken y (hsub y hy) hd
    · exact absurd hd (hno y hy)
  · rcases mem_flight.1 hy with (hy | hy) | hy
    · rcases List.mem_append.1 hy with hy | hy
      · exact .of_mem (mem_flight.2 (.inl (.inl hy)))
      · obtain ⟨hxa, htask, -, -⟩ := hdead y hy hya
        obtain ⟨p, -, rfl⟩ := List.mem_map.1 hy
        exact ⟨x, mem_flight.2 (.inl (.inr hx)), htask.symm, rfl, .inl (hxa.trans hya.symm)⟩
    · exact .of_mem (mem_flight.2 (.inl (.inr (hsub y hy))))
    · exact .of_mem (mem_flight.2 (.inr hy))

/-- The books when a packet passes the switch. -/
lemma Books.switch (hb : Books h s) (hup : s.up = x :: rest) {c : Cell} {o : List LockHdr}
    (hstems : ∀ p ∈ o, p.type = .acquire ∨ p.type = .grantWithAgent → s.Stems (p, x.2)) :
    Books h { s with cell := c, up := rest, down := s.down ++ o.map fun p => (p, x.2) } := by
  refine hb.move rfl (fun _ => .rfl) (fun r hr => .inl hr) (fun _ h => h) (fun y hy hk => ?_)
    (fun y hy => .inl hy) hb.waits hb.holds
  rcases mem_flight.1 hy with (hy | hy) | hy
  · rcases List.mem_append.1 hy with hy | hy
    · exact .of_mem (mem_flight.2 (.inl (.inl hy)))
    · obtain ⟨p, hp, rfl⟩ := List.mem_map.1 hy
      exact hstems p hp hk
  · exact .of_mem (mem_flight.2 (.inl (.inr (hup ▸ List.mem_cons_of_mem _ hy))))
  · exact .of_mem (mem_flight.2 (.inr hy))

lemma live_map {c : CallId} {out : List LockHdr} (hout : ∀ p ∈ out, ¬ s.Dead (p, c)) :
    s.live (out.map fun p => (p, c)) = out := by
  induction out with
  | nil => rfl
  | cons p out ih =>
      rw [List.map_cons, live_cons (hout p List.mem_cons_self),
        ih fun q hq => hout q (List.mem_cons_of_mem _ hq)]

/-- `OneHost` does not see a dead request pass the switch. -/
lemma Orderly.base_switch_dead (ho : Orderly h lid s) (hup : s.up = x :: rest) (hd : s.Dead x)
    {out : List LockHdr} (hout : ∀ p ∈ out, s.Dead (p, x.2)) :
    ∃ queued served, OneHost.Inv h lid (State.base { s with
      up := rest, down := s.down ++ out.map fun p => (p, x.2) } queued served) := by
  obtain ⟨queued, served, hi⟩ := ho.base
  have hnil : s.live (out.map fun p => (p, x.2)) = [] := by
    refine List.map_eq_nil_iff.2 (List.filter_eq_nil_iff.2 fun y hy => ?_)
    obtain ⟨p, hp, rfl⟩ := List.mem_map.1 hy
    simp [hout p hp]
  have hrest : s.live rest = s.live s.up := by rw [hup, live_cons_dead hd]
  have hdown : s.live (s.down ++ out.map fun p => (p, x.2)) = s.live s.down := by
    rw [live_append, hnil, List.append_nil]
  have hbase : State.base { s with up := rest, down := s.down ++ out.map fun p => (p, x.2) }
      queued served = s.base queued served := by
    rw [State.base, State.base, ← hrest, ← hdown]
    rfl
  exact ⟨queued, served, hbase ▸ hi⟩

/-- For any other packet it takes its step. -/
lemma Orderly.base_switch (ho : Orderly h lid s) (hup : s.up = x :: rest) (hlive : ¬ s.Dead x)
    {c : Cell} {out : List LockHdr} (hex : exchange h s.cell x.1 = (c, out))
    (hout : ∀ p ∈ out, ¬ s.Dead (p, x.2)) :
    ∃ queued served, OneHost.Inv h lid (State.base { s with
      cell := c, up := rest, down := s.down ++ out.map fun p => (p, x.2) } queued served) := by
  obtain ⟨queued, served, hi⟩ := ho.base
  have hup' : (s.base queued served).up = x.1 :: s.live rest := by
    simp only [State.base]
    rw [hup, live_cons hlive]
  have hdown : s.live (s.down ++ out.map fun p => (p, x.2)) = s.live s.down ++ out := by
    rw [live_append, live_map hout]
  have hstep := hi.switch hup'
  rw [show (s.base queued served).cell = s.cell from rfl, hex] at hstep
  have hbase : State.base { s with
      cell := c, up := rest, down := s.down ++ out.map fun p => (p, x.2) } queued served
      = { s.base queued served with cell := c, up := s.live rest, down := s.live s.down ++ out } := by
    rw [← hdown]
    rfl
  exact ⟨queued, served, hbase ▸ hstep⟩

/-- A request that the switch sends back, or that is lost. -/
lemma Orderly.switch_forward (ho : Orderly h lid s) (hup : s.up = x :: rest)
    (ha : x.1.type = .acquire) {out : List LockHdr}
    (hout : out = [] ∨ ∃ a, out = [{ x.1 with agent := a }])
    (hex : exchange h s.cell x.1 = (s.cell, out)) :
    Orderly h lid { s with up := rest, down := s.down ++ out.map fun p => (p, x.2) } := by
  have hx : x ∈ s.up := hup ▸ List.mem_cons_self
  have hsent := ho.sent hx
  have hkind := hsent.kind.resolve_right fun hk => absurd (ha.symm.trans hk.1) (by decide)
  have hmem : ∀ p ∈ out, ∃ a, p = { x.1 with agent := a } := by
    intro p hp
    rcases hout with rfl | ⟨a, rfl⟩
    · cases hp
    · exact ⟨a, List.mem_singleton.1 hp⟩
  refine ⟨?_, ho.books.switch hup fun p hp _ => ?_,
    ho.corpses.switch hup (hout.imp_right fun ⟨a, ha⟩ => ⟨_, ha⟩) (fun p hp _ => ?_)
      (.inl ⟨rfl, fun p hp => ?_⟩)⟩
  · by_cases hd : s.Dead x
    · refine ho.base_switch_dead hup hd fun p hp => ?_
      obtain ⟨a, rfl⟩ := hmem p hp
      exact hd
    · exact ho.base_switch hup hd hex fun p _ hdp => hd ⟨ha, hdp.2⟩
  · obtain ⟨a, rfl⟩ := hmem p hp
    exact ⟨x, mem_flight.2 (.inl (.inr hx)), rfl, rfl, .inl rfl⟩
  · obtain ⟨a, rfl⟩ := hmem p hp
    exact ⟨ha, rfl, .inl ⟨ha, hkind.2.1, hkind.2.2.1, hsent.machineId, hkind.2.2.2⟩⟩
  · obtain ⟨a, rfl⟩ := hmem p hp
    exact fun hg => absurd (ha.symm.trans hg) (by decide)

/-- A request that the switch grants.  The lock was free, so there are no dead requests before
it. -/
lemma Orderly.switch_grant (ho : Orderly h lid s) (hup : s.up = x :: rest)
    (ha : x.1.type = .acquire) (hfree : s.cell.free = LOCK_FREE) {c : Cell}
    (hex : exchange h s.cell x.1
      = (c, [{ x.1 with type := .grantWithAgent, agent := h, transferred := false }])) :
    Orderly h lid { s with
      cell := c
      up := rest
      down := s.down
        ++ [({ x.1 with type := .grantWithAgent, agent := h, transferred := false }, x.2)] } := by
  have hx : x ∈ s.up := hup ▸ List.mem_cons_self
  have hnone : ∀ y ∈ s.up, ¬ s.Dead y := fun y hy hd =>
    absurd ((ho.corpses.taken y hy hd).symm.trans hfree) (by decide)
  refine ⟨ho.base_switch hup (hnone x hx) hex fun p hp hd => ?_,
    ho.books.switch (o := [_]) hup fun p hp _ => ?_,
    ho.corpses.switch (o := [_]) hup (.inr ⟨_, rfl⟩) (fun p hp hpa => ?_) (.inr fun y hy => ?_)⟩
  · rw [List.mem_singleton.1 hp] at hd
    exact absurd hd.1 nofun
  · rw [List.mem_singleton.1 hp]
    exact ⟨x, mem_flight.2 (.inl (.inr hx)), rfl, rfl, .inr ⟨ha, hnone x hx, rfl⟩⟩
  · rw [List.mem_singleton.1 hp] at hpa
    exact absurd hpa nofun
  · exact hnone y (hup ▸ List.mem_cons_of_mem _ hy)

/-- The switch frees the lock.  No dead request is behind the packet. -/
lemma Orderly.switch_free (ho : Orderly h lid s) (hup : s.up = x :: rest) (hf : x.1.type = .free)
    {c : Cell} (hex : exchange h s.cell x.1 = (c, [{ x.1 with agent := 0 }])) :
    Orderly h lid { s with
      cell := c, up := rest, down := s.down ++ [({ x.1 with agent := 0 }, x.2)] } := by
  have hlive : ¬ s.Dead x := fun hd => absurd (hd.1.symm.trans hf) (by decide)
  have hbehind := ho.corpses.behind
  rw [hup, List.pairwise_cons] at hbehind
  refine ⟨ho.base_switch hup hlive hex fun p hp hd => ?_,
    ho.books.switch (o := [_]) hup fun p hp hk => ?_,
    ho.corpses.switch (o := [_]) hup (.inr ⟨_, rfl⟩) (fun p hp hpa => ?_)
      (.inr fun y hy hd => hbehind.1 y hy hd hf)⟩
  · rw [List.mem_singleton.1 hp] at hd
    exact absurd (hf.symm.trans hd.1) (by decide)
  · rw [List.mem_singleton.1 hp] at hk
    rcases hk with hk | hk <;> exact absurd (hf.symm.trans hk) (by decide)
  · rw [List.mem_singleton.1 hp] at hpa
    exact absurd (hf.symm.trans hpa) (by decide)

lemma Orderly.switch (ho : Orderly h lid s) (hlid : Served lid) (hup : s.up = x :: rest) :
    Orderly h lid { s with
      cell := (exchange h s.cell x.1).1
      up := rest
      down := s.down ++ (exchange h s.cell x.1).2.map fun p => (p, x.2) } := by
  have hfree : x.1.type = .free → s.cell.free = LOCK_ACQUIRED := by
    intro hf
    obtain ⟨queued, served, hi⟩ := ho.base
    have hlive : ¬ s.Dead x := fun hd => absurd (hd.1.symm.trans hf) (by decide)
    have hup' : (s.base queued served).up = x.1 :: s.live rest := by
      simp only [State.base]
      rw [hup, live_cons hlive]
    exact hi.acquired_of_free hup' hf
  rcases exchange_cases hlid (ho.sent (hup ▸ List.mem_cons_self)) hfree with
    ⟨ha, hc, c', hex⟩ | ⟨ha, out, hout, hex⟩ | ⟨hf, c', hex⟩
  · rw [hex]
    exact ho.switch_grant hup ha hc hex
  · rw [hex]
    exact ho.switch_forward hup ha hout hex
  · rw [hex]
    exact ho.switch_free hup hf hex

/-! ## The host receives -/

/-- A packet arrives, and the metadata become `l`. -/
lemma Corpses.receive (hc : Corpses h lid s) (hb : Books h s) (hdown : s.down = x :: rest)
    {l : InnetLock} {wqCalls : List CallId} {holderCall : TaskId → CallId}
    (hmark : ∀ y ∈ rest ++ s.up, s.Dead y → l.earlyRelease (h, y.1.taskId) = true)
    (hholders : (s.lock.holders = ∅ → l.holders = ∅) ∨ ∀ y ∈ rest ++ s.up, ¬ s.Dead y) :
    Corpses h lid { s with
      lock := l, down := rest, wqCalls := wqCalls, holderCall := holderCall } := by
  have hfirst := hc.first
  rw [hdown, List.cons_append, List.pairwise_cons] at hfirst
  have hflight : ∀ y ∈ State.flight { s with
      lock := l, down := rest, wqCalls := wqCalls, holderCall := holderCall }, y ∈ s.flight := by
    intro y hy
    refine mem_flight.2 ((mem_flight.1 hy).imp_left fun hy => hy.imp_left fun hy => ?_)
    exact hdown ▸ List.mem_cons_of_mem _ hy
  refine ⟨hc.sent, fun y hy hd => hc.received y (hdown ▸ List.mem_cons_of_mem _ hy) hd, hmark,
    hfirst.2, hc.taken, hc.behind, ?_⟩
  rcases hholders with hholders | hnone
  · exact hc.alone_of (fun _ => .rfl) (fun y hy _ => .of_mem (hflight y hy)) hholders
  · intro y hy hd
    rcases mem_flight.1 hy with hy | ⟨t, hy⟩
    · exact absurd hd (hnone y (List.mem_append.2 hy))
    · exact absurd hd.2 (hb.gap _ hy y.1 rfl hd.1).2

/-- The books when a packet arrives. -/
lemma Books.receive (hb : Books h s) (hdown : s.down = x :: rest)
    {l : InnetLock} {wqCalls : List CallId} {holderCall : TaskId → CallId}
    (hwaits : wqCalls = l.wqueue.map fun e => s.current e.taskId)
    (hholds : ∀ t, (h, t) ∈ l.holders → holderCall t = s.current t) :
    Books h { s with
      lock := l, down := rest, wqCalls := wqCalls, holderCall := holderCall } := by
  refine hb.move rfl (fun _ => .rfl) (fun r hr => .inl hr) (fun _ h => h) (fun y hy hk => ?_)
    (fun y hy => .inl hy) hwaits hholds
  refine .of_mem (mem_flight.2 ((mem_flight.1 hy).imp_left fun hy => hy.imp_left fun hy => ?_))
  exact hdown ▸ List.mem_cons_of_mem _ hy

/-- The host does not answer, and queues a request. -/
lemma receiveStep_append {l : InnetLock} {e : Wqe} (hng : x.1.type ≠ .grantWithAgent)
    (hsent : (lockPacketProcess (bmv2Conf h) s.lock x.1).sent = [])
    (hlock : (lockPacketProcess (bmv2Conf h) s.lock x.1).lock = l)
    (hw : l.wqueue = s.lock.wqueue ++ [e]) (hh : l.holders ⊆ s.lock.holders) :
    receiveStep h s x rest
      = { s with lock := l, down := rest, wqCalls := s.wqCalls ++ [x.2] } := by
  have hno : ¬ (x.1.holder ∉ s.lock.holders ∧ x.1.holder ∈ l.holders) := fun hx => hx.1 (hh hx.2)
  simp [receiveStep, hsent, hlock, wqCallsAfter, hw, hng, hno]

/-- A request meets a mark. -/
lemma Orderly.receive_marked (ho : Orderly h lid s) (hdown : s.down = x :: rest)
    (ha : x.1.type = .acquire) :
    Orderly h lid { s with
      lock := { s.lock with
        earlyRelease := Function.update s.lock.earlyRelease (h, x.1.taskId) false }
      down := rest } := by
  obtain ⟨queued, served, hi⟩ := ho.base
  have hfirst := ho.corpses.first
  rw [hdown, List.cons_append, List.pairwise_cons] at hfirst
  refine ⟨⟨queued, served, ?_⟩, ho.books.receive hdown ho.books.waits ho.books.holds,
    ho.corpses.receive ho.books hdown (fun y hy hd => ?_) (.inl id)⟩
  · by_cases hd : s.Dead x
    · have hbase : s.live s.down = s.live rest := by rw [hdown, live_cons_dead hd]
      have hi' := hi
      rw [State.base, hbase] at hi'
      exact hi'
    · have hdown' : (s.base queued served).down = x.1 :: s.live rest := by
        simp only [State.base]
        rw [hdown, live_cons hd]
      exact hi.receive_drop hdown' ha
  · -- it was the first request of its task
    have hne := (hfirst.1 y hy hd).2 ha
    have hold := ho.corpses.marked y (by rw [hdown]; exact List.mem_cons_of_mem _ hy) hd
    exact (Function.update_of_ne (fun heq => hne (congrArg Prod.snd heq).symm) _ _).trans hold

/-- What `OneHost` sees of a live packet that arrives. -/
lemma base_down (hdown : s.down = x :: rest) (hlive : ¬ s.Dead x) {queued served : List TaskId} :
    (s.base queued served).down = x.1 :: s.live rest := by
  simp only [State.base]
  rw [hdown, live_cons hlive]

/-- A request that came back is queued. -/
lemma Orderly.receive_queue (ho : Orderly h lid s) (hdown : s.down = x :: rest)
    (ha : x.1.type = .acquire) (hlive : ¬ s.Dead x) (hm : x.1.machineId = h)
    (hb : x.1.taskId.toNat < 2 ^ 30) {fb : LockHolder → ℕ} :
    Orderly h lid { s with
      lock := { s.lock with
        fwdBackCnt := fb
        wqueue := s.lock.wqueue ++ [Wqe.ofReq .excl x.1.taskId x.1.machineId] }
      down := rest
      wqCalls := s.wqCalls ++ [x.2] } := by
  obtain ⟨queued, served, hi⟩ := ho.base
  have hx : x ∈ s.flight := mem_flight.2 (.inl (.inl (hdown ▸ List.mem_cons_self)))
  have hcur := (ho.books.packet x hx (.inl ha)).2.resolve_left hlive
  refine ⟨⟨_, _, hi.receive_queue (base_down hdown hlive) ha hm hb⟩,
    ho.books.receive hdown ?_ ho.books.holds,
    ho.corpses.receive ho.books hdown (fun y hy hd => ?_) (.inl id)⟩
  · rw [List.map_append, ← ho.books.waits, hcur]
    simp [Wqe.taskId_ofReq hb]
  · exact ho.corpses.marked y (by rw [hdown]; exact List.mem_cons_of_mem _ hy) hd

/-- A request that came back is dropped. -/
lemma Orderly.receive_drop (ho : Orderly h lid s) (hdown : s.down = x :: rest)
    (ha : x.1.type = .acquire) (hlive : ¬ s.Dead x) {fb : LockHolder → ℕ} :
    Orderly h lid { s with lock := { s.lock with fwdBackCnt := fb }, down := rest } := by
  obtain ⟨queued, served, hi⟩ := ho.base
  refine ⟨⟨_, _, hi.receive_drop (base_down hdown hlive) ha⟩,
    ho.books.receive hdown ho.books.waits ho.books.holds,
    ho.corpses.receive ho.books hdown (fun y hy hd => ?_) (.inl id)⟩
  exact ho.corpses.marked y (by rw [hdown]; exact List.mem_cons_of_mem _ hy) hd

/-- The echo of our own `FREE`. -/
lemma Orderly.receive_echo (ho : Orderly h lid s) (hdown : s.down = x :: rest)
    (hf : x.1.type = .free) (hold : x.1.oldMode = LOCK_EXCL) {n : BitVec 32} :
    Orderly h lid { s with
      lock := { s.lock with mode := x.1.oldModeState, isAgent := true, ncnt := n }
      down := rest } := by
  obtain ⟨queued, served, hi⟩ := ho.base
  have hlive : ¬ s.Dead x := fun hd => absurd (hd.1.symm.trans hf) (by decide)
  refine ⟨⟨_, _, hi.receive_echo (base_down hdown hlive) hf hold⟩,
    ho.books.receive hdown ho.books.waits ho.books.holds,
    ho.corpses.receive ho.books hdown (fun y hy hd => ?_) (.inl id)⟩
  exact ho.corpses.marked y (by rw [hdown]; exact List.mem_cons_of_mem _ hy) hd

/-- A grant arrives.  No dead request is behind it. -/
lemma Orderly.receive_grant (ho : Orderly h lid s) (hdown : s.down = x :: rest)
    (hg : x.1.type = .grantWithAgent) :
    Orderly h lid { s with
      lock := grantedLock h s.lock x.1.taskId
      down := rest
      holderCall := Function.update s.holderCall x.1.taskId x.2 } := by
  obtain ⟨queued, served, hi⟩ := ho.base
  have hlive : ¬ s.Dead x := fun hd => absurd (hd.1.symm.trans hg) (by decide)
  have hx : x ∈ s.flight := mem_flight.2 (.inl (.inl (hdown ▸ List.mem_cons_self)))
  have hcur := (ho.books.packet x hx (.inr hg)).2.resolve_left hlive
  have hfirst := ho.corpses.first
  rw [hdown, List.cons_append, List.pairwise_cons] at hfirst
  have hnone : ∀ y ∈ rest ++ s.up, ¬ s.Dead y := fun y hy hd => (hfirst.1 y hy hd).1 hg
  refine ⟨⟨_, _, hi.receive_grant (base_down hdown hlive) hg⟩,
    ho.books.receive hdown ho.books.waits fun t ht => ?_,
    ho.corpses.receive ho.books hdown (fun y hy hd => absurd hd (hnone y hy)) (.inr hnone)⟩
  by_cases htt : t = x.1.taskId
  · rw [htt, Function.update_self]
    exact hcur
  · rw [Function.update_of_ne htt]
    refine ho.books.holds t ((Finset.mem_insert.1 ht).resolve_left fun heq => ?_)
    exact htt (congrArg Prod.snd heq)

lemma Orderly.receive (ho : Orderly h lid s) (hlid : Served lid) (hdown : s.down = x :: rest) :
    Orderly h lid (receiveStep h s x rest) := by
  have hr := ho.inRange hlid
  have hx : x ∈ s.down := hdown ▸ List.mem_cons_self
  rcases ho.received hx with ⟨ha, hm, hg, hmid, hb⟩ | ⟨hg, hm, htr, hb⟩ | ⟨hf, hold⟩
  · have hng : ¬ x.1.type = .grantWithAgent := by rw [ha]; decide
    have hholder : x.1.holder = (h, x.1.taskId) := by rw [← hmid]; rfl
    cases hmark : s.lock.earlyRelease x.1.holder with
    | true =>
        obtain ⟨hsent, hlock⟩ := TryAcquire.receive_marked (h := h) hr ha hm hmark
        rw [receiveStep_keep hng hsent hlock rfl (Finset.Subset.refl _), hholder]
        exact ho.receive_marked hdown ha
    | false =>
        have hlive : ¬ s.Dead x := fun hd => by
          have := ho.corpses.marked x (List.mem_append_left _ hx) hd
          rw [← hholder, hmark] at this
          cases this
        obtain ⟨hsent, fb, ⟨-, hlock⟩ | hlock⟩ := receive_request (h := h) hr ha hm hg hmark
        · rw [receiveStep_keep hng hsent hlock rfl (Finset.Subset.refl _)]
          exact ho.receive_drop hdown ha hlive
        · rw [receiveStep_append hng hsent hlock rfl (Finset.Subset.refl _)]
          exact ho.receive_queue hdown ha hlive hmid hb
  · have hid : x.1.taskId ≠ TASK_FOR_RESTORE := by
      intro he
      rw [he] at hb
      exact absurd hb (by decide)
    obtain ⟨hsent, hlock⟩ := OneHost.receive_grant (h := h) (l := s.lock) hg hm htr hid
    have hstep : receiveStep h s x rest = { s with
        lock := grantedLock h s.lock x.1.taskId
        down := rest
        holderCall := Function.update s.holderCall x.1.taskId x.2 } := by
      simp [receiveStep, hsent, hlock, wqCallsAfter, hg, grantedLock, lockLocalNotify]
    rw [hstep]
    exact ho.receive_grant hdown hg
  · have hng : ¬ x.1.type = .grantWithAgent := by rw [hf]; decide
    obtain ⟨queued, served, hi⟩ := ho.base
    have hdelay : s.lock.delayedFree = false := hi.lock.noDelay
    obtain ⟨hsent, n, hlock⟩ := OneHost.receive_echo (h := h) hf hdelay
    rw [receiveStep_keep hng hsent hlock rfl (Finset.Subset.refl _)]
    exact ho.receive_echo hdown hf hold

/-! ## Every run -/

lemma orderly_init (h : HostId) (lid : LockId) : Orderly h lid (State.init lid) where
  base := ⟨[], [], OneHost.inv_init h lid⟩
  books := by constructor <;> simp [State.init, State.flight, InnetLock.init]
  corpses := by constructor <;> simp [State.init, State.flight]

theorem orderly_step (hlid : Served lid) {e : Event} (ho : Orderly h lid s) (hok : Guarded h s e)
    (hs : step h s e = some s') : Orderly h lid s' := by
  have hid : s.lock.id = lid := by
    obtain ⟨queued, served, hi⟩ := ho.base
    exact hi.lock.id
  rcases step_cases hs with ⟨t, rfl, ht, -, rfl⟩ | ⟨t, ht, hf, rfl⟩ | ⟨t, rfl, ht, hready, rfl⟩ |
    ⟨t, ht, -, rfl⟩ | ⟨a, b, t, p, c, hg, rfl⟩ | ⟨a, b, t, t', c, hg, rfl⟩ | ⟨x, rest, hup, rfl⟩ |
    ⟨x, rest, -, hdown, rfl⟩
  · exact ho.acquire hlid ht (hok.1 (hid ▸ hlid))
  · exact ho.poll ht hf
  · obtain ⟨⟨lh, hlh, -⟩, hnot, hq⟩ := hok (hid ▸ hlid)
    exact ho.timeout hlid ht hready (Finset.ne_empty_of_mem hlh) hnot hq
  · exact ho.release hlid ht
  · exact ho.resume_send hg
  · exact ho.resume_notify hg
  · exact ho.switch hlid hup
  · exact ho.receive hlid hdown

end TryAcquire
end FissLock
