import FissLock.Library.RemoteLock

/-!
# Programs whose clients reach a lock over a network

A program is related to `RemoteLock` client by client.  Every message belongs to one client at most
(`owner`), and a client looks like a stage of its request (`Shows`) if its own messages and whatever
else the program keeps of it are as they are to be at that stage.  `Shown` says that all clients look
like their stages, and a step of the program is one of three kinds:

* `Shown.turn` — one client moves on, by messages of its own;
* `Shown.foreign` — messages move that belong to nobody;
* `Shown.arrive` and `Shown.left` — the lock is reached, and grants are sent to those who get it.

`run_bound` bounds the steps of the program by its requests.
-/

namespace RemoteLock

open Runs ReadersWriter

variable {α M : Type*} [DecidableEq α]

/-- The messages of a client. -/
def own (owner : M → Option α) (net : Multiset M) (a : α) : Multiset M :=
  net.filter fun m => owner m = some a

/-- All clients look like their stages. -/
def Shown (owner : M → Option α) (Shows : α → Multiset M → Stage → Prop) (net : Multiset M)
    (stage : α → Stage) : Prop :=
  ∀ a, Shows a (own owner net a) (stage a)

section Own

variable {owner : M → Option α} {net net' : Multiset M} {a : α} {m : M}

@[simp] lemma own_add : own owner (net + net') a = own owner net a + own owner net' a :=
  Multiset.filter_add ..

@[simp] lemma own_zero : own owner 0 a = 0 := rfl

lemma mem_own : m ∈ own owner net a ↔ m ∈ net ∧ owner m = some a := Multiset.mem_filter

lemma own_eq_self (h : ∀ m ∈ net, owner m = some a) : own owner net a = net :=
  Multiset.filter_eq_self.2 h

lemma own_eq_zero (h : ∀ m ∈ net, owner m ≠ some a) : own owner net a = 0 :=
  Multiset.filter_eq_nil.2 h

/-- Messages to clients that are all different. -/
lemma own_map {gs : List α} {msg : α → M} (hnd : gs.Nodup) (h : ∀ b ∈ gs, owner (msg b) = some b) :
    own owner (gs.map msg : List M) a = if a ∈ gs then {msg a} else 0 := by
  split
  · next ha =>
      rw [List.nodup_iff_count_le_one] at hnd
      have hone : gs.filter (fun b => owner (msg b) = some a) = [a] := by
        have hiff : ∀ b ∈ gs, (owner (msg b) = some a ↔ b = a) := fun b hb => by simp [h b hb]
        rw [List.filter_congr fun b hb => decide_eq_decide.2 (hiff b hb), List.filter_eq,
          le_antisymm (hnd a) (List.count_pos_iff.2 ha)]
        rfl
      rw [own, Multiset.filter_coe, List.filter_map]
      exact congrArg (fun l : List α => ((l.map msg : List M) : Multiset M)) hone
  · next ha =>
      refine own_eq_zero fun m hm hown => ha ?_
      obtain ⟨b, hb, rfl⟩ := List.mem_map.1 (Multiset.mem_coe.1 hm)
      exact Option.some.inj ((h b hb).symm.trans hown) ▸ hb

/-- A message is taken out of those under way. -/
lemma coe_eq_singleton_add {l : List M} {i : ℕ} (h : l[i]? = some m) :
    (l : Multiset M) = {m} + (l.eraseIdx i : List M) := by
  obtain ⟨hi, rfl⟩ := List.getElem?_eq_some_iff.1 h
  rw [Multiset.singleton_add, Multiset.cons_coe, Multiset.coe_eq_coe]
  exact (List.getElem_cons_eraseIdx_perm hi).symm

end Own

/-! ## The steps of a program -/

section Steps

variable {owner : M → Option α} {Shows Shows' : α → Multiset M → Stage → Prop}
  {used made rest net : Multiset M} {stage : α → Stage} {a : α} {st : Stage}

/-- A client uses up all its messages, makes new ones, and so comes to another stage. -/
lemma Shown.turn (h : Shown owner Shows (used + rest) stage)
    (hused : own owner (used + rest) a = used) (hmade : ∀ m ∈ made, owner m = some a)
    (hself : Shows' a made st)
    (hothers : ∀ b ≠ a, ∀ ms, Shows b ms (stage b) → Shows' b ms (stage b)) :
    Shown owner Shows' (made + rest) (Function.update stage a st) := by
  have hmine : ∀ m ∈ used, owner m = some a := fun m hm => (mem_own.1 (hused ▸ hm)).2
  intro b
  by_cases hba : b = a
  · subst hba
    have hrest : own owner rest b = 0 := by
      rw [own_add, own_eq_self hmine] at hused
      exact add_eq_left.1 hused
    rw [Function.update_self, own_add, own_eq_self hmade, hrest, add_zero]
    exact hself
  · have hne : ∀ {m}, owner m = some a → owner m ≠ some b :=
      fun hm hm' => hba (Option.some.inj (hm'.symm.trans hm))
    have hb := h b
    rw [own_add, own_eq_zero fun m hm => hne (hmine m hm), zero_add] at hb
    rw [Function.update_of_ne hba, own_add, own_eq_zero fun m hm => hne (hmade m hm), zero_add]
    exact hothers b hba _ hb

/-- Messages of nobody come and go. -/
lemma Shown.foreign (h : Shown owner Shows (used + rest) stage)
    (hused : ∀ m ∈ used, owner m = none) (hmade : ∀ m ∈ made, owner m = none)
    (hall : ∀ b ms, Shows b ms (stage b) → Shows' b ms (stage b)) :
    Shown owner Shows' (made + rest) stage := by
  intro b
  have hb := h b
  rw [own_add, own_eq_zero fun m hm => by simp [hused m hm], zero_add] at hb
  rw [own_add, own_eq_zero fun m hm => by simp [hmade m hm], zero_add]
  exact hall b _ hb

/-- Grants are sent to clients that wait. -/
lemma Shown.serve {gs : List α} {msg : α → M} {down : ℕ} (h : Shown owner Shows net stage)
    (hnd : gs.Nodup) (hmsg : ∀ b ∈ gs, owner (msg b) = some b)
    (hq : ∀ b ∈ gs, ∃ x, stage b = .queued x)
    (hgrant : ∀ b x ms, b ∈ gs → Shows b ms (.queued x) → Shows b ({msg b} + ms) (.granted x down)) :
    Shown owner Shows ((gs.map msg : List M) + net) (served down stage gs) := by
  intro b
  have hb := h b
  rw [own_add, own_map hnd hmsg]
  by_cases hbg : b ∈ gs
  · obtain ⟨x, hx⟩ := hq b hbg
    rw [hx] at hb
    rw [if_pos hbg, served_of_mem hbg, hx]
    exact hgrant b x _ hbg hb
  · rw [if_neg hbg, zero_add, served_of_not_mem hbg]
    exact hb

variable {t : State α} {msg : α → M} {down : ℕ} {x : Bool}

/-- A request has reached the lock. -/
lemma Shown.arrive (hi : Inv t) (hst : t.stage a = .asking x 0)
    (h : Shown owner Shows net (Function.update t.stage a (.queued x)))
    (hmsg : ∀ b, owner (msg b) = some b)
    (hgrant : ∀ b y ms, Shows b ms (.queued y) → Shows b ({msg b} + ms) (.granted y down)) :
    Shown owner Shows
      (((acquire t.lock.phase t.lock.queue a x).grantees.map msg : List M) + net)
      (t.arrive down a x).stage :=
  have hands := hi.hands_arrive down hst
  h.serve hands.nodup (fun b _ => hmsg b) (fun _ hb => hands.queued hi hb)
    fun b y ms _ => hgrant b y ms

/-- A release has reached the lock. -/
lemma Shown.left (hi : Inv t) (hst : t.stage a = .leaving x 0)
    (h : Shown owner Shows net (Function.update t.stage a .idle))
    (hmsg : ∀ b, owner (msg b) = some b)
    (hgrant : ∀ b y ms, Shows b ms (.queued y) → Shows b ({msg b} + ms) (.granted y down)) :
    Shown owner Shows
      (((release t.lock.phase t.lock.queue a).grantees.map msg : List M) + net)
      (t.left down a).stage :=
  have hands := hi.hands_left down hst
  h.serve hands.nodup (fun b _ => hmsg b) (fun _ hb => hands.queued hi hb)
    fun b y ms _ => hgrant b y ms

end Steps

/-! ## Readers first -/

section Readers

variable {up down : ℕ} {s s' : State α}

/-- A lock whose clients are remote lets no reader wait for readers, either. -/
lemma readerFirst_step {e : Event α} (hi : Inv s) (hr : ReaderFirst s.lock)
    (h : s.step up down e = some s') : ReaderFirst s'.lock := by
  refine ⟨(inv_step hi h).lock, ?_⟩
  cases e with
  | ask a x n =>
      simp only [State.step] at h
      split at h
      · exact Option.some.inj h ▸ hr.readers_nil
      · cases h
  | hop a =>
      obtain ⟨st, -, rfl⟩ := Option.map_eq_some_iff.1 h
      exact hr.readers_nil
  | arrive a =>
      simp only [State.step] at h
      split at h
      · next x hs =>
          have hk := hi.known a
          rw [hs] at hk
          exact Option.some.inj h ▸ (readerFirst_acquire hr hk x).readers_nil
      · cases h
  | notice a =>
      simp only [State.step] at h
      split at h
      · exact Option.some.inj h ▸ hr.readers_nil
      · cases h
  | leave a n =>
      simp only [State.step] at h
      split at h
      · split at h
        · exact Option.some.inj h ▸ hr.readers_nil
        · cases h
      · cases h
  | left a =>
      simp only [State.step] at h
      split at h
      · next x hs =>
          have hk := hi.known a
          rw [hs] at hk
          have hg : 0 < s.lock.hist.grants a := by
            rw [hk.2]
            exact Nat.one_pos
          have hleft := (readerFirst_leave hr (by rw [hk.1]; exact Option.some_ne_none x)).readers_nil
          rw [leave, if_pos hg] at hleft
          exact Option.some.inj h ▸ hleft
      · cases h

lemma Advance.readerFirst [Fintype α] {k b : ℕ} (h : Advance up down s s' k b) (hi : Inv s)
    (hr : ReaderFirst s.lock) : ReaderFirst s'.lock :=
  (h.reach.invariant (I := fun s => Inv s ∧ ReaderFirst s.lock) ⟨hi, hr⟩
    fun _ _ _ hir _ hs => ⟨inv_step hir.1 hs, readerFirst_step hir.1 hir.2 hs⟩).2

end Readers

/-! ## Runs of a program -/

/-- **A bound on runs.**  If a measure of what the program stands for falls with every step, but for
what the step brings, then a run takes no more than it brought. -/
theorem run_bound {S T E : Type*} {step : S → E → Option S} {ok : S → E → Prop}
    [∀ s e, Decidable (ok s e)] {R : S → T → Prop} {work : T → ℕ} {takes brings : E → ℕ}
    (hstep : ∀ {s t e s'}, R s t → ok s e → step s e = some s' →
      ∃ t', work t' + takes e ≤ work t + brings e ∧ R s' t') :
    ∀ {es : List E} {s s' : S} {t : T}, R s t → runFrom step ok s es = some s' →
      (es.map takes).sum ≤ work t + (es.map brings).sum := by
  intro es
  induction es with
  | nil =>
      intro s s' t _ _
      exact Nat.zero_le _
  | cons e es ih =>
      intro s s' t hR hrun
      rw [runFrom] at hrun
      obtain ⟨hok, hrun⟩ := Option.ite_none_right_eq_some.1 hrun
      obtain ⟨s₁, hs, hrest⟩ := Option.bind_eq_some_iff.1 hrun
      obtain ⟨t₁, hwork, hR₁⟩ := hstep hR hok hs
      have hnext := ih hR₁ hrest
      rw [List.map_cons, List.map_cons, List.sum_cons, List.sum_cons]
      omega

/-- What is counted the same for every step of one kind. -/
lemma sum_map_ite {E : Type*} (p : E → Bool) (k : ℕ) (es : List E) :
    (es.map fun e => if p e then k else 0).sum = k * es.countP p := by
  induction es with
  | nil => rfl
  | cons e es ih =>
      rw [List.map_cons, List.sum_cons, ih, List.countP_cons, Nat.mul_add]
      cases p e <;> simp [add_comm]

end RemoteLock
