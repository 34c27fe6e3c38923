import Mathlib

/-!
# Runs of a system with a partial step function

A system is given by `step : σ → ε → Option σ`: `none` means that the event cannot happen in the
state.  `Reach step ok init` are the states of all runs from `init` in which every step is taken in
a state where `ok` allows it, so that `fun _ _ => True` gives all runs and a stronger `ok` gives the
runs that keep a condition.

* `Reach.invariant` — what holds initially and is kept by every allowed step holds in every state
  reached;
* `Reach.mono` — a weaker condition allows more runs;
* `Reach.trans` — runs are put together;
* `Reach.map` — a function between the states of two systems;
* `Reach.simulation` — if every allowed step of one system is matched by a step of another, every
  state reached is related to a state that the other one reaches;
* `runFrom`, `Reach.of_runFrom`, `Reach.exists_of_runFrom`, `runFrom_preserves`, `runFrom_since` —
  executing a list of events, for concrete runs;
* `foldl_always_iff`, `foldlM_always_iff` — exactly when a list of events keeps an invariant, for
  a total and for a partial step function; `foldlM_steps_iff` for a property of the steps.
-/

namespace Runs

variable {σ ε : Type*}

/-- The states reached by runs whose steps all meet `ok`. -/
inductive Reach (step : σ → ε → Option σ) (ok : σ → ε → Prop) (init : σ) : σ → Prop where
  | start : Reach step ok init init
  | next {s s' : σ} {e : ε} (before : Reach step ok init s) (allowed : ok s e)
      (taken : step s e = some s') : Reach step ok init s'

variable {step : σ → ε → Option σ} {ok : σ → ε → Prop} {init : σ}

/-- **The invariant rule.** -/
theorem Reach.invariant {I : σ → Prop} (h0 : I init)
    (hstep : ∀ s e s', I s → ok s e → step s e = some s' → I s') {s : σ}
    (h : Reach step ok init s) : I s := by
  induction h with
  | start => exact h0
  | next _ allowed taken ih => exact hstep _ _ _ ih allowed taken

/-- A weaker condition allows more runs. -/
theorem Reach.mono {ok' : σ → ε → Prop} (hok : ∀ s e, ok s e → ok' s e) {s : σ}
    (h : Reach step ok init s) : Reach step ok' init s := by
  induction h with
  | start => exact .start
  | next _ allowed taken ih => exact .next ih (hok _ _ allowed) taken

/-- Runs are put together. -/
theorem Reach.trans {s t : σ} (h : Reach step ok init s) (h' : Reach step ok s t) :
    Reach step ok init t := by
  induction h' with
  | start => exact h
  | next _ allowed taken ih => exact .next ih allowed taken

/-- **Forward simulation.**  Every step of a concrete system is matched by one of an abstract
system, whose state is related to the concrete one by `R`. -/
theorem Reach.simulation {τ δ : Type*} {step' : τ → δ → Option τ} {init' : τ} {R : σ → τ → Prop}
    (h0 : R init init')
    (hstep : ∀ s t e s', R s t → Reach step' (fun _ _ => True) init' t → ok s e →
      step s e = some s' → ∃ e' t', step' t e' = some t' ∧ R s' t')
    {s : σ} (h : Reach step ok init s) :
    ∃ t, Reach step' (fun _ _ => True) init' t ∧ R s t := by
  induction h with
  | start => exact ⟨init', .start, h0⟩
  | next _ allowed taken ih =>
      obtain ⟨t, ht, hR⟩ := ih
      obtain ⟨e', t', htaken, hR'⟩ := hstep _ _ _ _ hR ht allowed taken
      exact ⟨t', .next ht trivial htaken, hR'⟩

/-- A function that takes the steps of one system to steps of another takes its states there. -/
theorem Reach.map {τ : Type*} {step' : τ → ε → Option τ} {ok' : τ → ε → Prop} (f : σ → τ)
    (hstep : ∀ s e s', step s e = some s' → step' (f s) e = some (f s'))
    (hok : ∀ s e, ok s e → ok' (f s) e) {s : σ} (h : Reach step ok init s) :
    Reach step' ok' (f init) (f s) := by
  induction h with
  | start => exact .start
  | next _ allowed taken ih => exact .next ih (hok _ _ allowed) (hstep _ _ _ taken)

/-- Execute a list of events; `none` as soon as one of them is not allowed or cannot happen. -/
def runFrom (step : σ → ε → Option σ) (ok : σ → ε → Prop) [∀ s e, Decidable (ok s e)] :
    σ → List ε → Option σ
  | s, [] => some s
  | s, e :: es => if ok s e then (step s e).bind fun s' => runFrom step ok s' es else none

/-- A concrete run reaches its last state. -/
theorem Reach.of_runFrom [∀ s e, Decidable (ok s e)] {s s' : σ} {es : List ε}
    (hs : Reach step ok init s) (h : runFrom step ok s es = some s') : Reach step ok init s' := by
  induction es generalizing s with
  | nil =>
      rw [runFrom, Option.some.injEq] at h
      exact h ▸ hs
  | cons e es ih =>
      rw [runFrom] at h
      split at h
      · next hok =>
          obtain ⟨t, ht, hrest⟩ := Option.bind_eq_some_iff.1 h
          exact ih (.next hs hok ht) hrest
      · cases h

/-- What can be computed of the end of a concrete run holds in some state reached. -/
theorem Reach.exists_of_runFrom [∀ s e, Decidable (ok s e)] {P : σ → Prop} [DecidablePred P]
    (es : List ε) (h : (runFrom step ok init es).any (fun s => decide (P s)) = true) :
    ∃ s, Reach step ok init s ∧ P s := by
  obtain ⟨s, hs, hP⟩ := (Option.any_eq_true _ _).1 h
  exact ⟨s, .of_runFrom .start hs, of_decide_eq_true hP⟩

/-- What the events of a concrete run keep holds at its end. -/
theorem runFrom_preserves [∀ s e, Decidable (ok s e)] {es : List ε} (I : σ → Prop)
    (hstep : ∀ s e s', e ∈ es → I s → step s e = some s' → I s') {s s' : σ} (hs : I s)
    (h : runFrom step ok s es = some s') : I s' := by
  induction es generalizing s with
  | nil =>
      rw [runFrom, Option.some.injEq] at h
      exact h ▸ hs
  | cons e es ih =>
      rw [runFrom] at h
      split at h
      · obtain ⟨t, ht, hrest⟩ := Option.bind_eq_some_iff.1 h
        exact ih (fun s e s' he => hstep s e s' (List.mem_cons_of_mem _ he))
          (hstep _ _ _ List.mem_cons_self hs ht) hrest
      · cases h

/-- What an event brings about, and every later one keeps, holds at the end of a concrete run with
this event. -/
theorem runFrom_since [∀ s e, Decidable (ok s e)] {I J : σ → Prop} {e₀ : ε} {es : List ε}
    (hkeep : ∀ s e s', I s → ok s e → step s e = some s' → I s' ∧ (J s → J s'))
    (hmake : ∀ s s', I s → step s e₀ = some s' → J s') {s s' : σ} (hs : I s) (hmem : e₀ ∈ es)
    (h : runFrom step ok s es = some s') : J s' := by
  suffices hgen : ∀ (es : List ε) (s : σ), I s → (J s ∨ e₀ ∈ es) →
      runFrom step ok s es = some s' → J s' from hgen es s hs (.inr hmem) h
  intro es
  induction es with
  | nil =>
      intro s _ hj hrun
      rw [runFrom, Option.some.injEq] at hrun
      exact hrun ▸ hj.resolve_right List.not_mem_nil
  | cons e es ih =>
      intro s hs hj hrun
      rw [runFrom] at hrun
      split at hrun
      · next hok =>
          obtain ⟨t, ht, hrest⟩ := Option.bind_eq_some_iff.1 hrun
          obtain ⟨hI, hJ⟩ := hkeep s e t hs hok ht
          refine ih t hI ?_ hrest
          rcases hj with hj | hj
          · exact .inl (hJ hj)
          · rcases List.mem_cons.1 hj with rfl | hj
            · exact .inl (hmake s t hs ht)
            · exact .inr hj
      · cases hrun

/-- **When a total system keeps an invariant.**  If one step from a good state leads to a good state
exactly if `ok` allows it, a list of events passes through good states only exactly if `ok` allows
every step. -/
theorem foldl_always_iff {f : σ → ε → σ} {I : σ → Prop} {es : List ε}
    (hstep : ∀ s, ∀ e ∈ es, I s → (I (f s e) ↔ ok s e)) {s : σ} (hs : I s) :
    (∀ pre, pre <+: es → I (pre.foldl f s)) ↔
      ∀ pre e, pre ++ [e] <+: es → ok (pre.foldl f s) e := by
  constructor
  · intro h pre e hpre
    have hmem : e ∈ es := hpre.subset (by simp)
    have hnext := h _ hpre
    rw [List.foldl_append] at hnext
    exact (hstep _ e hmem (h pre ((List.prefix_append _ _).trans hpre))).1 hnext
  · intro h pre
    induction pre using List.reverseRecOn with
    | nil => exact fun _ => hs
    | append_singleton pre e ih =>
        intro hpre
        have hmem : e ∈ es := hpre.subset (by simp)
        rw [List.foldl_append]
        exact (hstep _ e hmem (ih ((List.prefix_append _ _).trans hpre))).2 (h pre e hpre)

lemma mem_foldlM_concat {pre : List ε} {e : ε} {s u : σ} :
    u ∈ (pre ++ [e]).foldlM step s ↔ ∃ t ∈ pre.foldlM step s, u ∈ step t e := by
  simp [List.foldlM_append, Option.bind_eq_some_iff]

/-- The same for a partial step function and a property of its steps, from which `I` follows for the
state that is reached. -/
theorem foldlM_steps_iff {I : σ → Prop} {G : σ → ε → σ → Prop} {es : List ε}
    (hstep : ∀ s, ∀ e ∈ es, I s → ((∀ s' ∈ step s e, G s e s') ↔ ok s e))
    (hkeep : ∀ s e s', I s → s' ∈ step s e → G s e s' → I s') {s : σ} (hs : I s) :
    (∀ pre e, pre ++ [e] <+: es → ∀ t ∈ pre.foldlM step s, ∀ t' ∈ step t e, G t e t') ↔
      ∀ pre e, pre ++ [e] <+: es → ∀ t ∈ pre.foldlM step s, ok t e := by
  have hreach : (∀ pre e, pre ++ [e] <+: es → ∀ t ∈ pre.foldlM step s, I t →
      ∀ t' ∈ step t e, G t e t') → ∀ pre, pre <+: es → ∀ t ∈ pre.foldlM step s, I t := by
    intro h pre
    induction pre using List.reverseRecOn with
    | nil =>
        intro _ t ht
        obtain rfl : s = t := by simpa using ht
        exact hs
    | append_singleton pre e ih =>
        intro hpre u hu
        obtain ⟨t, ht, hu⟩ := mem_foldlM_concat.1 hu
        have hIt := ih ((List.prefix_append _ _).trans hpre) t ht
        exact hkeep t e u hIt hu (h pre e hpre t ht hIt u hu)
  constructor
  · intro h pre e hpre t ht
    have hIt := hreach (fun pre e hpre t ht _ => h pre e hpre t ht) pre
      ((List.prefix_append _ _).trans hpre) t ht
    exact (hstep t e (hpre.subset (by simp)) hIt).1 (h pre e hpre t ht)
  · intro h pre e hpre t ht
    have hgood : ∀ pre e, pre ++ [e] <+: es → ∀ t ∈ pre.foldlM step s, I t →
        ∀ t' ∈ step t e, G t e t' := fun pre e hpre t ht hIt =>
      (hstep t e (hpre.subset (by simp)) hIt).2 (h pre e hpre t ht)
    exact hgood pre e hpre t ht (hreach hgood pre ((List.prefix_append _ _).trans hpre) t ht)

/-- In particular for the invariant itself. -/
theorem foldlM_always_iff {I : σ → Prop} {es : List ε}
    (hstep : ∀ s, ∀ e ∈ es, I s → ((∀ s' ∈ step s e, I s') ↔ ok s e)) {s : σ} (hs : I s) :
    (∀ pre, pre <+: es → ∀ t ∈ pre.foldlM step s, I t) ↔
      ∀ pre e, pre ++ [e] <+: es → ∀ t ∈ pre.foldlM step s, ok t e := by
  rw [← foldlM_steps_iff hstep (fun _ _ _ _ _ h => h) hs]
  constructor
  · intro h pre e hpre t ht t' ht'
    exact h _ hpre t' (mem_foldlM_concat.2 ⟨t, ht, ht'⟩)
  · intro h pre
    rcases List.eq_nil_or_concat pre with rfl | ⟨pre, e, rfl⟩
    · intro _ t ht
      obtain rfl : s = t := by simpa using ht
      exact hs
    · intro hpre u hu
      rw [List.concat_eq_append] at hpre hu
      obtain ⟨t, ht, hu⟩ := mem_foldlM_concat.1 hu
      exact h pre e hpre t ht u hu

end Runs
