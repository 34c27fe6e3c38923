import Mathlib

/-!
# Systems whose events stay within a footprint

A system takes events one after the other: `step s e` is the state after the event `e`, with what
the system answers.  Its state is a memory, `read s x` is the content of the address `x`.  Every
event belongs to a key, and every key has a *footprint*, the addresses that belong to it.

`Footprint` says that an event changes nothing outside the footprint of its key, that what it writes
there and what it answers depend on nothing outside, and that footprints do not overlap.  Then the
events of one key do not notice the events of the others: `Footprint.run_filter`.
-/

namespace Noninterference

variable {σ ε ω α β κ : Type*}

/-- The state after a list of events, and every event with its answer. -/
def run (step : σ → ε → σ × ω) : σ → List ε → σ × List (ε × ω)
  | s, [] => (s, [])
  | s, e :: es => ((run step (step s e).1 es).1, (e, (step s e).2) :: (run step (step s e).1 es).2)

/-- Two states with the same content at these addresses. -/
def AgreeOn (read : σ → α → β) (foot : Set α) (s s' : σ) : Prop :=
  ∀ x ∈ foot, read s x = read s' x

/-- The events of a key read and write the footprint of the key and nothing else. -/
structure Footprint (step : σ → ε → σ × ω) (read : σ → α → β) (key : ε → κ) (foot : κ → Set α) :
    Prop where
  frame : ∀ s e x, x ∉ foot (key e) → read (step s e).1 x = read s x
  content : ∀ s s' e, AgreeOn read (foot (key e)) s s' →
    AgreeOn read (foot (key e)) (step s e).1 (step s' e).1
  answer : ∀ s s' e, AgreeOn read (foot (key e)) s s' → (step s e).2 = (step s' e).2
  disjoint : ∀ a b, a ≠ b → Disjoint (foot a) (foot b)

variable {step : σ → ε → σ × ω} {read : σ → α → β} {key : ε → κ} {foot : κ → Set α}

/-- An event of another key is not noticed. -/
lemma Footprint.agreeOn_other (h : Footprint step read key foot) {a : κ} {s s' : σ} {e : ε}
    (he : key e ≠ a) (hs : AgreeOn read (foot a) s s') : AgreeOn read (foot a) (step s e).1 s' := by
  intro x hx
  rw [h.frame s e x fun hx' => (h.disjoint _ _ he).le_bot ⟨hx', hx⟩]
  exact hs x hx

/-- **Noninterference.**  The footprint of a key, and the answers to its events, are the same when
only its own events happen. -/
theorem Footprint.run_filter [DecidableEq κ] (h : Footprint step read key foot) (a : κ) (es : List ε)
    {s s' : σ} (hs : AgreeOn read (foot a) s s') :
    AgreeOn read (foot a) (run step s es).1 (run step s' (es.filter (key · = a))).1
      ∧ (run step s es).2.filter (key ·.1 = a) = (run step s' (es.filter (key · = a))).2 := by
  induction es generalizing s s' with
  | nil => exact ⟨hs, rfl⟩
  | cons e es ih =>
      by_cases he : key e = a
      · subst he
        have hrest := ih (h.content s s' e hs)
        simp only [run, List.filter_cons, decide_true, if_true]
        exact ⟨hrest.1, by rw [hrest.2, h.answer s s' e hs]⟩
      · have hrest := ih (h.agreeOn_other he hs)
        simpa only [run, List.filter_cons, decide_eq_false he, Bool.false_eq_true, if_false]
          using hrest

end Noninterference
