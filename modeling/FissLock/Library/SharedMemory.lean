import FissLock.Library.Noninterference
import FissLock.Library.Runs

/-!
# Machines that share a memory

A family of machines takes steps in any order.  Each has a state of its own, and all of them work on
one memory.  `Local` says that a machine only touches its part of the memory, its footprint, and
that the footprints do not overlap.  Then a run of all of them is a run of each of them alone
(`reach_alone`): its own state is the same, and so is its part of the memory.

What a machine may rely on for this are the states that it reaches alone, so that its invariant can
be used to show that it stays within its footprint.
-/

namespace SharedMemory

open Runs Noninterference

variable {ι σ ε μ α β : Type*}

/-- The machine `i` takes a step. -/
def step [DecidableEq ι] (machine : ι → σ × μ → ε → Option (σ × μ)) (s : (ι → σ) × μ) :
    ι × ε → Option ((ι → σ) × μ)
  | (i, e) => (machine i (s.1 i, s.2) e).map fun t => (Function.update s.1 i t.1, t.2)

/-- The step of a machine is allowed if it is allowed in its own state. -/
def ok (allowed : ι → σ × μ → ε → Prop) (s : (ι → σ) × μ) : ι × ε → Prop
  | (i, e) => allowed i (s.1 i, s.2) e

/-- A machine that finds its footprint as in a state that it reaches alone does the same there and
leaves the rest of the memory alone. -/
structure Local (machine : ι → σ × μ → ε → Option (σ × μ)) (allowed : ι → σ × μ → ε → Prop)
    (init : ι → σ) (memory : μ) (read : μ → α → β) (foot : ι → Set α) : Prop where
  within : ∀ i s m m' e t, Reach (machine i) (allowed i) (init i, memory) (s, m') →
    AgreeOn read (foot i) m m' → allowed i (s, m) e → machine i (s, m) e = some t →
    allowed i (s, m') e ∧ (∀ x ∉ foot i, read t.2 x = read m x)
      ∧ ∃ n, machine i (s, m') e = some (t.1, n) ∧ AgreeOn read (foot i) t.2 n
  disjoint : ∀ i j, i ≠ j → Disjoint (foot i) (foot j)

variable [DecidableEq ι] {machine : ι → σ × μ → ε → Option (σ × μ)}
  {allowed : ι → σ × μ → ε → Prop} {init : ι → σ} {memory : μ} {read : μ → α → β}
  {foot : ι → Set α}

/-- **Every machine runs as if it were alone.** -/
theorem Local.reach_alone (h : Local machine allowed init memory read foot) {s : (ι → σ) × μ}
    (hs : Reach (step machine) (ok allowed) (init, memory) s) (i : ι) :
    ∃ m, Reach (machine i) (allowed i) (init i, memory) (s.1 i, m)
      ∧ AgreeOn read (foot i) s.2 m := by
  induction hs generalizing i with
  | start => exact ⟨memory, .start, fun _ _ => rfl⟩
  | @next s _ e _ hok taken ih =>
      obtain ⟨j, e⟩ := e
      obtain ⟨t, ht, rfl⟩ := Option.map_eq_some_iff.1 taken
      obtain ⟨m, hm, hagree⟩ := ih j
      obtain ⟨hallowed, hframe, n, hn, hagree'⟩ := h.within j _ _ m e t hm hagree hok ht
      by_cases hij : i = j
      · subst hij
        refine ⟨n, ?_, hagree'⟩
        dsimp only
        rw [Function.update_self]
        exact .next hm hallowed hn
      · -- the machine `j` leaves the footprint of `i` alone
        obtain ⟨m, hm, hagree⟩ := ih i
        refine ⟨m, ?_, fun x hx => ?_⟩
        · dsimp only
          rw [Function.update_of_ne hij]
          exact hm
        · rw [hframe x fun hx' => (h.disjoint i j hij).le_bot ⟨hx, hx'⟩]
          exact hagree x hx

end SharedMemory
