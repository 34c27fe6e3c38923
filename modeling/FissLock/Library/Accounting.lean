import Mathlib

/-!
# Accounting for items in flight and in store

A message-passing system moves items between messages in flight and the stores of its nodes.  To
say that an item is *somewhere exactly once* one counts it in all places and adds up.

* `inFlight f net` adds `f` over a multiset of messages.  Consuming messages `used` and producing
  messages `made` changes it by the difference of the two (`inFlight_replace`).
* `stored g st` adds `g` over the stores of all nodes.  Replacing one store changes it by the
  difference of the two (`stored_update`).

Both laws are stated without subtraction, so that `omega` can use them as they are.
-/

namespace Accounting

variable {M N L : Type*}

/-- The total of `f` over the messages in flight. -/
def inFlight (f : M → ℕ) (net : Multiset M) : ℕ := (net.map f).sum

@[simp] lemma inFlight_zero (f : M → ℕ) : inFlight f 0 = 0 := by simp [inFlight]

@[simp] lemma inFlight_cons (f : M → ℕ) (m : M) (net : Multiset M) :
    inFlight f (m ::ₘ net) = f m + inFlight f net := by
  simp [inFlight]

@[simp] lemma inFlight_singleton (f : M → ℕ) (m : M) : inFlight f {m} = f m := by simp [inFlight]

@[simp] lemma inFlight_add (f : M → ℕ) (net net' : Multiset M) :
    inFlight f (net + net') = inFlight f net + inFlight f net' := by
  simp [inFlight]

lemma inFlight_fun_add (f g : M → ℕ) (net : Multiset M) :
    inFlight (fun m => f m + g m) net = inFlight f net + inFlight g net := by
  simp [inFlight, Multiset.sum_map_add]

/-- Consume `used`, produce `made`, keep `rest`. -/
lemma inFlight_replace (f : M → ℕ) {net net' used made rest : Multiset M}
    (h : net = used + rest) (h' : net' = made + rest) :
    inFlight f net' + inFlight f used = inFlight f net + inFlight f made := by
  rw [h, h', inFlight_add, inFlight_add]
  omega

lemma inFlight_eq_zero {f : M → ℕ} {net : Multiset M} :
    inFlight f net = 0 ↔ ∀ m ∈ net, f m = 0 := by
  simp [inFlight, Multiset.sum_eq_zero_iff]

lemma le_inFlight (f : M → ℕ) {net : Multiset M} {m : M} (h : m ∈ net) : f m ≤ inFlight f net := by
  obtain ⟨rest, rfl⟩ := Multiset.exists_cons_of_mem h
  simp

variable [Fintype N]

/-- The total of `g` over the stores of all nodes. -/
def stored (g : L → ℕ) (st : N → L) : ℕ := ∑ n, g (st n)

lemma stored_fun_add (f g : L → ℕ) (st : N → L) :
    stored (fun l => f l + g l) st = stored f st + stored g st := by
  simp [stored, Finset.sum_add_distrib]

lemma stored_update [DecidableEq N] (g : L → ℕ) (st : N → L) (n : N) (l : L) :
    stored g (Function.update st n l) + g (st n) = stored g st + g l := by
  have h : (fun m => g (Function.update st n l m)) = Function.update (fun m => g (st m)) n (g l) := by
    funext m
    by_cases hm : m = n
    · subst hm; simp
    · simp [hm]
  rw [stored, stored, h, Finset.sum_update_of_mem (Finset.mem_univ n),
    ← Finset.add_sum_erase Finset.univ (fun m => g (st m)) (Finset.mem_univ n),
    Finset.sdiff_singleton_eq_erase]
  omega

lemma le_stored (g : L → ℕ) (st : N → L) (n : N) : g (st n) ≤ stored g st :=
  Finset.single_le_sum (f := fun m => g (st m)) (fun _ _ => Nat.zero_le _) (Finset.mem_univ n)

lemma stored_eq_zero {g : L → ℕ} {st : N → L} : stored g st = 0 ↔ ∀ n, g (st n) = 0 := by
  simp [stored]

end Accounting
