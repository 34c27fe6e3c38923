import Mathlib

/-!
# Queues in a ring

A queue kept in the slots of a ring that is only known by its successor function `next`: the slots
of the queue are `next head`, `next (next head)`, … in this order, so that `head` itself is the last
slot that was freed and `next^[q.length] head` the last one that was written.

* `Holds` — the queue `q` stands behind `head`;
* `Holds.push`, `Holds.pop` — a new slot is written, the first one is freed;
* `next_tail_ne` — as long as there are fewer requests than slots, which are as many as the minimal
  period of `next`, the slot written next is none of the queue's;
* `advance` — the ring of the numbers from `left` to `right`, and its period.
-/

namespace Ring

open Function

section Queue

variable {σ α : Type*} {next : σ → σ} {read : σ → α} {head : σ} {q : List α} {a : α}

/-- The slots behind `head` hold the queue. -/
def Holds (next : σ → σ) (read : σ → α) (head : σ) (q : List α) : Prop :=
  ∀ k (hk : k < q.length), read (next^[k + 1] head) = q[k]

lemma holds_nil : Holds next read head [] := by
  intro k hk
  cases hk

/-- While there is room, the slot behind the queue is not one of the queue's. -/
lemma next_tail_ne {n k : ℕ} (hroom : n < minimalPeriod next head) (hk : k < n) :
    next^[n + 1] head ≠ next^[k + 1] head := by
  have hper : head ∈ periodicPts next := minimalPeriod_pos_iff_mem_periodicPts.1 (by omega)
  rw [iterate_succ_apply, iterate_succ_apply]
  rw [← minimalPeriod_apply hper] at hroom
  rw [ne_eq, iterate_eq_iterate_iff_of_lt_minimalPeriod hroom (hk.trans hroom)]
  exact hk.ne'

/-- An element is written behind the queue. -/
lemma Holds.push [DecidableEq σ] (h : Holds next read head q)
    (hroom : q.length < minimalPeriod next head) (a : α) :
    Holds next (update read (next^[q.length + 1] head) a) head (q ++ [a]) := by
  intro k hk
  by_cases hlast : k = q.length
  · subst hlast
    simp
  · have hk' : k < q.length := by
      rw [List.length_append, List.length_singleton] at hk
      omega
    rw [update_of_ne (next_tail_ne hroom hk').symm, h k hk', List.getElem_append_left hk']

/-- The first element is taken out. -/
lemma Holds.pop (h : Holds next read head (a :: q)) : Holds next read (next head) q := by
  intro k hk
  exact h (k + 1) (by simpa using hk)

end Queue

/-! ## The numbers from `left` to `right` -/

section Interval

variable {w : ℕ} (left right : BitVec w)

/-- The number after `right` is `left`. -/
def advance (p : BitVec w) : BitVec w := if p = right then left else p + 1

variable {left right} {p : BitVec w}

/-- Below `right` there is no overflow. -/
lemma toNat_add_one (h : p.toNat < right.toNat) : (p + 1).toNat = p.toNat + 1 := by
  have hr := right.isLt
  have hone : (1 : BitVec w).toNat = 1 := by
    show (BitVec.ofNat w 1).toNat = 1
    rw [BitVec.toNat_ofNat, Nat.mod_eq_of_lt (by omega)]
  rw [BitVec.toNat_add, hone, Nat.mod_eq_of_lt (by omega)]

lemma advance_mem (hp : left ≤ p ∧ p ≤ right) :
    left ≤ advance left right p ∧ advance left right p ≤ right := by
  obtain ⟨hl, hr⟩ := hp
  rw [BitVec.le_def] at hl hr
  unfold advance
  split
  · exact ⟨BitVec.le_refl left, BitVec.le_def.2 (hl.trans hr)⟩
  · next h =>
      have hne : p.toNat ≠ right.toNat := fun h' => h (BitVec.eq_of_toNat_eq h')
      have hlt : p.toNat < right.toNat := by omega
      rw [BitVec.le_def, BitVec.le_def, toNat_add_one hlt]
      omega

lemma advance_iterate_mem (hp : left ≤ p ∧ p ≤ right) (i : ℕ) :
    left ≤ (advance left right)^[i] p ∧ (advance left right)^[i] p ≤ right := by
  induction i with
  | zero => exact hp
  | succ i ih =>
      rw [iterate_succ_apply']
      exact advance_mem ih

/-- The distance from `left` is counted modulo the number of slots. -/
lemma toNat_advance_iterate (hp : left ≤ p ∧ p ≤ right) (i : ℕ) :
    ((advance left right)^[i] p).toNat - left.toNat
      = (p.toNat - left.toNat + i) % (right.toNat - left.toNat + 1) := by
  induction i with
  | zero =>
      obtain ⟨hl, hr⟩ := hp
      rw [BitVec.le_def] at hl hr
      rw [iterate_zero_apply, Nat.add_zero, Nat.mod_eq_of_lt (by omega)]
  | succ i ih =>
      obtain ⟨hl, hr⟩ := advance_iterate_mem hp i
      rw [iterate_succ_apply']
      generalize (advance left right)^[i] p = c at ih hl hr
      rw [BitVec.le_def] at hl hr
      rw [← Nat.add_assoc, Nat.add_mod, ← ih]
      unfold advance
      split
      · next h =>
          subst h
          simp
      · next h =>
          have hne : c.toNat ≠ right.toNat := fun h' => h (BitVec.eq_of_toNat_eq h')
          have hlt : c.toNat < right.toNat := by omega
          have hone : 1 % (right.toNat - left.toNat + 1) = 1 := Nat.mod_eq_of_lt (by omega)
          rw [toNat_add_one hlt, hone, Nat.mod_eq_of_lt (by omega)]
          omega

/-- The ring has as many slots as there are numbers from `left` to `right`. -/
theorem minimalPeriod_advance (hp : left ≤ p ∧ p ≤ right) :
    minimalPeriod (advance left right) p = right.toNat - left.toNat + 1 := by
  have hdist : ∀ i, (advance left right)^[i] p = p
      ↔ (p.toNat - left.toNat + i) % (right.toNat - left.toNat + 1) = p.toNat - left.toNat := by
    intro i
    rw [← toNat_advance_iterate hp i]
    have hi := (advance_iterate_mem hp i).1
    have hl := hp.1
    rw [BitVec.le_def] at hi hl
    constructor
    · intro h
      rw [h]
    · intro h
      exact BitVec.eq_of_toNat_eq (by omega)
  obtain ⟨hl, hr⟩ := hp
  rw [BitVec.le_def] at hl hr
  have hper : IsPeriodicPt (advance left right) (right.toNat - left.toNat + 1) p := by
    rw [IsPeriodicPt, IsFixedPt, hdist, Nat.add_mod_right, Nat.mod_eq_of_lt (by omega)]
  refine le_antisymm (hper.minimalPeriod_le (by omega)) ?_
  by_contra hlt
  have hpos : 0 < minimalPeriod (advance left right) p := hper.minimalPeriod_pos (by omega)
  have hback := (hdist _).1 (isPeriodicPt_minimalPeriod (advance left right) p)
  generalize minimalPeriod (advance left right) p = m at hlt hpos hback
  rcases Nat.lt_or_ge (p.toNat - left.toNat + m) (right.toNat - left.toNat + 1) with h | h
  · rw [Nat.mod_eq_of_lt h] at hback
    omega
  · rw [Nat.mod_eq_sub_mod h, Nat.mod_eq_of_lt (by omega)] at hback
    omega

end Interval

end Ring
