import Mathlib

/-!
# One's-complement sums

Adding words below a base `m` with end-around carry: what runs over is added back at the low end.
The sum is determined by the ordinary one.

* `residue m n` — the number that `n` is congruent to modulo `m - 1`, where `0` stands for `0` only
  and the other multiples of `m - 1` are represented by `m - 1`;
* `carry m n` — one round of the end-around carry, which keeps the residue (`residue_carry`) and
  makes the number smaller (`carry_lt`);
* `sum m ws` — the one's-complement sum of a list of words, and `sum_eq_residue`;
* `complement m s` — the checksum of what sums to `s`, and `residue_add_complement`: with the
  checksum added, the sum is `m - 1`;
* `words` — bytes as 16-bit words, big-endian and padded with a zero byte.
-/

namespace OnesComplement

/-- The number below `m` that stands for `n`. -/
def residue (m n : ℕ) : ℕ := if n = 0 then 0 else (n - 1) % (m - 1) + 1

/-- What has run over `m` is added at the low end. -/
def carry (m n : ℕ) : ℕ := n % m + n / m

/-- One's-complement addition. -/
def add (m a b : ℕ) : ℕ := carry m (a + b)

/-- The one's-complement sum of a list of words. -/
def sum (m : ℕ) (ws : List ℕ) : ℕ := ws.foldl (add m) 0

/-- The word that makes a sum `s` up to `m - 1`. -/
def complement (m s : ℕ) : ℕ := m - 1 - residue m s

/-- Bytes as 16-bit words, the first byte in front.  A last byte that is left alone is followed by a
zero. -/
def words : List (BitVec 8) → List ℕ
  | a :: b :: bs => (a.toNat * 2 ^ 8 + b.toNat) :: words bs
  | [a] => [a.toNat * 2 ^ 8]
  | [] => []

variable {m : ℕ}

/-! ## Residues -/

@[simp] lemma residue_zero : residue m 0 = 0 := rfl

lemma residue_of_pos {n : ℕ} (hn : 0 < n) : residue m n = (n - 1) % (m - 1) + 1 :=
  if_neg (by omega)

lemma residue_lt (hm : 1 < m) (n : ℕ) : residue m n < m := by
  rcases Nat.eq_zero_or_pos n with rfl | hn
  · rw [residue_zero]
    omega
  · have hmod : (n - 1) % (m - 1) < m - 1 := Nat.mod_lt _ (by omega)
    rw [residue_of_pos hn]
    omega

/-- Words stand for themselves. -/
lemma residue_of_lt {n : ℕ} (hn : n < m) : residue m n = n := by
  rcases Nat.eq_zero_or_pos n with rfl | hpos
  · rfl
  · have hmod : (n - 1) % (m - 1) = n - 1 := Nat.mod_eq_of_lt (by omega)
    rw [residue_of_pos hpos, hmod]
    omega

lemma residue_modEq (n : ℕ) : residue m n ≡ n [MOD m - 1] := by
  rcases Nat.eq_zero_or_pos n with rfl | hn
  · rfl
  · calc residue m n = (n - 1) % (m - 1) + 1 := residue_of_pos hn
      _ ≡ n - 1 + 1 [MOD m - 1] := (Nat.mod_modEq _ _).add_right 1
      _ = n := by omega

/-- Positive numbers with the same remainder have the same residue. -/
lemma residue_congr {a b : ℕ} (ha : 0 < a) (hb : 0 < b) (h : a ≡ b [MOD m - 1]) :
    residue m a = residue m b := by
  have hpred : a - 1 ≡ b - 1 [MOD m - 1] := by
    apply Nat.ModEq.add_right_cancel' 1
    rwa [Nat.sub_add_cancel ha, Nat.sub_add_cancel hb]
  rw [residue_of_pos ha, residue_of_pos hb, hpred]

lemma residue_eq_zero {n : ℕ} : residue m n = 0 ↔ n = 0 := by
  constructor
  · intro h
    by_contra hn
    rw [residue_of_pos (by omega)] at h
    omega
  · rintro rfl
    rfl

lemma residue_add (a b : ℕ) : residue m (residue m a + b) = residue m (a + b) := by
  rcases Nat.eq_zero_or_pos a with rfl | ha
  · rw [residue_zero]
  · have hpos : 0 < residue m a := Nat.pos_of_ne_zero fun h => ha.ne' (residue_eq_zero.1 h)
    exact residue_congr (by omega) (by omega) ((residue_modEq a).add_right b)

/-! ## The end-around carry -/

lemma carry_modEq (hm : 0 < m) (n : ℕ) : carry m n ≡ n [MOD m - 1] := by
  have hone : m ≡ 1 [MOD m - 1] := by
    have hself : m - 1 + 1 ≡ 0 + 1 [MOD m - 1] := (Nat.modEq_zero_iff_dvd.2 dvd_rfl).add_right 1
    rwa [Nat.sub_add_cancel hm] at hself
  calc carry m n = n % m + 1 * (n / m) := by rw [carry, one_mul]
    _ ≡ n % m + m * (n / m) [MOD m - 1] := (hone.symm.mul_right _).add_left _
    _ = n := Nat.mod_add_div n m

lemma carry_pos (hm : 0 < m) {n : ℕ} (hn : 0 < n) : 0 < carry m n := by
  rcases Nat.eq_zero_or_pos (n / m) with hdiv | hdiv
  · have hlt : n < m := (Nat.div_eq_zero_iff_lt hm).1 hdiv
    rw [carry, Nat.mod_eq_of_lt hlt]
    omega
  · exact Nat.add_pos_right _ hdiv

/-- A round of the carry keeps the residue. -/
lemma residue_carry (hm : 0 < m) (n : ℕ) : residue m (carry m n) = residue m n := by
  rcases Nat.eq_zero_or_pos n with rfl | hn
  · simp [carry]
  · exact residue_congr (carry_pos hm hn) hn (carry_modEq hm n)

/-- A round of the carry makes the number smaller, unless there is nothing to carry. -/
lemma carry_lt (hm : 1 < m) {n : ℕ} (hn : n / m ≠ 0) : carry m n < n := by
  have hdiv : n % m + m * (n / m) = n := Nat.mod_add_div n m
  have hmul : 2 * (n / m) ≤ m * (n / m) := Nat.mul_le_mul_right _ hm
  rw [carry]
  omega

/-! ## Sums -/

/-- The sum of two words is a word. -/
lemma add_eq_residue {a b : ℕ} (ha : a < m) (hb : b < m) : add m a b = residue m (a + b) := by
  have hlt : carry m (a + b) < m := by
    rw [carry]
    by_cases hab : a + b < m
    · rw [Nat.mod_eq_of_lt hab, Nat.div_eq_of_lt hab]
      omega
    · have hdiv : (a + b) / m = 1 := Nat.div_eq_of_lt_le (by omega) (by omega)
      have hmod : (a + b) % m = a + b - m := by
        rw [Nat.mod_eq_sub_mod (by omega), Nat.mod_eq_of_lt (by omega)]
      omega
  rw [← residue_carry (by omega) (a + b), residue_of_lt hlt, add]

/-- **A one's-complement sum is the residue of the ordinary one.** -/
lemma sum_eq_residue (hm : 1 < m) (ws : List ℕ) (hws : ∀ w ∈ ws, w < m) :
    sum m ws = residue m ws.sum := by
  suffices hfold : ∀ n, ws.foldl (add m) (residue m n) = residue m (n + ws.sum) by
    have h0 := hfold 0
    rwa [residue_zero, Nat.zero_add] at h0
  -- the accumulator is the residue of what has been added so far
  induction ws with
  | nil => simp
  | cons w ws ih =>
      intro n
      have hw : w < m := hws w List.mem_cons_self
      have htail : ∀ v ∈ ws, v < m := fun v hv => hws v (List.mem_cons_of_mem _ hv)
      rw [List.foldl_cons, add_eq_residue (residue_lt hm n) hw, residue_add, ih htail,
        List.sum_cons, Nat.add_assoc]

/-- With its checksum added, a sum is `m - 1`. -/
lemma residue_add_complement (hm : 1 < m) (s : ℕ) : residue m (s + complement m s) = m - 1 := by
  have hle : residue m s ≤ m - 1 := Nat.le_sub_one_of_lt (residue_lt hm s)
  have hpos : 0 < residue m s + complement m s := by
    rw [complement]
    omega
  calc residue m (s + complement m s)
      = residue m (residue m s + complement m s) := (residue_add _ _).symm
    _ = residue m (m - 1) := by rw [complement, Nat.add_sub_cancel' hle]
    _ = m - 1 := residue_of_lt (by omega)

/-- The checksum `m - 1` does in place of `0`. -/
lemma residue_add_top (hm : 1 < m) {s : ℕ} (hs : complement m s = 0) :
    residue m (s + (m - 1)) = m - 1 := by
  have hres : residue m s = m - 1 := by
    have hlt := residue_lt hm s
    rw [complement] at hs
    omega
  have hmod : m - 1 + (m - 1) ≡ m - 1 [MOD m - 1] := by simp [Nat.ModEq]
  calc residue m (s + (m - 1)) = residue m (m - 1 + (m - 1)) := by rw [← residue_add, hres]
    _ = residue m (m - 1) := residue_congr (by omega) (by omega) hmod
    _ = m - 1 := residue_of_lt (by omega)

/-! ## Bytes -/

lemma words_lt (bs : List (BitVec 8)) : ∀ w ∈ words bs, w < 2 ^ 16 := by
  induction bs using words.induct with
  | case1 a b bs ih =>
      intro w hw
      rw [words, List.mem_cons] at hw
      rcases hw with rfl | hw
      · have ha := a.isLt
        have hb := b.isLt
        omega
      · exact ih w hw
  | case2 a =>
      intro w hw
      have ha := a.isLt
      rw [words, List.mem_singleton] at hw
      omega
  | case3 => simp [words]

/-- Whole words can be split off. -/
lemma words_append {as : List (BitVec 8)} (has : 2 ∣ as.length) (bs : List (BitVec 8)) :
    words (as ++ bs) = words as ++ words bs := by
  induction as using words.induct with
  | case1 a b as ih =>
      have hdvd : 2 ∣ as.length := (Nat.dvd_add_left dvd_rfl).1 has
      simp only [List.cons_append, words, ih hdvd]
  | case2 a => simp at has
  | case3 => simp [words]

end OnesComplement
