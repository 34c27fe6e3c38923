import Mathlib.Data.BitVec

/-!
# Counters that are a signed integer

A counter of 32 bits is read as a signed number and wraps around.  Below `2 ^ 31` it counts: adding
one, taking one off and adding a length do to the number what they do to the counter.
-/

namespace SignedCounter

variable {x : BitVec 32} {n : ℕ}

lemma toInt_ofNat (h : n < 2 ^ 31) : (BitVec.ofNat 32 n).toInt = n := by
  rw [BitVec.toInt_eq_toNat_of_lt, BitVec.toNat_ofNat, Nat.mod_eq_of_lt (by omega)]
  rw [BitVec.toNat_ofNat, Nat.mod_eq_of_lt (by omega)]
  omega

lemma toInt_add_one (h : x.toInt < 2 ^ 31 - 1) : (x + 1).toInt = x.toInt + 1 := by
  have hlo := x.le_toInt
  rw [BitVec.toInt_add, Int.bmod_eq_of_le] <;> simp <;> omega

lemma toInt_sub_one (h : 0 < x.toInt) : (x - 1).toInt = x.toInt - 1 := by
  have hhi := x.toInt_lt
  rw [BitVec.toInt_sub, Int.bmod_eq_of_le] <;> simp <;> omega

/-- A counter that is read as zero is zero. -/
lemma eq_zero_of_toInt (h : x.toInt = 0) : x = 0 := BitVec.eq_of_toInt_eq (by simpa using h)

/-- After `2 ^ 31` increments the counter is negative. -/
lemma toInt_ofNat_overflow : (BitVec.ofNat 32 (2 ^ 31)).toInt = -2 ^ 31 := by decide

end SignedCounter
