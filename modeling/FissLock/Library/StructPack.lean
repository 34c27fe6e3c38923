import Mathlib

/-!
# Records of big-endian numbers

What Python's `struct` module does with a format that starts with `!`: the fields are unsigned
numbers of fixed widths, most significant byte first, without padding.

`toBE w n` are `w` bytes of `n` and `ofBE` is the number that bytes stand for.  `pack` lays out a
record whose format is a list of widths, or fails if a number does not fit its field; `unpack`
reads one.  `unpack_pack` is the round trip.

`toBE_append` is about two formats for the same bytes: moving the border between two neighbouring
fields keeps the number that they form together.
-/

namespace StructPack

/-! ## Numbers and bytes -/

/-- The lowest `w` bytes of a number, most significant byte first. -/
def toBE : ℕ → ℕ → List (BitVec 8)
  | 0, _ => []
  | w + 1, n => BitVec.ofNat 8 (n / 256 ^ w) :: toBE w n

/-- The number that bytes stand for. -/
def ofBE (bs : List (BitVec 8)) : ℕ := bs.foldl (fun n b => n * 256 + b.toNat) 0

@[simp] lemma length_toBE (w n : ℕ) : (toBE w n).length = w := by
  induction w with
  | zero => rfl
  | succ w ih => rw [toBE, List.length_cons, ih]

lemma foldl_ofBE (k : ℕ) (bs : List (BitVec 8)) :
    bs.foldl (fun n b => n * 256 + b.toNat) k = k * 256 ^ bs.length + ofBE bs := by
  induction bs generalizing k with
  | nil => simp [ofBE]
  | cons b bs ih =>
      rw [ofBE, List.foldl_cons, List.foldl_cons, ih, ih (0 * 256 + b.toNat), List.length_cons]
      ring

lemma ofBE_cons (b : BitVec 8) (bs : List (BitVec 8)) :
    ofBE (b :: bs) = b.toNat * 256 ^ bs.length + ofBE bs := by
  rw [ofBE, List.foldl_cons, foldl_ofBE]
  ring

/-- Writing and reading a number. -/
theorem ofBE_toBE (w n : ℕ) : ofBE (toBE w n) = n % 256 ^ w := by
  induction w with
  | zero => simp [toBE, ofBE, Nat.mod_one]
  | succ w ih =>
      have hsplit : n % 256 ^ (w + 1) = n % 256 ^ w + 256 ^ w * (n / 256 ^ w % 256) := by
        rw [pow_succ, Nat.mod_mul]
      rw [toBE, ofBE_cons, ih, length_toBE, BitVec.toNat_ofNat, hsplit, mul_comm, add_comm]

lemma toBE_mod (w n : ℕ) : toBE w (n % 256 ^ w) = toBE w n := by
  have hle : ∀ k ≤ w, toBE k (n % 256 ^ w) = toBE k n := by
    intro k hk
    induction k with
    | zero => rfl
    | succ k ih =>
        have hdvd : 256 ^ w = 256 ^ k * (256 * 256 ^ (w - k - 1)) := by
          rw [← pow_succ', ← pow_add]
          congr 1
          omega
        have hbyte : n % 256 ^ w / 256 ^ k % 2 ^ 8 = n / 256 ^ k % 2 ^ 8 := by
          rw [hdvd, Nat.mod_mul_right_div_self]
          exact Nat.mod_mul_right_mod _ _ _
        rw [toBE, toBE, ih (by omega)]
        congr 1
        apply BitVec.eq_of_toNat_eq
        rw [BitVec.toNat_ofNat, BitVec.toNat_ofNat, hbyte]
  exact hle w le_rfl

/-- **The border between two fields.**  Two neighbouring fields are one field of both widths, for
the number that they form together. -/
theorem toBE_append (v w x y : ℕ) (hy : y < 256 ^ w) :
    toBE v x ++ toBE w y = toBE (v + w) (x * 256 ^ w + y) := by
  induction v with
  | zero =>
      rw [Nat.zero_add, toBE, List.nil_append, ← toBE_mod w (x * 256 ^ w + y),
        Nat.mul_add_mod', Nat.mod_eq_of_lt hy]
  | succ v ih =>
      have hdiv : (x * 256 ^ w + y) / 256 ^ (v + w) = x / 256 ^ v := by
        rw [pow_add, mul_comm (256 ^ v), ← Nat.div_div_eq_div_mul, mul_comm x,
          Nat.mul_add_div (by positivity), Nat.div_eq_of_lt hy, Nat.add_zero]
      rw [Nat.add_right_comm, toBE, toBE, List.cons_append, ih, hdiv]

/-! ## Records -/

/-- `struct.pack`: `none` if a number is too large for its field, or there are not as many numbers
as fields. -/
def pack : List ℕ → List ℕ → Option (List (BitVec 8))
  | [], [] => some []
  | w :: ws, v :: vs => if v < 256 ^ w then (pack ws vs).map (toBE w v ++ ·) else none
  | _, _ => none

/-- `struct.unpack`: `none` if the bytes are not as many as the format says. -/
def unpack : List ℕ → List (BitVec 8) → Option (List ℕ)
  | [], [] => some []
  | [], _ :: _ => none
  | w :: ws, bs =>
      if w ≤ bs.length then (unpack ws (bs.drop w)).map (ofBE (bs.take w) :: ·) else none

/-- A record has as many bytes as its format says. -/
lemma length_pack {ws vs : List ℕ} {bs : List (BitVec 8)} (h : pack ws vs = some bs) :
    bs.length = ws.sum := by
  induction ws generalizing vs bs with
  | nil =>
      cases vs with
      | nil =>
          rw [pack, Option.some.injEq] at h
          subst h
          rfl
      | cons v vs => cases h
  | cons w ws ih =>
      cases vs with
      | nil => cases h
      | cons v vs =>
          rw [pack] at h
          split at h
          · obtain ⟨rest, hrest, rfl⟩ := Option.map_eq_some_iff.1 h
            rw [List.length_append, length_toBE, ih hrest, List.sum_cons]
          · cases h

/-- **The round trip.** -/
theorem unpack_pack {ws vs : List ℕ} {bs : List (BitVec 8)} (h : pack ws vs = some bs) :
    unpack ws bs = some vs := by
  induction ws generalizing vs bs with
  | nil =>
      cases vs with
      | nil =>
          rw [pack, Option.some.injEq] at h
          subst h
          rfl
      | cons v vs => cases h
  | cons w ws ih =>
      cases vs with
      | nil => cases h
      | cons v vs =>
          rw [pack] at h
          split at h
          · next hv =>
              obtain ⟨rest, hrest, rfl⟩ := Option.map_eq_some_iff.1 h
              have hlen := length_toBE w v
              rw [unpack, if_pos (by simp), List.take_left' hlen, List.drop_left' hlen, ih hrest,
                ofBE_toBE, Nat.mod_eq_of_lt hv]
              rfl
          · cases h

end StructPack
