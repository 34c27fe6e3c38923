import Mathlib

/-!
# Streams of bits

A packet is a sequence of bytes to a host and a sequence of bits to a parser that cuts it into
fields of any width, most significant bit first.

* `bits` — a word as a stream, and `bits_append`: concatenated words are concatenated streams;
* `field` — take a field off the front, and `field_bits`: it is the word that was put there;
* `stream`, `toBytes` — from bytes to bits and back.
-/

namespace BitStream

/-- The bits of a word, most significant first. -/
def bits {w : ℕ} (x : BitVec w) : List Bool := List.ofFn fun i : Fin w => x.getMsbD i

/-- Take a field of `w` bits off the front. -/
def field (w : ℕ) (s : List Bool) : Option (BitVec w × List Bool) :=
  if w ≤ s.length then some (BitVec.ofFnBE fun i : Fin w => s.getD i false, s.drop w) else none

/-- Bytes as a stream. -/
def stream (bs : List (BitVec 8)) : List Bool := bs.flatMap bits

/-- A stream as bytes; what is left of an incomplete byte is dropped. -/
def toBytes : List Bool → List (BitVec 8)
  | b₇ :: b₆ :: b₅ :: b₄ :: b₃ :: b₂ :: b₁ :: b₀ :: s =>
      BitVec.ofBoolListBE [b₇, b₆, b₅, b₄, b₃, b₂, b₁, b₀] :: toBytes s
  | _ => []

variable {n m w : ℕ}

@[simp] lemma length_bits (x : BitVec w) : (bits x).length = w := List.length_ofFn

lemma getD_bits (x : BitVec w) (i : ℕ) : (bits x).getD i false = x.getMsbD i := by
  by_cases hi : i < w
  · rw [List.getD_eq_getElem _ _ (by simpa using hi)]
    simp [bits]
  · rw [List.getD_eq_default _ _ (by simpa using hi)]
    exact (BitVec.getMsbD_of_ge x i (by omega)).symm

/-- Concatenated words are concatenated streams. -/
lemma bits_append (x : BitVec n) (y : BitVec m) : bits (x ++ y) = bits x ++ bits y := by
  apply List.ext_getElem
  · simp
  · intro i hi _
    have hD : ∀ s : List Bool, ∀ h : i < s.length, s[i] = s.getD i false := fun s h =>
      (List.getD_eq_getElem _ _ h).symm
    rw [hD, hD, getD_bits, BitVec.getMsbD_append]
    split
    · next hin =>
        rw [List.getD_append_right _ _ _ _ (by simpa using hin), length_bits, getD_bits]
    · next hin =>
        rw [List.getD_append _ _ _ _ (by simpa using hin), getD_bits]

/-- A field is read back as it was written. -/
lemma field_bits (x : BitVec w) (s : List Bool) : field w (bits x ++ s) = some (x, s) := by
  have hlen : w ≤ (bits x ++ s).length := by simp
  rw [field, if_pos hlen, List.drop_left' (length_bits x)]
  congr 2
  apply BitVec.eq_of_getMsbD_eq
  intro i hi
  rw [BitVec.getMsbD_ofFnBE, dif_pos hi, List.getD_append _ _ _ _ (by simpa using hi), getD_bits]

lemma stream_cons (b : BitVec 8) (bs : List (BitVec 8)) : stream (b :: bs) = bits b ++ stream bs :=
  List.flatMap_cons

lemma stream_append (bs bs' : List (BitVec 8)) : stream (bs ++ bs') = stream bs ++ stream bs' :=
  List.flatMap_append

/-- No byte is lost on the way. -/
lemma toBytes_stream (bs : List (BitVec 8)) : toBytes (stream bs) = bs := by
  induction bs with
  | nil => rfl
  | cons b bs ih =>
      have hbits : bits b = [b.getMsbD 0, b.getMsbD 1, b.getMsbD 2, b.getMsbD 3, b.getMsbD 4,
          b.getMsbD 5, b.getMsbD 6, b.getMsbD 7] := rfl
      have hbyte : BitVec.ofBoolListBE [b.getMsbD 0, b.getMsbD 1, b.getMsbD 2, b.getMsbD 3,
          b.getMsbD 4, b.getMsbD 5, b.getMsbD 6, b.getMsbD 7] = b := by
        revert b
        decide +kernel
      rw [stream_cons, hbits]
      simp only [List.cons_append, List.nil_append, toBytes, ih]
      rw [hbyte]

end BitStream
