import FissLock.Library.BitStream

/-!
# Formats of packet headers

A `Format` reads a value off the front of a stream of bits and writes it there.  It carries its two
laws: what was written is read back, and what was read is what stood there.

* `Format.word` — a field of `w` bits; `Format.seq` — one after the other; `Format.iso` — fields as
  a structure;
* `Format.opt` — a header that is read only if the ones before it ask for it, and left out if the
  stream is too short for it; `Format.emitOpt` — a header that is written only if it is there;
* `emitOpt_opt` — to read and to write again changes nothing, whatever the stream.
-/

namespace BitStream

variable {α β : Type*}

/-- How a value is laid out in bits. -/
structure Format (α : Type*) where
  extract : List Bool → Option (α × List Bool)
  emit : α → List Bool
  extract_emit : ∀ a s, extract (emit a ++ s) = some (a, s)
  emit_extract : ∀ s a s', extract s = some (a, s') → emit a ++ s' = s

/-- What is read as a field stood there. -/
lemma bits_of_field {w : ℕ} {s s' : List Bool} {x : BitVec w} (h : field w s = some (x, s')) :
    bits x ++ s' = s := by
  unfold field at h
  split at h
  · next hlen =>
      obtain ⟨rfl, rfl⟩ := Prod.mk.inj (Option.some.inj h)
      have htake : bits (BitVec.ofFnBE fun i : Fin w => s.getD i false) = s.take w := by
        apply List.ext_getElem
        · simp [hlen]
        · intro i hi _
          have hiw : i < w := by simpa using hi
          rw [← List.getD_eq_getElem _ false hi, getD_bits, BitVec.getMsbD_ofFnBE, dif_pos hiw]
          simp [List.getElem?_eq_getElem (lt_of_lt_of_le hiw hlen)]
      rw [htake, List.take_append_drop]
  · cases h

namespace Format

/-- A field of `w` bits. -/
def word (w : ℕ) : Format (BitVec w) where
  extract := field w
  emit := bits
  extract_emit := field_bits
  emit_extract _ _ _ := bits_of_field

/-- One after the other. -/
def seq (f : Format α) (g : Format β) : Format (α × β) where
  extract s := (f.extract s).bind fun x => (g.extract x.2).map fun y => ((x.1, y.1), y.2)
  emit x := f.emit x.1 ++ g.emit x.2
  extract_emit x s := by
    rw [List.append_assoc, f.extract_emit, Option.bind_some, g.extract_emit]
    rfl
  emit_extract s x s' h := by
    obtain ⟨a, ha, h⟩ := Option.bind_eq_some_iff.1 h
    obtain ⟨b, hb, h⟩ := Option.map_eq_some_iff.1 h
    obtain ⟨rfl, rfl⟩ := Prod.mk.inj h
    rw [List.append_assoc, g.emit_extract _ _ _ hb, f.emit_extract _ _ _ ha]

/-- Under another name. -/
def iso (f : Format α) (e : α ≃ β) : Format β where
  extract s := (f.extract s).map fun x => (e x.1, x.2)
  emit b := f.emit (e.symm b)
  extract_emit b s := by
    rw [f.extract_emit, Option.map_some, Equiv.apply_symm_apply]
  emit_extract s b s' h := by
    obtain ⟨a, ha, h⟩ := Option.map_eq_some_iff.1 h
    obtain ⟨rfl, rfl⟩ := Prod.mk.inj h
    rw [Equiv.symm_apply_apply, f.emit_extract _ _ _ ha]

variable (f : Format α)

/-- Read the header if it is asked for. -/
def opt (asked : Bool) (s : List Bool) : Option α × List Bool :=
  if asked then
    match f.extract s with
    | some (a, s') => (some a, s')
    | none => (none, s)
  else (none, s)

/-- Write the header if it is there. -/
def emitOpt : Option α → List Bool
  | some a => f.emit a
  | none => []

@[simp] lemma emitOpt_some (a : α) : f.emitOpt (some a) = f.emit a := rfl

@[simp] lemma emitOpt_none : f.emitOpt none = [] := rfl

@[simp] lemma opt_false (s : List Bool) : f.opt false s = (none, s) := rfl

lemma opt_emit (a : α) (s : List Bool) : f.opt true (f.emit a ++ s) = (some a, s) := by
  rw [opt, if_pos rfl, f.extract_emit]

/-- **Reading and writing again changes nothing.** -/
lemma emitOpt_opt (asked : Bool) (s : List Bool) :
    f.emitOpt (f.opt asked s).1 ++ (f.opt asked s).2 = s := by
  cases asked with
  | false => rfl
  | true =>
      rw [opt, if_pos rfl]
      cases h : f.extract s with
      | none => rfl
      | some x => exact f.emit_extract _ _ _ h

end Format
end BitStream
