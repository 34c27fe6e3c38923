import FissLock.Library.HolderQueue
import FissLock.Library.Runs

/-!
# A queue that is released from the front

A readers-writer lock that is a queue with its holders in it, as in `HolderQueue`, with two
differences.  A release takes out the **first** entry, whoever made it, so that of several readers
one may leave and the entry of another is dropped.  And a holder does not know that it is one until
it is told: who entered while the queue was blocked is notified later.

* `log` are the entries in the order in which they came, of which the first `released` are gone;
* `due` are those that the lock belongs to and that were not told, `notified` those that were, and
  `held` those of the latter that have not released it.

`Inv` is the invariant: `Serves` says that those who hold the lock and those who are about to be
told fit the queue although they need not be its first entries, and `account` that the lock was
given out in the order of the log.
-/

namespace HolderQueue

variable {α : Type*} {x : α → Bool}

/-! ## Who holds the lock -/

lemma holders_front (q : List α) : holders x q <+: q := by
  unfold holders
  split
  · exact List.take_prefix 1 q
  · exact List.takeWhile_prefix _

lemma holders_nil : holders x [] = [] := rfl

/-- A writer that is first holds the lock alone. -/
lemma holders_cons_writer {b : α} (hb : x b = true) (q : List α) : holders x (b :: q) = [b] := by
  simp [holders, sharedPrefix, hb]

/-- A reader that is first shares it with the readers behind it. -/
lemma holders_cons_reader {b : α} (hb : x b = false) (q : List α) :
    holders x (b :: q) = b :: sharedPrefix x q := by
  simp [holders, sharedPrefix, hb]

lemma sharedPrefix_cons_reader {b : α} (hb : x b = false) (q : List α) :
    sharedPrefix x (b :: q) = b :: sharedPrefix x q := by
  simp [sharedPrefix, hb]

lemma sharedPrefix_cons_writer {b : α} (hb : x b = true) (q : List α) :
    sharedPrefix x (b :: q) = [] := by
  simp [sharedPrefix, hb]

lemma holders_eq_nil {q : List α} : holders x q = [] ↔ q = [] := by
  cases q with
  | nil => simp [holders_nil]
  | cons b q =>
      cases hb : x b with
      | true => simp [holders_cons_writer hb]
      | false => simp [holders_cons_reader hb]

/-- A writer among the holders is the only one. -/
lemma holders_of_writer {q : List α} {b : α} (hb : b ∈ holders x q) (hx : x b = true) :
    holders x q = [b] := by
  cases q with
  | nil => cases hb
  | cons c q =>
      cases hc : x c with
      | true =>
          rw [holders_cons_writer hc] at hb ⊢
          rw [List.mem_singleton.1 hb]
      | false =>
          rw [holders_cons_reader hc] at hb
          have hread : ∀ a ∈ c :: sharedPrefix x q, x a = false := by
            rw [← sharedPrefix_cons_reader hc]
            exact (splits x (c :: q)).readers
          rw [hread b hb] at hx
          cases hx

/-- Whoever enters an unblocked queue finds that all entries hold the lock. -/
lemma holders_of_entering {q : List α} {a : α} (h : entering x q a ≠ []) : holders x q = q := by
  unfold entering at h
  split at h
  · next hfree =>
      rcases hfree with rfl | ⟨hread, -⟩
      · exact holders_nil
      · cases q with
        | nil => exact holders_nil
        | cons b q =>
            rw [holders_cons_reader (hread b List.mem_cons_self), sharedPrefix,
              List.takeWhile_eq_self_iff.2 fun c hc => by
                simpa using hread c (List.mem_cons_of_mem b hc)]
  · exact absurd rfl h

/-- The writer that enters an unblocked queue finds it empty. -/
lemma entering_writer {q : List α} {a : α} (h : entering x q a ≠ []) (ha : x a = true) :
    q = [] := by
  unfold entering at h
  split at h
  · next hfree =>
      rcases hfree with rfl | ⟨-, hread⟩
      · rfl
      · rw [ha] at hread
        cases hread
  · exact absurd rfl h

/-! ## Those who hold the lock fit the queue -/

/-- As many as there are holders, readers or writers as they are; a writer among the holders is
the only one. -/
structure Serves (x : α → Bool) (q : List α) (m : Multiset α) : Prop where
  card : m.card = (holders x q).length
  mode : ∀ a ∈ m, ∀ b ∈ holders x q, x a = x b
  writer : ∀ b ∈ holders x q, x b = true → m = {b}

lemma serves_nil : Serves x [] 0 where
  card := rfl
  mode := by simp
  writer := by simp [holders_nil]

/-- The holders of the queue themselves fit it. -/
lemma serves_holders (q : List α) : Serves x q (holders x q) where
  card := Multiset.coe_card _
  mode a ha b hb := by
    rw [Multiset.mem_coe] at ha
    cases hxa : x a with
    | true =>
        rw [holders_of_writer ha hxa, List.mem_singleton] at hb
        rw [hb, hxa]
    | false =>
        cases hxb : x b with
        | false => rfl
        | true =>
            rw [holders_of_writer hb hxb, List.mem_singleton] at ha
            rw [ha, hxb] at hxa
            cases hxa
  writer b hb hx := by rw [holders_of_writer hb hx, Multiset.coe_singleton]

variable {q : List α} {m : Multiset α}

lemma Serves.eq_zero (hs : Serves x [] m) : m = 0 := by
  rw [← Multiset.card_eq_zero, hs.card, holders_nil, List.length_nil]

/-- The first entry holds the lock, and whoever holds it is in the mode of the first entry. -/
lemma Serves.mode_head {b : α} (hs : Serves x (b :: q) m) {a : α} (ha : a ∈ m) : x a = x b := by
  refine hs.mode a ha b ?_
  cases hb : x b with
  | true => simp [holders_cons_writer hb]
  | false => simp [holders_cons_reader hb]

/-- A writer that holds the lock is alone. -/
lemma Serves.alone (hs : Serves x q m) {a : α} (ha : a ∈ m) (hx : x a = true) : m = {a} := by
  cases q with
  | nil =>
      rw [hs.eq_zero] at ha
      cases ha
  | cons b q =>
      have hb : x b = true := (hs.mode_head ha).symm.trans hx
      have hm := hs.writer b (by simp [holders_cons_writer hb]) hb
      rw [hm, Multiset.mem_singleton] at ha
      rw [hm, ha]

/-- An entry is appended. -/
lemma Serves.enter (hs : Serves x q m) (a : α) :
    Serves x (q ++ [a]) (m + (entering x q a : List α)) := by
  by_cases hent : entering x q a = []
  · have hsame : holders x (q ++ [a]) = holders x q := by
      rw [holders_concat, hent, List.append_nil]
    rw [hent, Multiset.coe_nil, add_zero]
    exact ⟨by rw [hsame, hs.card], by rw [hsame]; exact hs.mode, by rw [hsame]; exact hs.writer⟩
  · have hone : entering x q a = [a] := by
      unfold entering at hent ⊢
      split at hent
      · next h => exact if_pos h
      · exact absurd rfl hent
    have hall := holders_of_entering hent
    have hnext : holders x (q ++ [a]) = q ++ [a] := by rw [holders_concat, hone, hall]
    rw [hone]
    cases q with
    | nil =>
        rw [hs.eq_zero, zero_add]
        have := serves_holders (x := x) [a]
        rw [List.nil_append] at hnext ⊢
        rwa [hnext] at this
    | cons b q =>
        have ha : x a = false := by
          by_contra ha
          cases entering_writer hent (by simpa using ha)
        have hb : x b = false := by
          by_contra hb
          rw [Bool.not_eq_false] at hb
          have := holders_of_writer (by rw [hnext]; simp : b ∈ holders x (b :: q ++ [a])) hb
          rw [hnext] at this
          simp at this
        have hread : ∀ c ∈ holders x (b :: q ++ [a]), x c = false := by
          intro c hc
          by_contra hx
          rw [Bool.not_eq_false] at hx
          have := holders_of_writer hc hx
          rw [hnext] at this
          simp at this
        refine ⟨?_, fun c hc d hd => ?_, fun c hc hx => ?_⟩
        · rw [hnext, Multiset.card_add, hs.card, hall, Multiset.coe_card, List.length_append]
        · rw [hread d hd]
          rw [Multiset.mem_add, Multiset.mem_coe, List.mem_singleton] at hc
          rcases hc with hc | rfl
          · rw [hs.mode_head hc, hb]
          · exact ha
        · rw [hread c hc] at hx
          cases hx

variable [DecidableEq α]

/-- One of those who hold the lock leaves, and the first entry is taken out. -/
lemma Serves.leave {b r : α} (hs : Serves x (b :: q) m) (hr : r ∈ m) :
    Serves x q (m.erase r + (leaving x (b :: q) b : List α)) := by
  cases hb : x b with
  | true =>
      have hm : m = {b} := hs.writer b (by simp [holders_cons_writer hb]) hb
      obtain rfl : r = b := by simpa [hm] using hr
      rw [hm, Multiset.erase_singleton, zero_add, leaving_writer hb]
      exact serves_holders q
  | false =>
      have hcard : (m.erase r).card = (sharedPrefix x q).length := by
        rw [Multiset.card_erase_of_mem hr, hs.card, holders_cons_reader hb]
        rfl
      have hread : ∀ a ∈ m.erase r, x a = false := fun a ha =>
        (hs.mode_head (Multiset.mem_of_mem_erase ha)).trans hb
      rw [leaving_reader hb]
      cases q with
      | nil =>
          rw [show m.erase r = 0 from Multiset.card_eq_zero.1 hcard]
          exact serves_nil
      | cons c q =>
          cases hc : x c with
          | true =>
              rw [sharedPrefix_cons_writer hc] at hcard
              have := serves_holders (x := x) (c :: q)
              rw [show m.erase r = 0 from Multiset.card_eq_zero.1 hcard, zero_add]
              rw [holders_cons_writer hc] at this
              simpa [hc] using this
          | false =>
              have hhold : holders x (c :: q) = sharedPrefix x (c :: q) := by
                rw [holders_cons_reader hc, sharedPrefix_cons_reader hc]
              have hmode : ∀ d ∈ holders x (c :: q), x d = false := by
                rw [hhold]
                exact (splits x (c :: q)).readers
              have hnone : ((c :: q).take 1).filter x = [] := by simp [hc]
              rw [hnone, Multiset.coe_nil, add_zero]
              refine ⟨hcard.trans (by rw [hhold]), fun a ha d hd => ?_, fun d hd hx => ?_⟩
              · rw [hread a ha, hmode d hd]
              · rw [hmode d hd] at hx
                cases hx

end HolderQueue

/-! ## The queue -/

namespace ServedQueue

open HolderQueue Runs

variable {α : Type*}

/-- The queue and what its clients were told. -/
structure State (α : Type*) where
  log : List α
  released : ℕ
  due : Multiset α
  notified : Multiset α
  held : Multiset α

def State.start : State α := ⟨[], 0, 0, 0, 0⟩

/-- The entries that are in the queue. -/
def State.live (s : State α) : List α := s.log.drop s.released

inductive Event (α : Type*) where
  | enter (a : α)
  | notify (a : α)
  | leave (r : α)

variable [DecidableEq α] (x : α → Bool)

/-- An entry is appended, and told at once if the lock belongs to it. -/
def State.enter (s : State α) (a : α) : State α :=
  { s with
    log := s.log ++ [a]
    notified := s.notified + (entering x s.live a : List α)
    held := s.held + (entering x s.live a : List α) }

/-- Somebody the lock belongs to is told. -/
def State.notify (s : State α) (a : α) : State α :=
  { s with
    due := s.due.erase a
    notified := s.notified + {a}
    held := s.held + {a} }

/-- `r` releases the lock, and the first entry `b` is taken out. -/
def State.leave (s : State α) (b r : α) : State α :=
  { s with
    released := s.released + 1
    due := s.due + (leaving x s.live b : List α)
    held := s.held.erase r }

/-- The step function. -/
def State.step (s : State α) : Event α → Option (State α)
  | .enter a => some (s.enter x a)
  | .notify a => if a ∈ s.due then some (s.notify a) else none
  | .leave r => if r ∈ s.held then s.live.head?.map fun b => s.leave x b r else none

/-- The invariant. -/
structure Inv (s : State α) : Prop where
  bound : s.released ≤ s.log.length
  serves : Serves x s.live (s.held + s.due)
  /-- Those who were told, or are about to be, are the entries that are gone and the holders. -/
  account : s.notified + s.due = (s.log.take s.released ++ holders x s.live : List α)
  held_le : s.held ≤ s.notified

variable {x} {s s' : State α} {a b r : α}

omit [DecidableEq α] in
lemma inv_start : Inv x (State.start : State α) := ⟨Nat.le_refl 0, serves_nil, rfl, le_refl 0⟩

omit [DecidableEq α] in
lemma live_enter (hb : s.released ≤ s.log.length) : (s.enter x a).live = s.live ++ [a] :=
  List.drop_append_of_le_length hb

lemma live_leave : (s.leave x b r).live = s.live.tail := by
  rw [State.live, State.live, List.tail_drop]
  rfl

omit [DecidableEq α] in
lemma Inv.enter (hi : Inv x s) (a : α) : Inv x (s.enter x a) where
  bound := by
    have := hi.bound
    simp only [State.enter, List.length_append]
    omega
  serves := by
    have hs := hi.serves.enter a
    rw [live_enter hi.bound]
    rw [add_right_comm] at hs
    exact hs
  account := by
    rw [live_enter hi.bound, holders_concat]
    simp only [State.enter, List.take_append_of_le_length hi.bound]
    rw [add_right_comm, hi.account, ← List.append_assoc, Multiset.coe_add]
  held_le := add_le_add_left hi.held_le _

lemma Inv.notify (hi : Inv x s) (ha : a ∈ s.due) : Inv x (s.notify a) where
  bound := hi.bound
  serves := by
    have hs := hi.serves
    rw [← Multiset.cons_erase ha, ← Multiset.singleton_add, ← add_assoc] at hs
    exact hs
  account := by
    have hacc := hi.account
    rw [← Multiset.cons_erase ha, ← Multiset.singleton_add, ← add_assoc] at hacc
    exact hacc
  held_le := add_le_add_left hi.held_le _

omit [DecidableEq α] in
/-- Whoever holds the lock has an entry in the queue to release, in its own mode. -/
lemma Inv.live_ne_nil (hi : Inv x s) (hr : r ∈ s.held) :
    ∃ b q, s.live = b :: q ∧ x r = x b := by
  have hmem : r ∈ s.held + s.due := Multiset.mem_add.2 (.inl hr)
  have hs := hi.serves
  cases hq : s.live with
  | nil =>
      rw [hq] at hs
      rw [hs.eq_zero] at hmem
      cases hmem
  | cons b q =>
      rw [hq] at hs
      exact ⟨b, q, rfl, hs.mode_head hmem⟩

lemma Inv.leave (hi : Inv x s) (hr : r ∈ s.held) {q : List α} (hq : s.live = b :: q) :
    Inv x (s.leave x b r) where
  bound := by
    have hlen : s.live.length = s.log.length - s.released := List.length_drop
    rw [hq, List.length_cons] at hlen
    show s.released + 1 ≤ s.log.length
    omega
  serves := by
    have hs := hi.serves
    rw [hq] at hs
    have hl := hs.leave (Multiset.mem_add.2 (.inl hr))
    rw [live_leave, hq, List.tail_cons]
    rw [Multiset.erase_add_left_pos _ hr, add_assoc] at hl
    simpa only [State.leave, hq] using hl
  account := by
    have hlog : s.log.take (s.released + 1) = s.log.take s.released ++ [b] := by
      rw [List.take_add, show s.log.drop s.released = b :: q from hq]
      rfl
    have hsep : ¬ Separates x (b :: q) b := by
      rintro ⟨hpre, hhead, -⟩
      have hxb := (splits x (b :: q)).writer b hhead
      exact hpre (sharedPrefix_cons_writer hxb q)
    have hmem : b ∈ holders x (b :: q) := by
      cases hb : x b with
      | true => simp [holders_cons_writer hb]
      | false => simp [holders_cons_reader hb]
    have hhold := holders_erase hsep
    rw [List.erase_cons_head] at hhold
    have hacc := hi.account
    rw [hq] at hacc
    rw [live_leave, hq, List.tail_cons, hhold]
    simp only [State.leave, hlog, hq]
    rw [← add_assoc, hacc]
    -- the entry that is taken out moves from the holders to those that are gone
    rw [Multiset.coe_add, Multiset.coe_eq_coe]
    have hperm := List.perm_cons_erase hmem
    calc s.log.take s.released ++ holders x (b :: q) ++ leaving x (b :: q) b
        = s.log.take s.released ++ (holders x (b :: q) ++ leaving x (b :: q) b) :=
          List.append_assoc _ _ _
      List.Perm _ (s.log.take s.released
          ++ (b :: (holders x (b :: q)).erase b ++ leaving x (b :: q) b)) :=
          (hperm.append_right _).append_left _
      _ = s.log.take s.released ++ [b]
          ++ ((holders x (b :: q)).erase b ++ leaving x (b :: q) b) := by simp
  held_le := (Multiset.erase_le r s.held).trans hi.held_le

/-- **The invariant is kept.** -/
theorem Inv.step (hi : Inv x s) {e : Event α} (h : s.step x e = some s') : Inv x s' := by
  cases e with
  | enter a =>
      obtain rfl := Option.some.inj h
      exact hi.enter a
  | notify a =>
      rw [State.step] at h
      split at h
      · next ha =>
          obtain rfl := Option.some.inj h
          exact hi.notify ha
      · cases h
  | leave r =>
      rw [State.step] at h
      split at h
      · next hr =>
          obtain ⟨b, hb, rfl⟩ := Option.map_eq_some_iff.1 h
          obtain ⟨q, hq⟩ := List.head?_eq_some_iff.1 hb
          exact hi.leave hr hq
      · cases h

/-! ## What it says of the lock -/

omit [DecidableEq α] in
/-- A writer that holds the lock holds it alone, and nobody is about to be told. -/
theorem Inv.alone (hi : Inv x s) (ha : a ∈ s.held) (hx : x a = true) :
    s.held = {a} ∧ s.due = 0 := by
  have hsum := hi.serves.alone (Multiset.mem_add.2 (.inl ha)) hx
  have hcard : s.held.card + s.due.card = 1 := by
    rw [← Multiset.card_add, hsum, Multiset.card_singleton]
  have hpos : 0 < s.held.card := Multiset.card_pos_iff_exists_mem.2 ⟨a, ha⟩
  have hdue : s.due = 0 := Multiset.card_eq_zero.1 (by omega)
  rw [hdue, add_zero] at hsum
  exact ⟨hsum, hdue⟩

omit [DecidableEq α] in
/-- If everybody has been told, a queue that is not empty has a holder. -/
theorem Inv.held_ne_zero (hi : Inv x s) (hdue : s.due = 0) (hne : s.live ≠ []) : s.held ≠ 0 := by
  intro hz
  have hcard := hi.serves.card
  rw [hdue, hz, add_zero, Multiset.card_zero] at hcard
  exact hne (holders_eq_nil.1 (List.length_eq_zero_iff.1 hcard.symm))

omit [DecidableEq α] in
/-- Only requests that entered hold the lock. -/
lemma Inv.mem_log (hi : Inv x s) (ha : a ∈ s.held) : a ∈ s.log := by
  have hmem : a ∈ s.notified + s.due :=
    Multiset.mem_add.2 (.inl (Multiset.mem_of_le hi.held_le ha))
  rw [hi.account, Multiset.mem_coe, List.mem_append] at hmem
  rcases hmem with hmem | hmem
  · exact List.mem_of_mem_take hmem
  · exact List.mem_of_mem_drop ((holders_front _).subset hmem)

omit [DecidableEq α] in
/-- The lock is given out in the order of the log. -/
theorem Inv.served_prefix (hi : Inv x s) :
    s.notified + s.due = (s.log.take (s.released + (holders x s.live).length) : List α) := by
  rw [hi.account, List.take_add]
  congr 2
  exact List.prefix_iff_eq_take.1 (holders_front _)

end ServedQueue
