import FissLock.Library.ReadersWriter

/-!
# First come, first served with the holders in the queue

A readers-writer lock that is nothing but a queue of requests, in the order in which they came; the
holders stay in it until they are done.  The first request of the queue holds the lock, and if it is
a reader so do all readers up to the first writer: these are `holders`.

`entering` and `leaving` are what such a lock grants when a request is appended and when one is
taken out.  `holders_concat` and `holders_erase` say that this keeps up with `holders`, with one
exception: if the writer behind the readers that hold the lock gives up and a reader is next, that
reader becomes a holder although nobody in front of it is done.  `Separates` is this case,
`Inv.leave` what holds without it, and `not_granted_of_separates` what goes wrong with it.
-/

namespace HolderQueue

open ReadersWriter

section Holders

variable {α : Type*} (x : α → Bool)

/-- The readers before the first writer. -/
def sharedPrefix (q : List α) : List α := q.takeWhile fun a => !x a

/-- The queue from the first writer on. -/
def behind (q : List α) : List α := q.dropWhile fun a => !x a

/-- Who holds the lock. -/
def holders (q : List α) : List α :=
  if sharedPrefix x q = [] then q.take 1 else sharedPrefix x q

/-- Readers, and behind them nothing or a writer. -/
structure Splits (pre beh : List α) : Prop where
  readers : ∀ a ∈ pre, x a = false
  writer : ∀ a ∈ beh.head?, x a = true

lemma splits (q : List α) : Splits x (sharedPrefix x q) (behind x q) where
  readers a ha := by simpa using List.mem_takeWhile_imp ha
  writer a ha := by
    have := List.head?_dropWhile_not (fun a => !x a) q
    rw [show q.dropWhile _ = behind x q from rfl, Option.mem_def.1 ha] at this
    simpa using this

lemma sharedPrefix_append_behind (q : List α) : sharedPrefix x q ++ behind x q = q :=
  List.takeWhile_append_dropWhile

variable {x} {pre beh : List α}

lemma Splits.sharedPrefix_eq (h : Splits x pre beh) : sharedPrefix x (pre ++ beh) = pre := by
  rw [sharedPrefix, List.takeWhile_append_of_pos (by simpa using h.readers)]
  cases beh with
  | nil => simp
  | cons c rest => simp [h.writer c rfl]

lemma Splits.holders_eq (h : Splits x pre beh) :
    holders x (pre ++ beh) = if pre = [] then beh.take 1 else pre := by
  rw [holders, h.sharedPrefix_eq]
  split
  · next hpre => rw [hpre, List.nil_append]
  · rfl

lemma Splits.concat (h : Splits x pre beh) (hbeh : beh ≠ []) (a : α) :
    Splits x pre (beh ++ [a]) where
  readers := h.readers
  writer c hc := h.writer c (by rwa [List.head?_append_of_ne_nil beh hbeh] at hc)

end Holders

section Grants

variable {α : Type*} (x : α → Bool)

/-- Whom the lock is granted when `a` is appended to the queue. -/
def entering (q : List α) (a : α) : List α :=
  if q = [] ∨ (∀ b ∈ q, x b = false) ∧ x a = false then [a] else []

/-- `a` is the writer between the readers that hold the lock and a reader that waits. -/
def Separates (q : List α) (a : α) : Prop :=
  sharedPrefix x q ≠ [] ∧ (behind x q).head? = some a
    ∧ ∃ b ∈ (behind x q).tail.head?, x b = false

instance [DecidableEq α] (q : List α) (a : α) : Decidable (Separates x q a) :=
  inferInstanceAs (Decidable (_ ∧ _ ∧ _))

/-- Whom it is granted when `a` is taken out. -/
def leaving [DecidableEq α] (q : List α) (a : α) : List α :=
  if q.head? = some a then
    if x a = true then holders x q.tail else (q.tail.take 1).filter x
  else []

variable {x}

lemma holders_concat (q : List α) (a : α) :
    holders x (q ++ [a]) = holders x q ++ entering x q a := by
  have hs := splits x q
  have hq := sharedPrefix_append_behind x q
  generalize sharedPrefix x q = pre at hs hq
  generalize behind x q = beh at hs hq
  subst hq
  by_cases hbeh : beh = []
  · subst hbeh
    rw [List.append_nil, entering]
    by_cases hpre : pre = []
    · subst hpre
      by_cases ha : x a = true <;> simp [holders, sharedPrefix, ha]
    · have hold : holders x pre = pre := by simpa [hpre] using hs.holders_eq
      by_cases ha : x a = true
      · have hsp : Splits x pre [a] := ⟨hs.readers, by simp [ha]⟩
        simp [hsp.holders_eq, hold, hpre, ha]
      · have hsp : Splits x (pre ++ [a]) [] :=
          ⟨by simpa [or_imp, forall_and, ha] using hs.readers, by simp⟩
        have := hsp.holders_eq
        simp only [List.append_nil, List.append_eq_nil_iff, hpre, false_and, if_false] at this
        rw [this, hold, if_pos (.inr ⟨hs.readers, by simpa using ha⟩)]
  · have hent : entering x (pre ++ beh) a = [] := by
      obtain ⟨c, rest, rfl⟩ := List.exists_cons_of_ne_nil hbeh
      have hc := hs.writer c rfl
      rw [entering, if_neg]
      rintro (h | ⟨h, -⟩)
      · simp at h
      · simp [h c (by simp)] at hc
    rw [List.append_assoc, (hs.concat hbeh a).holders_eq, hs.holders_eq, hent, List.append_nil,
      List.take_append_of_le_length (List.length_pos_of_ne_nil hbeh)]

variable [DecidableEq α]

lemma leaving_eq_nil {q : List α} {a : α} (h : q.head? ≠ some a) : leaving x q a = [] := if_neg h

/-- A reader leaves that is first in the queue. -/
lemma leaving_reader {q : List α} {a : α} (ha : x a = false) :
    leaving x (a :: q) a = (q.take 1).filter x := by simp [leaving, ha]

/-- A writer leaves that is first in the queue. -/
lemma leaving_writer {q : List α} {a : α} (ha : x a = true) :
    leaving x (a :: q) a = holders x q := by simp [leaving, ha]

/-- A reader that holds the lock is taken out. -/
lemma Splits.holders_erase_reader {a : α} (hs : Splits x pre beh) (hmem : a ∈ pre) :
    holders x ((pre ++ beh).erase a) = pre.erase a ++ leaving x (pre ++ beh) a := by
  obtain ⟨c, rest, rfl⟩ := List.exists_cons_of_ne_nil (List.ne_nil_of_mem hmem)
  have hsp : Splits x ((c :: rest).erase a) beh :=
    ⟨fun b hb => hs.readers b (List.mem_of_mem_erase hb), hs.writer⟩
  rw [List.erase_append_left beh hmem, hsp.holders_eq]
  by_cases hca : c = a
  · subst hca
    rw [List.erase_cons_head, List.cons_append, leaving_reader (hs.readers c hmem)]
    cases rest with
    | nil =>
        cases beh with
        | nil => rfl
        | cons b beh => simp [hs.writer b rfl]
    | cons d rest => simp [hs.readers d (by simp)]
  · rw [leaving_eq_nil (by simpa using hca), List.erase_cons_tail (by simpa using hca)]
    simp

/-- A writer is first in the queue. -/
lemma Splits.holders_erase_writer {a : α} (hs : Splits x [] beh) :
    holders x (beh.erase a) = (beh.take 1).erase a ++ leaving x beh a := by
  cases beh with
  | nil => simp [holders, leaving, sharedPrefix]
  | cons c rest =>
      by_cases hca : c = a
      · subst hca
        simp [leaving_writer (hs.writer c rfl)]
      · have hsp : Splits x [] (c :: rest.erase a) := ⟨by simp, hs.writer⟩
        have := hsp.holders_eq
        rw [List.erase_cons_tail (by simpa using hca), leaving_eq_nil (by simpa using hca)]
        rw [List.nil_append, if_pos rfl] at this
        rw [this]
        simp [List.erase_of_not_mem, Ne.symm hca]

/-- What waits behind readers is taken out; the rest still begins with a writer. -/
lemma Splits.erase_behind {a : α} (hs : Splits x pre beh) (hpre : pre ≠ [])
    (ha : ¬ (pre ≠ [] ∧ beh.head? = some a ∧ ∃ b ∈ beh.tail.head?, x b = false)) :
    Splits x pre (beh.erase a) := by
  refine ⟨hs.readers, fun b hb => ?_⟩
  cases beh with
  | nil => cases hb
  | cons c rest =>
      by_cases hca : c = a
      · subst hca
        rw [List.erase_cons_head] at hb
        by_contra hx
        exact ha ⟨hpre, rfl, b, hb, by simpa using hx⟩
      · rw [List.erase_cons_tail (by simpa using hca)] at hb
        exact hs.writer b hb

lemma holders_erase {q : List α} {a : α} (ha : ¬ Separates x q a) :
    holders x (q.erase a) = (holders x q).erase a ++ leaving x q a := by
  rw [Separates] at ha
  have hs := splits x q
  have hq := sharedPrefix_append_behind x q
  generalize sharedPrefix x q = pre at hs hq ha
  generalize behind x q = beh at hs hq ha
  subst hq
  rw [hs.holders_eq]
  by_cases hmem : a ∈ pre
  · rw [if_neg (List.ne_nil_of_mem hmem), hs.holders_erase_reader hmem]
  by_cases hpre : pre = []
  · subst hpre
    exact hs.holders_erase_writer
  · have hhead : (pre ++ beh).head? ≠ some a := by
      rw [List.head?_append_of_ne_nil pre hpre]
      exact fun h => hmem (List.mem_of_mem_head? h)
    rw [List.erase_append_right beh hmem, (hs.erase_behind hpre ha).holders_eq,
      leaving_eq_nil hhead, if_neg hpre, if_neg hpre, List.erase_of_not_mem hmem, List.append_nil]

end Grants

/-! ## The invariant -/

section Invariant

variable {α : Type*} [DecidableEq α] (x : α → Bool)

/-- The queue holds the open requests, each once, and those that hold the lock were granted it,
once. -/
structure Inv (q : List α) (h : History α) : Prop where
  nodup : q.Nodup
  request : ∀ a, h.request a = if a ∈ q then some (x a) else none
  grants : ∀ a, h.grants a = (holders x q).count a

lemma inv_start : Inv x [] History.start where
  nodup := List.nodup_nil
  request _ := rfl
  grants _ := rfl

variable {x} {q : List α} {h : History α} {a : α}

lemma Inv.request_eq_none (hi : Inv x q h) : h.request a = none ↔ a ∉ q := by
  rw [hi.request]
  split <;> simp_all

omit [DecidableEq α] in
lemma holders_sublist (q : List α) : (holders x q).Sublist q := by
  unfold holders
  split
  · exact List.take_sublist 1 q
  · exact List.takeWhile_sublist _

/-- A request is appended. -/
lemma Inv.enter (hi : Inv x q h) (ha : h.request a = none) :
    Inv x (q ++ [a]) (h.requested a (x a) (entering x q a)) where
  nodup := by
    rw [List.nodup_append_comm, List.singleton_append]
    exact hi.nodup.cons (hi.request_eq_none.1 ha)
  request b := by
    by_cases hba : b = a
    · simp [History.requested, hba]
    · simp [History.requested, hba, hi.request b]
  grants b := by
    rw [holders_concat, List.count_append]
    by_cases hba : b = a
    · have hno : a ∉ holders x q := fun hm =>
        hi.request_eq_none.1 ha ((holders_sublist q).subset hm)
      simp [History.requested, hba, List.count_eq_zero.2 hno]
    · simp [History.requested, hba, hi.grants b]

/-- A request is taken out, whether it holds the lock or waits. -/
lemma Inv.leave (hi : Inv x q h) (ha : ¬ Separates x q a) :
    Inv x (q.erase a) (h.ended a (leaving x q a)) where
  nodup := hi.nodup.erase a
  request b := by
    rw [History.request_ended]
    by_cases hba : b = a
    · subst hba
      simp [hi.nodup.mem_erase_iff]
    · simp [hba, hi.request b, hi.nodup.mem_erase_iff]
  grants b := by
    rw [History.grants_ended, holders_erase ha, List.count_append]
    by_cases hba : b = a
    · subst hba
      have hnd : (holders x q).Nodup := hi.nodup.sublist (holders_sublist q)
      rw [Function.update_self, List.count_eq_zero.2 hnd.not_mem_erase]
    · rw [Function.update_of_ne hba, List.count_erase_of_ne hba, hi.grants b]

/-! ## What the invariant says of the lock -/

lemma Inv.granted_iff (hi : Inv x q h) : h.granted a ↔ a ∈ holders x q := by
  rw [History.granted, hi.grants, List.count_pos_iff]
  refine ⟨And.right, fun hm => ⟨?_, hm⟩⟩
  rw [ne_eq, hi.request_eq_none, not_not]
  exact (holders_sublist q).subset hm

/-- A writer that was granted the lock is alone. -/
lemma Inv.exclusive (hi : Inv x q h) (ha : h.granted a) (hx : x a = true) {b : α}
    (hb : h.granted b) : b = a := by
  rw [hi.granted_iff, holders] at ha hb
  split at ha
  · cases q with
    | nil => simp at ha
    | cons c q => simp_all
  · have := (splits x q).readers a ha
    simp [hx] at this

/-- The first request was granted the lock. -/
lemma Inv.head_granted (hi : Inv x q h) (ha : q.head? = some a) : h.granted a := by
  obtain ⟨q', rfl⟩ := List.head?_eq_some_iff.1 ha
  rw [hi.granted_iff, holders]
  split
  · simp
  · next hne =>
      have hx : x a = false := by
        by_contra hx
        simp [sharedPrefix, hx] at hne
      simp [sharedPrefix, hx]

/-- If it is a reader, so were all readers up to the first writer. -/
lemma Inv.prefix_granted (hi : Inv x q h) (ha : a ∈ sharedPrefix x q) : h.granted a := by
  rw [hi.granted_iff, holders, if_neg (List.ne_nil_of_mem ha)]
  exact ha

/-- In the excluded case a reader without the lock is left behind readers that have it. -/
lemma Inv.not_granted_of_separates (hi : Inv x q h) (ha : Separates x q a) :
    ∃ b ∈ sharedPrefix x (q.erase a), ¬ (h.ended a (leaving x q a)).granted b := by
  obtain ⟨hpre, hhead, b, hb, hxb⟩ := ha
  have hs := splits x q
  have hq := sharedPrefix_append_behind x q
  have hxa := hs.writer a hhead
  obtain ⟨beh, hbeh⟩ := List.head?_eq_some_iff.1 hhead
  rw [hbeh, List.tail_cons] at hb
  obtain ⟨rest, rfl⟩ := List.head?_eq_some_iff.1 (Option.mem_def.1 hb)
  rw [hbeh] at hq
  have hhold : holders x q = sharedPrefix x q := if_neg hpre
  generalize sharedPrefix x q = pre at hs hq hhold hpre
  subst hq
  have hapre : a ∉ pre := fun hm => by simp [hs.readers a hm] at hxa
  have hba : b ≠ a := by
    rintro rfl
    simp [hxb] at hxa
  have hbpre : b ∉ pre := fun hm =>
    (List.nodup_append.1 hi.nodup).2.2 b hm b (by simp) rfl
  refine ⟨b, ?_, fun hg => ?_⟩
  · rw [List.erase_append_right _ hapre, List.erase_cons_head, sharedPrefix,
      List.takeWhile_append_of_pos (by simpa using hs.readers)]
    simp [hxb]
  · have hne : (pre ++ a :: b :: rest).head? ≠ some a := by
      rw [List.head?_append_of_ne_nil pre hpre]
      exact fun hm => hapre (List.mem_of_mem_head? hm)
    have := hg.2
    rw [History.grants_ended, Function.update_of_ne hba, hi.grants, hhold, leaving_eq_nil hne,
      List.count_eq_zero.2 hbpre] at this
    simp at this

end Invariant

end HolderQueue
