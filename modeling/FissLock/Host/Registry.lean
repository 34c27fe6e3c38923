import FissLock.Host.PacketProcess

/-!
# The two lock tables of a host

A host finds the metadata of a lock by its key, in `lock_tbl`, when the application calls, and by
its id, in `lock_id_map`, when a packet arrives.  The values of both maps are pointers, so that the
metadata exist once; a `Registry` is the two maps together with the objects they point to.

Objects are created on three paths.  `lock_init` and `lock_local_init` create one and insert it into
**both** maps; `lock_id_to_desc` creates one for a packet whose lock is not known yet and inserts it
into `lock_id_map` only.  `insert` leaves an entry that exists as it is.  So if a lock is registered
after a packet for it has arrived, or under an id that another key was given, the two maps name
different objects from then on, and this is the only way they come to (`registry_coherent_iff`).
-/

namespace FissLock

/-- `lock_key`. -/
abbrev LockKey := BitVec 64

/-- A pointer to lock metadata: objects are numbered in the order in which they were allocated. -/
abbrev LockPtr := ℕ

/-- The objects and the two maps; every pointer points to an object. -/
structure Registry where
  heap : List InnetLock
  lockTbl : LockKey → Option LockPtr
  lockIdMap : LockId → Option LockPtr
  tbl_lt : ∀ key a, lockTbl key = some a → a < heap.length
  map_lt : ∀ lid a, lockIdMap lid = some a → a < heap.length

namespace Registry

/-- `lock_setup`. -/
def init : Registry where
  heap := []
  lockTbl := fun _ => none
  lockIdMap := fun _ => none
  tbl_lt := nofun
  map_lt := nofun

/-- `insert` of an `unordered_map`: an entry that exists stays. -/
def insertNew {α : Type*} [DecidableEq α] (m : α → Option LockPtr) (x : α) (a : LockPtr) :
    α → Option LockPtr :=
  if m x = none then Function.update m x (some a) else m

lemma insertNew_lt {α : Type*} [DecidableEq α] {m : α → Option LockPtr} {n : ℕ} {x : α}
    (hm : ∀ y a, m y = some a → a < n) : ∀ y a, insertNew m x n y = some a → a < n + 1 := by
  intro y a hy
  rw [insertNew] at hy
  split at hy
  · by_cases hxy : y = x
    · rw [hxy, Function.update_self] at hy
      cases hy
      exact Nat.lt_succ_self n
    · rw [Function.update_of_ne hxy] at hy
      exact Nat.lt_succ_of_lt (hm y a hy)
  · exact Nat.lt_succ_of_lt (hm y a hy)

/-- `lock_id_to_desc`: finds the lock, or creates it in `lock_id_map`. -/
def lockIdToDesc (r : Registry) (lid : LockId) : Registry × LockPtr :=
  match r.lockIdMap lid with
  | some a => (r, a)
  | none =>
      ({ heap := r.heap ++ [.init lid]
         lockTbl := r.lockTbl
         lockIdMap := insertNew r.lockIdMap lid r.heap.length
         tbl_lt := fun key a h => by simpa using Nat.lt_succ_of_lt (r.tbl_lt key a h)
         map_lt := by simpa using insertNew_lt r.map_lt },
        r.heap.length)

/-- What `lock_init` and `lock_local_init` do for a key that is not registered yet. -/
def register (r : Registry) (key : LockKey) (lid : LockId) : Registry where
  heap := r.heap ++ [.init lid]
  lockTbl := insertNew r.lockTbl key r.heap.length
  lockIdMap := insertNew r.lockIdMap lid r.heap.length
  tbl_lt := by simpa using insertNew_lt r.tbl_lt
  map_lt := by simpa using insertNew_lt r.map_lt

/-- `lock_init`, with the id that the registration service answers: the tables, and the result. -/
def lockInit (r : Registry) (key : LockKey) (lid : LockId) : Registry × LockId :=
  if r.lockTbl key ≠ none then (r, 0) else (r.register key lid, lid)

/-- `lock_local_init`: the key is the id, cut to 32 bits. -/
def lockLocalInit (r : Registry) (key : LockKey) : Registry × LockId :=
  if r.lockTbl key ≠ none then (r, 0) else (r.register key (key.setWidth 32), key.setWidth 32)

/-- `lock_packet_dispatch`: the packet is processed on the object that `lock_id_map` names. -/
def lockPacketDispatch (cf : Conf) (r : Registry) (hdr : LockHdr) : Registry :=
  let d := r.lockIdToDesc hdr.id
  { heap := d.1.heap.modify d.2 fun l => (lockPacketProcess cf l hdr).lock
    lockTbl := d.1.lockTbl
    lockIdMap := d.1.lockIdMap
    tbl_lt := fun key a h => by simpa using d.1.tbl_lt key a h
    map_lt := fun lid a h => by simpa using d.1.map_lt lid a h }

/-- What can happen to the tables. -/
inductive Event where
  /-- A call of `lock_init`, and the id that the registration service answers. -/
  | lockInit (key : LockKey) (lid : LockId)
  | lockLocalInit (key : LockKey)
  /-- A lock packet arrives. -/
  | packet (hdr : LockHdr)
  deriving DecidableEq, Repr

def step (cf : Conf) (r : Registry) : Event → Registry
  | .lockInit key lid => (r.lockInit key lid).1
  | .lockLocalInit key => (r.lockLocalInit key).1
  | .packet hdr => r.lockPacketDispatch cf hdr

/-- The tables after a sequence of events. -/
def run (cf : Conf) (es : List Event) : Registry := es.foldl (step cf) init

/-- Under the id of a registered lock, `lock_id_map` has the object that `lock_tbl` has under its
key. -/
def Coherent (r : Registry) : Prop :=
  ∀ key a, r.lockTbl key = some a → ∃ l, r.heap[a]? = some l ∧ r.lockIdMap l.id = some a

/-- A lock is registered under an id that is not in use. -/
def Fresh (r : Registry) : Event → Prop
  | .lockInit key lid => r.lockTbl key = none → r.lockIdMap lid = none
  | .lockLocalInit key => r.lockTbl key = none → r.lockIdMap (key.setWidth 32) = none
  | .packet _ => True

/-! ## One step -/

section Step

variable {cf : Conf} {r : Registry} {key : LockKey} {lid : LockId} {hdr : LockHdr}

lemma insertNew_of_none {α : Type*} [DecidableEq α] {m : α → Option LockPtr} {x : α} {a : LockPtr}
    (h : m x = none) : insertNew m x a = Function.update m x (some a) := if_pos h

lemma insertNew_of_some {α : Type*} [DecidableEq α] {m : α → Option LockPtr} {x y : α}
    {a b : LockPtr} (h : m y = some b) : insertNew m x a y = some b := by
  rw [insertNew]
  split
  · next hx =>
      have hxy : y ≠ x := by
        rintro rfl
        rw [h] at hx
        cases hx
      rw [Function.update_of_ne hxy, h]
  · exact h

/-- Digesting a wait queue does not change the id. -/
lemma lockDigestWq_id (l : InnetLock) (wq : List Wqe) : (lockDigestWq l wq).1.id = l.id := by
  rw [lockDigestWq_eq]

lemma handleAcquireLm_id (l : InnetLock) (hid : HostId) (tid : TaskId) (op : LockState) :
    (handleAcquireLm l hid tid op).1.id = l.id := by
  rw [handleAcquireLm]
  split
  · rfl
  · split
    · split <;> rfl
    · rfl

lemma handleReleaseLm_id (l : InnetLock) (hid : HostId) (tid : TaskId) :
    (handleReleaseLm l hid tid).1.id = l.id := by
  simp only [handleReleaseLm]
  split
  · split
    · rfl
    · split
      · rw [lockDigestWq_id]
        rfl
      · rfl
  · rfl

lemma releaseHandOver_id (l : InnetLock) (failed : List Assertion) :
    (releaseHandOver cf l hdr failed).lock.id = l.id := by
  rw [releaseHandOver]
  split
  · split
    · rfl
    · simp only [lockTransferHelper]
      split <;> rfl
  · rfl

/-- Handling a packet does not change the id of the lock. -/
lemma lockPacketProcess_id (l : InnetLock) : (lockPacketProcess cf l hdr).lock.id = l.id := by
  cases ht : hdr.type with
  | acquire =>
      simp only [lockPacketProcess, ht, processAcquire]
      split
      · split <;> exact handleAcquireLm_id ..
      · repeat' split
        all_goals rfl
  | grantWithAgent =>
      simp only [lockPacketProcess, ht, processGrantWithAgent]
      split
      · rfl
      · split
        · split
          · split
            · exact lockDigestWq_id ..
            · rfl
          · rfl
        · split <;> rfl
  | grantWoAgent => simp only [lockPacketProcess, ht]; rfl
  | release =>
      simp only [lockPacketProcess, ht, processRelease]
      split
      · split
        · split <;> exact handleReleaseLm_id ..
        · exact handleReleaseLm_id ..
      · split
        · split
          · rfl
          · exact releaseHandOver_id ..
        · split
          · rfl
          · exact releaseHandOver_id ..
  | transfer =>
      simp only [lockPacketProcess, ht, processPushedBack]
      split
      · rfl
      · rfl
  | free =>
      simp only [lockPacketProcess, ht, processPushedBack]
      split
      · rfl
      · rfl
  | other b => simp only [lockPacketProcess, ht]

/-- Registering a lock under an id that is not in use. -/
lemma Coherent.register (hr : Coherent r) (hk : r.lockTbl key = none) (hid : r.lockIdMap lid = none) :
    Coherent (r.register key lid) := by
  intro key' a ha
  simp only [Registry.register, insertNew_of_none hk] at ha
  by_cases hkk : key' = key
  · rw [hkk, Function.update_self] at ha
    cases ha
    refine ⟨.init lid, by simp [Registry.register], ?_⟩
    simp [Registry.register, insertNew_of_none hid, InnetLock.init]
  · rw [Function.update_of_ne hkk] at ha
    obtain ⟨l, hl, hm⟩ := hr key' a ha
    refine ⟨l, ?_, insertNew_of_some hm⟩
    simpa [Registry.register, List.getElem?_append_left (r.tbl_lt key' a ha)] using hl

/-- Registering it under an id that is in use: the new object is in one map only. -/
lemma not_coherent_register (hk : r.lockTbl key = none) (hid : r.lockIdMap lid ≠ none) :
    ¬ Coherent (r.register key lid) := by
  intro hr
  obtain ⟨b, hb⟩ := Option.ne_none_iff_exists'.1 hid
  obtain ⟨l, hl, hm⟩ := hr key r.heap.length
    (by simp [Registry.register, insertNew_of_none hk])
  have hlid : l = .init lid := by simpa [Registry.register, eq_comm] using hl
  have hold : (r.register key lid).lockIdMap lid = some b := insertNew_of_some hb
  rw [hlid, show (InnetLock.init lid).id = lid from rfl, hold] at hm
  exact absurd (Option.some.inj hm) (Nat.ne_of_lt (r.map_lt lid b hb))

lemma coherent_register_iff (hr : Coherent r) (hk : r.lockTbl key = none) :
    Coherent (r.register key lid) ↔ r.lockIdMap lid = none := by
  refine ⟨fun h => ?_, hr.register hk⟩
  by_contra hid
  exact not_coherent_register hk hid h

lemma Coherent.lockIdToDesc (hr : Coherent r) : Coherent (r.lockIdToDesc lid).1 := by
  rw [Registry.lockIdToDesc]
  split
  · exact hr
  · intro key a ha
    obtain ⟨l, hl, hm⟩ := hr key a ha
    refine ⟨l, ?_, insertNew_of_some hm⟩
    simpa [List.getElem?_append_left (r.tbl_lt key a ha)] using hl

lemma Coherent.packet (hr : Coherent r) : Coherent (r.lockPacketDispatch cf hdr) := by
  intro key a ha
  have hdesc : Coherent (r.lockIdToDesc hdr.id).1 := hr.lockIdToDesc
  obtain ⟨l, hl, hm⟩ := hdesc key a ha
  simp only [lockPacketDispatch, List.getElem?_modify, hl]
  refine ⟨_, rfl, ?_⟩
  split
  · rw [lockPacketProcess_id, hm]
  · exact hm

/-- **Coherence after a step.**  It is kept exactly by the steps that register no lock under an id
in use. -/
lemma coherent_step_iff (hr : Coherent r) (e : Event) : Coherent (step cf r e) ↔ Fresh r e := by
  cases e with
  | lockInit key lid =>
      simp only [step, Registry.lockInit, Fresh]
      by_cases hk : r.lockTbl key = none
      · rw [if_neg (not_not.2 hk), coherent_register_iff hr hk]
        exact ⟨fun h _ => h, fun h => h hk⟩
      · simp [hk, hr]
  | lockLocalInit key =>
      simp only [step, Registry.lockLocalInit, Fresh]
      by_cases hk : r.lockTbl key = none
      · rw [if_neg (not_not.2 hk), coherent_register_iff hr hk]
        exact ⟨fun h _ => h, fun h => h hk⟩
      · simp [hk, hr]
  | packet hdr => exact iff_of_true hr.packet trivial

end Step

/-! ## Whole runs -/

lemma run_concat (cf : Conf) (es : List Event) (e : Event) :
    run cf (es ++ [e]) = step cf (run cf es) e := by
  simp [run]

/-- **The tables stay coherent exactly if every lock is registered under an id not in use.**  For
every sequence of registrations and packets: all the states it goes through are coherent if and only
if each of its steps is fresh. -/
theorem registry_coherent_iff (cf : Conf) (es : List Event) :
    (∀ pre, pre <+: es → Coherent (run cf pre))
      ↔ ∀ pre e, pre ++ [e] <+: es → Fresh (run cf pre) e := by
  constructor
  · intro hall pre e hpre
    have hbefore := hall pre ((List.prefix_append pre [e]).trans hpre)
    have hafter := hall (pre ++ [e]) hpre
    rw [run_concat] at hafter
    exact (coherent_step_iff hbefore e).1 hafter
  · intro hfresh pre
    -- from the beginning of the run, one event after the other
    induction pre using List.reverseRecOn with
    | nil =>
        intro _ key a ha
        cases ha
    | append_singleton pre e ih =>
        intro hpre
        rw [run_concat]
        exact (coherent_step_iff (ih ((List.prefix_append pre [e]).trans hpre)) e).2
          (hfresh pre e hpre)

/-- A grant for lock 7, on its way to host 1. -/
def earlyGrant : LockHdr := sendPostGrant 7 1 5

/-- **A packet that arrives early splits the lock.**  The grant for lock 7 arrives before the lock
is registered; afterwards packets and calls work on different objects. -/
theorem registry_coherent_fails :
    ¬ ∀ (cf : Conf) (es : List Event), Coherent (run cf es) := by
  intro hall
  have h := hall { localhostId := 1, enbLocalGrants := true, bmv2 := true }
    [.packet earlyGrant, .lockLocalInit 7]
  obtain ⟨l, hl, hm⟩ := h 7 1 (by decide)
  have hmap : (run { localhostId := 1, enbLocalGrants := true, bmv2 := true }
    [.packet earlyGrant, .lockLocalInit 7]).lockIdMap 7 = some 0 := by decide
  have hid : l.id = 7 := by
    have : (run { localhostId := 1, enbLocalGrants := true, bmv2 := true }
      [.packet earlyGrant, .lockLocalInit 7]).heap[1]?.map InnetLock.id = some 7 := by decide
    rw [hl] at this
    exact Option.some.inj this
  rw [hid, hmap] at hm
  exact absurd hm (by decide)

end Registry

end FissLock
