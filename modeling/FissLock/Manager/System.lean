import FissLock.Library.ReadersWriter
import FissLock.Host.ClientApi

/-!
# The lock manager of an out-of-range lock

Lock ids from `SWITCH_LOCK_NUM` on are not known to the switch.  Each is managed by one host, which
handles `ACQUIRE` and `RELEASE` packets for it and the calls of its own applications with
`handle_acquire_lm` and `handle_release_lm`.  A step of the manager is one such packet or call.

A `History` records what the clients have been told.  A request is granted by the return value of
`lock_acquire_async` or by a `GRANT_WO_AGENT` packet that leaves the manager; the code itself does
not keep that set, since an exclusive waiter that is scheduled is **not** added to `holders`.

`handle_release_lm` leaves the end of the hand-over to its callers, which finish it differently.
`lmReleased` is what both of them do to the lock, and `processRelease_outOfRange` and
`lockRelease_outOfRange` say so.
-/

namespace FissLock

open Runs ReadersWriter

/-- The manager's metadata of the lock, and what its clients have seen of it. -/
structure Manager where
  lock : InnetLock
  hist : History LockHolder

/-- The lock as registered, before any request. -/
def Manager.init (lid : LockId) : Manager := ⟨.init lid, .start⟩

/-- What reaches the manager. -/
inductive ManagerCall where
  /-- An `ACQUIRE` packet arrives. -/
  | acquirePacket (hdr : LockHdr)
  /-- A task of the manager host calls `lock_acquire_async`. -/
  | acquire (t : TaskId) (op : LockState)
  /-- A `RELEASE` packet arrives. -/
  | releasePacket (hdr : LockHdr)
  /-- A task of the manager host calls `lock_release`. -/
  | release (t : TaskId)
  deriving DecidableEq, Repr

/-- The clients that packets leaving the manager grant the lock to. -/
def grantees (ps : List LockHdr) : List LockHolder :=
  (ps.filter (·.type = .grantWoAgent)).map LockHdr.holder

/-- Who may release: a client with a granted request and, in runs with aborts, also one whose
request is still waiting. -/
def Manager.mayRelease (s : Manager) (aborts : Bool) (lh : LockHolder) : Prop :=
  s.hist.granted lh ∨ aborts = true ∧ s.hist.request lh ≠ none

instance (s : Manager) (aborts : Bool) (lh : LockHolder) : Decidable (s.mayRelease aborts lh) :=
  inferInstanceAs (Decidable (_ ∨ _ ∧ _))

/-- The step function. -/
def Manager.step (cf : Conf) (aborts : Bool) (s : Manager) : ManagerCall → Option Manager
  | .acquirePacket hdr =>
      if hdr.type = .acquire ∧ s.hist.request hdr.holder = none then
        let o := lockPacketProcess cf s.lock hdr
        some ⟨o.lock, s.hist.requested hdr.holder hdr.mode (grantees o.toSwitch)⟩
      else none
  | .acquire t op =>
      if (op = .shared ∨ op = .excl) ∧ s.hist.request (cf.localhostId, t) = none then
        let r := lockAcquireAsync cf s.lock t op
        some ⟨r.1.lock, s.hist.requested (cf.localhostId, t) op.bit
          (if r.2 = .granted then [(cf.localhostId, t)] else grantees r.1.sent)⟩
      else none
  | .releasePacket hdr =>
      if hdr.type = .release ∧ s.mayRelease aborts hdr.holder then
        let o := lockPacketProcess cf s.lock hdr
        some ⟨o.lock, s.hist.released hdr.holder (grantees o.toSwitch)⟩
      else none
  | .release t =>
      if s.mayRelease aborts (cf.localhostId, t) then
        let r := lockRelease cf s.lock t
        some ⟨r.lock, s.hist.released (cf.localhostId, t) (grantees r.sent)⟩
      else none

/-- The states of all runs of the lock `lid` at its manager whose steps meet `ok`. -/
abbrev Manager.Reachable (cf : Conf) (aborts : Bool) (lid : LockId)
    (ok : Manager → ManagerCall → Prop) : Manager → Prop :=
  Reach (Manager.step cf aborts) ok (Manager.init lid)

/-- What holds at the end of a concrete run holds in some reachable state. -/
theorem Manager.exists_of_run (cf : Conf) (aborts : Bool) (lid : LockId)
    (ok : Manager → ManagerCall → Prop) [∀ s c, Decidable (ok s c)] (cs : List ManagerCall)
    (P : Manager → Prop) [DecidablePred P]
    (h : (runFrom (Manager.step cf aborts) ok (.init lid) cs).any (fun s => decide (P s)) = true) :
    ∃ s, Manager.Reachable cf aborts lid ok s ∧ P s := by
  obtain ⟨s, hs, hP⟩ := (Option.any_eq_true _ _).1 h
  exact ⟨s, .of_runFrom .start hs, of_decide_eq_true hP⟩

/-! ## What the callers of the manager handlers do -/

lemma grantees_sendPostGrant (lid : LockId) (ws : List Wqe) :
    grantees (ws.map fun w => sendPostGrant lid w.host w.taskId) = ws.map Wqe.holder := by
  induction ws with
  | nil => rfl
  | cons w ws ih =>
      simp only [grantees, List.map_cons, List.filter_cons] at ih ⊢
      rw [if_pos (by rfl), List.map_cons, ih]
      rfl

/-- A release at the manager, hand-over included: the lock afterwards, and the clients that are sent
a grant. -/
def lmReleased (l : InnetLock) (lh : LockHolder) : InnetLock × List LockHolder :=
  let l := lockRemoveHolder l lh
  if l.holders = ∅ then
    match l.wqueue with
    | [] => ({ l with mode := .free }, [])
    | w :: rest =>
        if w.op = .shared then
          let rs := (w :: rest).filter (·.op = .shared)
          ({ l with
              mode := .shared
              holders := (rs.map Wqe.holder).toFinset
              wqueue := (w :: rest).filter (·.op ≠ .shared) },
            rs.map Wqe.holder)
        -- the new owner is sent its grant, but does not become a holder
        else ({ l with mode := w.op, wqueue := rest }, [w.holder])
  else (l, [])

section Released

variable {l : InnetLock} {lh : LockHolder}

lemma lmReleased_held (he : (lockRemoveHolder l lh).holders ≠ ∅) :
    lmReleased l lh = (lockRemoveHolder l lh, []) := if_neg he

lemma lmReleased_nil (he : (lockRemoveHolder l lh).holders = ∅) (hq : l.wqueue = []) :
    lmReleased l lh = ({ lockRemoveHolder l lh with mode := .free }, []) := by
  have hq' : (lockRemoveHolder l lh).wqueue = [] := hq
  simp only [lmReleased, if_pos he]
  rw [hq']

lemma lmReleased_shared (he : (lockRemoveHolder l lh).holders = ∅) {w : Wqe} {rest : List Wqe}
    (hq : l.wqueue = w :: rest) (hw : w.op = .shared) :
    lmReleased l lh
      = ({ lockRemoveHolder l lh with
            mode := .shared
            holders := ((l.wqueue.filter (·.op = .shared)).map Wqe.holder).toFinset
            wqueue := l.wqueue.filter (·.op ≠ .shared) },
          (l.wqueue.filter (·.op = .shared)).map Wqe.holder) := by
  have hq' : (lockRemoveHolder l lh).wqueue = w :: rest := hq
  simp only [lmReleased, if_pos he]
  rw [hq', hq]
  simp only [if_pos hw]

lemma lmReleased_excl (he : (lockRemoveHolder l lh).holders = ∅) {w : Wqe} {rest : List Wqe}
    (hq : l.wqueue = w :: rest) (hw : w.op ≠ .shared) :
    lmReleased l lh
      = ({ lockRemoveHolder l lh with mode := w.op, wqueue := rest }, [w.holder]) := by
  have hq' : (lockRemoveHolder l lh).wqueue = w :: rest := hq
  simp only [lmReleased, if_pos he]
  rw [hq']
  simp only [if_neg hw]

end Released

/-- `handle_release_lm` leaves an exclusive first waiter to its caller, and nothing else. -/
lemma handleReleaseLm_spec (l : InnetLock) (hid : HostId) (tid : TaskId) :
    (∃ w rest, handleReleaseLm l hid tid
        = ({ lockRemoveHolder l (hid, tid) with mode := w.op, wqueue := w :: rest }, [], true)
      ∧ lmReleased l (hid, tid)
        = ({ lockRemoveHolder l (hid, tid) with mode := w.op, wqueue := rest }, [w.holder]))
    ∨ ∃ ps, handleReleaseLm l hid tid = ((lmReleased l (hid, tid)).1, ps, false)
        ∧ grantees ps = (lmReleased l (hid, tid)).2 := by
  by_cases hh : (lockRemoveHolder l (hid, tid)).holders = ∅
  · have hno : lockNoHolders (lockRemoveHolder l (hid, tid)) = true := decide_eq_true hh
    simp only [handleReleaseLm, lmReleased, if_pos hno, if_pos hh]
    cases hq : (lockRemoveHolder l (hid, tid)).wqueue with
    | nil => exact .inr ⟨[], rfl, rfl⟩
    | cons w rest =>
        by_cases hw : w.op = .shared
        · refine .inr ⟨((w :: rest).filter (·.op = .shared)).map fun w =>
            sendPostGrant l.id w.host w.taskId, ?_, ?_⟩
          · simp only [lockDigestWq_eq, hw, hh, Finset.empty_union, List.nil_append]
            rfl
          · simp only [if_pos hw, grantees_sendPostGrant]
        · refine .inl ⟨w, rest, ?_, ?_⟩
          · simp only [if_neg hw]
          · simp only [if_neg hw]
  · have hno : lockNoHolders (lockRemoveHolder l (hid, tid)) = false := decide_eq_false hh
    exact .inr ⟨[], by simp [handleReleaseLm, lmReleased, hno, hh], by simp [lmReleased, hh]; rfl⟩

/-- The `RELEASE` packet handler at the manager. -/
lemma processRelease_outOfRange (cf : Conf) {l : InnetLock} {hdr : LockHdr}
    (hr : lockOutOfRange l = true) (ht : hdr.type = .release) :
    (lockPacketProcess cf l hdr).lock = (lmReleased l hdr.holder).1
      ∧ grantees (lockPacketProcess cf l hdr).toSwitch = (lmReleased l hdr.holder).2 := by
  simp only [lockPacketProcess, ht, processRelease, if_pos hr]
  rcases handleReleaseLm_spec l hdr.machineId hdr.taskId with ⟨w, rest, h1, h2⟩ | ⟨ps, h1, h2⟩
  · rw [LockHdr.holder, h1, h2]
    exact ⟨rfl, rfl⟩
  · rw [LockHdr.holder, h1]
    refine ⟨rfl, ?_⟩
    simpa [Outcome.toSwitch] using h2

/-- `lock_release` at the manager. -/
lemma lockRelease_outOfRange {cf : Conf} {l : InnetLock} {t : TaskId}
    (hr : lockOutOfRange l = true) (hm : lockToLm l = cf.localhostId) :
    let l' := { l with localHolders := l.localHolders.erase t }
    (lockRelease cf l t).lock = (lmReleased l' (cf.localhostId, t)).1
      ∧ grantees (lockRelease cf l t).sent = (lmReleased l' (cf.localhostId, t)).2 := by
  intro l'
  have hr' : lockOutOfRange l' = true := hr
  have hm' : lockToLm l' = cf.localhostId := hm
  rw [lockRelease, if_pos hr', if_pos hm']
  rcases handleReleaseLm_spec l' cf.localhostId t with ⟨w, rest, h1, h2⟩ | ⟨ps, h1, h2⟩
  · rw [h1, h2]
    exact ⟨rfl, rfl⟩
  · rw [h1]
    exact ⟨rfl, h2⟩

/-- The `ACQUIRE` packet handler at the manager. -/
lemma processAcquire_outOfRange (cf : Conf) {l : InnetLock} {hdr : LockHdr}
    (hr : lockOutOfRange l = true) (ht : hdr.type = .acquire) :
    let r := handleAcquireLm l hdr.machineId hdr.taskId hdr.modeState
    (lockPacketProcess cf l hdr).lock = r.1
      ∧ grantees (lockPacketProcess cf l hdr).toSwitch = if r.2 then [hdr.holder] else [] := by
  simp only [lockPacketProcess, ht, processAcquire, if_pos hr]
  cases (handleAcquireLm l hdr.machineId hdr.taskId hdr.modeState).2 <;> exact ⟨rfl, rfl⟩

/-- `lock_acquire_async` at the manager. -/
lemma lockAcquireAsync_outOfRange {cf : Conf} {l : InnetLock} {t : TaskId} {op : LockState}
    (hr : lockOutOfRange l = true) (hm : lockToLm l = cf.localhostId)
    (hop : op = .shared ∨ op = .excl) :
    let r := handleAcquireLm l cf.localhostId t op
    (lockAcquireAsync cf l t op).1.lock = r.1
      ∧ (if (lockAcquireAsync cf l t op).2 = .granted then [(cf.localhostId, t)]
          else grantees (lockAcquireAsync cf l t op).1.sent)
        = if r.2 then [(cf.localhostId, t)] else [] := by
  have hop' : ¬ (op ≠ .excl ∧ op ≠ .shared) := by tauto
  simp only [lockAcquireAsync, if_neg hop', if_pos hr, if_pos hm]
  cases (handleAcquireLm l cf.localhostId t op).2 <;> exact ⟨rfl, rfl⟩

end FissLock
