import FissLock.Host.ClientApi
import FissLock.Switch.Tofino

/-!
# The agent's fast path

A task of the agent host does not ask the switch: `lock_acquire_async` grants a shared lock on the
spot and queues everything else.  Had the request been sent, the switch would have counted it, told
the agent and the requester, which are the same host here, and the two handlers would have led to
the same state.  `fast_path_agrees` says so for every state of the agent, in whichever order the
two packets arrive.

The one thing that differs is that the slow path counts a shared grant twice, at the switch and at
the agent, and the fast path nowhere.
-/

namespace FissLock

/-- A host handles packets one after another. -/
def deliverAll (cf : Conf) (l : InnetLock) (ps : List LockHdr) : InnetLock :=
  ps.foldl (fun l p => (lockPacketProcess cf l p).lock) l

/-- The lock `l'`, with the counter `n'` at the switch, after a task asked the switch, compared with
the result `r` of the fast path, on which the counter stays `n`. -/
structure SlowPathAgrees (l : InnetLock) (t : TaskId) (r : CallOutcome × LockReq) (n : BitVec 8)
    (l' : InnetLock) (n' : BitVec 8) : Prop where
  holders : l'.holders = r.1.lock.holders
  wqueue : l'.wqueue = r.1.lock.wqueue
  mode : l'.mode = r.1.lock.mode
  isAgent : l'.isAgent = r.1.lock.isAgent
  /-- The task is notified exactly if the fast path grants it the lock. -/
  granted : l'.taskGranted
    = if r.2 = .granted then Function.update l.taskGranted t true else l.taskGranted
  /-- In shared mode the two counts have the same difference. -/
  difference : l.mode = .shared → n' - l'.ncnt.setWidth 8 = n - r.1.lock.ncnt.setWidth 8

lemma perm_pair {α : Type*} {a b : α} {ds : List α} (h : ds.Perm [a, b]) :
    ds = [a, b] ∨ ds = [b, a] := by
  match ds, h.length_eq with
  | [x, y], _ =>
      rcases (by simpa using h.subset List.mem_cons_self : x = a ∨ x = b) with rfl | rfl
      · have := (List.perm_cons x).1 h
        simp_all
      · have := (List.perm_cons x).1 (h.trans (List.Perm.swap x a []))
        simp_all

section Paths

variable {cf : Conf} {l : InnetLock} {t : TaskId}

/-- The agent receives a request that the switch has granted, -/
lemma receive_granted (hr : lockOutOfRange l = false) (ha : l.isAgent = true) {hdr : LockHdr}
    (ht : hdr.type = .acquire) (he : l.earlyRelease hdr.holder = false)
    (hm : hdr.mode = LOCK_SHARED) (hg : hdr.granted = true) :
    (lockPacketProcess cf l hdr).lock
      = { l with ncnt := l.ncnt + 1, holders := insert hdr.holder l.holders } := by
  have hms : hdr.modeState = .shared := by simp [LockHdr.modeState, hm]
  simp only [lockPacketProcess, ht, processAcquire, hr, hms, hg, he, ha, Bool.false_eq_true,
    Bool.not_true, and_self, if_true, if_false]
  rfl

/-- or one that it has not. -/
lemma receive_suspended (hr : lockOutOfRange l = false) (ha : l.isAgent = true) {hdr : LockHdr}
    (ht : hdr.type = .acquire) (he : l.earlyRelease hdr.holder = false)
    (hg : hdr.granted = false) :
    (lockPacketProcess cf l hdr).lock
      = { l with wqueue := l.wqueue ++ [Wqe.ofReq hdr.modeState hdr.taskId hdr.machineId] } := by
  simp only [lockPacketProcess, ht, processAcquire, hr, hg, he, ha, Bool.false_eq_true,
    Bool.not_true, and_false, if_false]
  simp [handleSuspendAcquire, lockAppendToWq, ha]

lemma receive_grantWoAgent {hdr : LockHdr} (ht : hdr.type = .grantWoAgent) :
    (lockPacketProcess cf l hdr).lock = lockLocalNotify l hdr.taskId := by
  simp only [lockPacketProcess, ht, processGrantWoAgent]

/-- The fast path of `lock_acquire_async`. -/
lemma lockAcquireAsync_agent (hl : cf.enbLocalGrants = true)
    (hr : lockOutOfRange l = false) (ha : l.isAgent = true) {op : LockState}
    (hop : op = .shared ∨ op = .excl) :
    lockAcquireAsync cf l t op
      = if l.mode = .shared ∧ op = .shared then
          ({ lock := { l with holders := insert (cf.localhostId, t) l.holders } }, .granted)
        else
          ({ lock := { l with wqueue := l.wqueue ++ [Wqe.ofReq op t cf.localhostId] } }, .flag t) := by
  have hop' : ¬ (op ≠ .excl ∧ op ≠ .shared) := by rcases hop with rfl | rfl <;> simp
  have hne : op ≠ .free := by rcases hop with rfl | rfl <;> simp
  rw [lockAcquireAsync, if_neg hop', if_neg (by simp [hr]), if_pos hl]
  split
  · -- the branch of the BMv2 build, which queues as well
    next hx =>
      rw [if_neg (by simp [hx.2.1])]
      simp [handleSuspendAcquire, lockAppendToWq, lockPrepareWait, hne]
  · split
    · rfl
    · simp [handleSuspendAcquire, lockAppendToWq, lockPrepareWait, hne]

section Switch

variable {c : Cell} {op : LockState} (lid : LockId) (hh : Tofino.isHost cf.localhostId = true)
  (hfree : c.free = LOCK_ACQUIRED) (hagent : c.agent = cf.localhostId)

include hh hfree hagent

/-- The packets that the switch sends to the agent for a shared request of the agent itself, if the
lock is shared. -/
lemma emitted_shared (hrw : c.rw = LOCK_SHARED) :
    ∃ N G : LockHdr, N.type = .acquire ∧ N.holder = (cf.localhostId, t) ∧ N.mode = LOCK_SHARED
      ∧ N.granted = true ∧ G.type = .grantWoAgent ∧ G.taskId = t
      ∧ Tofino.process c (sendPostAcquire cf .shared lid cf.localhostId t)
        = ({ c with ncnt := c.ncnt + 1 }, [(cf.localhostId, N), (cf.localhostId, G)]) := by
  set p := sendPostAcquire cf .shared lid cf.localhostId t
  refine ⟨{ p with granted := true }, { p with type := .grantWoAgent }, rfl, rfl, rfl, rfl, rfl, rfl,
    ?_⟩
  rw [Tofino.process_acquire_shared rfl hfree rfl hrw (hagent ▸ hh) hh, hagent]
  rfl

/-- And for any other request. -/
lemma emitted_fwd (hx : op.bit = LOCK_EXCL ∨ c.rw = LOCK_EXCL) :
    ∃ N : LockHdr, N.type = .acquire ∧ N.holder = (cf.localhostId, t) ∧ N.mode = op.bit
      ∧ N.granted = false
      ∧ Tofino.process c (sendPostAcquire cf op lid cf.localhostId t)
        = ({ c with ncnt := if op.bit then c.ncnt else c.ncnt + 1 }, [(cf.localhostId, N)]) := by
  refine ⟨sendPostAcquire cf op lid cf.localhostId t, rfl, rfl, rfl, rfl, ?_⟩
  rw [Tofino.process_acquire_fwd rfl hfree hx (hagent ▸ hh), hagent]
  rfl

end Switch

/-- Notification and grant lead to the same state in either order. -/
lemma deliver_shared (hr : lockOutOfRange l = false) (ha : l.isAgent = true) {lh : LockHolder}
    (he : l.earlyRelease lh = false) {N G : LockHdr} (hN : N.type = .acquire) (hlh : N.holder = lh)
    (hm : N.mode = LOCK_SHARED) (hg : N.granted = true) (hG : G.type = .grantWoAgent)
    (ht : G.taskId = t) {ps : List LockHdr} (hps : ps.Perm [N, G]) :
    deliverAll cf l ps
      = lockLocalNotify { l with ncnt := l.ncnt + 1, holders := insert lh l.holders } t := by
  subst hlh ht
  rcases perm_pair hps with rfl | rfl
  · rw [deliverAll, List.foldl_cons, List.foldl_cons, receive_granted hr ha hN he hm hg,
      receive_grantWoAgent hG]
    rfl
  · rw [deliverAll, List.foldl_cons, List.foldl_cons, receive_grantWoAgent hG]
    exact receive_granted (l := lockLocalNotify l G.taskId) hr ha hN he hm hg

end Paths

/-- **The fast path agrees with the slow path**, for every state of the agent and every order in
which the packets of the slow path arrive. -/
theorem fast_path_agrees (cf : Conf) (l : InnetLock) (c : Cell) (t : TaskId) (op : LockState)
    (hl : cf.enbLocalGrants = true) (hr : lockOutOfRange l = false) (ha : l.isAgent = true)
    (hh : Tofino.isHost cf.localhostId = true)
    (hfree : c.free = LOCK_ACQUIRED) (hagent : c.agent = cf.localhostId)
    (hrw : l.mode = LockState.ofBit c.rw) (he : l.earlyRelease (cf.localhostId, t) = false)
    (hop : op = .shared ∨ op = .excl) (ps : List LockHdr)
    (hps : ps.Perm (((Tofino.process c (sendPostAcquire cf op l.id cf.localhostId t)).2.filter
      (·.1 = cf.localhostId)).map Prod.snd)) :
    SlowPathAgrees l t (lockAcquireAsync cf l t op) c.ncnt (deliverAll cf l ps)
      (Tofino.process c (sendPostAcquire cf op l.id cf.localhostId t)).1.ncnt := by
  rw [lockAcquireAsync_agent hl hr ha hop]
  by_cases hs : l.mode = .shared ∧ op = .shared
  · -- granted by the switch: the agent gets the notification and, as the requester, the grant
    obtain ⟨hm, rfl⟩ := hs
    have hcrw : c.rw = LOCK_SHARED := (LockState.ofBit_eq_shared _).1 (hrw.symm.trans hm)
    obtain ⟨N, G, hN, hlh, hmode, hg, hG, ht, hpr⟩ :=
      emitted_shared (t := t) l.id hh hfree hagent hcrw
    rw [hpr] at hps ⊢
    rw [deliver_shared hr ha he hN hlh hmode hg hG ht (by simpa using hps), if_pos ⟨hm, rfl⟩]
    refine ⟨rfl, rfl, rfl, rfl, rfl, fun _ => ?_⟩
    have hw : (l.ncnt + 1).setWidth 8 = l.ncnt.setWidth 8 + 1 :=
      BitVec.setWidth_add _ _ (by decide)
    simp only [lockLocalNotify, hw]
    exact add_sub_add_right_eq_sub c.ncnt (l.ncnt.setWidth 8) 1
  · -- not granted: the request joins the queue, as on the fast path
    have hx : op.bit = LOCK_EXCL ∨ c.rw = LOCK_EXCL := by
      rcases hop with rfl | rfl
      · right
        have : l.mode ≠ .shared := fun h => hs ⟨h, rfl⟩
        rw [hrw] at this
        simpa using this
      · left
        rfl
    obtain ⟨N, hN, hlh, hmode, hg, hpr⟩ := emitted_fwd (t := t) l.id hh hfree hagent hx
    rw [hpr] at hps ⊢
    obtain rfl : ps = [N] := List.perm_singleton.1 (by simpa using hps)
    have hdel : deliverAll cf l [N]
        = { l with wqueue := l.wqueue ++ [Wqe.ofReq op t cf.localhostId] } := by
      have hms : N.modeState = op := by
        rcases hop with rfl | rfl <;> simp [LockHdr.modeState, hmode, LockState.bit]
      have hmt : N.machineId = cf.localhostId ∧ N.taskId = t := Prod.ext_iff.1 hlh
      rw [deliverAll, List.foldl_cons, List.foldl_nil,
        receive_suspended hr ha hN (by rw [hlh, he]) hg, hms, hmt.1, hmt.2]
    rw [hdel, if_neg hs]
    refine ⟨rfl, rfl, rfl, rfl, rfl, fun hm => ?_⟩
    -- a shared lock forwards exclusive requests only, and these are not counted
    obtain rfl : op = .excl := hop.resolve_left fun h => hs ⟨hm, h⟩
    rfl

/-- Host 1 is the agent of lock 5, which its task 7 holds in shared mode; task 8 asks for it. -/
theorem fast_path_agrees_shared :
    let l : InnetLock :=
      { InnetLock.init 5 with mode := .shared, isAgent := true, ncnt := 1, holders := {(1, 7)} }
    let c : Cell := ⟨LOCK_ACQUIRED, LOCK_SHARED, 1, 1⟩
    let r := Tofino.process c (sendPostAcquire ⟨1, true, false⟩ .shared 5 1 8)
    SlowPathAgrees l 8 (lockAcquireAsync ⟨1, true, false⟩ l 8 .shared) c.ncnt
      (deliverAll ⟨1, true, false⟩ l (r.2.map Prod.snd)) r.1.ncnt :=
  fast_path_agrees ⟨1, true, false⟩ _ _ 8 .shared rfl rfl rfl (by decide) rfl rfl rfl rfl
    (.inl rfl) _ (by decide +kernel)

end FissLock
