import FissLock.Host.PacketProcess

/-!
# The two network layers under the packet handler

`lock_packet_process` may answer a packet by rewriting it in place and returning a nonzero value;
whoever called it then has to send the packet to the switch, with as many more bytes of payload as
the value says if it exceeds 1.  `net.cc` does so.  `bmv2_net.cc` gives the handler a copy of the
packet, drops the value, and the answer with it.

What the handlers send themselves goes out on both.  The two layers therefore agree exactly on the
packets that are not answered (`dispatch_agrees_iff`); `SentBack` says which ones are: a bounced
`ACQUIRE`, the grant of a lock manager, a `FREE` or `TRANSFER` after the last release, and a `FREE`
or `TRANSFER` that is tried again.
-/

namespace FissLock

/-- `POST_HDR_SIZE(lock_post_header)`. -/
def POST_HDR_SIZE : ℕ := 17

/-- A post and its size in bytes: what is in the UDP payload. -/
structure Post where
  hdr : LockHdr
  size : ℕ
  deriving DecidableEq, Repr

/-- The posts that a handler passes to `net_send_batch`. -/
def netSendBatch (ps : List LockHdr) : List Post := ps.map fun p => ⟨p, POST_HDR_SIZE⟩

/-- `net_poll_packets` of `net.cc`, for one packet of the burst: the lock afterwards and what is
sent to the switch.  The buffer of the packet is re-used for the answer. -/
def netPollPackets (cf : Conf) (l : InnetLock) (p : Post) : InnetLock × List Post :=
  let o := lockPacketProcess cf l p.hdr
  (o.lock, netSendBatch o.sent ++
    if o.ret ≠ 0 then [⟨o.hdr, if 1 < o.ret then p.size + o.ret else p.size⟩] else [])

/-- `dispatch_udp_payload` of `bmv2_net.cc`: the handler works on a copy, and what it returns is
ignored. -/
def dispatchUdpPayload (cf : Conf) (l : InnetLock) (p : Post) : InnetLock × List Post :=
  let o := lockPacketProcess cf l p.hdr
  (o.lock, netSendBatch o.sent)

/-! ## Which packets are answered -/

/-- The `ACQUIRE`s that are answered: a manager grants the lock, or a host that is not the agent
bounces the request. -/
def AcquireSentBack (l : InnetLock) (hdr : LockHdr) : Prop :=
  if lockOutOfRange l then l.mode = .free ∨ l.mode = .shared ∧ hdr.modeState = .shared
  else l.earlyRelease hdr.holder = false ∧ l.isAgent = false
    ∧ if hdr.modeState = .shared then hdr.granted = false else l.fwdBackCnt hdr.holder ≤ 2

/-- The `RELEASE`s that are answered: a manager schedules an exclusive waiter, or nobody is left to
hold the lock. -/
def ReleaseSentBack (l : InnetLock) (hdr : LockHdr) : Prop :=
  if lockOutOfRange l then
    l.holders.erase hdr.holder = ∅ ∧ ∃ w ∈ l.wqueue.head?, w.op ≠ .shared
  else if hdr.holder ∈ l.holders then l.isAgent = true ∧ l.holders.erase hdr.holder = ∅
  else (∀ e ∈ l.wqueue, ¬ (e.host = hdr.machineId ∧ e.taskId = hdr.taskId)) ∧ l.holders = ∅

/-- The packets that are answered. -/
def SentBack (l : InnetLock) (hdr : LockHdr) : Prop :=
  match hdr.type with
  | .acquire => AcquireSentBack l hdr
  | .release => ReleaseSentBack l hdr
  | .transfer | .free => l.delayedFree = true ∧ l.holders = ∅
  | .grantWithAgent | .grantWoAgent | .other _ => False

section Answered

variable {cf : Conf} {l : InnetLock} {hdr : LockHdr}

/-- A manager grants a free lock, and a shared one to a reader. -/
lemma handleAcquireLm_granted (hid : HostId) (tid : TaskId) (op : LockState) :
    (handleAcquireLm l hid tid op).2 = true ↔ l.mode = .free ∨ l.mode = .shared ∧ op = .shared := by
  by_cases hf : l.mode = .free
  · simp [handleAcquireLm, hf]
  · by_cases hs : l.mode = .shared
    · by_cases ho : op = .shared <;> simp [handleAcquireLm, hs, ho]
    · simp [handleAcquireLm, hf, hs]

lemma processAcquire_ret : (processAcquire l hdr).ret ≠ 0 ↔ AcquireSentBack l hdr := by
  by_cases hr : lockOutOfRange l = true
  · simp only [processAcquire, AcquireSentBack, if_pos hr,
      ← handleAcquireLm_granted hdr.machineId hdr.taskId hdr.modeState]
    split <;> simp [*]
  · simp only [processAcquire, AcquireSentBack, if_neg hr]
    cases hm : l.earlyRelease hdr.holder <;> cases ha : l.isAgent <;> cases hg : hdr.granted <;>
      by_cases hs : hdr.modeState = .shared <;> simp [hm, ha, hs]
    all_goals split <;> simp <;> omega

/-- With nobody left to hold the lock, the packet becomes a `FREE` or a `TRANSFER`. -/
lemma releaseHandOver_ret (failed : List Assertion) :
    (releaseHandOver cf l hdr failed).ret ≠ 0 ↔ l.holders = ∅ := by
  by_cases hh : l.holders = ∅
  · have hno : lockNoHolders l = true := decide_eq_true hh
    rw [releaseHandOver, if_pos hno]
    split
    · simp [hh]
    · simp only [hh, iff_true]
      split <;> omega
  · have hno : ¬ lockNoHolders l = true := by simpa [lockNoHolders] using hh
    simp [releaseHandOver, hno, hh]

lemma handleReleaseLm_schedules (hid : HostId) (tid : TaskId) :
    (handleReleaseLm l hid tid).2.2 = true
      ↔ l.holders.erase (hid, tid) = ∅ ∧ ∃ w ∈ l.wqueue.head?, w.op ≠ .shared := by
  by_cases hh : l.holders.erase (hid, tid) = ∅
  · have hno : lockNoHolders (lockRemoveHolder l (hid, tid)) = true := decide_eq_true hh
    simp only [handleReleaseLm, if_pos hno, hh, true_and]
    cases hq : l.wqueue with
    | nil => simp [lockRemoveHolder, hq]
    | cons w rest => by_cases hw : w.op = .shared <;> simp [lockRemoveHolder, hq, hw]
  · have hno : lockNoHolders (lockRemoveHolder l (hid, tid)) = false := decide_eq_false hh
    simp [handleReleaseLm, hno, hh]

/-- A scheduled waiter is there. -/
lemma handleReleaseLm_wqueue {hid : HostId} {tid : TaskId}
    (hs : (handleReleaseLm l hid tid).2.2 = true) : (handleReleaseLm l hid tid).1.wqueue ≠ [] := by
  obtain ⟨hh, w, hw, ho⟩ := (handleReleaseLm_schedules hid tid).1 hs
  have hno : lockNoHolders (lockRemoveHolder l (hid, tid)) = true := decide_eq_true hh
  obtain ⟨rest, hq⟩ : ∃ rest, l.wqueue = w :: rest := List.head?_eq_some_iff.1 hw
  have hq' : (lockRemoveHolder l (hid, tid)).wqueue = w :: rest := hq
  simp only [handleReleaseLm, if_pos hno, hq', if_neg ho]
  exact List.cons_ne_nil _ _

lemma processRelease_ret : (processRelease cf l hdr).ret ≠ 0 ↔ ReleaseSentBack l hdr := by
  by_cases hr : lockOutOfRange l = true
  · simp only [processRelease, ReleaseSentBack, if_pos hr, LockHdr.holder,
      ← handleReleaseLm_schedules]
    by_cases hs : (handleReleaseLm l hdr.machineId hdr.taskId).2.2 = true
    · rw [if_pos hs]
      cases hq : (handleReleaseLm l hdr.machineId hdr.taskId).1.wqueue with
      | nil => exact absurd hq (handleReleaseLm_wqueue hs)
      | cons w rest => simp [hs]
    · simp [hs]
  · by_cases hh : hdr.holder ∈ l.holders
    · have hhas : lockHasHolder l hdr.holder = true := decide_eq_true hh
      simp only [processRelease, ReleaseSentBack, if_neg hr, if_pos hh, hhas]
      cases ha : l.isAgent
      · simp
      · simp only [Bool.not_true, Bool.false_eq_true, if_false, releaseHandOver_ret, true_and]
        exact Iff.rfl
    · have hhas : lockHasHolder l hdr.holder = false := decide_eq_false hh
      simp only [processRelease, ReleaseSentBack, if_neg hr, if_neg hh, hhas, Bool.not_false,
        if_true]
      by_cases hq : l.wqueue.any (fun e => e.host = hdr.machineId ∧ e.taskId = hdr.taskId) = true
      · rw [if_pos hq]
        obtain ⟨e, he, hp⟩ := List.any_eq_true.1 hq
        have hnot : ¬ ∀ e ∈ l.wqueue, ¬ (e.host = hdr.machineId ∧ e.taskId = hdr.taskId) :=
          fun hno => hno e he (of_decide_eq_true hp)
        exact ⟨fun h => absurd rfl h, fun h => absurd h.1 hnot⟩
      · rw [if_neg hq, releaseHandOver_ret]
        simp only [List.any_eq_true, not_exists, not_and, decide_eq_true_eq] at hq
        exact ⟨fun h => ⟨fun e he hp => hq e he hp.1 hp.2, h⟩, fun h => h.2⟩

/-- The handler returns a nonzero value exactly for the packets that are answered. -/
lemma lockPacketProcess_ret : (lockPacketProcess cf l hdr).ret ≠ 0 ↔ SentBack l hdr := by
  have hback : (processPushedBack l hdr).ret ≠ 0 ↔ l.delayedFree = true ∧ l.holders = ∅ := by
    rw [processPushedBack]
    split
    · next h => simpa [lockNoHolders] using h
    · next h => simpa [lockNoHolders] using h
  cases ht : hdr.type with
  | acquire => simp only [lockPacketProcess, SentBack, ht, processAcquire_ret]
  | release => simp only [lockPacketProcess, SentBack, ht, processRelease_ret]
  | transfer => simp only [lockPacketProcess, SentBack, ht, hback]
  | free => simp only [lockPacketProcess, SentBack, ht, hback]
  | grantWithAgent =>
      simp only [lockPacketProcess, SentBack, ht, processGrantWithAgent]
      split
      · simp
      · split <;> simp
  | grantWoAgent => simp [lockPacketProcess, SentBack, ht, processGrantWoAgent]
  | other b => simp [lockPacketProcess, SentBack, ht]

end Answered

/-! ## When the layers agree -/

/-- **The layers agree on the packets that are not answered, and on no others.** -/
theorem dispatch_agrees_iff (cf : Conf) (l : InnetLock) (p : Post) :
    (dispatchUdpPayload cf l p).2 = (netPollPackets cf l p).2 ↔ ¬ SentBack l p.hdr := by
  have hret : (lockPacketProcess cf l p.hdr).ret ≠ 0 ↔ SentBack l p.hdr := lockPacketProcess_ret
  rw [← hret, not_not]
  simp only [dispatchUdpPayload, netPollPackets]
  by_cases hzero : (lockPacketProcess cf l p.hdr).ret = 0
  · simp [hzero]
  · simp [hzero]

/-- Host 1, on which an exclusive request of host 2 for a lock arrives that host 1 has given up. -/
def bouncedAcquire : LockHdr :=
  sendPostAcquire { localhostId := 2, enbLocalGrants := true, bmv2 := true } .excl 7 2 5

/-- **A bounced request is lost.**  `net.cc` sends it back to the switch, `bmv2_net.cc` does not. -/
theorem dispatch_agrees_fails :
    ¬ ∀ (cf : Conf) (l : InnetLock) (p : Post),
      (dispatchUdpPayload cf l p).2 = (netPollPackets cf l p).2 := by
  intro hall
  have h := hall { localhostId := 1, enbLocalGrants := true, bmv2 := true } (.init 7)
    ⟨bouncedAcquire, POST_HDR_SIZE⟩
  exact absurd h (by decide)

end FissLock
