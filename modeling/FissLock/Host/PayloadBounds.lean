import FissLock.Host.Capture
import FissLock.Host.Network

/-!
# Where a packet is read and written

`scan_pcap_file` checks a captured frame against the headers below UDP, and hands a copy of the
payload to `lock_packet_dispatch`, which checks nothing.  The handlers take it for a lock header of
17 bytes with a wait queue of `wq_size` entries behind it, and `lock_transfer_helper` writes the
queue of the host there.

Here both are followed access by access, in the order of the source: `frameAccesses` into the
captured frame and `payloadAccesses` into the copy of the payload.  What lies behind the copy is
arbitrary (`beyond`): a handler that reads there goes on with what it finds.

`bytesNeeded` tells from the packet and the metadata of its lock how long the payload has to be, and
`accesses_within_iff` says that this is exact.  The frame itself is never read past its end.
-/

namespace FissLock

/-- An access to memory, from an offset on. -/
structure Access where
  off : ℕ
  len : ℕ
  deriving DecidableEq, Repr

/-- The access stays within a buffer of `n` bytes. -/
def Access.Within (n : ℕ) (a : Access) : Prop := a.off + a.len ≤ n

instance (n : ℕ) (a : Access) : Decidable (a.Within n) := inferInstanceAs (Decidable (_ ≤ _))

/-! ## The captured frame -/

/-- What `dispatch_udp_payload` reads of its argument. -/
def udpPayloadAccesses (off : ℕ) (payload : List Byte) : List Access :=
  match payload with
  | [] => []
  | t :: _ =>
      ⟨off, 1⟩ :: if t.toNat ≤ 0 ∨ NUM_POST_TYPES ≤ t.toNat then [] else [⟨off, payload.length⟩]

/-- What `scan_pcap_file` reads of a frame. -/
def frameAccesses (pkt : List Byte) : List Access :=
  if pkt.length < 14 + 20 + 8 + 1 then []
  else
    let ip := pkt.drop 14
    ⟨14, 1⟩ :: if ip.getD 0 0 >>> 4 ≠ 4 then []
      else
        let ihl := (ip.getD 0 0 &&& 0x0f).toNat * 4
        if pkt.length < 14 + ihl + 8 + 1 then []
        else
          let udp := ip.drop ihl
          let dport := readBe16 udp 2
          [⟨14 + ihl + 2, 1⟩, ⟨14 + ihl + 3, 1⟩]
            ++ if dport ≠ SERVER_POST_TYPE.toNat ∧ dport ≠ CLIENT_POST_TYPE.toNat then []
              else udpPayloadAccesses (14 + ihl + 8) (udp.drop 8)

/-! ## The copy of the payload -/

/-- The byte at `buf + i`, with `beyond` behind the buffer. -/
def byteAt (buf : List Byte) (beyond : ℕ → Byte) (i : ℕ) : Byte := buf.getD i (beyond i)

/-- `post_header` and `lock_post_header`, wherever they lie. -/
def hdrAt (mem : ℕ → Byte) : RawHdr where
  type := mem 0
  modeOldMode := mem 1
  lockId := ofLe32 (mem 2) (mem 3) (mem 4) (mem 5)
  machineId := mem 6
  taskId := ofLe32 (mem 7) (mem 8) (mem 9) (mem 10)
  agent := mem 11
  wqSize := ofLe32 (mem 12) (mem 13) (mem 14) (mem 15)
  ncnt := mem 16

/-- The members of the two headers, and `n` entries of a wait queue behind them. -/
inductive Member where
  | type
  | modeOldMode
  | lockId
  | machineId
  | taskId
  | agent
  | wqSize
  | ncnt
  | queue (n : ℕ)
  deriving DecidableEq, Repr

/-- Where a member lies in the payload. -/
def Member.access : Member → Access
  | type => ⟨0, 1⟩
  | modeOldMode => ⟨1, 1⟩
  | lockId => ⟨2, 4⟩
  | machineId => ⟨6, 1⟩
  | taskId => ⟨7, 4⟩
  | agent => ⟨11, 1⟩
  | wqSize => ⟨12, 4⟩
  | ncnt => ⟨16, 1⟩
  | queue n => ⟨17, 5 * n⟩

/-- `MODE(hdr->mode_old_mode)`. -/
def RawHdr.modeState (r : RawHdr) : LockState := .ofBit (r.modeOldMode.getLsbD 0)

/-- `case POST_LOCK_ACQUIRE`.  For a lock of the switch, all branches read the same members. -/
def acquireAccesses (l : InnetLock) (r : RawHdr) : List Member :=
  if lockOutOfRange l then
    [.machineId, .taskId, .modeOldMode]
      ++ if (handleAcquireLm l r.machineId r.taskId r.modeState).2 then [.type, .machineId, .agent]
        else []
  else [.modeOldMode, .machineId, .taskId]

/-- `case POST_LOCK_GRANT_WITH_AGENT`.  `ASSERT` evaluates its condition in every build. -/
def grantWithAgentAccesses (r : RawHdr) : List Member :=
  .taskId :: if r.taskId = TASK_FOR_RESTORE then []
    else [.agent, .taskId, .modeOldMode]
      ++ if r.transferred ≠ 0 then .wqSize :: if r.wqSize ≠ 0 then [.queue r.wqSize.toNat] else []
        else []

/-- `case POST_LOCK_GRANT_WO_AGENT`. -/
def grantWoAgentAccesses : List Member := [.taskId, .machineId]

/-- The end of `case POST_LOCK_RELEASE`: `lock_free_helper` and `lock_transfer_helper` write the
whole header, and the latter the rest of the wait queue. -/
def handOverAccesses (l : InnetLock) : List Member :=
  if lockNoHolders l then
    if lockNoWaiters l then [.type, .modeOldMode, .machineId, .taskId, .agent, .wqSize, .ncnt]
    else [.taskId, .type, .modeOldMode, .machineId, .taskId, .agent, .wqSize, .ncnt]
      ++ if 0 < l.wqueue.length - 1 then [.queue (l.wqueue.length - 1)] else []
  else []

/-- `case POST_LOCK_RELEASE`. -/
def releaseAccesses (l : InnetLock) (r : RawHdr) : List Member :=
  [.machineId, .taskId]
    ++ if lockOutOfRange l then
        if (handleReleaseLm l r.machineId r.taskId).2.2 then
          [.taskId, .type, .machineId, .taskId, .agent]
        else []
      else if !lockHasHolder l (r.machineId, r.taskId) then
        if l.wqueue.any fun e => e.host = r.machineId ∧ e.taskId = r.taskId then []
        else handOverAccesses
          { l with earlyRelease := Function.update l.earlyRelease (r.machineId, r.taskId) true }
      else if !l.isAgent then []
      else handOverAccesses (handleRelease l r.machineId r.taskId).1

/-- `case POST_LOCK_TRANSFER` and `case POST_LOCK_FREE`. -/
def pushedBackAccesses (l : InnetLock) (r : RawHdr) : List Member :=
  if l.delayedFree ∧ lockNoHolders l then [.ncnt]
  else [.modeOldMode, .ncnt, .type]
    ++ if PostType.ofByte r.type = .transfer then [.modeOldMode, .taskId, .machineId, .wqSize]
        ++ if r.wqSize ≠ 0 then [.queue r.wqSize.toNat] else []
      else []

/-- `lock_packet_process`. -/
def processAccesses (l : InnetLock) (r : RawHdr) : List Member :=
  .type :: match PostType.ofByte r.type with
    | .acquire => acquireAccesses l r
    | .grantWithAgent => grantWithAgentAccesses r
    | .grantWoAgent => grantWoAgentAccesses
    | .release => releaseAccesses l r
    | .transfer | .free => pushedBackAccesses l r
    | .other _ => []

/-- `packet_dispatch` and `lock_packet_dispatch`, on a host with this metadata. -/
def payloadAccesses (locks : LockId → InnetLock) (r : RawHdr) : List Member :=
  if hasDispatcher r.type then .lockId :: processAccesses (locks (ntohl r.lockId)) r else []

/-! ## How long a payload has to be -/

/-- The manager of the lock grants the request. -/
def ManagerGrants (l : InnetLock) (r : RawHdr) : Prop :=
  lockOutOfRange l = true ∧ (l.mode = .free ∨ l.mode = .shared ∧ r.modeState = .shared)

/-- The manager of the lock has to grant it to an exclusive waiter. -/
def ManagerSchedules (l : InnetLock) (r : RawHdr) : Prop :=
  lockOutOfRange l = true ∧ l.holders.erase (r.machineId, r.taskId) = ∅
    ∧ ∃ w ∈ l.wqueue.head?, w.op ≠ .shared

/-- A `RELEASE` that leaves nobody to hold the lock: of the last holder at the agent, or of a task
that neither holds the lock nor waits for it. -/
def LeavesNoHolder (l : InnetLock) (r : RawHdr) : Prop :=
  lockOutOfRange l = false
    ∧ if (r.machineId, r.taskId) ∈ l.holders then
        l.isAgent = true ∧ l.holders.erase (r.machineId, r.taskId) = ∅
      else (∀ e ∈ l.wqueue, ¬ (e.host = r.machineId ∧ e.taskId = r.taskId)) ∧ l.holders = ∅

instance (l : InnetLock) (r : RawHdr) : Decidable (ManagerGrants l r) :=
  inferInstanceAs (Decidable (_ ∧ _))

instance (l : InnetLock) (r : RawHdr) : Decidable (ManagerSchedules l r) :=
  inferInstanceAs (Decidable (_ ∧ _))

instance (l : InnetLock) (r : RawHdr) : Decidable (LeavesNoHolder l r) :=
  inferInstanceAs (Decidable (_ ∧ _))

/-- A header with a wait queue of this length. -/
def withQueue (n : ℕ) : ℕ := 17 + 5 * n

/-- The bytes of a payload that the handlers read or write. -/
def bytesNeeded (l : InnetLock) (r : RawHdr) : ℕ :=
  match PostType.ofByte r.type with
  | .acquire => if ManagerGrants l r then 12 else 11
  | .grantWithAgent =>
      if r.taskId = TASK_FOR_RESTORE then 11
      else if r.transferred = 0 then 12
      else if r.wqSize = 0 then 16 else withQueue r.wqSize.toNat
  | .grantWoAgent => 11
  | .release =>
      if ManagerSchedules l r then 12
      else if LeavesNoHolder l r then withQueue (l.wqueue.length - 1) else 11
  | .transfer =>
      if l.delayedFree = true ∧ l.holders = ∅ then 17 else withQueue r.wqSize.toNat
  | .free => 17
  | .other _ => 0

/-! ## The accesses of each case -/

/-- All of these members lie within a payload of `n` bytes. -/
def AllWithin (n : ℕ) (ms : List Member) : Prop := ∀ m ∈ ms, m.access.Within n

section Cases

variable {n : ℕ} {l : InnetLock} {r : RawHdr}

@[simp] lemma allWithin_nil : AllWithin n [] ↔ True := by simp [AllWithin]

@[simp] lemma allWithin_cons {m : Member} {ms : List Member} :
    AllWithin n (m :: ms) ↔ m.access.off + m.access.len ≤ n ∧ AllWithin n ms := by
  simp [AllWithin, Access.Within]

@[simp] lemma allWithin_append {ms ms' : List Member} :
    AllWithin n (ms ++ ms') ↔ AllWithin n ms ∧ AllWithin n ms' := by
  simp only [AllWithin, List.mem_append, or_imp, forall_and]

lemma acquireAccesses_within :
    AllWithin n (acquireAccesses l r) ↔ (if ManagerGrants l r then 12 else 11) ≤ n := by
  by_cases hr : lockOutOfRange l = true
  · have hg : (handleAcquireLm l r.machineId r.taskId r.modeState).2 = true ↔ ManagerGrants l r := by
      rw [handleAcquireLm_granted, ManagerGrants]
      simp [hr]
    rw [acquireAccesses, if_pos hr]
    by_cases hm : ManagerGrants l r
    · simp [hg.2 hm, hm, Member.access]
      omega
    · have hnot : ¬ (handleAcquireLm l r.machineId r.taskId r.modeState).2 = true := mt hg.1 hm
      simp [hnot, hm, Member.access]
      omega
  · have hm : ¬ ManagerGrants l r := fun h => hr h.1
    simp [acquireAccesses, hr, hm, Member.access]
    omega

lemma grantWithAgentAccesses_within :
    AllWithin n (grantWithAgentAccesses r)
      ↔ (if r.taskId = TASK_FOR_RESTORE then 11 else if r.transferred = 0 then 12
          else if r.wqSize = 0 then 16 else withQueue r.wqSize.toNat) ≤ n := by
  rw [grantWithAgentAccesses]
  by_cases ht : r.taskId = TASK_FOR_RESTORE
  · simp [ht, Member.access]
  · by_cases htr : r.transferred = 0#8
    · simp [ht, htr, Member.access]
      omega
    · by_cases hq : r.wqSize = 0#32
      · simp [ht, htr, hq, Member.access]
        omega
      · simp [ht, htr, hq, Member.access, withQueue]
        omega

lemma handOverAccesses_within :
    AllWithin n (handOverAccesses l)
      ↔ (l.holders = ∅ → withQueue (l.wqueue.length - 1) ≤ n) := by
  by_cases hh : l.holders = ∅
  · cases hq : l.wqueue with
    | nil =>
        simp [handOverAccesses, lockNoHolders, lockNoWaiters, hh, hq, Member.access, withQueue]
        omega
    | cons w rest =>
        cases rest with
        | nil =>
            simp [handOverAccesses, lockNoHolders, lockNoWaiters, hh, hq, Member.access, withQueue]
            omega
        | cons w' rest =>
            simp [handOverAccesses, lockNoHolders, lockNoWaiters, hh, hq, Member.access, withQueue]
            omega
  · simp [handOverAccesses, lockNoHolders, hh]

/-- A holder that releases leaves no holder if it was the last one, at the agent. -/
lemma leavesNoHolder_of_mem (hr : lockOutOfRange l = false)
    (hh : (r.machineId, r.taskId) ∈ l.holders) :
    LeavesNoHolder l r ↔ l.isAgent = true ∧ l.holders.erase (r.machineId, r.taskId) = ∅ := by
  simp [LeavesNoHolder, hr, hh]

lemma leavesNoHolder_of_notMem (hr : lockOutOfRange l = false)
    (hh : (r.machineId, r.taskId) ∉ l.holders) :
    LeavesNoHolder l r
      ↔ ¬ l.wqueue.any (fun e => e.host = r.machineId ∧ e.taskId = r.taskId) = true
        ∧ l.holders = ∅ := by
  simp [LeavesNoHolder, hr, hh]

/-- The handover, in the case where it leaves no holder. -/
lemma handOverAccesses_within_iff {l' : InnetLock} {P : Prop} [Decidable P] (hP : P ↔ l'.holders = ∅)
    (hq : l'.wqueue = l.wqueue) :
    11 ≤ n ∧ AllWithin n (handOverAccesses l')
      ↔ (if P then withQueue (l.wqueue.length - 1) else 11) ≤ n := by
  rw [handOverAccesses_within, hq]
  by_cases he : l'.holders = ∅
  · have hwith : 11 ≤ withQueue (l.wqueue.length - 1) := by
      rw [withQueue]
      omega
    rw [if_pos (hP.2 he)]
    simp only [he, true_implies]
    omega
  · rw [if_neg (mt hP.1 he)]
    simp only [he, false_implies, and_true]

/-- A `RELEASE` at the manager of the lock. -/
lemma releaseAccesses_within_of_outOfRange (hr : lockOutOfRange l = true) :
    AllWithin n (releaseAccesses l r) ↔ (if ManagerSchedules l r then 12 else 11) ≤ n := by
  have hs : (handleReleaseLm l r.machineId r.taskId).2.2 = true ↔ ManagerSchedules l r := by
    rw [handleReleaseLm_schedules, ManagerSchedules]
    simp [hr]
  rw [releaseAccesses, allWithin_append, if_pos hr]
  by_cases hm : ManagerSchedules l r
  · simp [hs.2 hm, hm, Member.access]
    omega
  · have hnot : ¬ (handleReleaseLm l r.machineId r.taskId).2.2 = true := mt hs.1 hm
    simp [hnot, hm, Member.access]
    omega

/-- A `RELEASE` of a lock of the switch. -/
lemma releaseAccesses_within_of_inRange (hr : lockOutOfRange l = false) :
    AllWithin n (releaseAccesses l r)
      ↔ (if LeavesNoHolder l r then withQueue (l.wqueue.length - 1) else 11) ≤ n := by
  have hhdr : AllWithin n [.machineId, .taskId] ↔ 11 ≤ n := by
    simp [Member.access]
    omega
  rw [releaseAccesses, allWithin_append, hhdr, if_neg (by simp [hr])]
  by_cases hh : (r.machineId, r.taskId) ∈ l.holders
  · have hhas : lockHasHolder l (r.machineId, r.taskId) = true := decide_eq_true hh
    have hleaves := leavesNoHolder_of_mem hr hh
    rw [hhas, Bool.not_true, if_neg Bool.false_ne_true]
    cases ha : l.isAgent with
    | false =>
        have hno : ¬ LeavesNoHolder l r := by simp [hleaves, ha]
        simp [hno]
    | true =>
        rw [Bool.not_true, if_neg Bool.false_ne_true]
        refine handOverAccesses_within_iff ?_ rfl
        rw [hleaves]
        simp [ha, handleRelease, lockRemoveHolder]
  · have hhas : lockHasHolder l (r.machineId, r.taskId) = false := decide_eq_false hh
    have hleaves := leavesNoHolder_of_notMem hr hh
    rw [hhas, Bool.not_false, if_pos rfl]
    by_cases hq : l.wqueue.any (fun e => e.host = r.machineId ∧ e.taskId = r.taskId) = true
    · have hno : ¬ LeavesNoHolder l r := fun h => (hleaves.1 h).1 hq
      rw [if_pos hq, if_neg hno]
      simp
    · rw [if_neg hq]
      refine handOverAccesses_within_iff ?_ rfl
      rw [hleaves]
      exact and_iff_right hq

lemma releaseAccesses_within :
    AllWithin n (releaseAccesses l r)
      ↔ (if ManagerSchedules l r then 12
          else if LeavesNoHolder l r then withQueue (l.wqueue.length - 1) else 11) ≤ n := by
  cases hr : lockOutOfRange l with
  | true =>
      have hno : ¬ LeavesNoHolder l r := fun h => by simp [h.1] at hr
      rw [releaseAccesses_within_of_outOfRange hr, if_neg hno]
  | false =>
      have hm : ¬ ManagerSchedules l r := fun h => by simp [h.1] at hr
      rw [releaseAccesses_within_of_inRange hr, if_neg hm]

lemma pushedBackAccesses_within
    (ht : PostType.ofByte r.type = .transfer ∨ PostType.ofByte r.type = .free) :
    AllWithin n (pushedBackAccesses l r)
      ↔ (if PostType.ofByte r.type = .transfer ∧ ¬ (l.delayedFree = true ∧ l.holders = ∅)
          then withQueue r.wqSize.toNat else 17) ≤ n := by
  have hdelayed : (l.delayedFree = true ∧ lockNoHolders l = true)
      ↔ l.delayedFree = true ∧ l.holders = ∅ := by
    simp [lockNoHolders]
  rw [pushedBackAccesses]
  by_cases hd : l.delayedFree = true ∧ l.holders = ∅
  · rw [if_pos (hdelayed.2 hd)]
    simp [hd, Member.access]
  · rw [if_neg fun h => hd (hdelayed.1 h)]
    rcases ht with ht | ht
    · by_cases hq : r.wqSize = 0#32
      · simp [ht, hd, hq, Member.access, withQueue]
        omega
      · simp [ht, hd, hq, Member.access, withQueue]
        omega
    · simp [ht, Member.access]
      omega

end Cases

/-! ## The whole way of a packet -/

lemma udpPayloadAccesses_within {off n : ℕ} {payload : List Byte} (hn : off + payload.length ≤ n) :
    ∀ a ∈ udpPayloadAccesses off payload, a.Within n := by
  cases payload with
  | nil => simp [udpPayloadAccesses]
  | cons t rest =>
      rw [List.length_cons] at hn
      intro a ha
      rw [udpPayloadAccesses, List.mem_cons] at ha
      rcases ha with rfl | ha
      · simp only [Access.Within]
        omega
      · split at ha
        · simp at ha
        · rw [List.mem_singleton] at ha
          subst ha
          simp only [Access.Within, List.length_cons]
          omega

/-- The frame is not read past its end. -/
lemma frameAccesses_within (pkt : List Byte) : ∀ a ∈ frameAccesses pkt, a.Within pkt.length := by
  intro a ha
  simp only [frameAccesses] at ha
  split at ha
  · simp at ha
  · next hlen =>
      rw [List.mem_cons] at ha
      rcases ha with rfl | ha
      · simp only [Access.Within]
        omega
      · split at ha
        · simp at ha
        · split at ha
          · simp at ha
          · next hihl =>
              rw [List.mem_append] at ha
              rcases ha with ha | ha
              · simp only [List.mem_cons, List.not_mem_nil, or_false] at ha
                rcases ha with rfl | rfl
                · simp only [Access.Within]
                  omega
                · simp only [Access.Within]
                  omega
              · split at ha
                · simp at ha
                · -- the payload is all that is left of the frame
                  refine udpPayloadAccesses_within ?_ a ha
                  simp only [List.length_drop]
                  omega

/-- The types with a dispatcher. -/
lemma hasDispatcher_iff : ∀ t : Byte, hasDispatcher t = true
    → t = 1 ∨ t = 2 ∨ t = 3 ∨ t = 4 ∨ t = 5 ∨ t = 6 := by
  decide +kernel

/-- What the handlers of a packet need, on top of its type and its lock id. -/
lemma processAccesses_within {n : ℕ} {l : InnetLock} {r : RawHdr} (ht : hasDispatcher r.type = true) :
    AllWithin n (.lockId :: processAccesses l r) ↔ bytesNeeded l r ≤ n := by
  have hhdr : ∀ ms, AllWithin n (.lockId :: .type :: ms) ↔ 6 ≤ n ∧ AllWithin n ms := by
    intro ms
    simp [Member.access]
    omega
  rw [processAccesses, hhdr]
  cases hty : PostType.ofByte r.type with
  | acquire =>
      simp only [bytesNeeded, hty, acquireAccesses_within]
      split <;> omega
  | grantWithAgent =>
      simp only [bytesNeeded, hty, grantWithAgentAccesses_within, withQueue]
      split_ifs <;> omega
  | grantWoAgent =>
      simp [bytesNeeded, hty, grantWoAgentAccesses, Member.access]
      omega
  | release =>
      simp only [bytesNeeded, hty, releaseAccesses_within, withQueue]
      split_ifs <;> omega
  | transfer =>
      simp only [bytesNeeded, hty, pushedBackAccesses_within (.inl hty), withQueue]
      by_cases hd : l.delayedFree = true ∧ l.holders = ∅
      · simp only [hd, not_true_eq_false, and_false, if_false, and_self, if_true]
        omega
      · simp only [hd, not_false_eq_true, and_true, if_true, if_false]
        omega
  | free =>
      simp only [bytesNeeded, hty, pushedBackAccesses_within (.inr hty)]
      simp
      omega
  | other b =>
      -- the types without a constructor have no dispatcher
      rcases hasDispatcher_iff r.type ht with h | h | h | h | h | h <;>
        simp [h, PostType.ofByte] at hty

/-- An accepted frame has a payload. -/
lemma acceptFrame_ne_nil {pkt payload : List Byte} (h : payload ∈ acceptFrame pkt) : payload ≠ [] := by
  simp only [acceptFrame, Option.mem_def] at h
  split_ifs at h with hlen hver hihl hport
  cases h
  intro hnil
  have hlen' := congrArg List.length hnil
  simp only [List.length_drop, List.length_nil] at hlen'
  omega

/-- **Packets stay within their buffers as long as the payload is long enough.**  No frame is read
past its end, and the copy of the payload is not exactly if it has the bytes that the handlers
need. -/
theorem accesses_within_iff (locks : LockId → InnetLock) (pkt : List Byte) (beyond : ℕ → Byte) :
    ((∀ a ∈ frameAccesses pkt, a.Within pkt.length)
        ∧ ∀ payload ∈ acceptFrame pkt,
          AllWithin payload.length (payloadAccesses locks (hdrAt (byteAt payload beyond))))
      ↔ ∀ payload ∈ acceptFrame pkt, hasDispatcher (payload.getD 0 0) = true →
          bytesNeeded (locks (ntohl (hdrAt (byteAt payload beyond)).lockId))
            (hdrAt (byteAt payload beyond)) ≤ payload.length := by
  rw [and_iff_right (frameAccesses_within pkt)]
  refine forall₂_congr fun payload hp => ?_
  have htype : (hdrAt (byteAt payload beyond)).type = payload.getD 0 0 := by
    obtain ⟨t, rest, rfl⟩ := List.exists_cons_of_ne_nil (acceptFrame_ne_nil hp)
    rfl
  rw [payloadAccesses, htype]
  by_cases ht : hasDispatcher (payload.getD 0 0) = true
  · rw [if_pos ht, processAccesses_within (htype ▸ ht)]
    simp only [ht, true_implies]
  · rw [if_neg ht]
    exact iff_of_true (allWithin_nil.2 trivial) fun h => absurd h ht

/-- Host 1 is the agent of the lock that task 5 of host 2 holds, and two more tasks wait. -/
def crowdedLock : InnetLock :=
  { InnetLock.init 7 with
    mode := .excl
    isAgent := true
    holders := {(2, 5)}
    wqueue := [Wqe.ofReq .excl 6 2, Wqe.ofReq .excl 8 3] }

/-- The `RELEASE` of that task, in a frame. -/
def releaseFrame : List Byte :=
  List.replicate 14 0 ++ [0x45] ++ List.replicate 19 0 ++ [0, 0] ++ be16 SERVER_POST_TYPE
    ++ [0, 0, 0, 0]
    ++ sendPostBytes 4 0 7 2 5 0 [] 0 0 1

/-- **The wait queue is written behind the payload**, although the packet is as it should be. -/
theorem accesses_within_fails :
    ¬ ∀ (locks : LockId → InnetLock) (pkt : List Byte) (beyond : ℕ → Byte),
      (∀ a ∈ frameAccesses pkt, a.Within pkt.length)
        ∧ ∀ payload ∈ acceptFrame pkt,
          AllWithin payload.length (payloadAccesses locks (hdrAt (byteAt payload beyond))) := by
  intro hall
  have h := (hall (fun _ => crowdedLock) releaseFrame fun _ => 0).2
    (sendPostBytes 4 0 7 2 5 0 [] 0 0 1)
    (by decide +kernel)
  have hwrite := h (.queue 1) (by decide +kernel)
  exact absurd hwrite (by decide +kernel)

end FissLock
