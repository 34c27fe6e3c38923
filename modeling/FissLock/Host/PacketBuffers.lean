import FissLock.Host.ClientApi
import FissLock.Host.Network

/-!
# The packet buffers of a host

Two places of `lock.cc` fill packet buffers as a wait queue tells them to, and the wait queue is of
any length.

`lock_digest_wq` allocates a buffer for every entry of the queue, sends one for every *shared*
entry, and keeps the handles in an array of `DPDK_TX_BURST_SIZE`.  `digestUse_allocated` says what
becomes of the others: nothing.  `digestion_sound_iff` is about all digestions of a run.

A `TRANSFER` carries the queue behind its header.  `lock_release` has it sent through `net_send`,
which sets all lengths; on BMv2 the frame has 512 bytes.  A `RELEASE` packet is rewritten in place,
and `net_poll_packets` adds what was written to all lengths but the one of UDP.
`transfer_sound_iff` says for which queues the packet is as it should be.
-/

namespace FissLock

/-! ## What happens on a host -/

/-- What a host does with its metadata. -/
inductive HostInput where
  /-- A packet is processed. -/
  | packet (hdr : LockHdr)
  /-- `lock_acquire_async`. -/
  | acquire (lid : LockId) (task : TaskId) (op : LockState)
  /-- `lock_release`. -/
  | release (lid : LockId) (task : TaskId)
  deriving DecidableEq, Repr

/-- The lock that an event is about. -/
def HostInput.lid : HostInput → LockId
  | packet hdr => hdr.id
  | acquire lid _ _ => lid
  | release lid _ => lid

/-- The metadata of the lock, after an event. -/
def lockAfter (cf : Conf) (l : InnetLock) : HostInput → InnetLock
  | .packet hdr => (lockPacketProcess cf l hdr).lock
  | .acquire _ task op => (lockAcquireAsync cf l task op).1.done
  | .release _ task => (lockRelease cf l task).done

/-- One event on a host. -/
def inputStep (cf : Conf) (locks : LockId → InnetLock) (ev : HostInput) : LockId → InnetLock :=
  Function.update locks ev.lid (lockAfter cf (locks ev.lid) ev)

/-- The metadata of the host, after a list of events. -/
def inputRun (cf : Conf) (locks : LockId → InnetLock) (evs : List HostInput) : LockId → InnetLock :=
  evs.foldl (inputStep cf) locks

/-! ## The digestion of a wait queue -/

/-- `DPDK_TX_BURST_SIZE`. -/
def DPDK_TX_BURST_SIZE : ℕ := 1024

/-- What a call of `lock_digest_wq` does with packet buffers: how many it allocates and how many
it sends, and where it accesses the array `bhdls`, and `net_send_batch` of `net.cc` its array
`bufs`. -/
structure DigestUse where
  allocated : ℕ
  sent : ℕ
  bhdls : List ℕ
  bufs : List ℕ
  deriving DecidableEq, Repr

/-- `grant_cnt`, after the loop. -/
def grantCnt (wq : List Wqe) : ℕ := wq.foldl (fun n w => if w.op = .shared then n + 1 else n) 0

/-- `lock_digest_wq`: `net_new_buf_bulk` fills the array, the loop and `net_send_batch` read it. -/
def digestUse (wq : List Wqe) : DigestUse where
  allocated := wq.length
  sent := grantCnt wq
  bhdls := List.range wq.length ++ List.range (grantCnt wq) ++ List.range (grantCnt wq)
  bufs := List.range (grantCnt wq)

/-- The queue that `handle_release_lm` digests. -/
def digestedByLm (l : InnetLock) (hid : HostId) (tid : TaskId) : Option (List Wqe) :=
  let l := lockRemoveHolder l (hid, tid)
  if lockNoHolders l then
    match l.wqueue with
    | [] => none
    | w :: _ => if w.op = .shared then some l.wqueue else none
  else none

/-- The queue that is passed to `lock_digest_wq` in an event. -/
def digestedBy (cf : Conf) (l : InnetLock) : HostInput → Option (List Wqe)
  | .packet hdr =>
      match hdr.type with
      | .grantWithAgent =>
          if hdr.taskId ≠ TASK_FOR_RESTORE ∧ hdr.transferred = true ∧ hdr.wq ≠ []
              ∧ hdr.modeState = .shared then some hdr.wq else none
      | .release => if lockOutOfRange l then digestedByLm l hdr.machineId hdr.taskId else none
      | _ => none
  | .acquire _ _ _ => none
  | .release _ task =>
      if lockOutOfRange l ∧ lockToLm l = cf.localhostId then digestedByLm l cf.localhostId task
      else none

/-- All queues that are digested in a run, in their order. -/
def digestions (cf : Conf) : (LockId → InnetLock) → List HostInput → List (List Wqe)
  | _, [] => []
  | locks, ev :: evs =>
      (digestedBy cf (locks ev.lid) ev).toList ++ digestions cf (inputStep cf locks ev) evs

/-- The buffers allocated for these digestions. -/
def allocatedFor (qs : List (List Wqe)) : ℕ := (qs.map fun wq => (digestUse wq).allocated).sum

/-- The buffers sent in these digestions. -/
def sentFor (qs : List (List Wqe)) : ℕ := (qs.map fun wq => (digestUse wq).sent).sum

/-- The queue is no longer than the arrays, and these are not overrun. -/
structure NoOverrun (wq : List Wqe) : Prop where
  length_le : wq.length ≤ DPDK_TX_BURST_SIZE
  bhdls_lt : ∀ i ∈ (digestUse wq).bhdls, i < DPDK_TX_BURST_SIZE
  bufs_lt : ∀ i ∈ (digestUse wq).bufs, i < DPDK_TX_BURST_SIZE

/-- All digestions of a run keep to their arrays, and no buffer is leaked at any point of it. -/
def DigestionSound (cf : Conf) (locks : LockId → InnetLock) (evs : List HostInput) : Prop :=
  (∀ wq ∈ digestions cf locks evs, NoOverrun wq)
    ∧ ∀ pre, pre <+: evs →
      allocatedFor (digestions cf locks pre) = sentFor (digestions cf locks pre)

/-- A queue that can be digested: short, and without exclusive requests. -/
def Digestible (wq : List Wqe) : Prop :=
  wq.length ≤ DPDK_TX_BURST_SIZE ∧ ∀ w ∈ wq, w.op = .shared

/-! ### What the model sends -/

lemma grantCnt_eq (wq : List Wqe) : grantCnt wq = (wq.filter (·.op = .shared)).length := by
  suffices hfold : ∀ n, wq.foldl (fun n w => if w.op = .shared then n + 1 else n) n
      = n + (wq.filter (·.op = .shared)).length by
    rw [grantCnt, hfold, Nat.zero_add]
  induction wq with
  | nil => simp
  | cons w wq ih =>
      intro n
      rw [List.foldl_cons, ih]
      by_cases hw : w.op = .shared
      · simp [hw]
        omega
      · simp [hw]

/-- As many packets are handed to `net_send_batch` as there are grants. -/
lemma digestUse_sent (l : InnetLock) (wq : List Wqe) :
    (digestUse wq).sent = (lockDigestWq l wq).2.length := by
  rw [lockDigestWq_eq, List.length_map]
  exact grantCnt_eq wq

/-- A buffer is leaked for every entry that is not shared. -/
lemma digestUse_allocated (wq : List Wqe) :
    (digestUse wq).allocated = (digestUse wq).sent + (wq.filter (·.op ≠ .shared)).length := by
  have hsplit := List.length_eq_length_filter_add (fun w : Wqe => decide (w.op = .shared)) (l := wq)
  simp only [digestUse, grantCnt_eq]
  simpa using hsplit

lemma handleReleaseLm_sent (l : InnetLock) (hid : HostId) (tid : TaskId) :
    (handleReleaseLm l hid tid).2.1.length
      = ((digestedByLm l hid tid).map digestUse).elim 0 (·.sent) := by
  simp only [handleReleaseLm, digestedByLm]
  by_cases hh : lockNoHolders (lockRemoveHolder l (hid, tid)) = true
  · rw [if_pos hh, if_pos hh]
    cases hq : (lockRemoveHolder l (hid, tid)).wqueue with
    | nil => rfl
    | cons w rest =>
        by_cases hw : w.op = .shared
        · simp only [if_pos hw]
          exact (digestUse_sent _ _).symm
        · simp [hw]
  · simp [hh]

/-- Processing a packet sends what the digestion of its queue sends, and nothing else. -/
lemma lockPacketProcess_sent (cf : Conf) (l : InnetLock) (hdr : LockHdr) :
    (lockPacketProcess cf l hdr).sent.length
      = ((digestedBy cf l (.packet hdr)).map digestUse).elim 0 (·.sent) := by
  cases ht : hdr.type with
  | acquire =>
      simp only [lockPacketProcess, digestedBy, ht, processAcquire]
      split_ifs <;> rfl
  | grantWithAgent =>
      simp only [lockPacketProcess, digestedBy, ht, processGrantWithAgent, lockAddHolder]
      by_cases hr : hdr.taskId = TASK_FOR_RESTORE
      · simp [hr]
      · by_cases htr : hdr.transferred = true
        · by_cases hq : hdr.wq = []
          · simp [hr, htr, hq]
          · by_cases hm : hdr.modeState = .shared
            · simp only [hq, hm, ne_eq, not_false_eq_true, if_true, htr, hr, and_self, if_false,
                Option.map_some, Option.elim_some]
              exact (digestUse_sent _ _).symm
            · simp [hr, htr, hq, hm]
        · simp [hr, htr]
  | grantWoAgent => simp [lockPacketProcess, digestedBy, ht, processGrantWoAgent]
  | release =>
      simp only [lockPacketProcess, digestedBy, ht, processRelease]
      by_cases hr : lockOutOfRange l = true
      · rw [if_pos hr, if_pos hr, ← handleReleaseLm_sent]
        split
        · split <;> rfl
        · rfl
      · rw [if_neg hr, if_neg hr]
        simp only [releaseHandOver]
        split_ifs <;> rfl
  | transfer =>
      simp only [lockPacketProcess, digestedBy, ht, processPushedBack]
      split_ifs <;> rfl
  | free =>
      simp only [lockPacketProcess, digestedBy, ht, processPushedBack]
      split_ifs <;> rfl
  | other b => simp [lockPacketProcess, digestedBy, ht]

/-! ### When digestion is sound -/

/-- The arrays are overrun exactly by queues that are longer. -/
lemma noOverrun_iff (wq : List Wqe) : NoOverrun wq ↔ wq.length ≤ DPDK_TX_BURST_SIZE := by
  constructor
  · exact NoOverrun.length_le
  · intro hle
    have hcnt : grantCnt wq ≤ wq.length := by
      rw [grantCnt_eq]
      exact List.length_filter_le _ _
    refine ⟨hle, ?_, ?_⟩
    · intro i hi
      simp only [digestUse, List.mem_append, List.mem_range] at hi
      omega
    · intro i hi
      simp only [digestUse, List.mem_range] at hi
      omega

/-- No buffer is leaked exactly if there are only shared entries. -/
lemma accounts_iff (qs : List (List Wqe)) :
    allocatedFor qs = sentFor qs ↔ ∀ wq ∈ qs, ∀ w ∈ wq, w.op = .shared := by
  induction qs with
  | nil => simp [allocatedFor, sentFor]
  | cons wq qs ih =>
      have hle : sentFor qs ≤ allocatedFor qs := by
        apply List.sum_le_sum
        intro q _
        have hq := digestUse_allocated q
        omega
      have halloc := digestUse_allocated wq
      have hnone : (wq.filter (·.op ≠ .shared)).length = 0 ↔ ∀ w ∈ wq, w.op = .shared := by
        simp [List.filter_eq_nil_iff]
      have hsplit : allocatedFor (wq :: qs) = (digestUse wq).allocated + allocatedFor qs
          ∧ sentFor (wq :: qs) = (digestUse wq).sent + sentFor qs := ⟨rfl, rfl⟩
      rw [hsplit.1, hsplit.2, List.forall_mem_cons, ← hnone, ← ih]
      omega

/-- The digestions of the beginning of a run are digestions of the run. -/
lemma digestions_subset (cf : Conf) {pre evs : List HostInput} (h : pre <+: evs)
    (locks : LockId → InnetLock) : ∀ wq ∈ digestions cf locks pre, wq ∈ digestions cf locks evs := by
  induction pre generalizing evs locks with
  | nil => simp [digestions]
  | cons ev pre ih =>
      obtain ⟨rest, rfl⟩ := h
      intro wq hwq
      simp only [List.cons_append, digestions, List.mem_append] at hwq ⊢
      exact hwq.imp_right (ih (List.prefix_append _ _) _ wq)

/-- **Digestion is sound exactly for short queues of shared requests.**  In a run from any
metadata, every digestion keeps to its arrays and no buffer is leaked, exactly if every queue that
is digested has at most `DPDK_TX_BURST_SIZE` entries, all of them shared. -/
theorem digestion_sound_iff (cf : Conf) (locks : LockId → InnetLock) (evs : List HostInput) :
    DigestionSound cf locks evs ↔ ∀ wq ∈ digestions cf locks evs, Digestible wq := by
  constructor
  · rintro ⟨hrun, hacc⟩ wq hwq
    refine ⟨(noOverrun_iff wq).1 (hrun wq hwq), ?_⟩
    exact (accounts_iff _).1 (hacc evs List.prefix_rfl) wq hwq
  · intro h
    refine ⟨fun wq hwq => (noOverrun_iff wq).2 (h wq hwq).1, ?_⟩
    intro pre hpre
    rw [accounts_iff]
    intro wq hwq
    exact (h wq (digestions_subset cf hpre locks wq hwq)).2

/-- The lock manager host 1, for a lock that the switch does not know. -/
def digestConf : Conf := { localhostId := 1, enbLocalGrants := true, bmv2 := false }

/-- Host 2 holds the lock, host 3 and host 4 wait for it, and host 2 releases it. -/
def mixedQueue : List HostInput :=
  let lid : LockId := BitVec.ofNat 32 SWITCH_LOCK_NUM
  [.packet (sendPostLockGeneric .acquire .excl lid 2 5 [] 0 .free 1),
    .packet (sendPostLockGeneric .acquire .shared lid 3 6 [] 0 .free 1),
    .packet (sendPostLockGeneric .acquire .excl lid 4 7 [] 0 .free 1),
    .packet (sendPostReleaseLm lid 2 5 1)]

/-- **A buffer is leaked** when a queue with an exclusive request is digested. -/
theorem digestion_sound_fails :
    ¬ ∀ (cf : Conf) (evs : List HostInput), DigestionSound cf InnetLock.init evs := by
  intro hall
  have h := (hall digestConf mixedQueue).2 mixedQueue List.prefix_rfl
  exact absurd h (by decide +kernel)

/-! ## The lengths of a `TRANSFER` -/

/-- The headers in front of a post. -/
def NET_HDRS : ℕ := 14 + 20 + 8

/-- The room of a packet buffer: `Bmv2PacketBuf::storage`, and the data room of a DPDK buffer. -/
def PACKET_ROOM : ℕ := 2048

/-- `uint8_t frame[512]`, in `net_send` of `bmv2_net.cc`. -/
def FRAME_ROOM : ℕ := 512

/-- Bytes that are written from the start of a buffer on, and its size. -/
structure BufferWrite where
  bytes : ℕ
  room : ℕ
  deriving DecidableEq, Repr

/-- The lengths that a packet has when it leaves: `wq_size` in its header, the total length of
IPv4, the length of UDP, and what the network layer takes for the length of its buffer. -/
structure SentLengths where
  wqSize : BitVec 32
  ipLength : BitVec 16
  udpLength : BitVec 16
  bufferLengths : List ℕ
  deriving DecidableEq, Repr

/-- Sending a `TRANSFER`: what was written where, and the packet, if one leaves. -/
structure TransferOut where
  writes : List BufferWrite
  packet : Option SentLengths
  deriving DecidableEq, Repr

/-- `send_post_lock_generic` and `net_send`, for a post with this wait queue.  The size of a post
is an `uint32_t`, and `data_len` of a DPDK buffer has 16 bits. -/
def sendTransfer (bmv2 : Bool) (wq : List Wqe) : TransferOut :=
  let postSize := (POST_HDR_SIZE + wq.length * 5) % 2 ^ 32
  { writes := ⟨NET_HDRS + POST_HDR_SIZE + wq.length * 5, PACKET_ROOM⟩
      :: if bmv2 then [⟨NET_HDRS + postSize, FRAME_ROOM⟩] else []
    packet := some
      { wqSize := BitVec.ofNat 32 wq.length
        ipLength := BitVec.ofNat 16 (20 + 8 + postSize)
        udpLength := BitVec.ofNat 16 (8 + postSize)
        bufferLengths := if bmv2 then [NET_HDRS + postSize]
          else [(NET_HDRS + postSize) % 2 ^ 16, (NET_HDRS + postSize) % 2 ^ 32] } }

/-- A `RELEASE` packet that has become a `TRANSFER` with this wait queue, and for which the handler
has returned `ret`.  `net_poll_packets` of `net.cc` enlarges the buffer that the bare header came
in, and leaves the length of UDP alone; in `bmv2_net.cc` the handler had a copy of the post, and
nothing leaves. -/
def forwardTransfer (bmv2 : Bool) (wq : List Wqe) (ret : ℕ) : TransferOut :=
  if bmv2 then
    { writes := [⟨POST_HDR_SIZE + wq.length * 5, POST_HDR_SIZE⟩]
      packet := none }
  else
    let more := if 1 < ret then ret else 0
    { writes := [⟨NET_HDRS + POST_HDR_SIZE + wq.length * 5, PACKET_ROOM⟩]
      packet := some
        { wqSize := BitVec.ofNat 32 wq.length
          ipLength := BitVec.ofNat 16 (20 + 8 + POST_HDR_SIZE) + BitVec.ofNat 16 more
          udpLength := BitVec.ofNat 16 (8 + POST_HDR_SIZE)
          bufferLengths := [(NET_HDRS + POST_HDR_SIZE + more) % 2 ^ 16,
            (NET_HDRS + POST_HDR_SIZE + more) % 2 ^ 32] } }

/-- What is written fits. -/
def BufferWrite.Fits (w : BufferWrite) : Prop := w.bytes ≤ w.room

instance (w : BufferWrite) : Decidable w.Fits := inferInstanceAs (Decidable (_ ≤ _))

/-- All lengths of a packet are what its `wq_size` implies. -/
structure SentLengths.Consistent (p : SentLengths) : Prop where
  ip : p.ipLength.toNat = 20 + 8 + POST_HDR_SIZE + 5 * p.wqSize.toNat
  udp : p.udpLength.toNat = 8 + POST_HDR_SIZE + 5 * p.wqSize.toNat
  buffer : ∀ n ∈ p.bufferLengths, n = NET_HDRS + POST_HDR_SIZE + 5 * p.wqSize.toNat

structure TransferOut.Sound (o : TransferOut) : Prop where
  fits : ∀ w ∈ o.writes, w.Fits
  consistent : ∀ p ∈ o.packet, p.Consistent

/-- The `TRANSFER`s that come of an event. -/
def transferOuts (cf : Conf) (l : InnetLock) : HostInput → List TransferOut
  | .packet hdr =>
      let o := lockPacketProcess cf l hdr
      if hdr.type = .release ∧ o.ret ≠ 0 ∧ o.hdr.type = .transfer then
        [forwardTransfer cf.bmv2 o.hdr.wq o.ret] else []
  | .acquire _ _ _ => []
  | .release _ task =>
      ((lockRelease cf l task).sent.filter (·.type = .transfer)).map fun p => sendTransfer cf.bmv2 p.wq

/-- The longest queue that can be transferred: through `net_send` as long as the buffer, or on BMv2
the frame, has room for it; by a rewritten `RELEASE` if nobody is left behind the new holder. -/
def longestQueue (bmv2 : Bool) : HostInput → ℕ
  | .packet _ => 1
  | .acquire _ _ _ | .release _ _ => if bmv2 then 91 else 398

/-! ### Which transfers are sound -/

/-- Up to here the size of the post has room in a `uint32_t`. -/
lemma postSize_of_le {wq : List Wqe} (hle : wq.length ≤ 397) :
    (POST_HDR_SIZE + wq.length * 5) % 2 ^ 32 = 17 + wq.length * 5 := by
  refine Nat.mod_eq_of_lt ?_
  simp only [POST_HDR_SIZE]
  omega

/-- Through `net_send`, the lengths follow `wq_size`. -/
lemma sendTransfer_consistent (bmv2 : Bool) {wq : List Wqe} (hle : wq.length ≤ 397) :
    ∀ p ∈ (sendTransfer bmv2 wq).packet, p.Consistent := by
  have hwq : (BitVec.ofNat 32 wq.length).toNat = wq.length := by
    rw [BitVec.toNat_ofNat, Nat.mod_eq_of_lt (by omega)]
  rw [sendTransfer, postSize_of_le hle]
  rintro p ⟨⟩
  refine ⟨?_, ?_, ?_⟩
  · simp only [hwq, BitVec.toNat_ofNat, POST_HDR_SIZE]
    omega
  · simp only [hwq, BitVec.toNat_ofNat, POST_HDR_SIZE]
    omega
  · simp only [hwq, NET_HDRS, POST_HDR_SIZE]
    intro n hn
    split at hn
    · rw [List.mem_singleton] at hn
      omega
    · simp only [List.mem_cons, List.not_mem_nil, or_false] at hn
      omega

/-- Through `net_send`, the headers and the queue have to fit. -/
lemma sendTransfer_fits_iff (bmv2 : Bool) (wq : List Wqe) :
    (∀ w ∈ (sendTransfer bmv2 wq).writes, w.Fits) ↔ wq.length + 1 ≤ if bmv2 then 91 else 398 := by
  have hbuffer : BufferWrite.Fits ⟨NET_HDRS + POST_HDR_SIZE + wq.length * 5, PACKET_ROOM⟩
      ↔ wq.length ≤ 397 := by
    simp only [BufferWrite.Fits, NET_HDRS, POST_HDR_SIZE, PACKET_ROOM]
    omega
  cases bmv2 with
  | false =>
      simp only [sendTransfer, Bool.false_eq_true, if_false, List.forall_mem_singleton, hbuffer]
      omega
  | true =>
      simp only [sendTransfer, if_true, List.forall_mem_cons, List.not_mem_nil, false_implies,
        implies_true, and_true, hbuffer]
      constructor
      · rintro ⟨hle, hframe⟩
        rw [BufferWrite.Fits, postSize_of_le hle] at hframe
        simp only [NET_HDRS, FRAME_ROOM] at hframe
        omega
      · intro hle
        refine ⟨by omega, ?_⟩
        rw [BufferWrite.Fits, postSize_of_le (by omega)]
        simp only [NET_HDRS, FRAME_ROOM]
        omega

lemma sendTransfer_sound_iff (bmv2 : Bool) (wq : List Wqe) :
    (sendTransfer bmv2 wq).Sound ↔ wq.length + 1 ≤ if bmv2 then 91 else 398 := by
  rw [← sendTransfer_fits_iff]
  constructor
  · intro h
    exact h.fits
  · intro hfits
    refine ⟨hfits, sendTransfer_consistent bmv2 ?_⟩
    have hlen := (sendTransfer_fits_iff bmv2 wq).1 hfits
    split at hlen <;> omega

/-- By a rewritten `RELEASE`. -/
lemma forwardTransfer_sound_iff (bmv2 : Bool) (wq : List Wqe) :
    (forwardTransfer bmv2 wq (if wq.length ≠ 0 then wq.length * 5 else 1)).Sound ↔ wq.length = 0 := by
  constructor
  · intro h
    by_contra hne
    rw [if_pos hne, forwardTransfer] at h
    cases bmv2 with
    | true =>
        have hfits : POST_HDR_SIZE + wq.length * 5 ≤ POST_HDR_SIZE := h.fits ⟨_, _⟩ List.mem_cons_self
        omega
    | false =>
        have hfits : NET_HDRS + POST_HDR_SIZE + wq.length * 5 ≤ PACKET_ROOM :=
          h.fits ⟨_, _⟩ List.mem_cons_self
        simp only [NET_HDRS, POST_HDR_SIZE, PACKET_ROOM] at hfits
        have hwq : (BitVec.ofNat 32 wq.length).toNat = wq.length := by
          rw [BitVec.toNat_ofNat, Nat.mod_eq_of_lt (by omega)]
        -- the length of UDP is still the one of the `RELEASE`
        have hudp : (BitVec.ofNat 16 (8 + POST_HDR_SIZE)).toNat
            = 8 + POST_HDR_SIZE + 5 * (BitVec.ofNat 32 wq.length).toNat := (h.consistent _ rfl).udp
        rw [hwq] at hudp
        simp only [POST_HDR_SIZE, BitVec.toNat_ofNat] at hudp
        omega
  · intro hzero
    have hnil : wq = [] := List.eq_nil_of_length_eq_zero hzero
    subst hnil
    cases bmv2 with
    | true =>
        refine ⟨?_, by rintro p ⟨⟩⟩
        intro w hw
        rw [List.mem_singleton.1 hw]
        exact le_rfl
    | false =>
        refine ⟨?_, ?_⟩
        · intro w hw
          rw [List.mem_singleton.1 hw]
          decide
        · rintro p ⟨⟩
          exact ⟨by decide, by decide, by decide⟩

/-! ### Which transfers there are -/

lemma lockReleaseHandOver_transfer {cf : Conf} {l : InnetLock} {failed : List Assertion} {p : LockHdr}
    (hp : p ∈ (lockReleaseHandOver cf l failed).sent) (ht : p.type = .transfer) :
    p.wq.length + 1 = l.wqueue.length := by
  rw [lockReleaseHandOver] at hp
  split at hp
  · cases hq : l.wqueue with
    | nil =>
        simp only [hq, List.mem_singleton] at hp
        subst hp
        cases ht
    | cons e rest =>
        simp only [hq] at hp
        split at hp
        · simp at hp
        · simp only [List.mem_singleton] at hp
          subst hp
          rfl
  · simp at hp

/-- `lock_release` transfers the queue without its first entry. -/
lemma lockRelease_transfer {cf : Conf} {l : InnetLock} {task : TaskId} {p : LockHdr}
    (hp : p ∈ (lockRelease cf l task).sent) (ht : p.type = .transfer) :
    p.wq.length + 1 = l.wqueue.length := by
  simp only [lockRelease] at hp
  split at hp
  · -- a lock manager sends grants, and the others send it the release
    exfalso
    split at hp
    · split at hp
      · split at hp
        · cases (handleReleaseLm_type hp).symm.trans ht
        · rcases List.mem_append.1 hp with hp | hp
          · cases (handleReleaseLm_type hp).symm.trans ht
          · rw [List.mem_singleton.1 hp] at ht
            cases ht
      · cases (handleReleaseLm_type hp).symm.trans ht
    · rw [List.mem_singleton.1 hp] at ht
      cases ht
  · split at hp
    · split at hp
      · have hlen := lockReleaseHandOver_transfer hp ht
        exact hlen
      · have hlen := lockReleaseHandOver_transfer hp ht
        exact hlen
    · rw [List.mem_singleton.1 hp] at ht
      cases ht

lemma releaseHandOver_transfer {cf : Conf} {l : InnetLock} {hdr : LockHdr} {failed : List Assertion}
    (hrel : hdr.type = .release) (ht : (releaseHandOver cf l hdr failed).hdr.type = .transfer) :
    (releaseHandOver cf l hdr failed).hdr.wq.length + 1 = l.wqueue.length
      ∧ (releaseHandOver cf l hdr failed).ret
        = if (releaseHandOver cf l hdr failed).hdr.wq.length ≠ 0
          then (releaseHandOver cf l hdr failed).hdr.wq.length * 5 else 1 := by
  revert ht
  rw [releaseHandOver]
  split
  · cases hq : l.wqueue with
    | nil => simp [lockNoWaiters, hq, lockFreeHelper]
    | cons e rest =>
        intro _
        simp [lockNoWaiters, hq, lockTransferHelper]
  · intro ht
    simp [hrel] at ht

/-- A rewritten `RELEASE` has the queue without its first entry, and the handler returns its
size. -/
lemma processRelease_transfer {cf : Conf} {l : InnetLock} {hdr : LockHdr} (hrel : hdr.type = .release)
    (ht : (processRelease cf l hdr).hdr.type = .transfer) :
    (processRelease cf l hdr).hdr.wq.length + 1 = l.wqueue.length
      ∧ (processRelease cf l hdr).ret
        = if (processRelease cf l hdr).hdr.wq.length ≠ 0
          then (processRelease cf l hdr).hdr.wq.length * 5 else 1 := by
  revert ht
  simp only [processRelease]
  split
  · intro ht
    split at ht
    · split at ht
      · simp [hrel] at ht
      · simp at ht
    · simp [hrel] at ht
  · split
    · split
      · intro ht
        simp [hrel] at ht
      · exact releaseHandOver_transfer hrel
    · split
      · intro ht
        simp [hrel] at ht
      · exact releaseHandOver_transfer hrel

/-- **Which transfers are sound.**  A `TRANSFER` is written within its buffers and leaves with the
right lengths exactly if the queue of the agent is no longer than `longestQueue`. -/
theorem transfer_sound_iff (cf : Conf) (l : InnetLock) (ev : HostInput) (o : TransferOut)
    (ho : o ∈ transferOuts cf l ev) : o.Sound ↔ l.wqueue.length ≤ longestQueue cf.bmv2 ev := by
  cases ev with
  | packet hdr =>
      simp only [transferOuts] at ho
      split at ho
      · next h =>
          obtain ⟨hrel, -, ht⟩ := h
          have hproc : lockPacketProcess cf l hdr = processRelease cf l hdr := by
            simp only [lockPacketProcess, hrel]
          rw [hproc] at ho ht
          obtain ⟨hlen, hret⟩ := processRelease_transfer hrel ht
          rw [List.mem_singleton] at ho
          rw [ho, hret, forwardTransfer_sound_iff, longestQueue]
          omega
      · simp at ho
  | acquire lid task op => simp [transferOuts] at ho
  | release lid task =>
      simp only [transferOuts, List.mem_map, List.mem_filter, decide_eq_true_eq] at ho
      obtain ⟨p, ⟨hp, ht⟩, rfl⟩ := ho
      rw [sendTransfer_sound_iff, lockRelease_transfer hp ht, longestQueue]

/-- Host 1 of a cluster with DPDK. -/
def agentConf : Conf := { localhostId := 1, enbLocalGrants := true, bmv2 := false }

/-- Host 1 becomes the agent of lock 7, shares it with host 2 and gives up its own hold; then hosts
3 and 4 ask for it. -/
def sharedThenAsked : List HostInput :=
  [.packet { sendPostLockGeneric .grantWithAgent .shared 7 1 5 [] 0 .free 1 with granted := true },
    .packet { sendPostLockGeneric .acquire .shared 7 2 6 [] 0 .free 1 with granted := true },
    .release 7 5,
    .packet (sendPostLockGeneric .acquire .excl 7 3 8 [] 0 .free 1),
    .packet (sendPostLockGeneric .acquire .excl 7 4 9 [] 0 .free 1)]

/-- Host 2 releases the lock. -/
def lastRelease : HostInput := .packet (sendPostLockGeneric .release .free 7 2 6 [] 0 .free 1)

/-- **The packet that leaves contradicts itself**: two tasks wait, and a `RELEASE` is rewritten. -/
theorem transfer_sound_fails :
    ¬ ∀ (cf : Conf) (evs : List HostInput) (ev : HostInput),
      ∀ o ∈ transferOuts cf (inputRun cf InnetLock.init evs ev.lid) ev, o.Sound := by
  intro hall
  have hmem : forwardTransfer false [Wqe.ofReq .excl 9 4] 5
      ∈ transferOuts agentConf (inputRun agentConf InnetLock.init sharedThenAsked 7) lastRelease := by
    decide +kernel
  have hs := hall agentConf sharedThenAsked lastRelease _ hmem
  exact absurd ((forwardTransfer_sound_iff false [Wqe.ofReq .excl 9 4]).1 hs) (by decide)

/-- Host 1 has the lock exclusively, and hosts 3, 4 and 2 ask for it. -/
def exclThenAsked : List HostInput :=
  [.packet (sendPostLockGeneric .grantWithAgent .excl 7 1 5 [] 0 .free 1),
    .packet (sendPostLockGeneric .acquire .excl 7 3 8 [] 0 .free 1),
    .packet (sendPostLockGeneric .acquire .excl 7 4 9 [] 0 .free 1),
    .packet (sendPostLockGeneric .acquire .shared 7 2 6 [] 0 .free 1)]

/-- The release of host 1 sends the lock to the first of three waiters, with the other two. -/
theorem transfer_sound_three :
    ∃ o ∈ transferOuts agentConf (inputRun agentConf InnetLock.init exclThenAsked 7) (.release 7 5),
      o = sendTransfer false [Wqe.ofReq .excl 9 4, Wqe.ofReq .shared 6 2] ∧ o.Sound := by
  have hmem : sendTransfer false [Wqe.ofReq .excl 9 4, Wqe.ofReq .shared 6 2]
      ∈ transferOuts agentConf (inputRun agentConf InnetLock.init exclThenAsked 7)
        (.release 7 5) := by
    decide +kernel
  exact ⟨_, hmem, rfl, (transfer_sound_iff _ _ _ _ hmem).2 (by decide +kernel)⟩

end FissLock
