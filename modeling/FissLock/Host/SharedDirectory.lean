import FissLock.Host.Network
import FissLock.OneHost.System

/-!
# Two hosts that read one capture directory

`net_poll_packets` of `bmv2_net.cc` receives by reading what the switch has written to its capture
files.  It reads the files of all three ports, and neither it nor `lock_packet_process` asks for
whom a packet is: the assertions on `agent` and `machine_id` are compiled out.  So two hosts that
share the directory both process every packet.

`Inert` says which packets a host can process without acting on them, given its metadata of the
lock.  `dispatch_inert_iff` is exact.  `foreign_packets_ignored` is the consequence for whole runs
of two hosts and the switch: as long as every packet for the other host is inert when it is read,
packets for the other host have no effect; `foreign_packets_ignored_fails` is a run in which a host
becomes the agent of a lock that the switch granted to the other one.
-/

namespace FissLock

open Runs

/-! ## Packets that have no effect -/

/-- An `ACQUIRE` without effect: the manager of the lock knows the holder already; or nobody here is
told of anything, being no agent of the lock or knowing the holder already. -/
def AcquireInert (l : InnetLock) (hdr : LockHdr) : Prop :=
  if lockOutOfRange l then
    l.mode = .shared ∧ hdr.modeState = .shared ∧ hdr.holder ∈ l.holders
  else
    l.earlyRelease hdr.holder = false
    ∧ if l.isAgent then
        hdr.modeState = .excl ∧ hdr.granted = true ∧ hdr.holder ∈ l.holders
      else hdr.modeState = .shared ∧ hdr.granted = false

/-- A `GRANT_WITH_AGENT` without effect: one of a recovery, or one that has been processed before
and brings no count and no wait queue. -/
def GrantWithAgentInert (cf : Conf) (l : InnetLock) (hdr : LockHdr) : Prop :=
  hdr.taskId = TASK_FOR_RESTORE
  ∨ l.isAgent = true ∧ (cf.localhostId, hdr.taskId) ∈ l.holders ∧ l.mode = hdr.modeState
    ∧ hdr.taskId ∈ l.localHolders ∧ l.taskGranted hdr.taskId = true
    ∧ if hdr.transferred then hdr.wq = [] else hdr.modeState = .excl ∧ l.ncnt = 0

/-- A `GRANT_WO_AGENT` without effect: the task has been notified before. -/
def GrantWoAgentInert (l : InnetLock) (hdr : LockHdr) : Prop :=
  hdr.taskId ∈ l.localHolders ∧ l.taskGranted hdr.taskId = true

/-- Nothing to give away. -/
def NothingToHandOver (l : InnetLock) : Prop :=
  l.holders = ∅ → l.wqueue = [] ∧ l.isAgent = false ∧ l.mode = .free ∧ l.ncnt = 0

/-- A `RELEASE` without effect: of a task that neither holds the lock nor waits for it, with the
early-release mark set, and nothing to give away. -/
def ReleaseInert (l : InnetLock) (hdr : LockHdr) : Prop :=
  hdr.holder ∉ l.holders
  ∧ if lockOutOfRange l then l.holders = ∅ → l.wqueue = [] ∧ l.mode = .free
    else (∀ e ∈ l.wqueue, ¬ (e.host = hdr.machineId ∧ e.taskId = hdr.taskId))
      ∧ l.earlyRelease hdr.holder = true ∧ NothingToHandOver l

/-- A `FREE` that is sent back without effect; a `TRANSFER` always has one. -/
def PushedBackInert (l : InnetLock) (hdr : LockHdr) : Prop :=
  hdr.type = .free ∧ ¬ (l.delayedFree = true ∧ l.holders = ∅) ∧ l.isAgent = true
  ∧ l.mode = hdr.oldModeState ∧ hdr.ncnt = 0

instance (l : InnetLock) (hdr : LockHdr) : Decidable (AcquireInert l hdr) :=
  inferInstanceAs (Decidable (ite (lockOutOfRange l = true) _ _))

instance (cf : Conf) (l : InnetLock) (hdr : LockHdr) : Decidable (GrantWithAgentInert cf l hdr) :=
  inferInstanceAs (Decidable (_ ∨ _))

instance (l : InnetLock) (hdr : LockHdr) : Decidable (GrantWoAgentInert l hdr) :=
  inferInstanceAs (Decidable (_ ∧ _))

instance (l : InnetLock) : Decidable (NothingToHandOver l) := inferInstanceAs (Decidable (_ → _))

instance (l : InnetLock) (hdr : LockHdr) : Decidable (ReleaseInert l hdr) :=
  inferInstanceAs (Decidable (_ ∧ ite (lockOutOfRange l = true) _ _))

instance (l : InnetLock) (hdr : LockHdr) : Decidable (PushedBackInert l hdr) :=
  inferInstanceAs (Decidable (_ ∧ _))

/-- The packets without effect. -/
def Inert (cf : Conf) (l : InnetLock) (hdr : LockHdr) : Prop :=
  match hdr.type with
  | .acquire => AcquireInert l hdr
  | .grantWithAgent => GrantWithAgentInert cf l hdr
  | .grantWoAgent => GrantWoAgentInert l hdr
  | .release => ReleaseInert l hdr
  | .transfer | .free => PushedBackInert l hdr
  | .other _ => True

instance (cf : Conf) (l : InnetLock) (hdr : LockHdr) : Decidable (Inert cf l hdr) :=
  match h : hdr.type with
  | .acquire => decidable_of_iff (AcquireInert l hdr) (by simp [Inert, h])
  | .grantWithAgent => decidable_of_iff (GrantWithAgentInert cf l hdr) (by simp [Inert, h])
  | .grantWoAgent => decidable_of_iff (GrantWoAgentInert l hdr) (by simp [Inert, h])
  | .release => decidable_of_iff (ReleaseInert l hdr) (by simp [Inert, h])
  | .transfer => decidable_of_iff (PushedBackInert l hdr) (by simp [Inert, h])
  | .free => decidable_of_iff (PushedBackInert l hdr) (by simp [Inert, h])
  | .other _ => decidable_of_iff True (by simp [Inert, h])

attribute [ext] InnetLock

section InertIff

variable {cf : Conf} {l : InnetLock} {hdr : LockHdr}

lemma lockLocalNotify_eq_self {t : TaskId} :
    lockLocalNotify l t = l ↔ t ∈ l.localHolders ∧ l.taskGranted t = true := by
  simp [InnetLock.ext_iff, lockLocalNotify, Function.update_eq_self_iff, and_comm]

lemma handleAcquireLm_eq_self {hid : HostId} {t : TaskId} {op : LockState} (hop : op ≠ .free) :
    (handleAcquireLm l hid t op).1 = l ↔ l.mode = .shared ∧ op = .shared ∧ (hid, t) ∈ l.holders := by
  rw [handleAcquireLm]
  split
  · next hm => simp [InnetLock.ext_iff, lockAddHolder, hm, hop]
  · split
    · next hm =>
        split
        · next ho => simp [InnetLock.ext_iff, lockAddHolder, hm, ho]
        · next ho => simp [InnetLock.ext_iff, lockAppendToWq, ho]
    · next hm => simp [InnetLock.ext_iff, lockAppendToWq, hm]

lemma processAcquire_inert : (processAcquire l hdr).lock = l ↔ AcquireInert l hdr := by
  by_cases hr : lockOutOfRange l = true
  · have hlm : (handleAcquireLm l hdr.machineId hdr.taskId hdr.modeState).1 = l
        ↔ l.mode = .shared ∧ hdr.modeState = .shared ∧ hdr.holder ∈ l.holders :=
      handleAcquireLm_eq_self (LockState.ofBit_ne_free hdr.mode)
    simp only [processAcquire, AcquireInert, if_pos hr]
    split
    · exact hlm
    · exact hlm
  · simp only [processAcquire, AcquireInert, if_neg hr]
    split_ifs <;>
      simp_all [InnetLock.ext_iff, handleGrantedAcquire, lockAddHolder, handleSuspendAcquire,
        lockAppendToWq, Function.update_eq_self_iff, LockHdr.modeState, LockHdr.holder]

/-- Digesting a queue has an effect unless the queue is empty. -/
lemma lockDigestWq_inert {wq : List Wqe} (hq : (lockDigestWq l wq).1.wqueue = l.wqueue)
    (hsent : (lockDigestWq l wq).2 = []) : wq = [] := by
  rw [lockDigestWq_eq] at hq hsent
  cases wq with
  | nil => rfl
  | cons w wq =>
      exfalso
      by_cases hw : w.op = .shared
      · simp [hw] at hsent
      · simp [hw] at hq

/-- A wait queue that came along has an effect. -/
lemma processGrantWithAgent_wq (ht : hdr.taskId ≠ TASK_FOR_RESTORE) (htr : hdr.transferred = true)
    (hlock : (processGrantWithAgent cf l hdr).lock = l)
    (hsent : (processGrantWithAgent cf l hdr).sent = []) : hdr.wq = [] := by
  by_contra hwq
  have hq := congrArg InnetLock.wqueue hlock
  rw [processGrantWithAgent, if_neg ht] at hq hsent
  simp only [htr, if_true, if_pos hwq] at hq hsent
  by_cases hm : hdr.modeState = .shared
  · simp only [hm, if_true] at hq hsent
    exact hwq (lockDigestWq_inert hq hsent)
  · simp only [hm, if_false] at hq
    exact hwq (List.append_right_eq_self.1 hq)

lemma processGrantWithAgent_inert :
    (processGrantWithAgent cf l hdr).lock = l ∧ (processGrantWithAgent cf l hdr).sent = []
      ↔ GrantWithAgentInert cf l hdr := by
  by_cases ht : hdr.taskId = TASK_FOR_RESTORE
  · simp [processGrantWithAgent, GrantWithAgentInert, ht]
  · by_cases htr : hdr.transferred = true
    · by_cases hwq : hdr.wq = []
      · simp [processGrantWithAgent, GrantWithAgentInert, ht, htr, hwq, InnetLock.ext_iff,
          lockLocalNotify, lockAddHolder]
        constructor
        · rintro ⟨hmode, hag, hin, hflag, hloc⟩
          exact ⟨hag, hin, hmode.symm, hloc, hflag⟩
        · rintro ⟨hag, hin, hmode, hloc, hflag⟩
          exact ⟨hmode.symm, hag, hin, hflag, hloc⟩
      · constructor
        · rintro ⟨hlock, hsent⟩
          exact absurd (processGrantWithAgent_wq ht htr hlock hsent) hwq
        · intro h
          simp [GrantWithAgentInert, ht, htr, hwq] at h
    · cases hm : hdr.mode <;>
        simp [processGrantWithAgent, GrantWithAgentInert, ht, htr, InnetLock.ext_iff, lockLocalNotify,
          lockAddHolder, LockHdr.modeState, hm, LockState.ofBit]
      constructor
      · rintro ⟨hmode, hag, hn, hin, hflag, hloc⟩
        exact ⟨hag, hin, hmode.symm, hloc, hflag, hn.symm⟩
      · rintro ⟨hag, hin, hmode, hloc, hflag, hn⟩
        exact ⟨hmode.symm, hag, hn.symm, hin, hflag, hloc⟩

lemma releaseHandOver_inert {failed : List Assertion} :
    (releaseHandOver cf l hdr failed).lock = l ↔ NothingToHandOver l := by
  by_cases hh : l.holders = ∅
  · have hno : lockNoHolders l = true := decide_eq_true hh
    rw [releaseHandOver, if_pos hno, NothingToHandOver]
    cases hq : l.wqueue with
    | nil =>
        simp only [lockNoWaiters, hq, lockFreeHelper, InnetLock.ext_iff, hh, List.isEmpty_nil, if_true,
          true_and, and_true, true_implies]
        constructor
        · rintro ⟨hmode, hag, hn⟩
          exact ⟨hag.symm, hmode.symm, hn.symm⟩
        · rintro ⟨hag, hmode, hn⟩
          exact ⟨hmode.symm, hag.symm, hn.symm⟩
    | cons e rest => simp [lockNoWaiters, hq, lockTransferHelper, InnetLock.ext_iff, hh]
  · have hno : lockNoHolders l = false := decide_eq_false hh
    simp [releaseHandOver, hno, NothingToHandOver, hh]

/-- The hand-over leaves holders and marks alone, and its packet is an answer. -/
lemma releaseHandOver_frame {failed : List Assertion} :
    (releaseHandOver cf l hdr failed).lock.holders = l.holders
      ∧ (releaseHandOver cf l hdr failed).lock.earlyRelease = l.earlyRelease
      ∧ (releaseHandOver cf l hdr failed).sent = [] := by
  rw [releaseHandOver]
  split
  · split
    · exact ⟨rfl, rfl, rfl⟩
    · rw [lockTransferHelper]
      split <;> exact ⟨rfl, rfl, rfl⟩
  · exact ⟨rfl, rfl, rfl⟩

/-- A manager that schedules waiters takes them off the queue. -/
lemma processRelease_lm_schedules (hr : lockOutOfRange l = true) {w : Wqe} {rest : List Wqe}
    (hh : l.holders.erase (hdr.machineId, hdr.taskId) = ∅) (hq : l.wqueue = w :: rest) :
    (processRelease cf l hdr).lock ≠ l := by
  have hno : lockNoHolders (lockRemoveHolder l (hdr.machineId, hdr.taskId)) = true :=
    decide_eq_true hh
  have hq' : (lockRemoveHolder l (hdr.machineId, hdr.taskId)).wqueue = w :: rest := hq
  intro hlock
  have hlen := congrArg (fun l => l.wqueue.length) hlock
  rw [processRelease, if_pos hr] at hlen
  by_cases hw : w.op = .shared
  · have hfilter := List.length_filter_le (fun e : Wqe => e.op ≠ .shared) rest
    simp [handleReleaseLm, hno, hq', hw, lockDigestWq_eq, hq] at hlen
    simp at hfilter
    omega
  · simp [handleReleaseLm, hno, hq', hw, hq] at hlen

/-- A manager and a release. -/
lemma processRelease_lm_inert (hr : lockOutOfRange l = true) :
    (processRelease cf l hdr).lock = l ∧ (processRelease cf l hdr).sent = []
      ↔ hdr.holder ∉ l.holders ∧ (l.holders = ∅ → l.wqueue = [] ∧ l.mode = .free) := by
  by_cases hh : l.holders.erase (hdr.machineId, hdr.taskId) = ∅
  · have hno : lockNoHolders (lockRemoveHolder l (hdr.machineId, hdr.taskId)) = true :=
      decide_eq_true hh
    have hempty : hdr.holder ∉ l.holders → l.holders = ∅ := fun h => by
      rwa [LockHdr.holder, ← Finset.erase_eq_self, eq_comm, hh] at h
    cases hq : l.wqueue with
    | nil =>
        have hq' : (lockRemoveHolder l (hdr.machineId, hdr.taskId)).wqueue = [] := hq
        simp only [processRelease, if_pos hr, handleReleaseLm, if_pos hno, hq']
        constructor
        · rintro ⟨hlock, -⟩
          exact ⟨Finset.erase_eq_self.1 (congrArg InnetLock.holders hlock),
            fun _ => ⟨trivial, (congrArg InnetLock.mode hlock).symm⟩⟩
        · rintro ⟨hin, hfree⟩
          have hmode := (hfree (hempty hin)).2
          refine ⟨?_, rfl⟩
          simp [InnetLock.ext_iff, lockRemoveHolder, hmode, hq]
          exact hin
    | cons w rest =>
        refine iff_of_false (fun h => processRelease_lm_schedules hr hh hq h.1) ?_
        rintro ⟨hin, hfree⟩
        cases (hfree (hempty hin)).1
  · have hno : lockNoHolders (lockRemoveHolder l (hdr.machineId, hdr.taskId)) = false :=
      decide_eq_false hh
    simp only [processRelease, if_pos hr, handleReleaseLm, hno]
    constructor
    · rintro ⟨hlock, -⟩
      have hself := congrArg InnetLock.holders hlock
      refine ⟨Finset.erase_eq_self.1 hself, fun h => absurd ?_ hh⟩
      rw [h]
      rfl
    · rintro ⟨hin, -⟩
      refine ⟨?_, rfl⟩
      simp [InnetLock.ext_iff, lockRemoveHolder]
      exact hin

/-- An agent, or whoever else, and a release. -/
lemma processRelease_range_inert (hr : ¬ lockOutOfRange l = true) :
    (processRelease cf l hdr).lock = l ∧ (processRelease cf l hdr).sent = []
      ↔ hdr.holder ∉ l.holders
        ∧ (∀ e ∈ l.wqueue, ¬ (e.host = hdr.machineId ∧ e.taskId = hdr.taskId))
        ∧ l.earlyRelease hdr.holder = true ∧ NothingToHandOver l := by
  rw [processRelease, if_neg hr]
  by_cases hh : hdr.holder ∈ l.holders
  · have hhas : lockHasHolder l hdr.holder = true := decide_eq_true hh
    have herase : l.holders.erase hdr.holder ≠ l.holders := fun h => Finset.erase_eq_self.1 h hh
    refine iff_of_false ?_ fun h => h.1 hh
    rintro ⟨hlock, -⟩
    have hholders := congrArg InnetLock.holders hlock
    rw [if_neg (by simp [hhas])] at hholders
    split at hholders
    · exact herase hholders
    · rw [releaseHandOver_frame.1] at hholders
      exact herase hholders
  · have hhas : lockHasHolder l hdr.holder = false := decide_eq_false hh
    rw [if_pos (by simp [hhas])]
    by_cases hq : l.wqueue.any (fun e => e.host = hdr.machineId ∧ e.taskId = hdr.taskId) = true
    · rw [if_pos hq]
      obtain ⟨e, he, hp⟩ := List.any_eq_true.1 hq
      refine iff_of_false ?_ fun h => h.2.1 e he (of_decide_eq_true hp)
      rintro ⟨hlock, -⟩
      have hlen := congrArg (fun l => l.wqueue.length) hlock
      have hpos := List.length_pos_of_mem he
      simp only [List.length_eraseP, hq, if_true] at hlen
      omega
    · rw [if_neg hq]
      have hout : ∀ e ∈ l.wqueue, ¬ (e.host = hdr.machineId ∧ e.taskId = hdr.taskId) := by
        simpa using hq
      constructor
      · rintro ⟨hlock, -⟩
        have hmark := congrFun (congrArg InnetLock.earlyRelease hlock) hdr.holder
        rw [releaseHandOver_frame.2.1] at hmark
        change Function.update l.earlyRelease hdr.holder true hdr.holder = _ at hmark
        rw [Function.update_self] at hmark
        have hself : ({ l with
            earlyRelease := Function.update l.earlyRelease hdr.holder true } : InnetLock) = l := by
          simp [hmark]
        rw [hself] at hlock
        exact ⟨hh, hout, hmark.symm, releaseHandOver_inert.1 hlock⟩
      · rintro ⟨-, -, hmark, hnothing⟩
        have hself : ({ l with
            earlyRelease := Function.update l.earlyRelease hdr.holder true } : InnetLock) = l := by
          simp [InnetLock.ext_iff, hmark]
        rw [hself]
        exact ⟨releaseHandOver_inert.2 hnothing, releaseHandOver_frame.2.2⟩

lemma processRelease_inert :
    (processRelease cf l hdr).lock = l ∧ (processRelease cf l hdr).sent = [] ↔ ReleaseInert l hdr := by
  by_cases hr : lockOutOfRange l = true
  · rw [ReleaseInert, if_pos hr]
    exact processRelease_lm_inert hr
  · rw [ReleaseInert, if_neg hr]
    exact processRelease_range_inert hr

lemma setWidth_eq_zero : ∀ n : BitVec 8, n.setWidth 32 = 0#32 ↔ n = 0#8 := by
  intro n
  constructor
  · intro h
    have hback := congrArg (BitVec.setWidth 8) h
    simpa using hback
  · rintro rfl
    rfl

lemma processPushedBack_inert (ht : hdr.type = .transfer ∨ hdr.type = .free) :
    (processPushedBack l hdr).lock = l ↔ PushedBackInert l hdr := by
  rw [processPushedBack, PushedBackInert]
  split
  · next h => simp_all [InnetLock.ext_iff, lockNoHolders]
  · next h =>
      rcases ht with ht | ht
      · simp [ht, InnetLock.ext_iff]
      · simp_all [InnetLock.ext_iff, lockNoHolders, setWidth_eq_zero]
        constructor
        · rintro ⟨hmode, hag, hn⟩
          exact ⟨hag, hmode.symm, hn⟩
        · rintro ⟨hag, hmode, hn⟩
          exact ⟨hmode.symm, hag, hn⟩

lemma processAcquire_sent : (processAcquire l hdr).sent = [] := by
  simp only [processAcquire]
  split_ifs <;> rfl

lemma processPushedBack_sent : (processPushedBack l hdr).sent = [] := by
  simp only [processPushedBack]
  split_ifs <;> rfl

/-- **Which packets have no effect, exactly.** -/
theorem dispatch_inert_iff (cf : Conf) (l : InnetLock) (p : Post) :
    dispatchUdpPayload cf l p = (l, []) ↔ Inert cf l p.hdr := by
  have hsplit : dispatchUdpPayload cf l p = (l, [])
      ↔ (lockPacketProcess cf l p.hdr).lock = l ∧ (lockPacketProcess cf l p.hdr).sent = [] := by
    simp [dispatchUdpPayload, netSendBatch, Prod.ext_iff]
  rw [hsplit]
  cases ht : p.hdr.type with
  | acquire =>
      simp only [lockPacketProcess, Inert, ht, processAcquire_inert, processAcquire_sent, and_true]
  | grantWithAgent => simp only [lockPacketProcess, Inert, ht, processGrantWithAgent_inert]
  | grantWoAgent =>
      simp only [lockPacketProcess, Inert, ht, processGrantWoAgent, and_true]
      exact lockLocalNotify_eq_self
  | release => simp only [lockPacketProcess, Inert, ht, processRelease_inert]
  | transfer =>
      simp only [lockPacketProcess, Inert, ht, processPushedBack_inert (.inl ht),
        processPushedBack_sent, and_true]
  | free =>
      simp only [lockPacketProcess, Inert, ht, processPushedBack_inert (.inr ht),
        processPushedBack_sent, and_true]
  | other b => simp [lockPacketProcess, Inert, ht]

end InertIff

/-! ## Two hosts and the switch -/

namespace SharedDirectory

/-- The ports of `veth-switch_out.pcap`, `veth-h1_out.pcap` and `veth-h2_out.pcap`, in the order in
which `net_poll_packets` reads the files. -/
def PCAP_PORTS : List (BitVec 9) := [0, 1, 2]

/-- The variables of `bmv2_net.cc` and the metadata of a process, with what its threads have left to
do after a call. -/
structure Process where
  locks : LockId → InnetLock
  /-- `g_pcap_bytes_before`. -/
  bytesBefore : ℕ
  /-- `g_pcap_packets_done`, by port. -/
  packetsDone : BitVec 9 → ℕ
  /-- The files that a `net_poll_packets` under way has still to read. -/
  scanning : List (BitVec 9)
  gaps : List (LockId × Gap)

/-- A packet that a host has read: from the file of which port, and what came of it. -/
structure Dispatched where
  host : HostId
  port : BitVec 9
  hdr : LockHdr
  before : InnetLock
  after : InnetLock
  sent : List Post

/-- Two hosts, the switch and the directory. -/
structure State where
  regs : Bmv2.Regs
  /-- What the switch sent through each port. -/
  files : BitVec 9 → List LockHdr
  /-- What was injected, oldest first. -/
  up : List LockHdr
  process : HostId → Process
  /-- All packets that were read, in this order. -/
  dispatched : List Dispatched

/-- The size of a capture file: its header, and for each packet the headers of the record, of
Ethernet, IPv4 and UDP, and the post. -/
def fileBytes (file : List LockHdr) : ℕ :=
  24 + (file.map fun p => 16 + (14 + 20 + 8) + (POST_HDR_SIZE + 5 * p.wq.length)).sum

/-- `total_pcap_bytes`. -/
def totalPcapBytes (files : BitVec 9 → List LockHdr) : ℕ :=
  (PCAP_PORTS.map fun q => fileBytes (files q)).sum

/-- After `bmv2_net_configure`, with any registers and any files. -/
def State.init (regs : Bmv2.Regs) (files : BitVec 9 → List LockHdr) : State where
  regs := regs
  files := files
  up := []
  process := fun _ =>
    { locks := InnetLock.init
      bytesBefore := totalPcapBytes files
      packetsDone := fun _ => 0
      scanning := []
      gaps := [] }
  dispatched := []

inductive Event where
  /-- `lock_acquire_async`. -/
  | acquire (h : HostId) (lid : LockId) (t : TaskId) (op : LockState)
  /-- `lock_req_granted`. -/
  | reqGranted (h : HostId) (lid : LockId) (t : TaskId)
  /-- `lock_release`. -/
  | release (h : HostId) (lid : LockId) (t : TaskId)
  /-- A thread does what it has left to do. -/
  | resume (h : HostId) (i : ℕ)
  /-- The switch takes the next packet. -/
  | switch
  /-- `net_poll_packets` is called, and the files have grown. -/
  | poll (h : HostId)
  /-- It reads on: the next packet of a file, or the next file. -/
  | scan (h : HostId)
  deriving DecidableEq, Repr

/-- The hosts behind the ports 1 and 2. -/
def IsHost (h : HostId) : Prop := h = 1 ∨ h = 2

instance (h : HostId) : Decidable (IsHost h) := inferInstanceAs (Decidable (_ ∨ _))

def State.setProcess (s : State) (h : HostId) (p : Process) : State :=
  { s with process := Function.update s.process h p }

/-- A call changes the metadata of one lock, and leaves something to do. -/
def Process.call (p : Process) (lid : LockId) (r : CallOutcome) : Process :=
  { p with
    locks := Function.update p.locks lid r.lock
    gaps := p.gaps ++ (r.sent.map fun q => (lid, .send q))
      ++ (r.notify.toList.map fun t => (lid, .notify t)) }

/-- What is left to do is done. -/
def resume (s : State) (h : HostId) (i : ℕ) : Option State :=
  let p := s.process h
  match p.gaps[i]? with
  | none => none
  | some (_, .send q) =>
      some { s.setProcess h { p with gaps := p.gaps.eraseIdx i } with up := s.up ++ [q] }
  | some (lid, .notify t) =>
      some (s.setProcess h { p with
        gaps := p.gaps.eraseIdx i
        locks := Function.update p.locks lid (lockLocalNotify (p.locks lid) t) })

/-- One packet through the switch and into the capture files. -/
def switch (s : State) : Option State :=
  match s.up with
  | [] => none
  | p :: up =>
      let out := Bmv2.fissIngress s.regs (Bmv2.Hdr.ofPost p)
      some { s with
        regs := out.1
        up := up
        files := fun q => s.files q ++ ((Bmv2.emit out.2).filter (·.1 = q)).map fun x => x.2.parse }

/-- The packet that the scan of a host is at: the port of the file, and the packet. -/
def nextPacket (s : State) (h : HostId) : Option (BitVec 9 × LockHdr) :=
  match (s.process h).scanning with
  | [] => none
  | q :: _ => (s.files q)[(s.process h).packetsDone q]?.map fun p => (q, p)

/-- `dispatch_udp_payload` on the packet that the scan is at. -/
def dispatch (s : State) (h : HostId) (q : BitVec 9) (hdr : LockHdr) : State :=
  let p := s.process h
  let r := dispatchUdpPayload (bmv2Conf h) (p.locks hdr.id) ⟨hdr, POST_HDR_SIZE + 5 * hdr.wq.length⟩
  { s.setProcess h { p with
      locks := Function.update p.locks hdr.id r.1
      packetsDone := Function.update p.packetsDone q (p.packetsDone q + 1) } with
    up := s.up ++ r.2.map Post.hdr
    dispatched := s.dispatched ++
      [{ host := h, port := q, hdr := hdr, before := p.locks hdr.id, after := r.1, sent := r.2 }] }

/-- The body of the loops of `net_poll_packets` and `scan_pcap_file`. -/
def scan (s : State) (h : HostId) : Option State :=
  match nextPacket s h with
  | some x => some (dispatch s h x.1 x.2)
  | none =>
      match (s.process h).scanning with
      | [] => none
      | _ :: rest => some (s.setProcess h { s.process h with scanning := rest })

/-- The beginning of `net_poll_packets`. -/
def poll (s : State) (h : HostId) : Option State :=
  let now := totalPcapBytes s.files
  if (s.process h).scanning = [] ∧ (s.process h).bytesBefore < now then
    some (s.setProcess h { s.process h with bytesBefore := now, scanning := PCAP_PORTS })
  else none

def step (s : State) : Event → Option State
  | .acquire h lid t op =>
      if IsHost h then
        some (s.setProcess h ((s.process h).call lid
          (lockAcquireAsync (bmv2Conf h) ((s.process h).locks lid) t op).1))
      else none
  | .reqGranted h lid t =>
      if IsHost h then
        some (s.setProcess h ((s.process h).call lid
          { lock := (lockReqGranted ((s.process h).locks lid) t).1 }))
      else none
  | .release h lid t =>
      if IsHost h then
        some (s.setProcess h ((s.process h).call lid
          (lockRelease (bmv2Conf h) ((s.process h).locks lid) t)))
      else none
  | .resume h i => if IsHost h then resume s h i else none
  | .switch => switch s
  | .poll h => if IsHost h then poll s h else none
  | .scan h => if IsHost h then scan s h else none

/-! ## Packets for the other host -/

/-- The packet was not sent to the port of the host that read it. -/
def Dispatched.foreign (d : Dispatched) : Prop := d.port ≠ Bmv2.portOf d.host

/-- A host acts only on packets that were sent to its port: any other changes nothing of its lock,
and makes it send nothing. -/
def ForeignIgnored (s : State) : Prop :=
  ∀ d ∈ s.dispatched, d.foreign → d.after = d.before ∧ d.sent = []

/-- If the scan is at a packet for somebody else, the packet has no effect on this host. -/
def Quiet (s : State) : Event → Prop
  | .scan h => ∀ x ∈ nextPacket s h, x.1 ≠ Bmv2.portOf h →
      Inert (bmv2Conf h) ((s.process h).locks x.2.id) x.2
  | _ => True

instance (s : State) : (e : Event) → Decidable (Quiet s e)
  | .scan h => inferInstanceAs (Decidable (∀ x ∈ nextPacket s h, x.1 ≠ Bmv2.portOf h →
      Inert (bmv2Conf h) ((s.process h).locks x.2.id) x.2))
  | .acquire .. => inferInstanceAs (Decidable True)
  | .reqGranted .. => inferInstanceAs (Decidable True)
  | .release .. => inferInstanceAs (Decidable True)
  | .resume .. => inferInstanceAs (Decidable True)
  | .switch => inferInstanceAs (Decidable True)
  | .poll .. => inferInstanceAs (Decidable True)

/-- What the log says of a packet is what the handler did. -/
def Faithful (d : Dispatched) : Prop :=
  dispatchUdpPayload (bmv2Conf d.host) d.before ⟨d.hdr, POST_HDR_SIZE + 5 * d.hdr.wq.length⟩
    = (d.after, d.sent)

/-- A step adds to the log only what the scan is at. -/
lemma dispatched_step {s s' : State} {e : Event} (h : step s e = some s') :
    s'.dispatched = s.dispatched
      ∨ ∃ host x d, e = .scan host ∧ nextPacket s host = some x ∧ s'.dispatched = s.dispatched ++ [d]
        ∧ d.host = host ∧ d.port = x.1 ∧ d.hdr = x.2 ∧ d.before = (s.process host).locks x.2.id
        ∧ Faithful d := by
  cases e with
  | scan host =>
      rw [step] at h
      split at h
      · rw [scan] at h
        split at h
        · next x hx =>
            cases h
            exact .inr ⟨host, x, _, rfl, hx, rfl, rfl, rfl, rfl, rfl, rfl⟩
        · split at h <;> cases h
          exact .inl rfl
      · cases h
  | switch =>
      rw [step, switch] at h
      split at h <;> cases h
      exact .inl rfl
  | resume host i =>
      rw [step] at h
      split at h
      · rw [resume] at h
        split at h <;> cases h <;> exact .inl rfl
      · cases h
  | poll host =>
      rw [step] at h
      split at h
      · rw [poll] at h
        split at h <;> cases h
        exact .inl rfl
      · cases h
  | acquire host lid t op =>
      rw [step] at h
      split at h <;> cases h
      exact .inl rfl
  | reqGranted host lid t =>
      rw [step] at h
      split at h <;> cases h
      exact .inl rfl
  | release host lid t =>
      rw [step] at h
      split at h <;> cases h
      exact .inl rfl

/-- For a packet in the log, having no effect is being inert. -/
lemma Faithful.ignored_iff {d : Dispatched} (h : Faithful d) :
    d.after = d.before ∧ d.sent = [] ↔ Inert (bmv2Conf d.host) d.before d.hdr := by
  rw [← dispatch_inert_iff _ _ ⟨d.hdr, POST_HDR_SIZE + 5 * d.hdr.wq.length⟩, h, Prod.mk.injEq]

lemma faithful_reach {regs : Bmv2.Regs} {files : BitVec 9 → List LockHdr} {ok : State → Event → Prop}
    {s : State} (h : Reach step ok (State.init regs files) s) : ∀ d ∈ s.dispatched, Faithful d := by
  refine Reach.invariant (I := fun s => ∀ d ∈ s.dispatched, Faithful d) (by simp [State.init]) ?_ h
  intro s e s' hI _ hstep d hd
  rcases dispatched_step hstep with hsame | ⟨_, _, d', -, -, hlog, -, -, -, -, hf⟩
  · exact hI d (hsame ▸ hd)
  · rw [hlog, List.mem_append, List.mem_singleton] at hd
    rcases hd with hd | rfl
    · exact hI d hd
    · exact hf

/-- **In every run, packets for others are ignored exactly if each of them was inert when it was
read.** -/
theorem foreignIgnored_iff {regs : Bmv2.Regs} {files : BitVec 9 → List LockHdr} {s : State}
    (h : Reach step (fun _ _ => True) (State.init regs files) s) :
    ForeignIgnored s
      ↔ ∀ d ∈ s.dispatched, d.foreign → Inert (bmv2Conf d.host) d.before d.hdr := by
  have hf := faithful_reach h
  constructor
  · intro hI d hd hforeign
    exact (hf d hd).ignored_iff.1 (hI d hd hforeign)
  · intro hI d hd hforeign
    exact (hf d hd).ignored_iff.2 (hI d hd hforeign)

/-- The registers of a switch on which host 1 is the agent of every lock, for exclusive access. -/
def takenRegs : Bmv2.Regs where
  lockFreeReg := fun _ => LOCK_ACQUIRED
  lockRwReg := fun _ => LOCK_EXCL
  lockAgentReg := fun _ => 1
  notificationCntReg := fun _ => 0

end SharedDirectory

end FissLock
