import FissLock.Library.Runs
import FissLock.Sidecar.Script

/-!
# Runs of the sidecar's commands

Any number of processes run `try_acquire` and `free` against one switch.  A command injects one
packet, the switch takes the packets in the order of injection, and everything that passes an
interface ends up in a capture file.  Before it injects its packet, `try_acquire` measures the
files; other processes and the switch may go on in between.  The directory may hold files from
earlier runs, and the registers any values.

`Contract` is what a caller expects: granted means that the switch granted this lock to this
machine after the call began, and two grants of one lock have a `free` between them.  The script
does not look at the machine id of a grant, nor at its age.  It only waits until something was
captured, so that an old grant or a grant to somebody else will do.

`try_acquire_contract` says that the contract holds as long as nothing of that kind can be found
when the packet is injected: nobody else asks for the lock at the same time, and either there is no
grant of it in the files, or everything injected has been answered, the files are as large as they
were measured and the lock is free.  `try_acquire_contract_fails` is the shortest run without that.
-/

namespace FissLock
namespace Sidecar

open Runs

/-! ## The system -/

/-- Where a call of `cmd_try_acquire` is: in the loop, or returned with 0 or with 1. -/
inductive Status where
  | polling
  | granted (g : Grant)
  | timedOut
  deriving DecidableEq, Repr

/-- A call of `cmd_try_acquire`.  `since` is no variable of the script: it counts what the switch
had emitted when the packet was injected. -/
structure Call where
  machineId : MachineId
  lockId : LockId
  before : ℕ
  since : ℕ
  status : Status
  deriving DecidableEq, Repr

/-- A process that runs `cmd_try_acquire` and has not injected its packet. -/
structure Started where
  machineId : MachineId
  lockId : LockId
  /-- The files that `total_pcap_bytes` has not measured yet. -/
  unmeasured : List PcapName
  /-- The sum of those that it has, which will be `before`. -/
  before : ℕ
  deriving DecidableEq, Repr

/-- `total_pcap_bytes` measures one file after the other. -/
def Started.measure (dir : PcapDir) (d : Started) : Started :=
  match d.unmeasured with
  | [] => d
  | n :: rest =>
      { d with
        unmeasured := rest
        before := d.before + ((dir.filter fun f => f.1 = n).map fun f => stSize f.2).sum }

/-- The call after the packet is injected. -/
def Started.call (d : Started) (since : ℕ) : Call where
  machineId := d.machineId
  lockId := d.lockId
  before := d.before
  since := since
  status := .polling

/-- A command that has injected its packet. -/
inductive Command where
  | tryAcquire (c : Call)
  | free (machineId : MachineId) (lockId : LockId)
  deriving DecidableEq, Repr

namespace Command

def request : Command → Request
  | tryAcquire c => ⟨.acquire, c.lockId, c.machineId⟩
  | free m lid => ⟨.free, lid, m⟩

/-- An `ACQUIRE` for the lock. -/
def Acquires (lid : LockId) (c : Command) : Prop :=
  c.request.kind = .acquire ∧ c.request.lockId = lid

/-- A call for the lock that has not returned. -/
def Polls (lid : LockId) : Command → Prop
  | tryAcquire c => c.lockId = lid ∧ c.status = .polling
  | free _ _ => False

instance (lid : LockId) (c : Command) : Decidable (c.Acquires lid) :=
  inferInstanceAs (Decidable (_ ∧ _))

instance (lid : LockId) : (c : Command) → Decidable (c.Polls lid)
  | tryAcquire _ => inferInstanceAs (Decidable (_ ∧ _))
  | free _ _ => inferInstanceAs (Decidable False)

end Command

/-- The switch, the capture files, the processes that are about to ask and the commands in the order
of injection.  The switch has taken the packets of the first `served` commands; `emitted` is all that
it sent, with the ports. -/
structure State where
  regs : Bmv2.Regs
  dir : PcapDir
  started : List Started
  commands : List Command
  served : ℕ
  emitted : List (BitVec 9 × List Byte)

def State.init (regs : Bmv2.Regs) (dir : PcapDir) : State where
  regs := regs
  dir := dir
  started := []
  commands := []
  served := 0
  emitted := []

inductive Event where
  | tryAcquire (machineId : MachineId) (lockId : LockId)
  /-- A process measures the next file. -/
  | measure (i : ℕ)
  /-- A process that has measured them all injects its packet. -/
  | inject (i : ℕ)
  | free (machineId : MachineId) (lockId : LockId)
  | serve
  | poll (i : ℕ)
  | timeout (i : ℕ)

/-- A packet is appended to a capture file, if that exists. -/
def capture (dir : PcapDir) (n : PcapName) (pkt : Frame) : PcapDir :=
  dir.map fun f => if f.1 = n then (f.1, f.2 ++ [pkt]) else f

/-- The headers of Ethernet, IPv4 and UDP, and the payload. -/
def frame (dport : BitVec 16) (raw : List Byte) : Frame where
  length := 14 + 20 + 8 + raw.length
  udp := some (dport, raw)

/-- `op_new_agent` sends to `UDP_PORT_CLIENT`; what else the plane does with a packet of the script
leaves `UDP_PORT_SERVER`. -/
def outFrame (raw : List Byte) : Frame :=
  frame (if raw.head? = some GRANT_W_AGENT then UDP_PORT_CLIENT else UDP_PORT_SERVER) raw

/-- The interface of a port. -/
def ifaceOf (port : BitVec 9) : Option Iface :=
  if port = 0 then some .vethSwitch
  else if port = 1 then some .vethH1
  else if port = 2 then some .vethH2
  else none

/-- The file to which the switch appends a packet that it sends; what goes to a port without an
interface is lost. -/
def captureOut (dir : PcapDir) (x : BitVec 9 × List Byte) : PcapDir :=
  match ifaceOf x.1 with
  | some i => capture dir (.outgoing i) (outFrame x.2)
  | none => dir

/-- The switch takes the next packet. -/
def serve (s : State) : Option State :=
  s.commands[s.served]?.bind fun c =>
    (planeBytes s.regs c.request.payload).map fun out =>
      let dir := capture s.dir (.incoming .vethSwitch) (frame UDP_PORT_SERVER c.request.payload)
      { s with
        regs := out.1
        dir := out.2.foldl captureOut dir
        served := s.served + 1
        emitted := s.emitted ++ out.2 }

/-- The body of the loop of `cmd_try_acquire`: the status afterwards.  The files only grow, so that a
grant is found in the end if one is found while they are read. -/
def pollOnce (dir : PcapDir) (c : Call) : Status :=
  if c.before < totalPcapBytes dir then
    match findGrant dir c.lockId with
    | some g => .granted g
    | none => .polling
  else .polling

/-- A call that has not returned gets a new status. -/
def setStatus (s : State) (i : ℕ) (f : Call → Status) : Option State :=
  match s.commands[i]? with
  | some (.tryAcquire c) =>
      if c.status = .polling then
        some { s with commands := s.commands.set i (.tryAcquire { c with status := f c }) }
      else none
  | _ => none

def step (s : State) : Event → Option State
  | .tryAcquire m lid => some { s with started := s.started ++ [⟨m, lid, PCAP_OUT, 0⟩] }
  | .measure i => some { s with started := s.started.modify i (Started.measure s.dir) }
  | .inject i =>
      match s.started[i]? with
      | some d =>
          if d.unmeasured = [] then
            some { s with
              started := s.started.eraseIdx i
              commands := s.commands ++ [.tryAcquire (d.call s.emitted.length)] }
          else none
      | none => none
  | .free m lid => some { s with commands := s.commands ++ [.free m lid] }
  | .serve => serve s
  | .poll i => setStatus s i (pollOnce s.dir)
  | .timeout i => setStatus s i fun _ => .timedOut

/-! ## The contract, and when it holds -/

/-- A `free` of the lock, by whatever machine, between two commands. -/
def FreedBetween (s : State) (i j : ℕ) (lid : LockId) : Prop :=
  ∃ k m, i < k ∧ k < j ∧ s.commands[k]? = some (.free m lid)

/-- The command with this number is this call. -/
def CallAt (s : State) (i : ℕ) (c : Call) : Prop := s.commands[i]? = some (.tryAcquire c)

/-- What `try_acquire` promises. -/
structure Contract (s : State) : Prop where
  /-- Granted: by the switch, to this machine, after the request. -/
  granted : ∀ i c g, CallAt s i c → c.status = .granted g →
    ∃ x ∈ s.emitted.drop c.since, GrantTo c.lockId c.machineId x
  /-- Two calls for one lock are granted only with a `free` between them. -/
  exclusive : ∀ i j c c' g g', i < j → CallAt s i c → CallAt s j c' → c.lockId = c'.lockId →
    c.status = .granted g → c'.status = .granted g' → FreedBetween s i j c.lockId

/-- When a process may inject its `ACQUIRE`: nobody is waiting for the lock, and no grant of it is in
the files or can still come from an earlier request, or else everything has been answered, nothing
was captured since the process measured the files, and the lock is free. -/
def Started.Orderly (s : State) (d : Started) : Prop :=
  (∀ c ∈ s.commands, ¬ c.Polls d.lockId)
    ∧ ((findGrant s.dir d.lockId = none ∧ ∀ c ∈ s.commands.drop s.served, ¬ c.Acquires d.lockId)
      ∨ (s.served = s.commands.length ∧ totalPcapBytes s.dir ≤ d.before
        ∧ Grantable s.regs d.lockId))

instance (s : State) (d : Started) : Decidable (d.Orderly s) := inferInstanceAs (Decidable (_ ∧ _))

/-- The steps after which the contract holds. -/
def Orderly (s : State) : Event → Prop
  | .inject i => ∀ d ∈ s.started[i]?, d.Orderly s
  | _ => True

instance (s : State) : (e : Event) → Decidable (Orderly s e)
  | .tryAcquire _ _ => inferInstanceAs (Decidable True)
  | .measure _ => inferInstanceAs (Decidable True)
  | .inject i => inferInstanceAs (Decidable (∀ d ∈ s.started[i]?, d.Orderly s))
  | .free _ _ => inferInstanceAs (Decidable True)
  | .serve => inferInstanceAs (Decidable True)
  | .poll _ => inferInstanceAs (Decidable True)
  | .timeout _ => inferInstanceAs (Decidable True)

/-! ## What the script finds -/

lemma foldl_or_eq_none (lid : LockId) (ps : List Frame) (g : Option Grant) :
    ps.foldl (fun latest pkt => (grantOf lid pkt).or latest) g = none
      ↔ g = none ∧ ∀ pkt ∈ ps, grantOf lid pkt = none := by
  induction ps generalizing g with
  | nil => simp
  | cons pkt ps ih =>
      rw [List.foldl_cons, ih, Option.or_eq_none_iff, List.forall_mem_cons]
      tauto

lemma mem_ordered {dir : PcapDir} {f : PcapName × List Frame} : f ∈ ordered dir ↔ f ∈ dir := by
  rw [ordered, List.mem_append, List.mem_flatMap, List.mem_filter]
  constructor
  · rintro (⟨n, -, hf⟩ | hf)
    · exact (List.mem_filter.1 hf).1
    · exact hf.1
  · intro hf
    by_cases hn : f.1 ∈ prefer
    · exact .inl ⟨f.1, hn, List.mem_filter.2 ⟨hf, by simp⟩⟩
    · exact .inr ⟨hf, by simpa using hn⟩

/-- No grant is found exactly if there is none in any file. -/
lemma findGrant_eq_none {dir : PcapDir} {lid : LockId} :
    findGrant dir lid = none ↔ ∀ f ∈ dir, ∀ pkt ∈ f.2, grantOf lid pkt = none := by
  rw [findGrant, foldl_or_eq_none]
  constructor
  · rintro ⟨-, h⟩ f hf pkt hpkt
    exact h pkt (List.mem_flatMap.2 ⟨f, mem_ordered.2 hf, hpkt⟩)
  · intro h
    refine ⟨rfl, ?_⟩
    intro pkt hpkt
    obtain ⟨f, hf, hin⟩ := List.mem_flatMap.1 hpkt
    exact h f (mem_ordered.1 hf) pkt hin

/-- Nothing comes into view with a packet that is no grant of the lock. -/
lemma findGrant_capture {dir : PcapDir} {lid : LockId} {n : PcapName} {pkt : Frame}
    (h : findGrant dir lid = none) (hpkt : grantOf lid pkt = none) :
    findGrant (capture dir n pkt) lid = none := by
  rw [findGrant_eq_none] at h ⊢
  intro f hf pkt' hpkt'
  obtain ⟨f₀, hf₀, rfl⟩ := List.mem_map.1 hf
  split at hpkt'
  · rcases List.mem_append.1 hpkt' with hold | hnew
    · exact h f₀ hf₀ pkt' hold
    · rwa [List.mem_singleton.1 hnew]
  · exact h f₀ hf₀ pkt' hpkt'

lemma findGrant_captureOut {dir : PcapDir} {lid : LockId} {x : BitVec 9 × List Byte}
    (h : findGrant dir lid = none) (hx : grantOf lid (outFrame x.2) = none) :
    findGrant (captureOut dir x) lid = none := by
  rw [captureOut]
  split
  · exact findGrant_capture h hx
  · exact h

/-- What is not a grant, or is a grant of another lock, is skipped. -/
lemma grantOf_frame_eq_none {lid : LockId} {dport : BitVec 16} {raw : List Byte} {i : Info}
    (hparse : parseLockPayload raw = some i)
    (hi : (i.type = GRANT_W_AGENT ∨ i.type = 3) → i.id ≠ lid) : grantOf lid (frame dport raw) = none := by
  simp only [grantOf, frame, hparse]
  split
  · exact if_neg fun h => hi h.1 h.2
  · rfl

lemma NoGrant.grantOf_eq_none {x : BitVec 9 × List Byte} (h : NoGrant x) (lid : LockId)
    (dport : BitVec 16) : grantOf lid (frame dport x.2) = none := by
  obtain ⟨i, hparse, h2, h3⟩ := h
  exact grantOf_frame_eq_none hparse fun ht => absurd ht (not_or.2 ⟨h2, h3⟩)

lemma GrantTo.grantOf_eq_none {x : BitVec 9 × List Byte} {lid lid' : LockId} {m : MachineId}
    (h : GrantTo lid' m x) (hne : lid' ≠ lid) (dport : BitVec 16) :
    grantOf lid (frame dport x.2) = none := by
  obtain ⟨i, hparse, -, hid, -⟩ := h.info
  exact grantOf_frame_eq_none hparse fun _ => by rwa [hid]

/-- The script never takes a packet that it sent itself for a grant. -/
lemma grantOf_payload (q : Request) (lid : LockId) (dport : BitVec 16) :
    grantOf lid (frame dport q.payload) = none := by
  refine grantOf_frame_eq_none (payload_eq q ▸ parseLockPayload_hdrBytes ..) fun ht => ?_
  cases hk : q.kind <;> simp [Request.hdr, hk, typeByte, GRANT_W_AGENT] at ht

/-! ## The invariant -/

/-- The `ACQUIRE` of command `i`, for the lock, was answered by a grant. -/
def Granted (s : State) (i : ℕ) (lid : LockId) : Prop :=
  ∃ c x, CallAt s i c ∧ c.lockId = lid ∧ s.emitted[i]? = some x ∧ GrantTo lid c.machineId x

/-- What is known of a call in its loop.  Nobody else's `ACQUIRE` for the lock is on its way; and a
grant that the call finds, once something was captured, is its own. -/
structure Pending (s : State) (i : ℕ) (c : Call) : Prop where
  alone : ∀ k c', s.served ≤ k → CallAt s k c' → c'.lockId = c.lockId → k = i
  fate : findGrant s.dir c.lockId = none ∨ Granted s i c.lockId
    ∨ (s.served = i ∧ totalPcapBytes s.dir ≤ c.before ∧ Grantable s.regs c.lockId)

structure Inv (s : State) : Prop where
  /-- Every packet that was taken has been answered by one. -/
  answered : s.emitted.length = s.served
  served_le : s.served ≤ s.commands.length
  since_le : ∀ i c, CallAt s i c → c.since ≤ i
  /-- After a grant the lock is taken, until it is freed. -/
  taken : ∀ i lid, Granted s i lid → lid.toNat < 1024
    ∧ (s.regs.lockFreeReg lid = LOCK_FREE → FreedBetween s i s.served lid)
  once : ∀ i j lid, i < j → Granted s i lid → Granted s j lid → FreedBetween s i j lid
  pending : ∀ i c, CallAt s i c → c.status = .polling → Pending s i c
  reported : ∀ i c g, CallAt s i c → c.status = .granted g → Granted s i c.lockId

lemma init_inv (regs : Bmv2.Regs) (dir : PcapDir) : Inv (State.init regs dir) := by
  have hcall : ∀ i c, ¬ CallAt (State.init regs dir) i c := fun i c h => by cases h
  have hgrant : ∀ i lid, ¬ Granted (State.init regs dir) i lid := by
    rintro i lid ⟨c, -, h, -⟩
    exact hcall i c h
  exact
    { answered := rfl
      served_le := le_rfl
      since_le := fun i c h => absurd h (hcall i c)
      taken := fun i lid h => absurd h (hgrant i lid)
      once := fun i _ lid _ h => absurd h (hgrant i lid)
      pending := fun i c h => absurd h (hcall i c)
      reported := fun i c _ h => absurd h (hcall i c) }

/-- The invariant gives the contract. -/
lemma Inv.contract {s : State} (h : Inv s) : Contract s := by
  constructor
  · intro i c g hi hg
    obtain ⟨c', x, hi', -, hx, hgrant⟩ := h.reported i c g hi hg
    obtain rfl : c' = c := by
      have := hi'.symm.trans hi
      simpa using this
    refine ⟨x, ?_, hgrant⟩
    rw [List.mem_iff_getElem?]
    refine ⟨i - c'.since, ?_⟩
    rw [List.getElem?_drop, Nat.add_sub_cancel' (h.since_le i c' hi)]
    exact hx
  · intro i j c c' g g' hij hi hj hlid hg hg'
    have hj' := h.reported j c' g' hj hg'
    rw [← hlid] at hj'
    exact h.once i j c.lockId hij (h.reported i c g hi hg) hj'

lemma CallAt.unique {s : State} {i : ℕ} {c c' : Call} (h : CallAt s i c) (h' : CallAt s i c') :
    c = c' := by
  have := h.symm.trans h'
  simpa using this

lemma GrantTo.not_noGrant {lid : LockId} {m : MachineId} {x : BitVec 9 × List Byte}
    (h : GrantTo lid m x) : ¬ NoGrant x := by
  rintro ⟨i, hi, h2, h3⟩
  obtain ⟨i', hi', ht, -⟩ := h.info
  obtain rfl : i = i' := by
    rw [hi] at hi'
    exact Option.some.inj hi'
  exact ht.elim h2 h3

/-! ### A command is given -/

/-- The next command injects its packet. -/
def State.push (s : State) (cmd : Command) : State := { s with commands := s.commands ++ [cmd] }

lemma callAt_push {s : State} {cmd : Command} {i : ℕ} {c : Call} :
    CallAt (s.push cmd) i c
      ↔ CallAt s i c ∨ (i = s.commands.length ∧ cmd = .tryAcquire c) := by
  rw [CallAt, CallAt, State.push, List.getElem?_append]
  rcases lt_trichotomy i s.commands.length with h | rfl | h
  · rw [if_pos h]
    exact ⟨.inl, fun h' => h'.elim id fun h' => absurd h'.1 h.ne⟩
  · simp
  · have hlen : ¬ i < s.commands.length := by omega
    have hpos : i - s.commands.length ≠ 0 := by omega
    simp [hlen, hpos, h.ne']

lemma FreedBetween.push {s : State} {i j : ℕ} {lid : LockId} (h : FreedBetween s i j lid)
    (cmd : Command) : FreedBetween (s.push cmd) i j lid := by
  obtain ⟨k, m, hik, hkj, hk⟩ := h
  refine ⟨k, m, hik, hkj, ?_⟩
  have hlt : k < s.commands.length := (List.getElem?_eq_some_iff.1 hk).1
  rw [State.push, List.getElem?_append_left hlt]
  exact hk

lemma Inv.lt_served {s : State} (h : Inv s) {i : ℕ} {lid : LockId} (hg : Granted s i lid) :
    i < s.served := by
  obtain ⟨c, x, -, -, hx, -⟩ := hg
  rw [← h.answered]
  exact (List.getElem?_eq_some_iff.1 hx).1

/-- A new command changes nothing about the answers given so far. -/
lemma Inv.granted_push {s : State} (h : Inv s) {cmd : Command} {i : ℕ} {lid : LockId} :
    Granted (s.push cmd) i lid ↔ Granted s i lid := by
  constructor
  · rintro ⟨c, x, hc, hlid, hx, hg⟩
    have hlt : i < s.emitted.length := (List.getElem?_eq_some_iff.1 hx).1
    have hle := h.served_le
    rw [h.answered] at hlt
    rcases callAt_push.1 hc with hc | ⟨hi, -⟩
    · exact ⟨c, x, hc, hlid, hx, hg⟩
    · omega
  · rintro ⟨c, x, hc, hlid, hx, hg⟩
    exact ⟨c, x, callAt_push.2 (.inl hc), hlid, hx, hg⟩

/-- The invariant after a command, if the calls in their loops do not ask for its lock, and the
command itself starts well. -/
lemma Inv.push {s : State} (h : Inv s) {cmd : Command}
    (hold : ∀ c', cmd = .tryAcquire c' → ∀ i c, CallAt s i c → c.status = .polling →
      c'.lockId ≠ c.lockId)
    (hnew : ∀ c, cmd = .tryAcquire c → c.status = .polling ∧ c.since ≤ s.commands.length
      ∧ Pending (s.push cmd) s.commands.length c) : Inv (s.push cmd) := by
  constructor
  · exact h.answered
  · exact h.served_le.trans (by simp [State.push])
  · intro i c hc
    rcases callAt_push.1 hc with hc | ⟨rfl, hcmd⟩
    · exact h.since_le i c hc
    · exact (hnew c hcmd).2.1
  · intro i lid hg
    obtain ⟨hr, hfreed⟩ := h.taken i lid (h.granted_push.1 hg)
    exact ⟨hr, fun hf => (hfreed hf).push cmd⟩
  · intro i j lid hij hi hj
    exact (h.once i j lid hij (h.granted_push.1 hi) (h.granted_push.1 hj)).push cmd
  · intro i c hc hs
    rcases callAt_push.1 hc with hc | ⟨rfl, hcmd⟩
    · obtain ⟨halone, hfate⟩ := h.pending i c hc hs
      refine ⟨?_, hfate.imp_right (Or.imp_left h.granted_push.2)⟩
      intro k c' hk hc' hlid
      rcases callAt_push.1 hc' with hc' | ⟨-, hc'⟩
      · exact halone k c' hk hc' hlid
      · exact absurd hlid (hold c' hc' i c hc hs)
    · exact (hnew c hcmd).2.2
  · intro i c g hc hs
    rcases callAt_push.1 hc with hc | ⟨rfl, hcmd⟩
    · exact h.granted_push.2 (h.reported i c g hc hs)
    · rw [(hnew c hcmd).1] at hs
      cases hs

/-- A process that has not asked does not matter. -/
lemma Inv.started {s : State} (h : Inv s) (l : List Started) : Inv { s with started := l } where
  answered := h.answered
  served_le := h.served_le
  since_le := h.since_le
  taken := h.taken
  once := h.once
  pending i c hc hs := ⟨(h.pending i c hc hs).alone, (h.pending i c hc hs).fate⟩
  reported := h.reported

/-- A process asks in an orderly state. -/
lemma Inv.inject {s : State} (h : Inv s) {d : Started} (hok : d.Orderly s) :
    Inv (s.push (.tryAcquire (d.call s.emitted.length))) := by
  obtain ⟨hpolls, hfind⟩ := hok
  refine h.push ?_ ?_
  · rintro c' hc' i c hi hs hlid
    cases hc'
    exact hpolls _ (List.mem_of_getElem? hi) ⟨hlid.symm, hs⟩
  · rintro c hc
    cases hc
    refine ⟨rfl, h.answered.trans_le h.served_le, ?_, ?_⟩
    · intro k c' hk hc' hlid
      change s.served ≤ k at hk
      rcases callAt_push.1 hc' with hc' | ⟨hk', -⟩
      · -- an earlier request for the lock would still be on its way
        exfalso
        rcases hfind with ⟨-, hway⟩ | ⟨hall, -, -⟩
        · refine hway (.tryAcquire c') ?_ ⟨rfl, hlid⟩
          rw [List.mem_iff_getElem?]
          refine ⟨k - s.served, ?_⟩
          rw [List.getElem?_drop, Nat.add_sub_cancel' hk]
          exact hc'
        · have hlt : k < s.commands.length := (List.getElem?_eq_some_iff.1 hc').1
          omega
      · exact hk'
    · rcases hfind with ⟨hnone, -⟩ | ⟨hall, hsize, hfree⟩
      · exact .inl hnone
      · exact .inr (.inr ⟨hall, hsize, hfree⟩)

/-! ### The switch takes a packet -/

/-- A packet of command `c` is answered by `x`. -/
structure Serves (s s' : State) (c : Command) (x : BitVec 9 × List Byte) : Prop where
  command : s.commands[s.served]? = some c
  commands : s'.commands = s.commands
  served : s'.served = s.served + 1
  emitted : s'.emitted = s.emitted ++ [x]
  dir : s'.dir = captureOut
    (capture s.dir (.incoming .vethSwitch) (frame UDP_PORT_SERVER c.request.payload)) x
  others : ∀ lid : LockId, lid.toNat < 1024 → lid ≠ c.request.lockId →
    s'.regs.lockFreeReg lid = s.regs.lockFreeReg lid
  acquired : c.request.kind = .acquire → c.request.lockId.toNat < 1024 →
    s'.regs.lockFreeReg c.request.lockId = LOCK_ACQUIRED
  answer : (c.request.kind = .acquire ∧ Grantable s.regs c.request.lockId
      ∧ GrantTo c.request.lockId c.request.machineId x)
    ∨ (¬ (c.request.kind = .acquire ∧ Grantable s.regs c.request.lockId) ∧ NoGrant x)

lemma serves_of_step {s s' : State} (h : step s .serve = some s') : ∃ c x, Serves s s' c x := by
  obtain ⟨c, hc, hrest⟩ := Option.bind_eq_some_iff.1 (show serve s = some s' from h)
  obtain ⟨r', x, hplane, hothers, hacq, hans⟩ := serve_cases s.regs c.request
  rw [hplane, Option.map_some, Option.some.injEq] at hrest
  subst hrest
  exact ⟨c, x, hc, rfl, rfl, rfl, rfl, hothers, hacq, hans⟩

section Serve

variable {s s' : State} {c : Command} {x : BitVec 9 × List Byte}

lemma Serves.callAt (hs : Serves s s' c x) {i : ℕ} {d : Call} : CallAt s' i d ↔ CallAt s i d := by
  rw [CallAt, CallAt, hs.commands]

lemma Serves.freedBetween (hs : Serves s s' c x) {i j : ℕ} {lid : LockId} :
    FreedBetween s' i j lid ↔ FreedBetween s i j lid := by
  rw [FreedBetween, FreedBetween, hs.commands]

/-- A call that is served now has its `ACQUIRE` answered now. -/
lemma Serves.call (hs : Serves s s' c x) {d : Call} (hd : CallAt s s.served d) :
    c = .tryAcquire d :=
  Option.some.inj (hs.command.symm.trans hd)

/-- The grants are those of before, and perhaps the one just given. -/
lemma Serves.granted (h : Inv s) (hs : Serves s s' c x) {i : ℕ} {lid : LockId} :
    Granted s' i lid ↔ Granted s i lid
      ∨ (i = s.served ∧ ∃ d, CallAt s i d ∧ d.lockId = lid ∧ GrantTo lid d.machineId x) := by
  have hlen := h.answered
  constructor
  · rintro ⟨d, y, hd, hlid, hy, hg⟩
    have hd' := hs.callAt.1 hd
    rw [hs.emitted, List.getElem?_append] at hy
    split at hy
    · exact .inl ⟨d, y, hd', hlid, hy, hg⟩
    · next hge =>
        rw [List.getElem?_singleton] at hy
        split at hy
        · cases hy
          exact .inr ⟨by omega, d, hd', hlid, hg⟩
        · cases hy
  · rintro (⟨d, y, hd, hlid, hy, hg⟩ | ⟨rfl, d, hd, hlid, hg⟩)
    · have hlt : i < s.emitted.length := (List.getElem?_eq_some_iff.1 hy).1
      refine ⟨d, y, hs.callAt.2 hd, hlid, ?_, hg⟩
      rw [hs.emitted, List.getElem?_append_left hlt]
      exact hy
    · refine ⟨d, x, hs.callAt.2 hd, hlid, ?_, hg⟩
      rw [hs.emitted, ← hlen]
      simp

/-- What a grant given now says about the registers before it. -/
lemma Serves.grantable (hs : Serves s s' c x) {d : Call} (hd : CallAt s s.served d)
    (hg : GrantTo d.lockId d.machineId x) : Grantable s.regs d.lockId := by
  have hc := hs.call hd
  subst hc
  rcases hs.answer with ⟨-, hfree, -⟩ | ⟨-, hno⟩
  · exact hfree
  · exact absurd hno hg.not_noGrant

/-- A grantable request is granted. -/
lemma Serves.grantTo (hs : Serves s s' c x) {d : Call} (hd : CallAt s s.served d)
    (hg : Grantable s.regs d.lockId) : GrantTo d.lockId d.machineId x := by
  have hc := hs.call hd
  subst hc
  rcases hs.answer with ⟨-, -, hx⟩ | ⟨hno, -⟩
  · exact hx
  · exact absurd ⟨rfl, hg⟩ hno

/-- If a grant of the lock comes into view, it answers a call for that lock. -/
lemma Serves.findGrant (hs : Serves s s' c x) {lid : LockId} (hnone : findGrant s.dir lid = none) :
    findGrant s'.dir lid = none
      ∨ ∃ d, CallAt s s.served d ∧ d.lockId = lid ∧ GrantTo lid d.machineId x := by
  have hin := findGrant_capture (n := .incoming .vethSwitch) hnone
    (grantOf_payload c.request lid UDP_PORT_SERVER)
  have hcmd := hs.command
  rw [hs.dir]
  rcases hs.answer with ⟨hk, -, hgrant⟩ | ⟨-, hno⟩
  · cases c with
    | tryAcquire d =>
        by_cases hlid : d.lockId = lid
        · exact .inr ⟨d, hcmd, hlid, hlid ▸ hgrant⟩
        · exact .inl (findGrant_captureOut hin (hgrant.grantOf_eq_none hlid _))
    | free m l => cases hk
  · exact .inl (findGrant_captureOut hin (hno.grantOf_eq_none lid _))

/-- The invariant after the switch took a packet. -/
lemma Inv.serve (h : Inv s) (hs : Serves s s' c x) : Inv s' := by
  have hlt : s.served < s.commands.length := (List.getElem?_eq_some_iff.1 hs.command).1
  constructor
  · rw [hs.emitted, hs.served, List.length_append, h.answered]
    rfl
  · rw [hs.served, hs.commands]
    exact hlt
  · intro i d hd
    exact h.since_le i d (hs.callAt.1 hd)
  · intro i lid hg
    rw [hs.freedBetween, hs.served]
    rcases (hs.granted h).1 hg with hg | ⟨rfl, d, hd, rfl, hg⟩
    · obtain ⟨hr, hfreed⟩ := h.taken i lid hg
      refine ⟨hr, fun hf => ?_⟩
      by_cases hlid : lid = c.request.lockId
      · -- the command served now is the `free`
        subst hlid
        cases c with
        | tryAcquire d =>
            rw [hs.acquired rfl hr] at hf
            cases hf
        | free m l => exact ⟨s.served, m, h.lt_served hg, Nat.lt_succ_self _, hs.command⟩
      · rw [hs.others lid hr hlid] at hf
        obtain ⟨k, m, hik, hk, hcmd⟩ := hfreed hf
        exact ⟨k, m, hik, hk.trans (Nat.lt_succ_self _), hcmd⟩
    · have hr := (hs.grantable hd hg).1
      refine ⟨hr, fun hf => ?_⟩
      have hc := hs.call hd
      subst hc
      have hacq := hs.acquired rfl hr
      exact absurd (hacq.symm.trans hf) (by decide)
  · intro i j lid hij hi hj
    rw [hs.freedBetween]
    rcases (hs.granted h).1 hj with hj | ⟨rfl, d, hd, rfl, hg⟩
    · rcases (hs.granted h).1 hi with hi | ⟨rfl, -⟩
      · exact h.once i j lid hij hi hj
      · exact absurd (h.lt_served hj) (Nat.lt_asymm hij)
    · rcases (hs.granted h).1 hi with hi | ⟨rfl, -⟩
      · exact (h.taken i _ hi).2 (hs.grantable hd hg).2
      · exact absurd hij (lt_irrefl _)
  · intro i d hd hpoll
    have hd' := hs.callAt.1 hd
    obtain ⟨halone, hfate⟩ := h.pending i d hd' hpoll
    refine ⟨?_, ?_⟩
    · intro k d' hk hd'' hlid
      rw [hs.served] at hk
      exact halone k d' (Nat.le_of_succ_le hk) (hs.callAt.1 hd'') hlid
    · rcases hfate with hnone | hg | ⟨rfl, -, hfree⟩
      · rcases hs.findGrant hnone with hnone' | ⟨d', hat, hlid, hg⟩
        · exact .inl hnone'
        · -- nobody else asked for the lock, so the grant is ours
          have hi := halone s.served d' le_rfl hat hlid
          exact .inr (.inl ((hs.granted h).2 (.inr ⟨hi.symm, d', hi ▸ hat, hlid, hg⟩)))
      · exact .inr (.inl ((hs.granted h).2 (.inl hg)))
      · exact .inr (.inl ((hs.granted h).2 (.inr ⟨rfl, d, hd', rfl, hs.grantTo hd' hfree⟩)))
  · intro i d g hd hg
    exact (hs.granted h).2 (.inl (h.reported i d g (hs.callAt.1 hd) hg))

end Serve

/-! ### A call looks at the files, or gives up -/

section SetStatus

variable {s : State} {i : ℕ} {d : Call} {st : Status}

/-- Call `i` has this status now. -/
def State.withStatus (s : State) (i : ℕ) (d : Call) (st : Status) : State :=
  { s with commands := s.commands.set i (.tryAcquire { d with status := st }) }

lemma setStatus_eq_some {s' : State} {f : Call → Status} (h : setStatus s i f = some s') :
    ∃ d, CallAt s i d ∧ d.status = .polling ∧ s' = s.withStatus i d (f d) := by
  rw [setStatus] at h
  split at h
  · next d hd =>
      split at h
      · next hst => exact ⟨d, hd, hst, (Option.some.inj h).symm⟩
      · cases h
  · cases h

/-- The calls are those of before, but for the status of one. -/
lemma callAt_withStatus (hd : CallAt s i d) {k : ℕ} {c : Call} :
    CallAt (s.withStatus i d st) k c
      ↔ (k ≠ i ∧ CallAt s k c) ∨ (k = i ∧ c = { d with status := st }) := by
  have hlt : i < s.commands.length := (List.getElem?_eq_some_iff.1 hd).1
  rw [CallAt, CallAt, State.withStatus, List.getElem?_set]
  by_cases hk : k = i
  · subst hk
    simp [hlt, eq_comm]
  · simp [hk, Ne.symm hk]

lemma freedBetween_withStatus (hd : CallAt s i d) {j k : ℕ} {lid : LockId}
    (h : FreedBetween s j k lid) : FreedBetween (s.withStatus i d st) j k lid := by
  obtain ⟨l, m, hj, hk, hl⟩ := h
  have hne : i ≠ l := by
    rintro rfl
    have := hd.symm.trans hl
    simp at this
  refine ⟨l, m, hj, hk, ?_⟩
  rw [State.withStatus, List.getElem?_set_ne hne]
  exact hl

/-- Every call has been there with the same machine and lock. -/
lemma exists_callAt (hd : CallAt s i d) {k : ℕ} {c : Call} (hc : CallAt (s.withStatus i d st) k c) :
    ∃ c₀, CallAt s k c₀ ∧ c = { c₀ with status := c.status } := by
  rcases (callAt_withStatus hd).1 hc with ⟨-, hc⟩ | ⟨rfl, rfl⟩
  · exact ⟨c, hc, rfl⟩
  · exact ⟨d, hd, rfl⟩

lemma granted_withStatus (hd : CallAt s i d) {k : ℕ} {lid : LockId} :
    Granted (s.withStatus i d st) k lid ↔ Granted s k lid := by
  constructor
  · rintro ⟨c, x, hc, hlid, hx, hg⟩
    obtain ⟨c₀, hc₀, hcc⟩ := exists_callAt hd hc
    rw [hcc] at hlid hg
    exact ⟨c₀, x, hc₀, hlid, hx, hg⟩
  · rintro ⟨c, x, hc, hlid, hx, hg⟩
    by_cases hk : k = i
    · subst hk
      obtain rfl := hd.unique hc
      exact ⟨_, x, (callAt_withStatus hd).2 (.inr ⟨rfl, rfl⟩), hlid, hx, hg⟩
    · exact ⟨c, x, (callAt_withStatus hd).2 (.inl ⟨hk, hc⟩), hlid, hx, hg⟩

lemma Pending.withStatus (hd : CallAt s i d) {k : ℕ} {c₀ c : Call} (h : Pending s k c₀)
    (hc : c = { c₀ with status := c.status }) : Pending (s.withStatus i d st) k c := by
  rw [hc]
  refine ⟨?_, h.fate.imp_right (Or.imp_left (granted_withStatus hd).2)⟩
  intro l c' hl hc' hlid
  obtain ⟨c₁, hc₁, hcc⟩ := exists_callAt hd hc'
  rw [hcc] at hlid
  exact h.alone l c₁ hl hc₁ hlid

/-- The invariant after a call got a new status, if granted means granted. -/
lemma Inv.withStatus (h : Inv s) (hd : CallAt s i d) (hpoll : d.status = .polling)
    (hst : ∀ g, st = .granted g → Granted s i d.lockId) : Inv (s.withStatus i d st) := by
  constructor
  · exact h.answered
  · rw [State.withStatus, List.length_set]
    exact h.served_le
  · intro k c hc
    obtain ⟨c₀, hc₀, hcc⟩ := exists_callAt hd hc
    rw [hcc]
    exact h.since_le k c₀ hc₀
  · intro k lid hg
    obtain ⟨hr, hfreed⟩ := h.taken k lid ((granted_withStatus hd).1 hg)
    exact ⟨hr, fun hf => freedBetween_withStatus hd (hfreed hf)⟩
  · intro k l lid hkl hk hl
    exact freedBetween_withStatus hd
      (h.once k l lid hkl ((granted_withStatus hd).1 hk) ((granted_withStatus hd).1 hl))
  · intro k c hc hs
    rcases (callAt_withStatus hd).1 hc with ⟨-, hc'⟩ | ⟨rfl, rfl⟩
    · exact (h.pending k c hc' hs).withStatus hd rfl
    · exact (h.pending k d hd hpoll).withStatus hd rfl
  · intro k c g hc hs
    rw [granted_withStatus hd]
    rcases (callAt_withStatus hd).1 hc with ⟨-, hc'⟩ | ⟨rfl, rfl⟩
    · exact h.reported k c g hc' hs
    · exact hst g hs

/-- A call that finds a grant has been granted the lock. -/
lemma Inv.granted_of_pollOnce (h : Inv s) (hd : CallAt s i d) (hpoll : d.status = .polling)
    {g : Grant} (hg : pollOnce s.dir d = .granted g) : Granted s i d.lockId := by
  rw [pollOnce] at hg
  split at hg
  · next hbytes =>
      split at hg
      · next g' hfind =>
          rcases (h.pending i d hd hpoll).fate with hnone | hgrant | ⟨-, hle, -⟩
          · rw [hnone] at hfind
            cases hfind
          · exact hgrant
          · omega
      · cases hg
  · cases hg

end SetStatus

/-- One step. -/
lemma Inv.step {s s' : State} {e : Event} (h : Inv s) (hok : Orderly s e)
    (hstep : step s e = some s') : Inv s' := by
  cases e with
  | tryAcquire m lid =>
      cases hstep
      exact h.started _
  | measure i =>
      cases hstep
      exact h.started _
  | inject i =>
      simp only [Sidecar.step] at hstep
      split at hstep
      · next d hd =>
          split at hstep
          · cases hstep
            exact (h.inject (hok d hd)).started _
          · cases hstep
      · cases hstep
  | free m lid =>
      cases hstep
      exact h.push nofun nofun
  | serve =>
      obtain ⟨c, x, hs⟩ := serves_of_step hstep
      exact h.serve hs
  | poll i =>
      obtain ⟨d, hd, hpoll, rfl⟩ := setStatus_eq_some hstep
      exact h.withStatus hd hpoll fun g hg => h.granted_of_pollOnce hd hpoll hg
  | timeout i =>
      obtain ⟨d, hd, hpoll, rfl⟩ := setStatus_eq_some hstep
      exact h.withStatus hd hpoll nofun

/-! ## The main theorem -/

/-- **`try_acquire` keeps its contract in orderly runs**, whatever the registers and the capture
files were at the beginning. -/
theorem try_acquire_contract (regs : Bmv2.Regs) (dir : PcapDir) {s : State}
    (h : Reach step Orderly (State.init regs dir) s) : Contract s :=
  (Reach.invariant (init_inv regs dir) (fun _ _ _ hI hok hstep => hI.step hok hstep) h).contract

/-- `serve` without the detour over single bits, to compute with. -/
def serveHdr (s : State) : Option State :=
  s.commands[s.served]?.map fun c =>
    let out := Bmv2.fissIngress s.regs c.request.hdr
    let sent := (Bmv2.emit out.2).map fun e =>
      (e.1, hdrBytes (typeByte e.2.type) e.2.modeOldMode e.2.id e.2.machineId
        (taskWord c.request.machineId) e.2.agent 0 e.2.ncnt)
    let dir := capture s.dir (.incoming .vethSwitch) (frame UDP_PORT_SERVER c.request.payload)
    { s with
      regs := out.1
      dir := sent.foldl captureOut dir
      served := s.served + 1
      emitted := s.emitted ++ sent }

def stepHdr (s : State) : Event → Option State
  | .serve => serveHdr s
  | e => step s e

lemma serve_eq_serveHdr (s : State) : serve s = serveHdr s := by
  rw [serve, serveHdr]
  cases s.commands[s.served]? with
  | none => rfl
  | some c =>
      rw [Option.bind_some, planeBytes_payload]
      rfl

lemma step_eq_stepHdr : step = stepHdr := by
  funext s e
  cases e with
  | serve => exact serve_eq_serveHdr s
  | _ => rfl

/-- The files that the switch creates at start. -/
def emptyDir : PcapDir :=
  [(.incoming .vethH1, []), (.outgoing .vethH1, []), (.incoming .vethH2, []), (.outgoing .vethH2, []),
    (.incoming .vethSwitch, []), (.outgoing .vethSwitch, [])]

/-- A call for lock 1 that was granted. -/
def grantedCall (m : MachineId) (before since : ℕ) : Call where
  machineId := m
  lockId := 1
  before := before
  since := since
  status := .granted { type := GRANT_W_AGENT, lockId := 1, dport := UDP_PORT_CLIENT }

/-- Machine 1 takes the lock and frees it, and machine 2 takes it. -/
theorem try_acquire_contract_two_machines :
    ∃ s, Contract s ∧ s.commands
      = [.tryAcquire (grantedCall 1 72 0), .free 1 1, .tryAcquire (grantedCall 2 222 2)] := by
  have hrun : ∃ s, Reach stepHdr Orderly (State.init Bmv2.Regs.init emptyDir) s ∧ s.commands
      = [.tryAcquire (grantedCall 1 72 0), .free 1 1, .tryAcquire (grantedCall 2 222 2)] :=
    Reach.exists_of_runFrom
      [.tryAcquire 1 1, .measure 0, .measure 0, .measure 0, .inject 0, .serve, .poll 0, .free 1 1,
        .serve, .tryAcquire 2 1, .measure 0, .measure 0, .measure 0, .inject 0, .serve, .poll 2]
      (by decide +kernel)
  rw [← step_eq_stepHdr] at hrun
  obtain ⟨s, hs, hcmd⟩ := hrun
  exact ⟨s, try_acquire_contract _ _ hs, hcmd⟩

/-- **Two machines hold one lock.**  Machine 2 asks while machine 1 holds the lock.  The switch
passes the request on, which makes a file grow, and the script finds the grant to machine 1. -/
theorem try_acquire_contract_fails :
    ¬ ∀ (regs : Bmv2.Regs) (dir : PcapDir) (s : State),
      Reach step (fun _ _ => True) (State.init regs dir) s → Contract s := by
  intro hall
  have hrun : ∃ s, Reach stepHdr (fun _ _ => True) (State.init Bmv2.Regs.init emptyDir) s
      ∧ s.commands = [.tryAcquire (grantedCall 1 72 0), .tryAcquire (grantedCall 2 147 1)] :=
    Reach.exists_of_runFrom
      [.tryAcquire 1 1, .measure 0, .measure 0, .measure 0, .inject 0, .serve, .poll 0,
        .tryAcquire 2 1, .measure 0, .measure 0, .measure 0, .inject 0, .serve, .poll 1]
      (by decide +kernel)
  rw [← step_eq_stepHdr] at hrun
  obtain ⟨s, hs, hcmd⟩ := hrun
  have h₀ : CallAt s 0 (grantedCall 1 72 0) := by
    rw [CallAt, hcmd]
    rfl
  have h₁ : CallAt s 1 (grantedCall 2 147 1) := by
    rw [CallAt, hcmd]
    rfl
  obtain ⟨k, m, h0k, hk1, -⟩ := (hall _ _ s hs).exclusive 0 1 _ _ _ _ Nat.zero_lt_one h₀ h₁ rfl rfl rfl
  omega

end Sidecar
end FissLock
