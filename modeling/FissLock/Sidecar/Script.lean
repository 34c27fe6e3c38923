import FissLock.Switch.Delivery
import FissLock.Wire.Bytes

/-!
# The Python sidecar's lock commands

`java/fisslock-java/scripts/bmv2_try_acquire.py`.  The script builds a lock packet of its own,
injects it into port 0 of the BMv2 plane and then looks for a grant in the capture files of the
switch.

* `buildLockPacket`, `parseLockPayload` — the two `struct` formats.  They are 17 bytes like the
  header of the plane, but give `machine_id` four bytes: the plane takes the first of them for
  `machine_id` and the other three for the front of `task_id`.
* `totalPcapBytes`, `findGrant` — what is read from the capture files.
* `planeBytes` — the plane from bytes to bytes; `serve_cases` says what it answers to the script's
  packets.
-/

namespace FissLock
namespace Sidecar

open BitStream

/-- `machine_id` of the script, as `struct` packs it: an argument outside the range makes
`struct.pack` raise, and nothing is sent. -/
abbrev MachineId := BitVec 32

def UDP_PORT_SERVER : BitVec 16 := 20001
def UDP_PORT_CLIENT : BitVec 16 := 20002
def ACQUIRE : Byte := 0x01
def GRANT_W_AGENT : Byte := 0x02
def FREE : Byte := 0x06
def EXCL : Byte := 1

/-! ## The packets of the script -/

/-- `mode_old_mode`. -/
def modeOldMode (mode oldMode : Byte) : Byte := ((oldMode &&& 1) <<< 1) ||| (mode &&& 1)

/-- A 32-bit field of a format that starts with `!`. -/
def be32 (x : BitVec 32) : List Byte := le32 (htonl x)

/-- `build_lock_packet`: the payload, in the format `!BBIIBIBB`. -/
def buildLockPacket (typ mode : Byte) (lockId : LockId) (machineId : MachineId) (ncnt : Byte) :
    List Byte :=
  [typ, modeOldMode mode 0] ++ be32 lockId ++ be32 machineId ++ [0] ++ be32 0 ++ [0] ++ [ncnt]

/-- The dictionary that `parse_lock_payload` returns. -/
structure Info where
  type : Byte
  granted : Byte
  id : LockId
  machineId : MachineId
  agent : BitVec 32
  ncnt : Byte
  deriving DecidableEq, Repr

/-- `parse_lock_payload`: the format `!IIBIBB` behind the first two bytes. -/
def parseLockPayload : List Byte → Option Info
  | t :: m :: l₀ :: l₁ :: l₂ :: l₃ :: h₀ :: h₁ :: h₂ :: h₃ :: _ :: a₀ :: a₁ :: a₂ :: a₃ :: _ :: n
      :: _ =>
      some
        { type := t
          granted := (m >>> 6) &&& 1
          id := l₀ ++ l₁ ++ l₂ ++ l₃
          machineId := h₀ ++ h₁ ++ h₂ ++ h₃
          agent := a₀ ++ a₁ ++ a₂ ++ a₃
          ncnt := n }
  | _ => none

/-! ## The capture files -/

/-- One packet of a capture file: the length of the frame, and destination port and payload if it
has the layers `UDP` and `Raw`. -/
structure Frame where
  length : ℕ
  udp : Option (BitVec 16 × List Byte)
  deriving DecidableEq, Repr

/-- The interfaces of `start_switch.sh`, bound to the ports 0, 1 and 2. -/
inductive Iface where
  | vethSwitch
  | vethH1
  | vethH2
  deriving DecidableEq, Repr

/-- The capture files: one for each interface and direction, and whatever else there is. -/
inductive PcapName where
  | outgoing (i : Iface)
  | incoming (i : Iface)
  | stray (name : String)
  deriving DecidableEq, Repr

/-- The files `*.pcap` of the directory, in the order of `sorted`. -/
abbrev PcapDir := List (PcapName × List Frame)

/-- `PCAP_OUT`. -/
def PCAP_OUT : List PcapName := [.outgoing .vethSwitch, .outgoing .vethH1, .outgoing .vethH2]

/-- `st_size`: the header of the file, and one header for each packet. -/
def stSize (frames : List Frame) : ℕ := 24 + (frames.map fun f => 16 + f.length).sum

/-- `total_pcap_bytes`. -/
def totalPcapBytes (dir : PcapDir) : ℕ :=
  ((dir.filter fun f => f.1 ∈ PCAP_OUT).map fun f => stSize f.2).sum

/-- What `find_grant` returns. -/
structure Grant where
  type : Byte
  lockId : LockId
  dport : BitVec 16
  deriving DecidableEq, Repr

/-- The body of the inner loop of `find_grant`. -/
def grantOf (lockId : LockId) (pkt : Frame) : Option Grant :=
  match pkt.udp with
  | none => none
  | some (dport, raw) =>
      if dport = UDP_PORT_SERVER ∨ dport = UDP_PORT_CLIENT then
        match parseLockPayload raw with
        | none => none
        | some info =>
            if (info.type = GRANT_W_AGENT ∨ info.type = 3) ∧ info.id = lockId then
              some { type := info.type, lockId := lockId, dport := dport }
            else none
      else none

/-- `prefer`. -/
def prefer : List PcapName := PCAP_OUT ++ [.incoming .vethSwitch]

/-- `ordered`: the preferred files that exist, then the others. -/
def ordered (dir : PcapDir) : PcapDir :=
  prefer.flatMap (fun n => dir.filter fun f => f.1 = n) ++ dir.filter fun f => f.1 ∉ prefer

/-- `find_grant`: the last match in the order of the files. -/
def findGrant (dir : PcapDir) (lockId : LockId) : Option Grant :=
  ((ordered dir).flatMap Prod.snd).foldl (fun latest pkt => (grantOf lockId pkt).or latest) none

/-! ## The plane, from bytes to bytes -/

/-- The first byte of a header. -/
def typeByte : PostType → Byte
  | .acquire => 0x01
  | .grantWithAgent => 0x02
  | .grantWoAgent => 0x03
  | .release => 0x04
  | .transfer => 0x05
  | .free => 0x06
  | .other b => b

end Sidecar

/-- The packet that the plane is modelled on. -/
def Bmv2Hdr.toHdr (h : Bmv2Hdr) (payload : List Bool) : Bmv2.Hdr where
  type := .ofByte h.type
  modeOldMode := h.modeOldMode
  id := h.id
  machineId := h.machineId
  taskId := htonl h.taskId
  agent := h.agent
  wq := readWqes (BitStream.toBytes payload)
  ncnt := h.ncnt

/-- The header with what the plane wrote into it. -/
def Bmv2Hdr.update (h : Bmv2Hdr) (p : Bmv2.Hdr) : Bmv2Hdr :=
  h.rewrite (Sidecar.typeByte p.type) p.modeOldMode p.id p.machineId p.agent p.ncnt

namespace Sidecar

open BitStream

/-- A lock packet through the plane: the registers afterwards, and the payloads that leave, each
with its port. -/
def planeBytes (r : Bmv2.Regs) (raw : List Byte) :
    Option (Bmv2.Regs × List (BitVec 9 × List Byte)) :=
  (Bmv2Hdr.extract (stream raw)).map fun h =>
    let out := Bmv2.fissIngress r (h.1.toHdr h.2)
    (out.1, (Bmv2.emit out.2).map fun e => (e.1, toBytes ((h.1.update e.2).emit ++ h.2)))

/-! ## The plane and the script's packets -/

/-- What a command sends. -/
inductive Kind where
  | acquire
  | free
  deriving DecidableEq, Repr

structure Request where
  kind : Kind
  lockId : LockId
  machineId : MachineId
  deriving DecidableEq, Repr

/-- `build_lock_packet(ACQUIRE, LOCK_EXCL, ..)` and `build_lock_packet(FREE, LOCK_EXCL, ..)`. -/
def Request.payload (q : Request) : List Byte :=
  match q.kind with
  | .acquire => buildLockPacket ACQUIRE EXCL q.lockId q.machineId 0
  | .free => buildLockPacket FREE EXCL q.lockId q.machineId 0

/-- The first byte of the machine id, all that the plane takes for one. -/
def hostByte (m : MachineId) : HostId := m.extractLsb' 24 8

/-- The other three bytes and the zero behind them, which the plane takes for the task id. -/
def taskWord (m : MachineId) : BitVec 32 :=
  m.extractLsb' 16 8 ++ m.extractLsb' 8 8 ++ m.extractLsb' 0 8 ++ 0#8

/-- The packet as the plane sees it. -/
def Request.hdr (q : Request) : Bmv2.Hdr where
  type := match q.kind with
    | .acquire => .acquire
    | .free => .free
  modeOldMode := 1
  id := q.lockId
  machineId := hostByte q.machineId
  taskId := htonl (taskWord q.machineId)
  agent := 0
  wq := []
  ncnt := 0

lemma be32_eq (x : BitVec 32) : be32 x
    = [x.extractLsb' 24 8, x.extractLsb' 16 8, x.extractLsb' 8 8, x.extractLsb' 0 8] :=
  le32_htonl x

lemma be32_taskWord (m : MachineId) :
    be32 (taskWord m) = [m.extractLsb' 16 8, m.extractLsb' 8 8, m.extractLsb' 0 8, 0] := by
  have h := le32_append (m.extractLsb' 16 8) (m.extractLsb' 8 8) (m.extractLsb' 0 8) 0#8
  simp only [le32, List.cons.injEq, and_true] at h
  rw [be32_eq, taskWord, h.1, h.2.1, h.2.2.1, h.2.2.2]
  rfl

/-- The script's format against the header of the plane. -/
lemma payload_eq (q : Request) : q.payload
    = hdrBytes (typeByte q.hdr.type) 1 q.lockId (hostByte q.machineId) (taskWord q.machineId) 0 0
        0 := by
  have htask := be32_taskWord q.machineId
  rw [be32] at htask
  obtain ⟨kind, lid, mid⟩ := q
  cases kind <;>
  · simp only [Request.payload, buildLockPacket, hdrBytes, Request.hdr, htask, be32_eq mid, hostByte]
    rfl

/-- What the script reads from 17 bytes that the plane emitted. -/
lemma parseLockPayload_hdrBytes (t m : Byte) (lid : LockId) (mid : MachineId) (agent n : Byte) :
    parseLockPayload (hdrBytes t m lid (hostByte mid) (taskWord mid) agent 0 n)
      = some
        { type := t, granted := (m >>> 6) &&& 1, id := lid, machineId := mid
          agent := agent ++ 0#8 ++ 0#8 ++ 0#8, ncnt := n } := by
  have htask := be32_taskWord mid
  rw [be32] at htask
  rw [hdrBytes, htask, le32_htonl lid, show le32 (htonl 0) = [0, 0, 0, 0] from rfl]
  simp only [List.cons_append, List.nil_append, parseLockPayload, append_bytes, hostByte]
  rfl

/-- The plane on a packet of the script. -/
lemma planeBytes_payload (r : Bmv2.Regs) (q : Request) :
    planeBytes r q.payload = some ((Bmv2.fissIngress r q.hdr).1,
      (Bmv2.emit (Bmv2.fissIngress r q.hdr).2).map fun e =>
        (e.1, hdrBytes (typeByte e.2.type) e.2.modeOldMode e.2.id e.2.machineId
          (taskWord q.machineId) e.2.agent 0 e.2.ncnt)) := by
  have hhdr : Bmv2Hdr.toHdr ⟨typeByte q.hdr.type, 1, q.lockId, hostByte q.machineId,
      taskWord q.machineId, 0, 0, 0⟩ [] = q.hdr := by
    obtain ⟨kind, lid, mid⟩ := q
    cases kind <;> rfl
  have hextract := Bmv2Hdr.extract_emit ⟨typeByte q.hdr.type, 1, q.lockId, hostByte q.machineId,
    taskWord q.machineId, 0, 0, 0⟩ []
  rw [Bmv2Hdr.emit_eq, List.append_nil] at hextract
  rw [planeBytes, payload_eq, hextract, Option.map_some]
  simp only [hhdr, List.append_nil, Bmv2Hdr.emit_eq, toBytes_stream]
  rfl

/-- `x`, a packet on its way out, is a grant of the lock to this machine: type, lock and machine as
the script reads them, and the port that the plane derives from the machine id. -/
structure GrantTo (lid : LockId) (mid : MachineId) (x : BitVec 9 × List Byte) : Prop where
  info : ∃ i, parseLockPayload x.2 = some i ∧ (i.type = GRANT_W_AGENT ∨ i.type = 3) ∧ i.id = lid
    ∧ i.machineId = mid
  port : x.1 = Bmv2.portOf (hostByte mid)

/-- `x` is no grant, of any lock. -/
def NoGrant (x : BitVec 9 × List Byte) : Prop :=
  ∃ i, parseLockPayload x.2 = some i ∧ i.type ≠ GRANT_W_AGENT ∧ i.type ≠ 3

/-- The plane would grant the request: it is for a lock in range that is free. -/
def Grantable (r : Bmv2.Regs) (lid : LockId) : Prop :=
  lid.toNat < 1024 ∧ r.lockFreeReg lid = LOCK_FREE

instance (r : Bmv2.Regs) (lid : LockId) : Decidable (Grantable r lid) :=
  inferInstanceAs (Decidable (_ ∧ _))

/-- What leaves is what `process` says, for any entries if the id is out of range. -/
lemma emit_fissIngress (r : Bmv2.Regs) (p : Bmv2.Hdr) :
    Bmv2.emit (Bmv2.fissIngress r p).2 = (Bmv2.process (r.cell (p.id &&& Bmv2.SLICE_MASK)) p).2 := by
  rw [Bmv2.fissIngress, Bmv2.process]
  split <;> rfl

/-- On its way through the ingress a `FREE` stays one. -/
structure StaysFree (p : Bmv2.Hdr) (x : Bmv2.Ctx) : Prop where
  type : x.hdr.type = .free
  id : x.hdr.id = p.id
  machineId : x.hdr.machineId = p.machineId
  unicast : x.md.multicasted = false

lemma StaysFree.of_eq {p : Bmv2.Hdr} {x y : Bmv2.Ctx} (h : StaysFree p x) (hh : y.hdr = x.hdr)
    (hm : y.md.multicasted = x.md.multicasted) : StaysFree p y :=
  ⟨hh ▸ h.type, hh ▸ h.id, hh ▸ h.machineId, hm.trans h.unicast⟩

lemma StaysFree.counter {p : Bmv2.Hdr} {x : Bmv2.Ctx} (h : StaysFree p x) :
    StaysFree p (Bmv2.counterClearTable (Bmv2.counterTable x)) := by
  refine h.of_eq (by rw [Bmv2.counterClearTable_hdr, Bmv2.counterTable_hdr]) ?_
  rw [Bmv2.counterClearTable, Bmv2.counterTable]
  split <;> split <;> rfl

lemma StaysFree.rwTable {p : Bmv2.Hdr} {x : Bmv2.Ctx} (h : StaysFree p x) :
    StaysFree p (Bmv2.rwTable x) := by
  refine h.of_eq (Bmv2.rwTable_hdr x) ?_
  rw [Bmv2.rwTable]
  split <;> rfl

lemma StaysFree.lockOpTable {p : Bmv2.Hdr} {x : Bmv2.Ctx} (h : StaysFree p x) :
    StaysFree p (Bmv2.lockOpTable x) := by
  have hop : Bmv2.lockOpTable x = Bmv2.opResetAgent x ∨ Bmv2.lockOpTable x = x := by
    rw [Bmv2.lockOpTable, h.type]
    split <;> simp_all
  rcases hop with hop | hop
  · rw [hop]
    exact ⟨h.type, h.id, h.machineId, h.unicast⟩
  · rwa [hop]

lemma StaysFree.lockStages {p : Bmv2.Hdr} {x : Bmv2.Ctx} (h : StaysFree p x) :
    StaysFree p (Bmv2.lockStages x) := by
  have hfree : StaysFree p (if x.hdr.type ≠ .free then Bmv2.doAcquire x else Bmv2.doRelease x) := by
    rw [if_neg (not_not_intro h.type)]
    exact h.of_eq rfl rfl
  have hrw := hfree.rwTable
  exact StaysFree.lockOpTable ⟨hrw.type, hrw.id, hrw.machineId, hrw.unicast⟩

lemma StaysFree.emit {p : Bmv2.Hdr} {x : Bmv2.Ctx} (h : StaysFree p x) :
    ∃ port q, Bmv2.emit x = [(port, q)] ∧ q.type = .free ∧ q.id = p.id
      ∧ q.machineId = p.machineId := by
  rw [Bmv2.emit, if_neg (by simp [h.unicast])]
  refine ⟨_, _, rfl, ?_⟩
  rw [Bmv2.fissEgress, if_neg (by simp [h.unicast])]
  exact ⟨h.type, h.id, h.machineId⟩

/-- A `FREE` leaves as a `FREE`, once. -/
lemma process_free_type (c : Cell) {p : Bmv2.Hdr} (ht : p.type = .free) :
    ∃ port q, (Bmv2.process c p).2 = [(port, q)] ∧ q.type = .free ∧ q.id = p.id
      ∧ q.machineId = p.machineId := by
  have hinit : StaysFree p (Bmv2.initPacket c p) := ⟨ht, rfl, rfl, rfl⟩
  have hin : StaysFree p (Bmv2.ingressCell c p) := by
    have hcnt := hinit.counter
    rw [Bmv2.ingressCell]
    split
    · exact hcnt
    · rw [if_neg (by rw [hcnt.type]; rintro ⟨⟩)]
      exact hcnt.lockStages
  rw [Bmv2.process]
  split
  · exact hinit.emit
  · exact hin.emit

/-- An exclusive `ACQUIRE` that cannot be granted leaves as it came, once. -/
lemma process_acquire_type {r : Bmv2.Regs} {p : Bmv2.Hdr} (ht : p.type = .acquire)
    (hmode : p.parse.mode = LOCK_EXCL) (hg : ¬ Grantable r p.id) :
    ∃ port q, (Bmv2.process (r.cell (p.id &&& Bmv2.SLICE_MASK)) p).2 = [(port, q)]
      ∧ q.type = .acquire ∧ q.id = p.id ∧ q.machineId = p.machineId := by
  by_cases hr : p.id.toNat < 1024
  · have hf : (r.cell (p.id &&& Bmv2.SLICE_MASK)).free = LOCK_ACQUIRED := by
      rw [Bmv2.and_mask_of_lt hr, ← Bool.not_eq_false]
      exact fun h => hg ⟨hr, h⟩
    rw [Bmv2.process_acquire_fwd hr ht hf (.inl hmode)]
    exact ⟨_, _, rfl, ht, rfl, rfl⟩
  · rw [Bmv2.process_outOfRange hr]
    exact ⟨_, _, rfl, ht, rfl, rfl⟩

/-- The free register of another lock. -/
lemma lockFreeReg_of_ne (r : Bmv2.Regs) {p : Bmv2.Hdr} {lid : LockId} (hr : lid.toNat < 1024)
    (h : p.id ≠ lid) : (Bmv2.fissIngress r p).1.lockFreeReg lid = r.lockFreeReg lid := by
  have hcell := Bmv2.fissIngress_cell r p hr
  rw [if_neg h] at hcell
  exact congrArg Cell.free hcell

/-- The free register of the lock of an `ACQUIRE`. -/
lemma lockFreeReg_acquire (r : Bmv2.Regs) {p : Bmv2.Hdr} (hr : p.id.toNat < 1024)
    (ht : p.type = .acquire) (hmode : p.parse.mode = LOCK_EXCL) :
    (Bmv2.fissIngress r p).1.lockFreeReg p.id = LOCK_ACQUIRED := by
  have hcell := Bmv2.fissIngress_cell r p hr
  rw [if_pos rfl] at hcell
  have hproc : (Bmv2.process (r.cell p.id) p).1.free = LOCK_ACQUIRED := by
    cases hf : (r.cell p.id).free with
    | false => rw [Bmv2.process_acquire_free hr ht hf]
    | true =>
        rw [Bmv2.process_acquire_fwd hr ht hf (.inl hmode)]
        exact hf
  rw [Bmv2.process_inRange hr] at hproc
  exact (congrArg Cell.free hcell).trans hproc

/-- **The plane and the script.**  Every command is answered by one packet.  It is a grant exactly
if the command is an acquire for a free lock in range; then it is a grant to the machine of the
command. -/
lemma serve_cases (r : Bmv2.Regs) (q : Request) :
    ∃ r' x, planeBytes r q.payload = some (r', [x])
      ∧ (∀ lid : LockId, lid.toNat < 1024 → lid ≠ q.lockId → r'.lockFreeReg lid = r.lockFreeReg lid)
      ∧ (q.kind = .acquire → q.lockId.toNat < 1024 → r'.lockFreeReg q.lockId = LOCK_ACQUIRED)
      ∧ ((q.kind = .acquire ∧ Grantable r q.lockId ∧ GrantTo q.lockId q.machineId x)
        ∨ (¬ (q.kind = .acquire ∧ Grantable r q.lockId) ∧ NoGrant x)) := by
  have hid : q.hdr.id = q.lockId := rfl
  have hmid : q.hdr.machineId = hostByte q.machineId := rfl
  have hmode : q.hdr.parse.mode = LOCK_EXCL := by
    simp [Bmv2.Hdr.parse, Request.hdr]
  have hfree : ∀ lid : LockId, lid.toNat < 1024 → lid ≠ q.lockId →
      (Bmv2.fissIngress r q.hdr).1.lockFreeReg lid = r.lockFreeReg lid := fun lid hr h =>
    lockFreeReg_of_ne r hr (Ne.symm h)
  have hacq : q.kind = .acquire → q.lockId.toNat < 1024 →
      (Bmv2.fissIngress r q.hdr).1.lockFreeReg q.lockId = LOCK_ACQUIRED := fun hk hr =>
    lockFreeReg_acquire r hr (by rw [Request.hdr, hk]) hmode
  -- a packet of the script that leaves with type, lock and machine id unchanged is no grant
  have hpass : ∀ (p : Bmv2.Hdr), p.type = q.hdr.type → p.id = q.hdr.id →
      p.machineId = q.hdr.machineId → ∀ port : BitVec 9,
      NoGrant (port, hdrBytes (typeByte p.type) p.modeOldMode p.id p.machineId
        (taskWord q.machineId) p.agent 0 p.ncnt) := by
    intro p htype hpid hpmid port
    rw [htype, hpid, hpmid, hmid]
    refine ⟨_, parseLockPayload_hdrBytes .., ?_⟩
    cases hk : q.kind <;> simp [Request.hdr, hk, typeByte, GRANT_W_AGENT]
  rw [planeBytes_payload, emit_fissIngress]
  cases hk : q.kind with
  | free =>
      have htype : q.hdr.type = .free := by rw [Request.hdr, hk]
      obtain ⟨port, p, hproc, ht, hpid, hpmid⟩ := process_free_type
        (r.cell (q.hdr.id &&& Bmv2.SLICE_MASK)) htype
      rw [hproc]
      have hno : ¬ (Kind.free = .acquire ∧ Grantable r q.lockId) := by simp
      refine ⟨_, _, rfl, hfree, ?_, .inr ⟨hno, hpass p (ht.trans htype.symm) hpid hpmid port⟩⟩
      rintro ⟨⟩
  | acquire =>
      have htype : q.hdr.type = .acquire := by rw [Request.hdr, hk]
      by_cases hg : Grantable r q.lockId
      · have hcell : (r.cell (q.hdr.id &&& Bmv2.SLICE_MASK)).free = LOCK_FREE := by
          rw [hid, Bmv2.and_mask_of_lt hg.1]
          exact hg.2
        rw [Bmv2.process_acquire_free hg.1 htype hcell]
        refine ⟨_, _, rfl, hfree, fun _ => hacq hk, .inl ⟨rfl, hg, ⟨⟨_,
          parseLockPayload_hdrBytes .., .inl rfl, rfl, rfl⟩, rfl⟩⟩⟩
      · obtain ⟨port, p, hproc, ht, hpid, hpmid⟩ := process_acquire_type htype hmode hg
        rw [hproc]
        exact ⟨_, _, rfl, hfree, fun _ => hacq hk, .inr ⟨fun h => hg h.2,
          hpass p (ht.trans htype.symm) hpid hpmid port⟩⟩

end Sidecar
end FissLock
