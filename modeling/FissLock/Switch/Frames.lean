import FissLock.Host.Capture
import FissLock.Library.PacketFormat
import FissLock.Sidecar.Script
import FissLock.Switch.Isolation

/-!
# Frames through the BMv2 switch

The whole of `fisslock_bmv2.p4`, from frames to frames: the parser, the controls, and the deparser,
which computes no checksum.

* `fissParser`, `fissDeparser` and `v1Switch`;
* `LockHdr.bytes`, `LockHdr.read` — a lock packet as the host lays it out and reads it;
* `LockFrame d p f` — `f` is a frame that carries the lock packet `p` to the UDP port `d`.

A host builds such frames (`LockFrame.of_build`), the switch turns them into such frames
(`LockFrame.v1Switch`), and a host that receives one reads the packet from it
(`LockFrame.readLock`).
So the switch and the host, which see only bytes, do what the plane is modelled to do with packets
(`frames_refine_plane`), whatever else is on the wire.
-/

namespace FissLock

open BitStream

namespace Bmv2

/-! ## The headers -/

/-- `ethernet_t`. -/
structure EthernetT where
  dstAddr : BitVec 48
  srcAddr : BitVec 48
  etherType : BitVec 16
  deriving DecidableEq, Repr

/-- `ipv4_t`. -/
structure Ipv4T where
  version : BitVec 4
  ihl : BitVec 4
  diffserv : BitVec 8
  totalLen : BitVec 16
  identification : BitVec 16
  flags : BitVec 3
  fragOffset : BitVec 13
  ttl : BitVec 8
  protocol : BitVec 8
  hdrChecksum : BitVec 16
  srcAddr : BitVec 32
  dstAddr : BitVec 32
  deriving DecidableEq, Repr

/-- `udp_t`. -/
structure UdpT where
  srcPort : BitVec 16
  dstPort : BitVec 16
  length : BitVec 16
  checksum : BitVec 16
  deriving DecidableEq, Repr

open Format

/-- `ethernet_t` on the wire. -/
def ethernetT : Format EthernetT :=
  ((word 48).seq ((word 48).seq (word 16))).iso
    { toFun := fun ⟨d, s, t⟩ => ⟨d, s, t⟩
      invFun := fun h => ⟨h.dstAddr, h.srcAddr, h.etherType⟩
      left_inv := fun _ => rfl
      right_inv := fun _ => rfl }

/-- `ipv4_t` on the wire. -/
def ipv4T : Format Ipv4T :=
  ((word 4).seq ((word 4).seq ((word 8).seq ((word 16).seq ((word 16).seq ((word 3).seq
    ((word 13).seq ((word 8).seq ((word 8).seq ((word 16).seq ((word 32).seq
      (word 32)))))))))))).iso
    { toFun := fun ⟨v, i, d, n, k, fl, o, t, p, c, s, a⟩ => ⟨v, i, d, n, k, fl, o, t, p, c, s, a⟩
      invFun := fun h => ⟨h.version, h.ihl, h.diffserv, h.totalLen, h.identification, h.flags,
        h.fragOffset, h.ttl, h.protocol, h.hdrChecksum, h.srcAddr, h.dstAddr⟩
      left_inv := fun _ => rfl
      right_inv := fun _ => rfl }

/-- `udp_t` on the wire. -/
def udpT : Format UdpT :=
  ((word 16).seq ((word 16).seq ((word 16).seq (word 16)))).iso
    { toFun := fun ⟨s, d, n, c⟩ => ⟨s, d, n, c⟩
      invFun := fun h => ⟨h.srcPort, h.dstPort, h.length, h.checksum⟩
      left_inv := fun _ => rfl
      right_inv := fun _ => rfl }

/-- `lock_hdr_t` on the wire. -/
def lockHdrT : Format Bmv2Hdr where
  extract := Bmv2Hdr.extract
  emit := Bmv2Hdr.emit
  extract_emit := Bmv2Hdr.extract_emit
  emit_extract s h s' hs := by
    simp only [Bmv2Hdr.extract, Option.bind_eq_bind, Option.bind_eq_some_iff, Prod.exists,
      Option.pure_def, Option.some.injEq, Prod.mk.injEq] at hs
    obtain ⟨_, _, h₁, _, _, h₂, _, _, h₃, _, _, h₄, _, _, h₅, _, _, h₆, _, _, h₇, _, _, h₈, rfl,
      rfl⟩ := hs
    simp only [Bmv2Hdr.emit, List.append_assoc, bits_of_field h₈, bits_of_field h₇,
      bits_of_field h₆, bits_of_field h₅, bits_of_field h₄, bits_of_field h₃, bits_of_field h₂,
      bits_of_field h₁]

/-- The struct `headers`; a header that is not there is not valid. -/
structure Headers where
  ethernet : Option EthernetT
  ipv4 : Option Ipv4T
  udp : Option UdpT
  lock : Option Bmv2Hdr
  deriving DecidableEq, Repr

def TYPE_IPV4 : BitVec 16 := 0x0800

def TYPE_UDP : BitVec 8 := 17

/-! ## The pipeline -/

/-- `FissParser`: the headers, and the rest of the frame.  A frame that ends within a header is
rejected by the parser; such a frame is not dropped, but goes on without that header. -/
def fissParser (s : List Bool) : Headers × List Bool :=
  let eth := ethernetT.opt true s
  let ip := ipv4T.opt (eth.1.any (·.etherType = TYPE_IPV4)) eth.2
  let udp := udpT.opt (ip.1.any (·.protocol = TYPE_UDP)) ip.2
  let lock := lockHdrT.opt
    (udp.1.any fun u =>
      u.dstPort = Tofino.UDP_PORT_SERVER ∨ u.dstPort = Tofino.UDP_PORT_CLIENT) udp.2
  (⟨eth.1, ip.1, udp.1, lock.1⟩, lock.2)

/-- `FissDeparser`. -/
def fissDeparser (h : Headers) : List Bool :=
  ethernetT.emitOpt h.ethernet ++ ipv4T.emitOpt h.ipv4 ++ udpT.emitOpt h.udp
    ++ lockHdrT.emitOpt h.lock

/-- `V1Switch`: a frame, and the frames that leave, each with its port.  The controls leave a frame
without lock header alone; its `egress_spec` is zero. -/
def v1Switch (r : Regs) (frame : List Byte) : Regs × List (BitVec 9 × List Byte) :=
  let x := fissParser (stream frame)
  match x.1.udp, x.1.lock with
  | some u, some l =>
      let o := switchStep r (u.dstPort, l.toHdr x.2)
      (o.1, o.2.map fun e =>
        (e.1, toBytes (fissDeparser { x.1 with
          udp := some { u with dstPort := e.2.1 }
          lock := some (l.update e.2.2) } ++ x.2)))
  | _, _ => (r, [(0, toBytes (fissDeparser x.1 ++ x.2))])

/-- To parse and to deparse changes nothing. -/
lemma fissDeparser_fissParser (s : List Bool) :
    fissDeparser (fissParser s).1 ++ (fissParser s).2 = s := by
  simp only [fissDeparser, fissParser, List.append_assoc, Format.emitOpt_opt]

/-- The switch takes the frame for a lock packet. -/
def HasLock (frame : List Byte) : Prop := (fissParser (stream frame)).1.lock ≠ none

instance (frame : List Byte) : Decidable (HasLock frame) := inferInstanceAs (Decidable (_ ≠ _))

/-- **Other frames pass unchanged**, and leave the registers alone. -/
lemma v1Switch_of_not_hasLock (r : Regs) {frame : List Byte} (h : ¬ HasLock frame) :
    v1Switch r frame = (r, [(0, frame)]) := by
  have hlock : (fissParser (stream frame)).1.lock = none := not_not.1 h
  simp only [v1Switch, hlock]
  split
  · next heq => cases heq
  · rw [fissDeparser_fissParser, toBytes_stream]

/-! ## What the plane leaves in a header -/

end Bmv2

/-- The type is one of the six of `post.h`. -/
def PostType.known : PostType → Bool
  | .other _ => false
  | _ => true

namespace Bmv2

/-- What the plane does not write: the ids, the wait queue and the counter, and of `mode_old_mode`
the bit 7 and the reserved bits. -/
structure Kept (p q : Hdr) : Prop where
  type : p.type.known = true → q.type.known = true
  modeOldMode : q.modeOldMode &&& 0x9C#8 = p.modeOldMode &&& 0x9C#8
  id : q.id = p.id
  machineId : q.machineId = p.machineId
  taskId : q.taskId = p.taskId
  wq : q.wq = p.wq
  ncnt : q.ncnt = p.ncnt

lemma Kept.refl (p : Hdr) : Kept p p := ⟨fun h => h, rfl, rfl, rfl, rfl, rfl, rfl⟩

lemma Kept.trans {p q u : Hdr} (h : Kept p q) (h' : Kept q u) : Kept p u where
  type := h'.type ∘ h.type
  modeOldMode := h'.modeOldMode.trans h.modeOldMode
  id := h'.id.trans h.id
  machineId := h'.machineId.trans h.machineId
  taskId := h'.taskId.trans h.taskId
  wq := h'.wq.trans h.wq
  ncnt := h'.ncnt.trans h.ncnt

/-- The masks of the plane. -/
lemma mask_kept : ∀ m : Byte, (m &&& 0xDF#8) &&& 0x9C#8 = m &&& 0x9C#8
    ∧ (m ||| 0x20#8) &&& 0x9C#8 = m &&& 0x9C#8 ∧ (m ||| 0x40#8) &&& 0x9C#8 = m &&& 0x9C#8 := by
  decide +kernel

section Kept

variable (x : Ctx)

lemma kept_opNewAgent : Kept x.hdr (opNewAgent x).hdr :=
  ⟨fun _ => rfl, (mask_kept _).1, rfl, rfl, rfl, rfl, rfl⟩

lemma kept_opMcastToAgent : Kept x.hdr (opMcastToAgent x).hdr :=
  ⟨fun _ => rfl, rfl, rfl, rfl, rfl, rfl, rfl⟩

lemma kept_opFwdToAgent : Kept x.hdr (opFwdToAgent x).hdr := ⟨id, rfl, rfl, rfl, rfl, rfl, rfl⟩

lemma kept_opTransferAgent : Kept x.hdr (opTransferAgent x).hdr :=
  ⟨fun _ => rfl, (mask_kept _).2.1, rfl, rfl, rfl, rfl, rfl⟩

lemma kept_opResetAgent : Kept x.hdr (opResetAgent x).hdr := ⟨id, rfl, rfl, rfl, rfl, rfl, rfl⟩

lemma kept_lockOpTable : Kept x.hdr (lockOpTable x).hdr := by
  unfold lockOpTable
  split
  all_goals first
    | exact kept_opNewAgent x
    | exact kept_opMcastToAgent x
    | exact kept_opFwdToAgent x
    | exact kept_opTransferAgent x
    | exact kept_opResetAgent x
    | exact .refl _

lemma kept_lockStages : Kept x.hdr (lockStages x).hdr := by
  set y := rwTable (if x.hdr.type ≠ .free then doAcquire x else doRelease x) with hy
  have hhdr : y.hdr = x.hdr := by
    rw [hy, rwTable_hdr]
    split <;> rfl
  rw [← hhdr]
  exact kept_lockOpTable { y with md.lockAgent := y.hdr.machineId }

end Kept

lemma kept_ingressCell (c : Cell) (p : Hdr) : Kept p (ingressCell c p).hdr := by
  have hcnt : (counterClearTable (counterTable (initPacket c p))).hdr = p := by
    rw [counterClearTable_hdr, counterTable_hdr]
    rfl
  unfold ingressCell
  dsimp only
  split
  · rw [hcnt]
    exact .refl p
  · split
    · rw [hcnt]
      exact ⟨id, rfl, rfl, rfl, rfl, rfl, rfl⟩
    · have hk := kept_lockStages (counterClearTable (counterTable (initPacket c p)))
      rwa [hcnt] at hk

lemma kept_fissIngress (r : Regs) (p : Hdr) : Kept p (fissIngress r p).2.hdr := by
  unfold fissIngress
  split
  · exact .refl p
  · exact kept_ingressCell _ p

lemma kept_fissEgress (rid : ℕ) (x : Ctx) : Kept x.hdr (fissEgress rid x) := by
  unfold fissEgress
  split
  · split
    · exact ⟨fun _ => rfl, rfl, rfl, rfl, rfl, rfl, rfl⟩
    · split
      · exact ⟨fun _ => rfl, (mask_kept _).2.2, rfl, rfl, rfl, rfl, rfl⟩
      · exact .refl _
  · exact .refl _

/-- Whatever leaves keeps what the plane does not write. -/
lemma kept_switchStep {r : Regs} {d : BitVec 16} {p : Hdr} {e : BitVec 9 × BitVec 16 × Hdr}
    (he : e ∈ (switchStep r (d, p)).2) : Kept p e.2.2 := by
  have hin := kept_fissIngress r p
  simp only [switchStep, emitUdp] at he
  split at he
  · obtain ⟨m, -, rfl⟩ := List.mem_map.1 he
    exact hin.trans (kept_fissEgress m.1 _)
  · rw [List.mem_singleton.1 he]
    exact hin.trans (kept_fissEgress 0 _)

/-! ## The headers, byte by byte -/

/-- A 48-bit word in network order. -/
def be48 (x : BitVec 48) : List Byte :=
  [x.extractLsb' 40 8, x.extractLsb' 32 8, x.extractLsb' 24 8, x.extractLsb' 16 8,
    x.extractLsb' 8 8, x.extractLsb' 0 8]

def EthernetT.bytes (h : EthernetT) : List Byte :=
  be48 h.dstAddr ++ be48 h.srcAddr ++ be16 h.etherType

def Ipv4T.bytes (h : Ipv4T) : List Byte :=
  ([h.version ++ h.ihl, h.diffserv] : List Byte) ++ be16 h.totalLen ++ be16 h.identification
    ++ be16 (h.flags ++ h.fragOffset) ++ [h.ttl, h.protocol] ++ be16 h.hdrChecksum
    ++ le32 (htonl h.srcAddr) ++ le32 (htonl h.dstAddr)

def UdpT.bytes (h : UdpT) : List Byte :=
  be16 h.srcPort ++ be16 h.dstPort ++ be16 h.length ++ be16 h.checksum

/-- A piece of a word is its upper part and its last byte. -/
lemma bits_extract {w : ℕ} (x : BitVec w) (k n : ℕ) :
    bits (x.extractLsb' k (n + 8))
      = bits (x.extractLsb' (k + 8) n) ++ bits (x.extractLsb' k 8) := by
  rw [← bits_append, BitVec.extractLsb'_append_extractLsb'_eq_extractLsb' rfl]

lemma bits_be16 (x : BitVec 16) : bits x = stream (be16 x) := by
  conv_lhs => rw [← BitVec.extractLsb'_eq_self (x := x), bits_extract x 0 8]
  simp [be16, stream]

lemma bits_be48 (x : BitVec 48) : bits x = stream (be48 x) := by
  conv_lhs => rw [← BitVec.extractLsb'_eq_self (x := x), bits_extract x 0 40, bits_extract x 8 32,
    bits_extract x 16 24, bits_extract x 24 16, bits_extract x 32 8]
  simp [be48, stream]

lemma ethernetT_emit (h : EthernetT) : ethernetT.emit h = stream h.bytes := by
  simp only [EthernetT.bytes, stream_append, ← bits_be48, ← bits_be16, List.append_assoc]
  rfl

lemma udpT_emit (h : UdpT) : udpT.emit h = stream h.bytes := by
  simp only [UdpT.bytes, stream_append, ← bits_be16, List.append_assoc]
  rfl

lemma ipv4T_emit (h : Ipv4T) : ipv4T.emit h = stream h.bytes := by
  have hbyte : ∀ a b : Byte, stream [a, b] = bits a ++ bits b := by
    intro a b
    simp [stream]
  have hver : bits (h.version ++ h.ihl) = bits h.version ++ bits h.ihl := bits_append _ _
  have hfrag : bits (h.flags ++ h.fragOffset) = bits h.flags ++ bits h.fragOffset := bits_append _ _
  simp only [Ipv4T.bytes, stream_append, ← bits_be16, ← bits_word, hbyte]
  rw [show (bits (w := 8) (h.version ++ h.ihl)) = _ from hver,
    show (bits (w := 16) (h.flags ++ h.fragOffset)) = _ from hfrag]
  simp only [List.append_assoc]
  rfl

end Bmv2

/-! ## Lock packets as the host lays them out and reads them -/

/-- The header of a packet in the host's memory; the switch takes `task_id` and `wq_size` for
byte-swapped words. -/
def LockHdr.raw (p : LockHdr) : Bmv2Hdr where
  type := Sidecar.typeByte p.type
  modeOldMode := Bmv2.modeByte p.multicasted p.granted p.transferred p.oldMode p.mode
  id := p.id
  machineId := p.machineId
  taskId := htonl p.taskId
  agent := p.agent
  wqSize := htonl (BitVec.ofNat 32 p.wq.length)
  ncnt := p.ncnt

/-- `post_header`, `lock_post_header` and the wait queue. -/
def LockHdr.bytes (p : LockHdr) : List Byte :=
  hdrBytes p.raw.type p.raw.modeOldMode p.raw.id p.raw.machineId p.raw.taskId p.raw.agent
    p.raw.wqSize p.raw.ncnt ++ p.wq.flatMap Wqe.bytes

/-- These are the bytes that `send_post_lock_generic` writes. -/
theorem LockHdr.bytes_sendPost (t : PostType) (op oldState : LockState) (lid : LockId)
    (hid : HostId) (tid : TaskId) (wq : List Wqe) (ncnt : Byte) (dest : HostId) :
    (sendPostLockGeneric t op lid hid tid wq ncnt oldState dest).bytes
      = sendPostBytes (Sidecar.typeByte t) (op.value.setWidth 8) lid hid tid
          (BitVec.ofNat 32 wq.length) wq ncnt (oldState.value.setWidth 32) dest := by
  have hmode : Bmv2.modeByte false false false oldState.bit op.bit
      = modeOldMode ((op.value.setWidth 8).signExtend 32) (oldState.value.setWidth 32) := by
    cases op <;> cases oldState <;> decide
  rw [sendPostBytes_eq, ← hmode]
  rfl

/-- What the host reads from a post; it takes as many queue entries as `wq_size` says.  The bit
`multicasted` is read by no host. -/
def LockHdr.read (post : List Byte) : Option LockHdr :=
  (readPost post).map fun r =>
    { type := .ofByte r.1.type
      multicasted := r.1.modeOldMode.getLsbD 7
      granted := r.1.granted != 0#8
      transferred := r.1.transferred != 0#8
      oldMode := r.1.oldMode == LockState.excl.value.setWidth 8
      mode := r.1.mode == LockState.excl.value.setWidth 8
      id := ntohl r.1.lockId
      machineId := r.1.machineId
      taskId := r.1.taskId
      agent := r.1.agent
      wq := (readWqes r.2).take r.1.wqSize.toNat
      ncnt := r.1.ncnt }

/-- The lock packet that the host reads from a frame, if there is one. -/
def readLock (frame : List Byte) : Option LockHdr := (lockPost frame).bind LockHdr.read

lemma ofByte_typeByte {t : PostType} (ht : t.known = true) : .ofByte (Sidecar.typeByte t) = t := by
  cases t with
  | other b => cases ht
  | _ => rfl

/-- **A host reads what a host has written.** -/
theorem LockHdr.read_bytes {p : LockHdr} (ht : p.type.known = true) (hw : p.wq.length < 2 ^ 32) :
    LockHdr.read p.bytes = some p := by
  have hflags : ∀ mc gr tr old mode : Bool,
      (Bmv2.modeByte mc gr tr old mode).getLsbD 7 = mc
        ∧ ((Bmv2.modeByte mc gr tr old mode >>> 6) &&& 0x1#8 != 0#8) = gr
        ∧ ((Bmv2.modeByte mc gr tr old mode >>> 5) &&& 0x1#8 != 0#8) = tr
        ∧ ((Bmv2.modeByte mc gr tr old mode >>> 1) &&& 0x1#8 ||| 0x2#8
            == LockState.excl.value.setWidth 8) = old
        ∧ ((Bmv2.modeByte mc gr tr old mode) &&& 0x1#8 ||| 0x2#8
            == LockState.excl.value.setWidth 8) = mode := by
    decide
  obtain ⟨h7, h6, h5, h1, h0⟩ := hflags p.multicasted p.granted p.transferred p.oldMode p.mode
  have hsize : (BitVec.ofNat 32 p.wq.length).toNat = p.wq.length := by
    rw [BitVec.toNat_ofNat, Nat.mod_eq_of_lt hw]
  rw [LockHdr.bytes, hdrBytes, raw, htonl_htonl, htonl_htonl, le32, le32, le32]
  simp only [List.cons_append, List.nil_append, LockHdr.read, readPost, Option.map_some,
    ofLe32_le32, readWqes_flatMap, RawHdr.mode, RawHdr.oldMode, RawHdr.granted,
    RawHdr.transferred, ntohl, htonl_htonl, ofByte_typeByte ht, hsize, List.take_length, h7, h6, h5, h1, h0]

/-! ## Lock packets in frames -/

namespace Bmv2

/-- One of the two UDP ports for lock packets. -/
def LockPort (d : BitVec 16) : Prop := d = Tofino.UDP_PORT_SERVER ∨ d = Tofino.UDP_PORT_CLIENT

/-- Headers that stand in front of a lock packet; the IPv4 header has no options. -/
structure Leads (e : EthernetT) (i : Ipv4T) (u : UdpT) : Prop where
  etherType : e.etherType = TYPE_IPV4
  version : i.version = 4
  ihl : i.ihl = 5
  protocol : i.protocol = TYPE_UDP
  dstPort : LockPort u.dstPort

/-- `f` is a frame that carries the lock packet `p` to the UDP port `d`. -/
def LockFrame (d : BitVec 16) (p : LockHdr) (f : List Byte) : Prop :=
  ∃ e i u, Leads e i u ∧ u.dstPort = d ∧ f = e.bytes ++ i.bytes ++ u.bytes ++ p.bytes

variable {d : BitVec 16} {p : LockHdr} {f : List Byte}

lemma ethHdr_eq : ethHdr = EthernetT.bytes ⟨0x000000000100, 0x000000000001, TYPE_IPV4⟩ := by decide

/-- The IPv4 header of `init_header_template`. -/
lemma ipHdr_eq (len csum : BitVec 16) :
    ipHdr len csum
      = Ipv4T.bytes ⟨4, 5, 0, len, 0, 0, 0, 0, TYPE_UDP, csum, 0x0A000001, 0x0A000002⟩ := by
  have hver : ([4#4 ++ 5#4, 0] : List Byte) = [0x45, 0] := by decide
  have hmid : be16 0 ++ be16 (0#3 ++ 0#13) ++ [0, TYPE_UDP] = [0, 0, 0, 0, 0, 17] := by decide
  have haddr : le32 (htonl 0x0A000001) ++ le32 (htonl 0x0A000002) = [10, 0, 0, 1, 10, 0, 0, 2] := by
    decide
  rw [ipHdr, ← hmid, ← haddr, ← hver, Ipv4T.bytes]
  simp only [List.append_assoc]
  rfl

lemma udpHdr_eq (len csum : BitVec 16) :
    udpHdr len csum = UdpT.bytes ⟨30000, Tofino.UDP_PORT_SERVER, len, csum⟩ := by
  have hport : be16 30000 = [0x75, 0x30] := by decide
  rw [udpHdr, ← hport]
  rfl

/-- What a host puts on the wire is such a frame. -/
lemma LockFrame.of_build (hsize : 8 + p.bytes.length < 2 ^ 16) :
    LockFrame Tofino.UDP_PORT_SERVER p (buildFrameFromPost p.bytes) := by
  obtain ⟨ipCsum, udpCsum, hframe, -⟩ := buildFrameFromPost_eq hsize
  refine ⟨⟨0x000000000100, 0x000000000001, TYPE_IPV4⟩,
    ⟨4, 5, 0, BitVec.ofNat 16 (20 + 8 + p.bytes.length), 0, 0, 0, 0, TYPE_UDP, ipCsum, 0x0A000001,
      0x0A000002⟩,
    ⟨30000, Tofino.UDP_PORT_SERVER, BitVec.ofNat 16 (8 + p.bytes.length), udpCsum⟩,
    ⟨rfl, rfl, rfl, rfl, .inl rfl⟩, rfl, ?_⟩
  rw [hframe, frameOf, ethHdr_eq, ipHdr_eq, udpHdr_eq]

section Parse

variable {e : EthernetT} {i : Ipv4T} {u : UdpT}

/-- What the parser finds in such a frame. -/
lemma fissParser_lock (h : Leads e i u) (p : LockHdr) :
    fissParser (stream (e.bytes ++ i.bytes ++ u.bytes ++ p.bytes))
      = (⟨some e, some i, some u, some p.raw⟩, stream (p.wq.flatMap Wqe.bytes)) := by
  have hlock : stream p.bytes = lockHdrT.emit p.raw ++ stream (p.wq.flatMap Wqe.bytes) := by
    rw [LockHdr.bytes, stream_append, ← Bmv2Hdr.emit_eq]
    rfl
  have hports : (decide (u.dstPort = Tofino.UDP_PORT_SERVER ∨ u.dstPort = Tofino.UDP_PORT_CLIENT))
      = true := decide_eq_true h.dstPort
  simp only [stream_append, hlock, ← ethernetT_emit, ← ipv4T_emit, ← udpT_emit, List.append_assoc,
    fissParser, Format.opt_emit, Option.any_some, h.etherType, h.protocol, hports, decide_true]

/-- What the deparser makes of these headers. -/
lemma fissDeparser_lock (e : EthernetT) (i : Ipv4T) (u : UdpT) (p : LockHdr) :
    toBytes (fissDeparser ⟨some e, some i, some u, some p.raw⟩ ++ stream (p.wq.flatMap Wqe.bytes))
      = e.bytes ++ i.bytes ++ u.bytes ++ p.bytes := by
  have hlock : lockHdrT.emit p.raw ++ stream (p.wq.flatMap Wqe.bytes) = stream p.bytes := by
    rw [LockHdr.bytes, stream_append, ← Bmv2Hdr.emit_eq]
    rfl
  rw [fissDeparser, Format.emitOpt_some, Format.emitOpt_some, Format.emitOpt_some,
    Format.emitOpt_some, List.append_assoc, hlock, ethernetT_emit, ipv4T_emit, udpT_emit,
    ← stream_append, ← stream_append, ← stream_append, toBytes_stream]

end Parse

/-- The plane sees the packet that the host has sent. -/
lemma toHdr_raw (ht : p.type.known = true) :
    p.raw.toHdr (stream (p.wq.flatMap Wqe.bytes)) = .ofPost p := by
  simp only [Bmv2Hdr.toHdr, LockHdr.raw, Hdr.ofPost, ofByte_typeByte ht, htonl_htonl,
    toBytes_stream, readWqes_flatMap]

/-- A byte without reserved bits is put together from the others. -/
lemma modeByte_of_reserved : ∀ m : Byte, m &&& 0x1C#8 = 0 →
    modeByte (m.getLsbD 7) (m.getLsbD 6) (m.getLsbD 5) (m.getLsbD 1) (m.getLsbD 0) = m := by
  decide +kernel

/-- No action sets a reserved bit. -/
lemma Kept.reserved {q : Hdr} (h : Kept (.ofPost p) q) : q.modeOldMode &&& 0x1C#8 = 0 := by
  have hnone : ∀ mc gr tr old mode : Bool,
      (modeByte mc gr tr old mode &&& 0x9C#8) &&& 0x1C#8 = 0 := by
    decide
  have hmask : ∀ m : Byte, m &&& 0x1C#8 = (m &&& 0x9C#8) &&& 0x1C#8 := by
    decide +kernel
  rw [hmask, h.modeOldMode]
  exact hnone _ _ _ _ _

/-- The header with what the plane wrote into it is the header of the packet that leaves. -/
lemma update_raw {q : Hdr} (h : Kept (.ofPost p) q) : p.raw.update q = q.parse.raw := by
  have hmode := modeByte_of_reserved q.modeOldMode h.reserved
  have htask : q.taskId = p.taskId := h.taskId
  have hwq : q.wq = p.wq := h.wq
  simp only [Bmv2Hdr.update, Bmv2Hdr.rewrite, LockHdr.raw, Hdr.parse, hmode, htask, hwq]

/-- The plane addresses what it sends to one of the two ports. -/
lemma lockPort_switchStep {r : Regs} {q : Hdr} (hd : LockPort d) {o : BitVec 9 × BitVec 16 × Hdr}
    (ho : o ∈ (switchStep r (d, q)).2) : LockPort o.2.1 := by
  have hop : ∀ x, LockPort (lockOpPort x d) := by
    intro x
    unfold lockOpPort
    split
    all_goals first
      | exact .inl rfl
      | exact .inr rfl
      | exact hd
  have hin : LockPort (fissIngressPort r q d) := by
    unfold fissIngressPort ingressPort
    dsimp only
    split
    · exact hd
    · split
      · exact hd
      · split
        · exact hd
        · exact hop _
  have heg : ∀ (rid : ℕ) x, LockPort (egressPort rid x (fissIngressPort r q d)) := by
    intro rid x
    unfold egressPort
    split
    · exact .inr rfl
    · split
      · exact .inl rfl
      · exact hin
  simp only [switchStep, emitUdp] at ho
  split at ho
  · obtain ⟨m, -, rfl⟩ := List.mem_map.1 ho
    exact heg _ _
  · rw [List.mem_singleton.1 ho]
    exact heg _ _

/-- **The switch on a lock frame** does what the plane does with the packet in it. -/
theorem LockFrame.v1Switch (hf : LockFrame d p f) (ht : p.type.known = true) (r : Regs) :
    (v1Switch r f).1 = (switchStep r (d, .ofPost p)).1
      ∧ List.Forall₂ (fun o o' => o'.1 = o.1 ∧ LockFrame o.2.1 o.2.2.parse o'.2)
        (switchStep r (d, .ofPost p)).2 (v1Switch r f).2 := by
  obtain ⟨e, i, u, hl, rfl, rfl⟩ := hf
  have hsw : Bmv2.v1Switch r (e.bytes ++ i.bytes ++ u.bytes ++ p.bytes)
      = ((switchStep r (u.dstPort, .ofPost p)).1,
        (switchStep r (u.dstPort, .ofPost p)).2.map fun o =>
          (o.1, toBytes (fissDeparser
            ⟨some e, some i, some { u with dstPort := o.2.1 }, some (p.raw.update o.2.2)⟩
              ++ stream (p.wq.flatMap Wqe.bytes)))) := by
    simp only [Bmv2.v1Switch, fissParser_lock hl, toHdr_raw ht]
  rw [hsw]
  refine ⟨rfl, List.forall₂_map_right_iff.2 (List.forall₂_same.2 fun o ho => ⟨rfl, ?_⟩)⟩
  have hk := kept_switchStep ho
  have hwq : p.wq = o.2.2.parse.wq := hk.wq.symm
  refine ⟨e, i, { u with dstPort := o.2.1 },
    { hl with dstPort := lockPort_switchStep hl.dstPort ho }, rfl, ?_⟩
  dsimp only
  rw [update_raw hk, hwq, fissDeparser_lock]

/-- The checks of the host pass. -/
lemma acceptFrame_lock {e : EthernetT} {i : Ipv4T} {u : UdpT} (hl : Leads e i u) (p : LockHdr) :
    acceptFrame (e.bytes ++ i.bytes ++ u.bytes ++ p.bytes) = some p.bytes := by
  have hip : (e.bytes ++ i.bytes ++ u.bytes ++ p.bytes).drop 14
      = i.bytes ++ (u.bytes ++ p.bytes) := by
    rw [List.append_assoc, List.append_assoc]
    rfl
  have hlen : (e.bytes ++ i.bytes ++ u.bytes ++ p.bytes).length = 14 + 20 + 8 + p.bytes.length := by
    simp only [List.length_append]
    rfl
  have hpost : 17 ≤ p.bytes.length := by
    rw [LockHdr.bytes, List.length_append]
    exact Nat.le_add_right 17 _
  have hfirst : (i.bytes ++ (u.bytes ++ p.bytes)).getD 0 0 = 0x45#8 := by
    have hver : (i.bytes ++ (u.bytes ++ p.bytes)).getD 0 0 = i.version ++ i.ihl := rfl
    rw [hver, hl.version, hl.ihl]
    rfl
  have hport : readBe16 (u.bytes ++ p.bytes) 2 = u.dstPort.toNat := by
    have hread := readBe16_be16 u.dstPort (be16 u.srcPort)
      (be16 u.length ++ be16 u.checksum ++ p.bytes)
    rw [show (be16 u.srcPort).length = 2 from rfl] at hread
    simpa only [UdpT.bytes, List.append_assoc] using hread
  have hihl : (0x45#8 &&& 0x0f : Byte).toNat * 4 = 20 := by decide
  have hudp : (i.bytes ++ (u.bytes ++ p.bytes)).drop 20 = u.bytes ++ p.bytes := rfl
  have hdst : ¬ (u.dstPort.toNat ≠ SERVER_POST_TYPE.toNat
      ∧ u.dstPort.toNat ≠ CLIENT_POST_TYPE.toNat) := by
    rcases hl.dstPort with h | h <;> simp [h, SERVER_POST_TYPE, CLIENT_POST_TYPE]
  unfold acceptFrame
  simp only [hip, hfirst, hihl, hudp, hport, hlen]
  rw [if_neg (by omega), if_neg (by decide), if_neg (by omega), if_neg hdst]
  rfl

lemma dispatchPayload_bytes (ht : p.type.known = true) :
    dispatchPayload p.bytes = some p.bytes := by
  have hbytes : p.bytes = Sidecar.typeByte p.type :: p.bytes.drop 1 := rfl
  have hrange : 1 ≤ (Sidecar.typeByte p.type).toNat ∧ (Sidecar.typeByte p.type).toNat ≤ 6 := by
    cases h : p.type with
    | other b => simp [h, PostType.known] at ht
    | _ => decide
  have hdisp : hasDispatcher (Sidecar.typeByte p.type) = true := decide_eq_true hrange
  rw [hbytes, dispatchPayload, if_neg, if_pos hdisp]
  simp only [NUM_POST_TYPES]
  omega

/-- **A host reads the packet from a lock frame.** -/
theorem LockFrame.readLock (hf : LockFrame d p f) (ht : p.type.known = true)
    (hw : p.wq.length < 2 ^ 32) : readLock f = some p := by
  obtain ⟨e, i, u, hl, -, rfl⟩ := hf
  rw [FissLock.readLock, lockPost, acceptFrame_lock hl, Option.bind_some, dispatchPayload_bytes ht,
    Option.bind_some, LockHdr.read_bytes ht hw]

/-! ## Runs -/

/-- A frame that neither the switch nor a host takes for a lock packet. -/
def Foreign (f : List Byte) : Prop := ¬ HasLock f ∧ readLock f = none

instance (f : List Byte) : Decidable (Foreign f) := inferInstanceAs (Decidable (_ ∧ _))

/-- What the switch receives: a post that a host has sent, or some other frame. -/
inductive Traffic where
  | post (p : LockHdr)
  | other (f : List Byte)
  deriving DecidableEq, Repr

namespace Traffic

def frame : Traffic → List Byte
  | post p => buildFrameFromPost p.bytes
  | other f => f

/-- What the plane is modelled to receive. -/
def packet : Traffic → Option (BitVec 16 × Hdr)
  | post p => some (Tofino.UDP_PORT_SERVER, .ofPost p)
  | other _ => none

/-- A post has one of the six types and fits into the buffer of its sender, and other traffic is
not about locks. -/
def Sound : Traffic → Prop
  | post p => p.type.known = true ∧ p.bytes.length ≤ 470
  | other f => Foreign f

end Traffic

/-- What hosts read from what leaves, with the port it leaves through. -/
def delivered (o : BitVec 9 × List Byte) : Option (BitVec 9 × LockHdr) :=
  (readLock o.2).map fun p => (o.1, p)

lemma length_wq_le (p : LockHdr) : p.wq.length ≤ p.bytes.length := by
  have hwqe : ∀ w : Wqe, w.bytes.length = 5 := fun _ => rfl
  have hwq : (p.wq.flatMap Wqe.bytes).length = p.wq.length * 5 := by
    simp [List.length_flatMap, hwqe]
  rw [LockHdr.bytes, List.length_append]
  omega

open Noninterference (run)

lemma LockFrame.delivered (hf : LockFrame d p f) (ht : p.type.known = true)
    (hw : p.wq.length < 2 ^ 32) (r : Regs) :
    (Bmv2.v1Switch r f).2.filterMap Bmv2.delivered
      = (switchStep r (d, .ofPost p)).2.map fun o => (o.1, o.2.2.parse) := by
  have hread : ∀ o ∈ (switchStep r (d, .ofPost p)).2, ∀ o' : BitVec 9 × List Byte,
      o'.1 = o.1 ∧ LockFrame o.2.1 o.2.2.parse o'.2 →
      Bmv2.delivered o' = some (o.1, o.2.2.parse) := by
    rintro o ho o' ⟨hport, hframe⟩
    have hk := kept_switchStep ho
    have hwq : o.2.2.parse.wq = p.wq := hk.wq
    rw [Bmv2.delivered, hframe.readLock (hk.type ht) (hwq ▸ hw), hport]
    rfl
  have hall := (hf.v1Switch ht r).2
  revert hread hall
  generalize (switchStep r (d, Hdr.ofPost p)).2 = os
  generalize (Bmv2.v1Switch r f).2 = os'
  intro hread hall
  induction hall with
  | nil => rfl
  | cons h _ ih =>
      rw [List.filterMap_cons, hread _ List.mem_cons_self _ h, List.map_cons,
        ih fun o ho => hread o (List.mem_cons_of_mem _ ho)]

/-- **Hosts and switch implement the plane.**  Whatever posts the hosts send, and whatever other
frames come between them: the registers of the switch are those of the plane, which sees only the
packets, the packets that hosts read from what leaves are the ones that the plane emits, through the
same ports and in the same order, and every other frame leaves through port 0 as it came. -/
theorem frames_refine_plane (r : Regs) (ts : List Traffic) (hts : ∀ t ∈ ts, t.Sound) :
    (run v1Switch r (ts.map Traffic.frame)).1 = (run switchStep r (ts.filterMap Traffic.packet)).1
      ∧ ((run v1Switch r (ts.map Traffic.frame)).2.flatMap (·.2)).filterMap delivered
        = ((run switchStep r (ts.filterMap Traffic.packet)).2.flatMap (·.2)).map
            (fun o => (o.1, o.2.2.parse))
      ∧ ∀ f, .other f ∈ ts → (f, [(0, f)]) ∈ (run v1Switch r (ts.map Traffic.frame)).2 := by
  induction ts generalizing r with
  | nil => exact ⟨rfl, rfl, fun f hf => by cases hf⟩
  | cons t ts ih =>
      have ht := hts t List.mem_cons_self
      have hrest := fun r => ih r fun u hu => hts u (List.mem_cons_of_mem t hu)
      cases t with
      | post p =>
          have hlen := ht.2
          have hw := length_wq_le p
          have hf : LockFrame Tofino.UDP_PORT_SERVER p (buildFrameFromPost p.bytes) :=
            LockFrame.of_build (by omega)
          obtain ⟨hregs, hout, hother⟩ := hrest (switchStep r (Tofino.UDP_PORT_SERVER, .ofPost p)).1
          have hfirst := hf.delivered ht.1 (by omega) r
          simp only [List.map_cons, Traffic.frame, List.filterMap_cons, Traffic.packet, run,
            (hf.v1Switch ht.1 r).1, List.flatMap_cons, List.filterMap_append, List.map_append,
            hfirst, hregs, hout, true_and]
          intro f hf
          rcases List.mem_cons.1 hf with hf | hf
          · cases hf
          · exact List.mem_cons_of_mem _ (hother f hf)
      | other f =>
          obtain ⟨hregs, hout, hother⟩ := hrest r
          have hnone : delivered (0, f) = none := by
            rw [delivered, ht.2]
            rfl
          simp only [List.map_cons, Traffic.frame, List.filterMap_cons, Traffic.packet, run,
            v1Switch_of_not_hasLock r ht.1, List.flatMap_cons, List.filterMap_append,
            List.filterMap_nil, hnone, List.nil_append, hregs, hout, true_and]
          intro g hg
          rcases List.mem_cons.1 hg with hg | hg
          · cases hg
            exact List.mem_cons_self
          · exact List.mem_cons_of_mem _ (hother g hg)

/-- A request for shared access to lock 5. -/
def requestFrom (h : HostId) (t : TaskId) : LockHdr :=
  sendPostLockGeneric .acquire .shared 5 h t [] 0 .free h

/-- Host 2 asks for a lock that host 1 shares, with an ARP frame in between. -/
theorem frames_refine_plane_shared :
    (((run v1Switch Regs.init ([.post (requestFrom 1 7),
        .other (List.replicate 12 0 ++ [0x08, 0x06] ++ List.replicate 28 0),
        .post (requestFrom 2 9)].map Traffic.frame)).2.flatMap (·.2)).filterMap delivered).map
          (fun x => (x.1, x.2.type, x.2.machineId))
      = [(1, .grantWithAgent, 1), (1, .acquire, 2), (2, .grantWoAgent, 2)] := by
  rw [(frames_refine_plane _ _ ?_).2.1]
  · decide +kernel
  · intro t ht
    simp only [List.mem_cons, List.not_mem_nil, or_false] at ht
    rcases ht with rfl | rfl | rfl
    · exact ⟨rfl, by decide⟩
    · show Foreign _
      decide +kernel
    · exact ⟨rfl, by decide⟩

end Bmv2
end FissLock
