import FissLock.Library.Noninterference
import FissLock.Switch.Bmv2

/-!
# Locks do not interfere on the switch

The registers of a switch are arrays, and a packet selects its entries by the id that it carries.
On Tofino the free and mode arrays are indexed by the whole id.  The counters and the agents are
spread over three slices: the pipeline chooses a slice with one chain of comparisons before the
counter table and with another one before the lock operation, and indexes it with the low 19 bits
of the id.  On BMv2 there is one slice, indexed with the low 10 bits.

`Addr` names a register entry of a plane and `addresses` the ones that a packet selects.
`ingressArrays` is the Tofino ingress with both choices of the slice written out, as the pipeline
addresses its arrays; `ingressArrays_eq` says that they are one.  Both planes then are systems with
a footprint, and `lock_isolation` is what that gives.

The packets carry their UDP destination port here, since the answers are compared as packets.
-/

namespace FissLock

/-- A register of one bit is known by the byte that it is read as. -/
lemma ofBool_setWidth_inj {b b' : Bool} :
    (BitVec.ofBool b).setWidth 8 = (BitVec.ofBool b').setWidth 8 ↔ b = b' := by
  cases b <;> cases b' <;> simp

namespace Tofino

/-- The UDP ports of a lock packet. -/
abbrev UDP_PORT_SERVER : BitVec 16 := 20001

@[inherit_doc UDP_PORT_SERVER]
abbrev UDP_PORT_CLIENT : BitVec 16 := 20002

/-- `SLICE_SIZE` and `SLICE_NUM`. -/
def SLICE_SIZE : ℕ := 2 ^ 19

@[inherit_doc SLICE_SIZE]
def SLICE_NUM : ℕ := 8

/-! ## The UDP port on Tofino -/

/-- The port that the action of `lock_operation` writes: `new_agent` and `transfer_agent` address
the client, `fwd_to_agent` the server, and the others leave the port. -/
def lockOperationPort (x : Ctx) (port : BitVec 16) : BitVec 16 :=
  match x.hdr.type, x.hdr.mode, x.md.lockFreeMode, x.md.lockRwMode with
  | .acquire, _, LOCK_FREE, _ => UDP_PORT_CLIENT
  | .acquire, LOCK_SHARED, LOCK_ACQUIRED, LOCK_SHARED => port
  | .acquire, _, LOCK_ACQUIRED, _ => UDP_PORT_SERVER
  | .release, false, LOCK_ACQUIRED, _ => UDP_PORT_SERVER
  | .transfer, _, LOCK_ACQUIRED, _ => UDP_PORT_CLIENT
  | _, _, _, _ => port

/-- The port after the ingress, for an id that one of the slices serves. -/
def ingressPort (c : Cell) (hdr : LockHdr) (port : BitVec 16) : BitVec 16 :=
  let x := counterTable (initPacket c hdr)
  if (x.hdr.type = .transfer ∨ x.hdr.type = .free) ∧ x.hdr.oldMode = LOCK_SHARED
      ∧ x.md.agentChanged = false then port
  else if x.hdr.type = .grantWoAgent then port
  else lockOperationPort (rwTable (if x.hdr.type ≠ .free then acquireLock x else releaseLock x)) port

/-- The port for an id out of range. -/
def outOfRangePort (hdr : LockHdr) (port : BitVec 16) : BitVec 16 :=
  if hdr.type = .grantWoAgent then UDP_PORT_CLIENT else port

/-- The port after the egress, on the copy with replica id `rid`. -/
def egressPort (rid : ℕ) (hdr : LockHdr) (port : BitVec 16) : BitVec 16 :=
  if hdr.multicasted ∧ rid = 2 then UDP_PORT_CLIENT
  else if hdr.multicasted ∧ rid = 1 then UDP_PORT_SERVER
  else port

/-! ## The registers of the Tofino plane -/

/-- Step ⑤: which of `LockOperation_1/2/3` is applied.  This chain has no test for the third
slice. -/
def operationSlice (id : LockId) : Fin 3 :=
  if id >>> 19 = 0 then 0 else if id >>> 19 = 1 then 1 else 2

/-- The register entries of the plane. -/
inductive Addr where
  | lockFreeModeArray (i : LockId)
  | lockRwModeArray (i : LockId)
  | notificationCnt (s : Fin 3) (i : BitVec 19)
  | lockAgentArray (s : Fin 3) (i : BitVec 19)
  deriving DecidableEq, Repr

/-- The index of an entry in its array. -/
def Addr.index : Addr → ℕ
  | lockFreeModeArray i => i.toNat
  | lockRwModeArray i => i.toNat
  | notificationCnt _ i => i.toNat
  | lockAgentArray _ i => i.toNat

/-- How many entries the array has. -/
def Addr.size : Addr → ℕ
  | lockFreeModeArray _ => SLICE_SIZE * SLICE_NUM
  | lockRwModeArray _ => SLICE_SIZE * SLICE_NUM
  | notificationCnt _ _ => SLICE_SIZE
  | lockAgentArray _ _ => SLICE_SIZE

/-- The content of an entry; a bit as a byte. -/
def Regs.read (r : Regs) : Addr → BitVec 8
  | .lockFreeModeArray i => (BitVec.ofBool (r.lockFreeModeArray i)).setWidth 8
  | .lockRwModeArray i => (BitVec.ofBool (r.lockRwModeArray i)).setWidth 8
  | .notificationCnt s i => r.notificationCnt s i
  | .lockAgentArray s i => r.lockAgentArray s i

/-- The entries that a packet with this id selects. -/
def addresses (id : LockId) : List Addr :=
  match slice id with
  | none => []
  | some s =>
      [.lockFreeModeArray id, .lockRwModeArray id, .notificationCnt s (lockIndex id),
        .lockAgentArray (operationSlice id) (lockIndex id)]

/-- `IngressPipe.apply` with every array addressed as in the pipeline: slice `s` was chosen for the
counter, and `operationSlice` is chosen for the agent. -/
def ingressArrays (r : Regs) (hdr : LockHdr) : Regs × LockHdr × Metadata :=
  match slice hdr.id with
  | none => (r, (initPacket Cell.init hdr).hdr, {})
  | some s =>
      let o := operationSlice hdr.id
      let i := lockIndex hdr.id
      let x := ingressCell
        { free := r.lockFreeModeArray hdr.id
          rw := r.lockRwModeArray hdr.id
          agent := r.lockAgentArray o i
          ncnt := r.notificationCnt s i } hdr
      ({ lockFreeModeArray := Function.update r.lockFreeModeArray hdr.id x.cell.free
         lockRwModeArray := Function.update r.lockRwModeArray hdr.id x.cell.rw
         notificationCnt := Function.update r.notificationCnt s
           (Function.update (r.notificationCnt s) i x.cell.ncnt)
         lockAgentArray := Function.update r.lockAgentArray o
           (Function.update (r.lockAgentArray o) i x.cell.agent) }, x.hdr, x.md)

/-- The port after `ingressArrays`. -/
def ingressArraysPort (r : Regs) (hdr : LockHdr) (port : BitVec 16) : BitVec 16 :=
  match slice hdr.id with
  | none => outOfRangePort hdr port
  | some s =>
      ingressPort
        { free := r.lockFreeModeArray hdr.id
          rw := r.lockRwModeArray hdr.id
          agent := r.lockAgentArray (operationSlice hdr.id) (lockIndex hdr.id)
          ncnt := r.notificationCnt s (lockIndex hdr.id) } hdr port

/-- A lock packet through the switch: the registers, and the packets that leave, each with the host
it goes to and its UDP port. -/
def switchStep (r : Regs) (p : BitVec 16 × LockHdr) :
    Regs × List (HostId × BitVec 16 × LockHdr) :=
  let o := ingressArrays r p.2
  let port := ingressArraysPort r p.2 p.1
  (o.1, (mgrp (o.2.1.agent.setWidth 16) ++ mgrp (o.2.2.dest2 + 128)).map fun m =>
    (m.1, egressPort m.2 o.2.1 port, egressPipe m.2 o.2.1))

/-! ## The footprint of a packet on Tofino -/

/-- The second choice of the slice is the first one. -/
lemma operationSlice_eq {id : LockId} {s : Fin 3} (h : slice id = some s) :
    operationSlice id = s := by
  unfold slice at h
  unfold operationSlice
  split_ifs at h ⊢ <;> simp_all

/-- The pipeline addresses the cell of the packet's id. -/
theorem ingressArrays_eq (r : Regs) (hdr : LockHdr) : ingressArrays r hdr = ingressPipe r hdr := by
  unfold ingressArrays ingressPipe
  cases h : slice hdr.id with
  | none => rfl
  | some s => simp only [operationSlice_eq h, Regs.cell, Regs.setCell]

/-- But for the UDP ports, what leaves are the copies of `replicate`. -/
theorem switchStep_replicate (r : Regs) (p : BitVec 16 × LockHdr) :
    (switchStep r p).2.map (fun q => (q.1, q.2.2))
      = replicate (ingressPipe r p.2).2.1 (ingressPipe r p.2).2.2 := by
  simp [switchStep, replicate, ingressArrays_eq, Function.comp_def]

lemma addresses_of_slice {id : LockId} {s : Fin 3} (h : slice id = some s) :
    addresses id = [.lockFreeModeArray id, .lockRwModeArray id, .notificationCnt s (lockIndex id),
      .lockAgentArray s (lockIndex id)] := by
  simp only [addresses, h, operationSlice_eq h]

lemma addresses_of_none {id : LockId} (h : slice id = none) : addresses id = [] := by
  simp only [addresses, h]

lemma switchStep_of_none {r : Regs} {p : BitVec 16 × LockHdr} (h : slice p.2.id = none) :
    (switchStep r p).1 = r := by
  simp only [switchStep, ingressArrays, h]

lemma switchStep_of_slice {r : Regs} {p : BitVec 16 × LockHdr} {s : Fin 3}
    (h : slice p.2.id = some s) :
    (switchStep r p).1 = r.setCell s p.2.id (ingressCell (r.cell s p.2.id) p.2).cell := by
  simp only [switchStep, ingressArrays_eq, ingressPipe, h]

/-- Entries that belong to two ids belong to one. -/
lemma addresses_disjoint {a b : LockId} (hab : a ≠ b) :
    List.Disjoint (addresses a) (addresses b) := by
  cases ha : slice a with
  | none => simp [addresses_of_none ha]
  | some s =>
      cases hb : slice b with
      | none => simp [addresses_of_none hb]
      | some t =>
          have hidx : s = t → lockIndex a ≠ lockIndex b := by
            rintro rfl hi
            exact hab (eq_of_slice_of_lockIndex (ha.trans hb.symm) (by simp [ha]) hi)
          rw [addresses_of_slice ha, addresses_of_slice hb]
          simp only [List.disjoint_left, List.mem_cons, List.not_mem_nil, or_false]
          rintro x (rfl | rfl | rfl | rfl) <;> simp [hab] <;> exact hidx

/-- The id is in range exactly if it is below `3 * SLICE_SIZE`. -/
lemma slice_eq_none_iff {id : LockId} : slice id = none ↔ 3 * SLICE_SIZE ≤ id.toNat := by
  have hsh : (id >>> 19).toNat = id.toNat / 2 ^ 19 := by
    rw [BitVec.toNat_ushiftRight, Nat.shiftRight_eq_div_pow]
  have hne : ∀ n : ℕ, n < 3 → (id >>> 19 = BitVec.ofNat 32 n ↔ id.toNat / 2 ^ 19 = n) := by
    intro n hn
    rw [← hsh, ← BitVec.toNat_inj, BitVec.toNat_ofNat, Nat.mod_eq_of_lt (by omega)]
  have h0 := hne 0 (by omega)
  have h1 := hne 1 (by omega)
  have h2 := hne 2 (by omega)
  unfold slice SLICE_SIZE
  split_ifs with g0 g1 g2
  · have := h0.1 g0
    simp
    omega
  · have := h1.1 g1
    simp
    omega
  · have := h2.1 g2
    simp
    omega
  · have k0 := mt h0.2 g0
    have k1 := mt h1.2 g1
    have k2 := mt h2.2 g2
    simp
    omega

/-- Every entry that a packet selects is in its array. -/
lemma addresses_index_lt {id : LockId} {x : Addr} (hx : x ∈ addresses id) : x.index < x.size := by
  cases h : slice id with
  | none => simp [addresses_of_none h] at hx
  | some s =>
      have hid : id.toNat < 3 * SLICE_SIZE := by
        by_contra hge
        simp [slice_eq_none_iff.2 (not_lt.1 hge)] at h
      have hlt := (lockIndex id).isLt
      simp only [addresses_of_slice h, List.mem_cons, List.not_mem_nil, or_false] at hx
      rcases hx with rfl | rfl | rfl | rfl <;>
        simp only [Addr.index, Addr.size, SLICE_SIZE, SLICE_NUM] at * <;> omega

/-- The footprint of an id. -/
def foot (id : LockId) : Set Addr := {x | x ∈ addresses id}

/-- Two register files agree on the footprint of an id if they have the same cell for it. -/
lemma agreeOn_foot_iff {id : LockId} {s : Fin 3} (h : slice id = some s) {r r' : Regs} :
    Noninterference.AgreeOn Regs.read (foot id) r r' ↔ r.cell s id = r'.cell s id := by
  simp only [Noninterference.AgreeOn, foot, addresses_of_slice h, Set.mem_ofPred_eq, List.mem_cons,
    List.not_mem_nil, or_false, forall_eq_or_imp, forall_eq, Regs.read, ofBool_setWidth_inj, Regs.cell,
    Cell.mk.injEq]
  tauto

/-- Writing a cell changes no entry outside of it. -/
lemma Regs.read_setCell_of_notMem {id : LockId} {s : Fin 3} (h : slice id = some s) (r : Regs)
    (c : Cell) {x : Addr} (hx : x ∉ foot id) : (r.setCell s id c).read x = r.read x := by
  simp only [foot, addresses_of_slice h, Set.mem_ofPred_eq, List.mem_cons, List.not_mem_nil, or_false,
    not_or] at hx
  cases x with
  | lockFreeModeArray i =>
      have hi : i ≠ id := by simpa using hx.1
      simp [Regs.read, Regs.setCell, hi]
  | lockRwModeArray i =>
      have hi : i ≠ id := by simpa using hx.2.1
      simp [Regs.read, Regs.setCell, hi]
  | notificationCnt t i =>
      have hi : t = s → i ≠ lockIndex id := by simpa using hx.2.2.1
      simp only [Regs.read, Regs.setCell]
      by_cases ht : t = s
      · subst ht
        simp [hi rfl]
      · simp [ht]
  | lockAgentArray t i =>
      have hi : t = s → i ≠ lockIndex id := by simpa using hx.2.2.2
      simp only [Regs.read, Regs.setCell]
      by_cases ht : t = s
      · subst ht
        simp [hi rfl]
      · simp [ht]

/-- **The Tofino plane has footprints.**  What a packet does to the registers, and what leaves, is a
matter of the entries that its id selects. -/
theorem switchStep_footprint :
    Noninterference.Footprint switchStep Regs.read (fun p => p.2.id) foot where
  frame := by
    intro r p x hx
    cases h : slice p.2.id with
    | none => rw [switchStep_of_none h]
    | some s => rw [switchStep_of_slice h, Regs.read_setCell_of_notMem h _ _ hx]
  content := by
    intro r r' p hr
    cases h : slice p.2.id with
    | none => rwa [switchStep_of_none h, switchStep_of_none h]
    | some s =>
        rw [agreeOn_foot_iff h] at hr ⊢
        simp only [switchStep_of_slice h, Regs.cell_setCell, hr]
  answer := by
    intro r r' p hr
    cases h : slice p.2.id with
    | none => simp only [switchStep, ingressArrays, ingressArraysPort, h]
    | some s =>
        have hc : r.cell s p.2.id = r'.cell s p.2.id := (agreeOn_foot_iff h).1 hr
        have hport : ∀ r : Regs, ingressArraysPort r p.2 p.1
            = ingressPort (r.cell s p.2.id) p.2 p.1 := by
          intro r
          simp only [ingressArraysPort, h, operationSlice_eq h, Regs.cell]
        simp only [switchStep, ingressArrays_eq, ingressPipe, h, hport, hc]
  disjoint := by
    intro a b hab
    rw [Set.disjoint_left]
    intro x hx hx'
    exact addresses_disjoint hab hx hx'

end Tofino

namespace Bmv2

/-! ## The UDP port on BMv2 -/

/-- The port that the action of `lock_op_table` writes. -/
def lockOpPort (x : Ctx) (port : BitVec 16) : BitVec 16 :=
  match x.hdr.type, x.md.pktMode, x.md.lockFreeMode, x.md.lockRwMode with
  | .acquire, _, LOCK_FREE, _ => Tofino.UDP_PORT_CLIENT
  | .acquire, LOCK_SHARED, LOCK_ACQUIRED, LOCK_SHARED => port
  | .acquire, _, LOCK_ACQUIRED, _ => Tofino.UDP_PORT_SERVER
  | .release, false, LOCK_ACQUIRED, _ => Tofino.UDP_PORT_SERVER
  | .transfer, _, LOCK_ACQUIRED, _ => Tofino.UDP_PORT_CLIENT
  | _, _, _, _ => port

/-- The port after steps ① to ④, for an id in range. -/
def ingressPort (c : Cell) (hdr : Hdr) (port : BitVec 16) : BitVec 16 :=
  let x := counterClearTable (counterTable (initPacket c hdr))
  if (x.hdr.type = .transfer ∨ x.hdr.type = .free) ∧ x.md.pktOldMode = LOCK_SHARED
      ∧ x.md.agentChanged = false then port
  else if x.hdr.type = .grantWoAgent then port
  else lockOpPort (rwTable (if x.hdr.type ≠ .free then doAcquire x else doRelease x)) port

/-- The port after `FissIngress`; an id out of range keeps it. -/
def fissIngressPort (r : Regs) (hdr : Hdr) (port : BitVec 16) : BitVec 16 :=
  if outOfRange hdr.id then port else ingressPort (r.cell (hdr.id &&& SLICE_MASK)) hdr port

/-- The port after `FissEgress`, on the copy with replica id `rid`. -/
def egressPort (rid : ℕ) (x : Ctx) (port : BitVec 16) : BitVec 16 :=
  if x.md.multicasted ∧ rid = 2 then Tofino.UDP_PORT_CLIENT
  else if x.md.multicasted ∧ rid = 1 then Tofino.UDP_PORT_SERVER
  else port

/-- Step ⑤ and the egress: the packets that leave, each with the port of the switch and its UDP
port. -/
def emitUdp (x : Ctx) (port : BitVec 16) : List (BitVec 9 × BitVec 16 × Hdr) :=
  if x.md.multicasted then
    mcastSharedGrant.map fun m => (m.2, egressPort m.1 x port, fissEgress m.1 x)
  else
    let eg := if x.hdr.agent = 0 then x.hdr.machineId else x.hdr.agent
    [(eg.setWidth 9, egressPort 0 x port, fissEgress 0 x)]

/-- A lock packet through the switch: the registers, and the packets that leave. -/
def switchStep (r : Regs) (p : BitVec 16 × Hdr) : Regs × List (BitVec 9 × BitVec 16 × Hdr) :=
  let o := fissIngress r p.2
  (o.1, emitUdp o.2 (fissIngressPort r p.2 p.1))

/-- But for the UDP ports these are the packets of `emit`. -/
theorem emitUdp_emit (x : Ctx) (port : BitVec 16) :
    (emitUdp x port).map (fun q => (q.1, q.2.2)) = emit x := by
  unfold emitUdp emit
  split_ifs <;> simp

/-! ## The registers of the BMv2 plane -/

/-- The register entries of the plane. -/
inductive Addr where
  | lockFreeReg (i : BitVec 32)
  | lockRwReg (i : BitVec 32)
  | lockAgentReg (i : BitVec 32)
  | notificationCntReg (i : BitVec 32)
  deriving DecidableEq, Repr

/-- The index of an entry; every array has 1024 of them. -/
def Addr.index : Addr → ℕ
  | lockFreeReg i => i.toNat
  | lockRwReg i => i.toNat
  | lockAgentReg i => i.toNat
  | notificationCntReg i => i.toNat

/-- The content of an entry; a bit as a byte. -/
def Regs.read (r : Regs) : Addr → BitVec 8
  | .lockFreeReg i => (BitVec.ofBool (r.lockFreeReg i)).setWidth 8
  | .lockRwReg i => (BitVec.ofBool (r.lockRwReg i)).setWidth 8
  | .lockAgentReg i => r.lockAgentReg i
  | .notificationCntReg i => r.notificationCntReg i

/-- The entries that a packet with this id selects. -/
def addresses (id : LockId) : List Addr :=
  if outOfRange id then []
  else
    [.lockFreeReg (id &&& SLICE_MASK), .lockRwReg (id &&& SLICE_MASK),
      .lockAgentReg (id &&& SLICE_MASK), .notificationCntReg (id &&& SLICE_MASK)]

/-- The footprint of an id. -/
def foot (id : LockId) : Set Addr := {x | x ∈ addresses id}

/-! ## The footprint of a packet on BMv2 -/

lemma addresses_of_lt {id : LockId} (h : id.toNat < 1024) :
    addresses id = [.lockFreeReg id, .lockRwReg id, .lockAgentReg id, .notificationCntReg id] := by
  rw [addresses, if_neg (by simp [outOfRange_eq_false.2 h]), and_mask_of_lt h]

lemma addresses_of_outOfRange {id : LockId} (h : outOfRange id = true) : addresses id = [] := by
  rw [addresses, if_pos h]

/-- An id is out of range, or it is the index of its cell. -/
lemma outOfRange_or_lt (id : LockId) : outOfRange id = true ∨ id.toNat < 1024 := by
  rw [← outOfRange_eq_false]
  exact Bool.eq_false_or_eq_true (outOfRange id)

lemma addresses_disjoint {a b : LockId} (hab : a ≠ b) :
    List.Disjoint (addresses a) (addresses b) := by
  rcases outOfRange_or_lt a with ha | ha
  · simp [addresses_of_outOfRange ha]
  rcases outOfRange_or_lt b with hb | hb
  · simp [addresses_of_outOfRange hb]
  rw [addresses_of_lt ha, addresses_of_lt hb]
  simp only [List.disjoint_left, List.mem_cons, List.not_mem_nil, or_false]
  rintro x (rfl | rfl | rfl | rfl) <;> simp [hab]

lemma addresses_index_lt {id : LockId} {x : Addr} (hx : x ∈ addresses id) : x.index < 1024 := by
  rcases outOfRange_or_lt id with h | h
  · simp [addresses_of_outOfRange h] at hx
  · simp only [addresses_of_lt h, List.mem_cons, List.not_mem_nil, or_false] at hx
    rcases hx with rfl | rfl | rfl | rfl <;> exact h

lemma switchStep_of_outOfRange {r : Regs} {p : BitVec 16 × Hdr} (h : outOfRange p.2.id = true) :
    (switchStep r p).1 = r := by
  rw [switchStep, fissIngress, if_pos h]

lemma switchStep_of_lt {r : Regs} {p : BitVec 16 × Hdr} (h : p.2.id.toNat < 1024) :
    (switchStep r p).1 = r.setCell p.2.id (ingressCell (r.cell p.2.id) p.2).cell := by
  rw [switchStep, fissIngress, if_neg (by simp [outOfRange_eq_false.2 h]), and_mask_of_lt h]

lemma agreeOn_foot_iff {id : LockId} (h : id.toNat < 1024) {r r' : Regs} :
    Noninterference.AgreeOn Regs.read (foot id) r r' ↔ r.cell id = r'.cell id := by
  simp only [Noninterference.AgreeOn, foot, addresses_of_lt h, Set.mem_ofPred_eq, List.mem_cons,
    List.not_mem_nil, or_false, forall_eq_or_imp, forall_eq, Regs.read, ofBool_setWidth_inj, Regs.cell,
    Cell.mk.injEq]

lemma Regs.read_setCell_of_notMem {id : LockId} (h : id.toNat < 1024) (r : Regs) (c : Cell) {x : Addr}
    (hx : x ∉ foot id) : (r.setCell id c).read x = r.read x := by
  simp only [foot, addresses_of_lt h, Set.mem_ofPred_eq, List.mem_cons, List.not_mem_nil, or_false,
    not_or] at hx
  cases x with
  | lockFreeReg i =>
      have hi : i ≠ id := by simpa using hx.1
      simp [Regs.read, Regs.setCell, hi]
  | lockRwReg i =>
      have hi : i ≠ id := by simpa using hx.2.1
      simp [Regs.read, Regs.setCell, hi]
  | lockAgentReg i =>
      have hi : i ≠ id := by simpa using hx.2.2.1
      simp [Regs.read, Regs.setCell, hi]
  | notificationCntReg i =>
      have hi : i ≠ id := by simpa using hx.2.2.2
      simp [Regs.read, Regs.setCell, hi]

/-- **The BMv2 plane has footprints.** -/
theorem switchStep_footprint :
    Noninterference.Footprint switchStep Regs.read (fun p => p.2.id) foot where
  frame := by
    intro r p x hx
    rcases outOfRange_or_lt p.2.id with h | h
    · rw [switchStep_of_outOfRange h]
    · rw [switchStep_of_lt h, Regs.read_setCell_of_notMem h _ _ hx]
  content := by
    intro r r' p hr
    rcases outOfRange_or_lt p.2.id with h | h
    · rwa [switchStep_of_outOfRange h, switchStep_of_outOfRange h]
    · rw [agreeOn_foot_iff h] at hr ⊢
      simp only [switchStep_of_lt h, Regs.cell_setCell, hr]
  answer := by
    intro r r' p hr
    rcases outOfRange_or_lt p.2.id with h | h
    · simp only [switchStep, fissIngress, fissIngressPort, h, if_true]
    · have hc : r.cell p.2.id = r'.cell p.2.id := (agreeOn_foot_iff h).1 hr
      have hin : outOfRange p.2.id = false := outOfRange_eq_false.2 h
      simp only [switchStep, fissIngress, fissIngressPort, hin, and_mask_of_lt h, hc,
        Bool.false_eq_true, if_false]
  disjoint := by
    intro a b hab
    rw [Set.disjoint_left]
    intro x hx hx'
    exact addresses_disjoint hab hx hx'

end Bmv2

/-! ## Isolation -/

open Noninterference (run)

/-- **Locks do not interfere on the switch.**  Take any packets, on either plane, from any
registers.  The register entries of an id end as they do when only the packets with this id arrive,
and these are answered with the same packets.  Two ids share no register entry, all entries are
within their arrays, and an id out of range changes no register. -/
theorem lock_isolation (a : LockId) :
    (∀ (r : Tofino.Regs) (ps : List (BitVec 16 × LockHdr)),
      (∀ x ∈ Tofino.addresses a, (run Tofino.switchStep r ps).1.read x
        = (run Tofino.switchStep r (ps.filter (·.2.id = a))).1.read x)
      ∧ (run Tofino.switchStep r ps).2.filter (·.1.2.id = a)
        = (run Tofino.switchStep r (ps.filter (·.2.id = a))).2)
    ∧ (∀ (r : Bmv2.Regs) (ps : List (BitVec 16 × Bmv2.Hdr)),
      (∀ x ∈ Bmv2.addresses a, (run Bmv2.switchStep r ps).1.read x
        = (run Bmv2.switchStep r (ps.filter (·.2.id = a))).1.read x)
      ∧ (run Bmv2.switchStep r ps).2.filter (·.1.2.id = a)
        = (run Bmv2.switchStep r (ps.filter (·.2.id = a))).2)
    ∧ (∀ b, a ≠ b → List.Disjoint (Tofino.addresses a) (Tofino.addresses b)
      ∧ List.Disjoint (Bmv2.addresses a) (Bmv2.addresses b))
    ∧ (∀ x ∈ Tofino.addresses a, x.index < x.size)
    ∧ (∀ x ∈ Bmv2.addresses a, x.index < 1024)
    ∧ (Tofino.slice a = none → ∀ r p, p.2.id = a → (Tofino.switchStep r p).1 = r)
    ∧ (Bmv2.outOfRange a = true → ∀ r p, p.2.id = a → (Bmv2.switchStep r p).1 = r) := by
  refine ⟨?_, ?_, ?_, ?_, ?_, ?_, ?_⟩
  · intro r ps
    exact Tofino.switchStep_footprint.run_filter a ps fun _ _ => rfl
  · intro r ps
    exact Bmv2.switchStep_footprint.run_filter a ps fun _ _ => rfl
  · intro b hab
    exact ⟨Tofino.addresses_disjoint hab, Bmv2.addresses_disjoint hab⟩
  · intro x hx
    exact Tofino.addresses_index_lt hx
  · intro x hx
    exact Bmv2.addresses_index_lt hx
  · rintro h r p rfl
    exact Tofino.switchStep_of_none h
  · rintro h r p rfl
    exact Bmv2.switchStep_of_outOfRange h

end FissLock
