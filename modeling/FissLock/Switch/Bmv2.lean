import FissLock.Switch.Tofino

/-!
# The BMv2 data plane

`switch/p4_bmv2/fisslock_bmv2.p4`, the single-file v1model version of the lock pipeline, with the
multicast group that `setup/multicast.txt` configures.  It serves the ids below 1024.

It was written to follow the Tofino plane but differs from it in four places.

* The flags and modes are not parsed into bits: `mode_old_mode` stays one byte that the actions
  mask (`Bmv2.Hdr`).  `Hdr.parse` reads the fields of `LockHdr` from it and `Hdr.ofPost` lays them
  out.
* Comparing the counter and clearing it are two tables.
* There is one multicast group for all pairs of agent and requester: its copies always leave
  through port 1 and port 2.
* A packet whose `agent` is zero is sent to `machine_id` instead of being dropped, so a host sees
  its own accepted `FREE` again.

`ingressCell_parse` says that in spite of the first two the registers of a lock evolve as in the
Tofino plane, packet by packet; `planes_agree` is the same for whole packet sequences and whole
register files.
-/

namespace FissLock
namespace Bmv2

/-- `lock_hdr_t` of `fisslock_bmv2.p4`; in `mode_old_mode`, bit 0 is the mode, bit 1 the old mode,
bit 5 `transferred` and bit 6 `granted`.  `wq` is the wait queue behind the header. -/
structure Hdr where
  type : PostType
  modeOldMode : BitVec 8
  id : LockId
  machineId : HostId
  taskId : TaskId
  agent : HostId
  wq : List Wqe
  ncnt : BitVec 8
  deriving DecidableEq, Repr

/-- The fields as the Tofino parser, and the macros of `post.h`, read them. -/
def Hdr.parse (h : Hdr) : LockHdr where
  type := h.type
  multicasted := h.modeOldMode.getLsbD 7
  granted := h.modeOldMode.getLsbD 6
  transferred := h.modeOldMode.getLsbD 5
  oldMode := h.modeOldMode.getLsbD 1
  mode := h.modeOldMode.getLsbD 0
  id := h.id
  machineId := h.machineId
  taskId := h.taskId
  agent := h.agent
  wq := h.wq
  ncnt := h.ncnt

/-- The byte `mode_old_mode`, reserved bits clear. -/
def modeByte (multicasted granted transferred oldMode mode : Bool) : BitVec 8 :=
  BitVec.ofBool multicasted ++ BitVec.ofBool granted ++ BitVec.ofBool transferred ++ 0#3
    ++ BitVec.ofBool oldMode ++ BitVec.ofBool mode

/-- The packet as a host lays it out. -/
def Hdr.ofPost (p : LockHdr) : Hdr where
  type := p.type
  modeOldMode := modeByte p.multicasted p.granted p.transferred p.oldMode p.mode
  id := p.id
  machineId := p.machineId
  taskId := p.taskId
  agent := p.agent
  wq := p.wq
  ncnt := p.ncnt

/-- The struct `metadata`. -/
structure Metadata where
  dest2 : BitVec 16 := 0
  lockFreeMode : Bool := false
  lockRwMode : Bool := false
  lockAgent : HostId := 0
  agentChanged : Bool := false
  pktMode : Bool
  pktOldMode : Bool
  multicasted : Bool := false
  deriving DecidableEq, Repr

/-- A packet on its way through the ingress, with the register entries of its lock. -/
structure Ctx where
  cell : Cell
  hdr : Hdr
  md : Metadata
  deriving DecidableEq, Repr

/-! ## Actions and tables of `FissIngress` -/

/-- `do_acquire`. -/
def doAcquire (x : Ctx) : Ctx :=
  { x with md.lockFreeMode := x.cell.free, cell.free := LOCK_ACQUIRED }

/-- `do_release`. -/
def doRelease (x : Ctx) : Ctx := { x with md.lockFreeMode := x.cell.free, cell.free := LOCK_FREE }

/-- `rw_set_shared`. -/
def rwSetShared (x : Ctx) : Ctx := { x with md.lockRwMode := x.cell.rw, cell.rw := LOCK_SHARED }

/-- `rw_set_excl`. -/
def rwSetExcl (x : Ctx) : Ctx := { x with md.lockRwMode := x.cell.rw, cell.rw := LOCK_EXCL }

/-- `rw_get_mode`. -/
def rwGetMode (x : Ctx) : Ctx := { x with md.lockRwMode := x.cell.rw }

/-- `cnt_new`. -/
def cntNew (x : Ctx) : Ctx := { x with cell.ncnt := x.cell.ncnt + 1 }

/-- `cnt_reset`. -/
def cntReset (x : Ctx) : Ctx := { x with cell.ncnt := 0 }

/-- `cnt_cmp_eval`: only the comparison. -/
def cntCmpEval (x : Ctx) : Ctx := { x with md.agentChanged := decide (x.cell.ncnt = x.hdr.ncnt) }

/-- `counter_table`. -/
def counterTable (x : Ctx) : Ctx :=
  match x.hdr.type, x.md.pktMode, x.md.pktOldMode with
  | .acquire, LOCK_SHARED, false => cntNew x
  | .acquire, LOCK_SHARED, true => cntNew x
  | .transfer, LOCK_SHARED, LOCK_SHARED => cntCmpEval x
  | .transfer, LOCK_SHARED, LOCK_EXCL => cntReset x
  | .transfer, LOCK_EXCL, LOCK_SHARED => cntCmpEval x
  | .transfer, LOCK_EXCL, LOCK_EXCL => cntReset x
  | .free, LOCK_SHARED, LOCK_SHARED => cntCmpEval x
  | .free, LOCK_SHARED, LOCK_EXCL => cntReset x
  | .free, LOCK_EXCL, LOCK_SHARED => cntCmpEval x
  | .free, LOCK_EXCL, LOCK_EXCL => cntReset x
  | _, _, _ => x

/-- `counter_clear_table`. -/
def counterClearTable (x : Ctx) : Ctx := if x.md.agentChanged then cntReset x else x

/-- `agent_write`. -/
def agentWrite (x : Ctx) : Ctx := { x with cell.agent := x.md.lockAgent }

/-- `op_new_agent`. -/
def opNewAgent (x : Ctx) : Ctx :=
  let x := agentWrite x
  { x with hdr := { x.hdr with
      agent := x.hdr.machineId
      type := .grantWithAgent
      modeOldMode := x.hdr.modeOldMode &&& 0xDF#8 } }

/-- `op_mcast_to_agent`. -/
def opMcastToAgent (x : Ctx) : Ctx :=
  { x with
    md := { x.md with dest2 := x.hdr.machineId.setWidth 16, multicasted := true }
    hdr := { x.hdr with agent := x.cell.agent, type := .grantWoAgent } }

/-- `op_fwd_to_agent`. -/
def opFwdToAgent (x : Ctx) : Ctx := { x with hdr := { x.hdr with agent := x.cell.agent } }

/-- `op_transfer_agent`. -/
def opTransferAgent (x : Ctx) : Ctx :=
  let x := agentWrite x
  { x with hdr := { x.hdr with
      agent := x.hdr.machineId
      type := .grantWithAgent
      modeOldMode := x.hdr.modeOldMode ||| 0x20#8 } }

/-- `op_reset_agent`. -/
def opResetAgent (x : Ctx) : Ctx :=
  { x with md.lockAgent := 0, cell.agent := 0, hdr := { x.hdr with agent := 0 } }

/-- `rw_table`. -/
def rwTable (x : Ctx) : Ctx :=
  match x.hdr.type, x.md.lockFreeMode, x.md.pktMode with
  | .transfer, LOCK_ACQUIRED, LOCK_SHARED => rwSetShared x
  | .transfer, LOCK_ACQUIRED, LOCK_EXCL => rwSetExcl x
  | .free, LOCK_ACQUIRED, LOCK_SHARED => rwSetShared x
  | .free, LOCK_ACQUIRED, LOCK_EXCL => rwSetExcl x
  | .acquire, LOCK_FREE, LOCK_SHARED => rwSetShared x
  | .acquire, LOCK_FREE, LOCK_EXCL => rwSetExcl x
  | .acquire, LOCK_ACQUIRED, LOCK_SHARED => rwGetMode x
  | .acquire, LOCK_ACQUIRED, LOCK_EXCL => rwGetMode x
  | _, _, _ => x

/-- `lock_op_table`. -/
def lockOpTable (x : Ctx) : Ctx :=
  match x.hdr.type, x.md.pktMode, x.md.lockFreeMode, x.md.lockRwMode with
  | .acquire, LOCK_SHARED, LOCK_FREE, false => opNewAgent x
  | .acquire, LOCK_SHARED, LOCK_FREE, true => opNewAgent x
  | .acquire, LOCK_EXCL, LOCK_FREE, false => opNewAgent x
  | .acquire, LOCK_EXCL, LOCK_FREE, true => opNewAgent x
  | .acquire, LOCK_SHARED, LOCK_ACQUIRED, LOCK_SHARED => opMcastToAgent x
  | .acquire, LOCK_SHARED, LOCK_ACQUIRED, LOCK_EXCL => opFwdToAgent x
  | .acquire, LOCK_EXCL, LOCK_ACQUIRED, LOCK_SHARED => opFwdToAgent x
  | .acquire, LOCK_EXCL, LOCK_ACQUIRED, LOCK_EXCL => opFwdToAgent x
  | .release, false, LOCK_ACQUIRED, LOCK_SHARED => opFwdToAgent x
  | .release, false, LOCK_ACQUIRED, LOCK_EXCL => opFwdToAgent x
  | .transfer, LOCK_SHARED, LOCK_ACQUIRED, LOCK_SHARED => opTransferAgent x
  | .transfer, LOCK_SHARED, LOCK_ACQUIRED, LOCK_EXCL => opTransferAgent x
  | .transfer, LOCK_EXCL, LOCK_ACQUIRED, LOCK_SHARED => opTransferAgent x
  | .transfer, LOCK_EXCL, LOCK_ACQUIRED, LOCK_EXCL => opTransferAgent x
  | .free, LOCK_SHARED, LOCK_ACQUIRED, LOCK_SHARED => opResetAgent x
  | .free, LOCK_SHARED, LOCK_ACQUIRED, LOCK_EXCL => opResetAgent x
  | .free, LOCK_EXCL, LOCK_ACQUIRED, LOCK_SHARED => opResetAgent x
  | .free, LOCK_EXCL, LOCK_ACQUIRED, LOCK_EXCL => opResetAgent x
  | _, _, _, _ => x

/-! ## `FissIngress.apply` -/

/-- Step ①: the per-packet metadata. -/
def initPacket (c : Cell) (hdr : Hdr) : Ctx where
  cell := c
  hdr := hdr
  md := { pktMode := hdr.modeOldMode.getLsbD 0, pktOldMode := hdr.modeOldMode.getLsbD 1 }

/-- Step ④: the free register, the mode register, the state machine. -/
def lockStages (x : Ctx) : Ctx :=
  let x := if x.hdr.type ≠ .free then doAcquire x else doRelease x
  let x := rwTable x
  lockOpTable { x with md.lockAgent := x.hdr.machineId }

/-- Steps ① to ④ for an id in range. -/
def ingressCell (c : Cell) (hdr : Hdr) : Ctx :=
  let x := counterClearTable (counterTable (initPacket c hdr))
  if (x.hdr.type = .transfer ∨ x.hdr.type = .free) ∧ x.md.pktOldMode = LOCK_SHARED
      ∧ x.md.agentChanged = false then
    -- stale: no operation on the lock, only forwarded
    x
  else if x.hdr.type = .grantWoAgent then
    { x with hdr := { x.hdr with agent := x.hdr.machineId } }
  else lockStages x

/-- `SLICE_MASK`. -/
def SLICE_MASK : BitVec 32 := 0x3FF

/-- `SLICE_HIGH_MASK`. -/
def SLICE_HIGH_MASK : BitVec 32 := 0xFFFFFC00

/-- `lock_out_of_range`. -/
def outOfRange (id : LockId) : Bool := decide (id &&& SLICE_HIGH_MASK ≠ 0)

/-- The register file: four arrays of 1024 entries, addressed by `id & SLICE_MASK`. -/
structure Regs where
  lockFreeReg : BitVec 32 → Bool
  lockRwReg : BitVec 32 → Bool
  lockAgentReg : BitVec 32 → HostId
  notificationCntReg : BitVec 32 → BitVec 8

/-- All registers zero. -/
def Regs.init : Regs where
  lockFreeReg := fun _ => LOCK_FREE
  lockRwReg := fun _ => LOCK_SHARED
  lockAgentReg := fun _ => 0
  notificationCntReg := fun _ => 0

/-- The register entries with this index. -/
def Regs.cell (r : Regs) (idx : BitVec 32) : Cell where
  free := r.lockFreeReg idx
  rw := r.lockRwReg idx
  agent := r.lockAgentReg idx
  ncnt := r.notificationCntReg idx

/-- Write the register entries with this index. -/
def Regs.setCell (r : Regs) (idx : BitVec 32) (c : Cell) : Regs where
  lockFreeReg := Function.update r.lockFreeReg idx c.free
  lockRwReg := Function.update r.lockRwReg idx c.rw
  lockAgentReg := Function.update r.lockAgentReg idx c.agent
  notificationCntReg := Function.update r.notificationCntReg idx c.ncnt

/-- `FissIngress` up to the forwarding, on the whole register file. -/
def fissIngress (r : Regs) (hdr : Hdr) : Regs × Ctx :=
  if outOfRange hdr.id then (r, initPacket Cell.init hdr)
  else
    let x := ingressCell (r.cell (hdr.id &&& SLICE_MASK)) hdr
    (r.setCell (hdr.id &&& SLICE_MASK) x.cell, x)

/-! ## Forwarding and egress -/

/-- The group `MCAST_SHARED_GRANT` of `multicast.txt`: replica ids and ports. -/
def mcastSharedGrant : List (ℕ × BitVec 9) := [(1, 1), (2, 2)]

/-- `FissEgress.apply` on the copy with replica id `rid`. -/
def fissEgress (rid : ℕ) (x : Ctx) : Hdr :=
  if x.md.multicasted then
    if rid = 2 then { x.hdr with type := .grantWoAgent }
    else if rid = 1 then
      { x.hdr with type := .acquire, modeOldMode := x.hdr.modeOldMode ||| 0x40#8 }
    else x.hdr
  else x.hdr

/-- Step ⑤ and the egress: the packets that leave, each with its port.  A unicast packet has replica
id 0. -/
def emit (x : Ctx) : List (BitVec 9 × Hdr) :=
  if x.md.multicasted then mcastSharedGrant.map fun m => (m.2, fissEgress m.1 x)
  else
    let eg := if x.hdr.agent = 0 then x.hdr.machineId else x.hdr.agent
    [(eg.setWidth 9, fissEgress 0 x)]

/-- One packet through the switch: the register entries of its lock afterwards, and what leaves. -/
def process (c : Cell) (hdr : Hdr) : Cell × List (BitVec 9 × Hdr) :=
  let x := if outOfRange hdr.id then initPacket c hdr else ingressCell c hdr
  (x.cell, emit x)

/-! ## The two planes -/

/-- A packet in the BMv2 ingress and one in the Tofino ingress that will have the same effect on the
registers. -/
structure Agrees (x : Ctx) (y : Tofino.Ctx) : Prop where
  cell : x.cell = y.cell
  type : x.hdr.type = y.hdr.type
  mode : x.md.pktMode = y.hdr.mode
  oldMode : x.md.pktOldMode = y.hdr.oldMode
  machineId : x.hdr.machineId = y.hdr.machineId
  ncnt : x.hdr.ncnt = y.hdr.ncnt
  freeMode : x.md.lockFreeMode = y.md.lockFreeMode
  rwMode : x.md.lockRwMode = y.md.lockRwMode
  agent : x.md.lockAgent = y.md.lockAgent
  changed : x.md.agentChanged = y.md.agentChanged

section Stages

variable {x : Ctx} {y : Tofino.Ctx}

lemma agrees_init (c : Cell) (hdr : Hdr) :
    Agrees (initPacket c hdr) (Tofino.initPacket c hdr.parse) := by
  constructor <;> rfl

/-- Comparing and clearing in two tables is comparing and clearing in one action. -/
lemma Agrees.counter (h : Agrees x y) (hx : x.md.agentChanged = false) :
    Agrees (counterClearTable (counterTable x)) (Tofino.counterTable y) := by
  have hnop : Agrees (counterClearTable x) y := by
    rw [counterClearTable, if_neg (by simp [hx])]
    exact h
  have hnew : Agrees (counterClearTable (cntNew x)) (Tofino.newNotification y) := by
    rw [counterClearTable, if_neg (by simp [cntNew, hx])]
    exact { h with cell := by rw [cntNew, Tofino.newNotification, h.cell] }
  have hreset : Agrees (counterClearTable (cntReset x)) (Tofino.resetNotificationCnt y) := by
    rw [counterClearTable, if_neg (by simp [cntReset, hx])]
    exact { h with cell := by rw [cntReset, Tofino.resetNotificationCnt, h.cell] }
  have hcmp : Agrees (counterClearTable (cntCmpEval x)) (Tofino.getNotificationCnt y) := by
    by_cases hn : y.cell.ncnt = y.hdr.ncnt
    · rw [counterClearTable, if_pos (by simp [cntCmpEval, h.cell, h.ncnt, hn]),
        Tofino.getNotificationCnt, if_pos hn]
      exact { h with
        cell := by rw [cntReset, cntCmpEval, h.cell]
        changed := by simp [cntReset, cntCmpEval, h.cell, h.ncnt, hn] }
    · rw [counterClearTable, if_neg (by simp [cntCmpEval, h.cell, h.ncnt, hn]),
        Tofino.getNotificationCnt, if_neg hn]
      exact { h with changed := by simp [cntCmpEval, h.cell, h.ncnt, hn] }
  rw [counterTable, Tofino.counterTable, h.type, h.mode, h.oldMode]
  cases y.hdr.type <;> cases y.hdr.mode <;> cases y.hdr.oldMode <;> assumption

/-- The free register. -/
lemma Agrees.free (h : Agrees x y) :
    Agrees (if x.hdr.type ≠ .free then doAcquire x else doRelease x)
      (if y.hdr.type ≠ .free then Tofino.acquireLock y else Tofino.releaseLock y) := by
  by_cases ht : y.hdr.type ≠ .free
  · rw [if_pos (h.type ▸ ht), if_pos ht]
    exact { h with
      cell := by rw [doAcquire, Tofino.acquireLock, h.cell]
      freeMode := by rw [doAcquire, Tofino.acquireLock, h.cell] }
  · rw [if_neg (h.type ▸ ht), if_neg ht]
    exact { h with
      cell := by rw [doRelease, Tofino.releaseLock, h.cell]
      freeMode := by rw [doRelease, Tofino.releaseLock, h.cell] }

/-- The mode register. -/
lemma Agrees.rw (h : Agrees x y) : Agrees (rwTable x) (Tofino.rwTable y) := by
  have hshared : Agrees (rwSetShared x) (Tofino.lockShared y) :=
    { h with
      cell := by rw [rwSetShared, Tofino.lockShared, h.cell]
      rwMode := by rw [rwSetShared, Tofino.lockShared, h.cell] }
  have hexcl : Agrees (rwSetExcl x) (Tofino.lockExcl y) :=
    { h with
      cell := by rw [rwSetExcl, Tofino.lockExcl, h.cell]
      rwMode := by rw [rwSetExcl, Tofino.lockExcl, h.cell] }
  have hget : Agrees (rwGetMode x) (Tofino.lockModeGet y) :=
    { h with rwMode := by rw [rwGetMode, Tofino.lockModeGet, h.cell] }
  rw [rwTable, Tofino.rwTable, h.type, h.freeMode, h.mode]
  cases y.hdr.type <;> cases y.md.lockFreeMode <;> cases y.hdr.mode <;> assumption

/-- The state machine. -/
lemma Agrees.lockOp (h : Agrees x y) : (lockOpTable x).cell = (Tofino.lockOperation y).cell := by
  have hwrite : (agentWrite x).cell = (Tofino.setLockAgent y).cell := by
    rw [agentWrite, Tofino.setLockAgent, h.cell, h.agent]
  have hreset : (opResetAgent x).cell = (Tofino.resetAgent y).cell := by
    rw [opResetAgent, Tofino.resetAgent, Tofino.setLockAgent, h.cell]
  have hkeep := h.cell
  rw [lockOpTable, Tofino.lockOperation, h.type, h.mode, h.freeMode, h.rwMode]
  cases y.hdr.type <;> cases y.hdr.mode <;> cases y.md.lockFreeMode <;> cases y.md.lockRwMode <;>
    assumption

lemma Agrees.lockStages (h : Agrees x y) :
    (lockStages x).cell = (Tofino.lockStages y).cell := by
  have hrw := h.free.rw
  refine Agrees.lockOp { hrw with agent := hrw.machineId }

end Stages

/-- **One packet.**  On the entries of one lock, the BMv2 ingress leaves the registers as the Tofino
ingress does. -/
theorem ingressCell_parse (c : Cell) (hdr : Hdr) :
    (ingressCell c hdr).cell = (Tofino.ingressCell c hdr.parse).cell := by
  have h := (agrees_init c hdr).counter rfl
  rw [ingressCell, Tofino.ingressCell, h.type, h.oldMode, h.changed]
  split
  · exact h.cell
  · split
    · exact h.cell
    · exact h.lockStages

lemma and_mask_toNat (id : LockId) : (id &&& SLICE_MASK).toNat = id.toNat % 1024 := by
  rw [BitVec.toNat_and]
  exact Nat.and_two_pow_sub_one_eq_mod id.toNat 10

lemma and_mask_of_lt {id : LockId} (h : id.toNat < 1024) : id &&& SLICE_MASK = id := by
  apply BitVec.eq_of_toNat_eq
  rw [and_mask_toNat, Nat.mod_eq_of_lt h]

/-- The plane serves the ids below 1024. -/
lemma outOfRange_eq_false {id : LockId} : outOfRange id = false ↔ id.toNat < 1024 := by
  rw [outOfRange, decide_eq_false_iff_not, not_not]
  constructor
  · intro h
    have hid : id = id &&& SLICE_MASK := by
      calc id = id &&& (SLICE_MASK ||| SLICE_HIGH_MASK) := by
            rw [show SLICE_MASK ||| SLICE_HIGH_MASK = BitVec.allOnes 32 from rfl,
              BitVec.and_allOnes]
        _ = id &&& SLICE_MASK ||| id &&& SLICE_HIGH_MASK := BitVec.and_or_distrib_left
        _ = id &&& SLICE_MASK := by rw [h]; exact BitVec.or_zero
    rw [hid, and_mask_toNat]
    exact Nat.mod_lt _ (by decide)
  · intro h
    rw [← and_mask_of_lt h, BitVec.and_assoc]
    exact BitVec.and_zero

lemma Regs.cell_setCell (r : Regs) (i j : BitVec 32) (c : Cell) :
    (r.setCell i c).cell j = if j = i then c else r.cell j := by
  by_cases h : j = i
  · subst h
    simp [Regs.cell, Regs.setCell]
  · simp [Regs.cell, Regs.setCell, h]

/-- What one packet does to the register entries of an in-range lock. -/
lemma fissIngress_cell (r : Regs) (hdr : Hdr) {lid : LockId} (h : lid.toNat < 1024) :
    (fissIngress r hdr).1.cell lid
      = if hdr.id = lid then (ingressCell (r.cell lid) hdr).cell else r.cell lid := by
  by_cases hr : hdr.id.toNat < 1024
  · rw [fissIngress, if_neg (by simp [outOfRange_eq_false.2 hr]), Regs.cell_setCell,
      and_mask_of_lt hr]
    by_cases hid : hdr.id = lid
    · rw [hid, if_pos rfl]
    · rw [if_neg (Ne.symm hid), if_neg hid]
  · have hid : hdr.id ≠ lid := by
      rintro rfl
      exact hr h
    rw [fissIngress, if_pos (by rwa [← Bool.not_eq_false, outOfRange_eq_false]), if_neg hid]

end Bmv2

/-- The Tofino counterpart: what one packet does to the entries of a lock of the first slice. -/
lemma Tofino.ingressPipe_cell_zero (r : Tofino.Regs) (hdr : LockHdr) {lid : LockId}
    (h : Tofino.slice lid = some 0) :
    (Tofino.ingressPipe r hdr).1.cell 0 lid
      = if hdr.id = lid then (Tofino.ingressCell (r.cell 0 lid) hdr).cell else r.cell 0 lid := by
  by_cases hid : hdr.id = lid
  · subst hid
    rw [if_pos rfl]
    exact (Tofino.ingressPipe_cell r hdr h).1
  · rw [if_neg hid]
    cases hs : Tofino.slice hdr.id with
    | none => rw [Tofino.ingressPipe, hs]
    | some s => exact (Tofino.ingressPipe_cell r hdr hs).2 lid 0 h (Ne.symm hid)

namespace Bmv2

lemma slice_of_lt {lid : LockId} (h : lid.toNat < 1024) : Tofino.slice lid = some 0 := by
  have hhigh : lid >>> 19 = 0 := by
    apply BitVec.eq_of_toNat_eq
    rw [BitVec.toNat_ushiftRight, Nat.shiftRight_eq_div_pow]
    exact Nat.div_eq_of_lt (by omega)
  rw [Tofino.slice, if_pos hhigh]

/-- One packet keeps the registers of the two planes equal, whatever id it carries. -/
lemma registers_agree_step {r : Regs} {r' : Tofino.Regs} {lid : LockId} (h : lid.toNat < 1024)
    (hr : r.cell lid = r'.cell 0 lid) (p : Hdr) :
    (fissIngress r p).1.cell lid = (Tofino.ingressPipe r' p.parse).1.cell 0 lid := by
  rw [fissIngress_cell r p h, Tofino.ingressPipe_cell_zero r' p.parse (slice_of_lt h), hr,
    ingressCell_parse]
  rfl

lemma registers_agree_run {lid : LockId} (h : lid.toNat < 1024) (ps : List Hdr) {r : Regs}
    {r' : Tofino.Regs} (hr : r.cell lid = r'.cell 0 lid) :
    (ps.foldl (fun r p => (fissIngress r p).1) r).cell lid
      = (ps.foldl (fun r p => (Tofino.ingressPipe r p.parse).1) r').cell 0 lid := by
  induction ps generalizing r r' with
  | nil => exact hr
  | cons p ps ih => exact ih (registers_agree_step h hr p)

/-- **The two planes run the same state machine.**  Whatever packets pass, with whatever ids, the
registers of every lock below 1024 hold the same values in both planes. -/
theorem planes_agree (ps : List Hdr) {lid : LockId} (h : lid.toNat < 1024) :
    (ps.foldl (fun r p => (fissIngress r p).1) Regs.init).cell lid
      = (ps.foldl (fun r p => (Tofino.ingressPipe r p.parse).1) Tofino.Regs.init).cell 0 lid :=
  registers_agree_run h ps rfl

theorem planes_agree_shared_grants :
    ([{ type := .acquire, modeOldMode := 0, id := 5, machineId := 1, taskId := 1, agent := 1, wq := []
        ncnt := 0 },
      { type := .acquire, modeOldMode := 0, id := 5, machineId := 2, taskId := 2, agent := 2, wq := []
        ncnt := 0 }].foldl (fun r p => (Tofino.ingressPipe r (Hdr.parse p)).1) Tofino.Regs.init).cell
        0 5
      = { free := LOCK_ACQUIRED, rw := LOCK_SHARED, agent := 1, ncnt := 2 } :=
  (planes_agree _ (show (5 : LockId).toNat < 1024 by decide)).symm.trans (by decide +kernel)

end Bmv2
end FissLock
