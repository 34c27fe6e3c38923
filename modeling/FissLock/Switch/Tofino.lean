import FissLock.Wire.Post

/-!
# The Tofino data plane

`switch/p4`: the ingress pipeline with its counter and lock-operation tables, the multicast groups
that `control/bfrt.c` creates, and the egress rewriting of the copies.

A packet touches one entry of each register, so the pipeline is written on a `Cell`, the four
register entries of one lock.  `Regs` is the whole register file, where the entries of a lock sit
in one of three slices (`CounterTable_1/2/3` and `LockOperation_1/2/3` are the same control with
another register instance each); `ingressPipe` is the ingress on it and `ingressPipe_cell` says
that it acts on the cell of the packet's id as `ingressCell` does and leaves all others alone.

The second half is the **specification of the plane by packet type**: `process_acquire_free`,
`process_acquire_shared`, `process_acquire_fwd`, `process_release`, `process_grantWoAgent`,
`process_pushedBack`, `process_transfer` and `process_free` together say what a switch does with
every packet it can receive in the lock protocol.  Nothing after this file unfolds a table.
-/

namespace FissLock

/-- `LOCK_FREE` and `LOCK_ACQUIRED`, the values of the free register. -/
@[match_pattern] abbrev LOCK_FREE : Bool := false

@[inherit_doc LOCK_FREE, match_pattern] abbrev LOCK_ACQUIRED : Bool := true

/-- `LOCK_SHARED` and `LOCK_EXCL`, the values of the mode register and of the mode bits. -/
@[match_pattern] abbrev LOCK_SHARED : Bool := false

@[inherit_doc LOCK_SHARED, match_pattern] abbrev LOCK_EXCL : Bool := true

/-- The four register entries that belong to one lock. -/
structure Cell where
  free : Bool
  rw : Bool
  agent : HostId
  ncnt : BitVec 8
  deriving DecidableEq, Repr

/-- All registers start at zero. -/
def Cell.init : Cell := { free := LOCK_FREE, rw := LOCK_SHARED, agent := 0, ncnt := 0 }

/-- The part of `metadata_t` that the lock pipeline uses. -/
structure Metadata where
  dest2 : BitVec 16 := 0
  lockFreeMode : Bool := false
  lockRwMode : Bool := false
  lockAgent : HostId := 0
  agentChanged : Bool := false
  deriving DecidableEq, Repr

namespace Tofino

/-- A packet on its way through the ingress, with the register entries of its lock. -/
structure Ctx where
  cell : Cell
  hdr : LockHdr
  md : Metadata
  deriving DecidableEq, Repr

/-! ## `counter.p4` -/

/-- `count_ncnt`. -/
def newNotification (x : Ctx) : Ctx := { x with cell.ncnt := x.cell.ncnt + 1 }

/-- `reset_ncnt`. -/
def resetNotificationCnt (x : Ctx) : Ctx := { x with cell.ncnt := 0 }

/-- `cmp_ncnt`: compare, and clear when equal, in one register action. -/
def getNotificationCnt (x : Ctx) : Ctx :=
  if x.cell.ncnt = x.hdr.ncnt then { x with cell.ncnt := 0, md.agentChanged := true }
  else { x with md.agentChanged := false }

/-- `counter_table_1`, and its copies `_2` and `_3`. -/
def counterTable (x : Ctx) : Ctx :=
  match x.hdr.type, x.hdr.mode, x.hdr.oldMode with
  | .acquire, LOCK_SHARED, false => newNotification x
  | .acquire, LOCK_SHARED, true => newNotification x
  | .transfer, LOCK_SHARED, LOCK_SHARED => getNotificationCnt x
  | .transfer, LOCK_SHARED, LOCK_EXCL => resetNotificationCnt x
  | .transfer, LOCK_EXCL, LOCK_SHARED => getNotificationCnt x
  | .transfer, LOCK_EXCL, LOCK_EXCL => resetNotificationCnt x
  | .free, LOCK_SHARED, LOCK_SHARED => getNotificationCnt x
  | .free, LOCK_SHARED, LOCK_EXCL => resetNotificationCnt x
  | .free, LOCK_EXCL, LOCK_SHARED => getNotificationCnt x
  | .free, LOCK_EXCL, LOCK_EXCL => resetNotificationCnt x
  | _, _, _ => x

/-! ## The free and mode registers of `ingress.p4` -/

/-- `acquire_lock`. -/
def acquireLock (x : Ctx) : Ctx :=
  { x with md.lockFreeMode := x.cell.free, cell.free := LOCK_ACQUIRED }

/-- `release_lock`. -/
def releaseLock (x : Ctx) : Ctx :=
  { x with md.lockFreeMode := x.cell.free, cell.free := LOCK_FREE }

/-- `lock_shared`. -/
def lockShared (x : Ctx) : Ctx :=
  { x with md.lockRwMode := x.cell.rw, cell.rw := LOCK_SHARED }

/-- `lock_excl`. -/
def lockExcl (x : Ctx) : Ctx := { x with md.lockRwMode := x.cell.rw, cell.rw := LOCK_EXCL }

/-- `lock_mode_get`. -/
def lockModeGet (x : Ctx) : Ctx := { x with md.lockRwMode := x.cell.rw }

/-- `rw_table`. -/
def rwTable (x : Ctx) : Ctx :=
  match x.hdr.type, x.md.lockFreeMode, x.hdr.mode with
  | .transfer, LOCK_ACQUIRED, LOCK_SHARED => lockShared x
  | .transfer, LOCK_ACQUIRED, LOCK_EXCL => lockExcl x
  | .free, LOCK_ACQUIRED, LOCK_SHARED => lockShared x
  | .free, LOCK_ACQUIRED, LOCK_EXCL => lockExcl x
  | .acquire, LOCK_FREE, LOCK_SHARED => lockShared x
  | .acquire, LOCK_FREE, LOCK_EXCL => lockExcl x
  | .acquire, LOCK_ACQUIRED, LOCK_SHARED => lockModeGet x
  | .acquire, LOCK_ACQUIRED, LOCK_EXCL => lockModeGet x
  | _, _, _ => x

/-! ## `lock.p4` -/

/-- `set_lock_agent`. -/
def setLockAgent (x : Ctx) : Ctx := { x with cell.agent := x.md.lockAgent }

/-- `new_agent`. -/
def newAgent (x : Ctx) : Ctx :=
  let x := setLockAgent x
  { x with hdr := { x.hdr with
      agent := x.hdr.machineId, type := .grantWithAgent, transferred := false } }

/-- `mcast_to_agent`. -/
def mcastToAgent (x : Ctx) : Ctx :=
  { x with
    md.dest2 := x.hdr.machineId.setWidth 16
    hdr := { x.hdr with
      multicasted := true, agent := x.cell.agent, type := .grantWoAgent } }

/-- `fwd_to_agent`. -/
def fwdToAgent (x : Ctx) : Ctx := { x with hdr := { x.hdr with agent := x.cell.agent } }

/-- `transfer_agent`. -/
def transferAgent (x : Ctx) : Ctx :=
  let x := setLockAgent x
  { x with hdr := { x.hdr with
      agent := x.hdr.machineId, type := .grantWithAgent, transferred := true } }

/-- `reset_agent`. -/
def resetAgent (x : Ctx) : Ctx :=
  let x := setLockAgent { x with md.lockAgent := 0 }
  { x with hdr := { x.hdr with agent := 0 } }

/-- `lock_operation_1`, and its copies `_2` and `_3`. -/
def lockOperation (x : Ctx) : Ctx :=
  match x.hdr.type, x.hdr.mode, x.md.lockFreeMode, x.md.lockRwMode with
  | .acquire, LOCK_SHARED, LOCK_FREE, false => newAgent x
  | .acquire, LOCK_SHARED, LOCK_FREE, true => newAgent x
  | .acquire, LOCK_EXCL, LOCK_FREE, false => newAgent x
  | .acquire, LOCK_EXCL, LOCK_FREE, true => newAgent x
  | .acquire, LOCK_SHARED, LOCK_ACQUIRED, LOCK_SHARED => mcastToAgent x
  | .acquire, LOCK_SHARED, LOCK_ACQUIRED, LOCK_EXCL => fwdToAgent x
  | .acquire, LOCK_EXCL, LOCK_ACQUIRED, LOCK_SHARED => fwdToAgent x
  | .acquire, LOCK_EXCL, LOCK_ACQUIRED, LOCK_EXCL => fwdToAgent x
  | .release, false, LOCK_ACQUIRED, LOCK_SHARED => fwdToAgent x
  | .release, false, LOCK_ACQUIRED, LOCK_EXCL => fwdToAgent x
  | .transfer, LOCK_SHARED, LOCK_ACQUIRED, LOCK_SHARED => transferAgent x
  | .transfer, LOCK_SHARED, LOCK_ACQUIRED, LOCK_EXCL => transferAgent x
  | .transfer, LOCK_EXCL, LOCK_ACQUIRED, LOCK_SHARED => transferAgent x
  | .transfer, LOCK_EXCL, LOCK_ACQUIRED, LOCK_EXCL => transferAgent x
  | .free, LOCK_SHARED, LOCK_ACQUIRED, LOCK_SHARED => resetAgent x
  | .free, LOCK_SHARED, LOCK_ACQUIRED, LOCK_EXCL => resetAgent x
  | .free, LOCK_EXCL, LOCK_ACQUIRED, LOCK_SHARED => resetAgent x
  | .free, LOCK_EXCL, LOCK_ACQUIRED, LOCK_EXCL => resetAgent x
  | _, _, _, _ => x

/-! ## `IngressPipe.apply` -/

/-- Step ①: the flags that every packet starts with. -/
def initPacket (c : Cell) (hdr : LockHdr) : Ctx where
  cell := c
  hdr := { hdr with multicasted := false, granted := false }
  md := {}

/-- Steps ④ and ⑤: the free register, the mode register, the state machine. -/
def lockStages (x : Ctx) : Ctx :=
  let x := if x.hdr.type ≠ .free then acquireLock x else releaseLock x
  let x := rwTable x
  lockOperation { x with md.lockAgent := x.hdr.machineId }

/-- The ingress for an id that one of the three slices serves. -/
def ingressCell (c : Cell) (hdr : LockHdr) : Ctx :=
  let x := counterTable (initPacket c hdr)
  if (x.hdr.type = .transfer ∨ x.hdr.type = .free) ∧ x.hdr.oldMode = LOCK_SHARED
      ∧ x.md.agentChanged = false then
    -- the counts differ, so a notification is still on its way: back to the sender
    x
  else if x.hdr.type = .grantWoAgent then
    { x with hdr := { x.hdr with agent := x.hdr.machineId } }
  else lockStages x

/-- There is a first slice. -/
instance sliceNum_neZero : NeZero 3 := ⟨by decide⟩

/-- The register file.  The free and mode arrays are addressed by the whole id, the counter and the
agent arrays of each slice by its low 19 bits. -/
structure Regs where
  lockFreeModeArray : LockId → Bool
  lockRwModeArray : LockId → Bool
  notificationCnt : Fin 3 → BitVec 19 → BitVec 8
  lockAgentArray : Fin 3 → BitVec 19 → HostId

/-- All registers zero. -/
def Regs.init : Regs where
  lockFreeModeArray := fun _ => LOCK_FREE
  lockRwModeArray := fun _ => LOCK_SHARED
  notificationCnt := fun _ _ => 0
  lockAgentArray := fun _ _ => 0

/-- Step ②: which slice serves an id, by `id[31:SLICE_SIZE_POW2]`; `none` is `lock_out_of_range`. -/
def slice (id : LockId) : Option (Fin 3) :=
  if id >>> 19 = 0 then some 0
  else if id >>> 19 = 1 then some 1
  else if id >>> 19 = 2 then some 2
  else none

/-- `lock_index`: the id with the bits from `SLICE_SIZE_POW2` on cleared. -/
def lockIndex (id : LockId) : BitVec 19 := id.setWidth 19

/-- The register entries of a lock of slice `s`. -/
def Regs.cell (r : Regs) (s : Fin 3) (id : LockId) : Cell where
  free := r.lockFreeModeArray id
  rw := r.lockRwModeArray id
  agent := r.lockAgentArray s (lockIndex id)
  ncnt := r.notificationCnt s (lockIndex id)

/-- Write the register entries of a lock of slice `s`. -/
def Regs.setCell (r : Regs) (s : Fin 3) (id : LockId) (c : Cell) : Regs where
  lockFreeModeArray := Function.update r.lockFreeModeArray id c.free
  lockRwModeArray := Function.update r.lockRwModeArray id c.rw
  notificationCnt := Function.update r.notificationCnt s
    (Function.update (r.notificationCnt s) (lockIndex id) c.ncnt)
  lockAgentArray := Function.update r.lockAgentArray s
    (Function.update (r.lockAgentArray s) (lockIndex id) c.agent)

/-- `IngressPipe.apply` on the whole register file.  For an id out of range only the UDP port of a
`GRANT_WO_AGENT` would change. -/
def ingressPipe (r : Regs) (hdr : LockHdr) : Regs × LockHdr × Metadata :=
  match slice hdr.id with
  | none => (r, (initPacket Cell.init hdr).hdr, {})
  | some s =>
      let x := ingressCell (r.cell s hdr.id) hdr
      (r.setCell s hdr.id x.cell, x.hdr, x.md)

/-! ## Traffic manager and egress -/

/-- A host id that the cluster has. -/
def isHost (h : HostId) : Bool := decide (1 ≤ h.toNat ∧ h.toNat ≤ HOST_NUM)

/-- All hosts of the cluster. -/
def allHosts : List HostId := (List.range HOST_NUM).map fun i => BitVec.ofNat 8 (i + 1)

/-- `setup_mgrps`: the members of a multicast group, each with its replica id.  The groups 0, 128
and 192 are reserved and empty. -/
def mgrp (g : BitVec 16) : List (HostId × ℕ) :=
  if 1 ≤ g.toNat ∧ g.toNat ≤ HOST_NUM then [(g.setWidth 8, 1)]
  else if 129 ≤ g.toNat ∧ g.toNat ≤ 128 + HOST_NUM then [((g - 128).setWidth 8, 2)]
  else if 193 ≤ g.toNat ∧ g.toNat ≤ 192 + HOST_NUM then
    (allHosts.filter (· ≠ (g - 192).setWidth 8)).map fun h => (h, 0)
  else if g = 255 then allHosts.map fun h => (h, 0)
  else []

/-- `EgressPipe.apply` on the copy with replica id `rid`. -/
def egressPipe (rid : ℕ) (hdr : LockHdr) : LockHdr :=
  if hdr.multicasted ∧ rid = 2 then { hdr with type := .grantWoAgent, multicasted := false }
  else if hdr.multicasted ∧ rid = 1 then
    { hdr with type := .acquire, multicasted := false, granted := true }
  else hdr

/-- Step ⑥: the copies made for `mcast_grp_a = agent` and `mcast_grp_b = dest2 + 128`, each sent
through the egress. -/
def replicate (hdr : LockHdr) (md : Metadata) : List (HostId × LockHdr) :=
  (mgrp (hdr.agent.setWidth 16) ++ mgrp (md.dest2 + 128)).map fun m =>
    (m.1, egressPipe m.2 hdr)

/-- One packet through the switch: the register entries of its lock afterwards, and what leaves. -/
def process (c : Cell) (hdr : LockHdr) : Cell × List (HostId × LockHdr) :=
  let x := ingressCell c hdr
  (x.cell, replicate x.hdr x.md)

/-! ## The register file and the cell -/

@[simp] lemma Regs.cell_setCell (r : Regs) (s : Fin 3) (id : LockId) (c : Cell) :
    (r.setCell s id c).cell s id = c := by
  simp [Regs.cell, Regs.setCell]

/-- Two ids of one slice with the same index are the same id. -/
lemma eq_of_slice_of_lockIndex {id id' : LockId} (hs : slice id = slice id') (hr : slice id ≠ none)
    (hi : lockIndex id = lockIndex id') : id = id' := by
  have hsh : id >>> 19 = id' >>> 19 := by
    unfold slice at hs hr
    split_ifs at hs hr <;> simp_all
  have h1 := congrArg BitVec.toNat hsh
  have h2 := congrArg BitVec.toNat hi
  simp only [lockIndex, BitVec.toNat_setWidth, BitVec.toNat_ushiftRight,
    Nat.shiftRight_eq_div_pow] at h1 h2
  apply BitVec.eq_of_toNat_eq
  omega

lemma Regs.cell_setCell_ne (r : Regs) {s s' : Fin 3} {id id' : LockId} (c : Cell)
    (h : slice id = some s) (h' : slice id' = some s') (hne : id' ≠ id) :
    (r.setCell s id c).cell s' id' = r.cell s' id' := by
  by_cases hs : s' = s
  · subst hs
    have hi : lockIndex id' ≠ lockIndex id := fun hi =>
      hne (eq_of_slice_of_lockIndex (h'.trans h.symm) (by simp [h']) hi)
    simp [Regs.cell, Regs.setCell, hne, hi]
  · simp [Regs.cell, Regs.setCell, hne, hs]

/-- **The pipeline acts on one cell.**  The ingress changes the register entries of the packet's id
as `ingressCell` says and those of no other in-range id. -/
theorem ingressPipe_cell (r : Regs) (hdr : LockHdr) {s : Fin 3} (h : slice hdr.id = some s) :
    (ingressPipe r hdr).1.cell s hdr.id = (ingressCell (r.cell s hdr.id) hdr).cell
      ∧ ∀ id' s', slice id' = some s' → id' ≠ hdr.id →
          (ingressPipe r hdr).1.cell s' id' = r.cell s' id' := by
  simp only [ingressPipe, h]
  exact ⟨r.cell_setCell s hdr.id _, fun id' s' h' hne => r.cell_setCell_ne _ h h' hne⟩

/-! ## What the tables leave alone -/

lemma counterTable_hdr (x : Ctx) : (counterTable x).hdr = x.hdr := by
  rw [counterTable]
  split
  all_goals first | rfl | (rw [getNotificationCnt]; split <;> rfl)

lemma rwTable_hdr (x : Ctx) : (rwTable x).hdr = x.hdr := by
  rw [rwTable]
  split <;> rfl

/-! ## Delivery to one or two hosts -/

lemma isHost_iff {h : HostId} : isHost h = true ↔ 1 ≤ h.toNat ∧ h.toNat ≤ HOST_NUM := by
  simp [isHost]

lemma mgrp_agent {h : HostId} (hh : isHost h = true) : mgrp (h.setWidth 16) = [(h, 1)] := by
  rw [isHost_iff] at hh
  have h16 : (h.setWidth 16).toNat = h.toNat := by
    simp only [BitVec.toNat_setWidth]
    have := h.isLt
    omega
  have hw : (h.setWidth 16).setWidth 8 = h := by
    apply BitVec.eq_of_toNat_eq
    have := h.isLt
    simp only [BitVec.toNat_setWidth] at h16 ⊢
    omega
  rw [mgrp, h16, if_pos hh, hw]

lemma mgrp_client {h : HostId} (hh : isHost h = true) :
    mgrp (h.setWidth 16 + 128#16) = [(h, 2)] := by
  rw [isHost_iff] at hh
  simp only [HOST_NUM] at hh
  have hn : (h.setWidth 16 + 128#16).toNat = h.toNat + 128 := by
    have h128 : (128#16).toNat = 128 := rfl
    simp only [BitVec.toNat_add, BitVec.toNat_setWidth, h128]
    omega
  have hw : (h.setWidth 16 + 128#16 - 128).setWidth 8 = h := by
    apply BitVec.eq_of_toNat_eq
    have := h.isLt
    have hc : h.setWidth 16 + 128#16 - 128 = h.setWidth 16 := BitVec.add_sub_cancel _ _
    simp only [hc, BitVec.toNat_setWidth]
    omega
  rw [mgrp, hn, if_neg (by simp only [HOST_NUM]; omega), if_pos (by simp only [HOST_NUM]; omega),
    hw]

@[simp] lemma mgrp_zero : mgrp 0#16 = [] := by decide

@[simp] lemma mgrp_128 : mgrp 128#16 = [] := by decide

/-- With `dest2 = 0` only the agent's copy leaves. -/
lemma replicate_agent {hdr : LockHdr} {md : Metadata} (hm : hdr.multicasted = false)
    (hd : md.dest2 = 0) (hh : isHost hdr.agent = true) :
    replicate hdr md = [(hdr.agent, hdr)] := by
  simp [replicate, hd, mgrp_agent hh, egressPipe, hm]

/-! ## The plane by packet type

Hypotheses of the form `isHost h` say that a copy is sent to a host that exists; in the protocol
every host id in a packet is one.
-/

/-- The packet as every branch of the ingress sees it, flags cleared. -/
def cleared (hdr : LockHdr) : LockHdr := { hdr with multicasted := false, granted := false }

/-- What the counter holds after an `ACQUIRE`: shared ones are counted, granted or not. -/
def countAcquire (c : Cell) (hdr : LockHdr) : BitVec 8 := if hdr.mode then c.ncnt else c.ncnt + 1

/-- A request for a free lock: granted, and the requester becomes the agent. -/
theorem process_acquire_free {c : Cell} {hdr : LockHdr} (ht : hdr.type = .acquire)
    (hf : c.free = LOCK_FREE) (hm : isHost hdr.machineId = true) :
    process c hdr
      = ({ free := LOCK_ACQUIRED, rw := hdr.mode, agent := hdr.machineId
           ncnt := countAcquire c hdr },
         [(hdr.machineId, { cleared hdr with
            type := .grantWithAgent, agent := hdr.machineId, transferred := false })]) := by
  cases hmode : hdr.mode <;> cases hold : hdr.oldMode <;> cases hrw : c.rw <;>
    simp [process, ingressCell, counterTable, initPacket, lockStages, rwTable, lockOperation,
      newNotification, acquireLock, lockShared, lockExcl, newAgent, setLockAgent, ht, hf, hmode,
      hold, hrw, countAcquire, cleared] <;>
    exact replicate_agent rfl rfl hm

/-- A shared request for a lock held in shared mode: granted by the switch, which tells the agent
and the requester. -/
theorem process_acquire_shared {c : Cell} {hdr : LockHdr} (ht : hdr.type = .acquire)
    (hf : c.free = LOCK_ACQUIRED) (hmode : hdr.mode = LOCK_SHARED) (hrw : c.rw = LOCK_SHARED)
    (ha : isHost c.agent = true) (hm : isHost hdr.machineId = true) :
    process c hdr
      = ({ c with ncnt := c.ncnt + 1 },
         [(c.agent, { hdr with multicasted := false, granted := true, agent := c.agent }),
          (hdr.machineId, { cleared hdr with type := .grantWoAgent, agent := c.agent })]) := by
  obtain ⟨free, rw, agent, ncnt⟩ := c
  obtain ⟨type, mc, gr, tr, old, mode, id, mid, tid, ag, wq, n⟩ := hdr
  simp only at ht hf hmode hrw ha hm
  subst ht hf hmode hrw
  cases old <;>
    simp [process, ingressCell, counterTable, initPacket, lockStages, rwTable, lockOperation,
      newNotification, acquireLock, lockModeGet, mcastToAgent, cleared, replicate, mgrp_agent ha,
      mgrp_client hm, egressPipe]

/-- Any other request for a lock that is taken goes to the agent, unanswered. -/
theorem process_acquire_fwd {c : Cell} {hdr : LockHdr} (ht : hdr.type = .acquire)
    (hf : c.free = LOCK_ACQUIRED) (hx : hdr.mode = LOCK_EXCL ∨ c.rw = LOCK_EXCL)
    (ha : isHost c.agent = true) :
    process c hdr
      = ({ c with ncnt := countAcquire c hdr },
         [(c.agent, { cleared hdr with agent := c.agent })]) := by
  obtain ⟨free, rw, agent, ncnt⟩ := c
  obtain ⟨type, mc, gr, tr, old, mode, id, mid, tid, ag, wq, n⟩ := hdr
  simp only at ht hf hx ha
  subst ht hf
  cases mode <;> cases rw <;> cases old <;>
    simp_all [process, ingressCell, counterTable, initPacket, lockStages, rwTable, lockOperation,
      newNotification, acquireLock, lockModeGet, fwdToAgent, cleared, countAcquire,
      replicate_agent]

/-- A release for a lock that is taken goes to the agent and changes no register. -/
theorem process_release {c : Cell} {hdr : LockHdr} (ht : hdr.type = .release)
    (hf : c.free = LOCK_ACQUIRED) (hmode : hdr.mode = false) (ha : isHost c.agent = true) :
    process c hdr = (c, [(c.agent, { cleared hdr with agent := c.agent })]) := by
  obtain ⟨free, rw, agent, ncnt⟩ := c
  obtain ⟨type, mc, gr, tr, old, mode, id, mid, tid, ag, wq, n⟩ := hdr
  simp only at ht hf hmode ha
  subst ht hf hmode
  simp [process, ingressCell, counterTable, initPacket, lockStages, rwTable, lockOperation,
    acquireLock, fwdToAgent, cleared, replicate_agent, ha]

/-- A grant that an agent sends on behalf of its queue passes through. -/
theorem process_grantWoAgent {c : Cell} {hdr : LockHdr} (ht : hdr.type = .grantWoAgent)
    (hm : isHost hdr.machineId = true) :
    process c hdr = (c, [(hdr.machineId, { cleared hdr with agent := hdr.machineId })]) := by
  obtain ⟨type, mc, gr, tr, old, mode, id, mid, tid, ag, wq, n⟩ := hdr
  simp only at ht hm
  subst ht
  simp [process, ingressCell, counterTable, initPacket, cleared, replicate_agent, hm]

/-- The test that decides whether a `FREE` or `TRANSFER` is pushed back. -/
def pushedBack (c : Cell) (hdr : LockHdr) : Bool :=
  decide (hdr.oldMode = LOCK_SHARED ∧ c.ncnt ≠ hdr.ncnt)

/-- The plane's own flag says the same: a shared `FREE` or `TRANSFER` is accepted when its count
matches. -/
lemma agentChanged_iff {c : Cell} {hdr : LockHdr} (ht : hdr.type = .transfer ∨ hdr.type = .free)
    (ho : hdr.oldMode = LOCK_SHARED) :
    (ingressCell c hdr).md.agentChanged = true ↔ pushedBack c hdr = false := by
  obtain ⟨free, rw, agent, ncnt⟩ := c
  obtain ⟨type, mc, gr, tr, old, mode, id, mid, tid, ag, wq, n⟩ := hdr
  simp only at ht ho
  subst ho
  by_cases hn : ncnt = n <;> rcases ht with rfl | rfl <;> cases mode <;> cases free <;> cases rw <;>
    simp [pushedBack, ingressCell, counterTable, initPacket, getNotificationCnt, lockStages,
      rwTable, lockOperation, acquireLock, releaseLock, lockShared, lockExcl, transferAgent,
      resetAgent, setLockAgent, hn]

/-- A `FREE` or `TRANSFER` whose count is behind goes back to the sender and changes no
register. -/
theorem process_pushedBack {c : Cell} {hdr : LockHdr}
    (ht : hdr.type = .transfer ∨ hdr.type = .free) (hp : pushedBack c hdr = true)
    (ha : isHost hdr.agent = true) : process c hdr = (c, [(hdr.agent, cleared hdr)]) := by
  obtain ⟨free, rw, agent, ncnt⟩ := c
  obtain ⟨type, mc, gr, tr, old, mode, id, mid, tid, ag, wq, n⟩ := hdr
  simp only [pushedBack, decide_eq_true_eq] at ht hp ha
  obtain ⟨rfl, hn⟩ := hp
  rcases ht with rfl | rfl <;> cases mode <;>
    simp [process, ingressCell, counterTable, initPacket, getNotificationCnt, cleared,
      replicate_agent, ha, hn]

/-- A `TRANSFER` that is not pushed back moves the agency of a taken lock to the host it names. -/
theorem process_transfer {c : Cell} {hdr : LockHdr} (ht : hdr.type = .transfer)
    (hp : pushedBack c hdr = false) (hf : c.free = LOCK_ACQUIRED)
    (hm : isHost hdr.machineId = true) :
    process c hdr
      = ({ free := LOCK_ACQUIRED, rw := hdr.mode, agent := hdr.machineId, ncnt := 0 },
         [(hdr.machineId, { cleared hdr with
            type := .grantWithAgent, agent := hdr.machineId, transferred := true })]) := by
  obtain ⟨free, rw, agent, ncnt⟩ := c
  obtain ⟨type, mc, gr, tr, old, mode, id, mid, tid, ag, wq, n⟩ := hdr
  simp only [pushedBack, decide_eq_false_iff_not, not_and, not_not] at ht hp hf hm
  subst ht hf
  cases old <;> cases mode <;> cases rw <;>
    simp_all [process, ingressCell, counterTable, initPacket, getNotificationCnt,
      resetNotificationCnt, lockStages, rwTable, lockOperation, acquireLock, lockShared, lockExcl,
      transferAgent, setLockAgent, cleared, replicate_agent]

/-- A `FREE` that is not pushed back frees a taken lock and is delivered to nobody. -/
theorem process_free {c : Cell} {hdr : LockHdr} (ht : hdr.type = .free)
    (hp : pushedBack c hdr = false) (hf : c.free = LOCK_ACQUIRED) :
    process c hdr = ({ free := LOCK_FREE, rw := hdr.mode, agent := 0, ncnt := 0 }, []) := by
  obtain ⟨free, rw, agent, ncnt⟩ := c
  obtain ⟨type, mc, gr, tr, old, mode, id, mid, tid, ag, wq, n⟩ := hdr
  simp only [pushedBack, decide_eq_false_iff_not, not_and, not_not] at ht hp hf
  subst ht hf
  cases old <;> cases mode <;> cases rw <;>
    simp_all [process, ingressCell, counterTable, initPacket, getNotificationCnt,
      resetNotificationCnt, lockStages, rwTable, lockOperation, releaseLock, lockShared, lockExcl,
      resetAgent, setLockAgent, replicate]

end Tofino
end FissLock
