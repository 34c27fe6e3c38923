import FissLock.Switch.Bmv2

/-!
# What the BMv2 plane delivers

The Tofino plane and the BMv2 plane keep the same registers, but they do not deliver the same
packets.  `DeliveryAgrees` is what the hosts rely on: a shared grant is announced to the agent and
to the requester, a rejected `FREE` or `TRANSFER` goes back to its sender, and a host that receives
a `FREE` or `TRANSFER` may take it for a rejection.

The first part fails for every pair of agent and requester but one, since there is one static
multicast group; the last one fails for every `FREE` that frees a lock, since its `agent` field is
then zero and the plane falls back to `machine_id`, and for a `TRANSFER` of a lock that is free,
which is passed on after it has marked the lock as taken.  `delivery_agrees_iff` says that these are
the only cases.

The lemmas `process_*` are the specification of the plane by packet type.
-/

namespace FissLock
namespace Bmv2

open Tofino (pushedBack countAcquire)

/-- The port of a host: `host_id` and port number coincide. -/
def portOf (h : HostId) : BitVec 9 := h.setWidth 9

/-- `veth-switch`, `veth-h1` and `veth-h2`: the ports with a capture file, all of which every host
reads. -/
def hasFile (q : BitVec 9) : Bool := decide (q = 0 ∨ q = 1 ∨ q = 2)

/-- The ports behind which the two hosts are. -/
def isHostPort (q : BitVec 9) : Prop := q = 1 ∨ q = 2

/-- What hosts rely on when the plane, with the entries `c` of an in-range lock, handles `p`. -/
structure DeliveryAgrees (c : Cell) (p : Hdr) : Prop where
  /-- A shared request for a lock held in shared mode is announced to the agent and granted. -/
  sharedGrant : p.type = .acquire → p.parse.mode = LOCK_SHARED → c.free = LOCK_ACQUIRED →
    c.rw = LOCK_SHARED → (process c p).2.Perm
      [(portOf c.agent, { p with agent := c.agent, modeOldMode := p.modeOldMode ||| 0x40#8 }),
        (portOf p.machineId, { p with type := .grantWoAgent, agent := c.agent })]
  /-- A rejected packet goes back to its sender. -/
  rejected : p.type = .transfer ∨ p.type = .free → pushedBack c p.parse = true →
    (process c p).2 = [(portOf p.agent, p)]
  /-- A `FREE` or `TRANSFER` reaches a host only if it changed nothing. -/
  unchanged : ∀ x ∈ (process c p).2, x.2.type = .transfer ∨ x.2.type = .free → isHostPort x.1 →
    (process c p).1 = c

/-! ## Packets as the host lays them out -/

lemma modeByte_bits : ∀ mc gr tr old mode : Bool,
    (modeByte mc gr tr old mode).getLsbD 7 = mc ∧ (modeByte mc gr tr old mode).getLsbD 6 = gr
      ∧ (modeByte mc gr tr old mode).getLsbD 5 = tr ∧ (modeByte mc gr tr old mode).getLsbD 1 = old
      ∧ (modeByte mc gr tr old mode).getLsbD 0 = mode := by
  decide

/-- `& 0xDF` clears `transferred`. -/
lemma modeByte_and : ∀ mc gr tr old mode : Bool,
    modeByte mc gr tr old mode &&& 0xDF#8 = modeByte mc gr false old mode := by
  decide

/-- `| 0x20` sets it. -/
lemma modeByte_or : ∀ mc gr tr old mode : Bool,
    modeByte mc gr tr old mode ||| 0x20#8 = modeByte mc gr true old mode := by
  decide

lemma parse_ofPost (p : LockHdr) : (Hdr.ofPost p).parse = p := by
  obtain ⟨h7, h6, h5, h1, h0⟩ :=
    modeByte_bits p.multicasted p.granted p.transferred p.oldMode p.mode
  simp only [Hdr.parse, Hdr.ofPost, h7, h6, h5, h1, h0]

/-! ## The plane by packet type -/

section ByType

variable {c : Cell} {p : Hdr}

lemma process_inRange (hr : p.id.toNat < 1024) :
    process c p = ((ingressCell c p).cell, emit (ingressCell c p)) := by
  rw [process, if_neg (by simp [outOfRange_eq_false.2 hr])]

/-- A packet addressed to its own `machine_id` goes there, the fallback or not. -/
lemma fallback_self (h : HostId) : (if h = 0#8 then 0#8 else h) = h := by
  split
  · next h0 => exact h0.symm
  · rfl

lemma pushedBack_parse :
    pushedBack c p.parse = true ↔ p.modeOldMode.getLsbD 1 = LOCK_SHARED ∧ c.ncnt ≠ p.ncnt :=
  decide_eq_true_iff

lemma not_pushedBack_parse :
    pushedBack c p.parse = false ↔ (p.modeOldMode.getLsbD 1 = LOCK_SHARED → c.ncnt = p.ncnt) := by
  rw [← Bool.not_eq_true, pushedBack_parse, not_and, not_not]

/-- An id that the plane does not serve: the packet goes where it is addressed. -/
lemma process_outOfRange (hr : ¬ p.id.toNat < 1024) :
    process c p = (c, [(portOf (if p.agent = 0 then p.machineId else p.agent), p)]) := by
  rw [process, if_pos (by rwa [← Bool.not_eq_false, outOfRange_eq_false])]
  simp [emit, initPacket, fissEgress, portOf]

/-- A request for a free lock: granted, and the requester becomes the agent. -/
lemma process_acquire_free (hr : p.id.toNat < 1024) (ht : p.type = .acquire)
    (hf : c.free = LOCK_FREE) :
    process c p
      = ({ free := LOCK_ACQUIRED, rw := p.parse.mode, agent := p.machineId
           ncnt := countAcquire c p.parse },
         [(portOf p.machineId, { p with
            type := .grantWithAgent
            agent := p.machineId
            modeOldMode := p.modeOldMode &&& 0xDF#8 })]) := by
  obtain ⟨free, rw, agent, ncnt⟩ := c
  obtain ⟨type, b, id, mid, tid, ag, wq, n⟩ := p
  simp only at ht hf hr
  subst ht hf
  rw [process_inRange hr]
  cases ho : b.getLsbD 1 <;> cases hmode : b.getLsbD 0 <;> cases rw <;>
    simp only [ingressCell, initPacket, Hdr.parse, countAcquire, hmode, ho] <;>
    simp_all [counterTable, counterClearTable, cntNew, lockStages, doAcquire, rwTable, rwSetShared,
      rwSetExcl, lockOpTable, opNewAgent, agentWrite, emit, fissEgress, portOf, fallback_self]

/-- A request that the switch does not grant goes to the agent. -/
lemma process_acquire_fwd (hr : p.id.toNat < 1024) (ht : p.type = .acquire)
    (hf : c.free = LOCK_ACQUIRED) (hx : p.parse.mode = LOCK_EXCL ∨ c.rw = LOCK_EXCL) :
    process c p
      = ({ c with ncnt := countAcquire c p.parse },
         [(portOf (if c.agent = 0 then p.machineId else c.agent), { p with agent := c.agent })]) := by
  obtain ⟨free, rw, agent, ncnt⟩ := c
  obtain ⟨type, b, id, mid, tid, ag, wq, n⟩ := p
  simp only [Hdr.parse] at ht hf hx hr
  subst ht hf
  rw [process_inRange hr]
  cases ho : b.getLsbD 1 <;> cases hmode : b.getLsbD 0 <;> rw [hmode] at hx <;> cases rw <;>
    simp only [ingressCell, initPacket, Hdr.parse, countAcquire, hmode, ho] <;>
    simp_all [counterTable, counterClearTable, cntNew, lockStages, doAcquire, rwTable, rwGetMode,
      lockOpTable, opFwdToAgent, emit, fissEgress, portOf]

/-- A shared request for a lock held in shared mode: two copies, to ports 1 and 2. -/
lemma process_mcast (hr : p.id.toNat < 1024) (ht : p.type = .acquire)
    (hm : p.parse.mode = LOCK_SHARED) (hf : c.free = LOCK_ACQUIRED) (hrw : c.rw = LOCK_SHARED) :
    process c p
      = ({ c with ncnt := c.ncnt + 1 },
         [(1, { p with agent := c.agent, modeOldMode := p.modeOldMode ||| 0x40#8 }),
          (2, { p with type := .grantWoAgent, agent := c.agent })]) := by
  obtain ⟨free, rw, agent, ncnt⟩ := c
  obtain ⟨type, b, id, mid, tid, ag, wq, n⟩ := p
  simp only [Hdr.parse] at ht hm hf hrw hr
  subst ht hf hrw
  rw [process_inRange hr]
  cases ho : b.getLsbD 1 <;> simp only [ingressCell, initPacket, hm, ho] <;>
    simp [counterTable, counterClearTable, cntNew, lockStages, doAcquire, rwTable, rwGetMode,
      lockOpTable, opMcastToAgent, emit, mcastSharedGrant, fissEgress]

/-- A `FREE` or `TRANSFER` whose count is behind. -/
lemma process_stale (hr : p.id.toNat < 1024) (ht : p.type = .transfer ∨ p.type = .free)
    (hp : pushedBack c p.parse = true) (ha : p.agent ≠ 0) :
    process c p = (c, [(portOf p.agent, p)]) := by
  obtain ⟨ho, hn⟩ := pushedBack_parse.1 hp
  obtain ⟨free, rw, agent, ncnt⟩ := c
  obtain ⟨type, b, id, mid, tid, ag, wq, n⟩ := p
  simp only at ht ha hr ho hn
  have ha' : ¬ ag = 0#8 := ha
  rw [process_inRange hr]
  rcases ht with rfl | rfl <;> cases hm : b.getLsbD 0 <;>
    simp only [ingressCell, initPacket, hm, ho] <;>
    simp [counterTable, counterClearTable, cntCmpEval, emit, fissEgress, portOf, hn, ha']

/-- A `TRANSFER` that is not rejected moves the agency of a taken lock. -/
lemma process_transfer (hr : p.id.toNat < 1024) (ht : p.type = .transfer)
    (hp : pushedBack c p.parse = false) (hf : c.free = LOCK_ACQUIRED) :
    process c p
      = ({ free := LOCK_ACQUIRED, rw := p.parse.mode, agent := p.machineId, ncnt := 0 },
         [(portOf p.machineId, { p with
            type := .grantWithAgent
            agent := p.machineId
            modeOldMode := p.modeOldMode ||| 0x20#8 })]) := by
  rw [not_pushedBack_parse] at hp
  obtain ⟨free, rw, agent, ncnt⟩ := c
  obtain ⟨type, b, id, mid, tid, ag, wq, n⟩ := p
  simp only at ht hp hf hr
  subst ht hf
  rw [process_inRange hr]
  cases ho : b.getLsbD 1 <;> cases hmode : b.getLsbD 0 <;> cases rw <;>
    simp only [ingressCell, initPacket, Hdr.parse, hmode, ho] <;>
    simp_all [counterTable, counterClearTable, cntReset, cntCmpEval, lockStages, doAcquire, rwTable,
      rwSetShared, rwSetExcl, lockOpTable, opTransferAgent, agentWrite, emit, fissEgress, portOf,
      fallback_self]

/-- A `TRANSFER` of a free lock takes the lock and is passed on. -/
lemma process_transfer_free (hr : p.id.toNat < 1024) (ht : p.type = .transfer)
    (hp : pushedBack c p.parse = false) (hf : c.free = LOCK_FREE) (ha : p.agent ≠ 0) :
    process c p = ({ c with free := LOCK_ACQUIRED, ncnt := 0 }, [(portOf p.agent, p)]) := by
  rw [not_pushedBack_parse] at hp
  obtain ⟨free, rw, agent, ncnt⟩ := c
  obtain ⟨type, b, id, mid, tid, ag, wq, n⟩ := p
  simp only at ht hp hf ha hr
  subst ht hf
  rw [process_inRange hr]
  cases ho : b.getLsbD 1 <;> cases hmode : b.getLsbD 0 <;>
    simp only [ingressCell, initPacket, hmode, ho] <;>
    simp_all [counterTable, counterClearTable, cntReset, cntCmpEval, lockStages, doAcquire, rwTable,
      lockOpTable, emit, fissEgress, portOf]

/-- A `FREE` that is not rejected frees a taken lock, and is sent to `machine_id`. -/
lemma process_free (hr : p.id.toNat < 1024) (ht : p.type = .free)
    (hp : pushedBack c p.parse = false) (hf : c.free = LOCK_ACQUIRED) :
    process c p
      = ({ free := LOCK_FREE, rw := p.parse.mode, agent := 0, ncnt := 0 },
         [(portOf p.machineId, { p with agent := 0 })]) := by
  rw [not_pushedBack_parse] at hp
  obtain ⟨free, rw, agent, ncnt⟩ := c
  obtain ⟨type, b, id, mid, tid, ag, wq, n⟩ := p
  simp only at ht hp hf hr
  subst ht hf
  rw [process_inRange hr]
  cases ho : b.getLsbD 1 <;> cases hmode : b.getLsbD 0 <;> cases rw <;>
    simp only [ingressCell, initPacket, Hdr.parse, hmode, ho] <;>
    simp_all [counterTable, counterClearTable, cntReset, cntCmpEval, lockStages, doRelease, rwTable,
      rwSetShared, rwSetExcl, lockOpTable, opResetAgent, emit, fissEgress, portOf]

/-- A `FREE` of a free lock clears the counter and is passed on. -/
lemma process_free_free (hr : p.id.toNat < 1024) (ht : p.type = .free)
    (hp : pushedBack c p.parse = false) (hf : c.free = LOCK_FREE) (ha : p.agent ≠ 0) :
    process c p = ({ c with ncnt := 0 }, [(portOf p.agent, p)]) := by
  rw [not_pushedBack_parse] at hp
  obtain ⟨free, rw, agent, ncnt⟩ := c
  obtain ⟨type, b, id, mid, tid, ag, wq, n⟩ := p
  simp only at ht hp hf ha hr
  subst ht hf
  rw [process_inRange hr]
  cases ho : b.getLsbD 1 <;> cases hmode : b.getLsbD 0 <;>
    simp only [ingressCell, initPacket, hmode, ho] <;>
    simp_all [counterTable, counterClearTable, cntReset, cntCmpEval, lockStages, doRelease, rwTable,
      lockOpTable, emit, fissEgress, portOf]

lemma counterTable_hdr (x : Ctx) : (counterTable x).hdr = x.hdr := by
  rw [counterTable]
  split <;> rfl

lemma counterClearTable_hdr (x : Ctx) : (counterClearTable x).hdr = x.hdr := by
  rw [counterClearTable]
  split <;> rfl

lemma rwTable_hdr (x : Ctx) : (rwTable x).hdr = x.hdr := by
  rw [rwTable]
  split <;> rfl

/-- The state machine keeps the type of a packet or makes it a grant. -/
lemma lockOpTable_type (x : Ctx) :
    (lockOpTable x).hdr.type = x.hdr.type ∨ (lockOpTable x).hdr.type = .grantWithAgent
      ∨ (lockOpTable x).hdr.type = .grantWoAgent := by
  rw [lockOpTable]
  split <;> simp [opNewAgent, opMcastToAgent, opFwdToAgent, opTransferAgent, opResetAgent]

lemma lockStages_type (x : Ctx) :
    (lockStages x).hdr.type = x.hdr.type ∨ (lockStages x).hdr.type = .grantWithAgent
      ∨ (lockStages x).hdr.type = .grantWoAgent := by
  have hfree : (if x.hdr.type ≠ .free then doAcquire x else doRelease x).hdr = x.hdr := by
    split <;> rfl
  refine (lockOpTable_type _).imp (fun h => h.trans ?_) id
  simp only [rwTable_hdr, hfree]

lemma ingressCell_type (c : Cell) (p : Hdr) :
    (ingressCell c p).hdr.type = p.type ∨ (ingressCell c p).hdr.type = .grantWithAgent
      ∨ (ingressCell c p).hdr.type = .grantWoAgent := by
  have hcnt : (counterClearTable (counterTable (initPacket c p))).hdr.type = p.type := by
    rw [counterClearTable_hdr, counterTable_hdr]
    rfl
  rw [ingressCell]
  split
  · exact .inl hcnt
  · split
    · exact .inl hcnt
    · exact hcnt ▸ lockStages_type _

/-- Only a `FREE` or `TRANSFER` leaves the plane as one. -/
lemma type_of_mem_process (hr : p.id.toNat < 1024) {x : BitVec 9 × Hdr} (hx : x ∈ (process c p).2)
    (ht : x.2.type = .transfer ∨ x.2.type = .free) : p.type = .transfer ∨ p.type = .free := by
  rw [process_inRange hr] at hx
  have hin := ingressCell_type c p
  simp only [emit, mcastSharedGrant, fissEgress] at hx
  split at hx
  · -- the copies of a multicast are an `ACQUIRE` and a grant
    simp only [List.map_cons, List.map_nil, List.mem_cons, List.not_mem_nil, or_false] at hx
    rcases hx with rfl | rfl <;> simp at ht
  · rw [List.mem_singleton.1 hx] at ht
    rcases hin with h | h | h <;> simp_all

end ByType

/-! ## When delivery agrees with the protocol -/

/-- The cases in which the plane delivers what hosts expect. -/
def Deliverable (c : Cell) (p : Hdr) : Prop :=
  (p.type = .acquire → p.parse.mode = LOCK_SHARED → c.free = LOCK_ACQUIRED → c.rw = LOCK_SHARED →
    c.agent = 1 ∧ p.machineId = 2)
  ∧ (p.type = .transfer → pushedBack c p.parse = false → c.free = LOCK_ACQUIRED)
  ∧ (p.type = .free → pushedBack c p.parse = false → c.free = LOCK_FREE ∧ c.ncnt = 0)

section Agreement

variable {c : Cell} {p : Hdr}

lemma portOf_inj {h h' : HostId} (e : portOf h = portOf h') : h = h' := by
  have := congrArg (BitVec.setWidth 8) e
  simpa [portOf] using this

lemma isHostPort_portOf {h : HostId} (hh : h = 1 ∨ h = 2) : isHostPort (portOf h) :=
  hh.imp (fun h => by rw [h]; rfl) (fun h => by rw [h]; rfl)

lemma ne_zero_of_host {h : HostId} (hh : h = 1 ∨ h = 2) : h ≠ 0 := by
  rcases hh with rfl | rfl <;> decide

/-- The static group reaches agent and requester only if these are hosts 1 and 2. -/
lemma perm_mcast_iff {a m : HostId} {A B : Hdr} (hAB : A ≠ B) :
    [((1 : BitVec 9), A), (2, B)].Perm [(portOf a, A), (portOf m, B)] ↔ a = 1 ∧ m = 2 := by
  constructor
  · intro h
    have hA : (portOf a, A) ∈ [((1 : BitVec 9), A), (2, B)] := h.mem_iff.2 (by simp)
    have hB : (portOf m, B) ∈ [((1 : BitVec 9), A), (2, B)] := h.mem_iff.2 (by simp)
    simp only [List.mem_cons, Prod.mk.injEq, List.not_mem_nil, or_false, and_true, hAB,
      hAB.symm, and_false, false_or] at hA hB
    exact ⟨portOf_inj hA, portOf_inj hB⟩
  · rintro ⟨rfl, rfl⟩
    exact .refl _

/-- **BMv2 delivery, exactly.**  For every state of the registers and every packet between the two
hosts, the plane delivers what the hosts expect in the cases of `Deliverable`, and in no others. -/
theorem delivery_agrees_iff (hr : p.id.toNat < 1024) (hm : p.machineId = 1 ∨ p.machineId = 2)
    (ha : p.agent = 1 ∨ p.agent = 2) : DeliveryAgrees c p ↔ Deliverable c p := by
  have ha0 := ne_zero_of_host ha
  constructor
  · rintro ⟨hgrant, -, hun⟩
    refine ⟨fun ht hmode hf hrw => ?_, fun ht hp => ?_, fun ht hp => ?_⟩
    · have := hgrant ht hmode hf hrw
      rw [process_mcast hr ht hmode hf hrw] at this
      exact (perm_mcast_iff (by simp [ht])).1 this
    · by_contra hf
      rw [Bool.not_eq_true] at hf
      rw [process_transfer_free hr ht hp hf ha0] at hun
      have := congrArg Cell.free (hun _ List.mem_cons_self (.inl ht) (isHostPort_portOf ha))
      rw [hf] at this
      cases this
    · cases hf : c.free with
      | true =>
          rw [process_free hr ht hp hf] at hun
          have := congrArg Cell.free (hun _ List.mem_cons_self (.inr ht) (isHostPort_portOf hm))
          rw [hf] at this
          cases this
      | false =>
          rw [process_free_free hr ht hp hf ha0] at hun
          have := congrArg Cell.ncnt (hun _ List.mem_cons_self (.inr ht) (isHostPort_portOf ha))
          exact ⟨rfl, this.symm⟩
  · rintro ⟨hgrant, htr, hfr⟩
    refine ⟨fun ht hmode hf hrw => ?_, fun ht hp => ?_, fun x hx ht _ => ?_⟩
    · rw [process_mcast hr ht hmode hf hrw]
      exact (perm_mcast_iff (by simp [ht])).2 (hgrant ht hmode hf hrw)
    · rw [process_stale hr ht hp ha0]
    · -- what leaves as a `FREE` or `TRANSFER` came in as one
      have htype := type_of_mem_process hr hx ht
      cases hp : pushedBack c p.parse with
      | true => rw [process_stale hr htype hp ha0]
      | false =>
          rcases htype with htype | htype
          · rw [process_transfer hr htype hp (htr htype hp)] at hx
            rw [List.mem_singleton.1 hx] at ht
            simp at ht
          · obtain ⟨hf, hn⟩ := hfr htype hp
            rw [process_free_free hr htype hp hf ha0, ← hn]

end Agreement

/-- A shared request of host 2 for a lock whose agent is host 1. -/
def sharedAcquire : Hdr where
  type := .acquire
  modeOldMode := 0
  id := 7
  machineId := 2
  taskId := 2
  agent := 2
  wq := []
  ncnt := 0

theorem delivery_agrees_iff_shared :
    DeliveryAgrees { free := LOCK_ACQUIRED, rw := LOCK_SHARED, agent := 1, ncnt := 1 }
      sharedAcquire := by
  refine (delivery_agrees_iff (by decide) (by decide) (by decide)).2
    ⟨fun _ _ _ _ => ⟨rfl, rfl⟩, fun h => ?_, fun h => ?_⟩ <;> cases h

/-- The `FREE` of host 1 for a lock that it holds exclusively. -/
def exclusiveFree : Hdr where
  type := .free
  modeOldMode := 0x02
  id := 7
  machineId := 1
  taskId := 0
  agent := 1
  wq := []
  ncnt := 0

/-- **An accepted `FREE` comes back.**  Host 1 frees the lock and is sent its own packet, which it
will take for a rejection. -/
theorem delivery_agrees_fails :
    ¬ ∀ (c : Cell) (p : Hdr), p.id.toNat < 1024 → p.machineId = 1 ∨ p.machineId = 2 →
      p.agent = 1 ∨ p.agent = 2 → DeliveryAgrees c p := by
  intro hall
  have h := (hall { free := LOCK_ACQUIRED, rw := LOCK_EXCL, agent := 1, ncnt := 0 } exclusiveFree
    (by decide) (by decide) (by decide)).unchanged (1, { exclusiveFree with agent := 0 })
    (by decide) (.inr rfl) (.inl rfl)
  exact absurd h (by decide)

end Bmv2
end FissLock
