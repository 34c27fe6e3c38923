import FissLock.Baseline.NetLock
import FissLock.Baseline.NetLockSwitch
import FissLock.Library.ServedQueue

/-!
# A NetLock lock on two sides

A lock that the switch knows is kept on two sides.  The switch has the first requests in its slots;
the server, which is its **secondary** then, has the rest.  An ACQUIRE that finds no slot is parked
at the server.  The RELEASE that empties the slots is forwarded to the server too, and makes it push
parked requests back, `len_in_switch` at most.

A RELEASE takes out the first entry and does not name a successor.  It goes once more through the
ingress, and again for every slot of which the client is told that it has the lock now, and reads
the slots as they are by then.  Between two rounds anything can happen: requests come, holders leave
and their own packets go round.

* `Lock` is the switch, the packets that go round, the server and the packets between the two;
  those for a lock leave the switch on one port and reach one core, in order;
* `Meets` is what keeps the sides together: fewer than `2 ^ 31` requests are parked, no slot is taken
  that a packet going round is about to read, and the server does not push back more than there are
  free slots.  The code checks none of the three.

A client asks for the lock in one of the two modes.  The packet that it is sent for the lock is the
ACQUIRE itself if the lock is free, and a mirrored one later on.  Of the two only the first one is a
grant to the client of this repository (`Notice.Signals`): the egress writes ACQUIRE_LOCK into a
mirrored packet, and a request that was pushed back keeps its operation.  What follows is about the
packets that the switch sends; `signalled` are the clients that take theirs for a grant.

Payloads are left out, and so are the tables that choose ports.
-/

namespace FissLock.NetLock.TwoSides

open Runs Ring Function HolderQueue NetLock.Switch

/-! ## The secondary server -/

/-- `mbuf_to_node`.  The source address is the one that `fix_src_port_action` has saved in the
Ethernet header. -/
def mbufToNode (hdr : NlkHdr) : LockQueueNode :=
  ⟨hdr.mode, hdr.clientId, hdr.tid, hdr.srcAddr, []⟩

/-- `net_send_lock_server` for a request that is pushed back.  The header template leaves the
timestamps zero. -/
def netSendPushBack (n : LockQueueNode) : NlkHdr :=
  ⟨0, PUSH_BACK_LOCK, n.mode, n.clientId, n.txnId, 0, 0, n.ipSrc⟩

def getRequest (nq : NodeQueuePerLock) (index : ℕ) : Option LockQueueNode := nq.nodeQueue[index]?

def dequeueRequest (nq : NodeQueuePerLock) : NodeQueuePerLock :=
  { nq with nodeQueue := nq.nodeQueue.tail }

/-- An `int`. -/
def getLockQueueSize (nq : NodeQueuePerLock) : BitVec 32 := BitVec.ofNat 32 nq.nodeQueue.length

def processSecondaryAcquire (nq : NodeQueuePerLock) (node : LockQueueNode) : NodeQueuePerLock :=
  enqueueRequest nq node

def dequeueLength (nq : NodeQueuePerLock) (lenOnSwitch : BitVec 32) : BitVec 32 :=
  if (getLockQueueSize nq).slt lenOnSwitch then getLockQueueSize nq else lenOnSwitch

/-- A first loop sends the requests, a second one takes them out. -/
def processSecondaryRelease (lenOnSwitch : BitVec 32) (nq : NodeQueuePerLock) :
    NodeQueuePerLock × List NlkHdr :=
  let n := (dequeueLength nq lenOnSwitch).toInt.toNat
  (dequeueRequest^[n] nq,
    (List.range n).filterMap fun nodeNum => (getRequest nq nodeNum).map netSendPushBack)

/-- The results are the queue and the packets that are sent. -/
def processSecondaryBackup (lenInSwitch : BitVec 32) (nq : NodeQueuePerLock) (hdr : NlkHdr) :
    NodeQueuePerLock × List NlkHdr :=
  if hdr.op = ACQUIRE_LOCK ∨ hdr.op = PUSH_BACK_LOCK then
    (processSecondaryAcquire nq (mbufToNode hdr), [])
  else if hdr.op = RELEASE_LOCK then processSecondaryRelease lenInSwitch nq
  else (nq, [])

section Secondary

variable {nq : NodeQueuePerLock} {lenInSwitch : BitVec 32} {hdr : NlkHdr}

/-- The size of a queue that is shorter than `2 ^ 31`. -/
lemma getLockQueueSize_toInt (hsmall : nq.nodeQueue.length < 2 ^ 31) :
    (getLockQueueSize nq).toInt = nq.nodeQueue.length := by
  have hnat : (getLockQueueSize nq).toNat = nq.nodeQueue.length := by
    rw [getLockQueueSize, BitVec.toNat_ofNat, Nat.mod_eq_of_lt (by omega)]
  rw [BitVec.toInt_eq_toNat_of_lt (by omega), hnat]

lemma dequeueLength_toNat (hsmall : nq.nodeQueue.length < 2 ^ 31) (lenOnSwitch : BitVec 32) :
    (dequeueLength nq lenOnSwitch).toInt.toNat
      = min nq.nodeQueue.length lenOnSwitch.toInt.toNat := by
  have hsize := getLockQueueSize_toInt hsmall
  rw [dequeueLength, BitVec.slt, hsize]
  split
  · next h =>
      rw [hsize]
      have := of_decide_eq_true h
      omega
  · next h =>
      have : ¬ (nq.nodeQueue.length : ℤ) < lenOnSwitch.toInt := by simpa using h
      omega

lemma nodeQueue_dequeueRequest_iterate (n : ℕ) (nq : NodeQueuePerLock) :
    (dequeueRequest^[n] nq).nodeQueue = nq.nodeQueue.drop n := by
  induction n generalizing nq with
  | zero => rfl
  | succ n ih =>
      rw [iterate_succ_apply, ih, dequeueRequest, List.drop_tail]

lemma filterMap_range_getElem? {β : Type*} (f : LockQueueNode → β) (q : List LockQueueNode) (n : ℕ) :
    (List.range n).filterMap (fun i => q[i]?.map f) = (q.take n).map f := by
  induction n with
  | zero => rfl
  | succ n ih =>
      rw [List.range_succ, List.filterMap_append, ih, List.take_add_one, List.map_append]
      cases h : q[n]? <;> simp [h]

/-- What the two loops do: as many requests as the switch can take go back, in their order. -/
lemma processSecondaryRelease_eq (hsmall : nq.nodeQueue.length < 2 ^ 31)
    (lenOnSwitch : BitVec 32) :
    (processSecondaryRelease lenOnSwitch nq).1.nodeQueue
        = nq.nodeQueue.drop (min nq.nodeQueue.length lenOnSwitch.toInt.toNat)
      ∧ (processSecondaryRelease lenOnSwitch nq).2
        = (nq.nodeQueue.take (min nq.nodeQueue.length lenOnSwitch.toInt.toNat)).map
          netSendPushBack := by
  simp only [processSecondaryRelease, dequeueLength_toNat hsmall, getRequest]
  exact ⟨nodeQueue_dequeueRequest_iterate _ _, filterMap_range_getElem? _ _ _⟩

lemma processSecondaryBackup_acquire (hop : hdr.op = ACQUIRE_LOCK) :
    processSecondaryBackup lenInSwitch nq hdr = (enqueueRequest nq (mbufToNode hdr), []) :=
  if_pos (.inl hop)

lemma processSecondaryBackup_release (hop : hdr.op = RELEASE_LOCK) :
    processSecondaryBackup lenInSwitch nq hdr = processSecondaryRelease lenInSwitch nq := by
  rw [processSecondaryBackup, hop, if_neg (by decide), if_pos rfl]

@[simp] lemma mbufToNode_netSendPushBack (n : LockQueueNode) (hn : n.payload = []) :
    mbufToNode (netSendPushBack n) = n := by
  cases n
  cases hn
  rfl

end Secondary

/-! ## The two sides -/

/-- A RELEASE that goes round, and between which entries of the log: it reads the entry `first`, and
`last` is behind the last entry that there was when it came. -/
structure Pass where
  hdr : NlkHdr
  rc : RecirculateHdr
  first : ℕ
  last : ℕ
  deriving DecidableEq, Repr

/-- A packet to a client: its operation, and the entry that it was sent for. -/
structure Notice where
  op : BitVec 8
  slot : Slot
  deriving DecidableEq, Repr

/-- What `packet_dispatch` of the client hands on, and `lock_packet_dispatch` wakes a coroutine for.
All other packets for a lock are dropped. -/
def Notice.Signals (n : Notice) : Prop :=
  n.op = GRANT_LOCK_FROM_SERVER ∨ n.op = DIRECT_GRANT_FROM_SWITCH

instance (n : Notice) : Decidable n.Signals := inferInstanceAs (Decidable (_ ∨ _))

/-- The mirrored packet as it leaves the egress: the request is that of the mirrored metadata. -/
def changeOpTypeAction (a : Slot) : Notice := ⟨ACQUIRE_LOCK, a⟩

/-- The switch, and what became of the requests in its slots: the `log` of the entries, of which the
first `released` are gone, and the packets that were `sent` to clients.

The clients that were `addressed` by such a packet and have not released the lock are kept, and so
are those among them that were `signalled` by it. -/
structure SwitchSide where
  regs : Registers
  passes : List Pass
  log : List Slot
  released : ℕ
  sent : Multiset Notice
  addressed : Multiset Slot
  signalled : Multiset Slot

/-- The lock, with the packets between the two sides in their order, and the requests that arrived
at the switch. -/
structure Lock extends SwitchSide where
  toServer : List NlkHdr
  secondary : NodeQueuePerLock
  toSwitch : List NlkHdr
  arrived : List LockQueueNode

/-- What the control plane configures for a lock, on the switch and at the server. -/
structure Setup where
  config : Config
  arrays : Arrays
  lenInSwitch : BitVec 32

def Lock.init (c : Setup) : Lock where
  regs := c.config.registers c.arrays
  passes := []
  toServer := []
  secondary := initLockQueue
  toSwitch := []
  arrived := []
  log := []
  released := 0
  sent := 0
  addressed := 0
  signalled := 0

inductive Event where
  | acquire (hdr : NlkHdr)
  /-- The client of `r` releases the lock. -/
  | release (r : Slot) (hdr : NlkHdr)
  /-- A packet that goes round comes in again. -/
  | pass (i : ℕ)
  /-- The next packet reaches the server. -/
  | serve
  /-- The next packet comes back from it. -/
  | pushBack

/-- Whom an entry was made for. -/
def Slot.node (a : Slot) : LockQueueNode := ⟨a.mode, a.clientId, a.tid, a.ip, []⟩

/-- What a client may ask for. -/
def NlkHdr.Asks (hdr : NlkHdr) : Prop :=
  hdr.op = ACQUIRE_LOCK ∧ (hdr.mode = SHARED_LOCK ∨ hdr.mode = EXCLUSIVE_LOCK)

/-- What a client sends when it is done. -/
def NlkHdr.GivesBack (hdr : NlkHdr) (r : Slot) : Prop :=
  hdr.op = RELEASE_LOCK ∧ hdr.recircFlag = 0 ∧ mbufToNode hdr = Slot.node r

instance (hdr : NlkHdr) : Decidable (NlkHdr.Asks hdr) := inferInstanceAs (Decidable (_ ∧ _))

instance (hdr : NlkHdr) (r : Slot) : Decidable (NlkHdr.GivesBack hdr r) :=
  inferInstanceAs (Decidable (_ ∧ _))

/-- A packet that is forwarded to the server. -/
def forwarded (hdr : NlkHdr) : Verdict → List NlkHdr
  | .toServer _ _ _ => [hdr]
  | _ => []

/-- A packet that goes round. -/
def goesRound (hdr : NlkHdr) (first last : ℕ) : Verdict → List Pass
  | .recirculate _ flag dequeuedMode curHead curTail =>
      [⟨{ hdr with recircFlag := flag }, ⟨dequeuedMode, curHead, curTail⟩, first, last⟩]
  | _ => []

/-- The packet that goes back to the client of an entry when it is made. -/
def direct (a : Slot) : Verdict → Multiset Notice
  | .notifyClient op _ _ _ => {⟨op, a⟩}
  | _ => 0

namespace SwitchSide

/-- Packets go to clients. -/
def send (s : SwitchSide) (packets : Multiset Notice) : SwitchSide :=
  { s with
    sent := s.sent + packets
    addressed := s.addressed + packets.map Notice.slot
    signalled := s.signalled + (packets.filter Notice.Signals).map Notice.slot }

/-- A packet goes through `AcquireLock`. -/
def acquired (s : SwitchSide) (hdr : NlkHdr) : SwitchSide :=
  let (regs, verdict) := acquireLock s.regs hdr
  { s.send (direct hdr.slot verdict) with
    regs := regs
    log := if verdict.isToServer then s.log else s.log ++ [hdr.slot] }

/-- The client of `r` is done; its packet goes through `ReleaseLock` for the first time. -/
def releasedBy (s : SwitchSide) (r : Slot) (hdr : NlkHdr) : SwitchSide :=
  let (regs, _, verdict) := releaseLock s.regs hdr .invalid
  { s with
    regs := regs
    passes := s.passes ++ goesRound hdr (s.released + 1) s.log.length verdict
    released := s.released + 1
    addressed := s.addressed.erase r
    signalled := s.signalled.erase r }

/-- It goes through it again. -/
def passed (s : SwitchSide) (i : ℕ) (p : Pass) : SwitchSide :=
  let (regs, mirrored, verdict) := releaseLock s.regs p.hdr p.rc
  { s.send ((mirrored.toList : Multiset Slot).map changeOpTypeAction) with
    regs := regs
    passes := s.passes.eraseIdx i ++ goesRound p.hdr (p.first + 1) p.last verdict }

/-- The entries that are in the slots. -/
def live (s : SwitchSide) : List Slot := s.log.drop s.released

/-- No packet that goes round is about to read the slot that is taken next. -/
def NoOverrun (s : SwitchSide) : Prop :=
  ∀ p ∈ s.passes, updateTailAlu s.regs.left s.regs.right s.regs.tail ≠ p.rc.curHead

instance (s : SwitchSide) : Decidable s.NoOverrun := inferInstanceAs (Decidable (∀ p ∈ s.passes, _))

end SwitchSide

namespace Lock

/-- The server handles a packet. -/
def served (lenInSwitch : BitVec 32) (s : Lock) (hdr : NlkHdr) (rest : List NlkHdr) : Lock :=
  let (secondary, packets) := processSecondaryBackup lenInSwitch s.secondary hdr
  { s with
    toServer := rest
    secondary := secondary
    toSwitch := s.toSwitch ++ packets }

/-- The step function.  Which of the packets it acts on is left to the client, which may release the
lock once it was sent one. -/
def step (lenInSwitch : BitVec 32) (s : Lock) : Event → Option Lock
  | .acquire hdr =>
      if NlkHdr.Asks hdr then
        some { s with
          toSwitchSide := s.acquired hdr
          toServer := s.toServer ++ forwarded hdr (acquireLock s.regs hdr).2
          arrived := s.arrived ++ [mbufToNode hdr] }
      else none
  | .release r hdr =>
      if r ∈ s.addressed ∧ NlkHdr.GivesBack hdr r then
        some { s with
          toSwitchSide := s.releasedBy r hdr
          toServer := s.toServer ++ forwarded hdr (releaseLock s.regs hdr .invalid).2.2 }
      else none
  | .pass i => s.passes[i]?.map fun p => { s with toSwitchSide := s.passed i p }
  | .serve =>
      match s.toServer with
      | [] => none
      | hdr :: rest => some (s.served lenInSwitch hdr rest)
  | .pushBack =>
      match s.toSwitch with
      | [] => none
      | hdr :: rest =>
          some { s with
            toSwitchSide := s.acquired hdr
            toServer := s.toServer ++ forwarded hdr (acquireLock s.regs hdr).2
            toSwitch := rest }

/-- The ACQUIREs on their way to the server. -/
def onTheWay (s : Lock) : List NlkHdr := s.toServer.filter (·.op = ACQUIRE_LOCK)

/-- The requests that are parked: on their way back, at the server and on their way to it. -/
def parked (s : Lock) : List LockQueueNode :=
  s.toSwitch.map mbufToNode ++ s.secondary.nodeQueue ++ s.onTheWay.map mbufToNode

/-- An ACQUIRE is parked. -/
def Parks (s : Lock) : Prop :=
  ¬ (0 < s.regs.slotsTwoSides.lo ∧ s.regs.slotsTwoSides.hi = 0)

instance (s : Lock) : Decidable s.Parks := inferInstanceAs (Decidable (¬ _))

/-- **The condition.** -/
def Meets (lenInSwitch : BitVec 32) (s : Lock) : Event → Prop
  | .acquire _ =>
      if s.Parks then s.regs.slotsTwoSides.hi.toNat + 1 < 2 ^ 31 else s.NoOverrun
  | .pushBack => s.NoOverrun
  | .serve =>
      -- what a RELEASE makes the server push back has room beside what is on its way
      ∀ hdr ∈ s.toServer.head?, hdr.op = RELEASE_LOCK →
        s.toSwitch.length + (dequeueLength s.secondary lenInSwitch).toInt.toNat
          ≤ s.regs.slotsTwoSides.lo.toNat
  | .release _ _ => True
  | .pass _ => True

instance (lenInSwitch : BitVec 32) (s : Lock) : ∀ e, Decidable (s.Meets lenInSwitch e)
  | .acquire _ => inferInstanceAs (Decidable (if s.Parks then _ else _))
  | .pushBack => inferInstanceAs (Decidable s.NoOverrun)
  | .serve => inferInstanceAs (Decidable (∀ hdr ∈ s.toServer.head?, _))
  | .release _ _ => inferInstanceAs (Decidable True)
  | .pass _ => inferInstanceAs (Decidable True)

abbrev Reachable (c : Setup) : Lock → Prop :=
  Reach (step c.lenInSwitch) (Meets c.lenInSwitch) (init c)

end Lock

end FissLock.NetLock.TwoSides
