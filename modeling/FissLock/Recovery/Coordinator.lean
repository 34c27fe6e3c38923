import FissLock.Host.LockMeta

/-!
# The recovery coordinator

The RPC daemon of `rpc/main.cc` collects, during recovery, who holds and who waits for each lock.
A handler that changes the daemon's static variables returns the new state; what it answers is
returned beside it.

* `recovery_ready` answers whether everybody has submitted its data.  The source compares
  `ready_bitmap | 1 == fault_signal | 1`, and `==` binds tighter than `|`: the second condition is
  `ready_bitmap | (1 == fault_signal) | 1`, which is **never zero**.  `check_waiter` makes the same
  comparison with parentheses.
* `check_holder` knows of an agent if it was sent a waiter of the lock, or if it has restored the
  agent itself.  An agent that nobody waits for is not known to it.  Its reply has room for
  `MAX_HOLDERS` holders; with more of them it leaves the array, and what happens then is not
  defined.
* Nothing is ever reset: neither the bitmap nor the data of the locks.
-/

namespace FissLock

/-- `lock_data`. -/
structure LockData where
  hasAgent : Bool
  holders : Finset LockHolder
  waiters : Finset LockHolder

/-- The static variables of the daemon.  `lm_state[lid]` of an unknown lock is a record of zeros. -/
structure Coordinator where
  lmState : LockId → LockData
  faultSignal : BitVec 64
  /-- The byte that the control plane of the switch shares with the daemon. -/
  readySignal : BitVec 8
  readyBitmap : BitVec 64

/-- `main`: the static variables are zero, and so is the byte. -/
def Coordinator.init : Coordinator where
  lmState := fun _ => { hasAgent := false, holders := ∅, waiters := ∅ }
  faultSignal := 0
  readySignal := 0
  readyBitmap := 0

/-- `1 << mid`, an `int`, converted to 64 bits.  The source leaves it undefined for `mid` from 32
on. -/
def machineBit (mid : BitVec 32) : BitVec 64 := ((1#32) <<< mid.toNat).signExtend 64

/-- `SERVER_FAILED(code, mid)`: a fault code has the bits of the machines that are alive. -/
def serverFailed (code : BitVec 64) (mid : BitVec 32) : Bool := decide (code &&& machineBit mid = 0)

/-- The machines of the cluster: host ids from 1 to `HOST_NUM`. -/
def isMachine (m : HostId) : Prop := 1 ≤ m.toNat ∧ m.toNat ≤ HOST_NUM

instance (m : HostId) : Decidable (isMachine m) := inferInstanceAs (Decidable (_ ∧ _))

/-- A machine that the fault code marks alive. -/
def liveMachine (code : BitVec 64) (m : HostId) : Prop :=
  isMachine m ∧ serverFailed code (m.setWidth 32) = false

instance (code : BitVec 64) (m : HostId) : Decidable (liveMachine code m) :=
  inferInstanceAs (Decidable (_ ∧ _))

/-- `MAX_HOLDERS`. -/
def MAX_HOLDERS : ℕ := 256

/-- `check_holder_reply`, as a host uses it.  A count that is negative is as good as 0. -/
structure CheckHolderReply where
  extraNum : ℕ
  extraHolders : Finset LockHolder

namespace Coordinator

/-- `collect_holders`. -/
def collectHolders (c : Coordinator) (lid : LockId) (holder : LockHolder) : Coordinator :=
  { c with
    lmState := Function.update c.lmState lid
      { c.lmState lid with holders := insert holder (c.lmState lid).holders } }

/-- `collect_waiters`. -/
def collectWaiters (c : Coordinator) (lid : LockId) (waiter : LockHolder) : Coordinator :=
  { c with
    lmState := Function.update c.lmState lid
      { c.lmState lid with
        hasAgent := true
        waiters := insert waiter (c.lmState lid).waiters } }

/-- `check_waiter`: 2 if not all machines have submitted their data, 1 if the waiter is known. -/
def checkWaiter (c : Coordinator) (lid : LockId) (waiter : LockHolder) : ℕ :=
  if c.faultSignal = 0 ∨ c.readyBitmap ||| 1 ≠ c.faultSignal ||| 1 then 2
  else if (c.lmState lid).hasAgent ∧ waiter ∈ (c.lmState lid).waiters then 1
  else 0

/-- The reply with all holders, if it has room for them.  If not, an agent is sent their number and
none of them, and reads what is behind the array; and for another host, the daemon writes them all,
past the end of its own array.  In neither case it is defined what happens. -/
def sendHolders (holders : Finset LockHolder) : Option CheckHolderReply :=
  if holders.card ≤ MAX_HOLDERS then some ⟨holders.card, holders⟩ else none

/-- `check_holder`: the static variables as the handler leaves them, and the reply. -/
def checkHolder (c : Coordinator) (isAgent : Bool) (lid : LockId) (holderNum : ℕ) :
    Coordinator × Option CheckHolderReply :=
  let holders := (c.lmState lid).holders
  if isAgent then
    if holderNum < holders.card then (c, sendHolders holders) else (c, some ⟨0, ∅⟩)
  else if !(c.lmState lid).hasAgent ∧ holders ≠ ∅ then
    ({ c with
        lmState := Function.update c.lmState lid { c.lmState lid with hasAgent := true } },
      sendHolders holders)
  else (c, some ⟨0, ∅⟩)

/-- `recovery_ready`. -/
def recoveryReady (c : Coordinator) (mid : BitVec 32) (faultCode : BitVec 64) :
    Coordinator × Bool :=
  let c := { c with readyBitmap := c.readyBitmap ||| machineBit mid, faultSignal := faultCode }
  (c, c.readySignal ≠ 0 ∧ c.readyBitmap ||| (if 1 = c.faultSignal then 1 else 0) ||| 1 ≠ 0)

/-- The comparison that `recovery_ready` makes is always true. -/
lemma recoveryReady_answer (c : Coordinator) (mid : BitVec 32) (faultCode : BitVec 64) :
    (c.recoveryReady mid faultCode).2 = decide (c.readySignal ≠ 0) := by
  have hor : ∀ x : BitVec 64, x ||| 1 ≠ 0 := by
    intro x h
    have h0 := congrArg (·.getLsbD 0) h
    simp at h0
  simp only [recoveryReady, hor, ne_eq, not_false_eq_true, and_true]

end Coordinator

end FissLock
