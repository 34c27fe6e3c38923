import FissLock.Library.BitStream
import FissLock.Wire.Post

/-!
# A lock packet, byte by byte

Three definitions of one header: the packed structs of `lib/post.h` in the layout that gcc gives
them on a little-endian machine, `lock_hdr_t` of the Tofino plane with its single-bit fields, and
`lock_hdr_t` of the BMv2 plane, which keeps `mode_old_mode` as one byte.

The host converts only the lock id to network order.  The switches read `task_id` and `wq_size`
byte-swapped; they pass them on as they came, so that nobody notices.

`wire_format_agrees` says that the three definitions agree on every packet, in both directions.
`TofinoHdr.toPost_sendPostBytes` connects the bytes with `LockHdr`, on which the planes are
modelled.
-/

namespace FissLock

open BitStream

abbrev Byte := BitVec 8

/-! ## The host's side: `post.h`, `post.c` and `lock.h` -/

/-- A 32-bit word in the memory of a little-endian machine. -/
def le32 (x : BitVec 32) : List Byte :=
  [x.extractLsb' 0 8, x.extractLsb' 8 8, x.extractLsb' 16 8, x.extractLsb' 24 8]

/-- Four bytes in memory, read as a 32-bit word. -/
def ofLe32 (b₀ b₁ b₂ b₃ : Byte) : BitVec 32 := b₃ ++ b₂ ++ b₁ ++ b₀

/-- `htonl`, on a little-endian machine. -/
def htonl (x : BitVec 32) : BitVec 32 :=
  x.extractLsb' 0 8 ++ x.extractLsb' 8 8 ++ x.extractLsb' 16 8 ++ x.extractLsb' 24 8

/-- `ntohl`. -/
def ntohl (x : BitVec 32) : BitVec 32 := htonl x

/-- The value of an enumerator of `lock_state`. -/
def LockState.value : LockState → BitVec 2
  | .free => 0
  | .release => 1
  | .shared => 2
  | .excl => 3

/-- The enumerator with this value. -/
def LockState.ofValue (v : BitVec 2) : LockState :=
  if v = 0 then .free else if v = 1 then .release else if v = 2 then .shared else .excl

/-- `wqe`: 2 bits of `op`, 30 bits of `task` and 8 bits of `host`, from the least significant bit
on. -/
def Wqe.bytes (w : Wqe) : List Byte := le32 (w.task ++ w.op.value) ++ [w.host]

/-- An array of `wqe` in memory. -/
def readWqes : List Byte → List Wqe
  | b₀ :: b₁ :: b₂ :: b₃ :: b₄ :: bs =>
      { op := .ofValue ((ofLe32 b₀ b₁ b₂ b₃).extractLsb' 0 2)
        task := (ofLe32 b₀ b₁ b₂ b₃).extractLsb' 2 30
        host := b₄ } :: readWqes bs
  | _ => []

/-- `MODE_OLD_MODE(mode, old_mode)`, computed as an `int` and stored in eight bits. -/
def modeOldMode (mode oldMode : BitVec 32) : Byte :=
  (((oldMode &&& 0x1#32) <<< 1) ||| (mode &&& 0x1#32)).setWidth 8

/-- `send_post_lock_generic`: the buffer that it fills.  `op` is a `char` and `old_state` an `int`
here, so that every value is covered. -/
def sendPostBytes (t op : Byte) (lid : LockId) (hid : HostId) (tid : TaskId) (wqSize : BitVec 32)
    (wq : List Wqe) (ncnt : Byte) (oldState : BitVec 32) (dest : HostId) : List Byte :=
  [t, modeOldMode (op.signExtend 32) oldState] ++ le32 (htonl lid) ++ [hid] ++ le32 tid ++ [dest]
    ++ le32 wqSize ++ [ncnt] ++ wq.flatMap Wqe.bytes

/-- `post_header` and `lock_post_header`, as the host finds them in a buffer. -/
structure RawHdr where
  type : Byte
  modeOldMode : Byte
  lockId : BitVec 32
  machineId : HostId
  taskId : TaskId
  agent : HostId
  wqSize : BitVec 32
  ncnt : Byte
  deriving DecidableEq, Repr

/-- The header of a buffer, and what is behind it. -/
def readPost : List Byte → Option (RawHdr × List Byte)
  | t :: m :: l₀ :: l₁ :: l₂ :: l₃ :: h :: t₀ :: t₁ :: t₂ :: t₃ :: a :: q₀ :: q₁ :: q₂ :: q₃ :: n
      :: bs =>
      some
        ({ type := t
           modeOldMode := m
           lockId := ofLe32 l₀ l₁ l₂ l₃
           machineId := h
           taskId := ofLe32 t₀ t₁ t₂ t₃
           agent := a
           wqSize := ofLe32 q₀ q₁ q₂ q₃
           ncnt := n }, bs)
  | _ => none

namespace RawHdr

/-- `MODE(hdr->mode_old_mode)`. -/
def mode (r : RawHdr) : BitVec 8 := (r.modeOldMode &&& 0x1#8) ||| 0x2#8

/-- `OLD_MODE(hdr->mode_old_mode)`. -/
def oldMode (r : RawHdr) : BitVec 8 := ((r.modeOldMode >>> 1) &&& 0x1#8) ||| 0x2#8

/-- `GRANTED(hdr)`. -/
def granted (r : RawHdr) : BitVec 8 := (r.modeOldMode >>> 6) &&& 0x1#8

/-- `TRANSFERRED(hdr)`. -/
def transferred (r : RawHdr) : BitVec 8 := (r.modeOldMode >>> 5) &&& 0x1#8

end RawHdr

/-! ## The switches -/

/-- `lock_hdr_t` of `p4/headers.p4`. -/
structure TofinoHdr where
  type : BitVec 8
  multicasted : BitVec 1
  granted : BitVec 1
  transferred : BitVec 1
  reserved : BitVec 3
  oldMode : BitVec 1
  mode : BitVec 1
  id : BitVec 32
  machineId : BitVec 8
  taskId : BitVec 32
  agent : BitVec 8
  wqSize : BitVec 32
  ncnt : BitVec 8
  deriving DecidableEq, Repr

/-- `extract(hdr.lock)`. -/
def TofinoHdr.extract (s : List Bool) : Option (TofinoHdr × List Bool) := do
  let (type, s) ← field 8 s
  let (multicasted, s) ← field 1 s
  let (granted, s) ← field 1 s
  let (transferred, s) ← field 1 s
  let (reserved, s) ← field 3 s
  let (oldMode, s) ← field 1 s
  let (mode, s) ← field 1 s
  let (id, s) ← field 32 s
  let (machineId, s) ← field 8 s
  let (taskId, s) ← field 32 s
  let (agent, s) ← field 8 s
  let (wqSize, s) ← field 32 s
  let (ncnt, s) ← field 8 s
  return (⟨type, multicasted, granted, transferred, reserved, oldMode, mode, id, machineId, taskId,
    agent, wqSize, ncnt⟩, s)

/-- `emit(hdr.lock)`. -/
def TofinoHdr.emit (h : TofinoHdr) : List Bool :=
  bits h.type ++ bits h.multicasted ++ bits h.granted ++ bits h.transferred ++ bits h.reserved
    ++ bits h.oldMode ++ bits h.mode ++ bits h.id ++ bits h.machineId ++ bits h.taskId ++ bits h.agent
    ++ bits h.wqSize ++ bits h.ncnt

/-- `lock_hdr_t` of `p4_bmv2/fisslock_bmv2.p4`. -/
structure Bmv2Hdr where
  type : BitVec 8
  modeOldMode : BitVec 8
  id : BitVec 32
  machineId : BitVec 8
  taskId : BitVec 32
  agent : BitVec 8
  wqSize : BitVec 32
  ncnt : BitVec 8
  deriving DecidableEq, Repr

/-- `extract(hdr.lock)`. -/
def Bmv2Hdr.extract (s : List Bool) : Option (Bmv2Hdr × List Bool) := do
  let (type, s) ← field 8 s
  let (modeOldMode, s) ← field 8 s
  let (id, s) ← field 32 s
  let (machineId, s) ← field 8 s
  let (taskId, s) ← field 32 s
  let (agent, s) ← field 8 s
  let (wqSize, s) ← field 32 s
  let (ncnt, s) ← field 8 s
  return (⟨type, modeOldMode, id, machineId, taskId, agent, wqSize, ncnt⟩, s)

/-- `emit(hdr.lock)`. -/
def Bmv2Hdr.emit (h : Bmv2Hdr) : List Bool :=
  bits h.type ++ bits h.modeOldMode ++ bits h.id ++ bits h.machineId ++ bits h.taskId ++ bits h.agent
    ++ bits h.wqSize ++ bits h.ncnt

/-- The fields that a switch works with. -/
structure SwitchFields where
  type : BitVec 8
  granted : BitVec 1
  transferred : BitVec 1
  mode : BitVec 1
  oldMode : BitVec 1
  id : BitVec 32
  machineId : BitVec 8
  agent : BitVec 8
  ncnt : BitVec 8
  deriving DecidableEq, Repr

def TofinoHdr.fields (h : TofinoHdr) : SwitchFields :=
  ⟨h.type, h.granted, h.transferred, h.mode, h.oldMode, h.id, h.machineId, h.agent, h.ncnt⟩

/-- `pkt_mode` and `pkt_old_mode` are `mode_old_mode[0:0]` and `mode_old_mode[1:1]`; the flags are
set and cleared through the masks `0x40` and `0x20`. -/
def Bmv2Hdr.fields (h : Bmv2Hdr) : SwitchFields :=
  ⟨h.type, if h.modeOldMode &&& 0x40#8 = 0 then 0 else 1,
    if h.modeOldMode &&& 0x20#8 = 0 then 0 else 1, h.modeOldMode.extractLsb' 0 1,
    h.modeOldMode.extractLsb' 1 1, h.id, h.machineId, h.agent, h.ncnt⟩

/-- Whatever the Tofino plane may write into a header: everything but `task_id` and `wq_size`. -/
def TofinoHdr.rewrite (h : TofinoHdr) (multicasted : BitVec 1) (f : SwitchFields) : TofinoHdr :=
  { h with
    type := f.type
    multicasted := multicasted
    granted := f.granted
    transferred := f.transferred
    oldMode := f.oldMode
    mode := f.mode
    id := f.id
    machineId := f.machineId
    agent := f.agent
    ncnt := f.ncnt }

/-- Whatever the BMv2 plane may write into a header. -/
def Bmv2Hdr.rewrite (h : Bmv2Hdr) (type modeOldMode : Byte) (id : LockId) (machineId agent : HostId)
    (ncnt : Byte) : Bmv2Hdr :=
  { h with
    type := type
    modeOldMode := modeOldMode
    id := id
    machineId := machineId
    agent := agent
    ncnt := ncnt }

/-! ## What a host reads -/

/-- All that a host reads from a buffer, through the macros of `post.h`. -/
structure HostView where
  type : Byte
  mode : BitVec 8
  oldMode : BitVec 8
  granted : BitVec 8
  transferred : BitVec 8
  id : LockId
  machineId : HostId
  taskId : TaskId
  agent : HostId
  wqSize : BitVec 32
  ncnt : Byte
  wq : List Wqe
  deriving DecidableEq, Repr

/-- Read a buffer. -/
def hostView (bs : List Byte) : Option HostView :=
  (readPost bs).map fun r =>
    { type := r.1.type
      mode := r.1.mode
      oldMode := r.1.oldMode
      granted := r.1.granted
      transferred := r.1.transferred
      id := ntohl r.1.lockId
      machineId := r.1.machineId
      taskId := r.1.taskId
      agent := r.1.agent
      wqSize := r.1.wqSize
      ncnt := r.1.ncnt
      wq := readWqes r.2 }

/-- What it should read: the fields of the switch, `LOCK_SHARED` or `LOCK_EXCL` for a mode bit, and
the rest as it was sent. -/
def HostView.of (f : SwitchFields) (tid : TaskId) (wqSize : BitVec 32) (wq : List Wqe) : HostView where
  type := f.type
  mode := f.mode.setWidth 8 ||| 0x2#8
  oldMode := f.oldMode.setWidth 8 ||| 0x2#8
  granted := f.granted.setWidth 8
  transferred := f.transferred.setWidth 8
  id := f.id
  machineId := f.machineId
  taskId := tid
  agent := f.agent
  wqSize := wqSize
  ncnt := f.ncnt
  wq := wq

/-! ## Words and bytes -/

/-- A word is the concatenation of its bytes. -/
lemma append_bytes (x : BitVec 32) :
    x.extractLsb' 24 8 ++ x.extractLsb' 16 8 ++ x.extractLsb' 8 8 ++ x.extractLsb' 0 8 = x := by
  apply BitVec.eq_of_getLsbD_eq
  intro i hi
  simp only [BitVec.getLsbD_append, BitVec.getLsbD_extractLsb']
  grind

/-- The bytes of a concatenation. -/
lemma le32_append (a b c d : Byte) : le32 (a ++ b ++ c ++ d) = [d, c, b, a] := by
  have hbyte : ∀ start : ℕ, ∀ y : Byte,
      (∀ i < 8, (a ++ b ++ c ++ d).getLsbD (start + i) = y.getLsbD i) →
      (a ++ b ++ c ++ d).extractLsb' start 8 = y := by
    intro start y hy
    apply BitVec.eq_of_getLsbD_eq
    intro i hi
    rw [BitVec.getLsbD_extractLsb', hy i hi]
    simp [hi]
  have hget : ∀ j, (a ++ b ++ c ++ d).getLsbD j
      = if j < 8 then d.getLsbD j else if j < 16 then c.getLsbD (j - 8)
        else if j < 24 then b.getLsbD (j - 16) else a.getLsbD (j - 24) := by
    intro j
    simp only [BitVec.getLsbD_append]
    grind
  rw [le32, hbyte 0 d, hbyte 8 c, hbyte 16 b, hbyte 24 a]
  all_goals
    intro i hi
    rw [hget]
    grind

lemma le32_htonl (x : BitVec 32) :
    le32 (htonl x)
      = [x.extractLsb' 24 8, x.extractLsb' 16 8, x.extractLsb' 8 8, x.extractLsb' 0 8] :=
  le32_append _ _ _ _

lemma htonl_htonl (x : BitVec 32) : htonl (htonl x) = x := by
  have h := le32_htonl x
  simp only [le32, List.cons.injEq, and_true] at h
  obtain ⟨h₀, h₁, h₂, h₃⟩ := h
  rw [htonl, h₀, h₁, h₂, h₃]
  exact append_bytes x

/-- On the wire, network order is the order of the bits. -/
lemma bits_word (x : BitVec 32) : bits x = stream (le32 (htonl x)) := by
  conv_lhs => rw [← append_bytes x]
  rw [le32_htonl, bits_append, bits_append, bits_append]
  simp only [stream_cons, List.append_assoc]
  rfl

lemma ofLe32_le32 (x : BitVec 32) :
    ofLe32 (x.extractLsb' 0 8) (x.extractLsb' 8 8) (x.extractLsb' 16 8) (x.extractLsb' 24 8) = x :=
  append_bytes x

lemma ofValue_value (st : LockState) : LockState.ofValue st.value = st := by
  cases st <;> rfl

lemma readWqes_flatMap (wq : List Wqe) : readWqes (wq.flatMap Wqe.bytes) = wq := by
  induction wq with
  | nil => rfl
  | cons w wq ih =>
      have hop : (w.task ++ w.op.value).extractLsb' 0 2 = w.op.value := by
        rw [BitVec.extractLsb'_append_eq_of_add_le (by omega)]
        exact BitVec.extractLsb'_eq_self
      have htask : (w.task ++ w.op.value).extractLsb' 2 30 = w.task := by
        rw [BitVec.extractLsb'_append_eq_of_le (by omega)]
        exact BitVec.extractLsb'_eq_self
      rw [List.flatMap_cons, Wqe.bytes, le32]
      simp only [List.cons_append, List.nil_append, readWqes, ofLe32_le32, hop, htask, ofValue_value,
        ih]

/-! ## Headers and bytes -/

/-- The 17 bytes of a header whose words are given as the switches read them. -/
def hdrBytes (type m : Byte) (id : BitVec 32) (machineId : Byte) (task : BitVec 32) (agent : Byte)
    (wqSize : BitVec 32) (ncnt : Byte) : List Byte :=
  [type, m] ++ le32 (htonl id) ++ [machineId] ++ le32 (htonl task) ++ [agent]
    ++ le32 (htonl wqSize) ++ [ncnt]

/-- `mode_old_mode`, as the Tofino plane puts it together. -/
def TofinoHdr.modeByte (h : TofinoHdr) : Byte :=
  h.multicasted ++ h.granted ++ h.transferred ++ h.reserved ++ h.oldMode ++ h.mode

lemma sendPostBytes_eq (t op : Byte) (lid : LockId) (hid : HostId) (tid : TaskId)
    (wqSize : BitVec 32) (wq : List Wqe) (ncnt : Byte) (oldState : BitVec 32) (dest : HostId) :
    sendPostBytes t op lid hid tid wqSize wq ncnt oldState dest
      = hdrBytes t (modeOldMode (op.signExtend 32) oldState) lid hid (htonl tid) dest (htonl wqSize)
          ncnt ++ wq.flatMap Wqe.bytes := by
  rw [sendPostBytes, hdrBytes, htonl_htonl, htonl_htonl]

lemma Bmv2Hdr.emit_eq (h : Bmv2Hdr) :
    h.emit = stream (hdrBytes h.type h.modeOldMode h.id h.machineId h.taskId h.agent h.wqSize
      h.ncnt) := by
  simp only [Bmv2Hdr.emit, hdrBytes, stream_append, stream_cons, ← bits_word]
  simp [stream, List.append_assoc]

/-- The flags and modes are the bits of one byte. -/
lemma TofinoHdr.bits_modeByte (h : TofinoHdr) : bits h.modeByte
    = bits h.multicasted ++ bits h.granted ++ bits h.transferred ++ bits h.reserved ++ bits h.oldMode
      ++ bits h.mode := by
  rw [modeByte, bits_append, bits_append, bits_append, bits_append, bits_append]

lemma TofinoHdr.emit_eq (h : TofinoHdr) :
    h.emit = stream (hdrBytes h.type h.modeByte h.id h.machineId h.taskId h.agent h.wqSize
      h.ncnt) := by
  simp only [TofinoHdr.emit, hdrBytes, stream_append, stream_cons, ← bits_word, bits_modeByte]
  simp [stream, List.append_assoc]

lemma field_bind {w : ℕ} {α : Type} (x : BitVec w) (s : List Bool)
    (k : BitVec w × List Bool → Option α) : (field w (bits x ++ s) >>= k) = k (x, s) := by
  rw [field_bits]
  rfl

lemma TofinoHdr.extract_emit (h : TofinoHdr) (s : List Bool) :
    extract (h.emit ++ s) = some (h, s) := by
  simp only [emit, List.append_assoc]
  unfold extract
  repeat
    rw [field_bind]
    dsimp only
  rfl

lemma Bmv2Hdr.extract_emit (h : Bmv2Hdr) (s : List Bool) : extract (h.emit ++ s) = some (h, s) := by
  simp only [emit, List.append_assoc]
  unfold extract
  repeat
    rw [field_bind]
    dsimp only
  rfl

/-- What a host reads from 17 bytes and a wait queue. -/
lemma hostView_hdrBytes (type m : Byte) (id : BitVec 32) (machineId : Byte) (tid : BitVec 32)
    (agent : Byte) (wqSize : BitVec 32) (ncnt : Byte) (wq : List Wqe) :
    hostView (hdrBytes type m id machineId (htonl tid) agent (htonl wqSize) ncnt
        ++ wq.flatMap Wqe.bytes)
      = some (HostView.of
          ⟨type, m.extractLsb' 6 1, m.extractLsb' 5 1, m.extractLsb' 0 1, m.extractLsb' 1 1, id,
            machineId, agent, ncnt⟩ tid wqSize wq) := by
  have hbits : ∀ m : BitVec 8, (m &&& 0x1#8) = (m.extractLsb' 0 1).setWidth 8
      ∧ ((m >>> 1) &&& 0x1#8) = (m.extractLsb' 1 1).setWidth 8
      ∧ ((m >>> 6) &&& 0x1#8) = (m.extractLsb' 6 1).setWidth 8
      ∧ ((m >>> 5) &&& 0x1#8) = (m.extractLsb' 5 1).setWidth 8 := by
    decide +kernel
  obtain ⟨h₀, h₁, h₆, h₅⟩ := hbits m
  rw [hdrBytes, htonl_htonl, htonl_htonl, le32, le32, le32]
  simp only [List.cons_append, List.nil_append, hostView, readPost, Option.map_some, ofLe32_le32,
    readWqes_flatMap, HostView.of, RawHdr.mode, RawHdr.oldMode, RawHdr.granted, RawHdr.transferred,
    h₀, h₁, h₅, h₆, ntohl, htonl_htonl]

/-- `MODE_OLD_MODE` sets the lowest two bits and no other. -/
lemma modeOldMode_bits (mode oldMode : BitVec 32) :
    (modeOldMode mode oldMode).extractLsb' 0 1 = mode.extractLsb' 0 1
      ∧ (modeOldMode mode oldMode).extractLsb' 1 1 = oldMode.extractLsb' 0 1
      ∧ (modeOldMode mode oldMode).extractLsb' 5 1 = 0
      ∧ (modeOldMode mode oldMode).extractLsb' 6 1 = 0 := by
  refine ⟨?_, ?_, ?_, ?_⟩
  all_goals
    apply BitVec.eq_of_getLsbD_eq
    intro i hi
    obtain rfl : i = 0 := by omega
    simp [modeOldMode]

/-- A byte, in the pieces that the Tofino plane cuts it into. -/
lemma append_flags : ∀ m : Byte,
    m.extractLsb' 7 1 ++ m.extractLsb' 6 1 ++ m.extractLsb' 5 1 ++ m.extractLsb' 2 3
      ++ m.extractLsb' 1 1 ++ m.extractLsb' 0 1 = m := by
  decide +kernel

/-- The masks of the BMv2 plane pick the bits 6 and 5. -/
lemma Bmv2Hdr.fields_eq (h : Bmv2Hdr) :
    h.fields = ⟨h.type, h.modeOldMode.extractLsb' 6 1, h.modeOldMode.extractLsb' 5 1,
      h.modeOldMode.extractLsb' 0 1, h.modeOldMode.extractLsb' 1 1, h.id, h.machineId, h.agent,
      h.ncnt⟩ := by
  have hmask : ∀ m : Byte, (if m &&& 0x40#8 = 0 then 0 else 1) = m.extractLsb' 6 1
      ∧ (if m &&& 0x20#8 = 0 then 0 else 1) = m.extractLsb' 5 1 := by
    decide +kernel
  rw [fields, (hmask h.modeOldMode).1, (hmask h.modeOldMode).2]

/-- The pieces of the byte that the Tofino plane puts together. -/
lemma modeByte_pieces : ∀ (mc gr tr : BitVec 1) (res : BitVec 3) (old mode : BitVec 1),
    (mc ++ gr ++ tr ++ res ++ old ++ mode : Byte).extractLsb' 6 1 = gr
      ∧ (mc ++ gr ++ tr ++ res ++ old ++ mode : Byte).extractLsb' 5 1 = tr
      ∧ (mc ++ gr ++ tr ++ res ++ old ++ mode : Byte).extractLsb' 1 1 = old
      ∧ (mc ++ gr ++ tr ++ res ++ old ++ mode : Byte).extractLsb' 0 1 = mode := by
  decide +kernel

/-- The header that the Tofino parser finds in a buffer that a host has filled. -/
def TofinoHdr.ofPost (t op : Byte) (lid : LockId) (hid : HostId) (tid : TaskId) (wqSize : BitVec 32)
    (ncnt : Byte) (oldState : BitVec 32) (dest : HostId) : TofinoHdr :=
  let m := modeOldMode (op.signExtend 32) oldState
  ⟨t, m.extractLsb' 7 1, m.extractLsb' 6 1, m.extractLsb' 5 1, m.extractLsb' 2 3, m.extractLsb' 1 1,
    m.extractLsb' 0 1, lid, hid, htonl tid, dest, htonl wqSize, ncnt⟩

lemma TofinoHdr.extract_sendPostBytes (t op : Byte) (lid : LockId) (hid : HostId) (tid : TaskId)
    (wqSize : BitVec 32) (wq : List Wqe) (ncnt : Byte) (oldState : BitVec 32) (dest : HostId) :
    extract (stream (sendPostBytes t op lid hid tid wqSize wq ncnt oldState dest))
      = some (ofPost t op lid hid tid wqSize ncnt oldState dest,
          stream (wq.flatMap Wqe.bytes)) := by
  have hbytes : (ofPost t op lid hid tid wqSize ncnt oldState dest).modeByte
      = modeOldMode (op.signExtend 32) oldState := append_flags _
  rw [sendPostBytes_eq, stream_append, ← extract_emit, emit_eq, hbytes]
  rfl

lemma TofinoHdr.fields_ofPost (t op : Byte) (lid : LockId) (hid : HostId) (tid : TaskId)
    (wqSize : BitVec 32) (ncnt : Byte) (oldState : BitVec 32) (dest : HostId) :
    (ofPost t op lid hid tid wqSize ncnt oldState dest).fields
      = ⟨t, 0, 0, op.extractLsb' 0 1, oldState.extractLsb' 0 1, lid, hid, dest, ncnt⟩ := by
  have hext : ∀ op : Byte, (op.signExtend 32).extractLsb' 0 1 = op.extractLsb' 0 1 := by
    decide +kernel
  obtain ⟨hmode, hold, htr, hgr⟩ := modeOldMode_bits (op.signExtend 32) oldState
  simp only [fields, ofPost, hmode, hold, htr, hgr, hext]

/-- The packet that the plane is modelled on: the bits as Booleans, and the parts that only hosts
look at as a host reads them. -/
def TofinoHdr.toPost (h : TofinoHdr) (payload : List Bool) : LockHdr where
  type := .ofByte h.type
  multicasted := decide (h.multicasted = 1)
  granted := decide (h.granted = 1)
  transferred := decide (h.transferred = 1)
  oldMode := decide (h.oldMode = 1)
  mode := decide (h.mode = 1)
  id := h.id
  machineId := h.machineId
  taskId := htonl h.taskId
  agent := h.agent
  wq := readWqes (toBytes payload)
  ncnt := h.ncnt

/-- **The bytes and the model of a packet agree**: the buffer that `send_post_lock_generic` fills is
the packet that `sendPostLockGeneric` returns. -/
theorem TofinoHdr.toPost_sendPostBytes (t : Byte) (op oldState : LockState) (lid : LockId)
    (hid : HostId) (tid : TaskId) (wq : List Wqe) (ncnt : Byte) (dest : HostId) :
    (extract (stream (sendPostBytes t (op.value.setWidth 8) lid hid tid
        (BitVec.ofNat 32 wq.length) wq ncnt (oldState.value.setWidth 32) dest))).map
          (fun r => r.1.toPost r.2)
      = some (sendPostLockGeneric (.ofByte t) op lid hid tid wq ncnt oldState dest) := by
  rw [extract_sendPostBytes, Option.map_some]
  simp only [toPost, ofPost, sendPostLockGeneric, toBytes_stream, readWqes_flatMap, htonl_htonl]
  cases op <;> cases oldState <;> rfl

/-- **The wire format is one format.**  What `send_post_lock_generic` lays out is parsed by both
planes to the fields that were sent; and whatever a plane writes into the header, a host reads
exactly that, with the task id, the queue size and the wait queue as they were sent. -/
theorem wire_format_agrees (t op : Byte) (lid : LockId) (hid : HostId) (tid : TaskId)
    (wqSize : BitVec 32) (wq : List Wqe) (ncnt : Byte) (oldState : BitVec 32) (dest : HostId) :
    ∃ th bh,
      TofinoHdr.extract (stream (sendPostBytes t op lid hid tid wqSize wq ncnt oldState dest))
          = some (th, stream (wq.flatMap Wqe.bytes))
      ∧ Bmv2Hdr.extract (stream (sendPostBytes t op lid hid tid wqSize wq ncnt oldState dest))
          = some (bh, stream (wq.flatMap Wqe.bytes))
      ∧ th.fields = ⟨t, 0, 0, op.extractLsb' 0 1, oldState.extractLsb' 0 1, lid, hid, dest, ncnt⟩
      ∧ bh.fields = th.fields
      ∧ (∀ mc f, hostView (toBytes ((th.rewrite mc f).emit ++ stream (wq.flatMap Wqe.bytes)))
          = some (.of f tid wqSize wq))
      ∧ ∀ type m id mid agent n,
          hostView (toBytes ((bh.rewrite type m id mid agent n).emit
              ++ stream (wq.flatMap Wqe.bytes)))
            = some (.of (bh.rewrite type m id mid agent n).fields tid wqSize wq) := by
  refine ⟨.ofPost t op lid hid tid wqSize ncnt oldState dest,
    ⟨t, modeOldMode (op.signExtend 32) oldState, lid, hid, htonl tid, dest, htonl wqSize, ncnt⟩,
    TofinoHdr.extract_sendPostBytes .., ?_, TofinoHdr.fields_ofPost .., ?_, ?_, ?_⟩
  · rw [sendPostBytes_eq, stream_append, ← Bmv2Hdr.extract_emit, Bmv2Hdr.emit_eq]
  · exact Bmv2Hdr.fields_eq _
  · intro mc f
    rw [TofinoHdr.emit_eq, ← stream_append, toBytes_stream]
    refine (hostView_hdrBytes _ _ _ _ _ _ _ _ _).trans ?_
    simp only [TofinoHdr.modeByte, TofinoHdr.rewrite, modeByte_pieces]
  · intro type m id mid agent n
    rw [Bmv2Hdr.emit_eq, ← stream_append, toBytes_stream, Bmv2Hdr.fields_eq]
    exact hostView_hdrBytes _ _ _ _ _ _ _ _ _

end FissLock
