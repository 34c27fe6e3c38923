import FissLock.Library.StructPack
import FissLock.Sidecar.Script

/-!
# The Python codecs against the header

Two scripts build and read lock packets with the `struct` module: `bmv2_try_acquire.py` and the
test `test_paths.py`.  Both pack with `!BBIIBIBB` and unpack with `!IIBIBB`, which is a machine id
of four bytes, a byte of zeros, an agent of four bytes and a queue size of one.  In the header of
the plane, and of `post.h`, these 10 bytes are a machine id of one byte, a task id of four, an
agent of one and a queue size of four.

`parse_build` says that the two formats fit each other, so that the scripts do not notice.
`testPayload_eq` gives the header that the plane finds in what they send, and
`testParseLockPayload_emitted` what they read from a header.  `codec_iff` says for which field
values this is the intended one: for no host of the cluster.
-/

namespace FissLock
namespace Sidecar

open BitStream StructPack

/-! ## `struct` formats -/

/-- The format `!BBIIBIBB`. -/
def PACK_FORMAT : List ℕ := [1, 1, 4, 4, 1, 4, 1, 1]

/-- The format `!IIBIBB`. -/
def UNPACK_FORMAT : List ℕ := [4, 4, 1, 4, 1, 1]

/-- `mode_old_mode`, on Python's integers. -/
def modeOldModeInt (mode oldMode : ℕ) : ℕ := ((oldMode &&& 1) <<< 1) ||| (mode &&& 1)

/-- The call of `struct.pack` in `build_lock_packet`; `none` is `struct.error`. -/
def packLock (typ mode oldMode lockId machineId agent wqSize ncnt : ℕ) : Option (List Byte) :=
  pack PACK_FORMAT
    [typ, modeOldModeInt mode oldMode, lockId, machineId, 0, agent, wqSize, ncnt]

/-- `build_lock_packet` of `bmv2_try_acquire.py`: the payload. -/
def tryBuildLockPacket (typ mode lockId machineId ncnt : ℕ) : Option (List Byte) :=
  packLock typ mode 0 lockId machineId 0 0 ncnt

/-- `build_lock_packet` of `test_paths.py`: the payload. -/
def testBuildLockPacket (typ mode lockId machineId oldMode ncnt agent wqSize : ℕ) :
    Option (List Byte) :=
  packLock typ mode oldMode lockId machineId agent wqSize ncnt

/-- The dictionary that `parse_lock_payload` of `test_paths.py` returns. -/
structure TestInfo where
  type : ℕ
  mode : ℕ
  oldMode : ℕ
  granted : ℕ
  id : ℕ
  machineId : ℕ
  agent : ℕ
  ncnt : ℕ
  deriving DecidableEq, Repr

/-- What it returns for a payload that is not a whole header, or for one that is. -/
inductive TestParse where
  | short (type modeOldMode : ℕ)
  | full (info : TestInfo)
  deriving DecidableEq, Repr

/-- `parse_lock_payload` of `test_paths.py`. -/
def testParseLockPayload (raw : List Byte) : Option TestParse :=
  match raw with
  | typ :: mom :: _ =>
      if raw.length < 17 then some (.short typ.toNat mom.toNat)
      else
        match unpack UNPACK_FORMAT ((raw.drop 2).take 15) with
        | some [lid, mid, _, agent, _, ncnt] =>
            some (.full
              { type := typ.toNat
                mode := mom.toNat &&& 1
                oldMode := (mom.toNat >>> 1) &&& 1
                granted := (mom.toNat >>> 6) &&& 1
                id := lid
                machineId := mid
                agent := agent
                ncnt := ncnt })
        | _ => none
  | _ => none

/-! ## The intended fields -/

/-- Values for the fields of a header. -/
structure Fields where
  type : Byte
  mode : BitVec 1
  oldMode : BitVec 1
  id : LockId
  machineId : HostId
  agent : HostId
  wqSize : BitVec 32
  ncnt : Byte
  deriving DecidableEq, Repr

/-- The parser of the plane finds a header with these values in the payload, and nothing behind
it. -/
def ParsesAs (payload : Option (List Byte)) (x : Fields) : Prop :=
  ∃ bs h, payload = some bs ∧ Bmv2Hdr.extract (stream bs) = some (h, [])
    ∧ h.type = x.type ∧ h.fields.mode = x.mode ∧ h.fields.oldMode = x.oldMode ∧ h.id = x.id
    ∧ h.machineId = x.machineId ∧ h.agent = x.agent ∧ h.wqSize = x.wqSize ∧ h.ncnt = x.ncnt

/-- A host finds a header with these values in the payload: the bits of `mode_old_mode`, the id in
network order. -/
def ReadAs (payload : Option (List Byte)) (x : Fields) : Prop :=
  ∃ bs r, payload = some bs ∧ readPost bs = some (r, [])
    ∧ r.type = x.type ∧ r.modeOldMode.extractLsb' 0 1 = x.mode
    ∧ r.modeOldMode.extractLsb' 1 1 = x.oldMode ∧ ntohl r.lockId = x.id
    ∧ r.machineId = x.machineId ∧ r.agent = x.agent ∧ r.wqSize = x.wqSize ∧ r.ncnt = x.ncnt

/-- `build_lock_packet` of `bmv2_try_acquire.py` for these values; it has no parameter for the
others. -/
def Fields.tryPayload (x : Fields) : Option (List Byte) :=
  tryBuildLockPacket x.type.toNat x.mode.toNat x.id.toNat x.machineId.toNat x.ncnt.toNat

/-- `build_lock_packet` of `test_paths.py` for these values. -/
def Fields.testPayload (x : Fields) : Option (List Byte) :=
  testBuildLockPacket x.type.toNat x.mode.toNat x.id.toNat x.machineId.toNat x.oldMode.toNat
    x.ncnt.toNat x.agent.toNat x.wqSize.toNat

/-- A payload that starts with this header, as the plane emits it. -/
def emitted (h : Bmv2Hdr) (rest : List Byte) : List Byte := toBytes (h.emit ++ stream rest)

/-- `parse_lock_payload` of `bmv2_try_acquire.py` returns the fields of an emitted header. -/
def TryDecodes (h : Bmv2Hdr) (rest : List Byte) : Prop :=
  ∃ i, parseLockPayload (emitted h rest) = some i ∧ i.type = h.type ∧ i.id = h.id
    ∧ i.machineId.toNat = h.machineId.toNat ∧ i.agent.toNat = h.agent.toNat ∧ i.ncnt = h.ncnt

/-- `parse_lock_payload` of `test_paths.py` returns the fields of an emitted header. -/
def TestDecodes (h : Bmv2Hdr) (rest : List Byte) : Prop :=
  ∃ i, testParseLockPayload (emitted h rest) = some (.full i) ∧ i.type = h.type.toNat
    ∧ i.id = h.id.toNat ∧ i.machineId = h.machineId.toNat ∧ i.agent = h.agent.toNat
    ∧ i.ncnt = h.ncnt.toNat

/-! ## Bytes and numbers -/

lemma toBE_byte (b : Byte) : toBE 1 b.toNat = [b] := by
  simp [toBE]

lemma toBE_word (x : BitVec 32) : toBE 4 x.toNat = le32 (htonl x) := by
  rw [le32_htonl]
  simp [toBE, BitVec.extractLsb', Nat.shiftRight_eq_div_pow]

/-- The 17 bytes of a header, field by field. -/
lemma hdrBytes_toBE (t m : Byte) (id : BitVec 32) (mid : Byte) (task : BitVec 32) (agent : Byte)
    (wq : BitVec 32) (n : Byte) :
    hdrBytes t m id mid task agent wq n
      = [t, m] ++ toBE 4 id.toNat ++ (toBE 1 mid.toNat ++ toBE 4 task.toNat)
        ++ (toBE 1 agent.toNat ++ toBE 4 wq.toNat) ++ [n] := by
  simp only [hdrBytes, toBE_word, toBE_byte, List.append_assoc]

/-- A field of four bytes and a byte, seen as a byte and a field of four bytes. -/
lemma toBE_resplit (x : ℕ) {y : ℕ} (hy : y < 256) :
    toBE 4 x ++ toBE 1 y
      = toBE 1 (x / 2 ^ 24) ++ toBE 4 (x % 2 ^ 24 * 256 + y) := by
  have hnum : x * 256 ^ 1 + y = x / 2 ^ 24 * 256 ^ 4 + (x % 2 ^ 24 * 256 + y) := by omega
  rw [toBE_append 4 1 x y (by omega), toBE_append 1 4 _ _ (by omega), hnum]

/-- `mode_old_mode` is a byte with the two bits. -/
lemma modeOldModeInt_bits : ∀ mode oldMode : BitVec 1,
    modeOldModeInt mode.toNat oldMode.toNat < 256
      ∧ (BitVec.ofNat 8 (modeOldModeInt mode.toNat oldMode.toNat)).extractLsb' 0 1 = mode
      ∧ (BitVec.ofNat 8 (modeOldModeInt mode.toNat oldMode.toNat)).extractLsb' 1 1 = oldMode := by
  decide

/-- The bytes of a header. -/
def headerBytes (h : Bmv2Hdr) : List Byte :=
  hdrBytes h.type h.modeOldMode h.id h.machineId h.taskId h.agent h.wqSize h.ncnt

lemma extract_headerBytes (h : Bmv2Hdr) :
    Bmv2Hdr.extract (stream (headerBytes h)) = some (h, []) := by
  have hext := Bmv2Hdr.extract_emit h []
  rwa [List.append_nil, Bmv2Hdr.emit_eq] at hext

lemma emitted_eq (h : Bmv2Hdr) (rest : List Byte) : emitted h rest = headerBytes h ++ rest := by
  rw [emitted, Bmv2Hdr.emit_eq, ← stream_append, toBytes_stream]
  rfl

/-! ## What the scripts send -/

/-- The header that the plane finds in a payload of the scripts: the machine id and the agent are
0, and what was meant to be them are the front of the task id and of the queue size. -/
def Fields.found (x : Fields) : Bmv2Hdr where
  type := x.type
  modeOldMode := BitVec.ofNat 8 (modeOldModeInt x.mode.toNat x.oldMode.toNat)
  id := x.id
  machineId := 0
  taskId := BitVec.ofNat 32 (x.machineId.toNat * 256)
  agent := 0
  wqSize := BitVec.ofNat 32 (x.agent.toNat * 256 + x.wqSize.toNat)
  ncnt := x.ncnt

lemma testPayload_eq (x : Fields) :
    x.testPayload = if x.wqSize.toNat < 256 then some (headerBytes x.found) else none := by
  have hmode := (modeOldModeInt_bits x.mode x.oldMode).1
  have ht := x.type.isLt
  have hid := x.id.isLt
  have hmid := x.machineId.isLt
  have hag := x.agent.isLt
  have hn := x.ncnt.isLt
  by_cases hwq : x.wqSize.toNat < 256
  · have htask : (BitVec.ofNat 32 (x.machineId.toNat * 256)).toNat = x.machineId.toNat * 256 := by
      rw [BitVec.toNat_ofNat]
      omega
    have hwqs : (BitVec.ofNat 32 (x.agent.toNat * 256 + x.wqSize.toNat)).toNat
        = x.agent.toNat * 256 + x.wqSize.toNat := by
      rw [BitVec.toNat_ofNat]
      omega
    have hmid : toBE 4 x.machineId.toNat ++ toBE 1 0
        = toBE 1 0 ++ toBE 4 (x.machineId.toNat * 256) := by
      rw [toBE_resplit _ (by omega), Nat.div_eq_of_lt (by omega), Nat.mod_eq_of_lt (by omega),
        Nat.add_zero]
    have hag : toBE 4 x.agent.toNat ++ toBE 1 x.wqSize.toNat
        = toBE 1 0 ++ toBE 4 (x.agent.toNat * 256 + x.wqSize.toNat) := by
      rw [toBE_resplit _ hwq, Nat.div_eq_of_lt (by omega), Nat.mod_eq_of_lt (by omega)]
    have hpack : x.testPayload
        = some ([x.type, BitVec.ofNat 8 (modeOldModeInt x.mode.toNat x.oldMode.toNat)]
        ++ toBE 4 x.id.toNat ++ (toBE 4 x.machineId.toNat ++ toBE 1 0)
        ++ (toBE 4 x.agent.toNat ++ toBE 1 x.wqSize.toNat) ++ [x.ncnt]) := by
      simp only [Fields.testPayload, testBuildLockPacket, packLock, PACK_FORMAT, pack]
      repeat rw [if_pos (by omega)]
      simp only [Option.map_some, toBE_byte, List.append_assoc, List.append_nil]
      simp [toBE]
    rw [if_pos hwq, hpack, hmid, hag, headerBytes, hdrBytes_toBE]
    simp only [Fields.found, htask, hwqs]
    rfl
  · rw [if_neg hwq]
    simp [Fields.testPayload, testBuildLockPacket, packLock, PACK_FORMAT, pack, hwq]

/-- The packet of `bmv2_try_acquire.py` is the one of `test_paths.py` with the other fields 0. -/
lemma tryPayload_eq (x : Fields) :
    x.tryPayload = ({ x with oldMode := 0, agent := 0, wqSize := 0 } : Fields).testPayload := rfl

/-- And it is the payload of the script's commands. -/
theorem tryBuildLockPacket_eq (typ mode : Byte) (lid : LockId) (mid : MachineId) (ncnt : Byte) :
    tryBuildLockPacket typ.toNat mode.toNat lid.toNat mid.toNat ncnt.toNat
      = some (buildLockPacket typ mode lid mid ncnt) := by
  have hmode : ∀ m : Byte, modeOldModeInt m.toNat 0 = (modeOldMode m 0).toNat := by decide
  have ht := typ.isLt
  have hm := (modeOldMode mode 0).isLt
  have hl := lid.isLt
  have hi := mid.isLt
  have hn := ncnt.isLt
  simp only [tryBuildLockPacket, packLock, PACK_FORMAT, pack, hmode]
  repeat rw [if_pos (by omega)]
  simp only [Option.map_some, toBE_byte, toBE_word, buildLockPacket, be32, List.append_assoc,
    List.append_nil]
  rfl

lemma parsesAs_testPayload (x : Fields) :
    ParsesAs x.testPayload x ↔ x.machineId = 0 ∧ x.agent = 0 ∧ x.wqSize.toNat < 256 := by
  constructor
  · rintro ⟨bs, h, hbs, hext, -, -, -, -, hmid, hag, -, -⟩
    rw [testPayload_eq] at hbs
    split at hbs
    · next hwq =>
        rw [Option.some.injEq] at hbs
        rw [← hbs, extract_headerBytes, Option.some.injEq, Prod.mk.injEq] at hext
        rw [← hext.1] at hmid hag
        exact ⟨hmid.symm, hag.symm, hwq⟩
    · cases hbs
  · rintro ⟨hmid, hag, hwq⟩
    have hbits := modeOldModeInt_bits x.mode x.oldMode
    refine ⟨_, x.found, (testPayload_eq x).trans (if_pos hwq), extract_headerBytes _, rfl, ?_, ?_, rfl,
      hmid.symm, hag.symm, ?_, rfl⟩
    · exact hbits.2.1
    · exact hbits.2.2
    · simp [Fields.found, hag]

/-- The header as a host reads it. -/
lemma readPost_headerBytes (h : Bmv2Hdr) :
    readPost (headerBytes h)
      = some (⟨h.type, h.modeOldMode, htonl h.id, h.machineId, htonl h.taskId, h.agent, htonl h.wqSize,
          h.ncnt⟩, []) := by
  rw [headerBytes, hdrBytes, le32, le32, le32]
  simp only [List.cons_append, List.nil_append, readPost, ofLe32_le32]

/-- A byte in network order is another number, unless it is 0. -/
lemma htonl_eq_self {x : BitVec 32} (hx : x.toNat < 256) : htonl x = x ↔ x = 0 := by
  constructor
  · intro h
    have hbytes : le32 x
        = [x.extractLsb' 24 8, x.extractLsb' 16 8, x.extractLsb' 8 8, x.extractLsb' 0 8] := by
      rw [← le32_htonl, h]
    have hlow : x.extractLsb' 0 8 = x.extractLsb' 24 8 := by
      rw [le32, List.cons.injEq] at hbytes
      exact hbytes.1
    have hnat := congrArg BitVec.toNat hlow
    simp only [BitVec.extractLsb'_toNat, Nat.shiftRight_eq_div_pow, pow_zero, Nat.div_one,
      Nat.div_eq_of_lt (show x.toNat < 2 ^ 24 by omega)] at hnat
    apply BitVec.eq_of_toNat_eq
    show x.toNat = 0
    omega
  · rintro rfl
    rfl

lemma readAs_testPayload (x : Fields) :
    ReadAs x.testPayload x ↔ x.machineId = 0 ∧ x.agent = 0 ∧ x.wqSize = 0 := by
  constructor
  · rintro ⟨bs, r, hbs, hread, -, -, -, -, hmid, hag, hwqs, -⟩
    rw [testPayload_eq] at hbs
    split at hbs
    · next hwq =>
        rw [Option.some.injEq] at hbs
        rw [← hbs, readPost_headerBytes, Option.some.injEq, Prod.mk.injEq] at hread
        rw [← hread.1] at hmid hag hwqs
        have hag' : x.agent = 0 := hag.symm
        have hfound : x.found.wqSize = x.wqSize := by simp [Fields.found, hag']
        simp only [hfound] at hwqs
        exact ⟨hmid.symm, hag', (htonl_eq_self hwq).1 hwqs⟩
    · cases hbs
  · rintro ⟨hmid, hag, hwq⟩
    have hbits := modeOldModeInt_bits x.mode x.oldMode
    refine ⟨_, _, (testPayload_eq x).trans (if_pos (by simp [hwq])), readPost_headerBytes _, rfl,
      hbits.2.1, hbits.2.2, htonl_htonl _, hmid.symm, hag.symm, ?_, rfl⟩
    simp [Fields.found, hag, hwq]
    rfl

/-! ## What the scripts read -/

/-- Four bytes as a word, and as a big-endian number. -/
lemma toNat_append_bytes (b₀ b₁ b₂ b₃ : Byte) :
    (b₀ ++ b₁ ++ b₂ ++ b₃).toNat = ofBE [b₀, b₁, b₂, b₃] := by
  have hbytes : toBE 4 (b₀ ++ b₁ ++ b₂ ++ b₃).toNat = [b₀, b₁, b₂, b₃] := by
    have h := le32_append b₀ b₁ b₂ b₃
    simp only [le32, List.cons.injEq, and_true] at h
    rw [toBE_word, le32_htonl, h.1, h.2.1, h.2.2.1, h.2.2.2]
  rw [← hbytes, ofBE_toBE]
  exact (Nat.mod_eq_of_lt (b₀ ++ b₁ ++ b₂ ++ b₃).isLt).symm

/-- The two decoders read the same numbers. -/
lemma testParseLockPayload_of_parse {raw : List Byte} {i : Info}
    (h : parseLockPayload raw = some i) :
    ∃ j, testParseLockPayload raw = some (.full j) ∧ j.type = i.type.toNat ∧ j.id = i.id.toNat
      ∧ j.machineId = i.machineId.toNat ∧ j.agent = i.agent.toNat ∧ j.ncnt = i.ncnt.toNat := by
  unfold parseLockPayload at h
  split at h
  · next t m l₀ l₁ l₂ l₃ h₀ h₁ h₂ h₃ _ a₀ a₁ a₂ a₃ _ n _ =>
      rw [Option.some.injEq] at h
      subst h
      refine ⟨⟨t.toNat, m.toNat &&& 1, (m.toNat >>> 1) &&& 1, (m.toNat >>> 6) &&& 1,
        ofBE [l₀, l₁, l₂, l₃], ofBE [h₀, h₁, h₂, h₃], ofBE [a₀, a₁, a₂, a₃], ofBE [n]⟩, ?_, rfl,
        (toNat_append_bytes ..).symm, (toNat_append_bytes ..).symm, (toNat_append_bytes ..).symm, ?_⟩
      · simp [testParseLockPayload, unpack, UNPACK_FORMAT]
      · simp [ofBE]
  · cases h

/-- What `test_paths.py` reads from a header. -/
lemma testParseLockPayload_emitted (h : Bmv2Hdr) (rest : List Byte) :
    ∃ i, testParseLockPayload (emitted h rest) = some (.full i) ∧ i.type = h.type.toNat
      ∧ i.id = h.id.toNat ∧ i.machineId = h.machineId.toNat * 2 ^ 24 + h.taskId.toNat / 256
      ∧ i.agent = h.agent.toNat * 2 ^ 24 + h.wqSize.toNat / 256 ∧ i.ncnt = h.ncnt.toNat := by
  have hid := h.id.isLt
  have hmid := h.machineId.isLt
  have htask := h.taskId.isLt
  have hag := h.agent.isLt
  have hwq := h.wqSize.isLt
  have hn := h.ncnt.isLt
  have hback : ∀ {m t : ℕ}, t < 2 ^ 32 →
      toBE 1 m ++ toBE 4 t = toBE 4 (m * 2 ^ 24 + t / 256) ++ toBE 1 (t % 256) := by
    intro m t ht
    have hnum : m * 256 ^ 4 + t = (m * 2 ^ 24 + t / 256) * 256 ^ 1 + t % 256 := by omega
    rw [toBE_append 1 4 m t (by omega), toBE_append 4 1 _ _ (by omega), hnum]
  have hpack : pack UNPACK_FORMAT [h.id.toNat, h.machineId.toNat * 2 ^ 24 + h.taskId.toNat / 256,
      h.taskId.toNat % 256, h.agent.toNat * 2 ^ 24 + h.wqSize.toNat / 256, h.wqSize.toNat % 256,
      h.ncnt.toNat] = some ((headerBytes h).drop 2) := by
    simp only [UNPACK_FORMAT, pack]
    repeat rw [if_pos (by omega)]
    rw [headerBytes, hdrBytes_toBE, hback htask, hback hwq]
    simp [toBE_byte]
  have hlen : (headerBytes h).length = 17 := by
    rw [headerBytes, hdrBytes_toBE]
    simp
  have hshape : headerBytes h = h.type :: h.modeOldMode :: (headerBytes h).drop 2 := by
    rw [headerBytes, hdrBytes_toBE]
    rfl
  have htake : ((headerBytes h ++ rest).drop 2).take 15 = (headerBytes h).drop 2 := by
    rw [List.drop_append_of_le_length (by omega), List.take_left' (by simp [hlen])]
  refine ⟨⟨h.type.toNat, h.modeOldMode.toNat &&& 1, (h.modeOldMode.toNat >>> 1) &&& 1,
    (h.modeOldMode.toNat >>> 6) &&& 1, _, _, _, _⟩, ?_, rfl, rfl, rfl, rfl, rfl⟩
  rw [emitted_eq, hshape, List.cons_append, List.cons_append, testParseLockPayload]
  rw [← List.cons_append, ← List.cons_append, ← hshape, htake, unpack_pack hpack,
    if_neg (by simp [hlen])]
  rfl

lemma testDecodes_iff (h : Bmv2Hdr) (rest : List Byte) :
    TestDecodes h rest
      ↔ h.machineId = 0 ∧ h.agent = 0 ∧ h.taskId.toNat < 256 ∧ h.wqSize.toNat < 256 := by
  obtain ⟨i, hi, htype, hid, hmid, hag, hn⟩ := testParseLockPayload_emitted h rest
  have hzero : ∀ b : Byte, b = 0 ↔ b.toNat = 0 := by decide
  rw [hzero, hzero]
  constructor
  · rintro ⟨j, hj, -, -, hjmid, hjag, -⟩
    rw [hi, Option.some.injEq, TestParse.full.injEq] at hj
    subst hj
    omega
  · rintro ⟨hm, ha, ht, hw⟩
    exact ⟨i, hi, htype, hid, by omega, by omega, hn⟩

lemma tryDecodes_iff_testDecodes (h : Bmv2Hdr) (rest : List Byte) :
    TryDecodes h rest ↔ TestDecodes h rest := by
  have hsome : ∃ i, parseLockPayload (emitted h rest) = some i := by
    rw [emitted_eq, headerBytes, hdrBytes, le32_htonl, le32_htonl, le32_htonl]
    exact ⟨_, rfl⟩
  obtain ⟨i, hi⟩ := hsome
  obtain ⟨j, hj, htype, hid, hmid, hag, hn⟩ := testParseLockPayload_of_parse hi
  constructor
  · rintro ⟨i', hi', htype', hid', hmid', hag', hn'⟩
    rw [hi, Option.some.injEq] at hi'
    subst hi'
    exact ⟨j, hj, by rw [htype, htype'], by rw [hid, hid'], hmid.trans hmid', hag.trans hag',
      by rw [hn, hn']⟩
  · rintro ⟨j', hj', htype', hid', hmid', hag', hn'⟩
    rw [hj, Option.some.injEq, TestParse.full.injEq] at hj'
    subst hj'
    exact ⟨i, hi, BitVec.eq_of_toNat_eq (htype.symm.trans htype'),
      BitVec.eq_of_toNat_eq (hid.symm.trans hid'), hmid.symm.trans hmid', hag.symm.trans hag',
      BitVec.eq_of_toNat_eq (hn.symm.trans hn')⟩

/-! ## The codecs -/

/-- **The scripts understand themselves.**  Whatever `build_lock_packet` packs, `parse_lock_payload`
unpacks. -/
theorem parse_build {typ mode oldMode lockId machineId agent wqSize ncnt : ℕ} {bs : List Byte}
    (h : packLock typ mode oldMode lockId machineId agent wqSize ncnt = some bs) :
    ∃ i, testParseLockPayload bs = some (.full i) ∧ i.type = typ ∧ i.id = lockId
      ∧ i.machineId = machineId ∧ i.agent = agent ∧ i.ncnt = ncnt := by
  rw [packLock, show PACK_FORMAT = 1 :: 1 :: UNPACK_FORMAT from rfl, pack] at h
  split at h
  · next htyp =>
      obtain ⟨tail, htail, rfl⟩ := Option.map_eq_some_iff.1 h
      rw [pack] at htail
      split at htail
      · obtain ⟨rest, hrest, rfl⟩ := Option.map_eq_some_iff.1 htail
        have hlen : rest.length = 15 := length_pack hrest
        let mom := (BitVec.ofNat 8 (modeOldModeInt mode oldMode / 256 ^ 0)).toNat
        refine ⟨⟨typ, mom &&& 1, (mom >>> 1) &&& 1, (mom >>> 6) &&& 1, lockId, machineId, agent,
          ncnt⟩, ?_, rfl, rfl, rfl, rfl, rfl⟩
        have htoNat : (BitVec.ofNat 8 (typ / 256 ^ 0)).toNat = typ := by
          rw [BitVec.toNat_ofNat, pow_zero, Nat.div_one]
          exact Nat.mod_eq_of_lt (by omega)
        simp only [toBE, List.cons_append, List.nil_append, testParseLockPayload, List.length_cons,
          hlen, List.drop_succ_cons, List.drop_zero, List.take_of_length_le hlen.le,
          unpack_pack hrest, htoNat]
        rfl
      · cases htail
  · cases h

/-- **The Python codecs against the header.**  What the scripts send is parsed to the values they
were given exactly if the machine id and the agent are 0 and the queue size is below 256 (or 0,
where a host reads it); and they read the fields of a header exactly if its machine id and agent
are 0 and its task id and queue size below 256. -/
theorem codec_iff (x : Fields) (h : Bmv2Hdr) (rest : List Byte) :
    (ParsesAs x.tryPayload { x with oldMode := 0, agent := 0, wqSize := 0 } ↔ x.machineId = 0)
    ∧ (ParsesAs x.testPayload x ↔ x.machineId = 0 ∧ x.agent = 0 ∧ x.wqSize.toNat < 256)
    ∧ (ReadAs x.tryPayload { x with oldMode := 0, agent := 0, wqSize := 0 } ↔ x.machineId = 0)
    ∧ (ReadAs x.testPayload x ↔ x.machineId = 0 ∧ x.agent = 0 ∧ x.wqSize = 0)
    ∧ (TryDecodes h rest
      ↔ h.machineId = 0 ∧ h.agent = 0 ∧ h.taskId.toNat < 256 ∧ h.wqSize.toNat < 256)
    ∧ (TestDecodes h rest
      ↔ h.machineId = 0 ∧ h.agent = 0 ∧ h.taskId.toNat < 256 ∧ h.wqSize.toNat < 256) := by
  refine ⟨?_, parsesAs_testPayload x, ?_, readAs_testPayload x, ?_, testDecodes_iff h rest⟩
  · rw [tryPayload_eq, parsesAs_testPayload]
    simp
  · rw [tryPayload_eq, readAs_testPayload]
    simp
  · rw [tryDecodes_iff_testDecodes, testDecodes_iff]

/-- A header that the switch emits, with what is behind it. -/
def Emits (h : Bmv2Hdr) (rest : List Byte) : Prop :=
  ∃ r raw out port, planeBytes r raw = some out ∧ (port, emitted h rest) ∈ out.2

/-- An `ACQUIRE` of the scripts for lock 5 and machine 1. -/
def acquireFields : Fields :=
  { type := ACQUIRE, mode := 1, oldMode := 0, id := 5, machineId := 1, agent := 0, wqSize := 0
    ncnt := 0 }

/-- The grant of lock 5 to task 6 of host 1. -/
def grantHdr : Bmv2Hdr :=
  ⟨GRANT_W_AGENT, 1, 5, 1, htonl 6, 1, 0, 0⟩

/-- The plane takes the machine id of the scripts for 0, and the scripts do not find the machine id
of a grant that the switch emits. -/
theorem codec_fails :
    (¬ ∀ x : Fields, ParsesAs x.tryPayload { x with oldMode := 0, agent := 0, wqSize := 0 })
    ∧ (¬ ∀ x : Fields, ParsesAs x.testPayload x)
    ∧ (¬ ∀ h rest, Emits h rest → TryDecodes h rest)
    ∧ ¬ ∀ h rest, Emits h rest → TestDecodes h rest := by
  have hemit : Emits grantHdr [] := by
    have hout : (planeBytes Bmv2.Regs.init (sendPostBytes ACQUIRE 3 5 1 6 0 [] 0 0 1)).map Prod.snd
        = some [(1, emitted grantHdr [])] := by decide +kernel
    obtain ⟨out, hplane, hsnd⟩ := Option.map_eq_some_iff.1 hout
    exact ⟨_, _, out, 1, hplane, by simp [hsnd]⟩
  have hone : grantHdr.machineId ≠ 0 := by decide
  refine ⟨fun h => ?_, fun h => ?_, fun h => ?_, fun h => ?_⟩
  · have hx := h acquireFields
    rw [tryPayload_eq, parsesAs_testPayload] at hx
    exact absurd hx.1 (by decide)
  · exact absurd ((parsesAs_testPayload acquireFields).1 (h _)).1 (by decide)
  · exact hone ((testDecodes_iff _ _).1 ((tryDecodes_iff_testDecodes _ _).1 (h _ _ hemit))).1
  · exact hone ((testDecodes_iff _ _).1 (h _ _ hemit)).1

end Sidecar
end FissLock
