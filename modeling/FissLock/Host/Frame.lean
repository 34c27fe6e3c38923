import FissLock.Library.OnesComplement
import FissLock.Wire.Bytes

/-!
# Frames and their checksums

`bmv2_net.cc` puts the Ethernet, IPv4 and UDP headers in front of a post and fills in the lengths
and both checksums, because the switch may drop a packet without them.

* `checksumFold` — the end-around carry of a 32-bit sum.  `toNat_checksumFold` says that it
  computes the residue of one's-complement arithmetic, and `checksumFold_terminates` counts the
  rounds of its loop;
* `ipTerms`, `udpTerms` — what the two loops add up, in their order.  The accumulator has 32 bits,
  and `noOverflow_of_length` is why that is enough;
* `buildFrameFromPost` — the frame, and `buildFrameFromPost_eq`: what it looks like.

A pointer into the frame is the rest of the frame from there on.
-/

namespace FissLock

open OnesComplement

/-! ## Bytes in network order -/

/-- A 16-bit word in network order: what `htons` leaves in memory. -/
def be16 (x : BitVec 16) : List Byte := [x.extractLsb' 8 8, x.extractLsb' 0 8]

/-- The two bytes at `p + i` as a number, in network order. -/
def readBe16 (p : List Byte) (i : ℕ) : ℕ := (p.getD i 0).toNat * 2 ^ 8 + (p.getD (i + 1) 0).toNat

/-- `memcpy(out + off, bs, sizeof(bs))`. -/
def writeAt (out : List Byte) (off : ℕ) (bs : List Byte) : List Byte :=
  out.take off ++ bs ++ out.drop (off + bs.length)

/-- `(static_cast<uint32_t>(p[i]) << 8) | p[i + 1]`. -/
def wordAt (p : List Byte) (i : ℕ) : BitVec 32 :=
  (p.getD i 0).setWidth 32 <<< 8 ||| (p.getD (i + 1) 0).setWidth 32

/-! ## The checksum -/

/-- The body of the loop of `checksum_fold`. -/
def foldRound (sum : BitVec 32) : BitVec 32 := (sum &&& 0xffff#32) + (sum >>> 16)

lemma toNat_and_ffff (s : BitVec 32) : (s &&& 0xffff#32).toNat = s.toNat % 2 ^ 16 := by
  rw [BitVec.toNat_and]
  exact Nat.and_two_pow_sub_one_eq_mod s.toNat 16

lemma toNat_shiftRight_sixteen (s : BitVec 32) : (s >>> 16).toNat = s.toNat / 2 ^ 16 := by
  rw [BitVec.toNat_ushiftRight, Nat.shiftRight_eq_div_pow]

/-- The two halves of a sum fit together into 32 bits. -/
lemma foldRound_no_overflow (s : BitVec 32) :
    (s &&& 0xffff#32).toNat + (s >>> 16).toNat < 2 ^ 32 := by
  have hs := s.isLt
  rw [toNat_and_ffff, toNat_shiftRight_sixteen]
  omega

lemma toNat_foldRound (s : BitVec 32) : (foldRound s).toNat = carry (2 ^ 16) s.toNat := by
  rw [foldRound, BitVec.toNat_add, Nat.mod_eq_of_lt (foldRound_no_overflow s), toNat_and_ffff,
    toNat_shiftRight_sixteen, carry]

lemma shiftRight_sixteen_eq_zero {s : BitVec 32} : s >>> 16 = 0 ↔ s.toNat / 2 ^ 16 = 0 := by
  rw [← toNat_shiftRight_sixteen, ← BitVec.toNat_inj]
  rfl

lemma foldRound_lt {s : BitVec 32} (hs : s >>> 16 ≠ 0) : (foldRound s).toNat < s.toNat := by
  rw [toNat_foldRound]
  exact carry_lt (by norm_num) fun h => hs (shiftRight_sixteen_eq_zero.2 h)

/-- `checksum_fold`. -/
def checksumFold (sum : BitVec 32) : BitVec 32 :=
  if sum >>> 16 ≠ 0 then checksumFold (foldRound sum) else sum
termination_by sum.toNat
decreasing_by exact foldRound_lt ‹_›

/-- `checksum_fold` computes the residue. -/
lemma toNat_checksumFold (s : BitVec 32) : (checksumFold s).toNat = residue (2 ^ 16) s.toNat := by
  induction s using checksumFold.induct with
  | case1 s hs ih =>
      rw [checksumFold, if_pos hs, ih, toNat_foldRound, residue_carry (by norm_num)]
  | case2 s hs =>
      have hzero : s.toNat / 2 ^ 16 = 0 := shiftRight_sixteen_eq_zero.1 (not_not.1 hs)
      rw [checksumFold, if_neg hs, residue_of_lt (by omega)]

/-- The loop is left after some number of rounds, with what `checksum_fold` returns. -/
lemma checksumFold_terminates (s : BitVec 32) :
    ∃ n, (∀ i < n, foldRound^[i] s >>> 16 ≠ 0) ∧ foldRound^[n] s >>> 16 = 0
      ∧ checksumFold s = foldRound^[n] s := by
  induction s using checksumFold.induct with
  | case1 s hs ih =>
      obtain ⟨n, hloop, hleave, heq⟩ := ih
      refine ⟨n + 1, ?_, hleave, ?_⟩
      · intro i hi
        cases i with
        | zero => exact hs
        | succ i => exact hloop i (Nat.lt_of_succ_lt_succ hi)
      · rw [checksumFold, if_pos hs, heq, Function.iterate_succ_apply]
  | case2 s hs =>
      refine ⟨0, fun i hi => absurd hi (Nat.not_lt_zero i), not_not.1 hs, ?_⟩
      rw [checksumFold, if_neg hs, Function.iterate_zero_apply]

/-- `sum`, after the terms of a loop have been added to it. -/
def accumulate (terms : List (BitVec 32)) : BitVec 32 := terms.foldl (· + ·) 0

/-- `static_cast<uint16_t>(~checksum_fold(sum))`. -/
def checksum (terms : List (BitVec 32)) : BitVec 16 :=
  (~~~ checksumFold (accumulate terms)).setWidth 16

/-- Every value that `sum` takes on is the sum of what has been added so far. -/
def NoOverflow (terms : List (BitVec 32)) : Prop :=
  ∀ k, (accumulate (terms.take k)).toNat = ((terms.take k).map BitVec.toNat).sum

/-! ## The headers -/

/-- `SERVER_POST_TYPE` of `net.h`. -/
def SERVER_POST_TYPE : BitVec 16 := 20001

/-- `CLIENT_POST_TYPE` of `net.h`. -/
def CLIENT_POST_TYPE : BitVec 16 := 20002

/-- The Ethernet header. -/
def ethHdr : List Byte :=
  [0x00, 0x00, 0x00, 0x00, 0x01, 0x00] ++ [0x00, 0x00, 0x00, 0x00, 0x00, 0x01] ++ [0x08, 0x00]

/-- The IPv4 header from 10.0.0.1 to 10.0.0.2, with this total length and checksum. -/
def ipHdr (len csum : BitVec 16) : List Byte :=
  [0x45, 0] ++ be16 len ++ [0, 0, 0, 0, 0, 17] ++ be16 csum ++ [10, 0, 0, 1, 10, 0, 0, 2]

/-- The UDP header with this length and checksum. -/
def udpHdr (len csum : BitVec 16) : List Byte :=
  [0x75, 0x30] ++ be16 SERVER_POST_TYPE ++ be16 len ++ be16 csum

/-- `g_eth_template`, as `init_header_template` leaves it. -/
def initHeaderTemplate : List Byte := ethHdr ++ ipHdr 0 0 ++ udpHdr 0 0

/-! ## Building a frame -/

/-- The terms of the loop over the IPv4 header, whose checksum is zero then. -/
def ipTerms (frame : List Byte) : List (BitVec 32) :=
  let ip := (writeAt frame (14 + 10) [0, 0]).drop 14
  (List.range 10).map fun k => wordAt ip (2 * k)

/-- The terms of the loop over `n` bytes of the datagram; a last byte without another is the upper
half of a word. -/
def loopTerms (udp : List Byte) (n : ℕ) : List (BitVec 32) :=
  (List.range ((n + 1) / 2)).map fun k =>
    if 2 * k + 1 < n then wordAt udp (2 * k) else (udp.getD (2 * k) 0).setWidth 32 <<< 8

/-- The terms of the sum over the pseudo-header and the datagram, whose checksum is zero then. -/
def udpTerms (frame : List Byte) (postSize : ℕ) : List (BitVec 32) :=
  let frame := writeAt frame (14 + 20 + 6) [0, 0]
  let ip := frame.drop 14
  let udp := ip.drop 20
  let udpLen := 8 + postSize
  [wordAt ip 12, wordAt ip 14, wordAt ip 16, wordAt ip 18, 17, BitVec.ofNat 32 udpLen]
    ++ loopTerms udp udpLen

/-- The first half of `fix_ipv4_udp_checksums`. -/
def fixIpv4Checksum (frame : List Byte) : List Byte :=
  writeAt frame (14 + 10) (be16 (checksum (ipTerms frame)))

/-- The second half of `fix_ipv4_udp_checksums`. -/
def fixUdpChecksum (frame : List Byte) (postSize : ℕ) : List Byte :=
  let udpCsum := checksum (udpTerms frame postSize)
  writeAt frame (14 + 20 + 6) (be16 (if udpCsum = 0 then 0xffff else udpCsum))

/-- `fix_ipv4_udp_checksums`. -/
def fixIpv4UdpChecksums (frame : List Byte) (postSize : ℕ) : List Byte :=
  fixUdpChecksum (fixIpv4Checksum frame) postSize

/-- `build_frame_from_post`, up to the checksums. -/
def frameWithLengths (post : List Byte) : List Byte :=
  let out := initHeaderTemplate ++ post
  let out := writeAt out (14 + 2) (be16 (BitVec.ofNat 16 (20 + 8 + post.length)))
  writeAt out (14 + 20 + 4) (be16 (BitVec.ofNat 16 (8 + post.length)))

/-- `build_frame_from_post`, for the `post_size` bytes behind the headers of a packet buffer. -/
def buildFrameFromPost (post : List Byte) : List Byte :=
  fixIpv4UdpChecksums (frameWithLengths post) post.length

/-! ## What a receiver asks for -/

/-- The pseudo-header of a frame whose IPv4 header is 20 bytes long: both addresses, the protocol
and the UDP length. -/
def pseudoHeader (frame : List Byte) : List Byte :=
  (frame.drop (14 + 12)).take 8 ++ [0, 17] ++ (frame.drop (14 + 20 + 4)).take 2

/-- A frame around a post, with its lengths and its checksums right. -/
structure ValidFrame (post frame : List Byte) : Prop where
  payload : frame.drop (14 + 20 + 8) = post
  length : frame.length = 14 + 20 + 8 + post.length
  ipLength : readBe16 (frame.drop 14) 2 = 20 + 8 + post.length
  udpLength : readBe16 (frame.drop (14 + 20)) 4 = 8 + post.length
  ipChecksum : sum (2 ^ 16) (words ((frame.drop 14).take 20)) = 0xFFFF
  udpChecksum : sum (2 ^ 16) (words (pseudoHeader frame ++ frame.drop (14 + 20))) = 0xFFFF
  udpChecksum_ne_zero : readBe16 (frame.drop (14 + 20)) 6 ≠ 0

/-! ## Terms as words -/

lemma toNat_word (a b : Byte) :
    (a.setWidth 32 <<< 8 ||| b.setWidth 32 : BitVec 32).toNat = a.toNat * 2 ^ 8 + b.toNat := by
  have ha := a.isLt
  have hb := b.isLt
  have hshift : (a.setWidth 32 <<< 8 : BitVec 32).toNat = a.toNat <<< 8 := by
    rw [BitVec.toNat_shiftLeft, BitVec.toNat_setWidth, Nat.mod_eq_of_lt (by omega : a.toNat < 2 ^ 32),
      Nat.shiftLeft_eq, Nat.mod_eq_of_lt (by omega)]
  have hset : (b.setWidth 32).toNat = b.toNat := by
    rw [BitVec.toNat_setWidth, Nat.mod_eq_of_lt (by omega)]
  rw [BitVec.toNat_or, hshift, hset, ← Nat.shiftLeft_add_eq_or_of_lt hb, Nat.shiftLeft_eq]

lemma toNat_upper (a : Byte) : (a.setWidth 32 <<< 8 : BitVec 32).toNat = a.toNat * 2 ^ 8 := by
  have h := toNat_word a 0
  simpa using h

lemma toNat_wordAt (p : List Byte) (i : ℕ) : (wordAt p i).toNat = readBe16 p i := toNat_word _ _

lemma words_be16 (x : BitVec 16) : words (be16 x) = [x.toNat] := by
  have hx := x.isLt
  simp [words, be16, Nat.shiftRight_eq_div_pow]
  omega

lemma readBe16_be16 (x : BitVec 16) (pre suf : List Byte) :
    readBe16 (pre ++ be16 x ++ suf) pre.length = x.toNat := by
  have hx := x.isLt
  simp [readBe16, be16, List.getD_eq_getElem?_getD, Nat.shiftRight_eq_div_pow]
  omega

/-- The loop over the datagram adds up its words. -/
lemma loopTerms_words (bs : List Byte) :
    (loopTerms bs bs.length).map BitVec.toNat = words bs := by
  induction bs using words.induct with
  | case1 a b bs ih =>
      have hlen : ((a :: b :: bs).length + 1) / 2 = (bs.length + 1) / 2 + 1 := by
        simp only [List.length_cons]
        omega
      -- behind the first word the loop does on the list what it does on its tail
      rw [words, ← ih, loopTerms, loopTerms, hlen, List.range_succ_eq_map]
      simp only [List.map_cons, List.map_map, List.length_cons]
      congr 1
      · rw [if_pos (by omega), toNat_wordAt]
        rfl
      · apply List.map_congr_left
        intro k _
        have hsucc : 2 * (k + 1) = 2 * k + 1 + 1 := by omega
        simp only [Function.comp_apply, hsucc, List.getD_cons_succ, wordAt, Nat.add_lt_add_iff_right]
  | case2 a =>
      have hround : loopTerms [a] 1 = [a.setWidth 32 <<< 8] := by simp [loopTerms]
      rw [words, ← toNat_upper, List.length_singleton, hround, List.map_singleton]
  | case3 => simp [loopTerms, words]

lemma toNat_accumulate (terms : List (BitVec 32)) :
    (accumulate terms).toNat = (terms.map BitVec.toNat).sum % 2 ^ 32 := by
  suffices hfold : ∀ s : BitVec 32, (terms.foldl (· + ·) s).toNat
      = (s.toNat + (terms.map BitVec.toNat).sum) % 2 ^ 32 by
    have h0 := hfold 0
    simpa [accumulate] using h0
  induction terms with
  | nil =>
      intro s
      simp [Nat.mod_eq_of_lt s.isLt]
  | cons t terms ih =>
      intro s
      rw [List.foldl_cons, ih, BitVec.toNat_add, List.map_cons, List.sum_cons, Nat.mod_add_mod,
        Nat.add_assoc]

/-- Fewer than `2 ^ 16` terms of 16 bits do not overflow. -/
lemma sum_lt_of_terms {terms : List (BitVec 32)} (hlen : terms.length ≤ 2 ^ 16)
    (hterms : ∀ t ∈ terms, t.toNat < 2 ^ 16) : (terms.map BitVec.toNat).sum < 2 ^ 32 := by
  have hle : (terms.map BitVec.toNat).sum ≤ (terms.map BitVec.toNat).length • (2 ^ 16 - 1) := by
    apply List.sum_le_card_nsmul
    intro n hn
    obtain ⟨t, ht, rfl⟩ := List.mem_map.1 hn
    exact Nat.le_sub_one_of_lt (hterms t ht)
  rw [List.length_map, smul_eq_mul] at hle
  omega

lemma noOverflow_of_length {terms : List (BitVec 32)} (hlen : terms.length ≤ 2 ^ 16)
    (hterms : ∀ t ∈ terms, t.toNat < 2 ^ 16) : NoOverflow terms := by
  intro k
  have hlt : ((terms.take k).map BitVec.toNat).sum < 2 ^ 32 := by
    apply sum_lt_of_terms
    · rw [List.length_take]
      omega
    · intro t ht
      exact hterms t (List.mem_of_mem_take ht)
  rw [toNat_accumulate, Nat.mod_eq_of_lt hlt]

/-- The checksum of terms that do not overflow is the complement of their sum. -/
lemma toNat_checksum {terms : List (BitVec 32)} (hno : NoOverflow terms) :
    (checksum terms).toNat = complement (2 ^ 16) (terms.map BitVec.toNat).sum := by
  have hacc : (accumulate terms).toNat = (terms.map BitVec.toNat).sum := by
    have hall := hno terms.length
    rwa [List.take_length] at hall
  have hlt : residue (2 ^ 16) (terms.map BitVec.toNat).sum < 2 ^ 16 := residue_lt (by norm_num) _
  rw [checksum, BitVec.toNat_setWidth, BitVec.toNat_not, toNat_checksumFold, hacc, complement]
  omega

/-! ## The frame -/

/-- A frame with these lengths and checksums. -/
def frameOf (ipLen ipCsum udpLen udpCsum : BitVec 16) (post : List Byte) : List Byte :=
  ethHdr ++ ipHdr ipLen ipCsum ++ udpHdr udpLen udpCsum ++ post

section Shape

variable (ipLen ipCsum udpLen udpCsum x : BitVec 16) (post : List Byte)

lemma writeAt_ipCsum : writeAt (frameOf ipLen ipCsum udpLen udpCsum post) (14 + 10) (be16 x)
    = frameOf ipLen x udpLen udpCsum post := rfl

lemma writeAt_udpCsum : writeAt (frameOf ipLen ipCsum udpLen udpCsum post) (14 + 20 + 6) (be16 x)
    = frameOf ipLen ipCsum udpLen x post := rfl

lemma frameWithLengths_eq : frameWithLengths post
    = frameOf (BitVec.ofNat 16 (20 + 8 + post.length)) 0 (BitVec.ofNat 16 (8 + post.length)) 0 post :=
  rfl

/-- What the first loop adds up. -/
lemma ipTerms_words : (ipTerms (frameOf ipLen ipCsum udpLen udpCsum post)).map BitVec.toNat
    = words (ipHdr ipLen 0) := by
  have hdrop : (writeAt (frameOf ipLen ipCsum udpLen udpCsum post) (14 + 10) [0, 0]).drop 14
      = ipHdr ipLen 0 ++ (udpHdr udpLen udpCsum ++ post) := rfl
  have hlen : (ipHdr ipLen 0).length = 20 := rfl
  rw [ipTerms, hdrop, ← loopTerms_words, hlen, loopTerms]
  apply congrArg
  apply List.map_congr_left
  intro k hk
  have hk : k < 10 := List.mem_range.1 hk
  rw [if_pos (by omega), wordAt, wordAt, List.getD_append _ _ _ _ (by omega),
    List.getD_append _ _ _ _ (by omega)]

/-- The checksum of the IPv4 header is a word of its own. -/
lemma words_ipHdr_sum : (words (ipHdr ipLen ipCsum)).sum
    = (words (ipHdr ipLen 0)).sum + ipCsum.toNat := by
  have hsplit : ∀ c : BitVec 16, words (ipHdr ipLen c)
      = words ([0x45, 0] ++ be16 ipLen ++ [0, 0, 0, 0, 0, 17]) ++ [c.toNat]
        ++ words [10, 0, 0, 1, 10, 0, 0, 2] := by
    intro c
    rw [← words_be16, ← words_append ⟨5, rfl⟩, ← words_append ⟨6, rfl⟩]
    rfl
  rw [hsplit, hsplit 0]
  simp only [List.sum_append, List.sum_singleton, BitVec.ofNat_eq_ofNat, BitVec.toNat_ofNat]
  omega

lemma pseudoHeader_eq : pseudoHeader (frameOf ipLen ipCsum udpLen udpCsum post)
    = [10, 0, 0, 1, 10, 0, 0, 2, 0, 17] ++ be16 udpLen := rfl

/-- What the second loop adds up. -/
lemma udpTerms_words (hlen : udpLen.toNat = 8 + post.length) :
    (udpTerms (frameOf ipLen ipCsum udpLen udpCsum post) post.length).map BitVec.toNat
      = words (pseudoHeader (frameOf ipLen ipCsum udpLen udpCsum post))
        ++ words (udpHdr udpLen 0 ++ post) := by
  have hpost : 8 + post.length = (udpHdr udpLen 0 ++ post).length := by
    rw [List.length_append]
    rfl
  have hudp : ((writeAt (frameOf ipLen ipCsum udpLen udpCsum post) (14 + 20 + 6) [0, 0]).drop 14).drop 20
      = udpHdr udpLen 0 ++ post := rfl
  have hword : (BitVec.ofNat 32 (8 + post.length)).toNat = udpLen.toNat := by
    have hlt := udpLen.isLt
    rw [BitVec.toNat_ofNat, hlen, Nat.mod_eq_of_lt (by omega)]
  rw [pseudoHeader_eq, words_append ⟨5, rfl⟩, words_be16,
    ← loopTerms_words (udpHdr udpLen 0 ++ post), ← hpost, udpTerms, hudp, List.map_append, ← hword]
  simp only [List.map_cons, List.map_nil, toNat_wordAt, words]
  rfl

/-- The checksum of the datagram is a word of its own. -/
lemma words_udp_sum : (words (udpHdr udpLen udpCsum ++ post)).sum
    = (words (udpHdr udpLen 0 ++ post)).sum + udpCsum.toNat := by
  have hsplit : ∀ c : BitVec 16, words (udpHdr udpLen c ++ post)
      = words ([0x75, 0x30] ++ be16 SERVER_POST_TYPE ++ be16 udpLen) ++ [c.toNat] ++ words post := by
    intro c
    rw [← words_be16, ← words_append ⟨3, rfl⟩, ← words_append ⟨4, rfl⟩]
    rfl
  rw [hsplit, hsplit 0]
  simp only [List.sum_append, List.sum_singleton, BitVec.ofNat_eq_ofNat, BitVec.toNat_ofNat]
  omega

end Shape

/-- The accumulator of the first loop does not overflow. -/
lemma ipTerms_noOverflow (ipLen ipCsum udpLen udpCsum : BitVec 16) (post : List Byte) :
    NoOverflow (ipTerms (frameOf ipLen ipCsum udpLen udpCsum post)) := by
  apply noOverflow_of_length
  · simp [ipTerms]
  · intro t ht
    have hmem := List.mem_map_of_mem (f := BitVec.toNat) ht
    rw [ipTerms_words] at hmem
    exact words_lt _ _ hmem

/-- The accumulator of the second loop does not overflow. -/
lemma udpTerms_noOverflow (ipLen ipCsum udpCsum : BitVec 16) {udpLen : BitVec 16} {post : List Byte}
    (hlen : udpLen.toNat = 8 + post.length) :
    NoOverflow (udpTerms (frameOf ipLen ipCsum udpLen udpCsum post) post.length) := by
  have hlt := udpLen.isLt
  apply noOverflow_of_length
  · simp [udpTerms, loopTerms]
    omega
  · intro t ht
    have hmem := List.mem_map_of_mem (f := BitVec.toNat) ht
    rw [udpTerms_words _ _ _ _ _ hlen, List.mem_append] at hmem
    exact hmem.elim (words_lt _ _) (words_lt _ _)

lemma toNat_udpLen {post : List Byte} (hsize : 8 + post.length < 2 ^ 16) :
    (BitVec.ofNat 16 (8 + post.length)).toNat = 8 + post.length := by
  rw [BitVec.toNat_ofNat, Nat.mod_eq_of_lt hsize]

/-- What `build_frame_from_post` makes of a post: lengths, checksums and all. -/
lemma buildFrameFromPost_eq {post : List Byte} (hsize : 8 + post.length < 2 ^ 16) :
    ∃ ipCsum udpCsum : BitVec 16,
      buildFrameFromPost post
        = frameOf (BitVec.ofNat 16 (20 + 8 + post.length)) ipCsum
            (BitVec.ofNat 16 (8 + post.length)) udpCsum post
      ∧ residue (2 ^ 16) (words (ipHdr (BitVec.ofNat 16 (20 + 8 + post.length)) ipCsum)).sum = 0xFFFF
      ∧ residue (2 ^ 16) (words (pseudoHeader (buildFrameFromPost post)
          ++ (udpHdr (BitVec.ofNat 16 (8 + post.length)) udpCsum ++ post))).sum = 0xFFFF
      ∧ udpCsum ≠ 0 := by
  have hlen := toNat_udpLen hsize
  set ipLen := BitVec.ofNat 16 (20 + 8 + post.length)
  set udpLen := BitVec.ofNat 16 (8 + post.length)
  set ipCsum := checksum (ipTerms (frameOf ipLen 0 udpLen 0 post)) with hip
  set terms := udpTerms (frameOf ipLen ipCsum udpLen 0 post) post.length with hterms
  set udpCsum : BitVec 16 := if checksum terms = 0 then 0xffff else checksum terms with hudp
  have hframe : buildFrameFromPost post = frameOf ipLen ipCsum udpLen udpCsum post := by
    rw [buildFrameFromPost, frameWithLengths_eq, fixIpv4UdpChecksums, fixIpv4Checksum, ← hip,
      writeAt_ipCsum, fixUdpChecksum, ← hterms, ← hudp, writeAt_udpCsum]
  refine ⟨ipCsum, udpCsum, hframe, ?_, ?_, ?_⟩
  · rw [words_ipHdr_sum, ← ipTerms_words ipLen 0 udpLen 0 post, hip,
      toNat_checksum (ipTerms_noOverflow _ _ _ _ _)]
    exact residue_add_complement (by norm_num) _
  · have hsum := toNat_checksum (udpTerms_noOverflow ipLen ipCsum 0 hlen)
    have hwords : (words (pseudoHeader (buildFrameFromPost post) ++ (udpHdr udpLen udpCsum ++ post))).sum
        = (terms.map BitVec.toNat).sum + udpCsum.toNat := by
      rw [hframe, hterms, udpTerms_words _ _ _ _ _ hlen, pseudoHeader_eq,
        pseudoHeader_eq, words_append ⟨6, rfl⟩, List.sum_append, List.sum_append, words_udp_sum]
      omega
    rw [hwords, hudp]
    -- a checksum of zero is sent as its other representation
    split
    · next hz =>
        rw [hz] at hsum
        exact residue_add_top (by norm_num) hsum.symm
    · rw [hsum]
      exact residue_add_complement (by norm_num) _
  · rw [hudp]
    split
    · decide
    · assumption

/-- The frame of a post that fits is what a receiver expects. -/
lemma buildFrameFromPost_validFrame {post : List Byte} (hsize : 20 + 8 + post.length < 2 ^ 16) :
    ValidFrame post (buildFrameFromPost post) := by
  have hudpSize : 8 + post.length < 2 ^ 16 := by omega
  obtain ⟨ipCsum, udpCsum, hframe, hip, hudp, hne⟩ := buildFrameFromPost_eq hudpSize
  rw [hframe] at hudp ⊢
  exact {
    payload := rfl
    length := by
      simp [frameOf, ethHdr, ipHdr, udpHdr, be16]
      omega
    ipLength := by
      have hread := readBe16_be16 (BitVec.ofNat 16 (20 + 8 + post.length)) [0x45, 0]
        ([0, 0, 0, 0, 0, 17] ++ be16 ipCsum ++ [10, 0, 0, 1, 10, 0, 0, 2]
          ++ udpHdr (BitVec.ofNat 16 (8 + post.length)) udpCsum ++ post)
      rw [BitVec.toNat_ofNat, Nat.mod_eq_of_lt hsize] at hread
      exact hread
    udpLength := by
      have hread := readBe16_be16 (BitVec.ofNat 16 (8 + post.length))
        ([0x75, 0x30] ++ be16 SERVER_POST_TYPE) (be16 udpCsum ++ post)
      rw [toNat_udpLen hudpSize] at hread
      exact hread
    ipChecksum := by
      rw [sum_eq_residue (by norm_num) _ (words_lt _)]
      exact hip
    udpChecksum := by
      rw [sum_eq_residue (by norm_num) _ (words_lt _)]
      exact hudp
    udpChecksum_ne_zero := by
      have hread := readBe16_be16 udpCsum
        ([0x75, 0x30] ++ be16 SERVER_POST_TYPE ++ be16 (BitVec.ofNat 16 (8 + post.length))) post
      intro hzero
      exact hne (BitVec.eq_of_toNat_eq (hread.symm.trans hzero)) }

/-- **Frames are built right.**  `checksum_fold` returns for every argument, and returns the
residue; the sums under the checksums do not overflow; and the frame around a post of at most 470
bytes, of any content, has its lengths and checksums as a receiver expects them. -/
theorem buildFrameFromPost_valid :
    (∀ s : BitVec 32,
      (∃ n, (∀ i < n, foldRound^[i] s >>> 16 ≠ 0) ∧ foldRound^[n] s >>> 16 = 0
        ∧ checksumFold s = foldRound^[n] s)
      ∧ (s &&& 0xffff#32).toNat + (s >>> 16).toNat < 2 ^ 32
      ∧ (checksumFold s).toNat < 2 ^ 16 ∧ (checksumFold s).toNat ≡ s.toNat [MOD 2 ^ 16 - 1])
    ∧ ∀ post : List Byte, post.length ≤ 470 →
        (buildFrameFromPost post).length ≤ 512 ∧ ValidFrame post (buildFrameFromPost post)
        ∧ NoOverflow (ipTerms (frameWithLengths post))
        ∧ NoOverflow (udpTerms (fixIpv4Checksum (frameWithLengths post)) post.length) := by
  constructor
  · intro s
    refine ⟨checksumFold_terminates s, foldRound_no_overflow s, ?_, ?_⟩
    · rw [toNat_checksumFold]
      exact residue_lt (by norm_num) _
    · rw [toNat_checksumFold]
      exact residue_modEq _
  · intro post hpost
    have hsize : 8 + post.length < 2 ^ 16 := by omega
    have hvalid : ValidFrame post (buildFrameFromPost post) :=
      buildFrameFromPost_validFrame (by omega)
    refine ⟨?_, hvalid, ?_, ?_⟩
    · rw [hvalid.length]
      omega
    · rw [frameWithLengths_eq]
      exact ipTerms_noOverflow _ _ _ _ _
    · rw [frameWithLengths_eq, fixIpv4Checksum, writeAt_ipCsum]
      exact udpTerms_noOverflow _ _ _ (toNat_udpLen hsize)

/-- The frame of an odd-sized post: a bare lock header. -/
theorem buildFrameFromPost_valid_hdr :
    ValidFrame (List.replicate 17 1) (buildFrameFromPost (List.replicate 17 1)) :=
  (buildFrameFromPost_valid.2 (List.replicate 17 1) (by decide)).2.1

end FissLock
