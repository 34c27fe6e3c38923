import FissLock.Recovery.Coordinator

/-!
# The reply to `check_holder`, entry by entry

`check_holder_reply` has room for `MAX_HOLDERS` holders and a 32-bit count of them.  The daemon
writes the collected holders into it in the order of its `std::set`, and `integrity_check` reads as
many entries as the count says.

The daemon looks at the size only when an agent asks, and then it has set the count already; a host
that asks whether it has to restore the agent is sent everything.  And `rpc` returns a pointer into
the data of its local `res_reply`, which is destroyed with the call: what `integrity_check` reads,
the count included, is memory that was freed.  `FreedReply` is the state of that memory.

`replySound_iff` says when all goes well: there are at most `MAX_HOLDERS` holders or nothing is sent,
and what is read of the freed memory is still there.

`Coordinator.checkHolder` is the view of the recovery protocol, with sets instead of arrays.
`writeReply_eq_checkHolder` connects the two.
-/

namespace FissLock

/-- `LOCK_HOLDER(host, task)`, as it is sent to the daemon. -/
def holderWord (h : LockHolder) : BitVec 64 := (h.1.setWidth 64 <<< 32) ^^^ h.2.setWidth 64

/-- `check_holder_req`, without the lock. -/
structure CheckHolderReq where
  isAgent : BitVec 8
  holderNum : BitVec 32
  deriving DecidableEq, Repr

/-- `check_holder_reply` as the daemon leaves it: the `int32_t` count, and the assignments to
`extra_holders` in their order, each with its index. -/
structure ReplyWrites where
  extraNum : BitVec 32
  writes : List (BitVec 64 × ℕ)
  deriving DecidableEq, Repr

namespace ReplyWrites

/-- `extra_holders`: zero at first.  A write past the end does not change it. -/
def extraHolders (r : ReplyWrites) : List (BitVec 64) :=
  r.writes.foldl (fun a w => a.set w.2 w.1) (List.replicate MAX_HOLDERS 0)

end ReplyWrites

/-- The memory of the reply when `integrity_check` reads it: `rpc` has freed it, and anybody may have
written to it since. -/
structure FreedReply where
  /-- What is found in place of `extra_num`. -/
  count : BitVec 32
  /-- The entries of `extra_holders` that are still there. -/
  kept : ℕ → Bool

/-- The entries that `integrity_check` reads, as the agent or as a host that restores it. -/
def FreedReply.reads (f : FreedReply) : List ℕ :=
  if 0 < f.count.toInt then List.range f.count.toInt.toNat else []

/-- `for (auto h : holders) reply.extra_holders[i++] = h`: a `std::set` is sorted. -/
def holderWrites (holders : Finset (BitVec 64)) : List (BitVec 64 × ℕ) :=
  (holders.sort (· ≤ ·)).zipIdx

/-- `check_holder`, on the data of the lock and the request, if one could be read. -/
def writeReply (hasAgent : Bool) (holders : Finset (BitVec 64)) (arg : Option CheckHolderReq) :
    ReplyWrites :=
  match arg with
  | none => ⟨0, []⟩
  | some req =>
      if req.isAgent ≠ 0 then
        if req.holderNum.toNat < holders.card then
          let extraNum := BitVec.ofNat 32 holders.card
          if (MAX_HOLDERS : ℤ) < extraNum.toInt then ⟨extraNum, []⟩
          else ⟨extraNum, holderWrites holders⟩
        else ⟨0, []⟩
      else if hasAgent = false ∧ 0 < holders.card then
        ⟨BitVec.ofNat 32 holders.card, holderWrites holders⟩
      else ⟨0, []⟩

/-- What the reply has to be: the count in bounds, every holder listed once, and no entry written or
read that should not be. -/
structure ReplySound (holders : Finset (BitVec 64)) (r : ReplyWrites) (f : FreedReply) : Prop where
  count_nonneg : 0 ≤ r.extraNum.toInt
  count_le : r.extraNum.toInt ≤ MAX_HOLDERS
  complete : 0 < r.extraNum.toInt →
    (r.extraHolders.take r.extraNum.toInt.toNat).Nodup
    ∧ (r.extraHolders.take r.extraNum.toInt.toNat).toFinset = holders
  writes_lt : ∀ w ∈ r.writes, w.2 < MAX_HOLDERS
  reads_written : ∀ i ∈ f.reads, (∃ w ∈ r.writes, w.2 = i) ∧ f.kept i = true

/-- Nothing is sent: the agent knows of as many holders; or there is an agent, or nobody holds the
lock. -/
def NothingToSend (hasAgent : Bool) (holders : Finset (BitVec 64)) : Option CheckHolderReq → Prop
  | none => True
  | some req => if req.isAgent ≠ 0 then holders.card ≤ req.holderNum.toNat
      else hasAgent = true ∨ holders = ∅

/-- The freed memory is not read, or what is read of it is there: as many entries of the holders. -/
def ReadsIntact (hasAgent : Bool) (holders : Finset (BitVec 64)) (arg : Option CheckHolderReq)
    (f : FreedReply) : Prop :=
  f.count.toInt ≤ 0
    ∨ ¬ NothingToSend hasAgent holders arg ∧ f.count.toInt ≤ holders.card
      ∧ ∀ i : ℕ, i < f.count.toInt → f.kept i = true

/-! ## The array -/

/-- The entries that are written are the first ones. -/
lemma mem_holderWrites {holders : Finset (BitVec 64)} {i : ℕ} :
    (∃ w ∈ holderWrites holders, w.2 = i) ↔ i < holders.card := by
  rw [← Finset.length_sort (· ≤ ·)]
  constructor
  · rintro ⟨⟨h, j⟩, hw, rfl⟩
    exact (List.mem_zipIdx' hw).1
  · intro hi
    exact ⟨_, List.mk_mem_zipIdx_iff_getElem?.2 (List.getElem?_eq_getElem hi), rfl⟩

/-- Writing a list behind `pre`, entry by entry. -/
lemma foldl_set_zipIdx {α : Type*} (l : List α) :
    ∀ pre rest : List α, l.length ≤ rest.length →
      (l.zipIdx pre.length).foldl (fun a w => a.set w.2 w.1) (pre ++ rest)
        = pre ++ l ++ rest.drop l.length := by
  induction l with
  | nil => simp
  | cons x l ih =>
      intro pre rest hlen
      cases rest with
      | nil => simp at hlen
      | cons r rest =>
          have hset : (pre ++ r :: rest).set pre.length x = pre ++ [x] ++ rest := by simp
          have hpre : pre.length + 1 = (pre ++ [x]).length := by simp
          rw [List.zipIdx_cons, List.foldl_cons, hset, hpre,
            ih (pre ++ [x]) rest (Nat.le_of_succ_le_succ hlen)]
          simp

/-- With room for them, the holders are at the front of the array. -/
lemma extraHolders_holderWrites {holders : Finset (BitVec 64)} (hle : holders.card ≤ MAX_HOLDERS)
    (n : BitVec 32) :
    (ReplyWrites.mk n (holderWrites holders)).extraHolders.take holders.card
      = holders.sort (· ≤ ·) := by
  have hlen : (holders.sort (· ≤ ·)).length = holders.card := Finset.length_sort _
  have hroom : (holders.sort (· ≤ ·)).length ≤ (List.replicate MAX_HOLDERS (0 : BitVec 64)).length := by
    rw [hlen, List.length_replicate]
    exact hle
  have hfold := foldl_set_zipIdx (holders.sort (· ≤ ·)) [] _ hroom
  rw [List.nil_append, List.nil_append, List.length_nil] at hfold
  rw [ReplyWrites.extraHolders, holderWrites, hfold, ← hlen, List.take_left]

lemma toInt_ofNat_card {n : ℕ} (hn : n ≤ MAX_HOLDERS) : (BitVec.ofNat 32 n).toInt = n := by
  have hlt : n < 2 ^ 31 := lt_of_le_of_lt hn (by decide)
  rw [BitVec.toInt_eq_toNat_cond, BitVec.toNat_ofNat, Nat.mod_eq_of_lt (by omega), if_pos (by omega)]

/-! ## When the reply is sound -/

/-- The part of `ReplySound` that the daemon is responsible for. -/
structure WritesSound (holders : Finset (BitVec 64)) (r : ReplyWrites) : Prop where
  count_nonneg : 0 ≤ r.extraNum.toInt
  count_le : r.extraNum.toInt ≤ MAX_HOLDERS
  complete : 0 < r.extraNum.toInt →
    (r.extraHolders.take r.extraNum.toInt.toNat).Nodup
    ∧ (r.extraHolders.take r.extraNum.toInt.toNat).toFinset = holders
  writes_lt : ∀ w ∈ r.writes, w.2 < MAX_HOLDERS

lemma replySound_iff_writes {holders : Finset (BitVec 64)} {r : ReplyWrites} {f : FreedReply} :
    ReplySound holders r f
      ↔ WritesSound holders r ∧ ∀ i ∈ f.reads, (∃ w ∈ r.writes, w.2 = i) ∧ f.kept i = true := by
  constructor
  · intro hs
    exact ⟨⟨hs.count_nonneg, hs.count_le, hs.complete, hs.writes_lt⟩, hs.reads_written⟩
  · rintro ⟨hw, hreads⟩
    exact ⟨hw.count_nonneg, hw.count_le, hw.complete, hw.writes_lt, hreads⟩

lemma FreedReply.mem_reads {f : FreedReply} {i : ℕ} : i ∈ f.reads ↔ (i : ℤ) < f.count.toInt := by
  rw [FreedReply.reads]
  split
  · rw [List.mem_range]
    omega
  · simp only [List.not_mem_nil, false_iff]
    omega

/-- An empty reply is sound. -/
lemma writesSound_nothing (holders : Finset (BitVec 64)) : WritesSound holders ⟨0, []⟩ where
  count_nonneg := le_rfl
  count_le := by decide
  complete := fun h => absurd h (by decide)
  writes_lt := by simp

/-- A reply with at most `MAX_HOLDERS` holders is sound. -/
lemma writesSound_holders {holders : Finset (BitVec 64)} (hle : holders.card ≤ MAX_HOLDERS) :
    WritesSound holders ⟨BitVec.ofNat 32 holders.card, holderWrites holders⟩ where
  count_nonneg := by simp [toInt_ofNat_card hle]
  count_le := by simpa [toInt_ofNat_card hle] using hle
  complete := by
    intro _
    rw [toInt_ofNat_card hle, Int.toNat_natCast, extraHolders_holderWrites hle]
    exact ⟨Finset.sort_nodup _ _, Finset.sort_toFinset _ _⟩
  writes_lt := by
    intro w hw
    exact lt_of_lt_of_le (mem_holderWrites.1 ⟨w, hw, rfl⟩) hle

/-- With more holders than that, some are written past the end. -/
lemma not_writesSound_of_lt {holders : Finset (BitVec 64)} (hlt : MAX_HOLDERS < holders.card)
    (n : BitVec 32) : ¬ WritesSound holders ⟨n, holderWrites holders⟩ := by
  intro hs
  obtain ⟨w, hw, hi⟩ := mem_holderWrites.2 hlt
  exact absurd (hs.writes_lt w hw) (by omega)

/-- The three replies: nothing, all holders, or a count without the holders. -/
lemma writeReply_cases (hasAgent : Bool) (holders : Finset (BitVec 64))
    (arg : Option CheckHolderReq) :
    NothingToSend hasAgent holders arg ∧ writeReply hasAgent holders arg = ⟨0, []⟩
    ∨ ¬ NothingToSend hasAgent holders arg
      ∧ (writeReply hasAgent holders arg = ⟨BitVec.ofNat 32 holders.card, holderWrites holders⟩
        ∨ MAX_HOLDERS < (BitVec.ofNat 32 holders.card).toInt
          ∧ writeReply hasAgent holders arg = ⟨BitVec.ofNat 32 holders.card, []⟩) := by
  cases arg with
  | none => exact .inl ⟨trivial, rfl⟩
  | some req =>
      simp only [NothingToSend, writeReply, Finset.card_pos, Finset.nonempty_iff_ne_empty]
      split_ifs with hag hnum hover hhost
      · exact .inr ⟨by omega, .inr ⟨hover, rfl⟩⟩
      · exact .inr ⟨by omega, .inl rfl⟩
      · exact .inl ⟨by omega, rfl⟩
      · exact .inr ⟨by simp [hhost.1, hhost.2], .inl rfl⟩
      · refine .inl ⟨?_, rfl⟩
        rw [not_and_or, not_not, Bool.not_eq_false] at hhost
        exact hhost

/-- The daemon does its part as long as the holders fit, or nothing is sent. -/
lemma writesSound_iff (hasAgent : Bool) (holders : Finset (BitVec 64))
    (arg : Option CheckHolderReq) :
    WritesSound holders (writeReply hasAgent holders arg)
      ↔ holders.card ≤ MAX_HOLDERS ∨ NothingToSend hasAgent holders arg := by
  rcases writeReply_cases hasAgent holders arg with ⟨hno, hr⟩ | ⟨hsend, hr | ⟨hover, hr⟩⟩
  · rw [hr]
    exact iff_of_true (writesSound_nothing holders) (.inr hno)
  · rw [hr, or_iff_left hsend]
    constructor
    · intro hs
      by_contra hlt
      exact not_writesSound_of_lt (not_le.1 hlt) _ hs
    · exact writesSound_holders
  · -- the count is checked after it has been set
    have hlt : ¬ holders.card ≤ MAX_HOLDERS := by
      intro hle
      rw [toInt_ofNat_card hle] at hover
      omega
    rw [hr]
    apply iff_of_false
    · intro hs
      exact absurd hs.count_le (not_le.2 hover)
    · simp [hlt, hsend]

/-- Of a reply that fits, an entry is written exactly if it is one of a holder that is sent. -/
lemma written_iff {hasAgent : Bool} {holders : Finset (BitVec 64)} {arg : Option CheckHolderReq}
    (hfit : holders.card ≤ MAX_HOLDERS ∨ NothingToSend hasAgent holders arg) {i : ℕ} :
    (∃ w ∈ (writeReply hasAgent holders arg).writes, w.2 = i)
      ↔ ¬ NothingToSend hasAgent holders arg ∧ i < holders.card := by
  rcases writeReply_cases hasAgent holders arg with ⟨hno, hr⟩ | ⟨hsend, hr | ⟨hover, hr⟩⟩
  · rw [hr]
    simp [hno]
  · rw [hr, mem_holderWrites, and_iff_right hsend]
  · rw [toInt_ofNat_card (hfit.resolve_right hsend)] at hover
    have hle := hfit.resolve_right hsend
    omega

/-- **Replies are sound exactly as long as the holders fit or nothing is sent, and the freed memory
has what is read of it.** -/
theorem replySound_iff (hasAgent : Bool) (holders : Finset (BitVec 64))
    (arg : Option CheckHolderReq) (f : FreedReply) :
    ReplySound holders (writeReply hasAgent holders arg) f
      ↔ (holders.card ≤ MAX_HOLDERS ∨ NothingToSend hasAgent holders arg)
        ∧ ReadsIntact hasAgent holders arg f := by
  rw [replySound_iff_writes, writesSound_iff]
  refine and_congr_right fun hfit => ?_
  simp only [written_iff hfit, FreedReply.mem_reads, ReadsIntact]
  constructor
  · intro hreads
    refine or_iff_not_imp_left.2 fun hpos => ?_
    have hlast := hreads (f.count.toInt.toNat - 1) (by omega)
    refine ⟨hlast.1.1, ?_, fun i hi => (hreads i hi).2⟩
    have hlt := hlast.1.2
    omega
  · rintro (hnone | ⟨hsend, hle, hkept⟩) i hi
    · omega
    · exact ⟨⟨hsend, by omega⟩, hkept i hi⟩

/-- **A reply is not there when it is read.**  One holder is collected, and a host that is not the
agent asks; the count has survived the end of `rpc`, the entry has not. -/
theorem replySound_fails :
    ¬ ∀ (hasAgent : Bool) (holders : Finset (BitVec 64)) (arg : Option CheckHolderReq)
      (f : FreedReply), ReplySound holders (writeReply hasAgent holders arg) f := by
  intro hall
  have hs := hall false {0x100000007} (some ⟨0, 0⟩) ⟨1, fun _ => false⟩
  exact absurd (hs.reads_written 0 (by decide)).2 (by decide)

/-! ## The view of the recovery protocol -/

/-- A holder can be read back. -/
lemma holderWord_injective : Function.Injective holderWord := by
  rintro ⟨h₁, t₁⟩ ⟨h₂, t₂⟩ h
  have hhost := congrArg (BitVec.extractLsb' 32 8) h
  have htask := congrArg (BitVec.extractLsb' 0 32) h
  simp only [holderWord] at hhost htask
  ext i hi
  · have hbit := congrArg (·.getLsbD i) hhost
    simpa [hi, show i < 64 by omega, show 32 + i < 64 by omega] using hbit
  · have hbit := congrArg (·.getLsbD i) htask
    simpa [hi, show i < 64 by omega] using hbit

section ProtocolView

variable {c : Coordinator} {lid : LockId} {req : CheckHolderReq}

local instance (hasAgent : Bool) (holders : Finset (BitVec 64)) :
    Decidable (NothingToSend hasAgent holders (some req)) :=
  inferInstanceAs (Decidable (ite (req.isAgent ≠ 0) _ _))

/-- What the protocol's view of a reply has in it. -/
lemma checkHolder_reply (req : CheckHolderReq) (hfit : (c.lmState lid).holders.card ≤ MAX_HOLDERS) :
    (c.checkHolder (decide (req.isAgent ≠ 0)) lid req.holderNum.toNat).2
      = if NothingToSend (c.lmState lid).hasAgent ((c.lmState lid).holders.image holderWord) (some req)
        then some ⟨0, ∅⟩ else some ⟨(c.lmState lid).holders.card, (c.lmState lid).holders⟩ := by
  simp only [Coordinator.checkHolder, Coordinator.sendHolders, NothingToSend, decide_eq_true_eq,
    Finset.card_image_of_injective _ holderWord_injective, Finset.image_eq_empty, if_pos hfit]
  by_cases hag : req.isAgent = 0
  · cases hh : (c.lmState lid).hasAgent <;>
      by_cases hempty : (c.lmState lid).holders = ∅ <;> simp [hag, hempty]
  · by_cases hsend : req.holderNum.toNat < (c.lmState lid).holders.card
    · simp only [ne_eq, hag, not_false_eq_true, if_true, hsend, not_le.2 hsend, if_false]
    · simp only [ne_eq, hag, not_false_eq_true, if_true, hsend, not_lt.1 hsend, if_false]

/-- As long as the holders fit, the protocol's view of a reply is what the daemon writes into the
array. -/
lemma writeReply_eq_checkHolder (hfit : (c.lmState lid).holders.card ≤ MAX_HOLDERS) :
    let r := writeReply (c.lmState lid).hasAgent ((c.lmState lid).holders.image holderWord) (some req)
    ∃ r', (c.checkHolder (decide (req.isAgent ≠ 0)) lid req.holderNum.toNat).2 = some r'
      ∧ r'.extraNum = r.extraNum.toInt.toNat
      ∧ r'.extraHolders.image holderWord
          = (r.extraHolders.take r.extraNum.toInt.toNat).toFinset := by
  have hcard : ((c.lmState lid).holders.image holderWord).card = (c.lmState lid).holders.card :=
    Finset.card_image_of_injective _ holderWord_injective
  have hle : ((c.lmState lid).holders.image holderWord).card ≤ MAX_HOLDERS := hcard.trans_le hfit
  intro r
  have hr' := checkHolder_reply req hfit
  rcases writeReply_cases (c.lmState lid).hasAgent ((c.lmState lid).holders.image holderWord)
    (some req) with ⟨hno, hr⟩ | ⟨hsend, hr | ⟨hover, -⟩⟩
  · rw [if_pos hno] at hr'
    refine ⟨_, hr', ?_⟩
    simp only [r, hr]
    exact ⟨rfl, rfl⟩
  · rw [if_neg hsend] at hr'
    refine ⟨_, hr', ?_⟩
    simp only [r, hr, toInt_ofNat_card hle, Int.toNat_natCast, extraHolders_holderWrites hle,
      Finset.sort_toFinset]
    exact ⟨hcard.symm, trivial⟩
  · rw [toInt_ofNat_card hle] at hover
    omega

end ProtocolView

end FissLock
