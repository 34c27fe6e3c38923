import FissLock.Baseline.NetLockServed

/-!
# The two sides of a NetLock lock keep together

In runs that meet the condition, the entries of the slots and the requests that are parked are the
requests that arrived, in this order (`Inv.order`), the count of parked requests is right, and there
is a free slot for every request on its way back.  With what `Sound` says of the switch side this
gives the properties of the lock: clients are addressed in the order in which their requests arrived
and once (`two_sides_in_order`), and a writer that was addressed is alone (`two_sides_exclusive`).

A lock whose slots are empty while requests are parked needs a RELEASE that wakes the server.
`Woken` says that there is one as long as nothing is on its way back, so that no request is left
behind by a lock of which nobody has been sent a packet (`two_sides_not_stranded`).  A client that
was sent one need not know: two examples at the end show what the condition excludes, and that the
second of two writers is not signalled.
-/

namespace FissLock.NetLock.TwoSides

open Runs Ring Function HolderQueue NetLock.Switch

/-! ## The invariant -/

/-- A request in one of the two modes, without a payload. -/
def IsRequest (n : LockQueueNode) : Prop :=
  (n.mode = SHARED_LOCK ∨ n.mode = EXCLUSIVE_LOCK) ∧ n.payload = []

/-- **The invariant of the two sides.** -/
structure Inv (c : Setup) (s : Lock) : Prop where
  switch : Sound c.config s.toSwitchSide
  ops : ∀ hdr ∈ s.toServer, hdr.op = ACQUIRE_LOCK ∨ hdr.op = RELEASE_LOCK
  pushed : ∀ hdr ∈ s.toSwitch, hdr.op = PUSH_BACK_LOCK
  requests : ∀ n ∈ s.arrived, IsRequest n
  /-- No request is lost, made up or overtaken. -/
  order : s.log.map Slot.node ++ s.parked = s.arrived
  count : s.regs.slotsTwoSides.hi.toNat = s.parked.length
  small : s.parked.length < 2 ^ 31
  room : s.toSwitch.length ≤ s.regs.slotsTwoSides.lo.toNat

section Steps

variable {c : Setup} {s s' : Lock} {hdr : NlkHdr}

lemma inv_init (c : Setup) : Inv c (Lock.init c) where
  switch := by
    have hslots := inv_registers c.config c.arrays
    exact ⟨ServedQueue.inv_start, hslots, ⟨rfl, rfl⟩, by simp [Lock.init], rfl, rfl,
      by simp [Lock.init], by simp [Lock.init], le_rfl⟩
  ops := by simp [Lock.init]
  pushed := by simp [Lock.init]
  requests := by simp [Lock.init]
  order := rfl
  count := rfl
  small := Nat.two_pow_pos 31
  room := Nat.zero_le _

lemma node_slot (hdr : NlkHdr) : Slot.node hdr.slot = mbufToNode hdr := rfl

lemma Inv.request_of_parked (hi : Inv c s) {n : LockQueueNode} (hn : n ∈ s.parked) : IsRequest n := by
  refine hi.requests n ?_
  rw [← hi.order]
  exact List.mem_append_right _ hn

/-- The queue of the server is shorter than an `int` can say. -/
lemma Inv.secondary_lt (hi : Inv c s) : s.secondary.nodeQueue.length < 2 ^ 31 := by
  have hsmall := hi.small
  simp only [Lock.parked, List.length_append] at hsmall
  omega

/-- While no request is parked, an ACQUIRE is enqueued. -/
lemma Inv.parked_eq_nil (hi : Inv c s) (hp : ¬ s.Parks) : s.parked = [] := by
  have hcount := hi.count
  rw [(not_not.1 hp).2] at hcount
  exact List.length_eq_zero_iff.1 hcount.symm

/-- A count that stays below `2 ^ 31` does not wrap around. -/
lemma ne_of_parks {v : BitVec 32} (h : v.toNat + 1 < 2 ^ 31) : v ≠ 0xffffffff#32 := by
  rintro rfl
  exact absurd h (by decide)

/-- An ACQUIRE arrives. -/
lemma Inv.acquire (hi : Inv c s) (hok : s.Meets c.lenInSwitch (.acquire hdr))
    (h : s.step c.lenInSwitch (.acquire hdr) = some s') : Inv c s' := by
  simp only [Lock.step] at h
  split at h
  · next hask =>
      obtain rfl := Option.some.inj h
      obtain ⟨hop, hmode⟩ := hask
      have hreq : ∀ n ∈ s.arrived ++ [mbufToNode hdr], IsRequest n := by
        intro n hn
        rcases List.mem_append.1 hn with hn | hn
        · exact hi.requests n hn
        · rw [List.mem_singleton.1 hn]
          exact ⟨hmode, rfl⟩
      simp only [Lock.Meets] at hok
      by_cases hp : s.Parks
      · rw [if_pos hp] at hok
        have hparks : Parks ⟨s.regs, s.live⟩ hdr := ⟨hop, hp⟩
        obtain ⟨heq, hfwd⟩ := hi.switch.acquired_eq_parkedOne hparks (ne_of_parks hok)
        rw [heq, hfwd]
        have hparked : Lock.parked { s with
            toSwitchSide := s.parkedOne
            toServer := s.toServer ++ [hdr]
            arrived := s.arrived ++ [mbufToNode hdr] } = s.parked ++ [mbufToNode hdr] := by
          simp [Lock.parked, Lock.onTheWay, hop]
        have hlength := congrArg List.length hparked
        rw [List.length_append, List.length_singleton, ← hi.count] at hlength
        refine ⟨hi.switch.parkedOne, ?_, hi.pushed, hreq, ?_, ?_, hlength ▸ hok, hi.room⟩
        · intro o ho
          rcases List.mem_append.1 ho with ho | ho
          · exact hi.ops o ho
          · rw [List.mem_singleton.1 ho]
            exact .inl hop
        · rw [hparked, ← List.append_assoc, ← hi.order]
          rfl
        · rw [hlength]
          simp only [SwitchSide.parkedOne]
          bv_omega
      · rw [if_neg hp] at hok
        obtain ⟨hlo, heq, hfwd⟩ := hi.switch.acquired_eq (show inMode hdr.slot from hmode) (.inl hop)
          fun h => hp h.2
        have hnil := hi.parked_eq_nil hp
        rw [heq, hfwd, List.append_nil]
        have hparked : Lock.parked { s with
            toSwitchSide := s.enqueued (s.stillParked hdr) hdr
            arrived := s.arrived ++ [mbufToNode hdr] } = [] := hnil
        have hback : s.toSwitch = [] := by
          rw [Lock.parked] at hnil
          simpa using (List.append_eq_nil_iff.1 (List.append_eq_nil_iff.1 hnil).1).1
        refine ⟨hi.switch.enqueued hmode hok hlo _, hi.ops, hi.pushed, hreq, ?_, ?_, ?_, ?_⟩
        · rw [hparked, List.append_nil, ← hi.order, hnil, List.append_nil]
          simp only [SwitchSide.enqueued, List.map_append, List.map_singleton, node_slot]
        · rw [hparked]
          simp only [SwitchSide.enqueued, Registers.enqueue, SwitchSide.stillParked, if_pos hop]
          rfl
        · rw [hparked]
          exact Nat.two_pow_pos 31
        · show s.toSwitch.length ≤ _
          rw [hback]
          exact Nat.zero_le _
  · cases h

/-- There is a slot for a request that comes back. -/
lemma Inv.pushedBack (hi : Inv c s) {rest : List NlkHdr} (hback : s.toSwitch = hdr :: rest) :
    inMode hdr.slot ∧ ¬ hdr.op = ACQUIRE_LOCK ∧ 0 < s.regs.slotsTwoSides.lo.toNat
      ∧ s.acquired hdr = s.enqueued (s.stillParked hdr) hdr
      ∧ forwarded hdr (acquireLock s.regs hdr).2 = [] := by
  have hmem : hdr ∈ s.toSwitch := by
    rw [hback]
    exact List.mem_cons_self
  have hop := hi.pushed hdr hmem
  have hparked : mbufToNode hdr ∈ s.parked := by
    simp only [Lock.parked, List.mem_append]
    exact .inl (.inl (List.mem_map_of_mem hmem))
  have hmode : inMode hdr.slot := (hi.request_of_parked hparked).1
  have hcount := hi.count
  have hroom := hi.room
  have hpos := List.length_pos_of_mem hparked
  rw [hback, List.length_cons] at hroom
  have hne : ¬ hdr.op = ACQUIRE_LOCK := by
    rw [hop]
    decide
  have he : SwitchQueue.Enters ⟨s.regs, s.live⟩ hdr := by
    refine .inr ⟨hop, ?_, ?_⟩
    · rw [BitVec.lt_def]
      exact Nat.lt_of_lt_of_le (Nat.succ_pos _) hroom
    · rw [BitVec.lt_def]
      exact Nat.lt_of_lt_of_eq hpos hcount.symm
  exact ⟨hmode, hne, hi.switch.acquired_eq hmode he fun h => hne h.1⟩

/-- A request comes back. -/
lemma Inv.pushBack (hi : Inv c s) (hok : s.Meets c.lenInSwitch .pushBack)
    (h : s.step c.lenInSwitch .pushBack = some s') : Inv c s' := by
  simp only [Lock.step] at h
  cases hback : s.toSwitch with
  | nil =>
      rw [hback] at h
      cases h
  | cons hdr rest =>
      simp only [hback, Option.some.injEq] at h
      subst h
      obtain ⟨hmode, hne, hlo, heq, hfwd⟩ := hi.pushedBack hback
      have hparked : s.parked = mbufToNode hdr
          :: (rest.map mbufToNode ++ s.secondary.nodeQueue ++ s.onTheWay.map mbufToNode) := by
        simp [Lock.parked, hback]
      have hcount := hi.count
      have hsmall := hi.small
      have hroom := hi.room
      rw [hparked, List.length_cons] at hcount hsmall
      rw [hback, List.length_cons] at hroom
      rw [heq, hfwd, List.append_nil]
      refine ⟨hi.switch.enqueued hmode hok hlo _, hi.ops, fun o ho => hi.pushed o ?_, hi.requests, ?_,
        ?_, Nat.lt_of_succ_lt hsmall, ?_⟩
      · rw [hback]
        exact List.mem_cons_of_mem hdr ho
      · rw [← hi.order, hparked]
        simp [SwitchSide.enqueued, Lock.parked, Lock.onTheWay, node_slot]
      · simp only [SwitchSide.enqueued, Registers.enqueue, SwitchSide.stillParked, if_neg hne]
        simp only [Lock.parked, Lock.onTheWay] at hcount ⊢
        bv_omega
      · simp only [SwitchSide.enqueued, Registers.enqueue]
        bv_omega

/-- A RELEASE on its way to the server is not parked. -/
lemma parked_append_release {more : List NlkHdr} (hmore : ∀ o ∈ more, o.op = RELEASE_LOCK)
    {t : Lock} (hserver : t.toServer = s.toServer ++ more) (hsecondary : t.secondary = s.secondary)
    (hback : t.toSwitch = s.toSwitch) : t.parked = s.parked := by
  have hnone : more.filter (·.op = ACQUIRE_LOCK) = [] := by
    refine List.filter_eq_nil_iff.2 fun o ho => ?_
    rw [hmore o ho]
    decide
  simp only [Lock.parked, Lock.onTheWay, hserver, hsecondary, hback, List.filter_append, hnone,
    List.append_nil]

/-- A client is done. -/
lemma Inv.release (hi : Inv c s) {r : Slot}
    (h : s.step c.lenInSwitch (.release r hdr) = some s') : Inv c s' := by
  simp only [Lock.step] at h
  split at h
  · next hgive =>
      obtain rfl := Option.some.inj h
      obtain ⟨hr, hop, hflag, hnode⟩ := hgive
      obtain ⟨b, q, hq, hmode⟩ := hi.switch.live_eq hr
      have hmode' : hdr.mode = b.mode := (congrArg LockQueueNode.mode hnode).trans hmode
      obtain ⟨heq, hfwd⟩ := hi.switch.releasedBy_eq hq hflag r
      have hsound := (hi.switch.dequeued hr hq hmode').1
      rw [heq, hfwd]
      have hmore : ∀ o ∈ (if q = [] then [hdr] else []), o.op = RELEASE_LOCK := by
        intro o ho
        split at ho
        · rw [List.mem_singleton.1 ho]
          exact hop
        · cases ho
      have hparked : Lock.parked { s with
          toSwitchSide := s.dequeued c.config b r hdr
          toServer := s.toServer ++ if q = [] then [hdr] else [] } = s.parked :=
        parked_append_release hmore rfl rfl rfl
      refine ⟨hsound, ?_, hi.pushed, hi.requests, ?_, ?_, ?_, ?_⟩
      · intro o ho
        rcases List.mem_append.1 ho with ho | ho
        · exact hi.ops o ho
        · exact .inr (hmore o ho)
      · rw [hparked]
        exact hi.order
      · rw [hparked]
        exact hi.count
      · rw [hparked]
        exact hi.small
      · have hold := hi.switch.length_le
        have hnew := hsound.length_le
        have hlen : s.log.length - s.released = q.length + 1 := by
          rw [← s.length_live, hq, List.length_cons]
        have hroom := hi.room
        simp only [SwitchSide.dequeued] at hnew ⊢
        omega
  · cases h

/-- A packet comes round. -/
lemma Inv.pass (hi : Inv c s) {i : ℕ} (h : s.step c.lenInSwitch (.pass i) = some s') :
    Inv c s' := by
  obtain ⟨p, hp, rfl⟩ := Option.map_eq_some_iff.1 h
  obtain ⟨hsound, hregs, -⟩ := hi.switch.passed hp
  refine ⟨hsound, hi.ops, hi.pushed, hi.requests, hi.order, ?_, hi.small, ?_⟩
  · show (s.passed i p).regs.slotsTwoSides.hi.toNat = s.parked.length
    rw [hregs]
    exact hi.count
  · show s.toSwitch.length ≤ (s.passed i p).regs.slotsTwoSides.lo.toNat
    rw [hregs]
    exact hi.room

/-- The server pushes back the first of the requests that it has. -/
lemma Inv.map_pushed (hi : Inv c s) (n : ℕ) :
    ((s.secondary.nodeQueue.take n).map netSendPushBack).map mbufToNode
      = s.secondary.nodeQueue.take n := by
  rw [List.map_map]
  refine (List.map_congr_left fun o ho => ?_).trans (List.map_id _)
  refine mbufToNode_netSendPushBack o (hi.request_of_parked ?_).2
  simp only [Lock.parked, List.mem_append]
  exact .inl (.inr (List.mem_of_mem_take ho))

/-- Requests stay parked, in their order, whatever the server does with a packet. -/
lemma Inv.parked_served (hi : Inv c s) {rest : List NlkHdr} (hsrv : s.toServer = hdr :: rest) :
    (s.served c.lenInSwitch hdr rest).parked = s.parked := by
  rcases hi.ops hdr (by rw [hsrv]; exact List.mem_cons_self) with hop | hop
  · simp [Lock.parked, Lock.onTheWay, Lock.served, processSecondaryBackup_acquire hop,
      enqueueRequest, hsrv, hop]
  · obtain ⟨hqueue, hpackets⟩ := processSecondaryRelease_eq hi.secondary_lt c.lenInSwitch
    have hne : ¬ hdr.op = ACQUIRE_LOCK := by
      rw [hop]
      decide
    have hmap := hi.map_pushed (min s.secondary.nodeQueue.length c.lenInSwitch.toInt.toNat)
    simp only [Lock.parked, Lock.onTheWay, Lock.served, processSecondaryBackup_release hop,
      hqueue, hpackets, hsrv, List.map_append, hmap, List.filter_cons, hne, decide_false,
      Bool.false_eq_true, if_false]
    rw [List.append_assoc (s.toSwitch.map mbufToNode), List.take_append_drop]

/-- A packet reaches the server. -/
lemma Inv.serve (hi : Inv c s) (hok : s.Meets c.lenInSwitch .serve)
    (h : s.step c.lenInSwitch .serve = some s') : Inv c s' := by
  simp only [Lock.step] at h
  cases hsrv : s.toServer with
  | nil =>
      rw [hsrv] at h
      cases h
  | cons hdr rest =>
      simp only [hsrv, Option.some.injEq] at h
      subst h
      have hops : ∀ o ∈ rest, o.op = ACQUIRE_LOCK ∨ o.op = RELEASE_LOCK := fun o ho =>
        hi.ops o (by rw [hsrv]; exact List.mem_cons_of_mem hdr ho)
      have hparked := hi.parked_served hsrv
      have horder : s.log.map Slot.node ++ (s.served c.lenInSwitch hdr rest).parked = s.arrived := by
        rw [hparked]
        exact hi.order
      have hcount : s.regs.slotsTwoSides.hi.toNat
          = (s.served c.lenInSwitch hdr rest).parked.length := by
        rw [hparked]
        exact hi.count
      have hsmall : (s.served c.lenInSwitch hdr rest).parked.length < 2 ^ 31 := by
        rw [hparked]
        exact hi.small
      rcases hi.ops hdr (by rw [hsrv]; exact List.mem_cons_self) with hop | hop
      · refine ⟨hi.switch, hops, fun o ho => hi.pushed o ?_, hi.requests, horder, hcount, hsmall, ?_⟩
        · simpa [Lock.served, processSecondaryBackup_acquire hop] using ho
        · simpa [Lock.served, processSecondaryBackup_acquire hop] using hi.room
      · obtain ⟨-, hpackets⟩ := processSecondaryRelease_eq hi.secondary_lt c.lenInSwitch
        have hfit := hok hdr (by rw [hsrv]; rfl) hop
        refine ⟨hi.switch, hops, fun o ho => ?_, hi.requests, horder, hcount, hsmall, ?_⟩
        · simp only [Lock.served, processSecondaryBackup_release hop, hpackets, List.mem_append,
            List.mem_map] at ho
          rcases ho with ho | ⟨n, -, rfl⟩
          · exact hi.pushed o ho
          · rfl
        · rw [dequeueLength_toNat hi.secondary_lt] at hfit
          simp only [Lock.served, processSecondaryBackup_release hop, hpackets, List.length_append,
            List.length_map, List.length_take]
          omega

/-- **The step lemma.** -/
lemma Inv.step (hi : Inv c s) {e : Event} (hok : s.Meets c.lenInSwitch e)
    (h : s.step c.lenInSwitch e = some s') : Inv c s' := by
  cases e with
  | acquire hdr => exact hi.acquire hok h
  | release r hdr => exact hi.release h
  | pass i => exact hi.pass h
  | serve => exact hi.serve hok h
  | pushBack => exact hi.pushBack hok h

lemma inv_of_reachable (h : Lock.Reachable c s) : Inv c s :=
  h.invariant (inv_init c) fun _ _ _ hi hok hstep => hi.step hok hstep

end Steps

/-! ## The server is woken -/

section Woken

variable {c : Setup} {s s' : Lock} {hdr : NlkHdr}

/-- A RELEASE is on its way to the server, which will have a request when it arrives. -/
def Lock.WakeUp (s : Lock) : Prop :=
  ∃ pre hdr post, s.toServer = pre ++ hdr :: post ∧ hdr.op = RELEASE_LOCK
    ∧ (s.secondary.nodeQueue ≠ [] ∨ ∃ o ∈ pre, o.op = ACQUIRE_LOCK)

/-- If the slots are empty and nothing is on its way back, the server is woken for what is parked. -/
def Lock.Woken (s : Lock) : Prop :=
  s.live = [] → s.toSwitch = [] → s.parked ≠ [] → s.WakeUp

lemma Lock.WakeUp.append (h : s.WakeUp) (more : List NlkHdr) {t : Lock}
    (hserver : t.toServer = s.toServer ++ more)
    (hsecondary : t.secondary.nodeQueue = s.secondary.nodeQueue) : t.WakeUp := by
  obtain ⟨pre, hdr, post, heq, hop, hsome⟩ := h
  refine ⟨pre, hdr, post ++ more, ?_, hop, ?_⟩
  · rw [hserver, heq]
    simp
  · rwa [hsecondary]

/-- The RELEASE that empties the slots wakes the server. -/
lemma wakeUp_of_release (hops : s.toSwitch = []) (hparked : s.parked ≠ [])
    (hop : hdr.op = RELEASE_LOCK) {t : Lock} (hserver : t.toServer = s.toServer ++ [hdr])
    (hsecondary : t.secondary.nodeQueue = s.secondary.nodeQueue) : t.WakeUp := by
  refine ⟨s.toServer, hdr, [], hserver, hop, ?_⟩
  rw [hsecondary]
  by_contra hno
  obtain ⟨hnil, hway⟩ := not_or.1 hno
  refine hparked ?_
  have hway' : s.onTheWay = [] := by
    refine List.filter_eq_nil_iff.2 fun o ho => ?_
    simpa using fun h => hway ⟨o, ho, h⟩
  simp [Lock.parked, hops, not_not.1 hnil, hway']

/-- A packet that reaches the server is the one that wakes it, or leaves it to be woken. -/
lemma woken_served (hlen : 0 < c.lenInSwitch.toInt) (hi : Inv c s) (hw : s.Woken) {rest : List NlkHdr}
    (hsrv : s.toServer = hdr :: rest) : (s.served c.lenInSwitch hdr rest).Woken := by
  intro hlive hback hparked
  rcases hi.ops hdr (by rw [hsrv]; exact List.mem_cons_self) with hop | hop
  · have hold : s.toSwitch = [] := by
      simpa [Lock.served, processSecondaryBackup_acquire hop] using hback
    rw [hi.parked_served hsrv] at hparked
    obtain ⟨pre, r, post, heq, hr, -⟩ := hw hlive hold hparked
    rw [hsrv] at heq
    cases pre with
    | nil =>
        obtain ⟨rfl, -⟩ := List.cons.inj heq
        rw [hop] at hr
        exact absurd hr (by decide)
    | cons o pre =>
        obtain ⟨-, heq⟩ := List.cons.inj heq
        refine ⟨pre, r, post, heq, hr, .inl ?_⟩
        simp [Lock.served, processSecondaryBackup_acquire hop, enqueueRequest]
  · obtain ⟨hqueue, hpackets⟩ := processSecondaryRelease_eq hi.secondary_lt c.lenInSwitch
    simp only [Lock.served, processSecondaryBackup_release hop, hpackets, List.append_eq_nil_iff,
      List.map_eq_nil_iff, List.take_eq_nil_iff] at hback
    obtain ⟨hold, hnone⟩ := hback
    -- the server had nothing to push back
    have hnil : s.secondary.nodeQueue = [] := by
      rcases hnone with h | h
      · rw [← List.length_eq_zero_iff]
        omega
      · exact h
    rw [hi.parked_served hsrv] at hparked
    obtain ⟨pre, r, post, heq, hr, hsome⟩ := hw hlive hold hparked
    rw [hsrv] at heq
    cases pre with
    | nil =>
        rcases hsome with h | ⟨o, ho, -⟩
        · exact absurd hnil h
        · cases ho
    | cons o pre =>
        obtain ⟨rfl, hrest⟩ := List.cons.inj heq
        refine ⟨pre, r, post, hrest, hr, .inr ?_⟩
        rcases hsome with h | ⟨o, ho, hacq⟩
        · exact absurd hnil h
        · rcases List.mem_cons.1 ho with rfl | ho
          · rw [hop] at hacq
            exact absurd hacq (by decide)
          · exact ⟨o, ho, hacq⟩

/-- No request is parked first while the slots are empty: all are free, and none is kept for a
parked request. -/
lemma Inv.parked_ne_nil (hi : Inv c s) (hlive : s.live = []) (hp : s.Parks) : s.parked ≠ [] := by
  intro hnone
  have hcount := hi.count
  rw [hnone] at hcount
  have hroom := hi.switch.length_le
  have hempty : s.log.length - s.released = 0 := by
    rw [← s.length_live, hlive, List.length_nil]
  have hpos := c.config.pos
  refine absurd ⟨?_, ?_⟩ hp
  · rw [BitVec.lt_def]
    show 0 < _
    omega
  · exact BitVec.eq_of_toNat_eq hcount

/-- A request that arrives takes a slot, or is parked behind others. -/
lemma Inv.woken_acquire (hi : Inv c s) (hw : s.Woken) (hok : s.Meets c.lenInSwitch (.acquire hdr))
    (h : s.step c.lenInSwitch (.acquire hdr) = some s') : s'.Woken := by
  simp only [Lock.step] at h
  split at h
  · next hask =>
      obtain rfl := Option.some.inj h
      intro hlive hback hparked
      simp only [Lock.Meets] at hok
      by_cases hp : s.Parks
      · rw [if_pos hp] at hok
        have hparks : Parks ⟨s.regs, s.live⟩ hdr := ⟨hask.1, hp⟩
        obtain ⟨heq, -⟩ := hi.switch.acquired_eq_parkedOne hparks (ne_of_parks hok)
        rw [heq] at hlive
        exact (hw hlive hback (hi.parked_ne_nil hlive hp)).append _ rfl rfl
      · rw [if_neg hp] at hok
        obtain ⟨-, heq, -⟩ := hi.switch.acquired_eq (show inMode hdr.slot from hask.2)
          (.inl hask.1) fun h => hp h.2
        rw [heq] at hlive
        rw [show SwitchSide.live _ = _ from hi.switch.live_enqueued _ hdr] at hlive
        simp at hlive
  · cases h

/-- A release that empties the slots goes on to the server. -/
lemma Inv.woken_release (hi : Inv c s) {r : Slot}
    (h : s.step c.lenInSwitch (.release r hdr) = some s') : s'.Woken := by
  simp only [Lock.step] at h
  split at h
  · next hgive =>
      obtain rfl := Option.some.inj h
      obtain ⟨hr, hop, hflag, -⟩ := hgive
      obtain ⟨b, q, hq, -⟩ := hi.switch.live_eq hr
      obtain ⟨heq, hfwd⟩ := hi.switch.releasedBy_eq hq hflag r
      intro hlive hback hparked
      rw [heq] at hlive
      have hnil : q = [] := by
        have htail : (s.dequeued c.config b r hdr).live = q := by
          rw [SwitchSide.live, SwitchSide.dequeued, ← List.tail_drop,
            show s.log.drop s.released = b :: q from hq, List.tail_cons]
        exact htail.symm.trans hlive
      rw [if_pos hnil] at hfwd
      have hmore : ∀ o ∈ [hdr], o.op = RELEASE_LOCK := by
        intro o ho
        rw [List.mem_singleton.1 ho]
        exact hop
      have hserver : s.toServer ++ forwarded hdr (releaseLock s.regs hdr .invalid).2.2
          = s.toServer ++ [hdr] := by rw [hfwd]
      refine wakeUp_of_release (s := s) hback (fun hnone => hparked ?_) hop hserver rfl
      rw [← hnone]
      exact parked_append_release hmore hserver rfl rfl
  · cases h

/-- What comes back is in the slots then. -/
lemma Inv.woken_pushBack (hi : Inv c s) (h : s.step c.lenInSwitch .pushBack = some s') :
    s'.Woken := by
  simp only [Lock.step] at h
  cases hback : s.toSwitch with
  | nil =>
      rw [hback] at h
      cases h
  | cons hdr rest =>
      simp only [hback, Option.some.injEq] at h
      subst h
      obtain ⟨-, -, -, heq, -⟩ := hi.pushedBack hback
      intro hlive
      rw [heq] at hlive
      rw [show SwitchSide.live _ = _ from hi.switch.live_enqueued _ hdr] at hlive
      simp at hlive

/-- **The server stays woken.** -/
lemma Inv.woken (hlen : 0 < c.lenInSwitch.toInt) (hi : Inv c s) (hw : s.Woken) {e : Event}
    (hok : s.Meets c.lenInSwitch e) (h : s.step c.lenInSwitch e = some s') : s'.Woken := by
  cases e with
  | acquire hdr => exact hi.woken_acquire hw hok h
  | release r hdr => exact hi.woken_release h
  | pass i =>
      obtain ⟨p, hp, rfl⟩ := Option.map_eq_some_iff.1 h
      exact hw
  | serve =>
      simp only [Lock.step] at h
      cases hsrv : s.toServer with
      | nil =>
          rw [hsrv] at h
          cases h
      | cons hdr rest =>
          simp only [hsrv, Option.some.injEq] at h
          subst h
          exact woken_served hlen hi hw hsrv
  | pushBack => exact hi.woken_pushBack h

end Woken

/-! ## Coming to rest -/

section Rest

variable {c : Setup} {s s' : Lock} {hdr : NlkHdr}

/-- What happens when the clients do nothing. -/
def Event.Internal : Event → Prop
  | .acquire _ => False
  | .release _ _ => False
  | .pass _ => True
  | .serve => True
  | .pushBack => True

/-- How many slots packets can still read. -/
def toRead (ps : List Pass) : ℕ := (ps.map fun p => p.last - p.first).sum

/-- How many internal steps there can be at most. -/
def Lock.weight (s : Lock) : ℕ :=
  toRead s.passes + (s.toServer.map fun hdr => if hdr.op = ACQUIRE_LOCK then 3 else 1).sum
    + 2 * s.secondary.nodeQueue.length + s.toSwitch.length

/-- Nothing is on its way. -/
def Lock.AtRest (s : Lock) : Prop := s.passes = [] ∧ s.toServer = [] ∧ s.toSwitch = []

instance (s : Lock) : Decidable s.AtRest := inferInstanceAs (Decidable (_ ∧ _))

lemma toRead_append (ps qs : List Pass) : toRead (ps ++ qs) = toRead ps + toRead qs := by
  simp [toRead]

/-- A packet that goes round has one slot less to read. -/
lemma toRead_goesRound (hdr : NlkHdr) (first last : ℕ) (v : Verdict) :
    toRead (goesRound hdr first last v) ≤ last - first := by
  cases v with
  | toServer _ _ _ => exact Nat.zero_le _
  | notifyClient _ _ _ _ => exact Nat.zero_le _
  | drop => exact Nat.zero_le _
  | recirculate _ _ _ _ _ => exact le_of_eq (Nat.add_zero _)

lemma toRead_eraseIdx {i : ℕ} {p : Pass} {ps : List Pass} (hp : ps[i]? = some p) :
    toRead ps = p.last - p.first + toRead (ps.eraseIdx i) := by
  obtain ⟨hi, rfl⟩ := List.getElem?_eq_some_iff.1 hp
  have hperm := ((List.getElem_cons_eraseIdx_perm hi).map fun p => p.last - p.first).sum_eq
  rw [List.map_cons, List.sum_cons] at hperm
  exact hperm.symm

/-- **Every internal step brings the lock closer to rest.** -/
lemma Inv.weight_lt (hi : Inv c s) {e : Event} (he : e.Internal)
    (h : s.step c.lenInSwitch e = some s') : s'.weight < s.weight := by
  cases e with
  | acquire hdr => cases he
  | release r hdr => cases he
  | pass i =>
      obtain ⟨p, hp, rfl⟩ := Option.map_eq_some_iff.1 h
      have hround := toRead_goesRound p.hdr (p.first + 1) p.last
        (releaseLock s.regs p.hdr p.rc).2.2
      have hlt := (hi.switch.passes p (List.mem_of_getElem? hp)).first_lt
      have hsum := toRead_eraseIdx hp
      have hpassed : toRead (s.passed i p).passes = toRead (s.passes.eraseIdx i)
          + toRead (goesRound p.hdr (p.first + 1) p.last (releaseLock s.regs p.hdr p.rc).2.2) :=
        toRead_append _ _
      simp only [Lock.weight, hpassed]
      omega
  | serve =>
      simp only [Lock.step] at h
      cases hsrv : s.toServer with
      | nil =>
          rw [hsrv] at h
          cases h
      | cons hdr rest =>
          simp only [hsrv, Option.some.injEq] at h
          subst h
          rcases hi.ops hdr (by rw [hsrv]; exact List.mem_cons_self) with hop | hop
          · simp [Lock.weight, Lock.served, processSecondaryBackup_acquire hop, enqueueRequest,
              hsrv, hop]
            omega
          · obtain ⟨hqueue, hpackets⟩ := processSecondaryRelease_eq hi.secondary_lt c.lenInSwitch
            simp [Lock.weight, Lock.served, processSecondaryBackup_release hop, hqueue, hpackets,
              hsrv, hop]
            omega
  | pushBack =>
      simp only [Lock.step] at h
      cases hback : s.toSwitch with
      | nil =>
          rw [hback] at h
          cases h
      | cons hdr rest =>
          simp only [hback, Option.some.injEq] at h
          subst h
          obtain ⟨-, -, -, heq, hfwd⟩ := hi.pushedBack hback
          simp [Lock.weight, heq, hfwd, hback, SwitchSide.enqueued, SwitchSide.send]

lemma Inv.internal_length (hi : Inv c s) {es : List Event} (hes : ∀ e ∈ es, e.Internal)
    (h : runFrom (Lock.step c.lenInSwitch) (Lock.Meets c.lenInSwitch) s es = some s') :
    es.length + s'.weight ≤ s.weight := by
  induction es generalizing s with
  | nil =>
      rw [runFrom, Option.some.injEq] at h
      rw [h, List.length_nil, Nat.zero_add]
  | cons e es ih =>
      rw [runFrom] at h
      split at h
      · next hok =>
          obtain ⟨t, ht, hrest⟩ := Option.bind_eq_some_iff.1 h
          have hlt := hi.weight_lt (hes e List.mem_cons_self) ht
          have := ih (hi.step hok ht) (fun o ho => hes o (List.mem_cons_of_mem e ho)) hrest
          rw [List.length_cons]
          omega
      · cases h

end Rest

/-! ## What the lock guarantees -/

section Guarantees

variable {c : Setup} {s : Lock}

/-- Whom packets that go round will address. -/
def Lock.due (s : Lock) : Multiset Slot := s.queue.due

/-- Two slots, of which the server knows. -/
def twoSlots : Setup := ⟨⟨0, 2, by decide, by decide⟩, zeroed, 2⟩

/-- Transaction `tid` of client 1 asks for the lock, or releases it. -/
def request (op mode : BitVec 8) (tid : BitVec 32) : NlkHdr := ⟨0, op, mode, 1, tid, 0, 0, 10⟩

/-- Three writers ask, so that one is parked; the first one leaves, its packet goes round, and the
server hears of the third. -/
def threeWriters : List Event :=
  [.acquire (request ACQUIRE_LOCK EXCLUSIVE_LOCK 7), .acquire (request ACQUIRE_LOCK EXCLUSIVE_LOCK 8),
    .acquire (request ACQUIRE_LOCK EXCLUSIVE_LOCK 9),
    .release (request ACQUIRE_LOCK EXCLUSIVE_LOCK 7).slot (request RELEASE_LOCK EXCLUSIVE_LOCK 7),
    .pass 0, .serve]

lemma threeWriters_run : ∃ s, Lock.Reachable twoSlots s ∧
    (s.addressed = {(request ACQUIRE_LOCK EXCLUSIVE_LOCK 8).slot} ∧ s.AtRest
      ∧ s.arrived.length = 3 ∧ s.released = 1) :=
  Reach.exists_of_runFrom threeWriters (by decide +kernel)

/-- **First come, first served, on two sides.**  The entries of the slots and the parked requests
are the requests in the order in which they arrived, and the lock is given out in this order: the
packets that were sent, and those that packets going round will send, are for the entries that were
released and for the holders at the front of the slots. -/
theorem two_sides_in_order {s : Lock} (h : Lock.Reachable c s) :
    s.log.map Slot.node ++ s.parked = s.arrived
      ∧ s.sent.map Notice.slot + s.due
        = (s.log.take (s.released + (holders isExcl s.live).length) : List Slot) := by
  have hi := inv_of_reachable h
  exact ⟨hi.order, hi.switch.queue.served_prefix⟩

/-- In a run the first of three writers is gone and the third is parked. -/
theorem two_sides_in_order_three : ∃ s, Lock.Reachable twoSlots s ∧ s.released = 1
    ∧ s.arrived.length = 3 ∧ s.log.map Slot.node ++ s.parked = s.arrived := by
  obtain ⟨s, hs, -, -, hlen, hrel⟩ := threeWriters_run
  exact ⟨s, hs, hrel, hlen, (two_sides_in_order hs).1⟩

/-- **A writer is alone.**  Once it was sent a packet, and until it releases the lock, nobody else is
sent one, and nobody else was signalled that he has the lock. -/
theorem two_sides_exclusive {s : Lock} (h : Lock.Reachable c s) {a : Slot} (ha : a ∈ s.addressed)
    (hx : a.mode = EXCLUSIVE_LOCK) : s.addressed = {a} ∧ s.due = 0 ∧ s.signalled ≤ {a} := by
  have hs := (inv_of_reachable h).switch
  obtain ⟨halone, hdue⟩ := hs.queue.alone ha (isExcl_iff.2 hx)
  exact ⟨halone, hdue, halone ▸ hs.signalled⟩

/-- In a run the lock went from one writer to another. -/
theorem two_sides_exclusive_second : ∃ s, Lock.Reachable twoSlots s
    ∧ s.addressed = {(request ACQUIRE_LOCK EXCLUSIVE_LOCK 8).slot} ∧ s.due = 0 := by
  obtain ⟨s, hs, haddr, -⟩ := threeWriters_run
  exact ⟨s, hs, haddr,
    (two_sides_exclusive hs (by rw [haddr]; exact Multiset.mem_singleton_self _) rfl).2.1⟩

/-- The condition is needed.  Of two readers that leave, the packet of the first is still on its way
round when two writers have come into their slots, and takes the second one for the successor. -/
example : ∃ s, Reach (Lock.step 2) (fun _ _ => True) (Lock.init twoSlots) s ∧
    s.addressed = {(request ACQUIRE_LOCK EXCLUSIVE_LOCK 9).slot,
      (request ACQUIRE_LOCK EXCLUSIVE_LOCK 10).slot} :=
  Reach.exists_of_runFrom
    [.acquire (request ACQUIRE_LOCK SHARED_LOCK 7), .acquire (request ACQUIRE_LOCK SHARED_LOCK 8),
      .release (request ACQUIRE_LOCK SHARED_LOCK 7).slot (request RELEASE_LOCK SHARED_LOCK 7),
      .release (request ACQUIRE_LOCK SHARED_LOCK 8).slot (request RELEASE_LOCK SHARED_LOCK 8),
      .acquire (request ACQUIRE_LOCK EXCLUSIVE_LOCK 9),
      .acquire (request ACQUIRE_LOCK EXCLUSIVE_LOCK 10), .pass 0] (by decide +kernel)

/-- **No request is left behind** by the switch and the server.  While the clients do nothing the lock
comes to rest after `weight` steps at most, and when it is at rest and a request is open, a client was
sent a packet for the lock and has not released it. -/
theorem two_sides_not_stranded (hlen : 0 < c.lenInSwitch.toInt) {s : Lock} (h : Lock.Reachable c s) :
    (∀ es s', (∀ e ∈ es, e.Internal) →
        runFrom (Lock.step c.lenInSwitch) (Lock.Meets c.lenInSwitch) s es = some s' →
        es.length + s'.weight ≤ s.weight)
      ∧ (s.AtRest → s.released < s.arrived.length → s.addressed ≠ 0) := by
  obtain ⟨hi, hw⟩ : Inv c s ∧ s.Woken := by
    refine h.invariant (I := fun s => Inv c s ∧ s.Woken) ⟨inv_init c, fun _ _ hne => absurd rfl hne⟩ ?_
    rintro s e s' ⟨hi, hw⟩ hok hstep
    exact ⟨hi.step hok hstep, hi.woken hlen hw hok hstep⟩
  refine ⟨fun es s' hes hrun => hi.internal_length hes hrun, ?_⟩
  rintro ⟨hpasses, hserver, hback⟩ hopen
  have hlive : s.live ≠ [] := by
    intro hlive
    have hne : s.parked ≠ [] := by
      intro hnone
      have horder := congrArg List.length hi.order
      have hlen := s.length_live
      rw [hlive, List.length_nil] at hlen
      rw [hnone, List.append_nil, List.length_map] at horder
      omega
    obtain ⟨pre, hdr, post, heq, -⟩ := hw hlive hback hne
    rw [hserver] at heq
    exact absurd heq.symm (by simp)
  refine hi.switch.queue.held_ne_zero ?_ hlive
  simp [SwitchSide.queue, hpasses]

/-- At rest with two requests open. -/
theorem two_sides_not_stranded_three :
    ∃ s, Lock.Reachable twoSlots s ∧ s.AtRest ∧ s.addressed ≠ 0 := by
  obtain ⟨s, hs, -, hrest, hlen, hrel⟩ := threeWriters_run
  exact ⟨s, hs, hrest, (two_sides_not_stranded (by decide) hs).2 hrest (by omega)⟩

/-- The client need not know.  The second of two writers is sent the packet that goes round, which
has ACQUIRE_LOCK in it, and is not signalled. -/
example : ∃ s, Lock.Reachable twoSlots s ∧ s.AtRest ∧ s.signalled = 0 ∧
    s.sent = {⟨DIRECT_GRANT_FROM_SWITCH, (request ACQUIRE_LOCK EXCLUSIVE_LOCK 7).slot⟩,
      ⟨ACQUIRE_LOCK, (request ACQUIRE_LOCK EXCLUSIVE_LOCK 8).slot⟩} :=
  Reach.exists_of_runFrom
    [.acquire (request ACQUIRE_LOCK EXCLUSIVE_LOCK 7),
      .acquire (request ACQUIRE_LOCK EXCLUSIVE_LOCK 8),
      .release (request ACQUIRE_LOCK EXCLUSIVE_LOCK 7).slot (request RELEASE_LOCK EXCLUSIVE_LOCK 7),
      .pass 0] (by decide +kernel)

end Guarantees

end FissLock.NetLock.TwoSides
