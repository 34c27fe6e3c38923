import FissLock.Cluster.Rejection
import FissLock.Switch.Registers

/-!
# A notification and the release of the same grant, in either order

A granted `ACQUIRE` tells the agent of a new holder, and the `RELEASE` of that holder may overtake
it; the early-release mark is there to make the two commute.  `Drains` delivers packets in order,
together with all the packets that result, and `Commute` compares what the two orders lead to.

The mark takes care of the holder, but the release that comes first also gives the lock up on the
spot if nobody else is recorded.

* At the agent the packet is then one notification short.  It is rejected where the other order
  frees or transfers the lock, and accepted where the other order is rejected because the counter
  has come full circle.
* At a host that is not the agent it is a second packet, of an agency that has been given up
  already.

`notification_release_commute` says in terms of the state when none of this happens.
-/

namespace FissLock

open Runs Tofino Accounting

variable {lid : LockId} {s s' : Cluster} {p : LockHdr}

/-! ## Delivering packets in order -/

namespace Cluster

/-- The system with other metadata at host `a`. -/
def setHost (s : Cluster) (a : HostId) (l : InnetLock) : Cluster :=
  { s with host := Function.update s.host a l }

section

variable (s : Cluster) (a : HostId) (l l' : InnetLock)

@[simp]
lemma setHost_cell : (s.setHost a l).cell = s.cell := rfl

@[simp]
lemma setHost_self : (s.setHost a l).host a = l := Function.update_self ..

@[simp]
lemma setHost_setHost : (s.setHost a l).setHost a l' = s.setHost a l' := by
  simp [setHost]

end

/-- What a packet does where it arrives, and the packets that result. -/
def handle (s : Cluster) : Flight → Cluster × List Flight
  | (.switch, p) =>
      let r := process s.cell p
      ({ s with cell := r.1 }, toHosts r.2)
  | (.host h, p) =>
      let o := lockPacketProcess (conf h) (s.host h) p
      (s.setHost h o.lock, toSwitch o.toSwitch)

/-- A delivery handles the packet. -/
lemma step_deliver {i : ℕ} {x : Flight} (hx : s.net[i]? = some x) :
    s.step (.deliver i)
      = some { (s.handle x).1 with net := (s.handle x).2 ++ s.net.eraseIdx i } := by
  obtain ⟨d, p⟩ := x
  cases d with
  | switch => simp only [step, hx, switchStep, handle]
  | host h => simp only [step, hx, hostStep, handle, setHost]

/-- Delivering the packets of a queue, and all that result from it behind them, ends in `s'`. -/
inductive Drains : Cluster → List Flight → Cluster → Prop where
  | done (s : Cluster) : Drains s [] s
  | next {s s' : Cluster} {x : Flight} {q : List Flight}
      (rest : Drains (s.handle x).1 (q ++ (s.handle x).2) s') : Drains s (x :: q) s'

/-- There is only one way. -/
lemma Drains.unique {q : List Flight} {s₁ s₂ : Cluster} (h₁ : Drains s q s₁) (h₂ : Drains s q s₂) :
    s₁ = s₂ := by
  induction h₁ with
  | done s =>
      cases h₂
      rfl
  | next _ ih =>
      cases h₂ with
      | next rest => exact ih rest

/-- Two packets. -/
lemma Drains.pair {x y : Flight} {t u : Cluster} {o o' : List Flight} (hx : s.handle x = (t, o))
    (hy : t.handle y = (u, o')) (h : u.Drains (o ++ o') s') : s.Drains [x, y] s' := by
  refine .next ?_
  rw [hx]
  refine .next ?_
  rw [hy]
  exact h

/-- The packets in flight do not matter to a host or to the switch. -/
lemma handle_net (s : Cluster) (n : List Flight) (x : Flight) :
    { s with net := n }.handle x = ({ (s.handle x).1 with net := n }, (s.handle x).2) := by
  obtain ⟨d, p⟩ := x
  cases d <;> rfl

/-- **It is a run of the system**, whatever else is in flight. -/
lemma Drains.reach {q : List Flight} (h : Drains s q s') {n rest : List Flight}
    (hn : n.Perm (q ++ rest)) : ∃ n', n'.Perm rest
      ∧ Reach step (fun _ _ => True) { s with net := n } { s' with net := n' } := by
  induction h generalizing n with
  | done s => exact ⟨n, hn, .start⟩
  | @next s s' x q _ ih =>
      obtain ⟨i, hi⟩ := List.mem_iff_getElem?.1 (hn.mem_iff.2 (by simp) : x ∈ n)
      have hstep : { s with net := n }.step (.deliver i)
          = some { (s.handle x).1 with net := (s.handle x).2 ++ n.eraseIdx i } := by
        rw [step_deliver hi, handle_net]
      have herase : (n.eraseIdx i).Perm (q ++ rest) := by
        obtain ⟨hlt, rfl⟩ := List.getElem?_eq_some_iff.1 hi
        exact ((List.getElem_cons_eraseIdx_perm hlt).trans hn).cons_inv
      have hperm : ((s.handle x).2 ++ n.eraseIdx i).Perm ((q ++ (s.handle x).2) ++ rest) := by
        refine (herase.append_left _).trans ?_
        rw [← List.append_assoc]
        exact List.perm_append_comm.append_right _
      obtain ⟨n', hn', hreach⟩ := ih hperm
      exact ⟨n', hn', .trans (.next .start trivial hstep) hreach⟩

end Cluster

/-! ## What is compared -/

/-- The part of the metadata that the two orders are to agree on. -/
structure View where
  holders : Finset LockHolder
  wqueue : List Wqe
  mode : LockState
  isAgent : Bool
  ncnt : BitVec 8
  deriving DecidableEq

def InnetLock.view (l : InnetLock) : View where
  holders := l.holders
  wqueue := l.wqueue
  mode := l.mode
  isAgent := l.isAgent
  ncnt := l.ncnt.setWidth 8

/-- The same registers, and the same metadata at host `a`. -/
def SameView (a : HostId) (s₁ s₂ : Cluster) : Prop :=
  s₁.cell = s₂.cell ∧ (s₁.host a).view = (s₂.host a).view

/-- Delivering `n` and `r` to host `a` in either order, and all that results, leads to the same. -/
def Commute (s : Cluster) (a : HostId) (n r : LockHdr) : Prop :=
  ∃ s₁ s₂, s.Drains [(.host a, n), (.host a, r)] s₁ ∧ s.Drains [(.host a, r), (.host a, n)] s₂
    ∧ SameView a s₁ s₂

/-- Only one pair of states need be compared. -/
lemma commute_iff_of_drains {a : HostId} {n r : LockHdr} {s₁ s₂ : Cluster}
    (h₁ : s.Drains [(.host a, n), (.host a, r)] s₁)
    (h₂ : s.Drains [(.host a, r), (.host a, n)] s₂) : Commute s a n r ↔ SameView a s₁ s₂ := by
  constructor
  · rintro ⟨t₁, t₂, ht₁, ht₂, hview⟩
    rwa [ht₁.unique h₁, ht₂.unique h₂] at hview
  · intro hview
    exact ⟨s₁, s₂, h₁, h₂, hview⟩

/-! ## Grants on behalf of a wait queue -/

lemma process_grantWo {c : Cell} (ht : p.type = .grantWoAgent) :
    (process c p).1 = c ∧ ∀ x ∈ (process c p).2, x.2.type = .grantWoAgent := by
  obtain ⟨type, mc, gr, tr, old, mode, id, mid, tid, ag, wq, n⟩ := p
  simp only at ht
  subst ht
  refine ⟨by simp [process, ingressCell, counterTable, initPacket], ?_⟩
  intro x hx
  obtain ⟨m, -, rfl⟩ := List.mem_map.1 hx
  simp [ingressCell, counterTable, initPacket, egressPipe]

/-- Grants are handed through and change nothing that is compared. -/
lemma drains_grants (k : ℕ) : ∀ (q : List Flight) (s : Cluster),
    (∀ x ∈ q, x.2.type = .grantWoAgent) → q.countP (fun x => x.1 = .switch) = k →
    ∃ s', s.Drains q s' ∧ s'.cell = s.cell ∧ ∀ h, (s'.host h).view = (s.host h).view := by
  induction k using Nat.strong_induction_on with
  | _ k ihk =>
      intro q
      induction q with
      | nil => exact fun s _ _ => ⟨s, .done s, rfl, fun _ => rfl⟩
      | cons x q ihq =>
          intro s hall hk
          obtain ⟨d, p⟩ := x
          have ht : p.type = .grantWoAgent := hall _ List.mem_cons_self
          have htail : ∀ x ∈ q, x.2.type = .grantWoAgent :=
            fun x hx => hall x (List.mem_cons_of_mem _ hx)
          cases d with
          | switch =>
              obtain ⟨hcell, hout⟩ := process_grantWo (c := s.cell) ht
              have hcount : (q ++ toHosts (process s.cell p).2).countP (fun x => x.1 = .switch)
                  = q.countP (fun x => x.1 = .switch) := by
                rw [List.countP_append, Nat.add_eq_left, List.countP_eq_zero]
                intro y hy
                obtain ⟨z, -, rfl⟩ := List.mem_map.1 hy
                simp
              have hall' : ∀ x ∈ q ++ toHosts (process s.cell p).2, x.2.type = .grantWoAgent := by
                intro x hx
                rcases List.mem_append.1 hx with hx | hx
                · exact htail x hx
                · obtain ⟨y, hy, rfl⟩ := List.mem_map.1 hx
                  exact hout y hy
              rw [List.countP_cons_of_pos (by simp)] at hk
              obtain ⟨s', hd, hc, hv⟩ := ihk (q.countP (fun x => x.1 = .switch)) (by omega) _
                (s.handle (.switch, p)).1 hall' hcount
              exact ⟨s', .next hd, hc.trans hcell, hv⟩
          | host h =>
              rw [List.countP_cons_of_neg (by simp)] at hk
              have hcode : lockPacketProcess (conf h) (s.host h) p
                  = processGrantWoAgent (conf h) (s.host h) p := by simp [lockPacketProcess, ht]
              obtain ⟨s', hd, hc, hv⟩ := ihq (s.handle (.host h, p)).1 htail hk
              refine ⟨s', .next ?_, hc, fun h' => (hv h').trans ?_⟩
              · simpa [Cluster.handle, hcode, processGrantWoAgent, Outcome.toSwitch, toSwitch]
                  using hd
              · by_cases hh : h' = h
                · subst hh
                  simp only [Cluster.handle, Cluster.setHost_self, hcode]
                  rfl
                · simp only [Cluster.handle, Cluster.setHost, Function.update_of_ne hh]

/-! ## A hand-over and what becomes of it -/

/-- The grant that an accepted `TRANSFER` becomes. -/
def grantOf (q : LockHdr) : LockHdr :=
  { cleared q with type := .grantWithAgent, agent := q.machineId, transferred := true }

/-- The registers after a `FREE` or `TRANSFER` is accepted. -/
def acceptedCell (q : LockHdr) : Cell :=
  if q.type = .transfer then
    { free := LOCK_ACQUIRED, rw := q.mode, agent := q.machineId, ncnt := 0 }
  else { free := LOCK_FREE, rw := q.mode, agent := 0, ncnt := 0 }

/-- What its sender `a` has then: a `TRANSFER` may go to the sender itself. -/
def acceptedView (a : HostId) (q : LockHdr) (l : InnetLock) : View :=
  if q.type = .transfer ∧ q.machineId = a then
    (processGrantWithAgent (conf a) l (grantOf q)).lock.view
  else l.view

/-- What its sender has after it was rejected. -/
def restoredView (q : LockHdr) (l : InnetLock) : View where
  holders := l.holders
  wqueue := l.wqueue ++ q.carried
  mode := q.oldModeState
  isAgent := true
  ncnt := q.ncnt + l.ncnt.setWidth 8

/-- Host `a`, which records no holder, hands a shared lock over with the packet `q`. -/
structure Handing (a : HostId) (s : Cluster) (q : LockHdr) : Prop where
  taken : s.cell.free = LOCK_ACQUIRED
  isHost : isHost a = true
  type : q.type = .transfer ∨ q.type = .free
  agent : q.agent = a
  oldMode : q.oldMode = LOCK_SHARED
  next : q.type = .transfer → Tofino.isHost q.machineId = true ∧ q.taskId ≠ TASK_FOR_RESTORE
  holders : (s.host a).holders = ∅

section HandOver

variable {a : HostId} {q : LockHdr}

lemma grantWo_of_grantWithAgent {l : InnetLock} {h : HostId} (hmid : p.machineId = h)
    (ht : p.taskId ≠ TASK_FOR_RESTORE) (hw : p.transferred = true) :
    ∀ x ∈ toSwitch (processGrantWithAgent (conf h) l p).toSwitch, x.2.type = .grantWoAgent := by
  obtain ⟨gr, -, -, -, hsw⟩ := processGrantWithAgent_spec (l := l) hmid ht (by simp [hw])
  rw [hsw]
  intro x hx
  obtain ⟨w, -, rfl⟩ := List.mem_map.1 hx
  rfl

/-- The count of a packet plays no role for whoever gets the lock. -/
lemma acceptedView_ncnt (a : HostId) (q : LockHdr) (n : BitVec 8) (l : InnetLock) :
    acceptedView a { q with ncnt := n } l = acceptedView a q l := by
  have hlock : (processGrantWithAgent (conf a) l (grantOf { q with ncnt := n })).lock
      = (processGrantWithAgent (conf a) l (grantOf q)).lock := by
    simp only [processGrantWithAgent]
    split_ifs <;> first | rfl | contradiction
  rw [acceptedView, acceptedView, hlock]

/-- Nor do flags and marks of the sender. -/
lemma acceptedView_congr {l l' : InnetLock} (hh : l'.holders = l.holders)
    (hw : l'.wqueue = l.wqueue) (hm : l'.mode = l.mode) (ha : l'.isAgent = l.isAgent)
    (hn : l'.ncnt = l.ncnt) : acceptedView a q l' = acceptedView a q l := by
  have hview : l'.view = l.view := by simp only [InnetLock.view, hh, hw, hm, ha, hn]
  have hlock : (processGrantWithAgent (conf a) l' (grantOf q)).lock.view
      = (processGrantWithAgent (conf a) l (grantOf q)).lock.view := by
    simp only [processGrantWithAgent, lockDigestWq_eq, lockUnmarshalWq, lockAddHolder,
      lockLocalNotify]
    split_ifs <;> simp only [InnetLock.view, hh, hw, hm, ha, hn]
  rw [acceptedView, acceptedView, hlock, hview]

lemma restored_view (l : InnetLock) (q : LockHdr) :
    (restored l (cleared q)).view = restoredView q l := by
  rw [InnetLock.view, restoredView, View.mk.injEq]
  refine ⟨rfl, ?_, rfl, rfl, setWidth_restored_ncnt _ _⟩
  by_cases ht : q.type = .transfer <;>
    simp [restored, LockHdr.carried, cleared, ht, LockHdr.modeState]

namespace Handing

lemma accepted (hq : Handing a s q) (hc : s.cell.ncnt = q.ncnt) :
    ∃ s', s.Drains [(.switch, q)] s' ∧ s'.cell = acceptedCell q
      ∧ (s'.host a).view = acceptedView a q (s.host a) := by
  have hp : pushedBack s.cell q = false := by simp [pushedBack, hc]
  rcases hq.type with ht | ht
  · obtain ⟨hhost, htask⟩ := hq.next ht
    have hproc := process_transfer ht hp hq.taken hhost
    have hgrants : ∀ x ∈ toSwitch (processGrantWithAgent (conf q.machineId) (s.host q.machineId)
        (grantOf q)).toSwitch, x.2.type = .grantWoAgent :=
      grantWo_of_grantWithAgent rfl htask rfl
    obtain ⟨s', hd, hcell, hview⟩ := drains_grants _ _
      { s with
        cell := acceptedCell q
        host := Function.update s.host q.machineId
          (processGrantWithAgent (conf q.machineId) (s.host q.machineId) (grantOf q)).lock }
      hgrants rfl
    have hswitch : s.handle (.switch, q)
        = ({ s with cell := acceptedCell q }, [(.host q.machineId, grantOf q)]) := by
      simp only [Cluster.handle, hproc, acceptedCell, ht, if_true]
      rfl
    refine ⟨s', .next ?_, hcell, (hview a).trans ?_⟩
    · rw [hswitch]
      exact .next hd
    · by_cases hh : q.machineId = a
      · subst hh
        simp [acceptedView, ht]
      · simp [acceptedView, hh, Function.update_of_ne (Ne.symm hh)]
  · have hproc := process_free ht hp hq.taken
    refine ⟨{ s with cell := acceptedCell q }, .next ?_, rfl, by simp [acceptedView, ht]⟩
    simp only [Cluster.handle, hproc, toHosts, List.map_nil, List.append_nil, acceptedCell, ht]
    exact .done _

/-- A packet that is rejected comes back to the sender. -/
lemma back (hq : Handing a s q) (hc : s.cell.ncnt ≠ q.ncnt) :
    s.handle (.switch, q) = (s, [(.host a, cleared q)])
      ∧ lockPacketProcess (conf a) (s.host a) (cleared q)
        = processPushedBack (s.host a) (cleared q) := by
  have hp : pushedBack s.cell q = true := by simp [pushedBack, hq.oldMode, hc]
  have hproc := process_pushedBack hq.type hp (by rw [hq.agent]; exact hq.isHost)
  constructor
  · simp [Cluster.handle, hproc, toHosts, hq.agent]
  · rcases hq.type with ht | ht <;> simp [lockPacketProcess, cleared, ht]

lemma rejected (hq : Handing a s q) (hc : s.cell.ncnt ≠ q.ncnt)
    (hd : (s.host a).delayedFree = false) :
    ∃ s', s.Drains [(.switch, q)] s' ∧ s'.cell = s.cell
      ∧ (s'.host a).view = restoredView q (s.host a) := by
  obtain ⟨hback, hcode⟩ := hq.back hc
  rcases processPushedBack_spec (s.host a) (cleared q) with ⟨hd', -⟩ | ⟨-, hl, hsw⟩
  · cases hd.symm.trans hd'
  · refine ⟨s.setHost a (restored (s.host a) (cleared q)),
      .next ?_, rfl, ?_⟩
    · rw [hback]
      refine .next ?_
      simp only [Cluster.handle, hcode, hl, hsw, toSwitch, List.map_nil, List.append_nil]
      exact .done _
    · rw [Cluster.setHost_self]
      exact restored_view _ _

/-- A release that came in meanwhile makes the sender try again. -/
lemma again (hq : Handing a s q) (hc : s.cell.ncnt ≠ q.ncnt)
    (hd : (s.host a).delayedFree = true) :
    Handing a (s.setHost a (resent (s.host a)))
        { cleared q with ncnt := q.ncnt + (s.host a).ncnt.setWidth 8 }
      ∧ ∀ s', (s.setHost a (resent (s.host a))).Drains
          [(.switch, { cleared q with ncnt := q.ncnt + (s.host a).ncnt.setWidth 8 })] s' →
        s.Drains [(.switch, q)] s' := by
  obtain ⟨hback, hcode⟩ := hq.back hc
  refine ⟨⟨hq.taken, hq.isHost, hq.type, hq.agent, hq.oldMode, hq.next, ?_⟩, fun s' hs' => .next ?_⟩
  · rw [Cluster.setHost_self]
    exact hq.holders
  · rw [hback]
    refine .next ?_
    rcases processPushedBack_spec (s.host a) (cleared q) with ⟨-, -, hl, hsw⟩ | ⟨hb, -⟩
    · simp only [Cluster.handle, hcode, hl, hsw]
      exact hs'
    · exact absurd hq.holders (hb hd)

/-- **What becomes of a hand-over**: it is accepted at once, or on the second try, or the sender
takes the lock back. -/
lemma outcome (hq : Handing a s q) : ∃ s', s.Drains [(.switch, q)] s' ∧
    (s.cell.ncnt = q.ncnt ∧ s'.cell = acceptedCell q
        ∧ (s'.host a).view = acceptedView a q (s.host a)
      ∨ s.cell.ncnt ≠ q.ncnt ∧ (s.host a).delayedFree = true
        ∧ s.cell.ncnt = q.ncnt + (s.host a).ncnt.setWidth 8 ∧ s'.cell = acceptedCell q
        ∧ (s'.host a).view = acceptedView a q (resent (s.host a))
      ∨ s.cell.ncnt ≠ q.ncnt
        ∧ ((s.host a).delayedFree = true → s.cell.ncnt ≠ q.ncnt + (s.host a).ncnt.setWidth 8)
        ∧ s'.cell = s.cell ∧ (s'.host a).view = restoredView q (s.host a)) := by
  by_cases hc : s.cell.ncnt = q.ncnt
  · obtain ⟨s', hd, hcell, hview⟩ := hq.accepted hc
    exact ⟨s', hd, .inl ⟨hc, hcell, hview⟩⟩
  · cases hdf : (s.host a).delayedFree with
    | false =>
        obtain ⟨s', hd, hcell, hview⟩ := hq.rejected hc hdf
        exact ⟨s', hd, .inr (.inr ⟨hc, fun h => Bool.noConfusion h, hcell, hview⟩)⟩
    | true =>
        obtain ⟨hq', hagain⟩ := hq.again hc hdf
        by_cases hc' : s.cell.ncnt = q.ncnt + (s.host a).ncnt.setWidth 8
        · obtain ⟨s', hd, hcell, hview⟩ := hq'.accepted hc'
          rw [Cluster.setHost_self, acceptedView_ncnt] at hview
          exact ⟨s', hagain s' hd, .inr (.inl ⟨hc, rfl, hc', hcell, hview⟩)⟩
        · have hdf' : ((s.setHost a (resent (s.host a))).host a).delayedFree = false := by
            rw [Cluster.setHost_self]
            rfl
          obtain ⟨s', hd, hcell, hview⟩ := hq'.rejected hc' hdf'
          refine ⟨s', hagain s' hd, .inr (.inr ⟨hc, fun _ => hc', hcell, hview.trans ?_⟩)⟩
          simp only [Cluster.setHost_self, restoredView, resent, View.mk.injEq]
          refine ⟨trivial, rfl, rfl, trivial, ?_⟩
          simp

/-- A sender that is the agent by the registers after its hand-over was accepted has got the lock
from itself. -/
lemma accepted_agent (hq : Handing a s q) {l : InnetLock} {v : View} (hv : v = acceptedView a q l)
    (hcell : acceptedCell q = s.cell) (ha : s.cell.agent = a) :
    v.isAgent = true ∧ v.holders ≠ ∅ := by
  rw [acceptedCell] at hcell
  split at hcell
  · next ht =>
      have hmid : q.machineId = a := by rw [← ha, ← hcell]
      obtain ⟨gr, kept, -, hl, -⟩ := processGrantWithAgent_spec (p := grantOf q) (l := l) hmid
        (hq.next ht).2 (by simp [grantOf])
      rw [hv, acceptedView, if_pos ⟨ht, hmid⟩, hl]
      refine ⟨rfl, ?_⟩
      exact Finset.ne_empty_of_mem (Finset.mem_union_left _ (Finset.mem_insert_self _ _))
  · have hfree := hq.taken
    rw [← hcell] at hfree
    cases hfree

/-- So it cannot be mistaken for one that has taken the lock back without a holder. -/
lemma accepted_ne_restored (hq : Handing a s q) {q' : LockHdr} {l l' : InnetLock} {v v' : View}
    (hv : v = acceptedView a q l) (hv' : v' = restoredView q' l') (hh : l'.holders = ∅)
    (ha : s.cell.agent = a) (hcell : acceptedCell q = s.cell) : v ≠ v' := by
  intro heq
  refine (hq.accepted_agent hv hcell ha).2 ?_
  rw [heq, hv']
  exact hh

end Handing

end HandOver

/-! ## The two packets -/

/-- The packet with which a host that records no holder gives the lock up, made from the `RELEASE`
`r`. -/
def handOverHdr (a : HostId) (l : InnetLock) (r : LockHdr) : LockHdr :=
  if lockNoWaiters l then (lockFreeHelper (conf a) l r).2 else (lockTransferHelper (conf a) l r).2.1

/-- A notification `n` and the `RELEASE` `r` of the same grant are on their way to host `a`, which
the switch takes for the agent of the shared lock. -/
structure Racing (s : Cluster) (a : HostId) (n r : LockHdr) : Prop where
  inRange : lockOutOfRange (s.host a) = false
  acquire : n.type = .acquire
  granted : n.granted = true
  shared : n.mode = LOCK_SHARED
  release : r.type = .release
  same : r.holder = n.holder
  unrecorded : n.holder ∉ (s.host a).holders
  unmarked : (s.host a).earlyRelease n.holder = false
  notQueued : ∀ e ∈ (s.host a).wqueue, e.holder ≠ n.holder
  taken : s.cell.free = LOCK_ACQUIRED
  agent : s.cell.agent = a
  isHost : isHost a = true
  mode : (s.host a).mode.bit = LOCK_SHARED
  waiters : ∀ e ∈ (s.host a).wqueue, Tofino.isHost e.host = true

/-- Whoever is queued has a request pending. -/
lemma Cluster.pend_of_mem_wqueue {h : HostId} {w : Wqe} (hw : w ∈ (s.host h).wqueue) :
    1 ≤ s.pend w.holder w.op.bit := by
  refine le_trans ?_ (s.countP_le w.holder w.op.bit h)
  exact List.countP_pos_iff.2 ⟨w, hw, by simp [Wqe.isFor]⟩

/-- The invariant knows all this. -/
lemma Inv.racing (hi : Inv lid s) (hlid : lid.toNat < SWITCH_LOCK_NUM) {a : HostId}
    {n r : LockHdr} (hn : (Dst.host a, n) ∈ s.flights) (hr : (Dst.host a, r) ∈ s.flights)
    (hnt : n.type = .acquire) (hng : n.granted = true) (hrt : r.type = .release)
    (hsame : r.holder = n.holder) : Racing s a n r := by
  have hok := (hi.flight _ hn).2
  simp only [hnt] at hok
  obtain ⟨hmode, rfl, hrw⟩ := hok.2 hng
  have hnotif : 1 ≤ s.notif n.holder :=
    le_trans (by simp [notifPkt, isNotif, hnt, hng]) (Cluster.notifPkt_le n.holder hn)
  have hrel : 1 ≤ s.rel n.holder :=
    le_trans (by simp [typedPkt, hrt, hsame]) (Cluster.rel_le n.holder hr)
  obtain ⟨-, hheld⟩ := (hi.task n.holder).of_notif hnotif
  obtain ⟨-, -, -, hearly, -, hpend, -⟩ := (hi.task n.holder).of_rel hrel
  obtain ⟨k, hk⟩ : ∃ k, Held s k := by
    rcases hi.token with hu | hk
    · have := s.notif_le_notifs n.holder
      rw [hu.notifs] at this
      omega
    · exact hk
  refine ⟨hi.inRange hlid _, hnt, hng, hmode, hrt, hsame, fun hmem => ?_, ?_, fun e he heq => ?_,
    hk.acquired, rfl, hk.isHost, ?_, fun e he => ?_⟩
  · have hone : s.held n.holder = 1 := if_pos hmem
    omega
  · simpa [Cluster.early, Cluster.agentHost] using hearly
  · have hone := Cluster.pend_of_mem_wqueue he
    rw [heq, hpend] at hone
    omega
  · have hm := hk.mode
    rw [Cluster.agentHost] at hm
    rw [hm]
    split
    · rw [LockState.bit_ofBit, hrw]
    · rfl
  · have hone := Cluster.pend_of_mem_wqueue he
    refine ((hi.task e.holder).valid ?_).1
    rw [((hi.task e.holder).of_pend hone).1]
    exact fun h => TaskState.noConfusion h

section Orders

variable {a : HostId} {n r : LockHdr}

lemma releaseHandOver_empty {l : InnetLock} (hh : l.holders = ∅) (f : List Assertion) :
    (releaseHandOver (conf a) l r f).lock = handedOver l
      ∧ (releaseHandOver (conf a) l r f).toSwitch = [handOverHdr a l r] := by
  cases hw : l.wqueue with
  | nil =>
      simp [releaseHandOver, handOverHdr, lockNoHolders, lockNoWaiters, hh, hw, lockFreeHelper,
        handedOver, Outcome.toSwitch]
  | cons w rest =>
      have hret : (if rest.length ≠ 0 then rest.length * 5 else 1) ≠ 0 := by
        split <;> omega
      simp only [releaseHandOver, handOverHdr, lockNoHolders, lockNoWaiters, hh, hw, decide_true,
        if_true, List.isEmpty_cons, Bool.false_eq_true, if_false, lockTransferHelper,
        Outcome.toSwitch, hret, not_false_eq_true, ne_eq, List.nil_append]
      exact ⟨by simp [handedOver, hh], trivial⟩

/-- The packet depends on the queue, the mode and the count. -/
lemma handOverHdr_congr {l l' : InnetLock} (hw : l'.wqueue = l.wqueue) (hm : l'.mode = l.mode) :
    handOverHdr a l' r = { handOverHdr a l r with ncnt := l'.ncnt.setWidth 8 } := by
  cases hq : l.wqueue with
  | nil => simp [handOverHdr, lockNoWaiters, hw, hq, lockFreeHelper, hm]
  | cons w rest => simp [handOverHdr, lockNoWaiters, hw, hq, lockTransferHelper, hm]

lemma handOverHdr_ncnt (l : InnetLock) : (handOverHdr a l r).ncnt = l.ncnt.setWidth 8 := by
  cases hq : l.wqueue with
  | nil => simp [handOverHdr, lockNoWaiters, hq, lockFreeHelper]
  | cons w rest => simp [handOverHdr, lockNoWaiters, hq, lockTransferHelper]

/-- Not on holders or marks. -/
lemma handOverHdr_dropped (l : InnetLock) (hs : Finset LockHolder) (er : LockHolder → Bool)
    (lc : Finset TaskId) : handOverHdr a (dropped l hs er lc) r = handOverHdr a l r := by
  cases hq : l.wqueue with
  | nil => simp [handOverHdr, dropped, lockNoWaiters, hq, lockFreeHelper]
  | cons w rest => simp [handOverHdr, dropped, lockNoWaiters, hq, lockTransferHelper]

namespace Racing

/-- With its queue and in its mode, host `a` hands the lock over. -/
lemma handing (x : Racing s a n r) {l : InnetLock} {t : Cluster} (hcell : t.cell = s.cell)
    (hempty : (t.host a).holders = ∅) (hw : l.wqueue = (s.host a).wqueue)
    (hm : l.mode = (s.host a).mode) : Handing a t (handOverHdr a l r) := by
  have htaken : t.cell.free = LOCK_ACQUIRED := by rw [hcell]; exact x.taken
  have hmode : l.mode.bit = LOCK_SHARED := by rw [hm]; exact x.mode
  cases hq : l.wqueue with
  | nil =>
      have hhdr : handOverHdr a l r = (lockFreeHelper (conf a) l r).2 := by
        simp [handOverHdr, lockNoWaiters, hq]
      rw [hhdr]
      exact ⟨htaken, x.isHost, .inr rfl, rfl, hmode, fun h => PostType.noConfusion h, hempty⟩
  | cons w rest =>
      have hhost : Tofino.isHost w.host = true := x.waiters w (by rw [← hw, hq]; simp)
      have htask : w.taskId ≠ TASK_FOR_RESTORE := by
        intro h
        have hlt := w.taskId_lt
        rw [h] at hlt
        revert hlt
        decide
      simp only [handOverHdr, lockNoWaiters, hq, List.isEmpty_cons, Bool.false_eq_true, if_false,
        lockTransferHelper]
      exact ⟨htaken, x.isHost, .inl rfl, rfl, hmode, fun _ => ⟨hhost, htask⟩, hempty⟩

lemma notified_eq (x : Racing s a n r) :
    notified (s.host a) n.holder
      = { s.host a with
          ncnt := (s.host a).ncnt + 1, holders := insert n.holder (s.host a).holders } := by
  simp only [notified, x.unmarked, Bool.false_eq_true, if_false]

/-- The notification is counted, and nothing is sent. -/
lemma handle_notification (x : Racing s a n r) {t : Cluster} (hid : (t.host a).id = (s.host a).id) :
    t.handle (.host a, n)
      = (t.setHost a (notified (t.host a) n.holder), []) := by
  have hcode : lockPacketProcess (conf a) (t.host a) n = processAcquire (t.host a) n := by
    simp [lockPacketProcess, x.acquire]
  have hr : lockOutOfRange (t.host a) = false := by
    rw [lockOutOfRange, hid]
    exact x.inRange
  obtain ⟨hl, hsw⟩ := processAcquire_granted hr x.shared x.granted
  simp only [Cluster.handle, hcode, hl, hsw, toSwitch, List.map_nil]

/-- The release either leaves other holders behind or gives the lock up. -/
lemma handle_release {t : Cluster} {l : InnetLock} (x : Racing s a n r) (f : List Assertion)
    (hcode : processRelease (conf a) (t.host a) r = releaseHandOver (conf a) l r f) :
    l.holders ≠ ∅
        ∧ t.handle (.host a, r) = (t.setHost a l, [])
      ∨ l.holders = ∅ ∧ t.handle (.host a, r)
          = (t.setHost a (handedOver l),
              [(.switch, handOverHdr a l r)]) := by
  have hcode' : lockPacketProcess (conf a) (t.host a) r = releaseHandOver (conf a) l r f := by
    simp only [lockPacketProcess, x.release, hcode]
  by_cases hh : l.holders = ∅
  · obtain ⟨hl, hsw⟩ := releaseHandOver_empty (a := a) (r := r) hh f
    refine .inr ⟨hh, ?_⟩
    simp only [Cluster.handle, hcode', hl, hsw, toSwitch, List.map_cons, List.map_nil]
  · rcases releaseHandOver_spec a l r f with ⟨-, hl, hsw⟩ | ⟨hempty, -⟩
    · refine .inl ⟨hh, ?_⟩
      simp only [Cluster.handle, hcode', hl, hsw, toSwitch, List.map_nil]
    · exact absurd hempty hh

/-- The notification comes first: it is counted and the holder recorded, and the release removes the
holder again.  The lock is given up by an agent that records nobody else. -/
lemma notification_first (x : Racing s a n r) :
    ∃ l, l.wqueue = (s.host a).wqueue ∧ l.mode = (s.host a).mode
      ∧ l.isAgent = (s.host a).isAgent ∧ l.holders = (s.host a).holders
      ∧ l.ncnt = (s.host a).ncnt + 1
      ∧ (((s.host a).isAgent = false ∨ (s.host a).holders ≠ ∅) ∧
          s.Drains [(.host a, n), (.host a, r)] (s.setHost a l)
        ∨ (s.host a).isAgent = true ∧ (s.host a).holders = ∅
          ∧ l.delayedFree = (s.host a).delayedFree
          ∧ ∀ s', (s.setHost a (handedOver l)).Drains
              [(.switch, handOverHdr a l r)] s' → s.Drains [(.host a, n), (.host a, r)] s') := by
  have herase : (insert n.holder (s.host a).holders).erase n.holder = (s.host a).holders :=
    Finset.erase_insert x.unrecorded
  have hfirst := x.handle_notification (t := s) rfl
  rw [x.notified_eq] at hfirst
  set l₁ : InnetLock := { s.host a with
    ncnt := (s.host a).ncnt + 1, holders := insert n.holder (s.host a).holders }
  have hr : lockOutOfRange l₁ = false := x.inRange
  have hmem : r.holder ∈ l₁.holders := by
    rw [x.same]
    exact Finset.mem_insert_self _ _
  cases ha : (s.host a).isAgent with
  | false =>
      obtain ⟨hl, hsw⟩ := processRelease_delayed (h := a) hr ha hmem
      have hrel : (s.setHost a l₁).handle (.host a, r)
          = (s.setHost a (delayed l₁ n.holder), []) := by
        simp only [Cluster.handle, lockPacketProcess, x.release, Cluster.setHost_self,
          Cluster.setHost_setHost, hl, hsw, x.same, toSwitch, List.map_nil]
      exact ⟨delayed l₁ n.holder, rfl, rfl, ha, herase, rfl,
        .inl ⟨.inl rfl, .pair hfirst hrel (.done _)⟩⟩
  | true =>
      have hnot : ∀ e ∈ l₁.wqueue, e.holder ≠ r.holder := by
        rw [x.same]
        exact x.notQueued
      rcases processRelease_agent (h := a) hr ha hnot with ⟨-, f, hcode⟩ | ⟨hno, -⟩
      · rw [x.same] at hcode
        set l := dropped l₁ (l₁.holders.erase n.holder) l₁.earlyRelease l₁.localHolders
        have hlh : l.holders = (s.host a).holders := herase
        refine ⟨l, rfl, rfl, ha, hlh, rfl, ?_⟩
        rcases x.handle_release (t := s.setHost a l₁) f (by simpa using hcode) with
          ⟨hh, hrel⟩ | ⟨hh, hrel⟩
        · rw [Cluster.setHost_setHost] at hrel
          exact .inl ⟨.inr (hlh ▸ hh), .pair hfirst hrel (.done _)⟩
        · rw [Cluster.setHost_setHost] at hrel
          exact .inr ⟨rfl, hlh ▸ hh, rfl, fun s' hs' => .pair hfirst hrel hs'⟩
      · exact absurd hmem hno

/-- The release comes first: it leaves a mark, which the notification clears.  The lock is given up
by any host that records nobody else. -/
lemma release_first (x : Racing s a n r) :
    (s.host a).holders ≠ ∅
        ∧ (∃ l, l.wqueue = (s.host a).wqueue ∧ l.mode = (s.host a).mode
          ∧ l.isAgent = (s.host a).isAgent ∧ l.holders = (s.host a).holders
          ∧ l.ncnt = (s.host a).ncnt + 1
          ∧ s.Drains [(.host a, r), (.host a, n)] (s.setHost a l))
      ∨ (s.host a).holders = ∅
        ∧ ∃ l, l.wqueue = [] ∧ l.mode = .free ∧ l.isAgent = false ∧ l.holders = ∅ ∧ l.ncnt = 1
          ∧ l.delayedFree = (s.host a).delayedFree
          ∧ ∀ s', (s.setHost a l).Drains [(.switch, handOverHdr a (s.host a) r)] s' →
            s.Drains [(.host a, r), (.host a, n)] s' := by
  have hm : r.holder ∉ (s.host a).holders := by
    rw [x.same]
    exact x.unrecorded
  have hnot : ∀ e ∈ (s.host a).wqueue, e.holder ≠ r.holder := by
    rw [x.same]
    exact x.notQueued
  have hcode := processRelease_early (h := a) x.inRange hm hnot
  set l := dropped (s.host a) (s.host a).holders
    (Function.update (s.host a).earlyRelease r.holder true) (s.host a).localHolders with hl
  have hmark : l.earlyRelease n.holder = true := by
    rw [hl, ← x.same]
    exact Function.update_self ..
  rcases x.handle_release (t := s) [] hcode with ⟨hh, hrel⟩ | ⟨hh, hrel⟩
  · have hsecond := x.handle_notification (t := s.setHost a l) (by simp [hl, dropped])
    rw [Cluster.setHost_self, Cluster.setHost_setHost, notified, if_pos hmark] at hsecond
    exact .inl ⟨hh, { l with
        ncnt := l.ncnt + 1, earlyRelease := Function.update l.earlyRelease n.holder false },
      rfl, rfl, rfl, rfl, rfl, .pair hrel hsecond (.done _)⟩
  · have hsecond := x.handle_notification (t := s.setHost a (handedOver l))
      (by simp [hl, dropped, handedOver])
    have hmark' : (handedOver l).earlyRelease n.holder = true := hmark
    rw [Cluster.setHost_self, Cluster.setHost_setHost, notified, if_pos hmark'] at hsecond
    rw [hl, handOverHdr_dropped, ← hl] at hrel
    exact .inr ⟨hh, { handedOver l with
        ncnt := (handedOver l).ncnt + 1
        earlyRelease := Function.update l.earlyRelease n.holder false },
      rfl, rfl, rfl, hh, rfl, rfl, fun s' hs' => .pair hrel hsecond hs'⟩

/-- With another holder recorded, both orders only count the notification. -/
lemma commute_of_holders (x : Racing s a n r) (hh : (s.host a).holders ≠ ∅) : Commute s a n r := by
  obtain ⟨l, hw, hm, hag, hlh, hn, ⟨-, hd⟩ | ⟨-, hempty, -⟩⟩ := x.notification_first
  · obtain ⟨-, l', hw', hm', hag', hlh', hn', hd'⟩ | ⟨hempty, -⟩ := x.release_first
    · refine ⟨_, _, hd, hd', rfl, ?_⟩
      simp only [Cluster.setHost_self, InnetLock.view, hw, hm, hag, hlh, hn, hw', hm', hag', hlh',
        hn']
    · exact absurd hempty hh
  · exact absurd hempty hh

/-- A host that is not the agent and records no other holder sends a second packet if the release
comes first, and not otherwise. -/
lemma not_commute_of_not_agent (x : Racing s a n r) (hh : (s.host a).holders = ∅)
    (ha : (s.host a).isAgent = false) : ¬ Commute s a n r := by
  obtain ⟨l, -, -, hag, -, -, ⟨-, hd⟩ | ⟨hag', -⟩⟩ := x.notification_first
  · obtain ⟨hne, -⟩ | ⟨-, l', -, -, -, hlh, -, -, hgo⟩ := x.release_first
    · exact absurd hh hne
    · have hq : Handing a (s.setHost a l') (handOverHdr a (s.host a) r) :=
        x.handing rfl (by rw [Cluster.setHost_self, hlh]) rfl rfl
      obtain ⟨s₂, hd₂, hout⟩ := hq.outcome
      rw [commute_iff_of_drains hd (hgo _ hd₂)]
      rintro ⟨hcell, hview⟩
      have hno : ((s₂.host a).view).isAgent = false := by
        rw [← hview, Cluster.setHost_self]
        exact hag.trans ha
      obtain ⟨-, hcell₂, hview₂⟩ | ⟨-, -, -, hcell₂, hview₂⟩ | ⟨-, -, -, hview₂⟩ := hout
      · cases hno.symm.trans (hq.accepted_agent hview₂ (hcell₂.symm.trans hcell.symm) x.agent).1
      · cases hno.symm.trans (hq.accepted_agent hview₂ (hcell₂.symm.trans hcell.symm) x.agent).1
      · rw [hview₂] at hno
        cases hno
  · cases ha.symm.trans hag'

/-- The agent, which records no other holder, hands the lock over in both orders.  With the release
first the packet counts one notification less. -/
lemma commute_agent_iff (x : Racing s a n r) (hh : (s.host a).holders = ∅)
    (ha : (s.host a).isAgent = true) :
    Commute s a n r ↔ s.cell.ncnt ≠ (s.host a).ncnt.setWidth 8
      ∧ (s.cell.ncnt = (s.host a).ncnt.setWidth 8 + 1 → (s.host a).delayedFree = true) := by
  obtain ⟨l, hw, hm, -, hlh, hn, ⟨hno | hno, -⟩ | ⟨-, -, hdf, hgo⟩⟩ := x.notification_first
  · cases ha.symm.trans hno
  · exact absurd hh hno
  obtain ⟨hne, -⟩ | ⟨-, l', hw', hm', hag', hlh', hn', hdf', hgo'⟩ := x.release_first
  · exact absurd hh hne
  set N := (s.host a).ncnt.setWidth 8
  have hcount : l.ncnt.setWidth 8 = N + 1 := by
    rw [hn, BitVec.setWidth_add _ _ (by decide)]
    rfl
  have hq : Handing a (s.setHost a (handedOver l)) (handOverHdr a l r) :=
    x.handing rfl (by rw [Cluster.setHost_self]; exact hlh.trans hh) hw hm
  have hq' : Handing a (s.setHost a l') (handOverHdr a (s.host a) r) :=
    x.handing rfl (by rw [Cluster.setHost_self, hlh']) rfl rfl
  obtain ⟨s₁, hd, hout⟩ := hq.outcome
  obtain ⟨s₂, hd', hout'⟩ := hq'.outcome
  rw [commute_iff_of_drains (hgo _ hd) (hgo' _ hd')]
  simp only [Cluster.setHost_cell, Cluster.setHost_self, handOverHdr_ncnt, hcount, hdf'] at hout hout'
  have hone : l'.ncnt.setWidth 8 = 1 := by rw [hn']; rfl
  have hzero : (handedOver l).ncnt.setWidth 8 = 0 := rfl
  rw [hone] at hout'
  rw [hzero, add_zero] at hout
  have hne : N + 1 ≠ N := by simp
  have hhdr : handOverHdr a l r = { handOverHdr a (s.host a) r with ncnt := N + 1 } := by
    rw [handOverHdr_congr hw hm, hcount]
  obtain ⟨hc, hcell, hview⟩ | ⟨hc, -, hc', -⟩ | ⟨hc, -, hcell, hview⟩ := hout
  · -- one grant was not counted: with the release first the packet is rejected, and sent again only if
    -- `delayed_free` is set
    obtain ⟨hc', -⟩ | ⟨-, hδ, -, hcell', hview'⟩ | ⟨-, hδ, hcell', hview'⟩ := hout'
    · exact absurd (hc.symm.trans hc') hne
    · refine iff_of_true ⟨?_, ?_⟩ ⟨fun h => hne (hc.symm.trans h), fun _ => hδ⟩
      · rw [hcell, hcell', hhdr]
        rfl
      · rw [hview, hview', hhdr, acceptedView_ncnt]
        exact acceptedView_congr (hlh.trans (hh.trans hlh'.symm)) hw'.symm hm'.symm hag'.symm rfl
    · refine iff_of_false (fun hsame => ?_) (fun h => hδ (h.2 hc) hc)
      exact hq.accepted_ne_restored hview hview' hlh' x.agent
        (hcell.symm.trans (hsame.1.trans hcell')) hsame.2
  · exact absurd hc' hc
  · -- rejected; with the release first it is accepted if the counter has come full circle
    obtain ⟨hc', hcell', hview'⟩ | ⟨-, -, hc', -⟩ | ⟨hc', -, hcell', hview'⟩ := hout'
    · refine iff_of_false (fun hsame => ?_) (fun h => h.1 hc')
      exact hq'.accepted_ne_restored hview' hview (hlh.trans hh) x.agent
        (hcell'.symm.trans (hsame.1.symm.trans hcell)) hsame.2.symm
    · exact absurd hc' hc
    · refine iff_of_true ⟨hcell.trans hcell'.symm, ?_⟩ ⟨hc', fun h => absurd h hc⟩
      rw [hview, hview', hhdr, restoredView, restoredView, View.mk.injEq, hw', hone, hzero, add_zero,
        handOverHdr_ncnt]
      exact ⟨hlh.trans (hh.trans hlh'.symm), rfl, rfl, rfl, rfl⟩

/-- **When the two orders agree.** -/
lemma commute_iff (x : Racing s a n r) :
    Commute s a n r ↔ (s.host a).holders ≠ ∅
      ∨ (s.host a).isAgent = true ∧ s.cell.ncnt ≠ (s.host a).ncnt.setWidth 8
        ∧ (s.cell.ncnt = (s.host a).ncnt.setWidth 8 + 1 → (s.host a).delayedFree = true) := by
  by_cases hh : (s.host a).holders = ∅
  · cases ha : (s.host a).isAgent with
    | false => simp [x.not_commute_of_not_agent hh ha, hh]
    | true => simp [x.commute_agent_iff hh ha, hh]
  · simp [x.commute_of_holders hh, hh]

end Racing

end Orders

/-! ## The result -/

/-- **When a notification and the release of the same grant commute.**  In every state that a
guarded run reaches: the two orders lead to the same registers and the same metadata exactly if the
host records another holder, or if it is the agent, the register is not where the host's count is,
and the release of a grant that is the only one not counted yet meets `delayed_free`. -/
theorem notification_release_commute (hlid : lid.toNat < SWITCH_LOCK_NUM)
    (h : Cluster.Reachable lid Guarded s) {a : HostId} {n r : LockHdr}
    (hn : (Dst.host a, n) ∈ s.net) (hr : (Dst.host a, r) ∈ s.net) (hnt : n.type = .acquire)
    (hng : n.granted = true) (hrt : r.type = .release) (hsame : r.holder = n.holder) :
    Commute s a n r ↔ (s.host a).holders ≠ ∅
      ∨ (s.host a).isAgent = true ∧ s.cell.ncnt ≠ (s.host a).ncnt.setWidth 8
        ∧ (s.cell.ncnt = (s.host a).ncnt.setWidth 8 + 1 → (s.host a).delayedFree = true) :=
  ((inv_of_reachable hlid h).racing hlid (Multiset.mem_coe.2 hn) (Multiset.mem_coe.2 hr) hnt hng hrt
    hsame).commute_iff

/-- The two packets of a grant that are in flight to a host. -/
def Cluster.races (s : Cluster) (a : HostId) : Option (LockHdr × LockHdr) :=
  s.net.findSome? fun x => s.net.findSome? fun y =>
    if x.1 = .host a ∧ y.1 = .host a ∧ x.2.type = .acquire ∧ x.2.granted = true
        ∧ y.2.type = .release ∧ y.2.holder = x.2.holder then
      some (x.2, y.2)
    else none

lemma Cluster.races_spec {a : HostId} {n r : LockHdr} (h : s.races a = some (n, r)) :
    (Dst.host a, n) ∈ s.net ∧ (Dst.host a, r) ∈ s.net ∧ n.type = .acquire ∧ n.granted = true
      ∧ r.type = .release ∧ r.holder = n.holder := by
  obtain ⟨⟨d, p⟩, hx, h⟩ := List.exists_of_findSome?_eq_some h
  obtain ⟨⟨d', p'⟩, hy, h⟩ := List.exists_of_findSome?_eq_some h
  split at h
  · next hc =>
      cases h
      obtain ⟨rfl, rfl, hc⟩ := hc
      exact ⟨hx, hy, hc⟩
  · cases h

/-- Host 1 still holds the lock itself when the two packets of host 2 come in. -/
theorem notification_release_commute_held : ∃ s n r, Cluster.Reachable 7 Guarded s
    ∧ s.races 1 = some (n, r) ∧ Commute s 1 n r := by
  have hex : ∃ s, Cluster.Reachable 7 Guarded s
      ∧ ((s.races 1).isSome = true ∧ (s.host 1).holders ≠ ∅) :=
    Reach.exists_of_runFrom
      [.acquire 1 1 .shared, .deliver 0, .deliver 0, .poll 1 1, .acquire 2 2 .shared, .deliver 0,
        .deliver 1, .poll 2 2, .release 2 2, .deliver 0] (by decide +kernel)
  obtain ⟨s, hrun, hsome, hh⟩ := hex
  obtain ⟨⟨n, r⟩, hraces⟩ := Option.isSome_iff_exists.1 hsome
  obtain ⟨hn, hr, hnt, hng, hrt, hsame⟩ := Cluster.races_spec hraces
  exact ⟨s, n, r, hrun, hraces,
    (notification_release_commute (by decide) hrun hn hr hnt hng hrt hsame).2 (.inl hh)⟩

/-- **In general they do not commute.**  Host 1 has released the lock, and its `FREE` has come
back because of the grant of host 2.  If the notification of this grant comes first, the release
frees the lock; if the release comes first, the `FREE` is rejected once more and host 1 stays the
agent. -/
theorem notification_release_commute_fails :
    ¬ ∀ s a n r, Cluster.Reachable 7 (fun _ _ => True) s → (Dst.host a, n) ∈ s.net →
      (Dst.host a, r) ∈ s.net → n.type = .acquire → n.granted = true → n.mode = LOCK_SHARED →
      r.type = .release → r.holder = n.holder → Commute s a n r := by
  intro hall
  have hex : ∃ s, Cluster.Reachable 7 Guarded s
      ∧ ((s.races 1).isSome = true ∧ (s.host 1).holders = ∅ ∧ (s.host 1).delayedFree = false
        ∧ s.cell.ncnt = (s.host 1).ncnt.setWidth 8 + 1) :=
    Reach.exists_of_runFrom
      [.acquire 1 1 .shared, .deliver 0, .deliver 0, .poll 1 1, .acquire 2 2 .shared, .deliver 0,
        .release 1 1, .deliver 0, .deliver 0, .deliver 1, .poll 2 2, .release 2 2, .deliver 0]
      (by decide +kernel)
  obtain ⟨s, hrun, hsome, hh, hδ, hc⟩ := hex
  obtain ⟨⟨n, r⟩, hraces⟩ := Option.isSome_iff_exists.1 hsome
  obtain ⟨hn, hr, hnt, hng, hrt, hsame⟩ := Cluster.races_spec hraces
  have x := (inv_of_reachable (by decide) hrun).racing (by decide) (Multiset.mem_coe.2 hn)
    (Multiset.mem_coe.2 hr) hnt hng hrt hsame
  have hcom := hall s 1 n r (hrun.mono fun _ _ _ => trivial) hn hr hnt hng x.shared hrt hsame
  rcases x.commute_iff.1 hcom with hne | ⟨-, -, hd⟩
  · exact hne hh
  · cases hδ.symm.trans (hd hc)

end FissLock
