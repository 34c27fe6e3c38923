import FissLock.OneHost.Contention
import FissLock.Switch.Frames

/-!
# One host, with bytes on the wire

`OneHost` with what is really between the host and the switch: frames.  The host builds one from
each post that it sends; the switch parses, rewrites and deparses it; and what leaves through a port
is appended to the capture file of the port, from which the host reads.  It reads all three files,
whoever the packets in them are for.  Others may send frames to the switch at any time, as long as
neither the switch nor the host takes them for lock packets (`Bmv2.Foreign`).

The switch has all its registers here.  `Carried` relates this system to `OneHost`, and
`carried_of_reachable` says that it refines it: a step of the switch or of the host that is about a
foreign frame is no step of `OneHost`.  So what was proved of `OneHost` holds of the bytes.
-/

namespace FissLock

open Runs

/-- The host, the switch and the frames between them. -/
structure Wired where
  regs : Bmv2.Regs
  lock : InnetLock
  /-- Frames to the switch, oldest first. -/
  up : List (List Byte)
  /-- What left through each port and the host has not read, oldest first. -/
  captured : BitVec 9 → List (List Byte)
  gaps : List (TaskId × Gap)
  task : TaskId → ClientState
  queued : List TaskId
  served : List TaskId

inductive WireEvent where
  /-- A step of the host alone: a call of a task, or what a thread has left to do. -/
  | host (e : HostEvent)
  /-- The switch processes the next frame. -/
  | switch
  /-- The host reads the next packet from the capture file of port `q`. -/
  | receive (q : BitVec 9)
  /-- Somebody else sends a frame. -/
  | inject (f : List Byte)
  deriving DecidableEq, Repr

namespace Wired

def init (lid : LockId) : Wired where
  regs := Bmv2.Regs.init
  lock := InnetLock.init lid
  up := []
  captured := fun _ => []
  gaps := []
  task := fun _ => .idle
  queued := []
  served := []

/-- The host alone, with nothing on the wire. -/
def host (w : Wired) : OneHost where
  cell := Cell.init
  lock := w.lock
  up := []
  down := []
  gaps := w.gaps
  task := w.task
  queued := w.queued
  served := w.served

/-- After a step that took the host to `s`: the posts that it sends leave as frames. -/
def after (w : Wired) (s : OneHost) : Wired :=
  { w with
    lock := s.lock
    up := w.up ++ s.up.map fun p => buildFrameFromPost p.bytes
    gaps := s.gaps
    task := s.task
    queued := s.queued
    served := s.served }

def step (h : HostId) (w : Wired) : WireEvent → Option Wired
  | .host e => (OneHost.step h w.host e).map w.after
  | .switch =>
      match w.up with
      | [] => none
      | f :: rest =>
          let o := Bmv2.v1Switch w.regs f
          some { w with
            regs := o.1
            up := rest
            captured := fun q => w.captured q ++ (o.2.filter (·.1 = q)).map (·.2) }
  | .receive q =>
      if Bmv2.hasFile q = true then
        match w.captured q with
        | [] => none
        | f :: rest =>
            let w := { w with captured := Function.update w.captured q rest }
            match readLock f with
            | some p => some (w.after (w.host.receiveStep h p []))
            | none => some w
      else none
  | .inject f => some { w with up := w.up ++ [f] }

/-- Task ids fit into a queue entry, and frames of others are not about locks. -/
def Fits (_ : Wired) : WireEvent → Prop
  | .host (.acquire t) => t.toNat < 2 ^ 30
  | .inject f => Bmv2.Foreign f
  | _ => True

instance (w : Wired) : (e : WireEvent) → Decidable (Fits w e)
  | .host (.acquire t) => inferInstanceAs (Decidable (t.toNat < 2 ^ 30))
  | .host (.poll _) | .host (.release _) | .host (.resume _) | .host .switch | .host .receive =>
      isTrue trivial
  | .inject f => inferInstanceAs (Decidable (Bmv2.Foreign f))
  | .switch | .receive _ => isTrue trivial

/-- The states of all runs. -/
abbrev Reachable (h : HostId) (lid : LockId) : Wired → Prop := Reach (step h) Fits (init lid)

/-- What holds at the end of a concrete run holds in some reachable state. -/
lemma exists_of_run (h : HostId) (lid : LockId) (es : List WireEvent) (P : Wired → Prop)
    [DecidablePred P]
    (hrun : (runFrom (step h) Fits (init lid) es).any (fun w => decide (P w)) = true) :
    ∃ w, Reachable h lid w ∧ P w :=
  Reach.exists_of_runFrom es hrun

/-! ## The relation -/

/-- A post as this host sends it for a lock that the switch serves. -/
structure Plain (h : HostId) (p : LockHdr) : Prop where
  known : p.type.known = true
  wq : p.wq = []
  agent : p.agent = h

/-- The frames of `w` carry the packets of `s`, and all else is the same. -/
structure Carried (h : HostId) (lid : LockId) (w : Wired) (s : OneHost) : Prop where
  host : w.host = { s with cell := Cell.init, up := [], down := [] }
  cell : s.cell = w.regs.cell lid
  agent : s.cell.agent = 0 ∨ s.cell.agent = h
  up : s.up = w.up.filterMap readLock
  frames : ∀ f ∈ w.up, Bmv2.Foreign f
    ∨ ∃ p, Plain h p ∧ Bmv2.LockFrame Tofino.UDP_PORT_SERVER p f
  down : s.down = (w.captured (Bmv2.portOf h)).filterMap readLock
  others : ∀ q, q ≠ Bmv2.portOf h → (w.captured q).filterMap readLock = []
  gaps : ∀ x ∈ s.gaps, ∀ p, x.2 = .send p → Plain h p

variable {h : HostId} {lid : LockId} {w w' : Wired} {s s' : OneHost} {p : LockHdr}
  {f : List Byte}

lemma carried_init : Carried h lid (init lid) (OneHost.init lid) where
  host := rfl
  cell := rfl
  agent := .inl rfl
  up := rfl
  frames _ hf := by cases hf
  down := rfl
  others _ _ := rfl
  gaps _ hx := by cases hx

/-! ## Frames of the host -/

/-- A plain post is one header long. -/
lemma Plain.length (hp : Plain h p) : p.bytes.length = 17 := by
  rw [LockHdr.bytes, hp.wq]
  rfl

lemma Plain.frame (hp : Plain h p) :
    Bmv2.LockFrame Tofino.UDP_PORT_SERVER p (buildFrameFromPost p.bytes) := by
  refine Bmv2.LockFrame.of_build ?_
  rw [hp.length]
  decide

lemma Plain.read (hp : Plain h p) (hf : Bmv2.LockFrame Tofino.UDP_PORT_SERVER p f) :
    readLock f = some p := by
  refine hf.readLock hp.known ?_
  rw [hp.wq]
  decide

/-- What the host reads from frames of its own. -/
lemma filterMap_frames {ps : List LockHdr} (hps : ∀ p ∈ ps, Plain h p) :
    (ps.map fun p => buildFrameFromPost p.bytes).filterMap readLock = ps := by
  induction ps with
  | nil => rfl
  | cons p ps ih =>
      have hp := hps p List.mem_cons_self
      rw [List.map_cons, List.filterMap_cons, hp.read hp.frame,
        ih fun q hq => hps q (List.mem_cons_of_mem p hq)]

/-! ## Steps of the host alone -/

/-- A step of the host does not depend on what is on the wire, and adds to it what it sends. -/
lemma step_alone {e : HostEvent}
    (hs : OneHost.step h { s with cell := Cell.init, up := [], down := [] } e = some s') :
    OneHost.step h s e
      = some { s' with cell := s.cell, up := s.up ++ s'.up, down := s.down } := by
  cases e with
  | acquire t =>
      simp only [OneHost.step] at hs ⊢
      split at hs
      · next hg =>
          cases hs
          rw [if_pos (show s.task t = .idle ∧ s.ready t = true from hg)]
          simp [OneHost.acquireStep, OneHost.observe]
      · cases hs
  | poll t =>
      simp only [OneHost.step] at hs ⊢
      split at hs
      · next hg =>
          cases hs
          rw [if_pos (show s.task t = .waiting ∧ s.ready t = true
            ∧ (lockReqGranted s.lock t).2 = true from hg)]
          simp
      · cases hs
  | release t =>
      simp only [OneHost.step] at hs ⊢
      split at hs
      · next hg =>
          cases hs
          rw [if_pos (show s.task t = .holding ∧ s.ready t = true from hg)]
          simp [OneHost.releaseStep]
      · cases hs
  | resume i =>
      simp only [OneHost.step] at hs ⊢
      split at hs
      · next hg =>
          cases hs
          simp
      · next hg =>
          cases hs
          simp [OneHost.observe]
      · cases hs
  | switch => cases hs
  | receive => cases hs

/-- The posts that a step leaves to be sent are plain. -/
lemma gaps_plain (hi : OneHost.Inv h lid s) (hlid : lid.toNat < SWITCH_LOCK_NUM)
    (hg : ∀ x ∈ s.gaps, ∀ p, x.2 = .send p → Plain h p) {e : HostEvent}
    (hs : OneHost.step h s e = some s') : ∀ x ∈ s'.gaps, ∀ p, x.2 = .send p → Plain h p := by
  rcases OneHost.step_cases hs with ⟨t, rfl, ht, rfl⟩ | ⟨t, ht, hf, rfl⟩ | ⟨t, ht, rfl⟩ |
    ⟨a, b, c, p, hgaps, rfl⟩ | ⟨a, b, c, t, hgaps, rfl⟩ | ⟨p, rest, hup, rfl⟩ |
    ⟨p, rest, rfl, hdown, rfl⟩
  · rcases OneHost.lockAcquireAsync_excl (h := h) (t := t) (hi.inRange hlid) with
      ⟨-, f, hcode⟩ | hcode
    · simpa [OneHost.acquireStep, OneHost.gapsOf, hcode] using hg
    · simp only [OneHost.acquireStep, OneHost.gapsOf, hcode]
      rintro x hx p hp
      rcases List.mem_cons.1 hx with rfl | hx
      · cases hp
        exact ⟨rfl, rfl, rfl⟩
      · exact hg x hx p hp
  · exact hg
  · have hc := hi.task t
    rw [ht] at hc
    have hholders := hi.holders_eq hc.2.2.2
    have hagent := (hi.lock.agent (by rw [hholders]; exact Finset.singleton_ne_empty _)).1
    rcases OneHost.lockRelease_excl (hi.inRange hlid) hagent hholders
      (fun e he => (hi.lock.entries e he).2) with ⟨-, L, f, hcode⟩ | ⟨e, rest, hq, L, f, hcode⟩
    · simp only [OneHost.releaseStep, OneHost.gapsOf, hcode]
      rintro x hx p hp
      rcases List.mem_cons.1 hx with rfl | hx
      · cases hp
        exact ⟨rfl, rfl, rfl⟩
      · exact hg x hx p hp
    · simp only [OneHost.releaseStep, OneHost.gapsOf, hcode]
      rintro x hx p hp
      rcases List.mem_cons.1 hx with rfl | hx
      · cases hp
      · exact hg x hx p hp
  · intro x hx q hq
    refine hg x ?_ q hq
    rw [hgaps]
    exact List.mem_append.2 ((List.mem_append.1 hx).imp_right (List.mem_cons_of_mem _))
  · intro x hx q hq
    refine hg x ?_ q hq
    rw [hgaps]
    exact List.mem_append.2 ((List.mem_append.1 hx).imp_right (List.mem_cons_of_mem _))
  · exact hg
  · exact hg

/-- A step of the host alone sends only posts that were left to be sent. -/
lemma up_plain (hg : ∀ x ∈ s.gaps, ∀ p, x.2 = .send p → Plain h p) (hup : s.up = [])
    (hdown : s.down = []) {e : HostEvent} (hs : OneHost.step h s e = some s') :
    ∀ p ∈ s'.up, Plain h p := by
  rcases OneHost.step_cases hs with ⟨t, rfl, ht, rfl⟩ | ⟨t, ht, hf, rfl⟩ | ⟨t, ht, rfl⟩ |
    ⟨a, b, c, p, hgaps, rfl⟩ | ⟨a, b, c, t, hgaps, rfl⟩ | ⟨p, rest, hup', rfl⟩ |
    ⟨p, rest, rfl, hdown', rfl⟩
  · simp [OneHost.acquireStep, OneHost.observe, hup]
  · simp [hup]
  · simp [OneHost.releaseStep, hup]
  · rw [hup]
    rintro q hq
    rw [List.mem_singleton.1 hq]
    exact hg _ (hgaps ▸ List.mem_append_cons_self) p rfl
  · simp [OneHost.observe, hup]
  · rw [hup] at hup'
    cases hup'
  · rw [hdown] at hdown'
    cases hdown'

/-- What a step of the host does with the frames. -/
lemma Carried.host_step (hc : Carried h lid w s) (hi : OneHost.Inv h lid s)
    (hlid : lid.toNat < SWITCH_LOCK_NUM) {e : HostEvent} {s₁ : OneHost}
    (hs : OneHost.step h w.host e = some s₁) :
    ∃ s', OneHost.step h s e = some s' ∧ Carried h lid (w.after s₁) s' := by
  rw [hc.host] at hs
  have hstep := step_alone hs
  have hgaps := gaps_plain hi hlid hc.gaps hstep
  have hsent := up_plain (s := { s with cell := Cell.init, up := [], down := [] }) hc.gaps rfl rfl
    hs
  refine ⟨_, hstep, ?_⟩
  exact {
    host := rfl
    cell := hc.cell
    agent := hc.agent
    up := by
      show s.up ++ s₁.up = _
      rw [after, List.filterMap_append, ← hc.up, filterMap_frames hsent]
    frames := by
      intro f hf
      rcases List.mem_append.1 hf with hf | hf
      · exact hc.frames f hf
      · obtain ⟨p, hp, rfl⟩ := List.mem_map.1 hf
        exact .inr ⟨p, hsent p hp, (hsent p hp).frame⟩
    down := hc.down
    others := hc.others
    gaps := hgaps }

/-! ## The switch -/

/-- All that the switch makes of a packet of this host goes back to this host. -/
lemma process_ports (hi : OneHost.Inv h lid s) (hlid : lid.toNat < 1024) {rest : List LockHdr}
    (hup : s.up = p :: rest) (hag : s.cell.agent = 0 ∨ s.cell.agent = h) :
    (∀ x ∈ (Bmv2.process s.cell (.ofPost p)).2, x.1 = Bmv2.portOf h)
      ∧ ((Bmv2.process s.cell (.ofPost p)).1.agent = 0
        ∨ (Bmv2.process s.cell (.ofPost p)).1.agent = h) := by
  have hp := hi.up p (hup ▸ List.mem_cons_self)
  have hr : p.id.toNat < 1024 := hp.id ▸ hlid
  have hmid : (Bmv2.Hdr.ofPost p).machineId = h := hp.machineId
  rcases hp.kind with ⟨ht, hm, -, -⟩ | ⟨ht, ho⟩
  · by_cases hf : s.cell.free = LOCK_FREE
    · rw [Bmv2.process_acquire_free hr ht hf]
      simp [hmid]
    · have hf' : s.cell.free = LOCK_ACQUIRED := by simpa using hf
      have hexcl : (Bmv2.Hdr.ofPost p).parse.mode = LOCK_EXCL := by
        rw [Bmv2.parse_ofPost, hm]
      rw [Bmv2.process_acquire_fwd hr ht hf' (.inl hexcl)]
      refine ⟨?_, hag⟩
      rcases hag with ha | ha
      · simp [ha, hmid]
      · simp only [List.mem_singleton, forall_eq, ha, hmid]
        split <;> rfl
  · have hacq := hi.acquired_of_free hup ht
    have hback : Tofino.pushedBack s.cell (Bmv2.Hdr.ofPost p).parse = false := by
      rw [Bmv2.parse_ofPost, Tofino.pushedBack, ho]
      refine decide_eq_false ?_
      rintro ⟨⟨⟩, -⟩
    rw [Bmv2.process_free hr ht hback hacq]
    simp [hmid]

/-- What the whole switch does with a packet is what the plane does on the registers of its lock. -/
lemma switchStep_process (r : Bmv2.Regs) (d : BitVec 16) {q : Bmv2.Hdr} (hq : q.id.toNat < 1024) :
    (Bmv2.switchStep r (d, q)).1.cell q.id = (Bmv2.process (r.cell q.id) q).1
      ∧ (Bmv2.switchStep r (d, q)).2.map (fun o => (o.1, o.2.2))
        = (Bmv2.process (r.cell q.id) q).2 := by
  constructor
  · rw [Bmv2.switchStep, Bmv2.fissIngress_cell r q hq, if_pos rfl, Bmv2.process_inRange hq]
  · rw [Bmv2.switchStep, Bmv2.emitUdp_emit, Sidecar.emit_fissIngress, Bmv2.and_mask_of_lt hq]

/-- The frames at a port, as the host reads them. -/
lemma filterMap_port (os : List (BitVec 9 × List Byte)) (q : BitVec 9) :
    ((os.filter (·.1 = q)).map (·.2)).filterMap readLock
      = ((os.filterMap Bmv2.delivered).filter (·.1 = q)).map (·.2) := by
  induction os with
  | nil => rfl
  | cons o os ih =>
      by_cases hq : o.1 = q
      · cases hr : readLock o.2 with
        | none => simp [Bmv2.delivered, hq, hr, ih]
        | some p => simp [Bmv2.delivered, hq, hr, ih]
      · cases hr : readLock o.2 with
        | none => simp [Bmv2.delivered, hq, hr, ih]
        | some p => simp [Bmv2.delivered, hq, hr, ih]

/-- A foreign frame passes the switch, and nothing has happened. -/
lemma Carried.switch_foreign (hc : Carried h lid w s) {rest : List (List Byte)}
    (hup : w.up = f :: rest) (hf : Bmv2.Foreign f) :
    Carried h lid { w with
      regs := (Bmv2.v1Switch w.regs f).1
      up := rest
      captured := fun q =>
        w.captured q ++ ((Bmv2.v1Switch w.regs f).2.filter (·.1 = q)).map (·.2) } s := by
  have hnone : ∀ q : BitVec 9,
      ((([(0, f)] : List (BitVec 9 × List Byte)).filter (·.1 = q)).map (·.2)).filterMap readLock
        = [] := by
    intro q
    rw [filterMap_port]
    simp [Bmv2.delivered, hf.2]
  rw [Bmv2.v1Switch_of_not_hasLock _ hf.1]
  exact {
    host := hc.host
    cell := hc.cell
    agent := hc.agent
    up := by rw [hc.up, hup, List.filterMap_cons, hf.2]
    frames := fun g hg => hc.frames g (hup ▸ List.mem_cons_of_mem f hg)
    down := by rw [List.filterMap_append, hnone, List.append_nil, hc.down]
    others := fun q hq => by rw [List.filterMap_append, hnone, List.append_nil, hc.others q hq]
    gaps := hc.gaps }

/-- A lock frame is exchanged as its packet is. -/
lemma Carried.switch_lock (hc : Carried h lid w s) (hi : OneHost.Inv h lid s)
    (hlid : lid.toNat < 1024) {rest : List (List Byte)} (hup : w.up = f :: rest) (hp : Plain h p)
    (hf : Bmv2.LockFrame Tofino.UDP_PORT_SERVER p f) :
    s.up = p :: rest.filterMap readLock ∧ Carried h lid { w with
      regs := (Bmv2.v1Switch w.regs f).1
      up := rest
      captured := fun q =>
        w.captured q ++ ((Bmv2.v1Switch w.regs f).2.filter (·.1 = q)).map (·.2) }
      { s with
        cell := (OneHost.exchange h s.cell p).1
        up := rest.filterMap readLock
        down := s.down ++ (OneHost.exchange h s.cell p).2 } := by
  have hsup : s.up = p :: rest.filterMap readLock := by
    rw [hc.up, hup, List.filterMap_cons, hp.read hf]
  have hid : p.id = lid := (hi.up p (hsup ▸ List.mem_cons_self)).id
  obtain ⟨hports, hagent⟩ := process_ports hi hlid hsup hc.agent
  have hr : p.id.toNat < 1024 := hid ▸ hlid
  obtain ⟨hcell, hout⟩ := switchStep_process w.regs Tofino.UDP_PORT_SERVER (q := .ofPost p) hr
  have hw : p.wq.length < 2 ^ 32 := by
    rw [hp.wq]
    decide
  have hpid : (Bmv2.Hdr.ofPost p).id = lid := hid
  rw [hpid, ← hc.cell] at hcell hout
  -- what the host reads at a port
  have hread : ∀ q, (((Bmv2.v1Switch w.regs f).2.filter (·.1 = q)).map (·.2)).filterMap readLock
      = ((Bmv2.process s.cell (.ofPost p)).2.filter (·.1 = q)).map fun x => x.2.parse := by
    intro q
    rw [filterMap_port, hf.delivered hp.known hw, ← hout]
    simp [List.filter_map, Function.comp_def]
  refine ⟨hsup, ?_⟩
  exact {
    host := hc.host
    cell := by
      rw [(hf.v1Switch hp.known w.regs).1, hcell]
      rfl
    agent := hagent
    up := rfl
    frames := fun g hg => hc.frames g (hup ▸ List.mem_cons_of_mem f hg)
    down := by
      -- all that leaves goes to this host, so it reads nothing else
      have hown : (Bmv2.process s.cell (.ofPost p)).2.filter (OneHost.reads h ·.1)
          = (Bmv2.process s.cell (.ofPost p)).2.filter (·.1 = Bmv2.portOf h) :=
        List.filter_congr fun x hx => by simp [hports x hx]
      rw [List.filterMap_append, hread, ← hc.down, OneHost.exchange, hown]
    others := fun q hq => by
      have hnone : (Bmv2.process s.cell (.ofPost p)).2.filter (·.1 = q) = [] := by
        rw [List.filter_eq_nil_iff]
        intro x hx
        simpa [hports x hx] using Ne.symm hq
      rw [List.filterMap_append, hread, hnone, hc.others q hq]
      rfl
    gaps := hc.gaps }

/-! ## Receiving -/

/-- The host answers none of its packets. -/
lemma receive_sent (hi : OneHost.Inv h lid s) (hlid : lid.toNat < SWITCH_LOCK_NUM)
    {rest : List LockHdr} (hdown : s.down = p :: rest) :
    (lockPacketProcess (bmv2Conf h) s.lock p).sent = [] := by
  rcases hi.down p (hdown ▸ List.mem_cons_self) with
    ⟨ht, hm, hg, -, -⟩ | ⟨ht, hm, htr, hb⟩ | ⟨ht, -⟩
  · exact (OneHost.receive_request (h := h) (hi.inRange hlid) ht hm hg (hi.lock.noMark p.holder)).1
  · have hid : p.taskId ≠ TASK_FOR_RESTORE := by
      intro he
      rw [he] at hb
      exact absurd hb (by decide)
    exact (OneHost.receive_grant (h := h) (l := s.lock) ht hm htr hid).1
  · exact (OneHost.receive_echo (h := h) ht hi.lock.noDelay).1

/-- A packet that is not about locks is read and forgotten. -/
lemma Carried.receive_foreign (hc : Carried h lid w s) {q : BitVec 9} {rest : List (List Byte)}
    (hq : w.captured q = f :: rest) (hf : readLock f = none) :
    Carried h lid { w with captured := Function.update w.captured q rest } s := by
  have hsame : ∀ q', (Function.update w.captured q rest q').filterMap readLock
      = (w.captured q').filterMap readLock := by
    intro q'
    by_cases he : q' = q
    · subst he
      rw [Function.update_self, hq, List.filterMap_cons, hf]
    · rw [Function.update_of_ne he]
  exact { hc with
    down := by rw [hsame, hc.down]
    others := fun q' hq' => by rw [hsame, hc.others q' hq'] }

/-- A lock packet is the next one that `OneHost` receives. -/
lemma Carried.receive_lock (hc : Carried h lid w s) (hi : OneHost.Inv h lid s)
    (hlid : lid.toNat < SWITCH_LOCK_NUM) {q : BitVec 9} {rest : List (List Byte)}
    (hq : w.captured q = f :: rest) (hf : readLock f = some p) :
    s.down = p :: rest.filterMap readLock ∧ Carried h lid
      (Wired.after { w with captured := Function.update w.captured q rest }
        (w.host.receiveStep h p [])) (s.receiveStep h p (rest.filterMap readLock)) := by
  have hport : q = Bmv2.portOf h := by
    by_contra hne
    have hnone := hc.others q hne
    rw [hq, List.filterMap_cons, hf] at hnone
    cases hnone
  subst hport
  have hdown : s.down = p :: rest.filterMap readLock := by
    rw [hc.down, hq, List.filterMap_cons, hf]
  have hsent := receive_sent hi hlid hdown
  have hlock : w.lock = s.lock := congrArg OneHost.lock hc.host
  have hhost : w.host.receiveStep h p []
      = { s.receiveStep h p (rest.filterMap readLock) with
          cell := Cell.init, up := [], down := [] } := by
    rw [hc.host]
    simp [OneHost.receiveStep, OneHost.observe, hsent]
  have hup : (s.receiveStep h p (rest.filterMap readLock)).up = s.up := by
    simp [OneHost.receiveStep, hsent, OneHost.observe]
  refine ⟨hdown, ?_⟩
  rw [hhost]
  exact {
    host := rfl
    cell := hc.cell
    agent := hc.agent
    up := by
      rw [hup, hc.up]
      simp [after]
    frames := fun g hg => hc.frames g (by simpa [after] using hg)
    down := by
      simp [after, OneHost.receiveStep]
    others := fun q' hq' => by
      simp only [after]
      rw [Function.update_of_ne hq', hc.others q' hq']
    gaps := hc.gaps }

/-! ## The refinement -/

/-- **Every step is a step of `OneHost`, or none.** -/
theorem Carried.step (hc : Carried h lid w s) (hi : OneHost.Inv h lid s) (hlid : lid.toNat < 1024)
    {e : WireEvent} (hok : Fits w e) (hs : Wired.step h w e = some w') :
    ∃ s', (s' = s ∨ ∃ e', OneHost.Fits s e' ∧ OneHost.step h s e' = some s')
      ∧ Carried h lid w' s' := by
  have hlid' : lid.toNat < SWITCH_LOCK_NUM := lt_of_lt_of_le hlid (by decide)
  cases e with
  | host e =>
      obtain ⟨s₁, hs₁, rfl⟩ := Option.map_eq_some_iff.1 hs
      obtain ⟨s', hstep, hc'⟩ := hc.host_step hi hlid' hs₁
      refine ⟨s', .inr ⟨e, ?_, hstep⟩, hc'⟩
      cases e with
      | acquire t => exact hok
      | _ => trivial
  | switch =>
      simp only [Wired.step] at hs
      split at hs
      · cases hs
      · next f rest hup =>
          cases hs
          rcases hc.frames f (hup ▸ List.mem_cons_self) with hf | ⟨p, hp, hf⟩
          · exact ⟨s, .inl rfl, hc.switch_foreign hup hf⟩
          · obtain ⟨hsup, hc'⟩ := hc.switch_lock hi hlid hup hp hf
            refine ⟨_, .inr ⟨.switch, trivial, ?_⟩, hc'⟩
            simp only [OneHost.step, hsup]
  | receive q =>
      simp only [Wired.step] at hs
      split at hs
      · split at hs
        · cases hs
        · next f rest hq =>
            split at hs
            · next p hf =>
                cases hs
                obtain ⟨hdown, hc'⟩ := hc.receive_lock hi hlid' hq hf
                refine ⟨_, .inr ⟨.receive, trivial, ?_⟩, hc'⟩
                simp only [OneHost.step, hdown]
            · next hf =>
                cases hs
                exact ⟨s, .inl rfl, hc.receive_foreign hq hf⟩
      · cases hs
  | inject f =>
      cases hs
      exact ⟨s, .inl rfl, { hc with
        up := by rw [List.filterMap_append, ← hc.up, List.filterMap_cons, hok.2]; simp
        frames := fun g hg => by
          rcases List.mem_append.1 hg with hg | hg
          · exact hc.frames g hg
          · rw [List.mem_singleton.1 hg]
            exact .inl hok }⟩

/-- **The bytes refine the packets.** -/
theorem carried_of_reachable (hlid : lid.toNat < 1024) (hw : Reachable h lid w) :
    ∃ s, OneHost.Reachable h lid OneHost.Fits s ∧ Carried h lid w s := by
  refine hw.invariant
    (I := fun w => ∃ s, OneHost.Reachable h lid OneHost.Fits s ∧ Carried h lid w s)
    ⟨_, .start, carried_init⟩ ?_
  rintro w e w' ⟨s, hs, hc⟩ hok hstep
  have hi := OneHost.inv_of_reachable (lt_of_lt_of_le hlid (by decide)) hs
  obtain ⟨s', hs' | ⟨e', hfit, hstep'⟩, hc'⟩ := hc.step hi hlid hok hstep
  · exact ⟨s', hs' ▸ hs, hc'⟩
  · exact ⟨s', hs.next hfit hstep', hc'⟩

end Wired
end FissLock
