import FissLock.Host.Registry
import FissLock.Library.Runs

/-!
# Registering locks in the whole cluster

`lock_init` asks the registration service for the id of a key.  The service keeps one table for all
hosts, and gives a key that it does not know the next id of its pool.  What comes of it on the
hosts: a key has the same id everywhere and two keys have different ids (`ids_agree`), and as long
as no packet reaches a host before its lock is registered there, both tables of every host name the
same objects (`hosts_coherent`).  `lock_local_init`, which does not ask the service, is not part of
this system.

The call of the service is taken to be reliable, and its reply to be still there when `lock_init`
reads it, although `rpc` hands out a pointer into a vector that is gone when it returns.
-/

namespace FissLock

open Runs

/-- `lock_tbl` and `lid_pool` of the service. -/
structure RpcServer where
  lockTbl : LockKey → Option LockId
  lidPool : LockId

namespace RpcServer

def init : RpcServer := ⟨fun _ => none, 0⟩

/-- `lock_register`: the service afterwards, and `lid` of the reply.  The argument is what `dedump`
makes of the request, nothing if it cannot be read. -/
def lockRegister (d : RpcServer) : Option LockKey → RpcServer × LockId
  | some lock =>
      match d.lockTbl lock with
      | some lid => (d, lid)
      | none =>
          let lid := d.lidPool + 1
          (⟨Function.update d.lockTbl lock (some lid), lid⟩, lid)
  | none => (d, 0)

/-- Ids come from the pool, and none is given twice. -/
structure Sound (d : RpcServer) : Prop where
  le_pool : ∀ key lid, d.lockTbl key = some lid → lid.toNat ≤ d.lidPool.toNat
  pos : ∀ key lid, d.lockTbl key = some lid → 0 < lid.toNat
  inj : ∀ key key' lid, d.lockTbl key = some lid → d.lockTbl key' = some lid → key' = key

variable {d : RpcServer} {key : LockKey}

lemma sound_init : Sound init where
  le_pool _ _ h := by cases h
  pos _ _ h := by cases h
  inj _ _ _ h := by cases h

/-- The reply is what the table has afterwards. -/
lemma lockTbl_lockRegister_self :
    (d.lockRegister (some key)).1.lockTbl key = some (d.lockRegister (some key)).2 := by
  rw [lockRegister]
  split
  · assumption
  · exact Function.update_self ..

/-- What is registered stays so. -/
lemma lockTbl_lockRegister_of_some {key' : LockKey} {lid : LockId} (h : d.lockTbl key' = some lid) :
    (d.lockRegister (some key)).1.lockTbl key' = some lid := by
  rw [lockRegister]
  split
  · exact h
  · next hnone =>
      have hne : key' ≠ key := by
        rintro rfl
        cases hnone.symm.trans h
      exact (Function.update_of_ne hne _ _).trans h

/-- The next id of the pool. -/
lemma toNat_succ_lidPool (h : d.lidPool ≠ BitVec.allOnes 32) :
    (d.lidPool + 1).toNat = d.lidPool.toNat + 1 := by
  have hne : d.lidPool.toNat ≠ 2 ^ 32 - 1 := fun hp =>
    h (BitVec.eq_of_toNat_eq (hp.trans BitVec.toNat_allOnes.symm))
  have hlt : d.lidPool.toNat + 1 < 2 ^ 32 := by
    have := d.lidPool.isLt
    omega
  rw [BitVec.toNat_add]
  exact Nat.mod_eq_of_lt hlt

/-- An entry of the table is an old one, or the new one. -/
lemma update_eq_some {key' : LockKey} {lid lid' : LockId}
    (h : Function.update d.lockTbl key (some lid) key' = some lid') :
    d.lockTbl key' = some lid' ∨ key' = key ∧ lid' = lid := by
  by_cases hkk : key' = key
  · rw [hkk, Function.update_self] at h
    exact .inr ⟨hkk, (Option.some.inj h).symm⟩
  · rw [Function.update_of_ne hkk] at h
    exact .inl h

/-- The next id of the pool is a new one. -/
lemma Sound.lockRegister (hd : Sound d)
    (hroom : d.lockTbl key = none → d.lidPool ≠ BitVec.allOnes 32) :
    Sound (d.lockRegister (some key)).1 := by
  rw [RpcServer.lockRegister]
  split
  · exact hd
  · next hnone =>
      have hnext := toNat_succ_lidPool (hroom hnone)
      have hold : ∀ key', d.lockTbl key' ≠ some (d.lidPool + 1) := by
        intro key' h
        have := hd.le_pool key' _ h
        omega
      constructor
      · intro key' lid h
        show lid.toNat ≤ (d.lidPool + 1).toNat
        obtain h | ⟨-, rfl⟩ := update_eq_some h
        · have := hd.le_pool key' lid h
          omega
        · exact le_rfl
      · intro key' lid h
        obtain h | ⟨-, rfl⟩ := update_eq_some h
        · exact hd.pos key' lid h
        · exact hnext ▸ Nat.succ_pos _
      · intro key₁ key₂ lid h₁ h₂
        obtain old₁ | ⟨new₁, hlid₁⟩ := update_eq_some h₁ <;>
          obtain old₂ | ⟨new₂, hlid₂⟩ := update_eq_some h₂
        · exact hd.inj key₁ key₂ lid old₁ old₂
        · exact absurd (hlid₂ ▸ old₁) (hold key₁)
        · exact absurd (hlid₁ ▸ old₂) (hold key₂)
        · rw [new₁, new₂]

end RpcServer

/-- The service and the tables of the hosts. -/
structure Registration where
  server : RpcServer
  host : HostId → Registry

inductive RegistrationEvent where
  /-- Host `h` calls `lock_init`. -/
  | lockInit (h : HostId) (key : LockKey)
  /-- A lock packet arrives at host `h`. -/
  | packet (h : HostId) (hdr : LockHdr)
  deriving DecidableEq, Repr

namespace Registration

def init : Registration := ⟨.init, fun _ => .init⟩

/-- The step function.  A key that is registered at the host is not asked for again. -/
def step (cf : HostId → Conf) (s : Registration) : RegistrationEvent → Option Registration
  | .lockInit h key =>
      if (s.host h).lockTbl key ≠ none then some s
      else
        let r := s.server.lockRegister (some key)
        some ⟨r.1, Function.update s.host h ((s.host h).lockInit key r.2).1⟩
  | .packet h hdr =>
      some { s with host := Function.update s.host h ((s.host h).lockPacketDispatch (cf h) hdr) }

/-- The pool has an id left for a new key. -/
def HasRoom (s : Registration) : RegistrationEvent → Prop
  | .lockInit _ key => s.server.lockTbl key = none → s.server.lidPool ≠ BitVec.allOnes 32
  | .packet _ _ => True

/-- A packet is for a lock that its host knows. -/
def InTime (s : Registration) : RegistrationEvent → Prop
  | .lockInit _ _ => True
  | .packet h hdr => (s.host h).lockIdMap hdr.id ≠ none

instance (s : Registration) : (e : RegistrationEvent) → Decidable (HasRoom s e)
  | .lockInit _ _ => inferInstanceAs (Decidable (_ → _))
  | .packet _ _ => inferInstanceAs (Decidable True)

instance (s : Registration) : (e : RegistrationEvent) → Decidable (InTime s e)
  | .lockInit _ _ => inferInstanceAs (Decidable True)
  | .packet _ _ => inferInstanceAs (Decidable (_ ≠ _))

/-- The states of all runs in which the pool suffices. -/
abbrev Reachable (cf : HostId → Conf) : Registration → Prop := Reach (step cf) HasRoom init

/-- The states of the runs in which no packet is early, either. -/
abbrev ReachableInTime (cf : HostId → Conf) : Registration → Prop :=
  Reach (step cf) (fun s e => HasRoom s e ∧ InTime s e) init

/-! ## One host and the service -/

/-- A registered lock has the id that the service has given to its key. -/
def Follows (d : RpcServer) (r : Registry) : Prop :=
  ∀ key a, r.lockTbl key = some a → ∃ l, r.heap[a]? = some l ∧ d.lockTbl key = some l.id

/-- The tables name the same objects, and only the ids of registered locks are in use. -/
structure Ordered (d : RpcServer) (r : Registry) : Prop where
  coherent : r.Coherent
  known : ∀ lid, r.lockIdMap lid ≠ none → ∃ key, d.lockTbl key = some lid ∧ r.lockTbl key ≠ none

section Host

variable {d d' : RpcServer} {r : Registry} {key : LockKey} {lid : LockId} {hdr : LockHdr}
  {cf : Conf}

lemma Follows.mono (hf : Follows d r)
    (hd : ∀ key lid, d.lockTbl key = some lid → d'.lockTbl key = some lid) : Follows d' r := by
  intro key a ha
  obtain ⟨l, hl, hk⟩ := hf key a ha
  exact ⟨l, hl, hd _ _ hk⟩

lemma Ordered.mono (ho : Ordered d r)
    (hd : ∀ key lid, d.lockTbl key = some lid → d'.lockTbl key = some lid) : Ordered d' r := by
  refine ⟨ho.coherent, fun lid hl => ?_⟩
  obtain ⟨key, hk, hr⟩ := ho.known lid hl
  exact ⟨key, hd _ _ hk, hr⟩

/-- A key is registered under the id that the service has for it. -/
lemma Follows.register (hf : Follows d r) (hk : r.lockTbl key = none)
    (hlid : d.lockTbl key = some lid) : Follows d (r.register key lid) := by
  intro key' a ha
  simp only [Registry.register, Registry.insertNew_of_none hk] at ha
  by_cases hkk : key' = key
  · rw [hkk, Function.update_self] at ha
    refine ⟨.init lid, ?_, hkk ▸ hlid⟩
    rw [← Option.some.inj ha]
    simp [Registry.register]
  · rw [Function.update_of_ne hkk] at ha
    obtain ⟨l, hl, hd'⟩ := hf key' a ha
    refine ⟨l, ?_, hd'⟩
    simpa [Registry.register, List.getElem?_append_left (r.tbl_lt key' a ha)] using hl

/-- The id is not in use: if it was, it would be the id of another key. -/
lemma Ordered.register (ho : Ordered d r) (hd : d.Sound) (hk : r.lockTbl key = none)
    (hlid : d.lockTbl key = some lid) : Ordered d (r.register key lid) := by
  have hfree : r.lockIdMap lid = none := by
    by_contra hused
    obtain ⟨key', hk', hr⟩ := ho.known lid hused
    exact hr (hd.inj key key' lid hlid hk' ▸ hk)
  refine ⟨ho.coherent.register hk hfree, fun lid' hl => ?_⟩
  simp only [Registry.register, Registry.insertNew_of_none hfree, Registry.insertNew_of_none hk]
    at hl ⊢
  by_cases hll : lid' = lid
  · exact ⟨key, hll ▸ hlid, by simp⟩
  · rw [Function.update_of_ne hll] at hl
    obtain ⟨key', hk', hr⟩ := ho.known lid' hl
    refine ⟨key', hk', ?_⟩
    by_cases hkk : key' = key
    · simp [hkk]
    · rwa [Function.update_of_ne hkk]

/-- A packet changes no id, even when an object is created for it. -/
lemma Follows.packet (hf : Follows d r) : Follows d (r.lockPacketDispatch cf hdr) := by
  have hdesc : ∀ key a, (r.lockIdToDesc hdr.id).1.lockTbl key = some a →
      ∃ l, (r.lockIdToDesc hdr.id).1.heap[a]? = some l ∧ d.lockTbl key = some l.id := by
    intro key a ha
    rw [Registry.lockIdToDesc] at ha ⊢
    split at ha
    · exact hf key a ha
    · obtain ⟨l, hl, hd⟩ := hf key a ha
      exact ⟨l, (List.getElem?_append_left (r.tbl_lt key a ha)).trans hl, hd⟩
  intro key a ha
  obtain ⟨l, hl, hd⟩ := hdesc key a ha
  simp only [Registry.lockPacketDispatch, List.getElem?_modify, hl]
  refine ⟨_, rfl, ?_⟩
  split
  · rw [Registry.lockPacketProcess_id, hd]
  · exact hd

/-- A packet for a lock that is known changes neither table. -/
lemma Ordered.packet (ho : Ordered d r) (hk : r.lockIdMap hdr.id ≠ none) :
    Ordered d (r.lockPacketDispatch cf hdr) := by
  obtain ⟨b, hb⟩ := Option.ne_none_iff_exists'.1 hk
  have hdesc : r.lockIdToDesc hdr.id = (r, b) := by rw [Registry.lockIdToDesc, hb]
  refine ⟨ho.coherent.packet, fun lid hl => ?_⟩
  simp only [Registry.lockPacketDispatch, hdesc] at hl ⊢
  exact ho.known lid hl

end Host

/-! ## Runs -/

section Steps

variable {cf : HostId → Conf} {s s' : Registration} {e : RegistrationEvent}

/-- What a step does to the service. -/
lemma server_step (h : s.step cf e = some s') :
    s'.server = s.server ∨
      ∃ h' key, e = .lockInit h' key ∧ s'.server = (s.server.lockRegister (some key)).1 := by
  cases e with
  | lockInit h' key =>
      simp only [step] at h
      split at h
      · exact .inl (by rw [← Option.some.inj h])
      · exact .inr ⟨h', key, rfl, by rw [← Option.some.inj h]⟩
  | packet h' hdr => exact .inl (by rw [← Option.some.inj h])

/-- What a step does to a host. -/
lemma host_step (h : s.step cf e = some s') (h' : HostId) :
    s'.host h' = s.host h' ∨
      (∃ key, (s.host h').lockTbl key = none ∧
        s'.server.lockTbl key = some (s.server.lockRegister (some key)).2 ∧
        s'.host h' = (s.host h').register key (s.server.lockRegister (some key)).2) ∨
      ∃ hdr, e = .packet h' hdr ∧ s'.host h' = (s.host h').lockPacketDispatch (cf h') hdr := by
  cases e with
  | lockInit h₁ key =>
      simp only [step] at h
      split at h
      · exact .inl (by rw [← Option.some.inj h])
      · next hk =>
          have hk' : (s.host h₁).lockTbl key = none := not_not.1 hk
          rw [← Option.some.inj h]
          by_cases hh : h' = h₁
          · subst hh
            refine .inr (.inl ⟨key, hk', RpcServer.lockTbl_lockRegister_self, ?_⟩)
            simp only [Function.update_self, Registry.lockInit, if_neg (not_not.2 hk')]
          · exact .inl (Function.update_of_ne hh _ _)
  | packet h₁ hdr =>
      rw [← Option.some.inj h]
      by_cases hh : h' = h₁
      · subst hh
        exact .inr (.inr ⟨hdr, rfl, Function.update_self ..⟩)
      · exact .inl (Function.update_of_ne hh _ _)

/-- What the service has answered once, it answers always. -/
lemma lockTbl_step (h : s.step cf e = some s') {key : LockKey} {lid : LockId}
    (hk : s.server.lockTbl key = some lid) : s'.server.lockTbl key = some lid := by
  obtain heq | ⟨h', key', -, heq⟩ := server_step h
  · rw [heq, hk]
  · rw [heq]
    exact RpcServer.lockTbl_lockRegister_of_some hk

lemma sound_step (hd : s.server.Sound) (hr : HasRoom s e) (h : s.step cf e = some s') :
    s'.server.Sound := by
  obtain heq | ⟨h', key, rfl, heq⟩ := server_step h
  · exact heq ▸ hd
  · exact heq ▸ hd.lockRegister hr

lemma follows_step {h' : HostId} (hf : Follows s.server (s.host h')) (h : s.step cf e = some s') :
    Follows s'.server (s'.host h') := by
  have hf' : Follows s'.server (s.host h') := hf.mono fun _ _ => lockTbl_step h
  obtain heq | ⟨key, hk, hlid, heq⟩ | ⟨hdr, -, heq⟩ := host_step h h'
  · exact heq ▸ hf'
  · exact heq ▸ hf'.register hk hlid
  · exact heq ▸ hf'.packet

lemma ordered_step {h' : HostId} (ho : Ordered s.server (s.host h')) (hd : s'.server.Sound)
    (ht : InTime s e) (h : s.step cf e = some s') : Ordered s'.server (s'.host h') := by
  have ho' : Ordered s'.server (s.host h') := ho.mono fun _ _ => lockTbl_step h
  obtain heq | ⟨key, hk, hlid, heq⟩ | ⟨hdr, rfl, heq⟩ := host_step h h'
  · exact heq ▸ ho'
  · exact heq ▸ ho'.register hd hk hlid
  · exact heq ▸ ho'.packet ht

theorem follows_of_reachable (h : Reachable cf s) :
    s.server.Sound ∧ ∀ h', Follows s.server (s.host h') := by
  refine Reach.invariant (I := fun s => s.server.Sound ∧ ∀ h', Follows s.server (s.host h'))
    ⟨RpcServer.sound_init, fun _ _ _ h => by cases h⟩ ?_ h
  intro s e s' hi hr hs
  exact ⟨sound_step hi.1 hr hs, fun h' => follows_step (hi.2 h') hs⟩

theorem ordered_of_reachable (h : ReachableInTime cf s) :
    s.server.Sound ∧ ∀ h', Ordered s.server (s.host h') := by
  refine Reach.invariant (I := fun s => s.server.Sound ∧ ∀ h', Ordered s.server (s.host h'))
    ⟨RpcServer.sound_init, fun _ => ⟨?_, ?_⟩⟩ ?_ h
  · intro _ _ hkey
    cases hkey
  · intro _ hlid
    exact absurd rfl hlid
  · intro s e s' hi ho hs
    have hd := sound_step hi.1 ho.1 hs
    exact ⟨hd, fun h' => ordered_step (hi.2 h') hd ho.2 hs⟩

end Steps

/-- The lock that host `h` has registered under a key. -/
def lock (s : Registration) (h : HostId) (key : LockKey) : Option InnetLock :=
  ((s.host h).lockTbl key).bind fun a => (s.host h).heap[a]?

/-- **A key has one id in the whole cluster.**  In every run in which the pool suffices, whatever
hosts register what, in which order, and whatever packets arrive when: no registered lock has the
id 0, and two of them have the same id exactly if they have the same key, on one host or on two. -/
theorem ids_agree {cf : HostId → Conf} {s : Registration} (hs : Reachable cf s)
    {h h' : HostId} {key key' : LockKey} {l l' : InnetLock} (hl : s.lock h key = some l)
    (hl' : s.lock h' key' = some l') : l.id ≠ 0 ∧ (l.id = l'.id ↔ key = key') := by
  obtain ⟨hd, hf⟩ := follows_of_reachable hs
  have hid : ∀ {h key l}, s.lock h key = some l → s.server.lockTbl key = some l.id := by
    intro h key l hl
    obtain ⟨a, ha, hl⟩ := Option.bind_eq_some_iff.1 hl
    obtain ⟨l₁, hl₁, hk⟩ := hf h key a ha
    rwa [Option.some.inj (hl₁.symm.trans hl)] at hk
  refine ⟨fun h0 => ?_, fun heq => ?_, ?_⟩
  · have := hd.pos key l.id (hid hl)
    rw [h0] at this
    exact absurd this (Nat.lt_irrefl 0)
  · exact (hd.inj key key' l.id (hid hl) (heq ▸ hid hl')).symm
  · rintro rfl
    exact Option.some.inj ((hid hl).symm.trans (hid hl'))

/-- A packet for the lock of key 7 reaches host 2 early. -/
def earlyAtTwo : List RegistrationEvent :=
  [.lockInit 1 7, .packet 2 (sendPostGrant 1 2 5), .lockInit 2 9, .lockInit 2 7]

/-- The early packet has made an object, but host 2 still registers the key under its one id. -/
theorem ids_agree_early_packet : ∃ s l l', Reachable (Conf.mk · true false) s
    ∧ s.lock 1 7 = some l ∧ s.lock 2 7 = some l'
    ∧ (l.id ≠ 0 ∧ (l.id = l'.id ↔ (7 : LockKey) = 7)) := by
  have hrun : ∃ s, Reachable (Conf.mk · true false) s
      ∧ ((s.lock 1 7).isSome = true ∧ (s.lock 2 7).isSome = true) :=
    Reach.exists_of_runFrom earlyAtTwo (by decide +kernel)
  obtain ⟨s, hs, h₁, h₂⟩ := hrun
  obtain ⟨l, hl⟩ := Option.isSome_iff_exists.1 h₁
  obtain ⟨l', hl'⟩ := Option.isSome_iff_exists.1 h₂
  exact ⟨s, l, l', hs, hl, hl', ids_agree hs hl hl'⟩

/-- **The tables of every host name the same objects**, in every run in which the pool suffices and
no packet reaches a host that does not know its lock yet. -/
theorem hosts_coherent {cf : HostId → Conf} {s : Registration} (hs : ReachableInTime cf s)
    (h : HostId) : (s.host h).Coherent :=
  ((ordered_of_reachable hs).2 h).coherent

/-- Host 2 has registered both keys before the packet. -/
theorem hosts_coherent_both_keys : ∃ s, ReachableInTime (Conf.mk · true false) s
    ∧ ((s.host 2).lockTbl 7 ≠ none ∧ (s.host 2).lockTbl 9 ≠ none) ∧ (s.host 2).Coherent := by
  have hrun : ∃ s, ReachableInTime (Conf.mk · true false) s
      ∧ ((s.host 2).lockTbl 7 ≠ none ∧ (s.host 2).lockTbl 9 ≠ none) :=
    Reach.exists_of_runFrom
      [.lockInit 1 7, .lockInit 2 9, .lockInit 2 7, .packet 2 (sendPostGrant 1 2 5)]
      (by decide +kernel)
  obtain ⟨s, hs, hkeys⟩ := hrun
  exact ⟨s, hs, hkeys, hosts_coherent hs 2⟩

end Registration

end FissLock
